import SwitchFailover.Plan.Blocking

/-!
# What a valid plan re-derives

A plan that only carries what the planner could have produced accounts for every demand
once, and each of its restore steps is an eligible alternative of the candidate table.
The validator recomputes the demands but looks for the missing ones only, and it checks the
hops of a step against the topology but not the step against the table.  A valid plan is
re-derived where those two gaps are not used.
-/

namespace SwitchFailover.Plan

open SwitchFailover.Core Model Library

variable {step : RestoreStep}

variable {inputs : PlanInputs} {demand : Demand} {candidate : ReconstructionCandidate}
  {plan : ReconstructionPlan}

/-! ## Reported alternatives -/

def evaluateCandidates (dependent : DependentRef) (failed : SwitchKey) (inputs : PlanInputs) :
    List CandidateEligibility :=
  (evaluateDemand ⟨dependent, failed⟩ inputs).reports

/-- The evaluation has an eligible report in the place of the candidate. -/
def ReportedEligible (inputs : PlanInputs) (demand : Demand) (candidate : ReconstructionCandidate) :
    Prop :=
  ∃ (position : ℕ) (report : CandidateEligibility),
    (inputs.table.forDependent demand.dependent)[position]? = some candidate ∧
      (evaluateCandidates demand.dependent demand.failed inputs)[position]? = some report ∧
      report.eligible = true

/-- The alternatives the enumeration bound leaves to be examined. -/
def examinedFor (inputs : PlanInputs) (dependent : DependentRef) : List ReconstructionCandidate :=
  (inputs.table.forDependent dependent).take inputs.planning.maxCandidatesPerDependent.toNat

theorem reportedEligible_iff : ReportedEligible inputs demand candidate ↔
    candidate ∈ examinedFor inputs demand.dependent ∧
      CandidateAdmissible inputs demand candidate := by
  have hreports : evaluateCandidates demand.dependent demand.failed inputs =
      (examinedFor inputs demand.dependent).map (reportOf inputs demand) := rfl
  have hexamined : ∀ position : ℕ,
      (examinedFor inputs demand.dependent)[position]? = some candidate →
      (inputs.table.forDependent demand.dependent)[position]? = some candidate := by
    intro position hposition
    rw [examinedFor, List.getElem?_take] at hposition
    split_ifs at hposition
    exact hposition
  constructor
  · rintro ⟨position, report, hcandidate, hreport, heligible⟩
    rw [hreports, List.getElem?_map, Option.map_eq_some_iff] at hreport
    obtain ⟨examined, hposition, rfl⟩ := hreport
    have hsame : examined = candidate := by
      have hfound := hposition
      rw [examinedFor, List.getElem?_take] at hfound
      split_ifs at hfound
      rw [hfound] at hcandidate
      exact Option.some.inj hcandidate
    subst hsame
    exact ⟨List.mem_of_getElem? hposition, reportOf_eligible.mp heligible⟩
  · rintro ⟨hmem, hadmissible⟩
    obtain ⟨position, hposition⟩ := List.getElem?_of_mem hmem
    refine ⟨position, reportOf inputs demand candidate, hexamined position hposition, ?_,
      reportOf_eligible.mpr hadmissible⟩
    rw [hreports, List.getElem?_map, hposition]
    rfl

/-! ## Re-derived plans -/

def RestoreStep.toDemand (step : RestoreStep) : Demand := ⟨step.dependent, step.coversFailed⟩

/-- The step that carries out an alternative. -/
def RestoreStep.Carries (step : RestoreStep) (candidate : ReconstructionCandidate) : Prop :=
  step = {
    dependent := candidate.dependent
    coversFailed := candidate.coversFailed
    action := .rebindReplacement
    replacement := candidate.hops.headD default
    hops := candidate.hops
    links := candidate.links
    cost := candidate.cost
    evidence := candidate.evidence }

/-- The plan accounts for every demand once and for nothing else, and its steps are eligible
alternatives of the table. -/
structure Rederived (plan : ReconstructionPlan) (inputs : PlanInputs) : Prop where
  demands : (plan.restores.map RestoreStep.demandPair ++
      plan.unresolved.map UnresolvedDependent.demandPair).Perm
    ((buildDemandPlan inputs plan.failedGenerations).demands.map
      fun demand => (demand.dependent, demand.failed))
  steps : ∀ step ∈ plan.restores, ∃ candidate ∈ inputs.table.candidates,
    step.Carries candidate ∧ ReportedEligible inputs step.toDemand candidate

/-- An examined alternative of the table behind a step, with the checks on it that the
validator does not make. -/
structure Backing (inputs : PlanInputs) (step : RestoreStep) (candidate : ReconstructionCandidate) :
    Prop where
  examined : candidate ∈ examinedFor inputs step.dependent
  covers : candidate.coversFailed = step.coversFailed
  hops : candidate.hops = step.hops
  links : candidate.links = step.links
  cost : candidate.cost = step.cost
  evidence : candidate.evidence = step.evidence
  origin : inputs.planning.requireAuthoritativeCandidateEvidence = true →
    trustOf candidate.source = .authoritative
  policy : ∀ hop ∈ step.hops, ∀ descriptor, inputs.snapshot.findSwitch hop = some descriptor →
    CapabilityHolds inputs step.toDemand candidate descriptor ∧
      SeparationHolds inputs step.toDemand descriptor

/-- The gaps of the validator are not used: no pair that is not a demand, no pair twice, and
an alternative behind every step. -/
structure Unforged (plan : ReconstructionPlan) (inputs : PlanInputs) : Prop where
  demanded : ∀ pair ∈ plan.restores.map RestoreStep.demandPair ++
      plan.unresolved.map UnresolvedDependent.demandPair,
    ∃ demand ∈ demandsOf inputs plan.failedGenerations, (demand.dependent, demand.failed) = pair
  unresolvedOnce : (plan.unresolved.map UnresolvedDependent.demandPair).Nodup
  disjoint : (plan.restores.map RestoreStep.demandPair).Disjoint
    (plan.unresolved.map UnresolvedDependent.demandPair)
  backed : ∀ step ∈ plan.restores, ∃ candidate, Backing inputs step candidate

theorem Rederived.unforged (hrederived : Rederived plan inputs) : Unforged plan inputs := by
  have hnodup := hrederived.demands.nodup_iff.mpr demandPairs_nodup
  obtain ⟨-, honce, hdisjoint⟩ := List.nodup_append'.mp hnodup
  refine ⟨?_, honce, hdisjoint, ?_⟩
  · intro pair hpair
    exact List.mem_map.mp (hrederived.demands.mem_iff.mp hpair)
  · intro step hstep
    obtain ⟨candidate, -, rfl, hreported⟩ := hrederived.steps step hstep
    obtain ⟨hexamined, hadmissible⟩ := reportedEligible_iff.mp hreported
    refine ⟨candidate, hexamined, rfl, rfl, rfl, rfl, rfl, hadmissible.origin, ?_⟩
    intro hop hhop descriptor hfound
    obtain ⟨known, hknown, hcapable, hseparate, -⟩ := (hadmissible.hops hop hhop).known
    rw [hfound] at hknown
    cases hknown
    exact ⟨hcapable, hseparate⟩

/-- A generation that a certified step uses has spare capacity. -/
theorem Certified.capacity_ne_zero (hcertified : Certified plan inputs)
    (hstep : step ∈ plan.restores) {hop : SwitchKey} (hhop : hop ∈ step.hops)
    {descriptor : SwitchDescriptor} (hfound : inputs.snapshot.findSwitch hop = some descriptor) :
    descriptor.capacityScore ≠ 0 := by
  intro hzero
  have hused : 0 < usageOf plan hop :=
    List.countP_pos_iff.mpr ⟨step, hstep, decide_eq_true hhop⟩
  have hwithin := hcertified.capacity hop
  rw [PlanInputs.capacityOf, hfound] at hwithin
  simp only [Option.map_some, Option.getD_some, hzero, UInt32.toNat_zero] at hwithin
  omega

/-- What the validator does check completes the backing to an eligible alternative. -/
theorem Backing.reported (hbacking : Backing inputs step candidate)
    (hcertified : Certified plan inputs) (hstep : step ∈ plan.restores) :
    ReportedEligible inputs step.toDemand candidate := by
  have hchecked := hcertified.steps step hstep
  refine reportedEligible_iff.mpr ⟨hbacking.examined, hbacking.covers, hbacking.origin, ?_⟩
  intro hop hhop
  rw [hbacking.hops] at hhop
  have hhopChecked := hchecked.hops hop hhop
  obtain ⟨descriptor, hfound⟩ := Option.isSome_iff_exists.mp hhopChecked.known
  obtain ⟨hcapable, hseparate⟩ := hbacking.policy hop hhop descriptor hfound
  refine ⟨?_, hhopChecked.unfenced, hhopChecked.noConflict, hhopChecked.noObligation, descriptor,
    hfound, hcapable, hseparate, hcertified.capacity_ne_zero hstep hhop hfound⟩
  rintro rfl
  exact hhopChecked.notFailed hchecked.covers

theorem Backing.carries (hbacking : Backing inputs step candidate)
    (hchecked : StepCertified plan inputs step) : step.Carries candidate := by
  have hdependent := (mem_forDependent (List.mem_of_mem_take hbacking.examined)).2
  have hreplacement : candidate.hops.headD default = step.replacement := by
    rw [hbacking.hops, List.headD_eq_head?_getD, hchecked.replacement]
    rfl
  have haction := hchecked.action
  rw [RestoreStep.Carries, hdependent, hbacking.covers, hreplacement, hbacking.hops,
    hbacking.links, hbacking.cost, hbacking.evidence, ← haction]

/-- A valid plan is re-derived from the inputs exactly when it is not forged in what the
validator leaves unchecked. -/
theorem rederived_iff (hvalid : (validatePlan plan inputs).valid = true) :
    Rederived plan inputs ↔ Unforged plan inputs := by
  refine ⟨Rederived.unforged, ?_⟩
  intro hunforged
  have hcertified := validatePlan_valid_iff_certified.mp hvalid
  refine ⟨?_, ?_⟩
  · have hnodup := List.nodup_append'.mpr
      ⟨hcertified.distinct, hunforged.unresolvedOnce, hunforged.disjoint⟩
    refine (List.perm_ext_iff_of_nodup hnodup demandPairs_nodup).mpr fun pair => ?_
    constructor
    · intro hpair
      exact List.mem_map.mpr (hunforged.demanded pair hpair)
    · intro hpair
      obtain ⟨demand, hdemand, rfl⟩ := List.mem_map.mp hpair
      exact hcertified.coverage demand hdemand
  · intro step hstep
    obtain ⟨candidate, hbacking⟩ := hunforged.backed step hstep
    exact ⟨candidate, (mem_forDependent (List.mem_of_mem_take hbacking.examined)).1,
      hbacking.carries (hcertified.steps step hstep), hbacking.reported hcertified hstep⟩

theorem rederived_iff_sample :
    (validatePlan Sample.answer Sample.request).valid = true ∧
      (Rederived Sample.answer Sample.request ↔ Unforged Sample.answer Sample.request) :=
  ⟨by decide +kernel, rederived_iff (by decide +kernel)⟩

/-- The plan of the sample with a step that no alternative supplies, whose dependent is
listed as unresolved too, and with an entry for a path that does not exist. -/
def Sample.forged : ReconstructionPlan :=
  ReconstructionPlan.sealed { Sample.answer with
    restores := [{
      dependent := .path ⟨1⟩
      coversFailed := Sample.switchA
      action := .rebindReplacement
      replacement := Sample.switchC
      hops := [Sample.switchC]
      cost := 1 }]
    unresolved := [1, 2, 3, 4].map fun id =>
      { dependent := .path ⟨id⟩, coversFailed := Sample.switchA, reason := .noCandidateSupplied } }

theorem forged_valid_sample :
    (validatePlan Sample.forged Sample.request).valid = true ∧
      Sample.forged.closureComplete = true ∧
      (∃ entry ∈ Sample.forged.unresolved, ∀ demand ∈
        (buildDemandPlan Sample.request Sample.forged.failedGenerations).demands,
          demand.dependent ≠ entry.dependent) ∧
      (∃ step ∈ Sample.forged.restores, ∃ entry ∈ Sample.forged.unresolved,
        step.demandPair = entry.demandPair) ∧
      (∃ step ∈ Sample.forged.restores, ∀ candidate ∈ Sample.request.table.candidates,
        candidate.hops = step.hops → candidate.cost ≠ step.cost) := by
  refine ⟨?_, ?_, ?_, ?_, ?_⟩ <;> decide +kernel

end SwitchFailover.Plan
