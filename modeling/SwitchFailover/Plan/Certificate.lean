import SwitchFailover.Plan.Validity

/-!
# The certificate behind a valid report

The checks of the validator are spelled out as one statement about the plan and the
inputs.  A report is valid exactly when that statement holds, for any plan value
whatever, also one that was edited and sealed again.
-/

namespace SwitchFailover.Plan

open SwitchFailover.Core Model Library.Ordering

variable {plan : ReconstructionPlan} {inputs : PlanInputs}

/-- No check of the list left a finding. -/
def Passes (checks : List Check) : Prop := ∀ check ∈ checks, check = none

section Passes

@[simp]
theorem passes_nil : Passes [] := by simp [Passes]

@[simp]
theorem passes_cons (first : Check) (rest : List Check) :
    Passes (first :: rest) ↔ first = none ∧ Passes rest := by
  simp [Passes]

@[simp]
theorem passes_append (left right : List Check) :
    Passes (left ++ right) ↔ Passes left ∧ Passes right := by
  simp [Passes, or_imp, forall_and]

@[simp]
theorem passes_flatMap {A : Type} (checks : A → List Check) (values : List A) :
    Passes (values.flatMap checks) ↔ ∀ value ∈ values, Passes (checks value) := by
  simp only [Passes, List.mem_flatMap]
  constructor
  · intro hall value hvalue check hcheck
    exact hall check ⟨value, hvalue, hcheck⟩
  · rintro hall check ⟨value, hvalue, hcheck⟩
    exact hall value hvalue check hcheck

@[simp]
theorem passes_map {A : Type} (toCheck : A → Check) (values : List A) :
    Passes (values.map toCheck) ↔ ∀ value ∈ values, toCheck value = none := by
  simp [Passes]

@[simp]
theorem passes_checkWhen (failed : Bool) (code : Code) (scope detail : Bytes) :
    Passes (checkWhen failed code scope detail) ↔ failed = false := by
  cases failed with
  | false => simp [checkWhen]
  | true => simp [checkWhen]

@[simp]
theorem passes_if {condition : Prop} [Decidable condition] (checks : List Check) :
    Passes (if condition then checks else []) ↔ (condition → Passes checks) := by
  by_cases hcondition : condition
  · simp [hcondition]
  · simp [hcondition]

end Passes

/-- What a valid report says about one hop. -/
structure HopCertified (plan : ReconstructionPlan) (inputs : PlanInputs) (hop : SwitchKey) :
    Prop where
  notFailed : hop ∉ plan.failedGenerations.keys
  unfenced : inputs.isFenced hop = false
  known : (inputs.snapshot.findSwitch hop).isSome = true
  noObligation : (inputs.assess hop).fenceRequired = false
  noConflict : (inputs.assess hop).outcome ≠ .conflict

/-- What a valid report says about one restore step. -/
structure StepCertified (plan : ReconstructionPlan) (inputs : PlanInputs) (step : RestoreStep) :
    Prop where
  dependent : step.dependent.valid = true
  qualified : step.coversFailed.valid = true
  covers : step.coversFailed ∈ plan.failedGenerations.keys
  action : step.action = .rebindReplacement
  hopsNonempty : step.hops ≠ []
  cost : step.cost ≠ 0
  replacement : step.hops.head? = some step.replacement
  hops : ∀ hop ∈ step.hops, HopCertified plan inputs hop
  links : ∀ link ∈ step.links, (inputs.snapshot.findLink link).isSome = true

/-- The dependent and the failed generation a step or an entry accounts for. -/
def RestoreStep.demandPair (step : RestoreStep) : DependentRef × SwitchKey :=
  (step.dependent, step.coversFailed)

def UnresolvedDependent.demandPair (entry : UnresolvedDependent) : DependentRef × SwitchKey :=
  (entry.dependent, entry.coversFailed)

/-- What a valid report says about a plan. -/
structure Certified (plan : ReconstructionPlan) (inputs : PlanInputs) : Prop where
  digest : plan.digestValid = true
  epoch : plan.epoch = inputs.epoch
  boot : plan.boot = inputs.boot
  topologyDigest : plan.topologyDigest = inputs.snapshot.digest
  policyDigest : plan.policyDigest = inputs.policyDigest
  failedNonempty : plan.failedGenerations.keys ≠ []
  infeasible : plan.feasibility = .provenInfeasible →
    plan.restores = [] ∧ plan.unresolved ≠ []
  nothing : plan.feasibility = .nothingToRestore → plan.restores = []
  fenceSteps : ∀ step ∈ plan.fences, step.failed.valid = true ∧
    (step.closureState = .truncated → plan.closureComplete = false) ∧
    inputs.isFenced step.failed = true
  fenceCover : ∀ key ∈ plan.failedGenerations.keys, ∃ step ∈ plan.fences, step.failed = key
  steps : ∀ step ∈ plan.restores, StepCertified plan inputs step
  distinct : (plan.restores.map RestoreStep.demandPair).Nodup
  capacity : ∀ key, usageOf plan key ≤ inputs.capacityOf key
  coverage : ∀ demand ∈ (buildDemandPlan inputs plan.failedGenerations).demands,
    (demand.dependent, demand.failed) ∈ plan.restores.map RestoreStep.demandPair ++
      plan.unresolved.map UnresolvedDependent.demandPair
  closure : plan.closureComplete =
    (buildDemandPlan inputs plan.failedGenerations).closureComplete
  restoreOrder : plan.restores.IsChain fun left right => left.rank ≤ right.rank
  unresolvedOrder : plan.unresolved.IsChain fun left right => left.rank ≤ right.rank

theorem passes_hopChecks (scope : Bytes) (hop : SwitchKey) :
    Passes (hopChecks plan inputs scope hop) ↔ HopCertified plan inputs hop := by
  have hfailed : (!plan.failedGenerations.contains hop) = true ↔
      hop ∉ plan.failedGenerations.keys := by
    simp [GenerationVector.contains]
  rw [hopChecks, passes_cons, check_eq_none, hfailed]
  constructor
  · rintro ⟨hnotFailed, hpasses⟩
    split_ifs at hpasses with hfenced hunknown hstale
    · simp at hpasses
    · simp at hpasses
    · simp at hpasses
    · simp only [passes_append, passes_checkWhen, beq_eq_false_iff_ne] at hpasses
      refine ⟨hnotFailed, by simpa using hfenced, ?_, hpasses.1, hpasses.2⟩
      cases hfound : inputs.snapshot.findSwitch hop with
      | none => simp [hfound] at hunknown
      | some descriptor => rfl
  · intro hcertified
    have hknown : ¬ (inputs.snapshot.findSwitch hop).isNone = true := by
      rw [Option.isNone_iff_eq_none]
      intro hnone
      have hsome := hcertified.known
      rw [hnone] at hsome
      cases hsome
    refine ⟨hcertified.notFailed, ?_⟩
    rw [if_neg (by rw [hcertified.unfenced]; decide), if_neg hknown]
    simp only [passes_append, passes_checkWhen, beq_eq_false_iff_ne]
    exact ⟨hcertified.noObligation, hcertified.noConflict⟩

theorem passes_restoreStepChecks (seen : List (DependentRef × SwitchKey)) (step : RestoreStep) :
    Passes (restoreStepChecks plan inputs seen step) ↔
      StepCertified plan inputs step ∧ step.demandPair ∉ seen := by
  simp only [restoreStepChecks, passes_append, passes_cons, passes_nil, check_eq_none,
    passes_flatMap, passes_hopChecks, passes_map, beq_iff_eq, bne_iff_ne, and_true,
    Bool.not_eq_true', List.isEmpty_eq_false_iff, List.contains_eq_mem, decide_eq_false_iff_not,
    Bool.or_eq_true, List.isEmpty_iff, GenerationVector.contains, decide_eq_true_eq]
  constructor
  · rintro ⟨⟨⟨hdependent, hqualified, hcovers, haction, hsome, hcost, hhead, hnew⟩, hhops⟩, hlinks⟩
    exact ⟨⟨hdependent, hqualified, hcovers, haction, hsome, hcost, hhead.resolve_left hsome,
      hhops, hlinks⟩, hnew⟩
  · rintro ⟨hstep, hnew⟩
    exact ⟨⟨⟨hstep.dependent, hstep.qualified, hstep.covers, hstep.action, hstep.hopsNonempty,
      hstep.cost, Or.inr hstep.replacement, hnew⟩, hstep.hops⟩, hstep.links⟩

/-- The loop over the steps; the demands seen so far grow with each step. -/
theorem passes_restoreLoopChecks (steps : List RestoreStep)
    (seen : List (DependentRef × SwitchKey)) :
    Passes (restoreLoopChecks plan inputs seen steps) ↔
      (∀ step ∈ steps, StepCertified plan inputs step) ∧ (steps.map RestoreStep.demandPair).Nodup ∧
        ∀ pair ∈ steps.map RestoreStep.demandPair, pair ∉ seen := by
  induction steps generalizing seen with
  | nil => simp [restoreLoopChecks]
  | cons step steps ih =>
    rw [restoreLoopChecks, passes_append, passes_restoreStepChecks, ih, List.map_cons,
      List.nodup_cons, List.forall_mem_cons, List.forall_mem_cons]
    change _ ∧ (_ ∧ _ ∧ ∀ pair ∈ steps.map RestoreStep.demandPair,
      pair ∉ step.demandPair :: seen) ↔ _
    simp only [List.mem_cons, not_or]
    constructor
    · rintro ⟨⟨hstep, hnew⟩, hsteps, hdistinct, hlater⟩
      refine ⟨⟨hstep, hsteps⟩, ⟨?_, hdistinct⟩, hnew, fun pair hpair => (hlater pair hpair).2⟩
      intro hrepeated
      exact (hlater _ hrepeated).1 rfl
    · rintro ⟨⟨hstep, hsteps⟩, ⟨hfresh, hdistinct⟩, hnew, hlater⟩
      refine ⟨⟨hstep, hnew⟩, hsteps, hdistinct, fun pair hpair => ⟨?_, hlater pair hpair⟩⟩
      rintro rfl
      exact hfresh hpair

theorem usageOf_eq_zero {key : SwitchKey} (hunused : key ∉ plan.restores.flatMap (·.hops)) :
    usageOf plan key = 0 := by
  rw [usageOf, List.countP_eq_zero]
  intro step hstep hhop
  exact hunused (List.mem_flatMap.mpr ⟨step, hstep, by simpa using hhop⟩)

/-- The loop over the used generations bounds the use of every generation, as soon as
all hops are known. -/
theorem passes_capacityChecks (hknown : ∀ step ∈ plan.restores, ∀ hop ∈ step.hops,
      (inputs.snapshot.findSwitch hop).isSome = true) :
    Passes (capacityChecks plan inputs) ↔ ∀ key, usageOf plan key ≤ inputs.capacityOf key := by
  have hcapacity : ∀ {key descriptor}, inputs.snapshot.findSwitch key = some descriptor →
      inputs.capacityOf key = descriptor.capacityScore.toNat := by
    intro key descriptor hfound
    rw [PlanInputs.capacityOf, hfound]
    rfl
  rw [capacityChecks, passes_flatMap]
  constructor
  · intro hall key
    by_cases hused : key ∈ plan.restores.flatMap (·.hops)
    · obtain ⟨step, hstep, hhop⟩ := List.mem_flatMap.mp hused
      obtain ⟨descriptor, hfound⟩ := Option.isSome_iff_exists.mp (hknown step hstep key hhop)
      have hchecked := hall key (by rwa [mem_sortUnique])
      rw [hfound] at hchecked
      rw [hcapacity hfound]
      simpa using hchecked
    · rw [usageOf_eq_zero hused]
      exact Nat.zero_le _
  · intro hall key hkey
    rw [mem_sortUnique] at hkey
    obtain ⟨step, hstep, hhop⟩ := List.mem_flatMap.mp hkey
    obtain ⟨descriptor, hfound⟩ := Option.isSome_iff_exists.mp (hknown step hstep key hhop)
    have hwithin := hall key
    rw [hcapacity hfound] at hwithin
    rw [hfound]
    simpa using hwithin

theorem passes_headChecks :
    Passes (headChecks plan inputs) ↔ plan.epoch = inputs.epoch ∧ plan.boot = inputs.boot ∧
      plan.topologyDigest = inputs.snapshot.digest ∧ plan.policyDigest = inputs.policyDigest ∧
      plan.failedGenerations.keys ≠ [] ∧
      (plan.feasibility = .provenInfeasible → plan.restores = [] ∧ plan.unresolved ≠ []) ∧
      (plan.feasibility = .nothingToRestore → plan.restores = []) := by
  simp only [headChecks, passes_cons, passes_nil, check_eq_none, beq_iff_eq, true_and, and_true,
    GenerationVector.isEmpty, Bool.not_eq_true', List.isEmpty_eq_false_iff, Bool.or_eq_true,
    bne_iff_ne, ne_eq, Bool.and_eq_true, List.isEmpty_iff, ← imp_iff_not_or]

theorem passes_fenceChecks :
    Passes (fenceChecks plan inputs) ↔ (∀ step ∈ plan.fences, step.failed.valid = true ∧
        (step.closureState = .truncated → plan.closureComplete = false) ∧
        inputs.isFenced step.failed = true) ∧
      ∀ key ∈ plan.failedGenerations.keys, ∃ step ∈ plan.fences, step.failed = key := by
  simp only [fenceChecks, fenceStepChecks, passes_append, passes_flatMap, passes_cons, passes_nil,
    passes_if, passes_map, passes_checkWhen, check_eq_none, and_true, Bool.not_eq_true',
    Bool.not_eq_false', List.any_eq_true, beq_iff_eq, and_assoc]

theorem passes_coverageChecks :
    Passes (coverageChecks plan inputs) ↔
      (∀ demand ∈ (buildDemandPlan inputs plan.failedGenerations).demands,
        (demand.dependent, demand.failed) ∈ plan.restores.map RestoreStep.demandPair ++
          plan.unresolved.map UnresolvedDependent.demandPair) ∧
      plan.closureComplete = (buildDemandPlan inputs plan.failedGenerations).closureComplete := by
  simp only [coverageChecks, passes_append, passes_flatMap, passes_cons, passes_nil, passes_map,
    passes_checkWhen, check_eq_none, and_true, beq_iff_eq, Bool.not_eq_false',
    List.contains_eq_mem, decide_eq_true_eq, implies_true, true_and]
  rfl

theorem passes_orderingChecks :
    Passes (orderingChecks plan) ↔
      (plan.restores.IsChain fun left right => left.rank ≤ right.rank) ∧
        plan.unresolved.IsChain fun left right => left.rank ≤ right.rank := by
  simp [orderingChecks]

/-- A report is valid exactly when the plan is certified. -/
theorem validatePlan_valid_iff_certified :
    (validatePlan plan inputs).valid = true ↔ Certified plan inputs := by
  rw [validatePlan_valid_iff]
  change Passes (planChecks plan inputs) ↔ _
  rw [planChecks, passes_cons, check_eq_none, passes_if]
  simp only [passes_append, passes_headChecks, passes_fenceChecks, passes_restoreLoopChecks,
    passes_coverageChecks, passes_orderingChecks]
  constructor
  · rintro ⟨hdigest, hall⟩
    obtain ⟨⟨⟨⟨⟨hhead, hfences⟩, hsteps, hdistinct, -⟩, hcapacity⟩, hcoverage⟩, hordering⟩ :=
      hall hdigest
    obtain ⟨hepoch, hboot, htopology, hpolicy, hfailed, hinfeasible, hnothing⟩ := hhead
    rw [passes_capacityChecks fun step hstep hop hhop => ((hsteps step hstep).hops hop hhop).known]
      at hcapacity
    exact ⟨hdigest, hepoch, hboot, htopology, hpolicy, hfailed, hinfeasible, hnothing, hfences.1,
      hfences.2, hsteps, hdistinct, hcapacity, hcoverage.1, hcoverage.2, hordering.1, hordering.2⟩
  · intro hcertified
    refine ⟨hcertified.digest, fun _ => ⟨⟨⟨⟨⟨⟨hcertified.epoch, hcertified.boot,
      hcertified.topologyDigest, hcertified.policyDigest, hcertified.failedNonempty,
      hcertified.infeasible, hcertified.nothing⟩, hcertified.fenceSteps, hcertified.fenceCover⟩,
      hcertified.steps, hcertified.distinct, by simp⟩, ?_⟩, hcertified.coverage,
      hcertified.closure⟩, hcertified.restoreOrder, hcertified.unresolvedOrder⟩⟩
    rw [passes_capacityChecks fun step hstep hop hhop =>
      ((hcertified.steps step hstep).hops hop hhop).known]
    exact hcertified.capacity

/-- Validator soundness.  Whatever the plan value, a valid report means that the plan
belongs to the inputs, that its failed set is fenced, that its steps are distinct and
cross only known and healthy generations within their capacity, and that every demand is
accounted for; and a single failed check makes the report invalid, however many findings
it keeps. -/
theorem validatePlan_sound (plan : ReconstructionPlan) (inputs : PlanInputs) :
    ((validatePlan plan inputs).valid = true →
      (plan.epoch = inputs.epoch ∧ plan.boot = inputs.boot ∧
        plan.topologyDigest = inputs.snapshot.digest ∧
        plan.policyDigest = inputs.policyDigest) ∧
      (plan.failedGenerations.keys ≠ [] ∧
        ∀ key ∈ plan.failedGenerations.keys, inputs.isFenced key = true) ∧
      (∀ step ∈ plan.restores, step.coversFailed ∈ plan.failedGenerations.keys ∧
        step.hops ≠ [] ∧ ∀ hop ∈ step.hops,
          (inputs.snapshot.findSwitch hop).isSome = true ∧
          hop ∉ plan.failedGenerations.keys ∧ inputs.isFenced hop = false ∧
          (inputs.assess hop).fenceRequired = false ∧ (inputs.assess hop).outcome ≠ .conflict) ∧
      (plan.restores.map fun step => (step.dependent, step.coversFailed)).Nodup ∧
      (∀ key, (plan.restores.countP fun step => decide (key ∈ step.hops)) ≤
        inputs.capacityOf key) ∧
      ∀ demand ∈ (buildDemandPlan inputs plan.failedGenerations).demands,
        (∃ step ∈ plan.restores,
          step.dependent = demand.dependent ∧ step.coversFailed = demand.failed) ∨
        ∃ entry ∈ plan.unresolved,
          entry.dependent = demand.dependent ∧ entry.coversFailed = demand.failed) ∧
    ∀ check ∈ planChecks plan inputs, check ≠ none →
      (validatePlan plan inputs).valid = false := by
  constructor
  · intro hvalid
    have hcertified := validatePlan_valid_iff_certified.mp hvalid
    refine ⟨⟨hcertified.epoch, hcertified.boot, hcertified.topologyDigest,
      hcertified.policyDigest⟩, ⟨hcertified.failedNonempty, ?_⟩, ?_, hcertified.distinct,
      hcertified.capacity, ?_⟩
    · intro key hkey
      obtain ⟨step, hstep, rfl⟩ := hcertified.fenceCover key hkey
      exact (hcertified.fenceSteps step hstep).2.2
    · intro step hstep
      have hcertificate := hcertified.steps step hstep
      refine ⟨hcertificate.covers, hcertificate.hopsNonempty, ?_⟩
      intro hop hhop
      have hhopCertified := hcertificate.hops hop hhop
      exact ⟨hhopCertified.known, hhopCertified.notFailed, hhopCertified.unfenced,
        hhopCertified.noObligation, hhopCertified.noConflict⟩
    · intro demand hdemand
      rcases List.mem_append.mp (hcertified.coverage demand hdemand) with hpair | hpair
      · obtain ⟨step, hstep, hsame⟩ := List.mem_map.mp hpair
        exact Or.inl ⟨step, hstep, congrArg Prod.fst hsame, congrArg Prod.snd hsame⟩
      · obtain ⟨entry, hentry, hsame⟩ := List.mem_map.mp hpair
        exact Or.inr ⟨entry, hentry, congrArg Prod.fst hsame, congrArg Prod.snd hsame⟩
  · intro check hcheck hfinding
    rw [← Bool.not_eq_true]
    intro hvalid
    exact hfinding (validatePlan_valid_iff.mp hvalid check hcheck)

namespace Sample

def switchA : SwitchKey := ⟨⟨1⟩, ⟨1⟩⟩

def switchB : SwitchKey := ⟨⟨2⟩, ⟨1⟩⟩

def switchC : SwitchKey := ⟨⟨3⟩, ⟨1⟩⟩

def descriptor (key : SwitchKey) (capacity : UInt32) : SwitchDescriptor :=
  { key, portCount := 1, failureDomain := ⟨key.id.raw⟩, capacityScore := capacity }

/-- Three paths over one switch, and two switches with room for one path each. -/
def topology : TopologySnapshot :=
  (TopologySnapshot.build ⟨1⟩ [descriptor switchA 1, descriptor switchB 1, descriptor switchC 1] []
    ([1, 2, 3].map fun id => { id := ⟨id⟩, hops := [switchA] }) [] {}).toOption.getD .empty

def alternative (path : UInt64) (hop : SwitchKey) (cost : UInt32) : ReconstructionCandidate where
  dependent := .path ⟨path⟩
  coversFailed := switchA
  hops := [hop]
  cost := cost
  source := .fabricManager

def candidates : CandidateTable :=
  (CandidateTable.build [alternative 1 switchB 1, alternative 1 switchC 2, alternative 2 switchB 1,
    alternative 3 switchB 3] {} (.insertion _)).toOption.getD .empty

def request : PlanInputs where
  topology := some topology
  candidates := some candidates
  authority := some {
    limits := {}
    fences := (∅ : Std.TreeMap SwitchKey FenceRecord).insert switchA {} }
  epoch := ⟨1⟩
  boot := { bootOrdinal := 1 }
  planId := ⟨1⟩
  nowNs := 1000

def lost : GenerationVector := GenerationVector.empty.insert switchA

def answer : ReconstructionPlan := (planReconstruction request lost).toOption.getD {}

theorem planned : planReconstruction request lost = .ok answer :=
  ok_of_toBool (by decide +kernel) {}

/-- The plan for another epoch, with a digest that fits. -/
def misdated : ReconstructionPlan := ReconstructionPlan.sealed { answer with epoch := ⟨2⟩ }

end Sample

/-- The plan of the sample keeps to the capacities, and a forged one is found out. -/
theorem validatePlan_sound_sample :
    Sample.answer.restores.length = 2 ∧
      (∀ key, (Sample.answer.restores.countP fun step => decide (key ∈ step.hops)) ≤
        Sample.request.capacityOf key) ∧
      Sample.misdated.digestValid = true ∧
      (validatePlan Sample.misdated Sample.request).valid = false := by
  have hvalid : (validatePlan Sample.answer Sample.request).valid = true := by decide +kernel
  have hfound : ((planChecks Sample.misdated Sample.request).any (·.isSome)) = true := by
    decide +kernel
  obtain ⟨check, hcheck, hfinding⟩ := List.any_eq_true.mp hfound
  refine ⟨by decide +kernel, ?_, by decide +kernel, ?_⟩
  · exact ((validatePlan_sound Sample.answer Sample.request).1 hvalid).2.2.2.2.1
  · refine (validatePlan_sound Sample.misdated Sample.request).2 check hcheck ?_
    exact Option.isSome_iff_ne_none.mp hfinding

end SwitchFailover.Plan
