import SwitchFailover.Plan.Feasibility
import SwitchFailover.Plan.PlanOrder

/-!
# The planner against the validator

The validator recomputes what the planner decided.  For a plan the planner returned,
with all failed generations fenced, three checks of the validator are not implied by
the planner: that the links of the supplied alternatives are in the topology, that no
closure of a single failed generation was truncated when the common closure was not,
and that the digest of the plan is not zero.
-/

namespace SwitchFailover.Plan

open SwitchFailover.Core Model Library.Ordering

variable {inputs : PlanInputs} {failed : GenerationVector} {plan : ReconstructionPlan}

/-- The checks of the validator that planning does not establish. -/
structure Unchecked (inputs : PlanInputs) (failed : GenerationVector)
    (plan : ReconstructionPlan) : Prop where
  digest : plan.planDigest ≠ 0
  links : ∀ step ∈ plan.restores, ∀ link ∈ step.links,
    (inputs.snapshot.findLink link).isSome = true
  closures : (buildDemandPlan inputs failed).closureComplete = true → ∀ key ∈ failed.keys,
    (inputs.snapshot.closure (GenerationVector.empty.insert key) inputs.limits).state ≠ .truncated

/-- The plan that carries out a choice of alternatives, after a search that was not cut
short. -/
def planOf (inputs : PlanInputs) (failed : GenerationVector) (choice : List ℕ) :
    ReconstructionPlan :=
  assemblePlan inputs failed (buildDemandPlan inputs failed)
    { choice, optimalityProven := true, remaining := 0 }

/-- The least admissible choice of alternatives passes these checks. -/
def LeastUnchecked (inputs : PlanInputs) (failed : GenerationVector) : Prop :=
  ∀ least, Admissible inputs.capacityOf (optionsOf inputs failed) least →
    (∀ choice, Admissible inputs.capacityOf (optionsOf inputs failed) choice →
      objectiveOf (optionsOf inputs failed) least ≤ objectiveOf (optionsOf inputs failed) choice) →
    Unchecked inputs failed (planOf inputs failed least)

theorem validate_eq_ok {candidate : ReconstructionCandidate}
    (hvalid : candidate.validate = .ok ()) :
    candidate.dependent.valid = true ∧ candidate.coversFailed.valid = true ∧
      candidate.hops ≠ [] ∧ candidate.cost ≠ 0 := by
  simp only [ReconstructionCandidate.validate, result_bind_eq_ok, require_eq_ok] at hvalid
  obtain ⟨_, hdependent, _, hcovers, _, hhops, _, -, _, hcost, -⟩ := hvalid
  exact ⟨hdependent, hcovers, by simpa using hhops, by simpa using hcost⟩

theorem digestValid_sealed (draft : ReconstructionPlan) :
    draft.sealed.digestValid = true ↔ draft.sealed.planDigest ≠ 0 := by
  have hsame : draft.sealed.planDigest = draft.sealed.computeDigest :=
    (draft.computeDigest_planDigest draft.computeDigest).symm
  rw [ReconstructionPlan.digestValid, Bool.and_eq_true, bne_iff_ne, beq_iff_eq]
  exact ⟨And.left, fun hdigest => ⟨hdigest, hsame⟩⟩

section Planned

variable (hplanned : Planned inputs failed false plan)

include hplanned

theorem Planned.failedGenerations_eq : plan.failedGenerations = failed := by
  rw [hplanned.assembled]
  rfl

theorem Planned.closureComplete_eq :
    plan.closureComplete = (buildDemandPlan inputs failed).closureComplete := by
  rw [hplanned.assembled]
  rfl

theorem Planned.digestValid_iff : plan.digestValid = true ↔ plan.planDigest ≠ 0 := by
  rw [hplanned.assembled]
  exact digestValid_sealed _

theorem Planned.step_certified {step : RestoreStep} (hstep : step ∈ plan.restores)
    (hlinks : ∀ link ∈ step.links, (inputs.snapshot.findLink link).isSome = true) :
    StepCertified plan inputs step := by
  obtain ⟨candidate, hguaranteed⟩ := hplanned.step_guaranteed hstep
  obtain ⟨hdependent, hcovers, hhops, hcost⟩ :=
    validate_eq_ok (inputs.table.validated candidate hguaranteed.supplied)
  have haction : step.action = .rebindReplacement := by
    rw [hplanned.restores_eq] at hstep
    obtain ⟨entry, -, use, -, rfl⟩ := (mem_restoresOf step).mp hstep
    rfl
  refine ⟨hguaranteed.dependent ▸ hdependent, hguaranteed.coversFailed ▸ hcovers, ?_, haction,
    hguaranteed.hops ▸ hhops, hguaranteed.cost ▸ hcost, hguaranteed.replacement, ?_, hlinks⟩
  · rw [hplanned.failedGenerations_eq]
    exact hguaranteed.inScope
  · intro hop hhop
    obtain ⟨hnotFailed, hunfenced, hobligation, hconflict, descriptor, hfound, -⟩ :=
      hguaranteed.safe hop hhop
    refine ⟨?_, hunfenced, by rw [hfound]; rfl, hobligation, hconflict⟩
    rw [hplanned.failedGenerations_eq]
    exact hnotFailed

theorem Planned.infeasible_shape :
    (plan.feasibility = .provenInfeasible → plan.restores = [] ∧ plan.unresolved ≠ []) ∧
      (plan.feasibility = .nothingToRestore → plan.restores = []) := by
  have haccounted : (demandsOf inputs failed).length =
      plan.restores.length + plan.unresolved.length := by
    rw [← hplanned.accounted]
    exact (List.length_map _).symm
  have hdemands : (buildDemandPlan inputs failed).demands = demandsOf inputs failed := rfl
  rw [hplanned.feasibility_eq, feasibilityOf, hdemands]
  split_ifs with hlimit hnone hempty
  · simp
  · rw [List.isEmpty_iff] at hnone
    rw [hnone, List.length_nil] at haccounted
    exact ⟨by simp, fun _ => List.length_eq_zero_iff.mp (by omega)⟩
  · rw [List.isEmpty_iff] at hempty
    refine ⟨fun _ => ⟨hempty, fun hresolved => ?_⟩, by simp⟩
    rw [hempty, hresolved] at haccounted
    exact hnone (List.isEmpty_iff.mpr (List.length_eq_zero_iff.mp haccounted))
  · simp

theorem Planned.unchecked_of_certified (hcertified : Certified plan inputs) :
    Unchecked inputs failed plan := by
  refine ⟨hplanned.digestValid_iff.mp hcertified.digest,
    fun step hstep => (hcertified.steps step hstep).links, ?_⟩
  intro hcomplete key hkey htruncated
  have hstep : fenceStepOf inputs key ∈ plan.fences := by
    rw [hplanned.fences_eq]
    exact List.mem_map_of_mem hkey
  have hincomplete := (hcertified.fenceSteps _ hstep).2.1 htruncated
  rw [hplanned.closureComplete_eq, hcomplete] at hincomplete
  cases hincomplete

/-- Everything else the validator asks for, planning guarantees. -/
theorem Planned.certified_of_unchecked
    (hfenced : ∀ key ∈ failed.keys, inputs.isFenced key = true)
    (hunchecked : Unchecked inputs failed plan) : Certified plan inputs := by
  have hperm := hplanned.demands_perm
  refine {
    digest := hplanned.digestValid_iff.mpr hunchecked.digest
    epoch := by rw [hplanned.assembled]; rfl
    boot := by rw [hplanned.assembled]; rfl
    topologyDigest := by rw [hplanned.assembled]; rfl
    policyDigest := by rw [hplanned.assembled]; rfl
    failedNonempty := by rw [hplanned.failedGenerations_eq]; exact hplanned.failedNonempty
    infeasible := hplanned.infeasible_shape.1
    nothing := hplanned.infeasible_shape.2
    fenceSteps := ?_
    fenceCover := ?_
    steps := fun step hstep => hplanned.step_certified hstep (hunchecked.links step hstep)
    distinct := (List.nodup_append'.mp (hperm.nodup_iff.mpr demandPairs_nodup)).1
    capacity := hplanned.usageOf_le
    coverage := ?_
    closure := by rw [hplanned.failedGenerations_eq]; exact hplanned.closureComplete_eq
    restoreOrder := ?_
    unresolvedOrder := ?_ }
  · rw [hplanned.fences_eq]
    intro step hstep
    obtain ⟨key, hkey, rfl⟩ := List.mem_map.mp hstep
    refine ⟨failed.qualified key hkey, fun htruncated => ?_, hfenced key hkey⟩
    rw [hplanned.closureComplete_eq]
    by_contra hcomplete
    exact hunchecked.closures (by simpa using hcomplete) key hkey htruncated
  · rw [hplanned.fences_eq, hplanned.failedGenerations_eq]
    exact fun key hkey => ⟨_, List.mem_map_of_mem hkey, rfl⟩
  · rw [hplanned.failedGenerations_eq]
    intro demand hdemand
    exact hperm.mem_iff.mpr (List.mem_map.mpr ⟨demand, hdemand, rfl⟩)
  · rw [hplanned.restores_eq]
    exact (Library.Duplicates.pairwise_insertionSort_key _).isChain
  · rw [hplanned.unresolved_eq]
    exact (Library.Duplicates.pairwise_insertionSort_key _).isChain

end Planned

/-- Where no search limit was reached, the plan is that of the least admissible choice. -/
theorem Planned.unchecked_iff_least (hplanned : Planned inputs failed false plan)
    (hlimit : plan.feasibility ≠ .searchLimitReached) :
    Unchecked inputs failed plan ↔ LeastUnchecked inputs failed := by
  have hproven := hplanned.optimalityProven hlimit
  have hplan : plan = planOf inputs failed
      (assign inputs (optionsOf inputs failed) false).choice := by
    rw [hplanned.assembled, planOf, assemblePlan, assemblePlan]
    dsimp only
    rw [show (assign inputs (buildDemandPlan inputs failed).options false).optimalityProven = true
      from hproven]
    rfl
  constructor
  · intro hunchecked least hleast hminimal
    rw [hplanned.choice_eq_of_least hlimit hleast hminimal, ← hplan]
    exact hunchecked
  · intro hleast
    rw [hplan]
    exact hleast _ assign_admissible fun choice hchoice => assign_minimal hproven hchoice

/-- The validator accepts a plan of the planner exactly when the checks that planning
does not make hold of it.  Where no search limit was reached, that is so exactly when they
hold of the least admissible choice of alternatives. -/
theorem planned_valid_iff (hreturned : planReconstruction inputs failed = .ok plan)
    (hfenced : ∀ key ∈ failed.keys, inputs.isFenced key = true) :
    ((validatePlan plan inputs).valid = true ↔ Unchecked inputs failed plan) ∧
      (plan.feasibility ≠ .searchLimitReached →
        ((validatePlan plan inputs).valid = true ↔ LeastUnchecked inputs failed)) := by
  have hplanned := planReconstruction_eq_ok.mp hreturned
  have hvalid : (validatePlan plan inputs).valid = true ↔ Unchecked inputs failed plan :=
    validatePlan_valid_iff_certified.trans
      ⟨hplanned.unchecked_of_certified, hplanned.certified_of_unchecked hfenced⟩
  exact ⟨hvalid, fun hlimit => hvalid.trans (hplanned.unchecked_iff_least hlimit)⟩

namespace Sample

/-- The request of the sample, with an alternative over a link no topology has. -/
def strayRequest : PlanInputs :=
  { request with candidates := (CandidateTable.build
      [{ alternative 1 switchB 1 with links := [⟨9⟩] }] {} (.insertion _)).toOption }

def strayAnswer : ReconstructionPlan :=
  (planReconstruction strayRequest lost).toOption.getD {}

theorem strayPlanned : planReconstruction strayRequest lost = .ok strayAnswer :=
  ok_of_toBool (by decide +kernel) {}

/-- Three switches that depend on each other.  A closure may look at three edges: from the
last two switches together that is enough, from the second alone it is not. -/
def ringRequest : PlanInputs :=
  { request with
    topology := (TopologySnapshot.build ⟨1⟩
      [descriptor switchA 1, descriptor switchB 1, descriptor switchC 1] [] []
      [⟨.ofSwitch switchA, .ofSwitch switchB⟩, ⟨.ofSwitch switchC, .ofSwitch switchB⟩,
        ⟨.ofSwitch switchB, .ofSwitch switchA⟩] {}).toOption
    authority := some {
      limits := {}
      fences := ((∅ : Std.TreeMap SwitchKey FenceRecord).insert switchB {}).insert switchC {} }
    limits := { maxClosureEdges := 3 } }

def ringLost : GenerationVector := (GenerationVector.empty.insert switchB).insert switchC

def ringAnswer : ReconstructionPlan :=
  (planReconstruction ringRequest ringLost).toOption.getD {}

end Sample

/-- The plan of the sample validates, and the least choice passes the checks. -/
theorem planned_valid_iff_sample :
    Sample.answer.restores.length = 2 ∧ Unchecked Sample.request Sample.lost Sample.answer ∧
      LeastUnchecked Sample.request Sample.lost := by
  have hfenced : ∀ key ∈ Sample.lost.keys, Sample.request.isFenced key = true := by
    decide +kernel
  have hvalid : (validatePlan Sample.answer Sample.request).valid = true := by decide +kernel
  have hlimit : Sample.answer.feasibility ≠ .searchLimitReached := by decide +kernel
  obtain ⟨hanswer, hleast⟩ := planned_valid_iff Sample.planned hfenced
  exact ⟨by decide +kernel, hanswer.mp hvalid, (hleast hlimit).mp hvalid⟩

/-- The planner returns a plan over a link that the validator does not find, and one whose
common closure is complete where that of one generation is not. -/
theorem planned_refused_by_validator :
    (planReconstruction Sample.strayRequest Sample.lost = .ok Sample.strayAnswer ∧
      (∀ key ∈ Sample.lost.keys, Sample.strayRequest.isFenced key = true) ∧
      (validatePlan Sample.strayAnswer Sample.strayRequest).valid = false) ∧
    planReconstruction Sample.ringRequest Sample.ringLost = .ok Sample.ringAnswer ∧
      (∀ key ∈ Sample.ringLost.keys, Sample.ringRequest.isFenced key = true) ∧
      Sample.ringAnswer.restores = [] ∧ Sample.ringAnswer.closureComplete = true ∧
      (validatePlan Sample.ringAnswer Sample.ringRequest).valid = false :=
  ⟨⟨Sample.strayPlanned, by decide +kernel, by decide +kernel⟩,
    ok_of_toBool (by decide +kernel) {}, by decide +kernel, by decide +kernel, by decide +kernel,
    by decide +kernel⟩

end SwitchFailover.Plan
