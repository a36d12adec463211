import SwitchFailover.Model.Closure
import SwitchFailover.Plan.Certificate

/-!
# Every demand is accounted for

An assignment gives each demand an alternative or nothing, so each demand ends up in
the restore steps or among the unresolved dependents, and in one of them only.  With
the closure of the failed generations complete, the demands are the pairs of a failed
generation and a dependent that depends on it.
-/

namespace SwitchFailover.Plan

open SwitchFailover.Core Model Library.Ordering

variable {inputs : PlanInputs} {failed : GenerationVector} {plan : ReconstructionPlan}
  {referenceMode : Bool}

/-! ## What a returned plan went through -/

/-- The checks a planning request passed. -/
structure Planned (inputs : PlanInputs) (failed : GenerationVector) (referenceMode : Bool)
    (plan : ReconstructionPlan) : Prop where
  inputsValid : inputs.validate = .ok ()
  failedNonempty : failed.keys ≠ []
  failing : ∀ key ∈ failed.keys, key.valid = true ∧
    (inputs.isFenced key = true ∨ (inputs.assess key).fenceRequired = true)
  assembled : plan = assemblePlan inputs failed (buildDemandPlan inputs failed)
    (assign inputs (buildDemandPlan inputs failed).options referenceMode)
  accounted : (buildDemandPlan inputs failed).options.length =
    plan.restores.length + plan.unresolved.length
  withinBound : plan.unresolved.length ≤ inputs.limits.maxUnresolvedDependents

theorem requireFailing_eq_ok (key : SwitchKey) :
    requireFailing inputs key = .ok () ↔ key.valid = true ∧
      (inputs.isFenced key = true ∨ (inputs.assess key).fenceRequired = true) := by
  simp only [requireFailing, result_bind_eq_ok, require_eq_ok, Bool.or_eq_true]
  constructor
  · rintro ⟨-, hvalid, hfailing⟩
    exact ⟨hvalid, hfailing⟩
  · rintro ⟨hvalid, hfailing⟩
    exact ⟨(), hvalid, hfailing⟩

theorem planInternal_eq_ok {nodes : ℕ} :
    planInternal inputs failed referenceMode = .ok (plan, nodes) ↔
      Planned inputs failed referenceMode plan ∧
        nodes = (assign inputs (buildDemandPlan inputs failed).options referenceMode).nodes := by
  simp only [planInternal, result_bind_eq_ok, require_eq_ok, requireWithin_eq_ok, beq_iff_eq]
  constructor
  · rintro ⟨_, hinputs, _, hnonempty, _, hfailing, _, haccounted, _, hwithin, hreturned⟩
    cases hreturned
    refine ⟨⟨hinputs, ?_, ?_, rfl, haccounted, hwithin⟩, rfl⟩
    · simpa [GenerationVector.isEmpty] using hnonempty
    · intro key hkey
      exact (requireFailing_eq_ok key).mp (forM_eq_ok.mp hfailing key hkey)
  · rintro ⟨⟨hinputs, hnonempty, hfailing, rfl, haccounted, hwithin⟩, rfl⟩
    refine ⟨(), hinputs, (), ?_, (), ?_, (), haccounted, (), hwithin, rfl⟩
    · simpa [GenerationVector.isEmpty] using hnonempty
    · exact forM_eq_ok.mpr fun key hkey => (requireFailing_eq_ok key).mpr (hfailing key hkey)

theorem planReconstruction_eq_ok :
    planReconstruction inputs failed = .ok plan ↔ Planned inputs failed false plan := by
  rw [planReconstruction]
  constructor
  · intro hreturned
    cases hinternal : planInternal inputs failed false with
    | error status =>
      rw [hinternal] at hreturned
      cases hreturned
    | ok planned =>
      rw [hinternal] at hreturned
      cases hreturned
      exact (planInternal_eq_ok.mp hinternal).1
  · intro hplanned
    rw [planInternal_eq_ok.mpr ⟨hplanned, rfl⟩]
    rfl

/-! ## Restored or unresolved -/

/-- The demand of an alternative set, as the pair both lists of a plan record. -/
def DemandOptions.demandPair (option : DemandOptions) : DependentRef × SwitchKey :=
  (option.demand.dependent, option.demand.failed)

/-- Both lists together account for every position of the assignment once. -/
theorem accounted_perm (options : List DemandOptions) (choice : List ℕ) (optimalityProven : Bool) :
    ((restoresOf options choice).map RestoreStep.demandPair ++
        (unresolvedEntriesOf options choice optimalityProven).map
          UnresolvedDependent.demandPair).Perm
      ((options.zip choice).map fun entry => entry.1.demandPair) := by
  have hsorted := ((List.perm_insertionSort (fun left right : RestoreStep =>
      left.rank ≤ right.rank) ((options.zip choice).filterMap fun entry =>
        (selected entry.1 entry.2).map (restoreOf entry.1))).map RestoreStep.demandPair).append
    ((List.perm_insertionSort (fun left right : UnresolvedDependent => left.rank ≤ right.rank)
      ((options.zip choice).filterMap fun entry =>
        if (selected entry.1 entry.2).isSome then none
        else some (unresolvedOf entry.1 optimalityProven))).map UnresolvedDependent.demandPair)
  refine hsorted.trans ?_
  induction options.zip choice with
  | nil => exact List.Perm.refl _
  | cons entry rest ih =>
    cases hselected : selected entry.1 entry.2 with
    | some use =>
      simp only [List.filterMap_cons, hselected, Option.map_some, Option.isSome_some, if_true,
        List.map_cons, List.cons_append]
      exact ih.cons _
    | none =>
      simp only [List.filterMap_cons, hselected, Option.map_none, Option.isSome_none,
        Bool.false_eq_true, if_false, List.map_cons]
      exact List.perm_middle.trans (ih.cons _)

section Planned

variable (hplanned : Planned inputs failed referenceMode plan)

include hplanned

theorem Planned.fences_eq : plan.fences = failed.keys.map (fenceStepOf inputs) := by
  rw [hplanned.assembled]
  rfl

theorem Planned.restores_eq :
    plan.restores = restoresOf (buildDemandPlan inputs failed).options
      (assign inputs (buildDemandPlan inputs failed).options referenceMode).choice := by
  rw [hplanned.assembled]
  rfl

theorem Planned.unresolved_eq :
    plan.unresolved = unresolvedEntriesOf (buildDemandPlan inputs failed).options
      (assign inputs (buildDemandPlan inputs failed).options referenceMode).choice
      (assign inputs (buildDemandPlan inputs failed).options referenceMode).optimalityProven := by
  rw [hplanned.assembled]
  rfl

/-- The assignment of a returned plan has a position for every demand. -/
theorem Planned.choice_length :
    (buildDemandPlan inputs failed).options.length ≤
      (assign inputs (buildDemandPlan inputs failed).options referenceMode).choice.length := by
  have hperm := (accounted_perm (buildDemandPlan inputs failed).options
    (assign inputs (buildDemandPlan inputs failed).options referenceMode).choice
    (assign inputs (buildDemandPlan inputs failed).options
      referenceMode).optimalityProven).length_eq
  rw [← hplanned.restores_eq, ← hplanned.unresolved_eq] at hperm
  have haccounted := hplanned.accounted
  simp only [List.length_append, List.length_map, List.length_zip] at hperm
  omega

theorem Planned.demands_perm :
    (plan.restores.map RestoreStep.demandPair ++
        plan.unresolved.map UnresolvedDependent.demandPair).Perm
      ((demandsOf inputs failed).map fun demand => (demand.dependent, demand.failed)) := by
  have hperm := accounted_perm (buildDemandPlan inputs failed).options
    (assign inputs (buildDemandPlan inputs failed).options referenceMode).choice
    (assign inputs (buildDemandPlan inputs failed).options referenceMode).optimalityProven
  rw [← hplanned.restores_eq, ← hplanned.unresolved_eq] at hperm
  have hfirst : ((buildDemandPlan inputs failed).options.zip
      (assign inputs (buildDemandPlan inputs failed).options referenceMode).choice).map
        (fun entry => entry.1.demandPair) =
      (buildDemandPlan inputs failed).options.map DemandOptions.demandPair := by
    have hzip := congrArg (List.map DemandOptions.demandPair)
      (List.map_fst_zip hplanned.choice_length)
    rwa [List.map_map] at hzip
  rw [hfirst] at hperm
  refine hperm.trans ?_
  change (((demandsOf inputs failed).map fun demand => evaluateDemand demand inputs).map
    DemandOptions.demandPair).Perm _
  rw [List.map_map]
  exact List.Perm.refl _

end Planned

theorem mem_demandsOf (demand : Demand) :
    demand ∈ demandsOf inputs failed ↔ demand.failed ∈ failed.keys ∧
      demand.dependent ∈ (inputs.snapshot.closure
        (GenerationVector.empty.insert demand.failed) inputs.limits).dependents := by
  rw [demandsOf, mem_sortUnique, List.mem_flatMap]
  constructor
  · rintro ⟨root, hroot, hdemand⟩
    obtain ⟨dependent, hdependent, rfl⟩ := List.mem_map.mp hdemand
    exact ⟨hroot, hdependent⟩
  · rintro ⟨hroot, hdependent⟩
    exact ⟨demand.failed, hroot, List.mem_map.mpr ⟨demand.dependent, hdependent, rfl⟩⟩

theorem demandPairs_nodup :
    ((demandsOf inputs failed).map fun demand => (demand.dependent, demand.failed)).Nodup := by
  have hnodup : (demandsOf inputs failed).Nodup := (sortUnique_pairwise _).imp ne_of_lt
  apply hnodup.map
  rintro ⟨leftDependent, leftFailed⟩ ⟨rightDependent, rightFailed⟩ heq
  cases heq
  rfl

/-- No silent loss. -/
theorem planned_accounts_for_every_dependent
    (hreturned : planReconstruction inputs failed = .ok plan)
    (hcomplete : plan.closureComplete = true) :
    (plan.restores.map RestoreStep.demandPair ++
      plan.unresolved.map UnresolvedDependent.demandPair).Nodup ∧
    ∀ (dependent : DependentRef) (root : SwitchKey),
      (dependent, root) ∈ plan.restores.map RestoreStep.demandPair ++
          plan.unresolved.map UnresolvedDependent.demandPair ↔
        root ∈ failed.keys ∧ Relation.TransGen inputs.snapshot.DependsOn
          (.ofDependent dependent) (.ofSwitch root) := by
  have hplanned := planReconstruction_eq_ok.mp hreturned
  have hperm := hplanned.demands_perm
  have hclosure : (buildDemandPlan inputs failed).closureComplete = true := by
    rw [hplanned.assembled] at hcomplete
    exact hcomplete
  have hflags := (Bool.and_eq_true _ _).mp hclosure
  have hstate : (inputs.snapshot.closure failed inputs.limits).state ≠ .truncated :=
    bne_iff_ne.mp hflags.1
  refine ⟨hperm.nodup_iff.mpr demandPairs_nodup, fun dependent root => ?_⟩
  rw [hperm.mem_iff]
  have hpair : (dependent, root) ∈ (demandsOf inputs failed).map
      (fun demand => (demand.dependent, demand.failed)) ↔
      (⟨dependent, root⟩ : Demand) ∈ demandsOf inputs failed := by
    constructor
    · intro hmem
      obtain ⟨demand, hdemand, heq⟩ := List.mem_map.mp hmem
      cases heq
      exact hdemand
    · intro hmem
      exact List.mem_map.mpr ⟨_, hmem, rfl⟩
  rw [hpair, mem_demandsOf]
  constructor
  · rintro ⟨hroot, hdependent⟩
    exact ⟨hroot, (TopologySnapshot.closure_dependents_iff hstate hflags.2 hroot _).mp hdependent⟩
  · rintro ⟨hroot, hpath⟩
    exact ⟨hroot, (TopologySnapshot.closure_dependents_iff hstate hflags.2 hroot _).mpr hpath⟩

/-- Two paths are restored and the third one is listed as unresolved. -/
theorem planned_accounts_for_every_dependent_sample :
    Sample.answer.restores.length = 2 ∧ Sample.answer.unresolved.length = 1 ∧
      (Sample.answer.restores.map RestoreStep.demandPair ++
        Sample.answer.unresolved.map UnresolvedDependent.demandPair).Nodup :=
  ⟨by decide +kernel, by decide +kernel,
    (planned_accounts_for_every_dependent Sample.planned (by decide +kernel)).1⟩

end SwitchFailover.Plan
