import SwitchFailover.Plan.Accounting
import SwitchFailover.Plan.Optimality

/-!
# What every returned plan guarantees

The guarantees that do not depend on how far the search got: each restore step is a
supplied alternative whose hops passed all checks, and no generation is used more
often than its capacity.
-/

namespace SwitchFailover.Plan

open SwitchFailover.Core Model Library.Ordering

variable {option : DemandOptions} {use : CandidateUse} {candidate : ReconstructionCandidate}

variable {inputs : PlanInputs} {failed : GenerationVector} {plan : ReconstructionPlan}
  {referenceMode : Bool} {options : List DemandOptions} {choice : List ℕ}

/-! ## The options of a request -/

/-- The options a plan is made from. -/
def optionsOf (inputs : PlanInputs) (failed : GenerationVector) : List DemandOptions :=
  (buildDemandPlan inputs failed).options

theorem mem_optionsOf :
    option ∈ optionsOf inputs failed ↔
      ∃ demand ∈ demandsOf inputs failed, evaluateDemand demand inputs = option :=
  List.mem_map

theorem optionsOf_sound : ∀ option ∈ optionsOf inputs failed, option.Sound := by
  intro option hoption
  obtain ⟨demand, -, rfl⟩ := mem_optionsOf.mp hoption
  exact evaluateDemand_sound

theorem supplied_of_mem_optionsOf (hoption : option ∈ optionsOf inputs failed)
    (huse : use ∈ option.eligible) : Supplied inputs option.demand use := by
  obtain ⟨demand, -, rfl⟩ := mem_optionsOf.mp hoption
  exact supplied_of_eligible huse

/-- The assignment of a request is admissible, whatever bound was reached. -/
theorem assign_admissible :
    Admissible inputs.capacityOf (optionsOf inputs failed)
      (assign inputs (optionsOf inputs failed) referenceMode).choice := by
  rw [assign]
  split_ifs with hfree
  · rw [Bool.and_eq_true, Bool.not_eq_true'] at hfree
    exact assignIndependently_admissible hfree.1
  · exact assignBySearch_admissible optionsOf_sound _

/-! ## Restore steps and positions -/

theorem mem_eligible_of_selected {index : ℕ} (hselected : selected option index = some use) :
    use ∈ option.eligible := by
  rw [selected] at hselected
  split_ifs at hselected
  exact List.mem_of_getElem? hselected

theorem mem_restoresOf (step : RestoreStep) :
    step ∈ restoresOf options choice ↔ ∃ entry ∈ options.zip choice, ∃ use,
      selected entry.1 entry.2 = some use ∧ step = restoreOf entry.1 use := by
  rw [restoresOf, List.mem_insertionSort, List.mem_filterMap]
  constructor
  · rintro ⟨entry, hentry, hstep⟩
    obtain ⟨use, huse, rfl⟩ := Option.map_eq_some_iff.mp hstep
    exact ⟨entry, hentry, use, huse, rfl⟩
  · rintro ⟨entry, hentry, use, huse, rfl⟩
    exact ⟨entry, hentry, by rw [huse]; rfl⟩

theorem mem_unresolvedEntriesOf {optimalityProven : Bool} (entry : UnresolvedDependent) :
    entry ∈ unresolvedEntriesOf options choice optimalityProven ↔
      ∃ position ∈ options.zip choice, selected position.1 position.2 = none ∧
        entry = unresolvedOf position.1 optimalityProven := by
  rw [unresolvedEntriesOf, List.mem_insertionSort, List.mem_filterMap]
  constructor
  · rintro ⟨position, hposition, hentry⟩
    cases hselected : selected position.1 position.2 with
    | some use => simp [hselected] at hentry
    | none =>
      simp only [hselected, Option.isSome_none, Bool.false_eq_true, if_false,
        Option.some.injEq] at hentry
      exact ⟨position, hposition, hselected, hentry.symm⟩
  · rintro ⟨position, hposition, hselected, rfl⟩
    exact ⟨position, hposition, by simp [hselected]⟩

/-- The steps that use a generation are the positions that consume its capacity. -/
theorem countP_restoresOf (hsupplied : ∀ option ∈ options, ∀ use ∈ option.eligible,
      use.capacityKeys = capacityKeysOf use.candidate.hops) (key : SwitchKey) :
    (restoresOf options choice).countP (fun step => decide (key ∈ step.hops)) =
      usage (choice.zip options) key := by
  rw [restoresOf, (List.perm_insertionSort _ _).countP_eq, usage]
  induction options generalizing choice with
  | nil => simp
  | cons option options ih =>
    cases choice with
    | nil => simp
    | cons index choice =>
      have hrest := fun other hother => hsupplied other (List.mem_cons_of_mem _ hother)
      rw [List.zip_cons_cons, List.zip_cons_cons, List.filterMap_cons, List.countP_cons, ← ih hrest]
      cases hselected : selected option index with
      | none => simp [Position.consumes, Position.use, hselected]
      | some use =>
        have hkeys := hsupplied option List.mem_cons_self use (mem_eligible_of_selected hselected)
        have hmem : key ∈ use.capacityKeys ↔ key ∈ use.candidate.hops := by
          rw [hkeys]
          exact (capacityKeysOf_spec _).2 key
        simp [Position.consumes, Position.use, hselected, restoreOf, List.countP_cons, hmem]

theorem Planned.usageOf_eq (hplanned : Planned inputs failed referenceMode plan) (key : SwitchKey) :
    usageOf plan key = usage ((assign inputs (optionsOf inputs failed)
      referenceMode).choice.zip (optionsOf inputs failed)) key := by
  rw [usageOf, hplanned.restores_eq]
  exact countP_restoresOf
    (fun option hoption use huse => (supplied_of_mem_optionsOf hoption huse).keys) key

theorem Planned.usageOf_le (hplanned : Planned inputs failed referenceMode plan)
    (key : SwitchKey) : usageOf plan key ≤ inputs.capacityOf key := by
  rw [hplanned.usageOf_eq]
  exact assign_admissible.within key

/-! ## Safety of every returned plan -/

/-- What holds for a restore step of a returned plan. -/
structure StepGuaranteed (inputs : PlanInputs) (failed : GenerationVector) (step : RestoreStep)
    (candidate : ReconstructionCandidate) : Prop where
  supplied : candidate ∈ inputs.table.candidates
  dependent : step.dependent = candidate.dependent
  coversFailed : step.coversFailed = candidate.coversFailed
  inScope : step.coversFailed ∈ failed.keys
  hops : step.hops = candidate.hops
  links : step.links = candidate.links
  cost : step.cost = candidate.cost
  evidence : step.evidence = candidate.evidence
  replacement : step.hops.head? = some step.replacement
  origin : inputs.planning.requireAuthoritativeCandidateEvidence = true →
    trustOf candidate.source = .authoritative
  safe : ∀ hop ∈ step.hops, hop ∉ failed.keys ∧ inputs.isFenced hop = false ∧
    (inputs.assess hop).fenceRequired = false ∧ (inputs.assess hop).outcome ≠ .conflict ∧
    ∃ descriptor, inputs.snapshot.findSwitch hop = some descriptor ∧
      CapabilityHolds inputs ⟨step.dependent, step.coversFailed⟩ candidate descriptor ∧
      SeparationHolds inputs ⟨step.dependent, step.coversFailed⟩ descriptor

theorem hops_ne_nil_of_validate (hvalid : candidate.validate = .ok ()) : candidate.hops ≠ [] := by
  simp only [ReconstructionCandidate.validate, result_bind_eq_ok, require_eq_ok] at hvalid
  obtain ⟨_, -, _, -, _, hhops, -⟩ := hvalid
  simpa using hhops

/-- A hop that passed the checks is none of the failed generations, since those are
fenced or have to be. -/
theorem Planned.not_failed (hplanned : Planned inputs failed referenceMode plan) {demand : Demand}
    {hop : SwitchKey} (hadmissible : HopAdmissible inputs demand candidate hop) :
    hop ∉ failed.keys := by
  intro hfailed
  rcases (hplanned.failing hop hfailed).2 with hfenced | hobligation
  · rw [hadmissible.unfenced] at hfenced
    cases hfenced
  · rw [hadmissible.noObligation] at hobligation
    cases hobligation

theorem Planned.step_guaranteed (hplanned : Planned inputs failed referenceMode plan)
    {step : RestoreStep} (hstep : step ∈ plan.restores) :
    ∃ candidate, StepGuaranteed inputs failed step candidate := by
  rw [hplanned.restores_eq] at hstep
  obtain ⟨⟨option, index⟩, hentry, use, hselected, rfl⟩ := (mem_restoresOf step).mp hstep
  have hoption : option ∈ optionsOf inputs failed := (List.of_mem_zip hentry).1
  have hsupplied := supplied_of_mem_optionsOf hoption (mem_eligible_of_selected hselected)
  obtain ⟨demand, hdemand, rfl⟩ := mem_optionsOf.mp hoption
  have hnonempty := hops_ne_nil_of_validate (inputs.table.validated _ hsupplied.listed)
  refine ⟨use.candidate, hsupplied.listed, hsupplied.dependent.symm,
    hsupplied.admissible.covers.symm, ((mem_demandsOf demand).mp hdemand).1, rfl, rfl, rfl, rfl,
    ?_, hsupplied.admissible.origin, ?_⟩
  · change use.candidate.hops.head? = some (use.candidate.hops.headD default)
    cases hhops : use.candidate.hops with
    | nil => exact absurd hhops hnonempty
    | cons hop hops => rfl
  · intro hop hhop
    have hadmissible := hsupplied.admissible.hops hop hhop
    obtain ⟨descriptor, hfound, hcapability, hseparation, -⟩ := hadmissible.known
    exact ⟨hplanned.not_failed hadmissible, hadmissible.unfenced, hadmissible.noObligation,
      hadmissible.noConflict, descriptor, hfound, hcapability, hseparation⟩

/-- Plan safety, also for a truncated closure and a search that ran out of budget. -/
theorem planned_steps_safe (hreturned : planReconstruction inputs failed = .ok plan) :
    (∀ step ∈ plan.restores, ∃ candidate, StepGuaranteed inputs failed step candidate) ∧
      ∀ key, usageOf plan key ≤ inputs.capacityOf key := by
  have hplanned := planReconstruction_eq_ok.mp hreturned
  exact ⟨fun step hstep => hplanned.step_guaranteed hstep, hplanned.usageOf_le⟩

theorem planned_steps_safe_sample :
    usageOf Sample.answer Sample.switchB = 1 ∧
      usageOf Sample.answer Sample.switchB ≤ Sample.request.capacityOf Sample.switchB :=
  ⟨by decide +kernel, (planned_steps_safe Sample.planned).2 Sample.switchB⟩

end SwitchFailover.Plan
