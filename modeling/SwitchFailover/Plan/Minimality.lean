import SwitchFailover.Plan.Guarantees

/-!
# Planning is optimal, and the reference solver agrees

A candidate serves one demand, so the bound on the candidate table keeps the costs of
an assignment far below the saturation of the sums.  A plan that reports no limit is
therefore minimal among all admissible assignments.  The minimum is unique, so the
exhaustive search returns the same plan as the direct assignment.
-/

namespace SwitchFailover.Plan

open SwitchFailover.Core Model Library.Ordering

variable {inputs : PlanInputs} {failed : GenerationVector} {plan : ReconstructionPlan}
  {referenceMode : Bool}

/-! ## Costs do not saturate -/

/-- The candidates an assignment uses. -/
def usedCandidates (positions : List Position) : List ReconstructionCandidate :=
  positions.filterMap fun position => position.use.map (·.candidate)

theorem costOf_eq_sum (positions : List Position) :
    costOf positions = ((usedCandidates positions).map (·.cost.toNat)).sum := by
  induction positions with
  | nil => rfl
  | cons position positions ih =>
    rw [costOf, List.map_cons, List.sum_cons, ← costOf, ih, usedCandidates, usedCandidates,
      List.filterMap_cons, Position.cost]
    cases position.use with
    | none => simp
    | some use => simp

/-- Each candidate stands for the demand it was supplied for. -/
theorem usedCandidates_sublist {positions : List Position}
    (hpositions : ∀ position ∈ positions, position.2 ∈ optionsOf inputs failed) :
    ((usedCandidates positions).map fun candidate =>
        (candidate.dependent, candidate.coversFailed)).Sublist
      (positions.map fun position => position.2.demandPair) := by
  induction positions with
  | nil => exact List.Sublist.refl _
  | cons position positions ih =>
    rw [List.forall_mem_cons] at hpositions
    rw [usedCandidates, List.filterMap_cons, List.map_cons]
    cases huse : position.use with
    | none => exact (ih hpositions.2).cons _
    | some use =>
      have hsupplied := supplied_of_mem_optionsOf hpositions.1 (mem_eligible_of_selected huse)
      have hpair : (use.candidate.dependent, use.candidate.coversFailed) =
          position.2.demandPair := by
        rw [hsupplied.dependent, hsupplied.admissible.covers]
        rfl
      simp only [Option.map_some, List.map_cons, hpair]
      exact (ih hpositions.2).cons_cons _

theorem costOf_le_saturated {choice : List ℕ}
    (hlength : choice.length = (optionsOf inputs failed).length) :
    costOf (choice.zip (optionsOf inputs failed)) ≤ saturatedCost := by
  have hpositions : ∀ position ∈ choice.zip (optionsOf inputs failed),
      position.2 ∈ optionsOf inputs failed := fun position hposition =>
    (List.of_mem_zip hposition).2
  have hpairs : (choice.zip (optionsOf inputs failed)).map (fun position =>
      position.2.demandPair) =
      (demandsOf inputs failed).map fun demand => (demand.dependent, demand.failed) := by
    have hzip := congrArg (List.map DemandOptions.demandPair) (List.map_snd_zip hlength.ge)
    rw [List.map_map] at hzip
    refine hzip.trans ?_
    change ((demandsOf inputs failed).map fun demand => evaluateDemand demand inputs).map _ = _
    rw [List.map_map]
    rfl
  have hnodup : (usedCandidates (choice.zip (optionsOf inputs failed))).Nodup := by
    have hsublist := usedCandidates_sublist hpositions
    rw [hpairs] at hsublist
    exact (demandPairs_nodup.sublist hsublist).of_map _
  have hlisted : usedCandidates (choice.zip (optionsOf inputs failed)) ⊆
      inputs.table.candidates := by
    intro candidate hcandidate
    obtain ⟨position, hposition, hused⟩ := List.mem_filterMap.mp hcandidate
    obtain ⟨use, huse, rfl⟩ := Option.map_eq_some_iff.mp hused
    exact (supplied_of_mem_optionsOf (hpositions position hposition)
      (mem_eligible_of_selected huse)).listed
  have hcount := ((hnodup.subperm hlisted).length_le).trans inputs.table.bounded
  have hsum := List.sum_le_card_nsmul
    ((usedCandidates (choice.zip (optionsOf inputs failed))).map (·.cost.toNat)) (2 ^ 32) (by
      intro cost hcost
      obtain ⟨candidate, -, rfl⟩ := List.mem_map.mp hcost
      exact candidate.cost.toNat_lt.le)
  rw [List.length_map, smul_eq_mul] at hsum
  rw [costOf_eq_sum]
  calc _ ≤ _ := hsum
    _ ≤ hardMaxElements * 2 ^ 32 := Nat.mul_le_mul_right _ hcount
    _ ≤ saturatedCost := by decide

/-! ## The assignment is the minimum -/

theorem assign_minimal
    (hproven : (assign inputs (optionsOf inputs failed) referenceMode).optimalityProven = true)
    {other : List ℕ} (hother : Admissible inputs.capacityOf (optionsOf inputs failed) other) :
    objectiveOf (optionsOf inputs failed)
        (assign inputs (optionsOf inputs failed) referenceMode).choice ≤
      objectiveOf (optionsOf inputs failed) other := by
  rw [assign] at hproven ⊢
  split_ifs at hproven ⊢ with hfree
  · exact assignIndependently_minimal optionsOf_sound hother
  · exact assignBySearch_minimal optionsOf_sound
      (fun picked hpicked => costOf_le_saturated hpicked.length) hproven hother

theorem Planned.optimalityProven (hplanned : Planned inputs failed referenceMode plan)
    (hlimit : plan.feasibility ≠ .searchLimitReached) :
    (assign inputs (optionsOf inputs failed) referenceMode).optimalityProven = true := by
  by_contra hstopped
  apply hlimit
  rw [hplanned.assembled]
  change feasibilityOf _ (assign inputs (optionsOf inputs failed) referenceMode).optimalityProven
    _ = _
  rw [feasibilityOf, Bool.not_eq_true] at *
  rw [hstopped]
  simp

/-- Planner optimality.  The plan carries out an admissible assignment that is
lexicographically minimal, and the costs of all of them are summed exactly. -/
theorem planned_minimal (hreturned : planReconstruction inputs failed = .ok plan)
    (hlimit : plan.feasibility ≠ .searchLimitReached) :
    ∃ choice, Admissible inputs.capacityOf (optionsOf inputs failed) choice ∧
      plan.restores = restoresOf (optionsOf inputs failed) choice ∧
      plan.unresolved = unresolvedEntriesOf (optionsOf inputs failed) choice true ∧
      ∀ other, Admissible inputs.capacityOf (optionsOf inputs failed) other →
        costOf (other.zip (optionsOf inputs failed)) < 2 ^ 64 ∧
          objectiveOf (optionsOf inputs failed) choice ≤
            objectiveOf (optionsOf inputs failed) other := by
  have hplanned := planReconstruction_eq_ok.mp hreturned
  have hproven := hplanned.optimalityProven hlimit
  refine ⟨(assign inputs (optionsOf inputs failed) false).choice, assign_admissible,
    hplanned.restores_eq, ?_, fun other hother => ⟨?_, assign_minimal hproven hother⟩⟩
  · rw [hplanned.unresolved_eq]
    change unresolvedEntriesOf _ _
      (assign inputs (optionsOf inputs failed) false).optimalityProven = _
    rw [hproven]
    rfl
  · have hcost := costOf_le_saturated hother.length
    have hlarge : saturatedCost < 2 ^ 64 := by decide
    omega

/-- Both restored paths keep their cheapest alternative that fits. -/
theorem planned_minimal_sample :
    Sample.answer.feasibility = .provenFeasible ∧
      ∃ choice, Admissible Sample.request.capacityOf (optionsOf Sample.request Sample.lost) choice ∧
        Sample.answer.restores = restoresOf (optionsOf Sample.request Sample.lost) choice := by
  have hfeasible : Sample.answer.feasibility = .provenFeasible := by decide +kernel
  obtain ⟨choice, hadmissible, hrestores, -, -⟩ :=
    planned_minimal Sample.planned (by rw [hfeasible]; decide)
  exact ⟨hfeasible, choice, hadmissible, hrestores⟩

/-! ## The reference solver -/

/-- The request the reference solver plans: only the search budget differs. -/
def PlanInputs.withBudget (inputs : PlanInputs) (budget : ℕ) : PlanInputs :=
  { inputs with limits := { inputs.limits with maxCandidatesEvaluated := budget } }

/-- The demands and their alternatives do not depend on the search budget. -/
theorem buildDemandPlan_withBudget (budget : ℕ) :
    buildDemandPlan (inputs.withBudget budget) failed = buildDemandPlan inputs failed := by
  have hevaluate : ∀ demand, evaluateDemand demand (inputs.withBudget budget) =
      evaluateDemand demand inputs := fun _ => rfl
  have hdemands : demandsOf (inputs.withBudget budget) failed = demandsOf inputs failed := rfl
  have hfences : fenceStepOf (inputs.withBudget budget) = fenceStepOf inputs := rfl
  rw [buildDemandPlan, buildDemandPlan, hdemands, hfences]
  simp only [hevaluate]
  rfl

theorem choice_eq_of_objectiveOf {options : List DemandOptions} {left right : List ℕ}
    (heq : objectiveOf options left = objectiveOf options right) : left = right := by
  simp only [objectiveOf, EmbeddingLike.apply_eq_iff_eq, Prod.mk.injEq] at heq
  exact heq.2.2.2

theorem solveReference_of_optimal {budget : UInt64}
    (hoptimal : (solveReference inputs failed budget).optimalFound = true) :
    Planned (inputs.withBudget (max budget.toNat 1)) failed true
        (solveReference inputs failed budget).plan ∧
      (solveReference inputs failed budget).plan.feasibility ≠ .searchLimitReached := by
  rw [solveReference] at hoptimal ⊢
  dsimp only at hoptimal ⊢
  cases hinternal : planInternal { inputs with limits := { inputs.limits with
      maxCandidatesEvaluated := max budget.toNat 1 } } failed true with
  | error status =>
    rw [hinternal] at hoptimal
    cases hoptimal
  | ok result =>
    rw [hinternal] at hoptimal
    refine ⟨(planInternal_eq_ok.mp hinternal).1, ?_⟩
    intro hlimit
    dsimp only at hoptimal hlimit
    rw [hlimit] at hoptimal
    cases hoptimal

/-- The reference solver and the planner return the same plan. -/
theorem reference_agrees {budget : UInt64}
    (hoptimal : (solveReference inputs failed budget).optimalFound = true)
    (hreturned : planReconstruction inputs failed = .ok plan)
    (hlimit : plan.feasibility ≠ .searchLimitReached) :
    (solveReference inputs failed budget).plan = plan := by
  have hplanned := planReconstruction_eq_ok.mp hreturned
  have hproven := hplanned.optimalityProven hlimit
  obtain ⟨hreference, hunlimited⟩ := solveReference_of_optimal hoptimal
  have hcertain := hreference.optimalityProven hunlimited
  have hoptions : optionsOf (inputs.withBudget (max budget.toNat 1)) failed =
      optionsOf inputs failed := congrArg DemandPlan.options (buildDemandPlan_withBudget _)
  have hcapacity : (inputs.withBudget (max budget.toNat 1)).capacityOf = inputs.capacityOf := rfl
  -- both assignments are the one minimum among the same admissible ones
  have hbest : Admissible inputs.capacityOf (optionsOf inputs failed)
      (assign (inputs.withBudget (max budget.toNat 1)) (optionsOf inputs failed) true).choice := by
    rw [← hoptions, ← hcapacity]
    exact assign_admissible
  have hle := assign_minimal hproven hbest
  have hge := assign_minimal hcertain
    (show Admissible (inputs.withBudget (max budget.toNat 1)).capacityOf
        (optionsOf (inputs.withBudget (max budget.toNat 1)) failed)
        (assign inputs (optionsOf inputs failed) false).choice by
      rw [hoptions, hcapacity]
      exact assign_admissible)
  rw [hoptions] at hge hcertain
  have hchoice := choice_eq_of_objectiveOf (le_antisymm hge hle)
  rw [hreference.assembled, hplanned.assembled, buildDemandPlan_withBudget]
  change assemblePlan _ _ _ (assign (inputs.withBudget (max budget.toNat 1))
      (optionsOf inputs failed) true) =
    assemblePlan _ _ _ (assign inputs (optionsOf inputs failed) false)
  simp only [assemblePlan, hchoice, hcertain, hproven]
  rfl

theorem reference_agrees_sample :
    0 < (solveReference Sample.request Sample.lost 100).nodesVisited ∧
      (solveReference Sample.request Sample.lost 100).plan = Sample.answer := by
  refine ⟨by decide +kernel, reference_agrees (by decide +kernel) Sample.planned ?_⟩
  have hfeasible : Sample.answer.feasibility = .provenFeasible := by decide +kernel
  rw [hfeasible]
  decide

end SwitchFailover.Plan
