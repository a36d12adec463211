import SwitchFailover.Plan.Validator

/-!
# What a valid report certifies

A report is valid exactly when every performed check passed.  From a valid plan
the identity it was produced under and the state of its hops can be read off.
-/

namespace SwitchFailover.Plan

open SwitchFailover.Core Model

variable {passed : Check} {step : RestoreStep}

variable {plan : ReconstructionPlan} {inputs : PlanInputs}

theorem boundFindings_isEmpty (findings : List ValidationFinding) :
    (boundFindings findings).isEmpty = findings.isEmpty := by
  unfold boundFindings
  split
  · rfl
  · rename_i hmany
    have hsome : findings ≠ [] := by
      rintro rfl
      exact hmany (Nat.zero_le _)
    rw [List.isEmpty_eq_false_iff.mpr hsome, List.isEmpty_eq_false_iff]
    exact List.append_ne_nil_of_right_ne_nil _ (List.cons_ne_nil _ _)

/-- Truncating the report never turns an invalid plan into a valid one. -/
theorem validatePlan_valid_iff :
    (validatePlan plan inputs).valid = true ↔ ∀ check ∈ planChecks plan inputs, check = none := by
  rw [validatePlan, finishReport]
  simp only [boundFindings_isEmpty, List.isEmpty_iff, List.filterMap_eq_nil_iff, id_eq]

@[simp]
theorem check_eq_none {condition : Bool} {code : Code} {scope detail : Bytes} :
    check condition code scope detail = none ↔ condition = true := by
  cases condition <;> simp [check]

/-- A valid plan carries its own digest, so all further checks were performed. -/
theorem digestValid_of_valid (hvalid : (validatePlan plan inputs).valid = true) :
    plan.digestValid = true := by
  have hchecks := validatePlan_valid_iff.mp hvalid
  exact check_eq_none.mp (hchecks _ (by rw [planChecks]; exact List.mem_cons_self))

theorem performed_of_valid (hvalid : (validatePlan plan inputs).valid = true)
    (hmem : passed ∈ headChecks plan inputs ++ fenceChecks plan inputs ++
        restoreLoopChecks plan inputs [] plan.restores ++ capacityChecks plan inputs ++
        coverageChecks plan inputs ++ orderingChecks plan) : passed = none := by
  apply validatePlan_valid_iff.mp hvalid
  rw [planChecks, if_pos (digestValid_of_valid hvalid)]
  exact List.mem_cons_of_mem _ hmem

theorem head_of_valid (hvalid : (validatePlan plan inputs).valid = true)
    (hmem : passed ∈ headChecks plan inputs) : passed = none := by
  apply performed_of_valid hvalid
  simp only [List.mem_append]
  tauto

theorem boot_of_valid (hvalid : (validatePlan plan inputs).valid = true) :
    plan.boot = inputs.boot := by
  have hpassed := head_of_valid hvalid (List.mem_cons_of_mem _ List.mem_cons_self)
  simpa using hpassed

/-- The checks of every step are among those of the loop. -/
theorem mem_restoreLoopChecks {steps : List RestoreStep} (hstep : step ∈ steps)
    (hpassed : ∀ seen, passed ∈ restoreStepChecks plan inputs seen step)
    (seen : List (DependentRef × SwitchKey)) :
    passed ∈ restoreLoopChecks plan inputs seen steps := by
  induction steps generalizing seen with
  | nil => cases hstep
  | cons first rest ih =>
    rw [restoreLoopChecks]
    rcases List.mem_cons.mp hstep with rfl | hrest
    · exact List.mem_append_left _ (hpassed seen)
    · exact List.mem_append_right _ (ih hrest _)

/-- A valid plan crosses no fenced generation. -/
theorem unfenced_of_valid (hvalid : (validatePlan plan inputs).valid = true)
    (hstep : step ∈ plan.restores) {hop : SwitchKey} (hhop : hop ∈ step.hops) :
    inputs.isFenced hop = false := by
  by_contra hfenced
  rw [Bool.not_eq_false] at hfenced
  have hfinding : some ⟨.fenced, scopeOf step,
      text "restore step crosses a fenced generation: " ++ hop.toText⟩ ∈
        restoreLoopChecks plan inputs [] plan.restores := by
    apply mem_restoreLoopChecks hstep
    intro seen
    rw [restoreStepChecks]
    apply List.mem_append_left
    apply List.mem_append_right
    refine List.mem_flatMap.mpr ⟨hop, hhop, ?_⟩
    rw [hopChecks, if_pos hfenced]
    exact List.mem_cons_of_mem _ List.mem_cons_self
  have hperformed := List.mem_append_right (headChecks plan inputs ++ fenceChecks plan inputs)
    hfinding
  have hnone := performed_of_valid hvalid (List.mem_append_left _
    (List.mem_append_left _ (List.mem_append_left _ hperformed)))
  cases hnone

end SwitchFailover.Plan
