import SwitchFailover.Plan.Blocking
import SwitchFailover.Plan.Minimality

/-!
# The public order on plans

Plans are compared by the number of unresolved dependents, the total cost, the total hop
count and then restore step by restore step.  The search compares the same three numbers
and then the indices of the chosen alternatives, which are listed by cost first.  The
planner's choice is therefore least in the public order exactly when no choice that ties
with it in the three numbers has a smaller sequence of steps.
-/

namespace SwitchFailover.Plan

open SwitchFailover.Core Model Library

/-! ## The order -/

/-- The largest `std::size_t`. -/
def saturatedHops : ℕ := 2 ^ 64 - 1

/-- A sum that stops at a bound. -/
def saturatingSum (bound : ℕ) : ℕ → List ℕ → ℕ
  | total, [] => total
  | total, value :: values =>
      if total + value > bound then bound else saturatingSum bound (total + value) values

namespace ReconstructionPlan

def totalCost (plan : ReconstructionPlan) : ℕ :=
  saturatingSum saturatedCost 0 (plan.restores.map (·.cost.toNat))

def totalHops (plan : ReconstructionPlan) : ℕ :=
  saturatingSum saturatedHops 0 (plan.restores.map (·.hops.length))

end ReconstructionPlan

/-- One restore step before another; `none` when all compared fields agree. -/
def RestoreStep.compareFields (left right : RestoreStep) : Option Bool :=
  if left.dependent ≠ right.dependent then some (left.dependent < right.dependent)
  else if left.coversFailed ≠ right.coversFailed then
    some (left.coversFailed < right.coversFailed)
  else if left.action ≠ right.action then some (left.action.raw < right.action.raw)
  else if left.replacement ≠ right.replacement then some (left.replacement < right.replacement)
  else if left.hops ≠ right.hops then some (left.hops < right.hops)
  else if left.links ≠ right.links then some (left.links < right.links)
  else if left.cost ≠ right.cost then some (left.cost < right.cost)
  else if left.evidence ≠ right.evidence then some (left.evidence < right.evidence)
  else none

def sequenceLess : List RestoreStep → List RestoreStep → Bool
  | left :: lefts, right :: rights =>
      (left.compareFields right).getD (sequenceLess lefts rights)
  | lefts, rights => lefts.length < rights.length

/-- Strictly preferred under the objective of the planner. -/
def ReconstructionPlan.less (left right : ReconstructionPlan) : Bool :=
  if left.unresolved.length ≠ right.unresolved.length then
    left.unresolved.length < right.unresolved.length
  else if left.totalCost ≠ right.totalCost then left.totalCost < right.totalCost
  else if left.totalHops ≠ right.totalHops then left.totalHops < right.totalHops
  else sequenceLess left.restores right.restores

theorem saturatingSum_eq {bound : ℕ} (values : List ℕ) {total : ℕ} (htotal : total ≤ bound) :
    saturatingSum bound total values = min (total + values.sum) bound := by
  induction values generalizing total with
  | nil => simp [saturatingSum, htotal]
  | cons value values ih =>
    rw [saturatingSum, List.sum_cons]
    split_ifs with hover
    · exact (min_eq_right (by omega)).symm
    · rw [ih (by omega), Nat.add_assoc]

/-! ## The plan of a choice -/

/-- The plan that carries out a choice for the demands. -/
def planFor (inputs : PlanInputs) (failed : GenerationVector) (choice : List ℕ) :
    ReconstructionPlan :=
  assemblePlan inputs failed (buildDemandPlan inputs failed) { choice, remaining := 0 }

section Sums

variable {options : List DemandOptions} {choice : List ℕ}

theorem length_unresolvedEntriesOf (optimalityProven : Bool) :
    (unresolvedEntriesOf options choice optimalityProven).length =
      skippedOf (choice.zip options) := by
  rw [unresolvedEntriesOf, List.length_insertionSort]
  induction options generalizing choice with
  | nil => simp [skippedOf]
  | cons option options ih =>
    cases choice with
    | nil => rfl
    | cons index choice =>
      rw [List.zip_cons_cons, List.zip_cons_cons, List.filterMap_cons, skippedOf, List.map_cons,
        List.sum_cons, ← skippedOf, ← ih, Position.skipped, Position.use]
      cases selected option index with
      | none => simp [Nat.add_comm]
      | some use => simp

/-- A quantity summed over the restore steps, for a measure of steps that agrees with one
of alternatives. -/
theorem sum_restoresOf (measure : RestoreStep → ℕ) (weight : CandidateUse → ℕ)
    (hagree : ∀ option use, measure (restoreOf option use) = weight use) :
    ((restoresOf options choice).map measure).sum = ((choice.zip options).map fun position =>
        ((Position.use position).map weight).getD 0).sum := by
  rw [restoresOf, ((List.perm_insertionSort _ _).map measure).sum_eq]
  induction options generalizing choice with
  | nil => simp
  | cons option options ih =>
    cases choice with
    | nil => rfl
    | cons index choice =>
      rw [List.zip_cons_cons, List.zip_cons_cons, List.filterMap_cons, List.map_cons,
        List.sum_cons, ← ih, Position.use]
      cases selected option index with
      | none => simp
      | some use => simp [hagree]

theorem sum_cost_restoresOf :
    ((restoresOf options choice).map (·.cost.toNat)).sum = costOf (choice.zip options) :=
  sum_restoresOf (·.cost.toNat) (·.candidate.cost.toNat) fun _ _ => rfl

theorem sum_hops_restoresOf :
    ((restoresOf options choice).map (·.hops.length)).sum = hopsOf (choice.zip options) :=
  sum_restoresOf (·.hops.length) (·.candidate.hops.length) fun _ _ => rfl

end Sums

section Planned

variable {inputs : PlanInputs} {failed : GenerationVector} {plan : ReconstructionPlan}

/-- The three numbers of a plan that are compared first. -/
def ReconstructionPlan.weight (plan : ReconstructionPlan) : ℕ ×ₗ ℕ ×ₗ ℕ :=
  toLex (plan.unresolved.length, toLex (plan.totalCost, plan.totalHops))

theorem ReconstructionPlan.less_iff (left right : ReconstructionPlan) :
    left.less right = true ↔ left.weight < right.weight ∨
      left.weight = right.weight ∧ sequenceLess left.restores right.restores = true := by
  simp only [weight, Prod.Lex.toLex_lt_toLex, less, EmbeddingLike.apply_eq_iff_eq, Prod.mk.injEq]
  split_ifs with hunresolved hcost hhops
  · simp [hunresolved]
  · rw [not_not] at hunresolved
    simp [hunresolved, hcost]
  · rw [not_not] at hunresolved hcost
    simp [hunresolved, hcost, hhops]
  · rw [not_not] at hunresolved hcost hhops
    simp [hunresolved, hcost, hhops]

/-- The three numbers of a choice, with the hop count as the public order reads it. -/
def publicWeight (options : List DemandOptions) (choice : List ℕ) : ℕ ×ₗ ℕ ×ₗ ℕ :=
  toLex (skippedOf (choice.zip options), toLex (costOf (choice.zip options),
    min (hopsOf (choice.zip options)) saturatedHops))

theorem weight_eq_publicWeight {choice : List ℕ} {optimalityProven : Bool}
    (hlength : choice.length = (optionsOf inputs failed).length)
    (hrestores : plan.restores = restoresOf (optionsOf inputs failed) choice)
    (hunresolved : plan.unresolved =
      unresolvedEntriesOf (optionsOf inputs failed) choice optimalityProven) :
    plan.weight = publicWeight (optionsOf inputs failed) choice := by
  have hcost : plan.totalCost = costOf (choice.zip (optionsOf inputs failed)) := by
    rw [ReconstructionPlan.totalCost, saturatingSum_eq _ (Nat.zero_le _), hrestores,
      sum_cost_restoresOf, Nat.zero_add]
    exact min_eq_left (costOf_le_saturated hlength)
  have hhops : plan.totalHops =
      min (hopsOf (choice.zip (optionsOf inputs failed))) saturatedHops := by
    rw [ReconstructionPlan.totalHops, saturatingSum_eq _ (Nat.zero_le _), hrestores,
      sum_hops_restoresOf, Nat.zero_add]
  rw [ReconstructionPlan.weight, publicWeight, hcost, hhops, hunresolved,
    length_unresolvedEntriesOf]

theorem publicWeight_mono {options : List DemandOptions} {choice other : List ℕ}
    (hle : objectiveOf options choice ≤ objectiveOf options other) :
    publicWeight options choice ≤ publicWeight options other := by
  simp only [objectiveOf, publicWeight, Prod.Lex.toLex_le_toLex] at hle ⊢
  rcases hle with hskipped | ⟨hskipped, hcost | ⟨hcost, hhops | ⟨hhops, -⟩⟩⟩
  · exact Or.inl hskipped
  · exact Or.inr ⟨hskipped, Or.inl hcost⟩
  · exact Or.inr ⟨hskipped, Or.inr ⟨hcost, min_le_min_right _ hhops.le⟩⟩
  · exact Or.inr ⟨hskipped, Or.inr ⟨hcost, min_le_min_right _ hhops.le⟩⟩

/-- Where no limit was reached, the least admissible choice is the one that was made. -/
theorem Planned.choice_eq_of_least (hplanned : Planned inputs failed false plan)
    (hlimit : plan.feasibility ≠ .searchLimitReached) {least : List ℕ}
    (hleast : Admissible inputs.capacityOf (optionsOf inputs failed) least)
    (hminimal : ∀ choice, Admissible inputs.capacityOf (optionsOf inputs failed) choice →
      objectiveOf (optionsOf inputs failed) least ≤ objectiveOf (optionsOf inputs failed) choice) :
    least = (assign inputs (optionsOf inputs failed) false).choice :=
  choice_eq_of_objectiveOf (le_antisymm (hminimal _ assign_admissible)
    (assign_minimal (hplanned.optimalityProven hlimit) hleast))

/-- Both tie-breaks agree: of the choices that tie in the three numbers with the one whose
indices are least, none has a smaller sequence of restore steps. -/
def TieBreaksAgree (inputs : PlanInputs) (failed : GenerationVector) : Prop :=
  ∀ least other,
    Admissible inputs.capacityOf (optionsOf inputs failed) least →
      (∀ choice, Admissible inputs.capacityOf (optionsOf inputs failed) choice →
        objectiveOf (optionsOf inputs failed) least ≤
          objectiveOf (optionsOf inputs failed) choice) →
      Admissible inputs.capacityOf (optionsOf inputs failed) other →
      publicWeight (optionsOf inputs failed) other = publicWeight (optionsOf inputs failed) least →
        sequenceLess (restoresOf (optionsOf inputs failed) other)
          (restoresOf (optionsOf inputs failed) least) = false

/-- The returned plan is least in the public order exactly when the tie-breaks agree. -/
theorem planned_least_iff (hreturned : planReconstruction inputs failed = .ok plan)
    (hlimit : plan.feasibility ≠ .searchLimitReached) :
    (∀ choice, Admissible inputs.capacityOf (optionsOf inputs failed) choice →
        (planFor inputs failed choice).less plan = false) ↔
      TieBreaksAgree inputs failed := by
  have hplanned := planReconstruction_eq_ok.mp hreturned
  have hproven := hplanned.optimalityProven hlimit
  have hadmissible : Admissible inputs.capacityOf (optionsOf inputs failed)
      (assign inputs (optionsOf inputs failed) false).choice := assign_admissible
  have hminimal : ∀ choice, Admissible inputs.capacityOf (optionsOf inputs failed) choice →
      objectiveOf (optionsOf inputs failed)
        (assign inputs (optionsOf inputs failed) false).choice ≤
          objectiveOf (optionsOf inputs failed) choice :=
    fun choice hchoice => assign_minimal hproven hchoice
  have hweight : plan.weight = publicWeight (optionsOf inputs failed)
      (assign inputs (optionsOf inputs failed) false).choice :=
    weight_eq_publicWeight hadmissible.length hplanned.restores_eq hplanned.unresolved_eq
  have hrestores : plan.restores = restoresOf (optionsOf inputs failed)
      (assign inputs (optionsOf inputs failed) false).choice := hplanned.restores_eq
  -- below the least choice only ties are left, and ties are decided by the steps
  have hless : ∀ choice, Admissible inputs.capacityOf (optionsOf inputs failed) choice →
      ((planFor inputs failed choice).less plan = true ↔
        publicWeight (optionsOf inputs failed) choice = plan.weight ∧
          sequenceLess (restoresOf (optionsOf inputs failed) choice) plan.restores = true) := by
    intro choice hchoice
    have hother : (planFor inputs failed choice).weight =
        publicWeight (optionsOf inputs failed) choice :=
      weight_eq_publicWeight hchoice.length rfl rfl
    have hle := publicWeight_mono (hminimal choice hchoice)
    rw [← hweight] at hle
    rw [ReconstructionPlan.less_iff, hother]
    constructor
    · rintro (hlt | htied)
      · exact absurd hlt (not_lt.mpr hle)
      · exact htied
    · exact Or.inr
  constructor
  · intro hleast least other hadmissibleLeast hleastMinimal hother htied
    have hsame := hplanned.choice_eq_of_least hlimit hadmissibleLeast hleastMinimal
    subst hsame
    rw [← hrestores, ← Bool.not_eq_true]
    intro hsequence
    rw [← hweight] at htied
    have hcontra := (hless other hother).mpr ⟨htied, hsequence⟩
    rw [hleast other hother] at hcontra
    cases hcontra
  · intro hagree choice hchoice
    rw [← Bool.not_eq_true, hless choice hchoice, not_and, hweight, hrestores, Bool.not_eq_true]
    exact hagree _ choice hadmissible hminimal hchoice

end Planned

theorem planned_least_iff_sample :
    Sample.answer.feasibility = .provenFeasible ∧
      ((∀ choice,
          Admissible Sample.request.capacityOf (optionsOf Sample.request Sample.lost) choice →
          (planFor Sample.request Sample.lost choice).less Sample.answer = false) ↔
        TieBreaksAgree Sample.request Sample.lost) := by
  have hfeasible : Sample.answer.feasibility = .provenFeasible := by decide +kernel
  exact ⟨hfeasible, planned_least_iff Sample.planned (by rw [hfeasible]; decide)⟩

namespace Sample

/-- Two paths that can each move to either of two switches, the second one cheaper. -/
def crossing : List ReconstructionCandidate :=
  [alternative 1 switchB 2, alternative 1 switchC 1, alternative 2 switchB 2,
    alternative 2 switchC 1]

theorem optionsOf_crossing : optionsOf (requestWith crossing) lost =
    [evaluateDemand ⟨.path ⟨1⟩, switchA⟩ (requestWith crossing),
      evaluateDemand ⟨.path ⟨2⟩, switchA⟩ (requestWith crossing),
      evaluateDemand ⟨.path ⟨3⟩, switchA⟩ (requestWith crossing)] := by
  have hdemands : demandsOf (requestWith crossing) lost =
      [⟨.path ⟨1⟩, switchA⟩, ⟨.path ⟨2⟩, switchA⟩, ⟨.path ⟨3⟩, switchA⟩] := by decide +kernel
  rw [optionsOf, buildDemandPlan, hdemands]
  rfl

end Sample

/-- The plan moves the first path to the cheaper switch.  Exchanging the two switches
gives the same three numbers and a smaller first restore step. -/
theorem planned_not_least_sample :
    planReconstruction (Sample.requestWith Sample.crossing) Sample.lost =
        .ok (Sample.answerWith Sample.crossing) ∧
      (Sample.answerWith Sample.crossing).feasibility = .provenFeasible ∧
      Admissible (Sample.requestWith Sample.crossing).capacityOf
        (optionsOf (Sample.requestWith Sample.crossing) Sample.lost) [1, 0, skippedChoice] ∧
      (planFor (Sample.requestWith Sample.crossing) Sample.lost [1, 0, skippedChoice]).less
        (Sample.answerWith Sample.crossing) = true := by
  refine ⟨Sample.answerWith_returned (by decide +kernel), by decide +kernel, ?_, by decide +kernel⟩
  rw [admissible_iff_completes optionsOf_sound, Sample.optionsOf_crossing]
  refine Or.inr ⟨1, ⟨Sample.alternative 1 Sample.switchB 2, [Sample.switchB]⟩, _, rfl,
    by decide +kernel, by decide +kernel, Or.inr ⟨0, ⟨Sample.alternative 2 Sample.switchC 1,
      [Sample.switchC]⟩, _, rfl, by decide +kernel, by decide +kernel, Or.inl ⟨[], rfl, rfl⟩⟩⟩

end SwitchFailover.Plan
