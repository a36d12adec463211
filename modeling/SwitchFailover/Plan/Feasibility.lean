import SwitchFailover.Plan.Minimality

/-!
# What the reported feasibility means

A limit that was reached is always reported.  Otherwise infeasibility says that no
demand has an eligible alternative, and feasibility comes with a certificate: every
alternative that was left out crosses a generation that the plan uses up.
-/

namespace SwitchFailover.Plan

open SwitchFailover.Core Model Library.Ordering

variable {options : List DemandOptions} {choice : List ℕ} {position : Position} {use : CandidateUse}
  {demand : Demand}

variable {inputs : PlanInputs} {failed : GenerationVector} {plan : ReconstructionPlan}
  {referenceMode : Bool}

/-! ## Saturation -/

theorem mem_zip_swap {A B : Type} {left : List A} {right : List B} {pair : A × B} :
    pair ∈ left.zip right ↔ (pair.2, pair.1) ∈ right.zip left := by
  rw [← List.zip_swap right left, List.mem_map]
  constructor
  · rintro ⟨swapped, hswapped, rfl⟩
    exact hswapped
  · intro hswapped
    exact ⟨(pair.2, pair.1), hswapped, rfl⟩

theorem exists_position (hlength : choice.length = options.length) {option : DemandOptions}
    (hoption : option ∈ options) :
    ∃ position : Position, position ∈ choice.zip options ∧ position.2 = option := by
  rw [← List.map_snd_zip hlength.ge] at hoption
  exact List.mem_map.mp hoption

theorem skippedOf_le_of_objectiveOf {left right : List ℕ}
    (hle : objectiveOf options left ≤ objectiveOf options right) :
    skippedOf (left.zip options) ≤ skippedOf (right.zip options) := by
  rcases Prod.Lex.toLex_le_toLex.mp hle with hless | ⟨heq, -⟩
  · exact hless.le
  · exact heq.le

theorem usage_append (left right : List Position) (key : SwitchKey) :
    usage (left ++ right) key = usage left key + usage right key :=
  List.countP_append

/-- An alternative of a skipped demand that still fits would be assigned by a better
choice. -/
theorem saturated_of_minimal {capacity : SwitchKey → ℕ}
    (hsound : ∀ option ∈ options, option.Sound) (hadmissible : Admissible capacity options choice)
    (hminimal : ∀ other, Admissible capacity options other →
      objectiveOf options choice ≤ objectiveOf options other)
    (hposition : position ∈ choice.zip options) (hskipped : position.use = none)
    (huse : use ∈ position.2.eligible) :
    ∃ key ∈ use.capacityKeys, capacity key ≤ usage (choice.zip options) key := by
  by_contra hroom
  simp only [not_exists, not_and, not_le] at hroom
  obtain ⟨before, after, hsplit⟩ := List.append_of_mem hposition
  obtain ⟨index, hindex⟩ := List.mem_iff_getElem?.mp huse
  have hoption : position.2 ∈ options := (List.of_mem_zip hposition).2
  have hselected := selected_of_eligible (hsound _ hoption) hindex
  have hdistinct := (hsound _ hoption).distinct use huse
  -- the same choice, but with the alternative assigned
  set changed : List Position := before ++ (index, position.2) :: after with hchanged
  have hoptions : options = changed.map Prod.snd := by
    have hsecond := List.map_snd_zip hadmissible.length.ge
    rw [hsplit] at hsecond
    rw [← hsecond, hchanged]
    simp
  have hzip : (changed.map Prod.fst).zip options = changed := by
    exact (List.zip_of_prod rfl hoptions.symm).symm
  have husage : ∀ key, usage changed key =
      usage (choice.zip options) key + use.capacityKeys.count key := by
    intro key
    have hunused : position.consumes key = false := by simp [Position.consumes, hskipped]
    rw [hsplit, hchanged, usage_append, usage_append, usage_cons_taken hselected hdistinct,
      usage_cons, hunused]
    simp only [Bool.false_eq_true, if_false]
    omega
  have hother : Admissible capacity options (changed.map Prod.fst) := by
    refine ⟨?_, ?_, fun key => ?_⟩
    · rw [List.length_map, hoptions, List.length_map]
    · rw [hzip]
      intro other hmem
      rcases List.mem_append.mp hmem with hearlier | hlater
      · exact hadmissible.inRange other (hsplit ▸ List.mem_append_left _ hearlier)
      · rcases List.mem_cons.mp hlater with rfl | hrest
        · exact Or.inr (List.getElem?_eq_some_iff.mp hindex).1
        · exact hadmissible.inRange other
            (hsplit ▸ List.mem_append_right _ (List.mem_cons_of_mem _ hrest))
    · rw [hzip, husage]
      by_cases hkey : key ∈ use.capacityKeys
      · have hfits := hroom key hkey
        have hone := List.count_eq_one_of_mem hdistinct hkey
        omega
      · rw [List.count_eq_zero_of_not_mem hkey]
        exact hadmissible.within key
  have hle := skippedOf_le_of_objectiveOf (hminimal _ hother)
  have hleft : position.skipped = 1 := by simp [Position.skipped, hskipped]
  have htaken : Position.skipped (index, position.2) = 0 := by
    simp [Position.skipped, Position.use, hselected]
  rw [hzip, hsplit, hchanged, skippedOf_append, skippedOf_append, skippedOf, skippedOf, skippedOf,
    List.map_cons, List.map_cons, List.sum_cons, List.sum_cons, hleft, htaken] at hle
  omega

theorem capacityOf_pos {candidate : ReconstructionCandidate} {hop : SwitchKey}
    (hadmissible : HopAdmissible inputs demand candidate hop) : 0 < inputs.capacityOf hop := by
  obtain ⟨descriptor, hfound, -, -, hcapacity⟩ := hadmissible.known
  rw [PlanInputs.capacityOf, hfound]
  change 0 < descriptor.capacityScore.toNat
  rw [Nat.pos_iff_ne_zero]
  intro hzero
  exact hcapacity (UInt32.toNat_inj.mp hzero)

section Planned

variable (hplanned : Planned inputs failed referenceMode plan)
  (hproven : (assign inputs (optionsOf inputs failed) referenceMode).optimalityProven = true)

include hplanned hproven

/-- The certificate of a plan: what was left out would cross a generation that is used
up. -/
theorem Planned.saturated
    (hposition : position ∈ (assign inputs (optionsOf inputs failed) referenceMode).choice.zip
      (optionsOf inputs failed)) (hskipped : position.use = none)
    (huse : use ∈ position.2.eligible) :
    ∃ hop ∈ use.candidate.hops, usageOf plan hop = inputs.capacityOf hop := by
  obtain ⟨key, hkey, hfull⟩ := saturated_of_minimal optionsOf_sound assign_admissible
    (fun other hother => assign_minimal hproven hother) hposition hskipped huse
  have hsupplied := supplied_of_mem_optionsOf (List.of_mem_zip hposition).2 huse
  rw [hsupplied.keys, (capacityKeysOf_spec _).2] at hkey
  refine ⟨key, hkey, le_antisymm (hplanned.usageOf_le key) ?_⟩
  rw [hplanned.usageOf_eq]
  exact hfull

/-- A plan restores something as soon as one demand has an eligible alternative. -/
theorem Planned.restores_eq_nil_iff :
    plan.restores = [] ↔ ∀ option ∈ optionsOf inputs failed, option.eligible = [] := by
  have hadmissible : Admissible inputs.capacityOf (optionsOf inputs failed)
    (assign inputs (optionsOf inputs failed) referenceMode).choice := assign_admissible
  constructor
  · intro hempty option hoption
    by_contra hsome
    obtain ⟨use, huse⟩ := List.exists_mem_of_ne_nil _ hsome
    obtain ⟨position, hposition, rfl⟩ := exists_position hadmissible.length hoption
    have hskipped : Position.use position = none := by
      by_contra htaken
      obtain ⟨taken, htaken⟩ := Option.ne_none_iff_exists'.mp htaken
      have hstep : restoreOf position.2 taken ∈ plan.restores := by
        rw [hplanned.restores_eq]
        exact (mem_restoresOf _).mpr ⟨(position.2, position.1), mem_zip_swap.mp hposition, taken,
          htaken, rfl⟩
      rw [hempty] at hstep
      cases hstep
    obtain ⟨hop, hhop, hfull⟩ := hplanned.saturated hproven hposition hskipped huse
    have hpositive := capacityOf_pos
      ((supplied_of_mem_optionsOf hoption huse).admissible.hops hop hhop)
    rw [← hfull, usageOf, hempty] at hpositive
    cases hpositive
  · intro hnone
    rw [hplanned.restores_eq, List.eq_nil_iff_forall_not_mem]
    intro step hstep
    obtain ⟨entry, hentry, use, hselected, -⟩ := (mem_restoresOf step).mp hstep
    have heligible := hnone entry.1 (List.of_mem_zip hentry).1
    have huse := mem_eligible_of_selected hselected
    rw [heligible] at huse
    cases huse

end Planned

/-! ## Reasons -/

/-- The reason reported for a demand without an alternative is a proof of absence. -/
theorem blockingOf_conclusive {reports : List CandidateEligibility}
    (hrefused : ∀ report ∈ reports, report.eligible = false →
      isProvenNegative report.reason = true) :
    isProvenNegative (blockingOf reports).1 = true := by
  have hall : ∀ report ∈ reports.filter fun report => !report.eligible,
      isProvenNegative report.reason = true := by
    intro report hreport
    obtain ⟨hmem, hineligible⟩ := List.mem_filter.mp hreport
    exact hrefused report hmem (by simpa using hineligible)
  rw [blockingOf]
  generalize (reports.filter fun report => !report.eligible) = refused at hall
  cases hfound : refused.find? fun report => isProvenNegative report.reason with
  | none =>
    cases refused with
    | nil => rfl
    | cons report rest => exact hall report List.mem_cons_self
  | some found =>
    have hnegative := List.find?_some hfound
    dsimp only
    split_ifs
    · cases refused with
      | nil => cases hfound
      | cons report rest => exact hall report List.mem_cons_self
    · exact hnegative

theorem blockingReason_conclusive
    (hcomplete : (evaluateDemand demand inputs).enumerationComplete = true) :
    isProvenNegative (evaluateDemand demand inputs).blockingReason = true := by
  rw [evaluateDemand] at hcomplete ⊢
  dsimp only at hcomplete ⊢
  rw [if_pos hcomplete]
  apply blockingOf_conclusive
  intro report hreport hineligible
  obtain ⟨candidate, -, rfl⟩ := List.mem_map.mp hreport
  exact reportOf_refused hineligible

/-! ## Truthful feasibility -/

/-- A bound that was reached while planning. -/
def LimitReached (inputs : PlanInputs) (failed : GenerationVector) : Prop :=
  (buildDemandPlan inputs failed).closureComplete = false ∨
    (buildDemandPlan inputs failed).enumerationComplete = false ∨
    (assign inputs (optionsOf inputs failed) false).optimalityProven = false

theorem Planned.feasibility_eq (hplanned : Planned inputs failed false plan) :
    plan.feasibility = feasibilityOf (buildDemandPlan inputs failed)
      (assign inputs (optionsOf inputs failed) false).optimalityProven plan.restores := by
  rw [hplanned.restores_eq, hplanned.assembled]
  rfl

theorem feasibility_of_limit (hplanned : Planned inputs failed false plan)
    (hlimit : LimitReached inputs failed) : plan.feasibility = .searchLimitReached := by
  rw [hplanned.feasibility_eq, feasibilityOf]
  rcases hlimit with hclosure | henumeration | hsearch
  · simp [hclosure]
  · simp [henumeration]
  · simp [hsearch]

theorem feasibility_of_no_limit (hplanned : Planned inputs failed false plan)
    (hlimit : ¬ LimitReached inputs failed) :
    plan.feasibility = if demandsOf inputs failed = [] then .nothingToRestore
      else if plan.restores = [] then .provenInfeasible else .provenFeasible := by
  simp only [LimitReached, not_or, Bool.not_eq_false] at hlimit
  obtain ⟨hclosure, henumeration, hsearch⟩ := hlimit
  rw [hplanned.feasibility_eq, feasibilityOf, hclosure, henumeration, hsearch]
  simp only [Bool.not_true, Bool.or_self, Bool.false_eq_true, if_false, List.isEmpty_iff]
  rfl

/-- Truthful feasibility. -/
theorem planned_feasibility_truthful (hreturned : planReconstruction inputs failed = .ok plan) :
    (LimitReached inputs failed → plan.feasibility = .searchLimitReached) ∧
    (¬ LimitReached inputs failed →
      (plan.feasibility = .provenInfeasible ↔
        optionsOf inputs failed ≠ [] ∧
          ∀ option ∈ optionsOf inputs failed, option.eligible = []) ∧
      (plan.feasibility = .provenInfeasible →
        ∀ entry ∈ plan.unresolved, isProvenNegative entry.reason = true)) ∧
    (plan.feasibility = .provenFeasible → ∀ entry ∈ plan.unresolved,
      ∀ use ∈ (evaluateDemand ⟨entry.dependent, entry.coversFailed⟩ inputs).eligible,
        ∃ hop ∈ use.candidate.hops, usageOf plan hop = inputs.capacityOf hop) := by
  have hplanned := planReconstruction_eq_ok.mp hreturned
  have hdemands : optionsOf inputs failed = [] ↔ demandsOf inputs failed = [] :=
    List.map_eq_nil_iff
  refine ⟨feasibility_of_limit hplanned, fun hlimit => ?_, fun hfeasible => ?_⟩
  · have hreported := feasibility_of_no_limit hplanned hlimit
    simp only [LimitReached, not_or, Bool.not_eq_false] at hlimit
    obtain ⟨-, henumeration, hproven⟩ := hlimit
    have hiff : plan.feasibility = .provenInfeasible ↔ optionsOf inputs failed ≠ [] ∧
        ∀ option ∈ optionsOf inputs failed, option.eligible = [] := by
      rw [← hplanned.restores_eq_nil_iff hproven, hreported, ne_eq, hdemands]
      split_ifs with hnone hempty
      · simp [hnone]
      · simp [hnone, hempty]
      · simp [hempty]
    refine ⟨hiff, fun hinfeasible entry hentry => ?_⟩
    rw [hplanned.unresolved_eq] at hentry
    obtain ⟨position, hposition, -, rfl⟩ := (mem_unresolvedEntriesOf entry).mp hentry
    have hoption : position.1 ∈ optionsOf inputs failed := (List.of_mem_zip hposition).1
    have hnone := (hiff.mp hinfeasible).2 position.1 hoption
    have hcomplete := List.all_eq_true.mp henumeration position.1 hoption
    obtain ⟨demand, -, hdemand⟩ := mem_optionsOf.mp hoption
    rw [unresolvedOf, hnone]
    rw [← hdemand] at hcomplete ⊢
    exact blockingReason_conclusive hcomplete
  · have hproven := hplanned.optimalityProven (by rw [hfeasible]; decide)
    intro entry hentry use huse
    rw [hplanned.unresolved_eq] at hentry
    obtain ⟨position, hposition, hskipped, rfl⟩ := (mem_unresolvedEntriesOf entry).mp hentry
    have hoption : position.1 ∈ optionsOf inputs failed := (List.of_mem_zip hposition).1
    obtain ⟨demand, -, hdemand⟩ := mem_optionsOf.mp hoption
    have hsame : evaluateDemand ⟨position.1.demand.dependent, position.1.demand.failed⟩ inputs =
        position.1 := by
      rw [← hdemand]
      rfl
    rw [unresolvedOf] at huse
    rw [hsame] at huse
    have hswapped : (position.2, position.1) ∈
        (assign inputs (optionsOf inputs failed) false).choice.zip (optionsOf inputs failed) :=
      mem_zip_swap.mpr hposition
    exact hplanned.saturated hproven hswapped hskipped huse

/-- One path stays unresolved, and its only alternative crosses the switch that another
path uses up. -/
theorem planned_feasibility_truthful_sample :
    Sample.answer.feasibility = .provenFeasible ∧ Sample.answer.unresolved ≠ [] ∧
      ∀ entry ∈ Sample.answer.unresolved,
        ∀ use ∈ (evaluateDemand ⟨entry.dependent, entry.coversFailed⟩ Sample.request).eligible,
          ∃ hop ∈ use.candidate.hops,
            usageOf Sample.answer hop = Sample.request.capacityOf hop := by
  have hfeasible : Sample.answer.feasibility = .provenFeasible := by decide +kernel
  exact ⟨hfeasible, by decide +kernel,
    (planned_feasibility_truthful Sample.planned).2.2 hfeasible⟩

end SwitchFailover.Plan
