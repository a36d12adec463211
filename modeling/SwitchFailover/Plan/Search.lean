import SwitchFailover.Library.Incumbent
import SwitchFailover.Plan.PlanningCore

/-!
# The search over one component

A choice is admissible when every position selects an alternative or nothing and no
generation is used more often than its capacity.  The search only ever finds
admissible choices.  Unless its budget ran out, what it returns is minimal in the
number of unassigned demands, the cost, the hop count and the vector of indices.
-/

namespace SwitchFailover.Plan

open SwitchFailover.Core Model Library.Incumbent

variable {option : DemandOptions} {index : ℕ} {state : SearchState}

/-! ## The objective -/

def Assignment.objective (assignment : Assignment) : ℕ ×ₗ ℕ ×ₗ ℕ ×ₗ List ℕ :=
  toLex (assignment.skipped, toLex (assignment.cost, toLex (assignment.hops, assignment.choice)))

theorem assignmentBetter_iff (left right : Assignment) :
    assignmentBetter left right = true ↔ left.objective < right.objective := by
  simp only [Assignment.objective, Prod.Lex.toLex_lt_toLex, assignmentBetter]
  split_ifs with hskipped hcost hhops
  · simp [hskipped]
  · rw [not_not] at hskipped
    simp [hskipped, hcost]
  · rw [not_not] at hskipped hcost
    simp [hskipped, hcost, hhops]
  · rw [not_not] at hskipped hcost hhops
    simp [hskipped, hcost, hhops]

/-- A position of an assignment: the choice made for a demand. -/
abbrev Position : Type := ℕ × DemandOptions

namespace Position

def use (position : Position) : Option CandidateUse := selected position.2 position.1

def skipped (position : Position) : ℕ := if position.use.isSome then 0 else 1

def cost (position : Position) : ℕ := (position.use.map (·.candidate.cost.toNat)).getD 0

def hops (position : Position) : ℕ := (position.use.map (·.candidate.hops.length)).getD 0

/-- Whether the position consumes capacity of a generation. -/
def consumes (key : SwitchKey) (position : Position) : Bool :=
  position.use.any fun use => decide (key ∈ use.capacityKeys)

end Position

variable {skipped cost : ℕ} {use : CandidateUse}

def skippedOf (positions : List Position) : ℕ := (positions.map Position.skipped).sum

def costOf (positions : List Position) : ℕ := (positions.map Position.cost).sum

def hopsOf (positions : List Position) : ℕ := (positions.map Position.hops).sum

/-- How many demands use a generation. -/
def usage (positions : List Position) (key : SwitchKey) : ℕ :=
  positions.countP (Position.consumes key)

theorem addCost_eq {total added : ℕ} (hadded : added ≤ saturatedCost) :
    addCost total added = min (total + added) saturatedCost := by
  rw [addCost]
  split_ifs with hover
  · exact (min_eq_right (by omega)).symm
  · exact (min_eq_left (by omega)).symm

theorem cost_le_saturated (use : CandidateUse) :
    use.candidate.cost.toNat ≤ saturatedCost := by
  have hbound := use.candidate.cost.toNat_lt
  have hlarge : (2 : ℕ) ^ 32 ≤ saturatedCost := by decide
  omega

theorem foldl_summariseStep (positions : List Position) (total : Assignment)
    (htotal : total.cost ≤ saturatedCost) :
    positions.foldl summariseStep total = { total with
        skipped := total.skipped + skippedOf positions
        cost := min (total.cost + costOf positions) saturatedCost
        hops := total.hops + hopsOf positions } := by
  induction positions generalizing total with
  | nil => simp [skippedOf, costOf, hopsOf, htotal]
  | cons position rest ih =>
    rw [List.foldl_cons, summariseStep]
    cases hselected : selected position.2 position.1 with
    | none =>
      have huse : position.use = none := hselected
      dsimp only
      rw [ih { total with skipped := total.skipped + 1 } htotal]
      simp [skippedOf, costOf, hopsOf, Position.skipped, Position.cost, Position.hops, huse,
        add_assoc]
    | some use =>
      have huse : position.use = some use := hselected
      have hadded := cost_le_saturated use
      have hsum : addCost total.cost use.candidate.cost.toNat = _ := addCost_eq hadded
      dsimp only
      rw [ih _ (by dsimp only; rw [hsum]; exact min_le_right _ _)]
      simp only [hsum, skippedOf, costOf, hopsOf, List.map_cons, List.sum_cons,
        Position.skipped, Position.cost, Position.hops, huse, Option.isSome_some, if_true,
        Option.map_some, Option.getD_some, Assignment.mk.injEq, true_and]
      omega

theorem summarise_eq (choice : List ℕ) (evaluations : List DemandOptions) :
    summarise choice evaluations =
      { choice := choice
        skipped := skippedOf (choice.zip evaluations)
        cost := min (costOf (choice.zip evaluations)) saturatedCost
        hops := hopsOf (choice.zip evaluations) } := by
  rw [summarise, foldl_summariseStep _ _ (Nat.zero_le _)]
  simp

/-! ## Admissible choices -/

/-- The alternatives of a demand as candidate evaluation leaves them. -/
structure DemandOptions.Sound (option : DemandOptions) : Prop where
  few : option.eligible.length ≤ skippedChoice
  distinct : ∀ use ∈ option.eligible, use.capacityKeys.Nodup
  sorted : option.eligible.Pairwise fun left right =>
    left.candidate.orderRank ≤ right.candidate.orderRank

/-- A choice for the remaining demands, when some capacity is already consumed. -/
def Completes (capacity : SwitchKey → ℕ) :
    List DemandOptions → List SwitchKey → List ℕ → Prop
  | [], _, choices => choices = []
  | option :: rest, used, choices =>
      (∃ tail, choices = skippedChoice :: tail ∧ Completes capacity rest used tail) ∨
      ∃ index use tail, choices = index :: tail ∧ option.eligible[index]? = some use ∧
        fits capacity used use = true ∧ Completes capacity rest (use.capacityKeys ++ used) tail

variable {capacity : SwitchKey → ℕ} {evaluations rest : List DemandOptions}
  {chosen : List ℕ} {used : List SwitchKey}

theorem selected_of_eligible (hsound : option.Sound) (hindex : option.eligible[index]? = some use) :
    selected option index = some use := by
  have hlength := (List.getElem?_eq_some_iff.mp hindex).1
  have hfew := hsound.few
  rw [selected, if_neg (by omega), hindex]

theorem selected_skipped (option : DemandOptions) : selected option skippedChoice = none := by
  rw [selected, if_pos rfl]

theorem completes_skipping (rest : List DemandOptions) (used : List SwitchKey) :
    Completes capacity rest used (List.replicate rest.length skippedChoice) := by
  induction rest with
  | nil => rfl
  | cons option rest ih => exact Or.inl ⟨_, rfl, ih⟩

theorem usage_cons (position : Position) (positions : List Position) (key : SwitchKey) :
    usage (position :: positions) key =
      usage positions key + if position.consumes key then 1 else 0 := by
  rw [usage, List.countP_cons]
  rfl

theorem usage_cons_skipped (option : DemandOptions) (positions : List Position) (key : SwitchKey) :
    usage ((skippedChoice, option) :: positions) key = usage positions key := by
  simp [usage_cons, Position.consumes, Position.use, selected_skipped]

theorem usage_cons_taken (hselected : selected option index = some use)
    (hdistinct : use.capacityKeys.Nodup) (positions : List Position) (key : SwitchKey) :
    usage ((index, option) :: positions) key =
      use.capacityKeys.count key + usage positions key := by
  rw [usage_cons, hdistinct.count, Nat.add_comm]
  simp [Position.consumes, Position.use, hselected]

/-- A choice is in range when each position selects an alternative or nothing. -/
def InRange (positions : List Position) : Prop :=
  ∀ position ∈ positions, position.1 = skippedChoice ∨ position.1 < position.2.eligible.length

/-- The bookkeeping of the search, spelled out: no generation is used more often than
its capacity. -/
theorem completes_iff (hsound : ∀ option ∈ rest, option.Sound) (tail : List ℕ) :
    Completes capacity rest used tail ↔ tail.length = rest.length ∧ InRange (tail.zip rest) ∧
        ∀ key, 0 < usage (tail.zip rest) key →
          used.count key + usage (tail.zip rest) key ≤ capacity key := by
  induction rest generalizing used tail with
  | nil =>
    rw [Completes, List.zip_nil_right, List.length_nil, List.length_eq_zero_iff]
    simp [InRange, usage]
  | cons option rest ih =>
    have hrest := fun other hother => hsound other (List.mem_cons_of_mem _ hother)
    have hoption := hsound option List.mem_cons_self
    cases tail with
    | nil => simp [Completes]
    | cons index tail =>
      rw [Completes, List.zip_cons_cons, List.length_cons, List.length_cons,
        Nat.add_right_cancel_iff, InRange, List.forall_mem_cons]
      constructor
      · rintro (⟨_, heq, hcompletes⟩ | ⟨_, use, _, heq, hindex, hfits, hcompletes⟩)
        · cases heq
          obtain ⟨hlength, hrange, hwithin⟩ := (ih hrest tail).mp hcompletes
          refine ⟨hlength, ⟨Or.inl rfl, hrange⟩, fun key => ?_⟩
          rw [usage_cons_skipped]
          exact hwithin key
        · cases heq
          obtain ⟨hlength, hrange, hwithin⟩ := (ih hrest tail).mp hcompletes
          have hbound := (List.getElem?_eq_some_iff.mp hindex).1
          refine ⟨hlength, ⟨Or.inr hbound, hrange⟩, fun key hpositive => ?_⟩
          have hdistinct := hoption.distinct use (List.mem_of_getElem? hindex)
          rw [usage_cons_taken (selected_of_eligible hoption hindex) hdistinct]
            at hpositive ⊢
          by_cases hlater : 0 < usage (tail.zip rest) key
          · have htotal := hwithin key hlater
            rw [List.count_append] at htotal
            omega
          · -- only this position uses the generation, and it fits
            have hkey : key ∈ use.capacityKeys := List.count_pos_iff.mp (by omega)
            have hroom := of_decide_eq_true (List.all_eq_true.mp hfits key hkey)
            have hone := List.count_eq_one_of_mem hdistinct hkey
            omega
      · rintro ⟨hlength, ⟨hindex, hrange⟩, hwithin⟩
        by_cases hskipped : index = skippedChoice
        · left
          rw [hskipped] at hwithin ⊢
          refine ⟨tail, rfl, (ih hrest tail).mpr ⟨hlength, hrange, fun key => ?_⟩⟩
          have hkey := hwithin key
          rwa [usage_cons_skipped] at hkey
        · right
          have hbound := hindex.resolve_left hskipped
          have hselected := List.getElem?_eq_getElem hbound
          have hdistinct := hoption.distinct _ (List.getElem_mem hbound)
          have hcount := fun key => usage_cons_taken (selected_of_eligible hoption hselected)
            hdistinct (tail.zip rest) key
          refine ⟨index, _, tail, rfl, hselected, ?_, (ih hrest tail).mpr
            ⟨hlength, hrange, fun key hpositive => ?_⟩⟩
          · refine List.all_eq_true.mpr fun key hkey => decide_eq_true ?_
            have hone := List.count_eq_one_of_mem hdistinct hkey
            have htotal := hwithin key (by rw [hcount]; omega)
            rw [hcount] at htotal
            omega
          · have htotal := hwithin key (by rw [hcount]; omega)
            rw [hcount] at htotal
            rw [List.count_append]
            omega

/-- The choices among which planning selects. -/
structure Admissible (capacity : SwitchKey → ℕ) (options : List DemandOptions)
    (choice : List ℕ) : Prop where
  length : choice.length = options.length
  inRange : InRange (choice.zip options)
  within : ∀ key, usage (choice.zip options) key ≤ capacity key

theorem admissible_iff_completes (hsound : ∀ option ∈ evaluations, option.Sound) (choice : List ℕ) :
    Admissible capacity evaluations choice ↔ Completes capacity evaluations [] choice := by
  rw [completes_iff hsound]
  constructor
  · intro hadmissible
    refine ⟨hadmissible.length, hadmissible.inRange, fun key _ => ?_⟩
    rw [List.count_nil, Nat.zero_add]
    exact hadmissible.within key
  · rintro ⟨hlength, hrange, hwithin⟩
    refine ⟨hlength, hrange, fun key => ?_⟩
    rcases Nat.eq_zero_or_pos (usage (choice.zip evaluations) key) with hzero | hpositive
    · rw [hzero]
      exact Nat.zero_le _
    · have hkey := hwithin key hpositive
      rwa [List.count_nil, Nat.zero_add] at hkey

/-! ## The search covers the admissible choices -/

/-- The state of the search between two demands. -/
structure Underway (evaluations rest : List DemandOptions) (chosen : List ℕ)
    (skipped cost : ℕ) : Prop where
  split : ∃ done, evaluations = done ++ rest ∧ chosen.length = done.length ∧
    skipped = skippedOf (chosen.zip done) ∧
    cost = min (costOf (chosen.zip done)) saturatedCost

def SearchState.progress (state : SearchState) : Progress Assignment :=
  ⟨state.best, state.exhausted⟩

/-- The assignments below a node of the search tree. -/
def below (capacity : SwitchKey → ℕ) (evaluations rest : List DemandOptions) (chosen : List ℕ)
    (used : List SwitchKey) : Set Assignment :=
  {assignment | ∃ tail, Completes capacity rest used tail ∧
    assignment = summarise (chosen ++ tail) evaluations}

theorem costOf_append (left right : List Position) :
    costOf (left ++ right) = costOf left + costOf right := by
  simp [costOf]

theorem skippedOf_append (left right : List Position) :
    skippedOf (left ++ right) = skippedOf left + skippedOf right := by
  simp [skippedOf]

/-- The partial sums bound what any assignment below the node comes to. -/
theorem Underway.bounds (hunderway : Underway evaluations rest chosen skipped cost)
    {assignment : Assignment} (hbelow : assignment ∈ below capacity evaluations rest chosen used) :
    skipped ≤ assignment.skipped ∧ cost ≤ assignment.cost := by
  obtain ⟨done, rfl, hlength, rfl, rfl⟩ := hunderway.split
  obtain ⟨tail, -, rfl⟩ := hbelow
  rw [summarise_eq, List.zip_append hlength]
  dsimp only
  rw [skippedOf_append, costOf_append]
  exact ⟨Nat.le_add_right _ _, min_le_min (Nat.le_add_right _ _) le_rfl⟩

/-- Nothing below a node that is pruned beats the best assignment found. -/
theorem covers_of_prunes (hunderway : Underway evaluations rest chosen skipped cost)
    (hprunes : state.prunes skipped cost = true) :
    Covers Assignment.objective (below capacity evaluations rest chosen used)
      state.progress state.progress := by
  rw [SearchState.prunes] at hprunes
  cases hbest : state.best with
  | none => simp [hbest] at hprunes
  | some best =>
    refine Covers.pruned (show state.progress.best = some best from hbest) ?_
    intro assignment hassignment
    obtain ⟨hskipped, hcost⟩ := hunderway.bounds hassignment
    simp only [hbest, Bool.or_eq_true, decide_eq_true_eq, Bool.and_eq_true, beq_iff_eq]
      at hprunes
    apply le_of_lt
    simp only [Assignment.objective, Prod.Lex.toLex_lt_toLex]
    omega

/-- The search turns back at a node when its budget is spent or the node is pruned. -/
theorem covers_of_stop (hunderway : Underway evaluations rest chosen skipped cost)
    (hstop : (!state.exhausted || state.prunes skipped cost) = true) :
    Covers Assignment.objective (below capacity evaluations rest chosen used)
      state.progress state.progress := by
  rw [Bool.or_eq_true, Bool.not_eq_true'] at hstop
  rcases hstop with hstopped | hprunes
  · exact Covers.stopped rfl hstopped
  · exact covers_of_prunes hunderway hprunes

theorem covers_offer (state : SearchState) (candidate : Assignment) :
    Covers Assignment.objective {candidate} state.progress (state.offer candidate).progress := by
  rw [SearchState.offer]
  cases hbest : state.best with
  | none =>
    refine Covers.replaced rfl rfl ?_
    intro best hfound
    have hnone : state.progress.best = none := hbest
    rw [hnone] at hfound
    cases hfound
  | some best =>
    have hprogress : state.progress.best = some best := hbest
    dsimp only
    split_ifs with hbetter
    · refine Covers.replaced rfl rfl ?_
      intro found hfound
      rw [hprogress] at hfound
      cases hfound
      exact le_of_lt ((assignmentBetter_iff _ _).mp hbetter)
    · refine Covers.pruned hprogress ?_
      rintro other rfl
      rw [assignmentBetter_iff] at hbetter
      exact not_lt.mp hbetter

theorem Underway.skip (hunderway : Underway evaluations (option :: rest) chosen skipped cost) :
    Underway evaluations rest (chosen ++ [skippedChoice]) (skipped + 1) cost := by
  obtain ⟨done, rfl, hlength, rfl, rfl⟩ := hunderway.split
  refine ⟨done ++ [option], by simp, by simp [hlength], ?_, ?_⟩
  · rw [List.zip_append hlength, skippedOf_append]
    simp [skippedOf, Position.skipped, Position.use, selected_skipped]
  · rw [List.zip_append hlength, costOf_append]
    simp [costOf, Position.cost, Position.use, selected_skipped]

theorem Underway.take (hunderway : Underway evaluations (option :: rest) chosen skipped cost)
    (hselected : selected option index = some use) :
    Underway evaluations rest (chosen ++ [index]) skipped
      (addCost cost use.candidate.cost.toNat) := by
  obtain ⟨done, rfl, hlength, rfl, rfl⟩ := hunderway.split
  have hadded := cost_le_saturated use
  refine ⟨done ++ [option], by simp, by simp [hlength], ?_, ?_⟩
  · rw [List.zip_append hlength, skippedOf_append]
    simp [skippedOf, Position.skipped, Position.use, hselected]
  · rw [List.zip_append hlength, costOf_append, addCost_eq hadded]
    simp only [costOf, List.zip_cons_cons, List.zip_nil_right, List.map_cons, List.map_nil,
      List.sum_cons, List.sum_nil, Position.cost, Position.use, hselected, Option.map_some,
      Option.getD_some]
    omega

/-- Below a node lie the nodes of its alternatives and the one that skips the demand. -/
theorem below_cons (option : DemandOptions) :
    below capacity evaluations (option :: rest) chosen used =
      {assignment | ∃ entry ∈ option.eligible.zipIdx, assignment ∈
        {assignment | fits capacity used entry.1 = true ∧
          assignment ∈ below capacity evaluations rest (chosen ++ [entry.2])
            (entry.1.capacityKeys ++ used)}} ∪
      below capacity evaluations rest (chosen ++ [skippedChoice]) used := by
  ext assignment
  constructor
  · rintro ⟨_, ⟨tail, rfl, htail⟩ | ⟨index, use, tail, rfl, hindex, hfits, htail⟩, rfl⟩
    · exact Or.inr ⟨tail, htail, by simp⟩
    · exact Or.inl ⟨(use, index), List.mem_zipIdx_iff_getElem?.mpr hindex, hfits, tail, htail,
        by simp⟩
  · rintro (⟨⟨use, index⟩, hentry, hfits, tail, htail, rfl⟩ | ⟨tail, htail, rfl⟩)
    · exact ⟨index :: tail, Or.inr ⟨index, use, tail, rfl,
        List.mem_zipIdx_iff_getElem?.mp hentry, hfits, htail⟩, by simp⟩
    · exact ⟨skippedChoice :: tail, Or.inl ⟨tail, rfl, htail⟩, by simp⟩

/-- The search from a node covers what lies below it. -/
theorem dfs_covers (hsound : ∀ option ∈ rest, option.Sound)
    (hunderway : Underway evaluations rest chosen skipped cost) (state : SearchState) :
    Covers Assignment.objective (below capacity evaluations rest chosen used) state.progress
      (dfs capacity evaluations rest chosen used skipped cost state).progress := by
  induction rest generalizing chosen used skipped cost state with
  | nil =>
    have hleaf : below capacity evaluations [] chosen used = {summarise chosen evaluations} := by
      ext assignment
      simp [below, Completes]
    rw [dfs]
    split_ifs with hstop
    · exact covers_of_stop hunderway hstop
    · rw [hleaf]
      exact covers_offer state _
  | cons option rest ih =>
    have hrest := fun other hother => hsound other (List.mem_cons_of_mem _ hother)
    rw [dfs]
    split_ifs with hstop
    · exact covers_of_stop hunderway hstop
    · -- the loop over the alternatives, one round per entry
      have hround : ∀ entry ∈ option.eligible.zipIdx, ∀ state : SearchState,
          Covers Assignment.objective {assignment | fits capacity used entry.1 = true ∧
              assignment ∈ below capacity evaluations rest (chosen ++ [entry.2])
                (entry.1.capacityKeys ++ used)} state.progress
            (if !state.exhausted then state
              else if state.remaining = 0 then { state with exhausted := false }
              else if !fits capacity used entry.1 then state.spend
              else
                dfs capacity evaluations rest (chosen ++ [entry.2])
                  (entry.1.capacityKeys ++ used) skipped
                  (addCost cost entry.1.candidate.cost.toNat) state.spend).progress := by
        intro entry hentry state
        split_ifs with hstopped hempty hfull
        · exact Covers.stopped rfl (show state.exhausted = false by simpa using hstopped)
        · exact Covers.stopped rfl rfl
        · have hnone : {assignment | fits capacity used entry.1 = true ∧
              assignment ∈ below capacity evaluations rest (chosen ++ [entry.2])
                (entry.1.capacityKeys ++ used)} = ∅ := by
            ext assignment
            simp only [Bool.not_eq_true'] at hfull
            simp [hfull]
          rw [hnone]
          exact Covers.nothing _
        · have hselected := selected_of_eligible (hsound option List.mem_cons_self)
            (List.mem_zipIdx_iff_getElem?.mp hentry)
          have hfits : fits capacity used entry.1 = true := by simpa using hfull
          simp only [hfits, true_and, Set.ofPred_mem_eq]
          exact ih hrest (hunderway.take hselected) state.spend
      have hloop := Covers.foldl option.eligible.zipIdx hround state
      rw [below_cons]
      dsimp only
      generalize List.foldl _ state option.eligible.zipIdx = tried at hloop ⊢
      split_ifs with hstopped hempty
      · exact hloop.trans (Covers.stopped rfl (show tried.exhausted = false by
          simpa using hstopped))
      · exact hloop.trans (Covers.stopped rfl rfl)
      · exact hloop.trans (ih hrest hunderway.skip tried.spend)

/-! ## What the search returns -/

theorem searchComponent_spec (hsound : ∀ option ∈ evaluations, option.Sound) (budget : ℕ) :
    Admissible capacity evaluations (searchComponent capacity evaluations budget).1 ∧
      ((searchComponent capacity evaluations budget).2.exhausted = true →
        ∀ choice, Admissible capacity evaluations choice →
          (summarise (searchComponent capacity evaluations budget).1 evaluations).objective ≤
            (summarise choice evaluations).objective) := by
  have hcovers : Covers Assignment.objective (below capacity evaluations evaluations [] []) _ _ :=
    dfs_covers hsound (show Underway evaluations evaluations [] 0 0 from ⟨[], rfl, rfl, rfl, rfl⟩)
      { remaining := budget }
  simp only [admissible_iff_completes hsound, searchComponent]
  cases hbest : (dfs capacity evaluations evaluations [] [] 0 0 { remaining := budget }).best with
  | none =>
    refine ⟨completes_skipping evaluations [], fun hexhausted choice hchoice => ?_⟩
    obtain ⟨best, hfound, -⟩ := hcovers.complete hexhausted _ ⟨choice, hchoice, rfl⟩
    rw [show (dfs capacity evaluations evaluations [] [] 0 0
      { remaining := budget }).progress.best = none from hbest] at hfound
    cases hfound
  | some best =>
    rcases hcovers.origin best hbest with hbefore | ⟨found, hcompletes, rfl⟩
    · cases hbefore
    · rw [summarise_eq]
      refine ⟨hcompletes, fun hexhausted choice hchoice => ?_⟩
      obtain ⟨other, hother, hle⟩ := hcovers.complete hexhausted _ ⟨choice, hchoice, rfl⟩
      rw [show (dfs capacity evaluations evaluations [] [] 0 0
        { remaining := budget }).progress.best = some _ from hbest] at hother
      cases hother
      exact hle

end SwitchFailover.Plan
