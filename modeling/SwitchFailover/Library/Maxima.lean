import Mathlib

/-!
# Running maxima of a fold

A pass over a list may keep several maxima at once, each over the items it counts.
One such maximum is a measure of the state that every step either raises to the value
of the item or leaves alone.  After the pass it bounds every counted value, and it is
the value at the start or one of them.
-/

namespace SwitchFailover.Library.Maxima

variable {State Item Value : Type*} [LinearOrder Value]

/-- The measure is the largest value of the counted items seen so far. -/
def RunningMax (step : State → Item → State) (measure : State → Value) (counts : Item → Bool)
    (value : Item → Value) : Prop :=
  ∀ state item, measure (step state item) =
    if counts item then max (measure state) (value item) else measure state

namespace RunningMax

variable {step : State → Item → State} {measure : State → Value} {counts : Item → Bool}
  {value : Item → Value}

theorem le_step (hmax : RunningMax step measure counts value) (state : State) (item : Item) :
    measure state ≤ measure (step state item) := by
  rw [hmax]
  split_ifs
  · exact le_max_left _ _
  · exact le_rfl

theorem le_foldl (hmax : RunningMax step measure counts value) (items : List Item)
    (state : State) : measure state ≤ measure (items.foldl step state) := by
  induction items generalizing state with
  | nil => exact le_rfl
  | cons item items ih => exact le_trans (hmax.le_step state item) (ih _)

/-- Every counted value is bounded. -/
theorem value_le (hmax : RunningMax step measure counts value) {items : List Item} {item : Item}
    (hitem : item ∈ items) (hcounts : counts item = true) (state : State) :
    value item ≤ measure (items.foldl step state) := by
  obtain ⟨before, after, rfl⟩ := List.append_of_mem hitem
  rw [List.foldl_append, List.foldl_cons]
  calc value item
      ≤ measure (step (before.foldl step state) item) := by
        rw [hmax, if_pos hcounts]
        exact le_max_right _ _
    _ ≤ _ := hmax.le_foldl after _

/-- The maximum is the one at the start, or a counted value. -/
theorem attained (hmax : RunningMax step measure counts value) (items : List Item) (state : State) :
    measure (items.foldl step state) = measure state ∨
      ∃ item ∈ items, counts item = true ∧ value item = measure (items.foldl step state) := by
  induction items generalizing state with
  | nil => exact Or.inl rfl
  | cons item items ih =>
    rw [List.foldl_cons]
    rcases ih (step state item) with hsame | ⟨found, hfound, hcounts, hvalue⟩
    · rw [hsame, hmax]
      split_ifs with hcounts
      · rcases max_choice (measure state) (value item) with hold | hnew
        · exact Or.inl hold
        · exact Or.inr ⟨item, List.mem_cons_self, hcounts, hnew.symm⟩
      · exact Or.inl rfl
    · exact Or.inr ⟨found, List.mem_cons_of_mem _ hfound, hcounts, hvalue⟩

theorem foldl_lt (hmax : RunningMax step measure counts value) {items : List Item}
    {state : State} {bound : Value} (hstate : measure state < bound)
    (hitems : ∀ item ∈ items, counts item = true → value item < bound) :
    measure (items.foldl step state) < bound := by
  rcases hmax.attained items state with hsame | ⟨item, hitem, hcounts, hvalue⟩
  · rw [hsame]
    exact hstate
  · rw [← hvalue]
    exact hitems item hitem hcounts

end RunningMax

end SwitchFailover.Library.Maxima
