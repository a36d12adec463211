import Mathlib

/-!
# Algorithms on sorted ranges

The binary search and the merges of a standard library, over any linear order.  On a
strictly sorted list the search finds the number of smaller values, and a strictly sorted
list is as good as the set of its members.
-/

namespace SwitchFailover.Library.SortedRanges

variable {A : Type*} [LinearOrder A]

/-! ## Searching -/

/-- The loop of the lower bound: the half of the range that cannot hold it is dropped. -/
def lowerBoundWithin (values : List A) (value : A) : ℕ → ℕ → ℕ → ℕ
  | 0, first, _ => first
  | fuel + 1, first, length =>
      if length = 0 then first
      else
        let half := length / 2
        if (values[first + half]?).any (fun middle => decide (middle < value)) then
          lowerBoundWithin values value fuel (first + half + 1) (length - half - 1)
        else lowerBoundWithin values value fuel first half

/-- The first position whose value is not smaller.  Every round shortens the range, so its
length bounds the rounds. -/
def lowerBound (values : List A) (value : A) : ℕ :=
  lowerBoundWithin values value values.length 0 values.length

/-- The value at the lower bound is the one that is looked for. -/
def binarySearch (values : List A) (value : A) : Bool :=
  (values[lowerBound values value]?).any fun found => !decide (value < found)

/-- How many values are smaller. -/
def rankOf (values : List A) (value : A) : ℕ := values.countP fun other => decide (other < value)

section Search

variable {values : List A} (hsorted : values.Pairwise (· < ·))

include hsorted

/-- The smaller values come first. -/
theorem getElem_lt_iff (value : A) {index : ℕ} (hindex : index < values.length) :
    values[index] < value ↔ index < rankOf values value := by
  induction values generalizing index with
  | nil => exact absurd hindex (Nat.not_lt_zero _)
  | cons head tail ih =>
    rw [List.pairwise_cons] at hsorted
    by_cases hhead : head < value
    · rw [rankOf, List.countP_cons_of_pos (by simpa using hhead)]
      cases index with
      | zero => simp [hhead]
      | succ index =>
        rw [List.getElem_cons_succ, ih hsorted.2, Nat.add_lt_add_iff_right]
        rfl
    · -- nothing after a value that is not smaller is smaller
      have hnone : ∀ other ∈ head :: tail, ¬other < value := by
        rw [List.forall_mem_cons]
        exact ⟨hhead, fun other hother hless => hhead ((hsorted.1 other hother).trans hless)⟩
      have hrank : rankOf (head :: tail) value = 0 := by
        rw [rankOf, List.countP_eq_zero]
        intro other hother
        simpa using hnone other hother
      rw [hrank]
      constructor
      · intro hless
        exact absurd hless (hnone _ (List.getElem_mem hindex))
      · intro hless
        exact absurd hless (Nat.not_lt_zero _)

theorem lowerBoundWithin_eq (value : A) {fuel first length : ℕ} (hfuel : length ≤ fuel)
    (hfirst : first ≤ rankOf values value) (hlast : rankOf values value ≤ first + length)
    (hrange : first + length ≤ values.length) :
    lowerBoundWithin values value fuel first length = rankOf values value := by
  induction fuel generalizing first length with
  | zero =>
    rw [lowerBoundWithin]
    omega
  | succ fuel ih =>
    rw [lowerBoundWithin]
    by_cases hempty : length = 0
    · rw [if_pos hempty]
      omega
    · have hmiddle : first + length / 2 < values.length := by omega
      have hless := getElem_lt_iff hsorted value hmiddle
      dsimp only
      rw [if_neg hempty, List.getElem?_eq_getElem hmiddle, Option.any_some]
      by_cases hbelow : values[first + length / 2] < value
      · have hrank := hless.mp hbelow
        rw [if_pos (decide_eq_true hbelow)]
        exact ih (by omega) (by omega) (by omega) (by omega)
      · have hrank := mt hless.mpr hbelow
        rw [if_neg (by simpa using hbelow)]
        exact ih (by omega) (by omega) (by omega) (by omega)

theorem lowerBound_eq (value : A) : lowerBound values value = rankOf values value := by
  apply lowerBoundWithin_eq hsorted value le_rfl (Nat.zero_le _)
  · rw [Nat.zero_add]
    exact List.countP_le_length
  · rw [Nat.zero_add]

/-- A member stands at its lower bound. -/
theorem getElem?_lowerBound_iff (value : A) :
    values[lowerBound values value]? = some value ↔ value ∈ values := by
  rw [lowerBound_eq hsorted]
  constructor
  · exact List.mem_of_getElem?
  · intro hmem
    obtain ⟨index, hindex, hvalue⟩ := List.getElem_of_mem hmem
    have hnot : ¬index < rankOf values value := by
      rw [← getElem_lt_iff hsorted value hindex, hvalue]
      exact lt_irrefl value
    have hrank : rankOf values value < values.length := by omega
    have hsame : rankOf values value = index := by
      by_contra hother
      have hearlier := List.pairwise_iff_getElem.mp hsorted _ _ hrank hindex (by omega)
      rw [hvalue, getElem_lt_iff hsorted value hrank] at hearlier
      exact lt_irrefl _ hearlier
    rw [hsame, List.getElem?_eq_getElem hindex, hvalue]

theorem binarySearch_iff (value : A) : binarySearch values value = true ↔ value ∈ values := by
  rw [binarySearch, ← getElem?_lowerBound_iff hsorted, Option.any_eq_true]
  constructor
  · rintro ⟨found, hfound, hnot⟩
    obtain ⟨hindex, hvalue⟩ := List.getElem?_eq_some_iff.mp hfound
    have hle : found ≤ value := by simpa using hnot
    have hge : ¬found < value := by
      rw [← hvalue, getElem_lt_iff hsorted value hindex, lowerBound_eq hsorted]
      exact lt_irrefl _
    rw [hfound, le_antisymm hle (not_lt.mp hge)]
  · intro hvalue
    exact ⟨value, hvalue, by simp⟩

/-- What stands before the lower bound is smaller. -/
theorem lt_of_mem_take {value other : A} (hother : other ∈ values.take (lowerBound values value)) :
    other < value := by
  obtain ⟨index, hindex, rfl⟩ := List.getElem_of_mem hother
  rw [List.length_take] at hindex
  rw [List.getElem_take, getElem_lt_iff hsorted, ← lowerBound_eq hsorted]
  omega

/-- What stands from the lower bound on is not smaller. -/
theorem le_of_mem_drop {value other : A} (hother : other ∈ values.drop (lowerBound values value)) :
    value ≤ other := by
  obtain ⟨index, hindex, rfl⟩ := List.getElem_of_mem hother
  rw [List.length_drop] at hindex
  rw [List.getElem_drop, ← not_lt, getElem_lt_iff hsorted, ← lowerBound_eq hsorted]
  omega

/-- Insertion at the lower bound keeps the order. -/
theorem pairwise_insertAt {value : A} (hvalue : value ∉ values) :
    (values.take (lowerBound values value) ++
      value :: values.drop (lowerBound values value)).Pairwise (· < ·) := by
  rw [List.pairwise_append, List.pairwise_cons]
  refine ⟨hsorted.sublist (List.take_sublist _ _),
    ⟨?_, hsorted.sublist (List.drop_sublist _ _)⟩, ?_⟩
  · intro other hother
    refine lt_of_le_of_ne (le_of_mem_drop hsorted hother) ?_
    rintro rfl
    exact hvalue (List.mem_of_mem_drop hother)
  · intro one hone other hother
    rcases List.mem_cons.mp hother with rfl | hlater
    · exact lt_of_mem_take hsorted hone
    · exact (lt_of_mem_take hsorted hone).trans_le (le_of_mem_drop hsorted hlater)

end Search

omit [LinearOrder A] in
theorem mem_insertAt (values : List A) (position : ℕ) (value other : A) :
    other ∈ values.take position ++ value :: values.drop position ↔
      other = value ∨ other ∈ values := by
  rw [List.mem_append, List.mem_cons, or_left_comm, ← List.mem_append, List.take_append_drop]

/-! ## Merging

Both merges walk two ranges at once: the head of the left range waits while smaller values
of the right one pass. -/

def uniteFrom (value : A) (next : List A → List A) : List A → List A
  | [] => value :: next []
  | other :: others =>
      if other < value then other :: uniteFrom value next others
      else if value < other then value :: next (other :: others)
      else value :: next others

def setUnion : List A → List A → List A
  | [], others => others
  | value :: values, others => uniteFrom value (setUnion values) others

def intersectFrom (value : A) (next : List A → List A) : List A → List A
  | [] => []
  | other :: others =>
      if value < other then next (other :: others)
      else if other < value then intersectFrom value next others
      else value :: next others

def setIntersection : List A → List A → List A
  | [], _ => []
  | value :: values, others => intersectFrom value (setIntersection values) others

theorem mem_uniteFrom {value wanted : A} {next : List A → List A} {Target : Prop}
    (hnext : ∀ rest, wanted ∈ next rest ↔ Target ∨ wanted ∈ rest) (others : List A) :
    wanted ∈ uniteFrom value next others ↔ (wanted = value ∨ Target) ∨ wanted ∈ others := by
  induction others with
  | nil => rw [uniteFrom, List.mem_cons, hnext, or_assoc]
  | cons other others ih =>
    rw [uniteFrom]
    split_ifs with hsmaller hgreater
    · rw [List.mem_cons, ih, List.mem_cons, or_left_comm]
    · rw [List.mem_cons, hnext, or_assoc]
    · have hsame : other = value := le_antisymm (not_lt.mp hgreater) (not_lt.mp hsmaller)
      rw [List.mem_cons, hnext, List.mem_cons, hsame]
      tauto

/-- The merge has the members of both ranges, sorted or not. -/
theorem mem_setUnion (values others : List A) (wanted : A) :
    wanted ∈ setUnion values others ↔ wanted ∈ values ∨ wanted ∈ others := by
  induction values generalizing others with
  | nil => simp [setUnion]
  | cons value values ih => rw [setUnion, mem_uniteFrom ih, List.mem_cons]

/-- What is smaller than the head of a sorted range is not in it. -/
theorem not_mem_of_lt_head {value other : A} {others : List A}
    (hsorted : (other :: others).Pairwise (· < ·)) (hless : value < other) :
    value ∉ other :: others := by
  intro hmem
  rcases List.mem_cons.mp hmem with heq | hlater
  · exact hless.ne heq
  · exact lt_asymm hless ((List.pairwise_cons.mp hsorted).1 value hlater)

theorem mem_setIntersection {values others : List A} (hvalues : values.Pairwise (· < ·))
    (hothers : others.Pairwise (· < ·)) (wanted : A) :
    wanted ∈ setIntersection values others ↔ wanted ∈ values ∧ wanted ∈ others := by
  induction values generalizing others with
  | nil => simp [setIntersection]
  | cons value values ih =>
    rw [setIntersection]
    -- the right range is walked while the head of the left one waits
    induction others with
    | nil => simp [intersectFrom]
    | cons other others ihOthers =>
      rw [intersectFrom]
      split_ifs with hsmaller hgreater
      · have hmissing := not_mem_of_lt_head hothers hsmaller
        rw [ih hvalues.of_cons hothers, List.mem_cons (b := value), or_and_right]
        refine (or_iff_right ?_).symm
        rintro ⟨rfl, hmem⟩
        exact hmissing hmem
      · have hmissing := not_mem_of_lt_head hvalues hgreater
        rw [ihOthers hothers.of_cons, List.mem_cons (b := other), and_or_left]
        refine (or_iff_right ?_).symm
        rintro ⟨hmem, rfl⟩
        exact hmissing hmem
      · have hsame : value = other := le_antisymm (not_lt.mp hgreater) (not_lt.mp hsmaller)
        rw [List.mem_cons, ih hvalues.of_cons hothers.of_cons, List.mem_cons, List.mem_cons,
          hsame, or_and_left]

end SwitchFailover.Library.SortedRanges
