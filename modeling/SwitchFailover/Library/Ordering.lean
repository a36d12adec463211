import Mathlib

/-!
# Orders read off a rank, and canonical lists

A record type is ordered by an injective rank into a lexicographic product.
The comparison so obtained is lawful, which is what ordered maps need, and it
gives the linear order that canonical lists are sorted by.  A canonical list is
what sorting followed by removal of adjacent duplicates produces.
-/

namespace SwitchFailover.Library.Ordering

open Std (LawfulEqOrd LawfulEqCmp)

variable {A B : Type*}

instance instLawfulEqOrdLex [Ord A] [Ord B] [LawfulEqOrd A] [LawfulEqOrd B] :
    LawfulEqOrd (A ×ₗ B) where
  compare_self := by
    intro pair
    simp [Prod.Lex.compare_def, compareLex, compareOn]
  eq_of_compare := by
    intro left right heq
    rw [Prod.Lex.compare_def] at heq
    simp only [compareLex, compareOn, Ordering.then_eq_eq,
      LawfulEqCmp.compare_eq_iff_eq] at heq
    exact Prod.ext heq.1 heq.2

/-- Comparing through an injective rank identifies exactly the equal values. -/
theorem lawfulEqCmp_compareOn [Ord B] [LawfulEqOrd B] {rank : A → B}
    (hrank : Function.Injective rank) : LawfulEqCmp (compareOn rank) where
  compare_self := by simp [compareOn]
  eq_of_compare heq := hrank (LawfulEqCmp.eq_of_compare heq)

section Canonical

variable [LinearOrder A]

/-- Sort, then keep the first of each run of equal values. -/
def sortUnique (values : List A) : List A :=
  (values.insertionSort (· ≤ ·)).destutter (· ≠ ·)

theorem pairwise_lt_of_isChain_ne {values : List A}
    (hsorted : values.Pairwise (· ≤ ·)) (hchain : values.IsChain (· ≠ ·)) :
    values.Pairwise (· < ·) := by
  rw [← List.isChain_iff_pairwise]
  exact List.isChain_iff_getElem.mpr fun index hindex =>
    lt_of_le_of_ne
      (List.isChain_iff_getElem.mp (List.isChain_iff_pairwise.mpr hsorted) index hindex)
      (List.isChain_iff_getElem.mp hchain index hindex)

theorem sortUnique_pairwise (values : List A) :
    (sortUnique values).Pairwise (· < ·) := by
  apply pairwise_lt_of_isChain_ne
  · exact (List.pairwise_insertionSort (· ≤ ·) values).sublist (List.destutter_sublist _ _)
  · exact List.isChain_destutter _ _

theorem mem_destutter_ne (value : A) (values : List A) :
    value ∈ values.destutter (· ≠ ·) ↔ value ∈ values := by
  have hkeep : ∀ (rest : List A) (kept : A),
      value ∈ rest.destutter' (· ≠ ·) kept ↔ value ∈ kept :: rest := by
    intro rest
    induction rest with
    | nil => simp
    | cons next rest ih =>
      intro kept
      by_cases hsame : kept = next
      · subst hsame
        simp [ih]
      · simp [List.destutter'_cons_pos, hsame, ih]
  cases values with
  | nil => simp
  | cons head tail => exact hkeep tail head

@[simp]
theorem mem_sortUnique (value : A) (values : List A) :
    value ∈ sortUnique values ↔ value ∈ values := by
  rw [sortUnique, mem_destutter_ne, List.mem_insertionSort]

/-- A list that is strictly sorted by a key is determined by its members. -/
theorem eq_of_pairwise_lt (key : B → A) {left right : List B}
    (hleft : left.Pairwise fun one other => key one < key other)
    (hright : right.Pairwise fun one other => key one < key other)
    (hsame : ∀ value, value ∈ left ↔ value ∈ right) : left = right := by
  have hdistinct : ∀ {one other : B}, key one < key other → one ≠ other :=
    fun hless hequal => absurd hless (hequal ▸ lt_irrefl _)
  have hperm : left.Perm right :=
    (List.perm_ext_iff_of_nodup (hleft.imp hdistinct) (hright.imp hdistinct)).mpr hsame
  exact hperm.eq_of_pairwise (fun _ _ _ _ hless hgreater => absurd hgreater (lt_asymm hless))
    hleft hright

/-- Sorting forgets the order and the repetitions of a list. -/
theorem sortUnique_congr {left right : List A}
    (hsame : ∀ value, value ∈ left ↔ value ∈ right) : sortUnique left = sortUnique right := by
  refine eq_of_pairwise_lt id (sortUnique_pairwise left) (sortUnique_pairwise right) ?_
  intro value
  rw [mem_sortUnique, mem_sortUnique, hsame]

/-- A strictly sorted list stays as it is. -/
theorem sortUnique_of_pairwise {values : List A} (hsorted : values.Pairwise (· < ·)) :
    sortUnique values = values :=
  eq_of_pairwise_lt id (sortUnique_pairwise values) hsorted fun value => mem_sortUnique value values

theorem length_sortUnique_le {values others : List A}
    (hsubset : ∀ value ∈ values, value ∈ others) : (sortUnique values).length ≤ others.length := by
  have hnodup : (sortUnique values).Nodup := (sortUnique_pairwise values).imp ne_of_lt
  apply (hnodup.subperm _).length_le
  intro value hvalue
  exact hsubset value ((mem_sortUnique value values).mp hvalue)

/-- Merge scan of two ordered lists, looking for a common value: the head of
the left list is advanced past every smaller value on the right. -/
def advancePast (value : A) (next : List A → Bool) : List A → Bool
  | [] => false
  | other :: others =>
      if value = other then true
      else if value < other then next (other :: others)
      else advancePast value next others

def shareValue : List A → List A → Bool
  | [], _ => false
  | value :: values, others => advancePast value (shareValue values) others

theorem advancePast_iff {value : A} {next : List A → Bool} {others : List A}
    (Target : List A → Prop)
    (hnext : ∀ rest, rest <:+ others → (next rest = true ↔ Target rest))
    (hdrop : ∀ other rest, other :: rest <:+ others → other < value →
      (Target (other :: rest) ↔ Target rest)) (hnil : ¬Target [])
    (hcanonical : others.Pairwise (· < ·)) :
    advancePast value next others = true ↔ value ∈ others ∨ Target others := by
  induction others with
  | nil => simp [advancePast, hnil]
  | cons other others ih =>
    rw [List.pairwise_cons] at hcanonical
    rcases lt_trichotomy value other with hlt | heq | hgt
    · have hmiss : value ∉ other :: others := by
        intro hmem
        rcases List.mem_cons.mp hmem with heq | hmem
        · exact absurd heq hlt.ne
        · exact absurd (hcanonical.1 value hmem) (lt_asymm hlt)
      rw [advancePast, if_neg hlt.ne, if_pos hlt, hnext _ List.suffix_rfl]
      simp [hmiss]
    · simp [advancePast, heq]
    · have hskip := hdrop other others List.suffix_rfl hgt
      rw [advancePast, if_neg hgt.ne', if_neg (lt_asymm hgt), hskip,
        ih (fun rest hrest => hnext rest (hrest.trans (List.suffix_cons _ _)))
          (fun next rest hrest => hdrop next rest (hrest.trans (List.suffix_cons _ _)))
          hcanonical.2]
      simp [hgt.ne']

/-- On canonical lists the merge scan decides whether a value is shared. -/
theorem shareValue_iff {left right : List A} (hleft : left.Pairwise (· < ·))
    (hright : right.Pairwise (· < ·)) :
    shareValue left right = true ↔ ∃ value ∈ left, value ∈ right := by
  induction left generalizing right with
  | nil => simp [shareValue]
  | cons value values ih =>
    rw [List.pairwise_cons] at hleft
    rw [shareValue, advancePast_iff fun rest => ∃ other ∈ values, other ∈ rest]
    · simp
    · intro rest hrest
      exact ih hleft.2 (hright.sublist hrest.sublist)
    · intro other rest _ hsmaller
      constructor
      · rintro ⟨shared, hvalues, hrest⟩
        rcases List.mem_cons.mp hrest with heq | hrest
        · exact absurd (heq ▸ hleft.1 shared hvalues) (lt_asymm hsmaller)
        · exact ⟨shared, hvalues, hrest⟩
      · rintro ⟨shared, hvalues, hrest⟩
        exact ⟨shared, hvalues, List.mem_cons_of_mem _ hrest⟩
    · simp
    · exact hright

end Canonical

end SwitchFailover.Library.Ordering
