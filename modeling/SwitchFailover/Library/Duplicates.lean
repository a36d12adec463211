import Mathlib

/-!
# Sorting and then removing duplicates

Elements fall into groups, and a list is sorted by a key in which groups are not
interleaved.  Keeping the first element of each run of one group then keeps from every
group an element with the least key.  A sort may leave elements with one key in any order,
so of several such elements any may be the one that is kept.
-/

namespace SwitchFailover.Library.Duplicates

variable {A B C : Type*} [LinearOrder B] {key : A → B} {values : List A}

/-! ## Sorting -/

/-- What a sort by a key may make of a list: any permutation of it that is sorted. -/
structure Arrangement (key : A → B) (values : List A) where
  list : List A
  perm : list.Perm values
  sorted : list.Pairwise fun left right => key left ≤ key right

theorem pairwise_insertionSort_key (values : List A) :
    (values.insertionSort fun left right => key left ≤ key right).Pairwise
      fun left right => key left ≤ key right := by
  have htotal : Std.Total fun left right : A => key left ≤ key right := ⟨fun _ _ => le_total _ _⟩
  have htrans : IsTrans A fun left right => key left ≤ key right := ⟨fun _ _ _ => le_trans⟩
  exact List.pairwise_insertionSort _ values

namespace Arrangement

/-- The arrangement that leaves elements with one key in the order of the list. -/
def insertion (values : List A) : Arrangement key values where
  list := values.insertionSort fun left right => key left ≤ key right
  perm := List.perm_insertionSort _ values
  sorted := pairwise_insertionSort_key values

/-- An arrangement that has a given element before all others with its key. -/
def favouring [DecidableEq A] (key : A → B) {value : A} (hvalue : value ∈ values) :
    Arrangement key values where
  list := (value :: values.erase value).insertionSort fun left right => key left ≤ key right
  perm := (List.perm_insertionSort _ _).trans (List.perm_cons_erase hvalue).symm
  sorted := pairwise_insertionSort_key _

/-- A favoured element is the first to pass a test that no smaller one passes. -/
theorem find?_favouring [DecidableEq A] {value : A} (hvalue : value ∈ values) {test : A → Bool}
    (htest : test value = true)
    (hleast : ∀ other ∈ values, test other = true → key value ≤ key other) :
    (favouring key hvalue).list.find? test = some value := by
  have hlist : (favouring key hvalue).list = ((values.erase value).insertionSort
      fun left right => key left ≤ key right).orderedInsert
        (fun left right => key left ≤ key right) value := rfl
  rw [hlist, List.orderedInsert_eq_take_drop, List.find?_append, List.find?_cons_of_pos htest,
    Option.or_eq_right_of_none]
  rw [List.find?_eq_none]
  intro other hother hpasses
  have hmem : other ∈ values.erase value :=
    (List.mem_insertionSort _).mp ((List.takeWhile_sublist _).subset hother)
  have hless := List.mem_takeWhile_imp hother
  exact of_decide_eq_true hless (hleast other (List.mem_of_mem_erase hmem) hpasses)

/-- The first element that passes a test is least among those that pass it. -/
theorem le_of_find? (order : Arrangement key values) {test : A → Bool} {value other : A}
    (hfound : order.list.find? test = some value) (hother : other ∈ values)
    (htest : test other = true) : key value ≤ key other := by
  obtain ⟨-, before, after, hlist, hfails⟩ := List.find?_eq_some_iff_append.mp hfound
  have hsorted := order.sorted
  have hmem := order.perm.mem_iff.mpr hother
  rw [hlist] at hsorted hmem
  rcases List.mem_append.mp hmem with hbefore | hafter
  · have hnone := hfails other hbefore
    rw [htest] at hnone
    cases hnone
  · rcases List.mem_cons.mp hafter with rfl | hlater
    · exact le_rfl
    · exact (List.pairwise_cons.mp (List.pairwise_append.mp hsorted).2.1).1 other hlater

end Arrangement

/-! ## The run of one key -/

theorem takeWhile_eq_filter [DecidableEq B] {bound : B}
    (hsorted : values.Pairwise fun left right => key left ≤ key right)
    (hbound : ∀ value ∈ values, bound ≤ key value) :
    values.takeWhile (fun value => key value == bound) =
      values.filter fun value => key value == bound := by
  induction values with
  | nil => rfl
  | cons head tail ih =>
    obtain ⟨hhead, htail⟩ := List.pairwise_cons.mp hsorted
    rw [List.takeWhile_cons, List.filter_cons]
    split_ifs with hkey
    · rw [ih htail fun value hvalue => hbound value (List.mem_cons_of_mem _ hvalue)]
    · have hlt : bound < key head :=
        lt_of_le_of_ne (hbound head List.mem_cons_self) fun heq => hkey (beq_iff_eq.mpr heq.symm)
      symm
      rw [List.filter_eq_nil_iff]
      intro value hvalue heq
      exact absurd (beq_iff_eq.mp heq) (hlt.trans_le (hhead value hvalue)).ne'

/-- In a sorted list the elements with one key stand together. -/
theorem takeWhile_dropWhile_eq_filter [DecidableEq B]
    (hsorted : values.Pairwise fun left right => key left ≤ key right) (bound : B) :
    (values.dropWhile fun value => key value < bound).takeWhile (fun value => key value == bound) =
      values.filter fun value => key value == bound := by
  induction values with
  | nil => rfl
  | cons head tail ih =>
    obtain ⟨hhead, htail⟩ := List.pairwise_cons.mp hsorted
    rw [List.dropWhile_cons]
    split_ifs with hlt
    · have hne : ¬(key head == bound) = true := fun heq =>
        (of_decide_eq_true hlt).ne (beq_iff_eq.mp heq)
      rw [ih htail, List.filter_cons, if_neg hne]
    · have hle : bound ≤ key head := not_lt.mp fun h => hlt (decide_eq_true h)
      apply takeWhile_eq_filter hsorted
      intro value hvalue
      rcases List.mem_cons.mp hvalue with rfl | hlater
      · exact hle
      · exact hle.trans (hhead value hlater)

/-- A pair between two pairs with one first component has that first component. -/
theorem lex_squeeze {D : Type*} [LinearOrder D] {first middle : B} {low value high : D}
    (hlow : toLex (first, low) ≤ toLex (middle, value))
    (hhigh : toLex (middle, value) ≤ toLex (first, high)) :
    middle = first ∧ low ≤ value ∧ value ≤ high := by
  rw [Prod.Lex.toLex_le_toLex] at hlow hhigh
  rcases hlow with hlt | ⟨heq, hlow⟩
  · rcases hhigh with hgt | ⟨heq, -⟩
    · exact absurd hlt hgt.asymm
    · exact absurd heq hlt.ne'
  · rcases hhigh with hgt | ⟨-, hhigh⟩
    · exact absurd heq hgt.ne'
    · exact ⟨heq.symm, hlow, hhigh⟩

/-! ## The first of each group -/

variable {group : A → C}

/-- Between two elements of a group there are only elements of the group. -/
def Convex (key : A → B) (group : A → C) : Prop :=
  ∀ first middle last, key first ≤ key middle → key middle ≤ key last →
    group first = group last → group middle = group first

/-- A group that has ended does not start again. -/
theorem group_ne_of_sorted (hconvex : Convex key group) {first next : A} {rest : List A}
    (hsorted : (first :: next :: rest).Pairwise fun left right => key left ≤ key right)
    (hnew : group first ≠ group next) {later : A} (hlater : later ∈ next :: rest) :
    group first ≠ group later := by
  intro hsame
  obtain ⟨hfirst, hrest⟩ := List.pairwise_cons.mp hsorted
  have hbetween : key next ≤ key later := by
    rcases List.mem_cons.mp hlater with rfl | hmem
    · exact le_rfl
    · exact (List.pairwise_cons.mp hrest).1 later hmem
  exact hnew (hconvex first next later (hfirst next List.mem_cons_self) hbetween hsame).symm

variable {differs : A → A → Prop} [DecidableRel differs]
  (hdiffers : ∀ left right, differs left right ↔ group left ≠ group right)

include hdiffers

theorem pairwise_destutter' (hconvex : Convex key group) {first : A}
    (hsorted : (first :: values).Pairwise fun left right => key left ≤ key right) :
    (values.destutter' differs first).Pairwise fun left right => group left ≠ group right := by
  induction values generalizing first with
  | nil => exact List.pairwise_singleton _ first
  | cons next rest ih =>
    obtain ⟨hfirst, hrest⟩ := List.pairwise_cons.mp hsorted
    rw [List.destutter'_cons]
    split_ifs with hnew
    · refine List.pairwise_cons.mpr ⟨?_, ih hrest⟩
      intro kept hkept
      have hmem := (List.destutter'_sublist (R := differs) (a := next) rest).subset hkept
      exact group_ne_of_sorted hconvex hsorted ((hdiffers _ _).mp hnew) hmem
    · apply ih
      exact List.pairwise_cons.mpr ⟨fun other hother =>
        hfirst other (List.mem_cons_of_mem _ hother), (List.pairwise_cons.mp hrest).2⟩

theorem Arrangement.pairwise_destutter (hconvex : Convex key group)
    (order : Arrangement key values) :
    (order.list.destutter differs).Pairwise fun left right => group left ≠ group right := by
  have hsorted := order.sorted
  cases hvalues : order.list with
  | nil => exact List.Pairwise.nil
  | cons first rest =>
    rw [hvalues] at hsorted
    exact pairwise_destutter' hdiffers hconvex hsorted

theorem mem_destutter'_iff (hconvex : Convex key group) {first : A}
    (hsorted : (first :: values).Pairwise fun left right => key left ≤ key right) {kept : A} :
    kept ∈ values.destutter' differs first ↔
      (first :: values).find? (fun value => ¬differs value kept) = some kept := by
  induction values generalizing first with
  | nil =>
    rw [List.destutter'_nil, List.mem_singleton, List.find?_cons]
    constructor
    · rintro rfl
      simp [hdiffers]
    · intro hfound
      split at hfound
      · exact (Option.some.inj hfound).symm
      · cases hfound
  | cons next rest ih =>
    obtain ⟨hfirst, hrest⟩ := List.pairwise_cons.mp hsorted
    rw [List.destutter'_cons]
    split_ifs with hnew
    · rw [List.mem_cons, ih hrest, List.find?_cons (a := first)]
      by_cases hother : differs first kept
      · simp only [hother, not_true_eq_false, decide_false]
        constructor
        · rintro (rfl | hfound)
          · exact absurd rfl ((hdiffers _ _).mp hother)
          · exact hfound
        · exact Or.inr
      · simp only [hother, not_false_eq_true, decide_true]
        constructor
        · rintro (rfl | hfound)
          · rfl
          · have hlater := group_ne_of_sorted hconvex hsorted ((hdiffers _ _).mp hnew)
              (List.mem_of_find?_eq_some hfound)
            exact absurd ((hdiffers _ _).mpr hlater) hother
        · intro hfound
          exact Or.inl (Option.some.inj hfound).symm
    · have hskipped : (first :: rest).Pairwise fun left right => key left ≤ key right :=
        List.pairwise_cons.mpr ⟨fun other hother => hfirst other (List.mem_cons_of_mem _ hother),
          (List.pairwise_cons.mp hrest).2⟩
      have hsame : differs next kept ↔ differs first kept := by
        rw [hdiffers, not_not] at hnew
        rw [hdiffers, hdiffers, hnew]
      rw [ih hskipped, List.find?_cons (a := first), List.find?_cons (a := first),
        List.find?_cons (a := next)]
      by_cases hother : differs first kept
      · simp [hother, hsame]
      · simp [hother]

/-- From every group the first element is kept. -/
theorem Arrangement.mem_destutter (hconvex : Convex key group) (order : Arrangement key values)
    {kept : A} : kept ∈ order.list.destutter differs ↔
      order.list.find? (fun value => ¬differs value kept) = some kept := by
  have hsorted := order.sorted
  cases hvalues : order.list with
  | nil => simp
  | cons first rest =>
    rw [hvalues] at hsorted
    exact mem_destutter'_iff hdiffers hconvex hsorted

end SwitchFailover.Library.Duplicates
