import Mathlib

/-!
# Bounded retention

A bucket of fixed capacity takes in one element after the other, in the order of a rank,
and drops the least elements when it is too full.  At any time it holds the greatest
elements of everything it was ever given.
-/

namespace SwitchFailover.Library.Retention

variable {A B : Type*} [LinearOrder B] {rank : A → B} {capacity : ℕ}

/-- The elements kept are the greatest of the history, in order and as many as the
capacity allows. -/
structure Newest (rank : A → B) (capacity : ℕ) (history kept : List A) : Prop where
  sorted : kept.Pairwise fun left right => rank left < rank right
  within : kept.length ≤ capacity
  greatest : ∃ forgotten, history.Perm (forgotten ++ kept) ∧
    (∀ old ∈ forgotten, ∀ new ∈ kept, rank old < rank new) ∧
    (forgotten ≠ [] → kept.length = capacity)

theorem Newest.nil (rank : A → B) (capacity : ℕ) : Newest rank capacity [] [] :=
  ⟨List.Pairwise.nil, Nat.zero_le _, [], List.Perm.refl _, by simp, by simp⟩

theorem Newest.mem_history {history kept : List A} (hnewest : Newest rank capacity history kept)
    {value : A} (hvalue : value ∈ kept) : value ∈ history := by
  obtain ⟨forgotten, hperm, -, -⟩ := hnewest.greatest
  exact hperm.mem_iff.mpr (List.mem_append_right _ hvalue)

/-- Inserting a value of a new rank keeps the bucket strictly sorted. -/
theorem orderedInsert_pairwise_lt {kept : List A}
    (hsorted : kept.Pairwise fun left right => rank left < rank right) {value : A}
    (hnew : ∀ other ∈ kept, rank other ≠ rank value) :
    (kept.orderedInsert (fun left right => rank left ≤ rank right) value).Pairwise
      fun left right => rank left < rank right := by
  have htotal : Std.Total fun left right : A => rank left ≤ rank right :=
    ⟨fun left right => le_total (rank left) (rank right)⟩
  have htrans : IsTrans A fun left right => rank left ≤ rank right := ⟨fun _ _ _ => le_trans⟩
  have hle := List.Pairwise.orderedInsert value kept (hsorted.imp fun hlt => le_of_lt hlt)
  have hne : (value :: kept).Pairwise fun left right => rank left ≠ rank right :=
    List.pairwise_cons.mpr
      ⟨fun other hother => (hnew other hother).symm, hsorted.imp fun hlt => ne_of_lt hlt⟩
  have hdistinct := (List.Perm.pairwise_iff (fun h => Ne.symm h)
    (List.perm_orderedInsert (fun left right => rank left ≤ rank right) value kept)).mpr hne
  exact (hle.and hdistinct).imp fun hboth => lt_of_le_of_ne hboth.1 hboth.2

/-- One more element: the bucket takes it in and drops what exceeds the capacity. -/
theorem Newest.insert {history kept : List A} (hnewest : Newest rank capacity history kept)
    {value : A} (hnew : ∀ other ∈ kept, rank other ≠ rank value) :
    let bucket := kept.orderedInsert (fun left right => rank left ≤ rank right) value
    Newest rank capacity (history ++ [value]) (bucket.drop (bucket.length - capacity)) := by
  intro bucket
  have hsorted : bucket.Pairwise fun left right => rank left < rank right :=
    orderedInsert_pairwise_lt hnewest.sorted hnew
  have hperm : bucket.Perm (value :: kept) := List.perm_orderedInsert _ value kept
  have hlength : bucket.length = kept.length + 1 := List.orderedInsert_length _ kept value
  obtain ⟨forgotten, hhistory, holder, hfull⟩ := hnewest.greatest
  have hgrown : (history ++ [value]).Perm (forgotten ++ bucket) := by
    calc (history ++ [value]).Perm (forgotten ++ kept ++ [value]) := hhistory.append_right _
      _ = forgotten ++ (kept ++ [value]) := List.append_assoc _ _ _
      _ |>.Perm (forgotten ++ bucket) :=
          ((List.perm_append_singleton value kept).trans hperm.symm).append_left _
  rcases Nat.lt_or_ge kept.length capacity with hroom | hnone
  · -- nothing has been forgotten yet, and nothing is now
    have hkeep : bucket.length - capacity = 0 := by omega
    have hempty : forgotten = [] := by
      by_contra hsome
      have := hfull hsome
      omega
    rw [hkeep, List.drop_zero]
    rw [hempty] at hgrown
    exact ⟨hsorted, by omega, [], hgrown, by simp, by simp⟩
  · have hcapacity : kept.length = capacity := le_antisymm hnewest.within hnone
    cases hbucket : bucket with
    | nil => rw [hbucket] at hlength; cases hlength
    | cons front rest =>
      rw [hbucket] at hsorted hperm hlength hgrown
      obtain ⟨hfront, hrest⟩ := List.pairwise_cons.mp hsorted
      have hcount : rest.length = capacity := by
        rw [List.length_cons] at hlength
        omega
      have hdrop : (front :: rest).length - capacity = 1 := by
        rw [List.length_cons]
        omega
      rw [hdrop, List.drop_one, List.tail_cons]
      refine ⟨hrest, le_of_eq hcount, front :: forgotten, ?_, ?_, fun _ => hcount⟩
      · exact hgrown.trans List.perm_middle
      · intro old hold new hmem
        rcases List.mem_cons.mp hold with rfl | hforgotten
        · exact hfront new hmem
        · rcases List.mem_cons.mp (hperm.mem_iff.mp (List.mem_cons_of_mem _ hmem)) with
            rfl | hkept
          · -- the new value stays, so the front is an older element
            have hlt := hfront new hmem
            rcases List.mem_cons.mp (hperm.mem_iff.mp List.mem_cons_self) with hsame | hkept
            · rw [hsame] at hlt
              exact absurd hlt (lt_irrefl _)
            · exact (holder old hforgotten front hkept).trans hlt
          · exact holder old hforgotten new hkept

end SwitchFailover.Library.Retention
