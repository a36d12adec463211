import SwitchFailover.Library.Maps

/-!
# Lists split along a partition of their indices

Gathering reads a list at some indices, scattering writes at some indices.  Along a
partition of the indices a list is, up to order, the concatenation of its gathered
parts, so sums and counts over it are sums over the parts.
-/

namespace SwitchFailover.Library.Partition

open SwitchFailover.Library.Maps

variable {index : ℕ} {indices : List ℕ}

variable {A B : Type*} {values : List A}

/-- The values at some indices. -/
def gather (values : List A) (indices : List ℕ) : List A :=
  indices.filterMap fun index => values[index]?

/-- Write one value at each index. -/
def scatter (values : List A) (indices : List ℕ) (written : List A) : List A :=
  (indices.zip written).foldl (fun values entry => values.set entry.1 entry.2) values

@[simp]
theorem gather_nil (values : List A) : gather values [] = [] := rfl

theorem gather_cons (hindex : index < values.length) (indices : List ℕ) :
    gather values (index :: indices) = values[index] :: gather values indices := by
  rw [gather, List.filterMap_cons, List.getElem?_eq_getElem hindex]
  rfl

theorem length_gather (hindices : ∀ index ∈ indices, index < values.length) :
    (gather values indices).length = indices.length := by
  induction indices with
  | nil => rfl
  | cons index indices ih =>
    rw [List.forall_mem_cons] at hindices
    rw [gather_cons hindices.1, List.length_cons, List.length_cons, ih hindices.2]

theorem mem_of_mem_gather {value : A} (hvalue : value ∈ gather values indices) :
    value ∈ values := by
  obtain ⟨index, -, hindex⟩ := List.mem_filterMap.mp hvalue
  exact List.mem_of_getElem? hindex

theorem gather_zip {left : List A} {right : List B} (hlength : left.length = right.length)
    (hindices : ∀ index ∈ indices, index < left.length) :
    (gather left indices).zip (gather right indices) = gather (left.zip right) indices := by
  induction indices with
  | nil => rfl
  | cons index indices ih =>
    rw [List.forall_mem_cons] at hindices
    have hright : index < right.length := hlength ▸ hindices.1
    rw [gather_cons hindices.1, gather_cons hright, gather_cons (by
      rw [List.length_zip]
      omega), List.zip_cons_cons, ih hindices.2, List.getElem_zip]

theorem gather_map (image : A → B) (values : List A) (indices : List ℕ) :
    gather (values.map image) indices = (gather values indices).map image := by
  rw [gather, gather, List.map_filterMap]
  simp only [List.getElem?_map]

theorem gather_congr {left right : List A}
    (hsame : ∀ index ∈ indices, left[index]? = right[index]?) :
    gather left indices = gather right indices :=
  List.filterMap_congr hsame

theorem getElem?_gather (hindices : ∀ index ∈ indices, index < values.length) (position : ℕ) :
    (gather values indices)[position]? = indices[position]?.bind fun index => values[index]? := by
  induction indices generalizing position with
  | nil => rfl
  | cons index indices ih =>
    rw [List.forall_mem_cons] at hindices
    rw [gather_cons hindices.1]
    cases position with
    | zero => exact (List.getElem?_eq_getElem hindices.1).symm
    | succ position => exact ih hindices.2 position

theorem gather_range (values : List A) : gather values (List.range values.length) = values := by
  apply List.ext_getElem?
  intro position
  rw [getElem?_gather (by simp)]
  by_cases hposition : position < values.length
  · simp [hposition]
  · simp [hposition]

theorem scatter_spec {written : List A} (hdistinct : indices.Nodup)
    (hwritten : written.length = indices.length)
    (hindices : ∀ index ∈ indices, index < values.length) :
    (scatter values indices written).length = values.length ∧
      (∀ index, index ∉ indices → (scatter values indices written)[index]? = values[index]?) ∧
      gather (scatter values indices written) indices = written := by
  induction indices generalizing values written with
  | nil =>
    rw [List.length_eq_zero_iff.mp hwritten]
    exact ⟨rfl, fun _ _ => rfl, rfl⟩
  | cons index indices ih =>
    rw [List.nodup_cons] at hdistinct
    rw [List.forall_mem_cons] at hindices
    cases written with
    | nil => cases hwritten
    | cons value written =>
      obtain ⟨hlength, hothers, hgather⟩ := ih hdistinct.2
        (show written.length = indices.length by simpa using hwritten)
        (show ∀ other ∈ indices, other < (values.set index value).length by
          simpa using hindices.2)
      have hstep : scatter values (index :: indices) (value :: written) =
          scatter (values.set index value) indices written := rfl
      rw [hstep]
      refine ⟨by rw [hlength, List.length_set], ?_, ?_⟩
      · intro other hother
        rw [List.mem_cons, not_or] at hother
        rw [hothers other hother.2, List.getElem?_set_ne (Ne.symm hother.1)]
      · have hwrote := hothers index hdistinct.1
        rw [List.getElem?_set_self hindices.1] at hwrote
        rw [gather, List.filterMap_cons, hwrote]
        exact congrArg (List.cons value) hgather

section Classes

variable {classes : List (List ℕ)}
  (hclasses : classes.flatten.Perm (List.range values.length))

include hclasses

theorem perm_flatMap_gather : (classes.flatMap (gather values)).Perm values := by
  have hsplit : classes.flatMap (gather values) = gather values classes.flatten := by
    rw [gather, List.filterMap_flatten, ← List.flatMap_def]
    rfl
  rw [hsplit]
  have hperm : (gather values classes.flatten).Perm
      (gather values (List.range values.length)) := hclasses.filterMap _
  rwa [gather_range] at hperm

theorem mem_gather_of_mem {value : A} (hvalue : value ∈ values) :
    ∃ indices ∈ classes, value ∈ gather values indices :=
  List.mem_flatMap.mp ((perm_flatMap_gather hclasses).mem_iff.mpr hvalue)

theorem lt_length_of_mem_classes (hindices : indices ∈ classes) (hindex : index ∈ indices) :
    index < values.length := by
  have hmem := hclasses.mem_iff.mp (List.mem_flatten.mpr ⟨indices, hindices, hindex⟩)
  exact List.mem_range.mp hmem

end Classes

theorem sum_gather {M : Type*} [AddCommMonoid M] {weights : List M} {classes : List (List ℕ)}
    (hclasses : classes.flatten.Perm (List.range weights.length)) :
    (classes.map fun indices => (gather weights indices).sum).sum = weights.sum := by
  rw [← (perm_flatMap_gather hclasses).sum_eq, List.flatMap_def, List.sum_flatten, List.map_map]
  rfl

theorem countP_gather (holds : A → Bool) (hindices : ∀ index ∈ indices, index < values.length) :
    (gather values indices).countP holds =
      indices.countP fun index => values[index]?.any holds := by
  induction indices with
  | nil => rfl
  | cons index indices ih =>
    rw [List.forall_mem_cons] at hindices
    rw [gather_cons hindices.1, List.countP_cons, List.countP_cons, ih hindices.2,
      List.getElem?_eq_getElem hindices.1]
    rfl

/-! ## Minima along a partition -/

section Order

variable [LinearOrder B] {left right : List B} {classes : List (List ℕ)}

theorem lt_of_first_difference {first second : B} (index : ℕ)
    (hbefore : ∀ earlier < index, left[earlier]? = right[earlier]?)
    (hleft : left[index]? = some first) (hright : right[index]? = some second)
    (hless : first < second) : left < right := by
  obtain ⟨hleftLength, rfl⟩ := List.getElem?_eq_some_iff.mp hleft
  obtain ⟨hrightLength, rfl⟩ := List.getElem?_eq_some_iff.mp hright
  refine List.lt_iff_exists.mpr (Or.inr ⟨index, hleftLength, hrightLength, ?_, hless⟩)
  intro earlier hearlier
  have hsame := hbefore earlier hearlier
  rw [List.getElem?_eq_getElem (hearlier.trans hleftLength),
    List.getElem?_eq_getElem (hearlier.trans hrightLength)] at hsame
  exact Option.some.inj hsame

/-- Lists are ordered by their first difference, and a class that is read in order sees
its part of it. -/
theorem le_of_gather_le (hlength : left.length = right.length)
    (hclasses : classes.flatten.Perm (List.range left.length))
    (hsorted : ∀ indices ∈ classes, indices.Pairwise (· < ·))
    (hle : ∀ indices ∈ classes, gather left indices ≤ gather right indices) : left ≤ right := by
  by_contra hgreater
  rcases List.lt_iff_exists.mp (not_le.mp hgreater) with ⟨-, hshort⟩ | ⟨first, hright, hleft,
    hbefore, hfirst⟩
  · omega
  · obtain ⟨indices, hindices, hmember⟩ := List.mem_flatten.mp
      (hclasses.mem_iff.mpr (List.mem_range.mpr hleft))
    obtain ⟨position, hposition, rfl⟩ := List.getElem_of_mem hmember
    have hbounds : ∀ index ∈ indices, index < left.length :=
      fun index hindex => lt_length_of_mem_classes hclasses hindices hindex
    have hothers : ∀ index ∈ indices, index < right.length := by
      rw [← hlength]
      exact hbounds
    refine absurd (hle indices hindices) (not_le.mpr (lt_of_first_difference position ?_ ?_ ?_
      hfirst))
    · intro earlier hearlier
      have hplace : earlier < indices.length := hearlier.trans hposition
      have hless : indices[earlier] < indices[position] :=
        List.pairwise_iff_getElem.mp (hsorted indices hindices) _ _ hplace hposition hearlier
      rw [getElem?_gather hothers, getElem?_gather hbounds, List.getElem?_eq_getElem hplace]
      change right[indices[earlier]]? = left[indices[earlier]]?
      rw [List.getElem?_eq_getElem (hless.trans hright), List.getElem?_eq_getElem
        (hless.trans hleft), hbefore _ hless]
    · rw [getElem?_gather hothers, List.getElem?_eq_getElem hposition]
      exact List.getElem?_eq_getElem hright
    · rw [getElem?_gather hbounds, List.getElem?_eq_getElem hposition]
      exact List.getElem?_eq_getElem hleft

/-- Minimal parts make a minimal whole: the weights add up, and where they are equal the
parts are compared in order. -/
theorem toLex_le_of_gather_le {M : Type*} [AddCommMonoid M] [LinearOrder M]
    [IsOrderedCancelAddMonoid M] {leftWeights rightWeights : List M}
    (hlength : left.length = right.length) (hleft : leftWeights.length = left.length)
    (hright : rightWeights.length = left.length)
    (hclasses : classes.flatten.Perm (List.range left.length))
    (hsorted : ∀ indices ∈ classes, indices.Pairwise (· < ·))
    (hle : ∀ indices ∈ classes, toLex ((gather leftWeights indices).sum, gather left indices) ≤
        toLex ((gather rightWeights indices).sum, gather right indices)) :
    toLex (leftWeights.sum, left) ≤ toLex (rightWeights.sum, right) := by
  have hleftSum : (classes.map fun indices => (gather leftWeights indices).sum).sum =
      leftWeights.sum := sum_gather (hleft ▸ hclasses)
  have hrightSum : (classes.map fun indices => (gather rightWeights indices).sum).sum =
      rightWeights.sum := sum_gather (hright ▸ hclasses)
  rw [← hleftSum, ← hrightSum]
  have hweights : ∀ indices ∈ classes,
      (gather leftWeights indices).sum ≤ (gather rightWeights indices).sum := by
    intro indices hindices
    rcases Prod.Lex.toLex_le_toLex.mp (hle indices hindices) with hless | ⟨heq, -⟩
    · exact hless.le
    · exact heq.le
  rw [Prod.Lex.toLex_le_toLex]
  by_cases hstrict : ∃ indices ∈ classes,
      (gather leftWeights indices).sum < (gather rightWeights indices).sum
  · exact Or.inl (List.sum_lt_sum _ _ hweights hstrict)
  · right
    have hequal : ∀ indices ∈ classes,
        (gather leftWeights indices).sum = (gather rightWeights indices).sum := by
      intro indices hindices
      by_contra hne
      exact hstrict ⟨indices, hindices, lt_of_le_of_ne (hweights indices hindices) hne⟩
    refine ⟨congrArg List.sum (List.map_congr_left hequal), le_of_gather_le hlength hclasses hsorted
      fun indices hindices => ?_⟩
    rcases Prod.Lex.toLex_le_toLex.mp (hle indices hindices) with hless | ⟨-, hparts⟩
    · exact absurd (hequal indices hindices) hless.ne
    · exact hparts

end Order

/-! ## The classes of a keyed partition -/

/-- A map that lists under each key the indices of that key partitions the indices. -/
theorem classes_perm {size : ℕ} {keyOf : ℕ → ℕ} {classes : Std.TreeMap ℕ (List ℕ)}
    (hclasses : ∀ (key : ℕ) (indices : List ℕ), classes[key]? = some indices ↔
      indices = (List.range size).filter (fun index => keyOf index = key) ∧ indices ≠ []) :
    classes.values.flatten.Perm (List.range size) ∧ ∀ indices ∈ classes.values,
        ∃ key, indices = (List.range size).filter fun index => keyOf index = key := by
  have hentry : ∀ entry ∈ classes.toList,
      entry.2 = (List.range size).filter (fun index => keyOf index = entry.1) ∧ entry.2 ≠ [] :=
    fun entry hentry =>
      (hclasses entry.1 entry.2).mp (Std.TreeMap.mem_toList_iff_getElem?_eq_some.mp hentry)
  rw [values_eq_map_snd]
  constructor
  · rw [List.perm_ext_iff_of_nodup _ List.nodup_range]
    · intro index
      rw [List.mem_flatten]
      constructor
      · rintro ⟨indices, hindices, hindex⟩
        obtain ⟨entry, hmem, rfl⟩ := List.mem_map.mp hindices
        rw [(hentry entry hmem).1] at hindex
        exact (List.mem_filter.mp hindex).1
      · intro hindex
        have hmember : index ∈ (List.range size).filter (fun other => keyOf other = keyOf index) :=
          List.mem_filter.mpr ⟨hindex, by simp⟩
        have hfound := (hclasses (keyOf index) _).mpr ⟨rfl, List.ne_nil_of_mem hmember⟩
        exact ⟨_, List.mem_map.mpr ⟨_, Std.TreeMap.mem_toList_iff_getElem?_eq_some.mpr hfound, rfl⟩,
          hmember⟩
    · rw [List.nodup_flatten]
      constructor
      · intro indices hindices
        obtain ⟨entry, hmem, rfl⟩ := List.mem_map.mp hindices
        rw [(hentry entry hmem).1]
        exact List.nodup_range.filter _
      · rw [List.pairwise_map]
        have hdistinct := Std.TreeMap.distinct_keys_toList (t := classes)
        refine List.Pairwise.imp_of_mem ?_ hdistinct
        intro left right hleft hright hkeys index hindexLeft hindexRight
        rw [(hentry left hleft).1] at hindexLeft
        rw [(hentry right hright).1] at hindexRight
        have hsame : left.1 = right.1 := by
          have hkeyLeft := of_decide_eq_true (List.mem_filter.mp hindexLeft).2
          have hkeyRight := of_decide_eq_true (List.mem_filter.mp hindexRight).2
          exact hkeyLeft.symm.trans hkeyRight
        exact hkeys (by rw [hsame]; exact Std.ReflCmp.compare_self)
  · intro indices hindices
    obtain ⟨entry, hmem, rfl⟩ := List.mem_map.mp hindices
    exact ⟨entry.1, (hentry entry hmem).1⟩

end SwitchFailover.Library.Partition
