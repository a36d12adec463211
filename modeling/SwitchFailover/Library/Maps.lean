import Mathlib

/-!
# Entries of ordered maps

The entries of an ordered map, listed in the order of the keys, are determined by the
look-ups.  One key has at most one entry, and the rest of the list is what an insertion
under that key leaves alone.
-/

namespace SwitchFailover.Library.Maps

open Std in
theorem values_eq_map_snd {K V : Type*} {cmp : K → K → Ordering} (map : TreeMap K V cmp) :
    map.values = map.toList.map Prod.snd := by
  change DTreeMap.Internal.Impl.foldr _ [] _ = (DTreeMap.Internal.Impl.foldr _ [] _).map _
  rw [DTreeMap.Internal.Impl.foldr_eq_foldr, DTreeMap.Internal.Impl.foldr_eq_foldr]
  induction map.inner.inner.toListModel with
  | nil => rfl
  | cons entry rest ih => exact congrArg (List.cons entry.2) ih

variable {K V : Type*} [Ord K] [Std.TransOrd K] [Std.LawfulEqOrd K]

theorem toList_eq_of_getElem? {left right : Std.TreeMap K V}
    (hsame : ∀ key : K, left[key]? = right[key]?) : left.toList = right.toList :=
  (Std.TreeMap.Equiv.of_forall_constGet?_eq hsame).toList_eq

theorem mem_values {map : Std.TreeMap K V} {value : V} :
    value ∈ map.values ↔ ∃ key : K, map[key]? = some value := by
  rw [values_eq_map_snd, List.mem_map]
  constructor
  · rintro ⟨entry, hentry, rfl⟩
    exact ⟨entry.1, Std.TreeMap.mem_toList_iff_getElem?_eq_some.mp hentry⟩
  · rintro ⟨key, hvalue⟩
    exact ⟨(key, value), Std.TreeMap.mem_toList_iff_getElem?_eq_some.mpr hvalue, rfl⟩

/-- Inserting where no entry is stands for the plain insertion. -/
theorem toList_insertIfNew_of_not_mem {map : Std.TreeMap K V} {key : K} (hnew : key ∉ map)
    (value : V) : (map.insertIfNew key value).toList = (map.insert key value).toList := by
  apply toList_eq_of_getElem?
  intro other
  rw [Std.TreeMap.getElem?_insertIfNew, Std.TreeMap.getElem?_insert]
  exact if_congr (and_iff_left hnew) rfl rfl

theorem toList_insertIfNew_of_mem {map : Std.TreeMap K V} {key : K} (hmem : key ∈ map)
    (value : V) : (map.insertIfNew key value).toList = map.toList := by
  apply toList_eq_of_getElem?
  intro other
  rw [Std.TreeMap.getElem?_insertIfNew, if_neg]
  exact fun hnew => hnew.2 hmem

variable [DecidableEq K]

/-- The entries of the other keys. -/
def others (map : Std.TreeMap K V) (key : K) : List (K × V) :=
  map.toList.filter fun entry => decide ¬(key == entry.1) = true

theorem toList_insert_perm (map : Std.TreeMap K V) (key : K) (value : V) :
    (map.insert key value).toList.Perm ((key, value) :: others map key) :=
  Std.TreeMap.toList_insert_perm

theorem toList_perm (map : Std.TreeMap K V) (key : K) :
    map.toList.Perm ((map[key]?).toList.map (fun value => (key, value)) ++ others map key) := by
  cases hentry : map[key]? with
  | none =>
    have hall : others map key = map.toList := by
      rw [others, List.filter_eq_self]
      rintro ⟨other, value⟩ hmem
      rw [Std.TreeMap.mem_toList_iff_getElem?_eq_some] at hmem
      rw [decide_eq_true_eq, beq_iff_eq]
      rintro rfl
      rw [hentry] at hmem
      cases hmem
    rw [hall]
    exact List.Perm.refl _
  | some value =>
    have hsame : (map.insert key value).toList = map.toList := by
      apply toList_eq_of_getElem?
      intro other
      rw [Std.TreeMap.getElem?_insert]
      split
      · rename_i heq
        rw [← Std.LawfulEqOrd.eq_of_compare heq, hentry]
      · rfl
    rw [← hsame]
    exact toList_insert_perm map key value

end SwitchFailover.Library.Maps
