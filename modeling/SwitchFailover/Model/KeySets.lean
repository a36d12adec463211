import SwitchFailover.Library.SortedRanges
import SwitchFailover.Model.Generation

/-!
# Generation vectors as the code keeps them

The class holds a plain vector of keys: nothing but its own functions keeps the keys valid
and in order, and the binary search, the scan and the merges rely on that order.  Every
vector the functions build is the key list of a canonical generation vector, and on those
the functions are the operations on sets of keys.
-/

namespace SwitchFailover.Model

open SwitchFailover.Core Library.Ordering Library.SortedRanges

/-- The private member of the class, with no promise about it. -/
structure KeyVector where
  keys : List SwitchKey := []
  deriving DecidableEq

variable {vector other : KeyVector}

namespace KeyVector

def canonicalise (keys : List SwitchKey) : KeyVector :=
  ⟨sortUnique (keys.filter fun key => key.valid)⟩

def contains (vector : KeyVector) (key : SwitchKey) : Bool := binarySearch vector.keys key

def containsAll (vector other : KeyVector) : Bool := other.keys.all vector.contains

def intersects (vector other : KeyVector) : Bool := shareValue vector.keys other.keys

/-- Whether the key was inserted, and the vector afterwards. -/
def insert (vector : KeyVector) (key : SwitchKey) : Bool × KeyVector :=
  if !key.valid then (false, vector)
  else
    let position := lowerBound vector.keys key
    if vector.keys[position]? = some key then (false, vector)
    else (true, ⟨vector.keys.take position ++ key :: vector.keys.drop position⟩)

def united (vector other : KeyVector) : KeyVector :=
  canonicalise (setUnion vector.keys other.keys)

def intersected (vector other : KeyVector) : KeyVector :=
  canonicalise (setIntersection vector.keys other.keys)

def withoutIdentity (vector : KeyVector) (id : SwitchId) : KeyVector :=
  canonicalise (vector.keys.filter fun key => key.id != id)

/-- The vectors that callers can have: the member is private, so only these. -/
inductive Built : KeyVector → Prop
  | empty : Built {}
  | canonicalise (keys : List SwitchKey) : Built (canonicalise keys)
  | insert {vector : KeyVector} (key : SwitchKey) : Built vector → Built (vector.insert key).2
  | united {vector other : KeyVector} : Built vector → Built other → Built (vector.united other)
  | intersected {vector other : KeyVector} : Built vector → Built other →
      Built (vector.intersected other)
  | withoutIdentity {vector : KeyVector} (id : SwitchId) : Built vector →
      Built (vector.withoutIdentity id)

/-- What a vector stands for. -/
def keySet (vector : KeyVector) : Set SwitchKey := {key | key ∈ vector.keys}

theorem insert_absent (hsorted : vector.keys.Pairwise (· < ·)) {key : SwitchKey}
    (hvalid : key.valid = true) (habsent : key ∉ vector.keys) :
    vector.insert key = (true, ⟨vector.keys.take (lowerBound vector.keys key) ++
      key :: vector.keys.drop (lowerBound vector.keys key)⟩) := by
  have hposition := mt (getElem?_lowerBound_iff hsorted key).mp habsent
  rw [insert, if_neg (by simp [hvalid])]
  exact if_neg hposition

theorem insert_skipped (hsorted : vector.keys.Pairwise (· < ·)) {key : SwitchKey}
    (hskip : ¬(key.valid = true ∧ key ∉ vector.keys)) : vector.insert key = (false, vector) := by
  rw [insert]
  by_cases hvalid : key.valid = true
  · have hpresent : key ∈ vector.keys := by
      by_contra habsent
      exact hskip ⟨hvalid, habsent⟩
    rw [if_neg (by simp [hvalid])]
    exact if_pos ((getElem?_lowerBound_iff hsorted key).mpr hpresent)
  · exact if_pos (by simpa using hvalid)

end KeyVector

/-! ## The canonical vectors of the model -/

namespace GenerationVector

/-- The vector as the code keeps it. -/
def stored (vector : GenerationVector) : KeyVector := ⟨vector.keys⟩

theorem stored_canonicalise (keys : List SwitchKey) :
    (canonicalise keys).stored = KeyVector.canonicalise keys := rfl

theorem stored_contains (vector : GenerationVector) (key : SwitchKey) :
    vector.stored.contains key = vector.contains key := by
  rw [Bool.eq_iff_iff, contains, decide_eq_true_iff]
  exact binarySearch_iff vector.sorted key

theorem stored_containsAll (vector other : GenerationVector) :
    vector.stored.containsAll other.stored = vector.containsAll other := by
  have hsame : vector.stored.contains = vector.contains := funext (stored_contains vector)
  rw [KeyVector.containsAll, hsame]
  rfl

theorem stored_intersects (vector other : GenerationVector) :
    vector.stored.intersects other.stored = vector.intersects other := rfl

theorem stored_insert (vector : GenerationVector) (key : SwitchKey) :
    vector.stored.insert key =
      (key.valid && !decide (key ∈ vector.keys), (vector.insert key).stored) := by
  by_cases hinsert : key.valid = true ∧ key ∉ vector.keys
  · -- both lists are sorted and have the same members
    have hsame : vector.keys.take (lowerBound vector.keys key) ++
        key :: vector.keys.drop (lowerBound vector.keys key) = (vector.insert key).keys := by
      refine eq_of_pairwise_lt id (pairwise_insertAt vector.sorted hinsert.2)
        (vector.insert key).sorted fun other => ?_
      rw [mem_insertAt, mem_insert, or_comm, and_iff_left hinsert.1]
    rw [KeyVector.insert_absent vector.sorted hinsert.1 hinsert.2, hinsert.1,
      decide_eq_false hinsert.2]
    exact congrArg (fun keys => (true, KeyVector.mk keys)) hsame
  · have hkept : vector.insert key = vector := dif_neg hinsert
    have hflag : (key.valid && !decide (key ∈ vector.keys)) = false := by
      rw [Bool.eq_false_iff, ne_eq, Bool.and_eq_true, Bool.not_eq_true', decide_eq_false_iff_not]
      exact hinsert
    rw [KeyVector.insert_skipped vector.sorted hinsert, hkept, hflag]

theorem stored_united (vector other : GenerationVector) :
    vector.stored.united other.stored = (vector.united other).stored := by
  have hsame : sortUnique ((setUnion vector.keys other.keys).filter fun key => key.valid) =
      sortUnique ((vector.keys ++ other.keys).filter fun key => key.valid) := by
    apply sortUnique_congr
    intro key
    rw [List.mem_filter, List.mem_filter, mem_setUnion, List.mem_append]
  exact congrArg KeyVector.mk hsame

end GenerationVector

namespace KeyVector

/-- Every vector that can be built is a canonical one. -/
theorem Built.exists_stored (hbuilt : Built vector) :
    ∃ canonical : GenerationVector, vector = canonical.stored := by
  induction hbuilt with
  | empty => exact ⟨GenerationVector.empty, rfl⟩
  | canonicalise keys => exact ⟨GenerationVector.canonicalise keys, rfl⟩
  | insert key _ ih =>
    obtain ⟨canonical, rfl⟩ := ih
    exact ⟨canonical.insert key, by rw [canonical.stored_insert]⟩
  | united _ _ ih ihOther => exact ⟨GenerationVector.canonicalise _, rfl⟩
  | intersected _ _ ih ihOther => exact ⟨GenerationVector.canonicalise _, rfl⟩
  | withoutIdentity id _ ih => exact ⟨GenerationVector.canonicalise _, rfl⟩

theorem Built.sorted (hbuilt : Built vector) : vector.keys.Pairwise (· < ·) := by
  obtain ⟨canonical, rfl⟩ := hbuilt.exists_stored
  exact canonical.sorted

theorem Built.qualified (hbuilt : Built vector) : ∀ key ∈ vector.keys, key.valid = true := by
  obtain ⟨canonical, rfl⟩ := hbuilt.exists_stored
  exact canonical.qualified

@[simp]
theorem mem_keySet (vector : KeyVector) (key : SwitchKey) :
    key ∈ vector.keySet ↔ key ∈ vector.keys := Iff.rfl

/-- Canonicalisation keeps the valid keys. -/
theorem keySet_canonicalise (keys : List SwitchKey) :
    (canonicalise keys).keySet = {key | key ∈ keys ∧ key.valid = true} := by
  ext key
  exact GenerationVector.mem_canonicalise key keys

theorem containsAll_iff (hvector : Built vector) :
    vector.containsAll other = true ↔ other.keySet ⊆ vector.keySet := by
  rw [containsAll, List.all_eq_true]
  exact forall₂_congr fun key _ => binarySearch_iff hvector.sorted key

theorem intersects_iff (hvector : Built vector) (hother : Built other) :
    vector.intersects other = true ↔ (vector.keySet ∩ other.keySet).Nonempty :=
  shareValue_iff hvector.sorted hother.sorted

theorem keySet_insert (hvector : Built vector) (key : SwitchKey) :
    (vector.insert key).2.keySet = vector.keySet ∪ {other | other = key ∧ key.valid = true} := by
  obtain ⟨canonical, rfl⟩ := hvector.exists_stored
  rw [canonical.stored_insert]
  ext other
  exact GenerationVector.mem_insert canonical key other

theorem insert_fst (hvector : Built vector) (key : SwitchKey) :
    (vector.insert key).1 = true ↔ key.valid = true ∧ key ∉ vector.keySet := by
  obtain ⟨canonical, rfl⟩ := hvector.exists_stored
  rw [canonical.stored_insert, Bool.and_eq_true, Bool.not_eq_true', decide_eq_false_iff_not]
  rfl

theorem keySet_united (hvector : Built vector) (hother : Built other) :
    (vector.united other).keySet = vector.keySet ∪ other.keySet := by
  rw [united, keySet_canonicalise]
  ext key
  have hvalid : key ∈ vector.keys ∨ key ∈ other.keys → key.valid = true :=
    fun hmem => hmem.elim (hvector.qualified key) (hother.qualified key)
  rw [Set.mem_ofPred_eq, mem_setUnion]
  exact and_iff_left_of_imp hvalid

theorem keySet_intersected (hvector : Built vector) (hother : Built other) :
    (vector.intersected other).keySet = vector.keySet ∩ other.keySet := by
  rw [intersected, keySet_canonicalise]
  ext key
  rw [Set.mem_ofPred_eq, mem_setIntersection hvector.sorted hother.sorted]
  exact and_iff_left_of_imp fun hmem => hvector.qualified key hmem.1

theorem keySet_withoutIdentity (hvector : Built vector) (id : SwitchId) :
    (vector.withoutIdentity id).keySet = {key ∈ vector.keySet | key.id ≠ id} := by
  rw [withoutIdentity, keySet_canonicalise]
  ext key
  rw [Set.mem_ofPred_eq, List.mem_filter, bne_iff_ne]
  exact and_iff_left_of_imp fun hmem => hvector.qualified key hmem.1

/-- Generation vectors are sets of valid keys. -/
theorem generation_vectors_are_sets {vector other : KeyVector} (hvector : Built vector)
    (hother : Built other) (key : SwitchKey) (id : SwitchId) (keys : List SwitchKey) :
    (∀ member ∈ vector.keys, member.valid = true) ∧ vector.keys.Pairwise (· < ·) ∧
      (vector.contains key = true ↔ key ∈ vector.keySet) ∧
      (vector.containsAll other = true ↔ other.keySet ⊆ vector.keySet) ∧
      (vector.intersects other = true ↔ (vector.keySet ∩ other.keySet).Nonempty) ∧
      (canonicalise keys).keySet = {member | member ∈ keys ∧ member.valid = true} ∧
      (vector.united other).keySet = vector.keySet ∪ other.keySet ∧
      (vector.intersected other).keySet = vector.keySet ∩ other.keySet ∧
      (vector.insert key).2.keySet =
        vector.keySet ∪ {member | member = key ∧ key.valid = true} ∧
      ((vector.insert key).1 = true ↔ key.valid = true ∧ key ∉ vector.keySet) ∧
      (vector.withoutIdentity id).keySet = {member ∈ vector.keySet | member.id ≠ id} :=
  ⟨hvector.qualified, hvector.sorted, binarySearch_iff hvector.sorted key, containsAll_iff hvector,
    intersects_iff hvector hother, keySet_canonicalise keys, keySet_united hvector hother,
    keySet_intersected hvector hother, keySet_insert hvector key, insert_fst hvector key,
    keySet_withoutIdentity hvector id⟩

/-- A vector of two generations of one switch and an unqualified key, and a vector with
the later of them. -/
theorem generation_vectors_are_sets_sample :
    (canonicalise [⟨⟨2⟩, ⟨5⟩⟩, ⟨⟨0⟩, ⟨1⟩⟩, ⟨⟨2⟩, ⟨3⟩⟩, ⟨⟨2⟩, ⟨5⟩⟩]).keys =
        [⟨⟨2⟩, ⟨3⟩⟩, ⟨⟨2⟩, ⟨5⟩⟩] ∧
      (⟨⟨2⟩, ⟨5⟩⟩ : SwitchKey) ∈
        ((canonicalise [⟨⟨2⟩, ⟨5⟩⟩, ⟨⟨0⟩, ⟨1⟩⟩, ⟨⟨2⟩, ⟨3⟩⟩, ⟨⟨2⟩, ⟨5⟩⟩]).intersected
          (canonicalise [⟨⟨2⟩, ⟨5⟩⟩])).keySet := by
  refine ⟨by decide +kernel, ?_⟩
  have hsets := generation_vectors_are_sets
    (Built.canonicalise [⟨⟨2⟩, ⟨5⟩⟩, ⟨⟨0⟩, ⟨1⟩⟩, ⟨⟨2⟩, ⟨3⟩⟩, ⟨⟨2⟩, ⟨5⟩⟩])
    (Built.canonicalise [⟨⟨2⟩, ⟨5⟩⟩]) default default []
  rw [hsets.2.2.2.2.2.2.2.1]
  rw [Set.mem_inter_iff, mem_keySet, mem_keySet]
  exact ⟨by decide +kernel, by decide +kernel⟩

end KeyVector

end SwitchFailover.Model
