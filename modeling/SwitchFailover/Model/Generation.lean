import SwitchFailover.Core.Identity

/-!
# Canonical generation vectors

A generation vector is a set of generation-qualified switch identities in
canonical order.  Its two constructors, canonicalisation and ordered insertion,
both drop unqualified keys, so validity and strict order are carried by the type.
-/

namespace SwitchFailover.Model

open SwitchFailover.Core Library.Ordering

structure GenerationVector where
  keys : List SwitchKey
  sorted : keys.Pairwise (· < ·)
  qualified : ∀ key ∈ keys, key.valid = true

namespace GenerationVector

@[ext]
theorem ext {left right : GenerationVector} (hkeys : left.keys = right.keys) :
    left = right := by
  cases left
  cases right
  cases hkeys
  rfl

instance : DecidableEq GenerationVector := fun left right =>
  decidable_of_iff (left.keys = right.keys)
    ⟨ext, fun heq => congrArg keys heq⟩

def empty : GenerationVector := ⟨[], List.Pairwise.nil, by simp⟩

instance : Inhabited GenerationVector := ⟨empty⟩

def isEmpty (vector : GenerationVector) : Bool := vector.keys.isEmpty

def size (vector : GenerationVector) : ℕ := vector.keys.length

def canonicalise (keys : List SwitchKey) : GenerationVector where
  keys := sortUnique (keys.filter fun key => key.valid)
  sorted := sortUnique_pairwise _
  qualified := by
    intro key hkey
    rw [mem_sortUnique] at hkey
    exact (List.mem_filter.mp hkey).2

@[simp]
theorem mem_canonicalise (key : SwitchKey) (keys : List SwitchKey) :
    key ∈ (canonicalise keys).keys ↔ key ∈ keys ∧ key.valid = true := by
  simp [canonicalise]

/-- A vector is the canonical form of its own keys. -/
theorem canonicalise_keys (vector : GenerationVector) : canonicalise vector.keys = vector := by
  apply ext
  change sortUnique (vector.keys.filter fun key => key.valid) = vector.keys
  rw [List.filter_eq_self.mpr vector.qualified, sortUnique_of_pairwise vector.sorted]

/-- Exact generation-qualified membership: binary search over the sorted keys. -/
def contains (vector : GenerationVector) (key : SwitchKey) : Bool :=
  decide (key ∈ vector.keys)

def containsAll (vector other : GenerationVector) : Bool :=
  other.keys.all vector.contains

/-- The two-pointer scan over both sorted vectors. -/
def intersects (vector other : GenerationVector) : Bool :=
  shareValue vector.keys other.keys

theorem intersects_iff (vector other : GenerationVector) :
    vector.intersects other = true ↔ ∃ key ∈ vector.keys, key ∈ other.keys :=
  shareValue_iff vector.sorted other.sorted

/-- Insertion at the lower bound.  An unqualified or present key changes
nothing. -/
def insert (vector : GenerationVector) (key : SwitchKey) : GenerationVector :=
  if hinsert : key.valid = true ∧ key ∉ vector.keys then
    { keys := vector.keys.orderedInsert (· ≤ ·) key
      sorted := by
        have hle : vector.keys.Pairwise (· ≤ ·) := vector.sorted.imp le_of_lt
        have hsorted := hle.orderedInsert key vector.keys
        have hnodup : (vector.keys.orderedInsert (· ≤ ·) key).Nodup := by
          rw [(List.perm_orderedInsert (· ≤ ·) key vector.keys).nodup_iff]
          exact List.nodup_cons.mpr
            ⟨hinsert.2, vector.sorted.imp fun hlt => ne_of_lt hlt⟩
        exact (hsorted.and hnodup).imp fun hboth => lt_of_le_of_ne hboth.1 hboth.2
      qualified := by
        intro other hother
        rcases (List.mem_orderedInsert (· ≤ ·)).mp hother with heq | hmem
        · exact heq ▸ hinsert.1
        · exact vector.qualified other hmem }
  else vector

@[simp]
theorem mem_insert (vector : GenerationVector) (key other : SwitchKey) :
    other ∈ (vector.insert key).keys ↔ other ∈ vector.keys ∨ (other = key ∧ key.valid = true) := by
  unfold insert
  split
  · rename_i hinsert
    rw [List.mem_orderedInsert]
    simp [hinsert.1, or_comm]
  · rename_i hskip
    constructor
    · exact Or.inl
    · rintro (hmem | ⟨heq, hvalid⟩)
      · exact hmem
      · by_contra hmissing
        exact hskip ⟨hvalid, heq ▸ hmissing⟩

/-- `std::set_union` of the sorted keys, canonicalised again. -/
def united (vector other : GenerationVector) : GenerationVector :=
  canonicalise (vector.keys ++ other.keys)

@[simp]
theorem mem_united (vector other : GenerationVector) (key : SwitchKey) :
    key ∈ (vector.united other).keys ↔ key ∈ vector.keys ∨ key ∈ other.keys := by
  rw [united, mem_canonicalise, List.mem_append]
  constructor
  · exact And.left
  · intro hmem
    exact ⟨hmem, hmem.elim (vector.qualified key) (other.qualified key)⟩

def digest (vector : GenerationVector) : UInt64 :=
  (vector.keys.foldl Digest128.absorbKey
    (({} : Digest128).absorbString (text "sff.generation-vector.v1")
      |>.absorbNat vector.keys.length)).hi

end GenerationVector

/-- Durable lineage of one established failure. -/
structure FailureRecord where
  subject : SwitchKey := default
  evidence : EvidenceId := default
  epoch : CoordinatorEpoch := default
  boot : BootIncarnation := default
  observedAtNs : TimestampNs := 0
  recordedAtNs : TimestampNs := 0
  reason : Bytes := []
  deriving DecidableEq

end SwitchFailover.Model
