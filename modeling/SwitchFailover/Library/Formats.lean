import SwitchFailover.Library.Codec

/-!
# Formats

A format writes values in pieces and reads them back, and carries the two facts that make
it canonical: a value that fits is read back from its bytes whatever follows them, and the
bytes a value is read from are those it is written as.  Formats are put together in pairs.
-/

namespace SwitchFailover.Library.Codec

structure Format (Error A : Type) where
  write : A → List (List UInt8)
  read : Reader Error A
  /-- The values that the format can carry. -/
  Fits : A → Prop
  reads : ∀ value, Fits value → Reads read (write value).flatten value
  spends : Spends read fun spent value => Fits value ∧ spent = (write value).flatten

namespace Format

variable {Error A B : Type}

/-- A format that can carry every value. -/
def total (write : A → List (List UInt8)) (read : Reader Error A)
    (hreads : ∀ value, Reads read (write value).flatten value)
    (hsound : Sound read fun value => (write value).flatten) : Format Error A where
  write := write
  read := read
  Fits _ := True
  reads value _ := hreads value
  spends bytes value rest hread := by
    obtain ⟨spent, hbytes, hspent⟩ := hsound bytes value rest hread
    exact ⟨spent, hbytes, trivial, hspent⟩

def pair (first : Format Error A) (second : Format Error B) : Format Error (A × B) where
  write value := first.write value.1 ++ second.write value.2
  read := do
    let left ← first.read
    let right ← second.read
    pure (left, right)
  Fits value := first.Fits value.1 ∧ second.Fits value.2
  reads value hfits := by
    rw [List.flatten_append]
    exact (first.reads value.1 hfits.1).bind ((second.reads value.2 hfits.2).bindPure _)
  spends := by
    refine first.spends.bind fun start left hleft => ?_
    refine second.spends.bind fun middle right hright => spends_pure ⟨⟨hleft.1, hright.1⟩, ?_⟩
    rw [List.append_nil, List.flatten_append, hleft.2, hright.2]

/-- Reading to the end of the bytes succeeds exactly on the bytes of a value that fits. -/
theorem read_eq_ok {format : Format Error A} {bytes : List UInt8} {value : A} :
    format.read bytes = .ok (value, []) ↔
      format.Fits value ∧ bytes = (format.write value).flatten := by
  constructor
  · intro hread
    obtain ⟨spent, hbytes, hfits, hspent⟩ := format.spends bytes value [] hread
    exact ⟨hfits, by rw [hbytes, List.append_nil, hspent]⟩
  · rintro ⟨hfits, rfl⟩
    have hread := format.reads value hfits []
    rwa [List.append_nil] at hread

end Format
end SwitchFailover.Library.Codec
