import Mathlib

/-!
# Incremental decoding

A decoder looks at the head of a byte stream and finds a whole item there, or a
beginning of one, or something that no item begins with.  If more bytes never
change what it found, a stream may be decoded piece by piece: what was left over
is put in front of the next piece.
-/

namespace SwitchFailover.Library.Incremental

/-- What a decoder finds at the head of a stream. -/
inductive Verdict (Item Failure : Type)
  | complete (item : Item) (consumed : ℕ)
  | incomplete
  | failed (failure : Failure)

/-- The items of a stream, the failure that ended it, and what was not decoded. -/
@[ext]
structure Decoded (Byte Item Failure : Type) where
  items : List Item
  failure : Option Failure
  rest : List Byte

variable {Byte Item Failure : Type} {decode : List Byte → Verdict Item Failure}

/-- The same with items that were decoded earlier. -/
def Decoded.after (items : List Item) (later : Decoded Byte Item Failure) :
    Decoded Byte Item Failure :=
  { later with items := items ++ later.items }

def decodeFor (decode : List Byte → Verdict Item Failure) :
    ℕ → List Byte → Decoded Byte Item Failure
  | 0, bytes => ⟨[], none, bytes⟩
  | fuel + 1, bytes =>
      match decode bytes with
      | .complete item consumed => (decodeFor decode fuel (bytes.drop consumed)).after [item]
      | .incomplete => ⟨[], none, bytes⟩
      | .failed failure => ⟨[], some failure, bytes⟩

/-- Decode again and again from where the last item ended.  Every item takes a
byte, so the length of the stream bounds the number of items. -/
def decodeAll (decode : List Byte → Verdict Item Failure) (bytes : List Byte) :
    Decoded Byte Item Failure :=
  decodeFor decode (bytes.length + 1) bytes

/-- More bytes do not change a verdict, except that an incomplete item may become
complete or turn out to be none. -/
structure Stable (decode : List Byte → Verdict Item Failure) : Prop where
  consumes : ∀ {bytes item consumed}, decode bytes = .complete item consumed →
    0 < consumed ∧ consumed ≤ bytes.length
  complete : ∀ {bytes item consumed}, decode bytes = .complete item consumed →
    ∀ more, decode (bytes ++ more) = .complete item consumed
  failed : ∀ {bytes failure}, decode bytes = .failed failure →
    ∀ more, decode (bytes ++ more) = .failed failure

namespace Stable

variable {bytes : List Byte} (hstable : Stable decode)

include hstable

/-- More fuel than bytes changes nothing. -/
theorem decodeFor_eq {fuel : ℕ} (hfuel : bytes.length < fuel) :
    decodeFor decode fuel bytes = decodeAll decode bytes := by
  suffices hsame : ∀ more bytes, bytes.length < more → ∀ fuel, bytes.length < fuel →
      decodeFor decode fuel bytes = decodeFor decode more bytes by
    exact hsame _ _ (Nat.lt_succ_self _) _ hfuel
  intro more
  induction more with
  | zero => exact fun bytes hmore => absurd hmore (Nat.not_lt_zero _)
  | succ more ih =>
    intro bytes hmore fuel hfuel
    cases fuel with
    | zero => exact absurd hfuel (Nat.not_lt_zero _)
    | succ fuel =>
      rw [decodeFor, decodeFor]
      cases hverdict : decode bytes with
      | incomplete => rfl
      | failed failure => rfl
      | complete item consumed =>
        obtain ⟨hpositive, hwithin⟩ := hstable.consumes hverdict
        have hlength : (bytes.drop consumed).length < bytes.length := by
          rw [List.length_drop]
          omega
        dsimp only
        rw [ih _ (by omega) fuel (by omega)]

theorem decodeAll_of_complete {item : Item} {consumed : ℕ}
    (hverdict : decode bytes = .complete item consumed) :
    decodeAll decode bytes = (decodeAll decode (bytes.drop consumed)).after [item] := by
  obtain ⟨hpositive, hwithin⟩ := hstable.consumes hverdict
  rw [decodeAll, decodeFor, hverdict]
  dsimp only
  rw [hstable.decodeFor_eq]
  rw [List.length_drop]
  omega

omit hstable in
theorem decodeAll_of_incomplete (hverdict : decode bytes = .incomplete) :
    decodeAll decode bytes = ⟨[], none, bytes⟩ := by
  rw [decodeAll, decodeFor, hverdict]

omit hstable in
theorem decodeAll_of_failed {failure : Failure} (hverdict : decode bytes = .failed failure) :
    decodeAll decode bytes = ⟨[], some failure, bytes⟩ := by
  rw [decodeAll, decodeFor, hverdict]

/-- The induction over the items of a stream. -/
theorem decodeAll_induction {motive : List Byte → Prop}
    (hcomplete : ∀ bytes item consumed, decode bytes = .complete item consumed →
      motive (bytes.drop consumed) → motive bytes)
    (hincomplete : ∀ bytes, decode bytes = .incomplete → motive bytes)
    (hfailed : ∀ bytes failure, decode bytes = .failed failure → motive bytes)
    (bytes : List Byte) : motive bytes := by
  induction hlength : bytes.length using Nat.strong_induction_on generalizing bytes with
  | _ length ih =>
    cases hverdict : decode bytes with
    | incomplete => exact hincomplete bytes hverdict
    | failed failure => exact hfailed bytes failure hverdict
    | complete item consumed =>
      obtain ⟨hpositive, hwithin⟩ := hstable.consumes hverdict
      refine hcomplete bytes item consumed hverdict (ih _ ?_ _ rfl)
      rw [List.length_drop]
      omega

/-- Decoding stops at a beginning of an item, or at a failure. -/
theorem decode_rest (bytes : List Byte) :
    decode (decodeAll decode bytes).rest =
      (decodeAll decode bytes).failure.elim .incomplete .failed := by
  induction bytes using hstable.decodeAll_induction with
  | hcomplete bytes item consumed hverdict ih =>
    rw [hstable.decodeAll_of_complete hverdict]
    exact ih
  | hincomplete bytes hverdict =>
    rw [decodeAll_of_incomplete hverdict]
    exact hverdict
  | hfailed bytes failure hverdict =>
    rw [decodeAll_of_failed hverdict]
    exact hverdict

/-- A stream that has not failed goes on from what was left over. -/
theorem decodeAll_append (hnone : (decodeAll decode bytes).failure = none) (more : List Byte) :
    decodeAll decode (bytes ++ more) =
      (decodeAll decode ((decodeAll decode bytes).rest ++ more)).after
        (decodeAll decode bytes).items := by
  induction bytes using hstable.decodeAll_induction with
  | hcomplete bytes item consumed hverdict ih =>
    have hwithin := (hstable.consumes hverdict).2
    rw [hstable.decodeAll_of_complete hverdict] at hnone ⊢
    rw [hstable.decodeAll_of_complete (hstable.complete hverdict more),
      List.drop_append_of_le_length hwithin, ih hnone]
    rfl
  | hincomplete bytes hverdict =>
    rw [decodeAll_of_incomplete hverdict]
    rfl
  | hfailed bytes failure hverdict =>
    rw [decodeAll_of_failed hverdict] at hnone
    cases hnone

/-- A stream that has failed stays as it is. -/
theorem decodeAll_append_of_failed {failure : Failure}
    (hfailure : (decodeAll decode bytes).failure = some failure) (more : List Byte) :
    (decodeAll decode (bytes ++ more)).items = (decodeAll decode bytes).items ∧
      (decodeAll decode (bytes ++ more)).failure = some failure := by
  induction bytes using hstable.decodeAll_induction with
  | hcomplete bytes item consumed hverdict ih =>
    have hwithin := (hstable.consumes hverdict).2
    rw [hstable.decodeAll_of_complete hverdict] at hfailure ⊢
    rw [hstable.decodeAll_of_complete (hstable.complete hverdict more),
      List.drop_append_of_le_length hwithin]
    obtain ⟨hitems, hsame⟩ := ih hfailure
    exact ⟨congrArg (List.cons item) hitems, hsame⟩
  | hincomplete bytes hverdict =>
    rw [decodeAll_of_incomplete hverdict] at hfailure
    cases hfailure
  | hfailed bytes found hverdict =>
    rw [decodeAll_of_failed hverdict] at hfailure ⊢
    rw [decodeAll_of_failed (hstable.failed hverdict more)]
    exact ⟨rfl, hfailure⟩

end Stable

end SwitchFailover.Library.Incremental
