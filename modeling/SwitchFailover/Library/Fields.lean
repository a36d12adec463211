import Mathlib

/-!
# Streams of fixed-width fields

A field whose encoding has one length can be split off the front of a stream, and a list of
such fields is known from its concatenation.  Where one list ends and the next begins is
not, unless their lengths are.
-/

namespace SwitchFailover.Library.Fields

variable {A B : Type*}

/-- An injective encoding with results of one length. -/
structure FixedWidth (encode : A → List B) (width : ℕ) : Prop where
  width : ∀ value, (encode value).length = width
  injective : Function.Injective encode

namespace FixedWidth

variable {encode : A → List B} {width : ℕ} (hencode : FixedWidth encode width)

include hencode

/-- A field at the front of a stream is split off. -/
theorem append_inj {left right : A} {first second : List B} :
    encode left ++ first = encode right ++ second ↔ left = right ∧ first = second := by
  constructor
  · intro heq
    obtain ⟨hfield, hrest⟩ :=
      List.append_inj heq ((hencode.width left).trans (hencode.width right).symm)
    exact ⟨hencode.injective hfield, hrest⟩
  · rintro ⟨rfl, rfl⟩
    rfl

/-- A list of fields is known from its concatenation. -/
theorem flatMap_injective (hwidth : 0 < width) :
    Function.Injective fun values : List A => values.flatMap encode := by
  have hsome : ∀ value, encode value ≠ [] := by
    intro value hnil
    have hlength := hencode.width value
    rw [hnil, List.length_nil] at hlength
    omega
  intro left right heq
  induction left generalizing right with
  | nil =>
    cases right with
    | nil => rfl
    | cons value values =>
      exact absurd (List.append_eq_nil_iff.mp heq.symm).1 (hsome value)
  | cons value values ih =>
    cases right with
    | nil => exact absurd (List.append_eq_nil_iff.mp heq).1 (hsome value)
    | cons other others =>
      obtain ⟨rfl, hrest⟩ := hencode.append_inj.mp heq
      rw [ih hrest]

/-- Lists that stand one after the other are known, if the length of the first is. -/
theorem flatMap_append_inj (hwidth : 0 < width) {left right : List A} {first second : List B}
    (hlength : left.length = right.length) :
    left.flatMap encode ++ first = right.flatMap encode ++ second ↔
      left = right ∧ first = second := by
  have htotal : ∀ values : List A, (values.flatMap encode).length = values.length * width := by
    intro values
    rw [List.length_flatMap, List.map_congr_left fun value _ => hencode.width value]
    simp
  constructor
  · intro heq
    obtain ⟨hlist, hrest⟩ := List.append_inj heq (by rw [htotal, htotal, hlength])
    exact ⟨hencode.flatMap_injective hwidth hlist, hrest⟩
  · rintro ⟨rfl, rfl⟩
    rfl

end FixedWidth

/-- A stream of a head and of lists without their lengths tells values apart, unless the
lists have the same words and other borders. -/
theorem distinct_iff_not_shifted {Same Head Words Lists Borders : Prop}
    (hsame : Same ↔ Head ∧ Words) (hwords : Borders → (Words ↔ Lists))
    (hborders : Lists → Borders) : (¬(Head ∧ Lists) → ¬Same) ↔ ¬(Head ∧ Words ∧ ¬Borders) := by
  constructor
  · rintro hdistinct ⟨hhead, hsequence, hmoved⟩
    refine hdistinct ?_ (hsame.mpr ⟨hhead, hsequence⟩)
    exact fun hagree => hmoved (hborders hagree.2)
  · intro hnot hdiffers hstream
    obtain ⟨hhead, hsequence⟩ := hsame.mp hstream
    by_cases hplaces : Borders
    · exact hdiffers ⟨hhead, (hwords hplaces).mp hsequence⟩
    · exact hnot ⟨hhead, hsequence, hplaces⟩

end SwitchFailover.Library.Fields
