import SwitchFailover.Core.Identity

/-!
# Bounded explanations

An explanation takes terms until its limit is reached; what is added after that is dropped,
and the explanation says so.  Its term list is private, so the limit, the flag and the
length of the terms are related in every explanation there is.
-/

namespace SwitchFailover.Model

open SwitchFailover.Core

def maxTermBytes : ℕ := 256

def boundedTerm (term : Bytes) : Bytes :=
  if term.length ≤ maxTermBytes then term else term.take maxTermBytes

theorem length_boundedTerm_le (term : Bytes) : (boundedTerm term).length ≤ maxTermBytes := by
  rw [boundedTerm]
  split_ifs with hshort
  · exact hshort
  · exact List.length_take_le _ _

theorem boundedTerm_of_le {term : Bytes} (hterm : term.length ≤ maxTermBytes) :
    boundedTerm term = term := if_pos hterm

structure ExplanationTerm where
  key : Bytes
  value : Bytes
  deriving DecidableEq

def ExplanationTerm.Bounded (term : ExplanationTerm) : Prop :=
  term.key.length ≤ maxTermBytes ∧ term.value.length ≤ maxTermBytes

structure Explanation where
  terms : List ExplanationTerm := []
  limit : ℕ := 64
  truncated : Bool := false
  positive : 0 < limit := by decide
  within : terms.length ≤ limit := by decide
  full : truncated = true → terms.length = limit := by decide
  bounded : ∀ term ∈ terms, term.Bounded := by simp

variable {explanation : Explanation}

namespace Explanation

instance : Inhabited Explanation := ⟨{}⟩

/-- The constructor with a limit: an explanation can always take one term. -/
def withLimit (termLimit : ℕ) : Explanation where
  limit := if termLimit = 0 then 1 else termLimit
  positive := by
    split_ifs with hzero
    · exact one_pos
    · exact Nat.pos_of_ne_zero hzero
  within := Nat.zero_le _
  full := fun htruncated => absurd htruncated Bool.false_ne_true

def add (explanation : Explanation) (key value : Bytes) : Explanation :=
  if hfull : explanation.limit ≤ explanation.terms.length then
    { explanation with
      truncated := true
      full := fun _ => le_antisymm explanation.within hfull }
  else
    { explanation with
      terms := explanation.terms ++ [⟨boundedTerm key, boundedTerm value⟩]
      within := by
        rw [List.length_append, List.length_singleton]
        omega
      full := fun htruncated => absurd (explanation.full htruncated).ge hfull
      bounded := by
        rw [List.forall_mem_append]
        refine ⟨explanation.bounded, ?_⟩
        intro term hterm
        rw [List.mem_singleton.mp hterm]
        exact ⟨length_boundedTerm_le key, length_boundedTerm_le value⟩ }

def digest (explanation : Explanation) : UInt64 :=
  ((explanation.terms.foldl
    (fun digest term => (digest.absorbString term.key).absorbString term.value)
    (({} : Digest128).absorbString (text "sff.explanation.v1"))).absorbByte
      (if explanation.truncated then 1 else 0)).hi

/-- The limit has no part in the digest. -/
theorem digest_congr {left right : Explanation} (hterms : left.terms = right.terms)
    (htruncated : left.truncated = right.truncated) : left.digest = right.digest := by
  rw [digest, digest, hterms, htruncated]

/-! ## Adding terms -/

theorem add_of_full (hfull : explanation.limit ≤ explanation.terms.length) (key value : Bytes) :
    (explanation.add key value).terms = explanation.terms ∧
      (explanation.add key value).limit = explanation.limit ∧
      (explanation.add key value).truncated = true := by
  rw [add, dif_pos hfull]
  exact ⟨rfl, rfl, rfl⟩

theorem add_of_room (hroom : explanation.terms.length < explanation.limit) (key value : Bytes) :
    (explanation.add key value).terms =
        explanation.terms ++ [⟨boundedTerm key, boundedTerm value⟩] ∧
      (explanation.add key value).limit = explanation.limit ∧
      (explanation.add key value).truncated = explanation.truncated := by
  rw [add, dif_neg (not_le.mpr hroom)]
  exact ⟨rfl, rfl, rfl⟩

@[simp]
theorem limit_add (explanation : Explanation) (key value : Bytes) :
    (explanation.add key value).limit = explanation.limit := by
  rcases lt_or_ge explanation.terms.length explanation.limit with hroom | hfull
  · exact (add_of_room hroom key value).2.1
  · exact (add_of_full hfull key value).2.1

/-- One term after the other. -/
def addAll (explanation : Explanation) (terms : List ExplanationTerm) : Explanation :=
  terms.foldl (fun explanation term => explanation.add term.key term.value) explanation

@[simp]
theorem limit_addAll (explanation : Explanation) (terms : List ExplanationTerm) :
    (explanation.addAll terms).limit = explanation.limit := by
  induction terms generalizing explanation with
  | nil => rfl
  | cons term terms ih => exact (ih _).trans (limit_add explanation term.key term.value)

/-- Terms that are short enough are kept as they are, as many as the limit allows. -/
theorem addAll_spec (explanation : Explanation) {terms : List ExplanationTerm}
    (hterms : ∀ term ∈ terms, term.Bounded) :
    (explanation.addAll terms).terms = (explanation.terms ++ terms).take explanation.limit ∧
      ((explanation.addAll terms).truncated = true ↔ explanation.truncated = true ∨
          explanation.limit < explanation.terms.length + terms.length) := by
  induction terms generalizing explanation with
  | nil =>
    have hwithin := explanation.within
    refine ⟨?_, ?_⟩
    · rw [List.append_nil, List.take_of_length_le hwithin]
      rfl
    · rw [List.length_nil, Nat.add_zero, or_iff_left (not_lt.mpr hwithin)]
      rfl
  | cons term terms ih =>
    rw [List.forall_mem_cons] at hterms
    obtain ⟨hkept, hflag⟩ := ih (explanation.add term.key term.value) hterms.2
    have hadd : explanation.addAll (term :: terms) =
        (explanation.add term.key term.value).addAll terms := rfl
    rw [hadd, hkept, hflag, limit_add, List.length_cons]
    rcases lt_or_ge explanation.terms.length explanation.limit with hroom | hfull
    · obtain ⟨hadded, -, htruncated⟩ := add_of_room hroom term.key term.value
      rw [hadded, htruncated, boundedTerm_of_le hterms.1.1, boundedTerm_of_le hterms.1.2,
        List.append_assoc, List.length_append, List.length_singleton, Nat.add_assoc,
        Nat.add_comm 1]
      exact ⟨rfl, Iff.rfl⟩
    · obtain ⟨hsame, -, htruncated⟩ := add_of_full hfull term.key term.value
      have hlength := le_antisymm explanation.within hfull
      rw [hsame, htruncated, List.take_append_of_le_length hlength.ge,
        List.take_append_of_le_length hlength.ge]
      refine ⟨rfl, ?_⟩
      rw [hlength]
      simp

end Explanation

end SwitchFailover.Model
