import SwitchFailover.Model.Explanation
import SwitchFailover.Persist.Payloads

/-!
# Restore decisions in the journal

A decision is written with its explanation term by term.  Reading adds the terms to an
explanation with the default limit, and it restores the mark of a truncated explanation by
adding one more term, which sets the flag only if the limit is already reached.
-/

namespace SwitchFailover.Persist

open SwitchFailover.Core Codec Model Plan Library.Codec
open SwitchFailover.Model.Explanation (add_of_room add_of_full)

/-- A restore decision with its explanation.  Outcome and reason are the numbers of codes,
which are not checked when they are read. -/
structure ExplainedDecision where
  dependent : DependentRef
  outcome : UInt16 := Code.unknown.raw
  reason : UInt16 := Code.unknown.raw
  mayRestore : Bool := false
  effectVerified : Bool := false
  bound : GenerationVector := default
  plan : PlanId := default
  grants : List GrantId := []
  blockingGenerations : List SwitchKey := []
  explanation : Explanation := default

variable {decision : ExplainedDecision}

/-- `RestoreDecision::digest`. -/
def ExplainedDecision.digest (decision : ExplainedDecision) : UInt64 :=
  let head := ({} : Digest128).absorbString (text "sff.restore-decision.v1")
    |>.absorbDependent decision.dependent
    |>.absorbByte decision.outcome.toUInt8
    |>.absorbByte decision.reason.toUInt8
    |>.absorbByte (if decision.mayRestore then 1 else 0)
    |>.absorbByte (if decision.effectVerified then 1 else 0)
    |>.absorbU64 decision.bound.digest
    |>.absorbU64 decision.plan.raw
  let granted := decision.grants.foldl (fun digest id => digest.absorbU64 id.raw) head
  let blocked := decision.blockingGenerations.foldl Digest128.absorbKey granted
  (blocked.absorbU64 decision.explanation.digest).hi

def writeTerm (term : ExplanationTerm) : List Bytes :=
  writeString term.key ++ writeString term.value

def writeExplanation (explanation : Explanation) : List Bytes :=
  writeCount explanation.terms.length ++ explanation.terms.flatMap writeTerm ++
    writeBoolean explanation.truncated

def readTerm : ByteReader ExplanationTerm := do
  let key ← readString listElementLimit
  let value ← readString listElementLimit
  pure ⟨key, value⟩

/-- The explanation that the terms and the flag are read into. -/
def restoredExplanation (limits : Limits) (terms : List ExplanationTerm) (truncated : Bool) :
    Explanation :=
  let explanation := (Explanation.withLimit limits.maxExplanationTerms).addAll terms
  if truncated then explanation.add (text "__truncated__") (text "true") else explanation

def readExplanation (limits : Limits) : ByteReader Explanation := do
  let count ← readListCount listElementLimit 8
  let terms ← readMany readTerm count
  let truncated ← readBoolean
  pure (restoredExplanation limits terms truncated)

def decisionChunks (decision : ExplainedDecision) : List Bytes :=
  writeU8 payloadFormatTag ++ writeDependent decision.dependent ++ writeU16 decision.outcome ++
    writeU16 decision.reason ++ writeBoolean decision.mayRestore ++
    writeBoolean decision.effectVerified ++ writeCount decision.bound.size ++
    decision.bound.keys.flatMap writeKey ++ writeU64 decision.plan.raw ++
    writeCount decision.grants.length ++ decision.grants.flatMap (fun id => writeU64 id.raw) ++
    writeCount decision.blockingGenerations.length ++
    decision.blockingGenerations.flatMap writeKey ++ writeExplanation decision.explanation

def encodeRestoreDecision (decision : ExplainedDecision) : Bytes :=
  written defaultWriterLimit (decisionChunks decision)

def readDecision : ByteReader ExplainedDecision := do
  readTag
  let dependent ← readDependent durableDependentMessage
  let outcome ← readU16
  let reason ← readU16
  let mayRestore ← readBoolean
  let effectVerified ← readBoolean
  let boundCount ← readListCount listElementLimit 16
  let keys ← readMany readKey boundCount
  let plan ← readU64
  let grantCount ← readListCount listElementLimit 8
  let grants ← readMany readU64 grantCount
  let blockingCount ← readListCount listElementLimit 16
  let blockingGenerations ← readMany readKey blockingCount
  let explanation ← readExplanation {}
  pure { dependent, outcome, reason, mayRestore, effectVerified
         bound := GenerationVector.canonicalise keys, plan := ⟨plan⟩
         grants := grants.map StrongId.mk, blockingGenerations, explanation }

def decodeRestoreDecision (payload : Bytes) : Result ExplainedDecision :=
  decodeWith (do
    let decision ← readDecision
    requireEnd
    pure decision) payload

/-! ## Explanations that are read back -/

/-- The bound on the explanations that are read. -/
def readTermLimit : ℕ := ({} : Limits).maxExplanationTerms

theorem limit_restoredExplanation (terms : List ExplanationTerm) (truncated : Bool) :
    (restoredExplanation {} terms truncated).limit = readTermLimit := by
  rw [restoredExplanation]
  cases truncated with
  | false => exact Explanation.limit_addAll _ _
  | true => exact (Explanation.limit_add _ _ _).trans (Explanation.limit_addAll _ _)

/-- What was written of an explanation is what is read of it. -/
def Explanation.ReadBack (explanation : Explanation) : Prop :=
  (restoredExplanation {} explanation.terms explanation.truncated).terms = explanation.terms ∧
    (restoredExplanation {} explanation.terms explanation.truncated).truncated =
      explanation.truncated

theorem Explanation.readBack_iff (explanation : Explanation) :
    Explanation.ReadBack explanation ↔ explanation.terms.length ≤ readTermLimit ∧
        (explanation.truncated = true → explanation.terms.length = readTermLimit) := by
  have hspec := (Explanation.withLimit readTermLimit).addAll_spec explanation.bounded
  have hlimit := (Explanation.withLimit readTermLimit).limit_addAll explanation.terms
  change _ = readTermLimit at hlimit
  change _ = explanation.terms.take readTermLimit ∧
    (_ ↔ false = true ∨ readTermLimit < 0 + explanation.terms.length) at hspec
  rw [Nat.zero_add, or_iff_right Bool.false_ne_true] at hspec
  rw [Explanation.ReadBack, restoredExplanation]
  change (if _ then ((Explanation.withLimit readTermLimit).addAll explanation.terms).add _ _
    else (Explanation.withLimit readTermLimit).addAll explanation.terms).terms = _ ∧
      (if _ then ((Explanation.withLimit readTermLimit).addAll explanation.terms).add _ _
        else (Explanation.withLimit readTermLimit).addAll explanation.terms).truncated = _ ↔ _
  generalize (Explanation.withLimit readTermLimit).addAll explanation.terms = read at hspec hlimit ⊢
  obtain ⟨hkept, hflag⟩ := hspec
  cases htruncated : explanation.truncated with
  | false =>
    rw [if_neg Bool.false_ne_true, hkept, List.take_eq_self_iff, Bool.eq_false_iff, ne_eq, hflag,
      not_lt, and_self, and_iff_left (fun hwrong => absurd hwrong Bool.false_ne_true)]
  | true =>
    rw [if_pos rfl]
    rcases lt_or_ge read.terms.length read.limit with hroom | hfull
    · -- the mark becomes a term of its own
      obtain ⟨hadded, -, -⟩ := add_of_room hroom (text "__truncated__") (text "true")
      rw [hlimit, hkept, List.length_take] at hroom
      have hshort : explanation.terms.length < readTermLimit := by omega
      rw [hadded, hkept, List.take_of_length_le hshort.le]
      constructor
      · rintro ⟨hterms, -⟩
        exact absurd hterms (by simp)
      · rintro ⟨-, hsame⟩
        exact absurd (hsame rfl) hshort.ne
    · obtain ⟨hsame, -, hmarked⟩ := add_of_full hfull (text "__truncated__") (text "true")
      rw [hlimit, hkept, List.length_take] at hfull
      rw [hsame, hmarked, hkept, List.take_eq_self_iff]
      constructor
      · rintro ⟨hshort, -⟩
        exact ⟨hshort, fun _ => by omega⟩
      · rintro ⟨hshort, -⟩
        exact ⟨hshort, rfl⟩

/-! ## Decisions that are read back -/

theorem byteCount_term (term : ExplanationTerm) :
    byteCount (writeTerm term) = 8 + term.key.length + term.value.length := by
  rw [writeTerm, byteCount_append, byteCount_string, byteCount_string]
  omega

theorem reads_term {term : ExplanationTerm} (hterm : term.Bounded) :
    Reads readTerm (writeTerm term).flatten term := by
  have hstring : ∀ {string : Bytes}, string.length ≤ maxTermBytes →
      Reads (readString listElementLimit) (writeString string).flatten string :=
    fun hshort => reads_string (hshort.trans (by decide)) (hshort.trans_lt (by decide))
  rw [writeTerm, List.flatten_append]
  exact (hstring hterm.1).bind ((hstring hterm.2).bindPure _)

theorem reads_explanation {explanation : Explanation}
    (hcount : explanation.terms.length ≤ listElementLimit) :
    Reads (readExplanation {}) (writeExplanation explanation).flatten
      (restoredExplanation {} explanation.terms explanation.truncated) := by
  have hterms : Reads (readListCount listElementLimit 8 >>= readMany readTerm)
      (writeCount explanation.terms.length ++ explanation.terms.flatMap writeTerm).flatten
      explanation.terms := by
    refine reads_list hcount (hcount.trans_lt (by decide))
      (fun term hterm => reads_term (explanation.bounded term hterm)) fun term _ => ?_
    have hsize := byteCount_term term
    rw [byteCount] at hsize
    omega
  intro rest
  rw [writeExplanation, List.flatten_append, readExplanation, ← bind_assoc, List.append_assoc,
    hterms.bind_apply]
  exact (reads_boolean explanation.truncated).bindPure _ rest

/-- The lists of a decision within the element limit of the reader. -/
structure Listable (decision : ExplainedDecision) : Prop where
  bound : decision.bound.size ≤ listElementLimit
  grants : decision.grants.length ≤ listElementLimit
  blocking : decision.blockingGenerations.length ≤ listElementLimit
  terms : decision.explanation.terms.length ≤ listElementLimit

/-- What is read of a decision. -/
def restored (decision : ExplainedDecision) : ExplainedDecision :=
  { decision with
    explanation :=
      restoredExplanation {} decision.explanation.terms decision.explanation.truncated }

theorem reads_decision (hdependent : decision.dependent.valid = true) (hlists : Listable decision) :
    Reads readDecision (decisionChunks decision).flatten (restored decision) := by
  have hbound := reads_keys hlists.bound (by decide)
  have hgrants := reads_ids hlists.grants (by decide)
  have hblocking := reads_keys hlists.blocking (by decide)
  have hexplanation := reads_explanation hlists.terms
  intro rest
  simp only [decisionChunks, GenerationVector.size, List.flatten_append, List.append_assoc]
    at hbound hgrants hblocking ⊢
  rw [readDecision, reads_tag.bind_apply,
    (reads_dependent (DependentRef.kind_of_valid hdependent) _).bind_apply,
    (reads_u16 _).bind_apply, (reads_u16 _).bind_apply, (reads_boolean _).bind_apply,
    (reads_boolean _).bind_apply]
  rw [← bind_assoc, ← List.append_assoc (writeCount _).flatten, hbound.bind_apply,
    (reads_u64 _).bind_apply]
  rw [← bind_assoc, ← List.append_assoc (writeCount _).flatten, hgrants.bind_apply]
  rw [← bind_assoc, ← List.append_assoc (writeCount _).flatten, hblocking.bind_apply]
  rw [hexplanation.bind_apply, GenerationVector.canonicalise_keys, map_mk_map_raw]
  rfl

/-- Sixty-four terms and the lists of a decision fit into the writer. -/
theorem byteCount_decision_le (hlists : Listable decision)
    (hterms : decision.explanation.terms.length ≤ readTermLimit) :
    byteCount (decisionChunks decision) ≤ defaultWriterLimit := by
  have hsum : (decision.explanation.terms.map fun term => byteCount (writeTerm term)).sum ≤
      decision.explanation.terms.length * 520 := by
    have hbounded := List.sum_le_card_nsmul
      (decision.explanation.terms.map fun term => byteCount (writeTerm term)) 520
      (List.forall_mem_map.mpr fun term hterm => by
        obtain ⟨hkey, hvalue⟩ := decision.explanation.bounded term hterm
        unfold maxTermBytes at hkey hvalue
        rw [byteCount_term]
        omega)
    rwa [List.length_map, smul_eq_mul] at hbounded
  have hshort : decision.explanation.terms.length ≤ 64 := hterms
  have hbound : decision.bound.keys.length ≤ listElementLimit := hlists.bound
  have hgrants := hlists.grants
  have hblocking := hlists.blocking
  simp only [decisionChunks, writeExplanation, byteCount_append, byteCount_u8, byteCount_u16,
    byteCount_u64, byteCount_boolean, byteCount_dependent, byteCount_count, byteCount_flatMap,
    byteCount_key, List.map_const', List.sum_replicate, smul_eq_mul]
  unfold listElementLimit at hbound hgrants hblocking
  unfold defaultWriterLimit
  omega

/-- A decision whose explanation is short enough is decoded as it is restored. -/
theorem decode_encodeRestoreDecision (hdependent : decision.dependent.valid = true)
    (hlists : Listable decision) (hterms : decision.explanation.terms.length ≤ readTermLimit) :
    decodeRestoreDecision (encodeRestoreDecision decision) = .ok (restored decision) := by
  rw [encodeRestoreDecision, written_eq_flatten (byteCount_decision_le hlists hterms)]
  exact decodeWith_end (reads_decision hdependent hlists)

/-- Whatever was written, no more terms are read than the default limit allows. -/
theorem terms_of_decodeRestoreDecision {payload : Bytes}
    (hdecode : decodeRestoreDecision payload = .ok decision) :
    decision.explanation.terms.length ≤ readTermLimit := by
  have hexplanation : Returns (readExplanation {}) fun explanation =>
      explanation.limit = readTermLimit :=
    Returns.bind fun _ => Returns.bind fun terms => Returns.bind fun truncated =>
      returns_pure (limit_restoredExplanation terms truncated)
  have hdecision : Returns readDecision fun decision =>
      decision.explanation.limit = readTermLimit := by
    rw [readDecision]
    iterate 13 refine Returns.bind fun _ => ?_
    exact hexplanation.bind_of fun explanation hlimit => returns_pure hlimit
  have hlimit : decision.explanation.limit = readTermLimit :=
    returned_of_decodeWith (fun decision => decision.explanation.limit = readTermLimit)
      (hdecision.bind_of fun _ hlimit => Returns.bind fun _ => returns_pure hlimit) hdecode
  exact decision.explanation.within.trans_eq hlimit

/-- The same decision for every reader of it: the limit of an explanation is not written. -/
structure SameDecision (left right : ExplainedDecision) : Prop where
  dependent : left.dependent = right.dependent
  outcome : left.outcome = right.outcome
  reason : left.reason = right.reason
  mayRestore : left.mayRestore = right.mayRestore
  effectVerified : left.effectVerified = right.effectVerified
  bound : left.bound = right.bound
  plan : left.plan = right.plan
  grants : left.grants = right.grants
  blockingGenerations : left.blockingGenerations = right.blockingGenerations
  terms : left.explanation.terms = right.explanation.terms
  truncated : left.explanation.truncated = right.explanation.truncated
  digest : left.digest = right.digest

/-- The round trip of a decision: it is read back exactly if its explanation has at most
sixty-four terms, and no fewer when it is marked as truncated. -/
theorem restore_decision_round_trip_iff {decision : ExplainedDecision}
    (hdependent : decision.dependent.valid = true) (hlists : Listable decision) :
    (∃ read, decodeRestoreDecision (encodeRestoreDecision decision) = .ok read ∧
        SameDecision read decision) ↔
      decision.explanation.terms.length ≤ readTermLimit ∧
        (decision.explanation.truncated = true →
          decision.explanation.terms.length = readTermLimit) := by
  rw [← Explanation.readBack_iff]
  constructor
  · rintro ⟨read, hdecode, hsame⟩
    have hterms : decision.explanation.terms.length ≤ readTermLimit := by
      rw [← hsame.terms]
      exact terms_of_decodeRestoreDecision hdecode
    rw [decode_encodeRestoreDecision hdependent hlists hterms] at hdecode
    cases hdecode
    exact ⟨hsame.terms, hsame.truncated⟩
  · rintro ⟨hterms, htruncated⟩
    have hshort := ((Explanation.readBack_iff _).mp ⟨hterms, htruncated⟩).1
    refine ⟨restored decision, decode_encodeRestoreDecision hdependent hlists hshort, ?_⟩
    have hdigest : (restored decision).digest = decision.digest := by
      have hexplanation : (restored decision).explanation.digest = decision.explanation.digest :=
        Explanation.digest_congr hterms htruncated
      rw [ExplainedDecision.digest, ExplainedDecision.digest, hexplanation]
      rfl
    exact ⟨rfl, rfl, rfl, rfl, rfl, rfl, rfl, rfl, rfl, hterms, htruncated, hdigest⟩

namespace Sample

/-- A refusal, with an explanation that was built with the given limit. -/
def refusal (termLimit : ℕ) (terms : List ExplanationTerm) : ExplainedDecision where
  dependent := .port 7
  outcome := Code.fenced.raw
  reason := Code.fenced.raw
  bound := GenerationVector.canonicalise [⟨⟨1⟩, ⟨1⟩⟩]
  grants := [⟨4⟩]
  blockingGenerations := [⟨⟨1⟩, ⟨1⟩⟩]
  explanation := (Explanation.withLimit termLimit).addAll terms

def terms (count : ℕ) : List ExplanationTerm :=
  List.replicate count ⟨text "refusal", text "a bound generation is fenced"⟩

end Sample

theorem restore_decision_round_trip_sample :
    ∃ read, decodeRestoreDecision (encodeRestoreDecision (Sample.refusal 8 (Sample.terms 2))) =
      .ok read ∧ SameDecision read (Sample.refusal 8 (Sample.terms 2)) := by
  have hlists : Listable (Sample.refusal 8 (Sample.terms 2)) := by
    constructor <;> decide +kernel
  exact (restore_decision_round_trip_iff (by decide +kernel) hlists).mpr (by decide +kernel)

/-- What can be seen of an explanation. -/
def Sample.shown (decision : ExplainedDecision) : List ExplanationTerm × Bool :=
  (decision.explanation.terms, decision.explanation.truncated)

theorem not_read_back_of_shown {shown : List ExplanationTerm × Bool}
    (hread : ((decodeRestoreDecision (encodeRestoreDecision decision)).toOption.map Sample.shown) =
      some shown) (hdiffers : shown ≠ Sample.shown decision) :
    ¬∃ read, decodeRestoreDecision (encodeRestoreDecision decision) = .ok read ∧
      SameDecision read decision := by
  rintro ⟨read, hdecode, hsame⟩
  rw [hdecode] at hread
  exact hdiffers ((Option.some.inj hread).symm.trans (Prod.ext hsame.terms hsame.truncated))

/-- Two explanations that are not read back.  One had room for one term and was given two:
it comes back with the mark as a term, and unmarked.  The other has sixty-five terms: it
comes back with sixty-four, and marked. -/
theorem restore_decision_not_read_back :
    (Sample.refusal 1 (Sample.terms 2)).dependent.valid = true ∧
      Listable (Sample.refusal 1 (Sample.terms 2)) ∧
      Sample.shown (Sample.refusal 1 (Sample.terms 2)) = (Sample.terms 1, true) ∧
      (decodeRestoreDecision (encodeRestoreDecision
        (Sample.refusal 1 (Sample.terms 2)))).toOption.map Sample.shown =
          some (Sample.terms 1 ++ [⟨text "__truncated__", text "true"⟩], false) ∧
      (¬∃ read, decodeRestoreDecision (encodeRestoreDecision
        (Sample.refusal 1 (Sample.terms 2))) = .ok read ∧
          SameDecision read (Sample.refusal 1 (Sample.terms 2))) ∧
      Listable (Sample.refusal 100 (Sample.terms 65)) ∧
      (decodeRestoreDecision (encodeRestoreDecision
        (Sample.refusal 100 (Sample.terms 65)))).toOption.map Sample.shown =
          some (Sample.terms 64, true) ∧
      ¬∃ read, decodeRestoreDecision (encodeRestoreDecision
        (Sample.refusal 100 (Sample.terms 65))) = .ok read ∧
          SameDecision read (Sample.refusal 100 (Sample.terms 65)) := by
  have hmarked : (decodeRestoreDecision (encodeRestoreDecision
      (Sample.refusal 1 (Sample.terms 2)))).toOption.map Sample.shown =
        some (Sample.terms 1 ++ [⟨text "__truncated__", text "true"⟩], false) := by
    decide +kernel
  have hlong : (decodeRestoreDecision (encodeRestoreDecision
      (Sample.refusal 100 (Sample.terms 65)))).toOption.map Sample.shown =
        some (Sample.terms 64, true) := by
    decide +kernel
  refine ⟨by decide +kernel, ?_, by decide +kernel, hmarked,
    not_read_back_of_shown hmarked (by decide +kernel), ?_, hlong,
    not_read_back_of_shown hlong (by decide +kernel)⟩
  · constructor <;> decide +kernel
  · constructor <;> decide +kernel

end SwitchFailover.Persist
