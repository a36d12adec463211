import SwitchFailover.Model.Digests
import SwitchFailover.Persist.Decisions

/-!
# When the inputs of digests are ambiguous

Two queries, assessments or decisions that differ in something their digests absorb are
absorbed as different streams, unless the words of their lists are the same and only the
borders between the lists are not.  A decision absorbs the lowest byte of its codes, which
is all of an assigned code.
-/

namespace SwitchFailover.Persist

open SwitchFailover.Core Model Library.Fields

namespace ExplainedDecision

/-- The words of both lists, and the digest of the explanation after them. -/
def words (decision : ExplainedDecision) : List UInt64 :=
  decision.grants.flatMap idWords ++ (decision.blockingGenerations.flatMap keyWords ++
    [decision.explanation.digest])

/-- The stream that the digest absorbs. -/
def absorbed (decision : ExplainedDecision) : Bytes :=
  tagBytes (text "sff.restore-decision.v1") ++ (dependentBytes decision.dependent ++
    decision.outcome.toUInt8 :: decision.reason.toUInt8 :: flagByte decision.mayRestore ::
      flagByte decision.effectVerified :: (wordBytes decision.bound.digest ++
        (wordBytes decision.plan.raw ++ decision.words.flatMap wordBytes)))

theorem digest_eq (decision : ExplainedDecision) :
    decision.digest = (({} : Digest128).absorbBytes decision.absorbed).hi := by
  rw [digest, absorbed, words]
  simp only [foldl_absorbId, foldl_absorbKey, ← flagByte.eq_def]
  simp only [absorbString_eq, absorbDependent_eq, absorbByte_eq, absorbU64_eq, absorbBytes_append,
    List.flatMap_append, List.flatMap_singleton, List.append_assoc, List.cons_append,
    List.nil_append]

/-- What has a place of its own in the stream agrees. -/
@[mk_iff]
structure SameHead (left right : ExplainedDecision) : Prop where
  dependent : left.dependent = right.dependent
  outcome : left.outcome.toUInt8 = right.outcome.toUInt8
  reason : left.reason.toUInt8 = right.reason.toUInt8
  mayRestore : left.mayRestore = right.mayRestore
  effectVerified : left.effectVerified = right.effectVerified
  bound : left.bound = right.bound
  plan : left.plan = right.plan

/-- The rest of what is absorbed: the lists, the explanation and the whole codes. -/
structure SameRest (left right : ExplainedDecision) : Prop where
  outcome : left.outcome = right.outcome
  reason : left.reason = right.reason
  grants : left.grants = right.grants
  blockingGenerations : left.blockingGenerations = right.blockingGenerations
  terms : left.explanation.terms = right.explanation.terms
  truncated : left.explanation.truncated = right.explanation.truncated

/-- The whole codes agree, and the border between the lists. -/
structure SameBorders (left right : ExplainedDecision) : Prop where
  outcome : left.outcome = right.outcome
  reason : left.reason = right.reason
  grants : left.grants.length = right.grants.length

/-- Everything that is absorbed is the same. -/
def Agree (left right : ExplainedDecision) : Prop := SameHead left right ∧ SameRest left right

/-- The lists have the same words in the same order and the codes the same lowest bytes, but
the border between the lists or a code is another. -/
def Shifted (left right : ExplainedDecision) : Prop :=
  SameHead left right ∧ left.words = right.words ∧ ¬SameBorders left right

section Injective

variable {left right : ExplainedDecision}

theorem absorbed_inj (hbound : left.bound.digest = right.bound.digest → left.bound = right.bound) :
    left.absorbed = right.absorbed ↔ SameHead left right ∧ left.words = right.words := by
  have hdigest : left.bound.digest = right.bound.digest ↔ left.bound = right.bound :=
    ⟨hbound, fun heq => by rw [heq]⟩
  rw [absorbed, absorbed, List.append_cancel_left_eq, dependentBytes_append_inj,
    List.cons.injEq, List.cons.injEq, List.cons.injEq, List.cons.injEq, fixedWidth_word.append_inj,
    hdigest, fixedWidth_word.append_inj, StrongId.raw_injective.eq_iff, flagByte_injective.eq_iff,
    flagByte_injective.eq_iff, (fixedWidth_word.flatMap_injective (by decide)).eq_iff,
    sameHead_iff]
  simp only [and_assoc]

theorem SameRest.borders (hrest : SameRest left right) : SameBorders left right :=
  ⟨hrest.outcome, hrest.reason, by rw [hrest.grants]⟩

theorem words_inj (hexplanation : left.explanation.digest = right.explanation.digest →
      left.explanation.terms = right.explanation.terms ∧
        left.explanation.truncated = right.explanation.truncated)
    (hborders : SameBorders left right) :
    left.words = right.words ↔ SameRest left right := by
  rw [words, words, fixedWidth_idWords.flatMap_append_inj one_pos hborders.grants]
  constructor
  · rintro ⟨hgrants, hrest⟩
    obtain ⟨hkeys, hlast⟩ := List.append_inj' hrest (by rw [List.length_singleton,
      List.length_singleton])
    obtain ⟨hterms, htruncated⟩ := hexplanation (List.head_eq_of_cons_eq hlast)
    exact ⟨hborders.outcome, hborders.reason, hgrants,
      fixedWidth_keyWords.flatMap_injective two_pos hkeys, hterms, htruncated⟩
  · intro hrest
    rw [hrest.blockingGenerations, Explanation.digest_congr hrest.terms hrest.truncated]
    exact ⟨hrest.grants, rfl⟩

end Injective

end ExplainedDecision

/-- The stream of a digest determines what differs in it exactly if nothing is shifted: for
two queries, two assessments and two decisions.  The digests inside the streams are taken to
tell their arguments apart. -/
theorem digest_inputs_distinguished_iff (query query' : AuthorityQuery)
    (assessment assessment' : SwitchAssessment) (decision decision' : ExplainedDecision)
    (hquery : query.bound.digest = query'.bound.digest → query.bound = query'.bound)
    (hdecision : decision.bound.digest = decision'.bound.digest →
      decision.bound = decision'.bound)
    (hexplanation : decision.explanation.digest = decision'.explanation.digest →
      decision.explanation.terms = decision'.explanation.terms ∧
        decision.explanation.truncated = decision'.explanation.truncated) :
    (query.digest = (({} : Digest128).absorbBytes query.absorbed).hi ∧
        assessment.digest = (({} : Digest128).absorbBytes assessment.absorbed).hi ∧
        decision.digest = (({} : Digest128).absorbBytes decision.absorbed).hi) ∧
      ((¬AuthorityQuery.Agree query query' → query.absorbed ≠ query'.absorbed) ↔
        ¬AuthorityQuery.Shifted query query') ∧
      ((¬SwitchAssessment.Agree assessment assessment' →
          assessment.absorbed ≠ assessment'.absorbed) ↔
        ¬SwitchAssessment.Shifted assessment assessment') ∧
      ((¬ExplainedDecision.Agree decision decision' → decision.absorbed ≠ decision'.absorbed) ↔
        ¬ExplainedDecision.Shifted decision decision') :=
  ⟨⟨query.digest_eq, assessment.digest_eq, decision.digest_eq⟩,
    AuthorityQuery.distinguished_iff hquery, SwitchAssessment.distinguished_iff,
    distinct_iff_not_shifted (ExplainedDecision.absorbed_inj hdecision)
      (ExplainedDecision.words_inj hexplanation) ExplainedDecision.SameRest.borders⟩

namespace Sample

def query (active withdrawn : List GrantId) : AuthorityQuery where
  dependent := .port 7
  bound := GenerationVector.canonicalise [⟨⟨1⟩, ⟨1⟩⟩]
  activeGrants := active
  withdrawnGrants := withdrawn

def assessment (supporting conflicting : List EvidenceId) : SwitchAssessment where
  subject := ⟨⟨1⟩, ⟨1⟩⟩
  supporting := supporting
  conflicting := conflicting

def decision (grants : List GrantId) (blocking : List SwitchKey) : ExplainedDecision where
  dependent := .port 7
  bound := GenerationVector.canonicalise [⟨⟨1⟩, ⟨1⟩⟩]
  grants := grants
  blockingGenerations := blocking

end Sample

theorem digest_inputs_distinguished_sample :
    (Sample.query [⟨4⟩] [⟨5⟩]).absorbed ≠ (Sample.query [⟨5⟩] [⟨4⟩]).absorbed ∧
      (Sample.assessment [⟨4⟩] [⟨5⟩]).absorbed ≠ (Sample.assessment [⟨5⟩] [⟨4⟩]).absorbed ∧
      (Sample.decision [⟨4⟩] []).absorbed ≠ (Sample.decision [⟨5⟩] []).absorbed := by
  obtain ⟨-, hquery, hassessment, hdecision⟩ := digest_inputs_distinguished_iff
    (Sample.query [⟨4⟩] [⟨5⟩]) (Sample.query [⟨5⟩] [⟨4⟩])
    (Sample.assessment [⟨4⟩] [⟨5⟩]) (Sample.assessment [⟨5⟩] [⟨4⟩])
    (Sample.decision [⟨4⟩] []) (Sample.decision [⟨5⟩] [])
    (fun _ => rfl) (fun _ => rfl) (fun _ => ⟨rfl, rfl⟩)
  refine ⟨hquery.mpr ?_ ?_, hassessment.mpr ?_ ?_, hdecision.mpr ?_ ?_⟩
  · exact fun hshifted => absurd hshifted.2.1 (by decide)
  · exact fun hagree => absurd hagree.2.activeGrants (by decide)
  · exact fun hshifted => absurd hshifted.2.1 (by decide)
  · exact fun hagree => absurd hagree.2.supporting (by decide)
  · exact fun hshifted => absurd hshifted.2.1 (by decide +kernel)
  · exact fun hagree => absurd hagree.2.grants (by decide)

/-- A grant that is active or withdrawn, evidence that supports or conflicts, two grants or a
generation that blocks: the streams are the same. -/
theorem digest_inputs_confused :
    (¬AuthorityQuery.Agree (Sample.query [⟨4⟩] []) (Sample.query [] [⟨4⟩]) ∧
        (Sample.query [⟨4⟩] []).absorbed = (Sample.query [] [⟨4⟩]).absorbed) ∧
      (¬SwitchAssessment.Agree (Sample.assessment [⟨4⟩] []) (Sample.assessment [] [⟨4⟩]) ∧
        (Sample.assessment [⟨4⟩] []).absorbed = (Sample.assessment [] [⟨4⟩]).absorbed) ∧
      ¬ExplainedDecision.Agree (Sample.decision [⟨4⟩, ⟨5⟩] [])
          (Sample.decision [] [⟨⟨4⟩, ⟨5⟩⟩]) ∧
        (Sample.decision [⟨4⟩, ⟨5⟩] []).absorbed =
          (Sample.decision [] [⟨⟨4⟩, ⟨5⟩⟩]).absorbed := by
  refine ⟨⟨?_, by decide +kernel⟩, ⟨?_, by decide +kernel⟩, ?_, by decide +kernel⟩
  · exact fun hagree => absurd hagree.2.activeGrants (by decide)
  · exact fun hagree => absurd hagree.2.supporting (by decide)
  · exact fun hagree => absurd hagree.2.grants (by decide)

end SwitchFailover.Persist
