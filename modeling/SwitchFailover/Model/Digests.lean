import SwitchFailover.Codec.Bytes
import SwitchFailover.Library.Fields
import SwitchFailover.Model.Authority
import SwitchFailover.Model.Evidence

/-!
# What a digest absorbs

A digest is a fold over a stream of bytes.  Numbers and keys enter with a fixed width and
texts with their length, but the lists of a query or an assessment enter without their
lengths: only the sequence of all their words is fixed by the stream.
-/

namespace SwitchFailover.Model

open SwitchFailover.Core Library.Codec Library.Fields

/-! ## Streams -/

def wordBytes (value : UInt64) : Bytes :=
  (List.range 8).map fun index => (value >>> (8 * index).toUInt64).toUInt8

def idWords {domain : IdDomain} (id : StrongId domain) : List UInt64 := [id.raw]

def keyWords (key : SwitchKey) : List UInt64 := [key.id.raw, key.generation.raw]

def keyBytes (key : SwitchKey) : Bytes := wordBytes key.id.raw ++ wordBytes key.generation.raw

def dependentBytes (dependent : DependentRef) : Bytes :=
  dependent.kind.raw :: wordBytes dependent.id

def flagByte (flag : Bool) : UInt8 := if flag then 1 else 0

/-- The text that starts a stream, with its length. -/
def tagBytes (tag : Bytes) : Bytes := wordBytes tag.length.toUInt64 ++ tag

theorem wordBytes_eq (value : UInt64) : wordBytes value = storeLe 8 value.toNat := by
  rw [wordBytes, storeLe_eq_map]
  apply List.map_congr_left
  intro index hindex
  have hsmall := List.mem_range.mp hindex
  apply UInt8.toNat_inj.mp
  rw [UInt64.toNat_toUInt8, UInt64.toNat_shiftRight, Nat.shiftRight_eq_div_pow]
  interval_cases index <;> simp

theorem fixedWidth_word : FixedWidth wordBytes 8 where
  width value := by rw [wordBytes_eq, length_storeLe]
  injective := by
    intro left right heq
    rw [wordBytes_eq, wordBytes_eq] at heq
    have hnumber := congrArg loadLe heq
    rw [loadLe_storeLe left.toNat_lt, loadLe_storeLe right.toNat_lt] at hnumber
    exact UInt64.toNat_inj.mp hnumber

theorem fixedWidth_key : FixedWidth keyBytes 16 where
  width key := by
    rw [keyBytes, List.length_append, fixedWidth_word.width, fixedWidth_word.width]
  injective := by
    rintro ⟨⟨leftId⟩, ⟨leftGeneration⟩⟩ ⟨⟨rightId⟩, ⟨rightGeneration⟩⟩ heq
    obtain ⟨rfl, hgeneration⟩ := fixedWidth_word.append_inj.mp heq
    cases fixedWidth_word.injective hgeneration
    rfl

theorem fixedWidth_idWords {domain : IdDomain} :
    FixedWidth (idWords : StrongId domain → List UInt64) 1 where
  width _ := rfl
  injective := by
    rintro ⟨left⟩ ⟨right⟩ heq
    simpa [idWords] using heq

theorem fixedWidth_keyWords : FixedWidth keyWords 2 where
  width _ := rfl
  injective := by
    rintro ⟨⟨leftId⟩, ⟨leftGeneration⟩⟩ ⟨⟨rightId⟩, ⟨rightGeneration⟩⟩ heq
    simpa [keyWords] using heq

theorem dependentBytes_append_inj {left right : DependentRef} {first second : Bytes} :
    dependentBytes left ++ first = dependentBytes right ++ second ↔
      left = right ∧ first = second := by
  have hparts : left = right ↔ left.kind.raw = right.kind.raw ∧ left.id = right.id := by
    rw [DependentKind.raw_injective.eq_iff, DependentRef.mk.injEq]
  rw [dependentBytes, dependentBytes, List.cons_append, List.cons_append, List.cons.injEq,
    fixedWidth_word.append_inj, hparts, and_assoc]

theorem flagByte_injective : Function.Injective flagByte := by
  decide

/-- The assigned codes fit into a byte. -/
theorem codeByte_injective : Function.Injective fun code : Code => code.raw.toUInt8 := by
  have hback : ∀ code : Code, Code.ofRaw code.raw.toUInt8.toUInt16 = some code := by
    intro code
    cases code <;> rfl
  intro left right heq
  have hsame := hback left
  rw [show left.raw.toUInt8 = right.raw.toUInt8 from heq, hback right] at hsame
  exact (Option.some.inj hsame).symm

theorem healthByte_injective :
    Function.Injective fun health : SwitchHealthState => health.ctorIdx.toUInt8 := by
  intro left right heq
  cases left <;> cases right <;> first | rfl | exact absurd heq (by decide)

/-! ### The digest of a stream -/

theorem absorbBytes_append (digest : Digest128) (front back : Bytes) :
    (digest.absorbBytes front).absorbBytes back = digest.absorbBytes (front ++ back) :=
  (List.foldl_append ..).symm

theorem foldl_absorb {A : Type} {step : Digest128 → A → Digest128} {bytes : A → Bytes}
    (hstep : ∀ digest value, step digest value = digest.absorbBytes (bytes value))
    (values : List A) (digest : Digest128) :
    values.foldl step digest = digest.absorbBytes (values.flatMap bytes) := by
  induction values generalizing digest with
  | nil => rfl
  | cons value values ih =>
    rw [List.foldl_cons, ih, hstep, absorbBytes_append, List.flatMap_cons]

theorem absorbU64_eq (digest : Digest128) (value : UInt64) :
    digest.absorbU64 value = digest.absorbBytes (wordBytes value) := rfl

theorem absorbByte_eq (digest : Digest128) (byte : UInt8) :
    digest.absorbByte byte = digest.absorbBytes [byte] := rfl

theorem absorbKey_eq (digest : Digest128) (key : SwitchKey) :
    digest.absorbKey key = digest.absorbBytes (keyBytes key) := by
  rw [Digest128.absorbKey, absorbU64_eq, absorbU64_eq, absorbBytes_append, keyBytes]

theorem absorbDependent_eq (digest : Digest128) (dependent : DependentRef) :
    digest.absorbDependent dependent = digest.absorbBytes (dependentBytes dependent) := by
  rw [Digest128.absorbDependent, absorbByte_eq, absorbU64_eq, absorbBytes_append, dependentBytes,
    List.singleton_append]

theorem absorbString_eq (digest : Digest128) (tag : Bytes) :
    digest.absorbString tag = digest.absorbBytes (tagBytes tag) := by
  rw [Digest128.absorbString, Digest128.absorbNat, absorbU64_eq, absorbBytes_append, tagBytes]

/-- Identities and keys enter a digest word by word. -/
theorem foldl_absorbKey (digest : Digest128) (keys : List SwitchKey) :
    keys.foldl Digest128.absorbKey digest =
      digest.absorbBytes ((keys.flatMap keyWords).flatMap wordBytes) := by
  rw [foldl_absorb absorbKey_eq, List.flatMap_assoc]
  refine congrArg digest.absorbBytes (List.flatMap_congr fun key _ => ?_)
  simp [keyWords, keyBytes]

theorem foldl_absorbId {domain : IdDomain} (digest : Digest128) (ids : List (StrongId domain)) :
    ids.foldl (fun digest id => digest.absorbU64 id.raw) digest =
      digest.absorbBytes ((ids.flatMap idWords).flatMap wordBytes) := by
  rw [foldl_absorb fun digest (id : StrongId domain) => absorbU64_eq digest id.raw,
    List.flatMap_assoc]
  simp only [idWords, List.flatMap_singleton]

/-! ## Authority queries -/

namespace AuthorityQuery

def digest (query : AuthorityQuery) : UInt64 :=
  let head := ({} : Digest128).absorbString (text "sff.authority-query.v1")
    |>.absorbDependent query.dependent
    |>.absorbByte (flagByte query.hasAuthority)
    |>.absorbByte query.outcome.raw.toUInt8
    |>.absorbByte query.reason.raw.toUInt8
    |>.absorbU64 query.bound.digest
  let active := query.activeGrants.foldl (fun digest id => digest.absorbU64 id.raw) head
  let withdrawn := query.withdrawnGrants.foldl (fun digest id => digest.absorbU64 id.raw) active
  let fenced := query.fencedGenerations.foldl Digest128.absorbKey withdrawn
  (query.unprovenGenerations.foldl Digest128.absorbKey fenced).hi

/-- The words of all lists, one after the other. -/
def words (query : AuthorityQuery) : List UInt64 :=
  query.activeGrants.flatMap idWords ++ (query.withdrawnGrants.flatMap idWords ++
    (query.fencedGenerations.flatMap keyWords ++ query.unprovenGenerations.flatMap keyWords))

/-- The stream that the digest absorbs. -/
def absorbed (query : AuthorityQuery) : Bytes :=
  tagBytes (text "sff.authority-query.v1") ++ (dependentBytes query.dependent ++
    flagByte query.hasAuthority :: query.outcome.raw.toUInt8 :: query.reason.raw.toUInt8 ::
      (wordBytes query.bound.digest ++ query.words.flatMap wordBytes))

theorem digest_eq (query : AuthorityQuery) :
    query.digest = (({} : Digest128).absorbBytes query.absorbed).hi := by
  rw [digest, absorbed, words]
  simp only [foldl_absorbId, foldl_absorbKey]
  simp only [absorbString_eq, absorbDependent_eq, absorbByte_eq, absorbU64_eq, absorbBytes_append,
    List.flatMap_append, List.append_assoc, List.cons_append, List.nil_append]

/-- The fields with a place of their own in the stream agree. -/
@[mk_iff]
structure SameHead (left right : AuthorityQuery) : Prop where
  dependent : left.dependent = right.dependent
  hasAuthority : left.hasAuthority = right.hasAuthority
  outcome : left.outcome = right.outcome
  reason : left.reason = right.reason
  bound : left.bound = right.bound

@[mk_iff]
structure SameLists (left right : AuthorityQuery) : Prop where
  activeGrants : left.activeGrants = right.activeGrants
  withdrawnGrants : left.withdrawnGrants = right.withdrawnGrants
  fencedGenerations : left.fencedGenerations = right.fencedGenerations
  unprovenGenerations : left.unprovenGenerations = right.unprovenGenerations

/-- The lists end in the same places. -/
structure SameBorders (left right : AuthorityQuery) : Prop where
  active : left.activeGrants.length = right.activeGrants.length
  withdrawn : left.withdrawnGrants.length = right.withdrawnGrants.length
  fenced : left.fencedGenerations.length = right.fencedGenerations.length

/-- Everything that is absorbed is the same. -/
def Agree (left right : AuthorityQuery) : Prop := SameHead left right ∧ SameLists left right

/-- The lists have the same words in the same order, but they end in other places. -/
def Shifted (left right : AuthorityQuery) : Prop :=
  SameHead left right ∧ left.words = right.words ∧ ¬SameBorders left right

variable {left right : AuthorityQuery}

theorem words_inj (hborders : SameBorders left right) :
    left.words = right.words ↔ SameLists left right := by
  rw [words, words, fixedWidth_idWords.flatMap_append_inj one_pos hborders.active,
    fixedWidth_idWords.flatMap_append_inj one_pos hborders.withdrawn,
    fixedWidth_keyWords.flatMap_append_inj two_pos hborders.fenced,
    (fixedWidth_keyWords.flatMap_injective two_pos).eq_iff, sameLists_iff]

theorem SameLists.borders (hlists : SameLists left right) : SameBorders left right :=
  ⟨by rw [hlists.activeGrants], by rw [hlists.withdrawnGrants], by rw [hlists.fencedGenerations]⟩

/-- The streams are the same exactly if all fields with a place of their own agree, and the
lists agree as one sequence of words. -/
theorem absorbed_inj (hbound : left.bound.digest = right.bound.digest → left.bound = right.bound) :
    left.absorbed = right.absorbed ↔ SameHead left right ∧ left.words = right.words := by
  have hdigest : left.bound.digest = right.bound.digest ↔ left.bound = right.bound :=
    ⟨hbound, fun heq => by rw [heq]⟩
  rw [absorbed, absorbed, List.append_cancel_left_eq, dependentBytes_append_inj,
    List.cons.injEq, List.cons.injEq, List.cons.injEq, fixedWidth_word.append_inj, hdigest,
    flagByte_injective.eq_iff, codeByte_injective.eq_iff, codeByte_injective.eq_iff,
    (fixedWidth_word.flatMap_injective (by decide)).eq_iff, sameHead_iff]
  simp only [and_assoc]

/-- Queries that differ are absorbed differently exactly if they are not shifted. -/
theorem distinguished_iff
    (hbound : left.bound.digest = right.bound.digest → left.bound = right.bound) :
    (¬Agree left right → left.absorbed ≠ right.absorbed) ↔ ¬Shifted left right :=
  distinct_iff_not_shifted (absorbed_inj hbound) words_inj SameLists.borders

end AuthorityQuery

/-! ## Assessments -/

namespace SwitchAssessment

def digest (assessment : SwitchAssessment) : UInt64 :=
  let head := ({} : Digest128).absorbString (text "sff.switch-assessment.v1")
    |>.absorbKey assessment.subject
    |>.absorbByte assessment.health.ctorIdx.toUInt8
    |>.absorbByte assessment.outcome.raw.toUInt8
    |>.absorbByte (flagByte assessment.usable)
    |>.absorbByte (flagByte assessment.fenceRequired)
    |>.absorbByte (flagByte assessment.durableFailure.isSome)
  let supported := assessment.supporting.foldl (fun digest id => digest.absorbU64 id.raw) head
  (assessment.conflicting.foldl (fun digest id => digest.absorbU64 id.raw) supported).hi

def words (assessment : SwitchAssessment) : List UInt64 :=
  assessment.supporting.flatMap idWords ++ assessment.conflicting.flatMap idWords

/-- The stream that the digest absorbs. -/
def absorbed (assessment : SwitchAssessment) : Bytes :=
  tagBytes (text "sff.switch-assessment.v1") ++ (keyBytes assessment.subject ++
    assessment.health.ctorIdx.toUInt8 :: assessment.outcome.raw.toUInt8 ::
      flagByte assessment.usable :: flagByte assessment.fenceRequired ::
      flagByte assessment.durableFailure.isSome :: assessment.words.flatMap wordBytes)

theorem digest_eq (assessment : SwitchAssessment) :
    assessment.digest = (({} : Digest128).absorbBytes assessment.absorbed).hi := by
  rw [digest, absorbed, words]
  simp only [foldl_absorbId]
  simp only [absorbString_eq, absorbKey_eq, absorbByte_eq, absorbBytes_append,
    List.flatMap_append, List.append_assoc, List.cons_append, List.nil_append]

@[mk_iff]
structure SameHead (left right : SwitchAssessment) : Prop where
  subject : left.subject = right.subject
  health : left.health = right.health
  outcome : left.outcome = right.outcome
  usable : left.usable = right.usable
  fenceRequired : left.fenceRequired = right.fenceRequired
  durableFailurePresent : left.durableFailure.isSome = right.durableFailure.isSome

@[mk_iff]
structure SameLists (left right : SwitchAssessment) : Prop where
  supporting : left.supporting = right.supporting
  conflicting : left.conflicting = right.conflicting

/-- Everything that is absorbed is the same. -/
def Agree (left right : SwitchAssessment) : Prop := SameHead left right ∧ SameLists left right

/-- The same evidence in the same order, but with another border between what supports the
assessment and what conflicts. -/
def Shifted (left right : SwitchAssessment) : Prop :=
  SameHead left right ∧ left.words = right.words ∧
    ¬left.supporting.length = right.supporting.length

variable {left right : SwitchAssessment}

theorem words_inj (hborder : left.supporting.length = right.supporting.length) :
    left.words = right.words ↔ SameLists left right := by
  rw [words, words, fixedWidth_idWords.flatMap_append_inj one_pos hborder,
    (fixedWidth_idWords.flatMap_injective one_pos).eq_iff, sameLists_iff]

theorem absorbed_inj :
    left.absorbed = right.absorbed ↔ SameHead left right ∧ left.words = right.words := by
  rw [absorbed, absorbed, List.append_cancel_left_eq, fixedWidth_key.append_inj,
    List.cons.injEq, List.cons.injEq, List.cons.injEq, List.cons.injEq, List.cons.injEq,
    healthByte_injective.eq_iff, codeByte_injective.eq_iff, flagByte_injective.eq_iff,
    flagByte_injective.eq_iff, flagByte_injective.eq_iff,
    (fixedWidth_word.flatMap_injective (by decide)).eq_iff, sameHead_iff]
  simp only [and_assoc]

theorem distinguished_iff :
    (¬Agree left right → left.absorbed ≠ right.absorbed) ↔ ¬Shifted left right :=
  distinct_iff_not_shifted absorbed_inj words_inj fun hlists => by rw [hlists.supporting]

end SwitchAssessment

end SwitchFailover.Model
