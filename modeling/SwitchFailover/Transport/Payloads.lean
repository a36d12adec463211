import SwitchFailover.Codec.Bytes
import SwitchFailover.Library.Formats
import SwitchFailover.Model.Evidence
import SwitchFailover.Transport.Frame

/-!
# The payloads of frames

Every payload has a fixed shape: fields one after the other, no padding and nothing at the
end.  A decoder reads all fields, requires the end, and only then looks at what the codes,
kinds and identities say.
-/

namespace SwitchFailover.Transport

open SwitchFailover.Core Codec Model Library.Codec

/-! ## Fields -/

abbrev Wire := Format Status

namespace Wire

def u8 : Wire UInt8 := .total writeU8 readU8 reads_u8 sound_u8
def u16 : Wire UInt16 := .total writeU16 readU16 reads_u16 sound_u16
def u32 : Wire UInt32 := .total writeU32 readU32 reads_u32 sound_u32
def u64 : Wire UInt64 := .total writeU64 readU64 reads_u64 sound_u64
def boolean : Wire Bool := .total writeBoolean readBoolean reads_boolean sound_boolean

/-- A text within the budget of messages. -/
def string : Wire Bytes where
  write := writeString
  read := readString maxMessageBytes
  Fits string := string.length ≤ maxMessageBytes
  reads string hfits := reads_string hfits (lt_of_le_of_lt hfits (by decide))
  spends bytes string rest hread := by
    obtain ⟨spent, hbytes, hfits, -, hspent⟩ :=
      spends_string maxMessageBytes bytes string rest hread
    exact ⟨spent, hbytes, hfits, hspent⟩

end Wire

def textBudget : ℕ := maxMessageBytes + 64

def fixedPayloadBudget : ℕ := 256

/-- `finish_payload` after the fields: a failure of the reader comes first, then bytes that
are left over. -/
def readFields {Raw : Type} (format : Wire Raw) (payload : Bytes) : Result Raw :=
  decodeWith (do
    let fields ← format.read
    requireEnd
    pure fields) payload

/-- The end of `read_code`: `is_known_code` and the cast. -/
def knownCode (raw : UInt16) : Result Code :=
  match Code.ofRaw raw with
  | some code => .ok code
  | none => refuse .invalid (text "payload carries an unassigned outcome code")

/-- The end of `read_dependent`. -/
def knownDependent (kind : UInt8) (id : UInt64) : Result DependentRef :=
  match DependentKind.ofRaw kind with
  | none => refuse .invalid (text "payload carries an unassigned dependent kind")
  | some kind =>
      if DependentRef.valid ⟨kind, id⟩ then .ok ⟨kind, id⟩
      else refuse .invalid (text "payload carries a zero dependent id")

def evidenceSourceRaw (source : EvidenceSource) : UInt8 := source.ctorIdx.toUInt8

/-- `is_valid_evidence_source` followed by the cast. -/
def evidenceSourceOfRaw : UInt8 → Option EvidenceSource
  | 1 => some .simulatedFixture
  | 2 => some .telemetryCollector
  | 3 => some .switchAgent
  | 4 => some .topologyService
  | 5 => some .fabricManager
  | 6 => some .operatorPolicy
  | _ => none

/-! ## Messages -/

structure HelloRequest where
  principal : Bytes := []
  formatVersion : UInt16 := frameFormatVersion
  deriving DecidableEq

structure HelloResponse where
  session : SessionId := default
  epoch : CoordinatorEpoch := default
  bootDigest : UInt64 := 0
  formatVersion : UInt32 := 1
  maxPayload : UInt32 := 0
  outcome : Code := .unknown
  deriving DecidableEq

structure AuthorityQueryRequest where
  dependent : DependentRef := default
  deriving DecidableEq

structure AuthorityQueryResponse where
  outcome : Code := .unknown
  reason : Code := .unknown
  hasAuthority : Bool := false
  activeGrants : UInt64 := 0
  withdrawnGrants : UInt64 := 0
  fencedGenerations : UInt64 := 0
  digest : UInt64 := 0
  deriving DecidableEq

structure FailoverRequest where
  subject : SwitchKey := default
  source : EvidenceSource := .unknown
  observedAtNs : UInt64 := 0
  validForNs : UInt64 := 0
  reason : Bytes := []
  deriving DecidableEq

structure FailoverResponse where
  outcome : Code := .unknown
  fenceId : UInt64 := 0
  fenceScope : UInt32 := 0
  closureComplete : Bool := false
  closureMembers : UInt64 := 0
  grantsFenced : UInt64 := 0
  closureDigest : UInt64 := 0
  deriving DecidableEq

structure RestoreQueryRequest where
  dependent : DependentRef := default
  deriving DecidableEq

structure RestoreQueryResponse where
  outcome : Code := .unknown
  reason : Code := .unknown
  mayRestore : Bool := false
  effectVerified : Bool := false
  blockingGenerations : UInt64 := 0
  deriving DecidableEq

structure SnapshotResponse where
  outcome : Code := .unknown
  epoch : UInt64 := 0
  bootOrdinal : UInt64 := 0
  switches : UInt64 := 0
  fences : UInt64 := 0
  failures : UInt64 := 0
  activeGrants : UInt64 := 0
  retainedEvents : UInt64 := 0
  durabilityEnabled : Bool := false
  deriving DecidableEq

/-! ## Codecs -/

def helloRequestWire : Wire (UInt16 × Bytes) := Wire.u16.pair Wire.string

def encodeHelloRequest (request : HelloRequest) : Bytes :=
  written textBudget (helloRequestWire.write
    (request.formatVersion, boundedMessage request.principal))

def decodeHelloRequest (payload : Bytes) : Result HelloRequest := do
  let (formatVersion, principal) ← readFields helloRequestWire payload
  pure { formatVersion, principal }

def helloResponseWire : Wire (UInt16 × UInt64 × UInt64 × UInt64 × UInt32 × UInt32) :=
  Wire.u16.pair (Wire.u64.pair (Wire.u64.pair (Wire.u64.pair (Wire.u32.pair Wire.u32))))

def encodeHelloResponse (response : HelloResponse) : Bytes :=
  written fixedPayloadBudget (helloResponseWire.write
    (response.outcome.raw, response.session.raw, response.epoch.raw, response.bootDigest,
      response.formatVersion, response.maxPayload))

def decodeHelloResponse (payload : Bytes) : Result HelloResponse := do
  let (outcome, session, epoch, bootDigest, formatVersion, maxPayload) ←
    readFields helloResponseWire payload
  let outcome ← knownCode outcome
  let response : HelloResponse :=
    { session := ⟨session⟩, epoch := ⟨epoch⟩, bootDigest, formatVersion, maxPayload, outcome }
  require (!(response.outcome == .ok && (!response.session.valid || !response.epoch.valid)))
    .invalid (text "accepted hello response carries no session authority")
  pure response

def dependentWire : Wire (UInt8 × UInt64) := Wire.u8.pair Wire.u64

def encodeAuthorityQuery (request : AuthorityQueryRequest) : Bytes :=
  written fixedPayloadBudget (dependentWire.write
    (request.dependent.kind.raw, request.dependent.id))

def decodeAuthorityQuery (payload : Bytes) : Result AuthorityQueryRequest := do
  let (kind, id) ← readFields dependentWire payload
  let dependent ← knownDependent kind id
  pure { dependent }

def authorityResponseWire :
    Wire (UInt16 × UInt16 × Bool × UInt64 × UInt64 × UInt64 × UInt64) :=
  Wire.u16.pair (Wire.u16.pair (Wire.boolean.pair (Wire.u64.pair (Wire.u64.pair
    (Wire.u64.pair Wire.u64)))))

def encodeAuthorityResponse (response : AuthorityQueryResponse) : Bytes :=
  written fixedPayloadBudget (authorityResponseWire.write
    (response.outcome.raw, response.reason.raw, response.hasAuthority, response.activeGrants,
      response.withdrawnGrants, response.fencedGenerations, response.digest))

def decodeAuthorityResponse (payload : Bytes) : Result AuthorityQueryResponse := do
  let (outcome, reason, hasAuthority, activeGrants, withdrawnGrants, fencedGenerations, digest) ←
    readFields authorityResponseWire payload
  let outcome ← knownCode outcome
  let reason ← knownCode reason
  pure { outcome, reason, hasAuthority, activeGrants, withdrawnGrants, fencedGenerations, digest }

def failoverRequestWire : Wire (UInt64 × UInt64 × UInt8 × UInt64 × UInt64 × Bytes) :=
  Wire.u64.pair (Wire.u64.pair (Wire.u8.pair (Wire.u64.pair (Wire.u64.pair Wire.string))))

def encodeFailoverRequest (request : FailoverRequest) : Bytes :=
  written textBudget (failoverRequestWire.write
    (request.subject.id.raw, request.subject.generation.raw, evidenceSourceRaw request.source,
      request.observedAtNs, request.validForNs, boundedMessage request.reason))

def decodeFailoverRequest (payload : Bytes) : Result FailoverRequest := do
  let (id, generation, source, observedAtNs, validForNs, reason) ←
    readFields failoverRequestWire payload
  let subject : SwitchKey := ⟨⟨id⟩, ⟨generation⟩⟩
  match evidenceSourceOfRaw source with
  | none => refuse .invalid (text "failover request carries an unassigned evidence source")
  | some source =>
      require subject.valid .invalid (text "failover request carries an invalid switch key")
      pure { subject, source, observedAtNs, validForNs, reason }

def failoverResponseWire : Wire (UInt16 × UInt64 × UInt32 × Bool × UInt64 × UInt64 × UInt64) :=
  Wire.u16.pair (Wire.u64.pair (Wire.u32.pair (Wire.boolean.pair (Wire.u64.pair
    (Wire.u64.pair Wire.u64)))))

def encodeFailoverResponse (response : FailoverResponse) : Bytes :=
  written fixedPayloadBudget (failoverResponseWire.write
    (response.outcome.raw, response.fenceId, response.fenceScope, response.closureComplete,
      response.closureMembers, response.grantsFenced, response.closureDigest))

def decodeFailoverResponse (payload : Bytes) : Result FailoverResponse := do
  let (outcome, fenceId, fenceScope, closureComplete, closureMembers, grantsFenced,
    closureDigest) ← readFields failoverResponseWire payload
  let outcome ← knownCode outcome
  pure { outcome, fenceId, fenceScope, closureComplete, closureMembers, grantsFenced
         closureDigest }

def encodeRestoreQuery (request : RestoreQueryRequest) : Bytes :=
  written fixedPayloadBudget (dependentWire.write
    (request.dependent.kind.raw, request.dependent.id))

def decodeRestoreQuery (payload : Bytes) : Result RestoreQueryRequest := do
  let (kind, id) ← readFields dependentWire payload
  let dependent ← knownDependent kind id
  pure { dependent }

def restoreResponseWire : Wire (UInt16 × UInt16 × Bool × Bool × UInt64) :=
  Wire.u16.pair (Wire.u16.pair (Wire.boolean.pair (Wire.boolean.pair Wire.u64)))

def encodeRestoreResponse (response : RestoreQueryResponse) : Bytes :=
  written fixedPayloadBudget (restoreResponseWire.write
    (response.outcome.raw, response.reason.raw, response.mayRestore, response.effectVerified,
      response.blockingGenerations))

def decodeRestoreResponse (payload : Bytes) : Result RestoreQueryResponse := do
  let (outcome, reason, mayRestore, effectVerified, blockingGenerations) ←
    readFields restoreResponseWire payload
  let outcome ← knownCode outcome
  let reason ← knownCode reason
  pure { outcome, reason, mayRestore, effectVerified, blockingGenerations }

def snapshotResponseWire :
    Wire (UInt16 × UInt64 × UInt64 × UInt64 × UInt64 × UInt64 × UInt64 × UInt64 × Bool) :=
  Wire.u16.pair (Wire.u64.pair (Wire.u64.pair (Wire.u64.pair (Wire.u64.pair (Wire.u64.pair
    (Wire.u64.pair (Wire.u64.pair Wire.boolean)))))))

def encodeSnapshotResponse (response : SnapshotResponse) : Bytes :=
  written fixedPayloadBudget (snapshotResponseWire.write
    (response.outcome.raw, response.epoch, response.bootOrdinal, response.switches,
      response.fences, response.failures, response.activeGrants, response.retainedEvents,
      response.durabilityEnabled))

def decodeSnapshotResponse (payload : Bytes) : Result SnapshotResponse := do
  let (outcome, epoch, bootOrdinal, switches, fences, failures, activeGrants, retainedEvents,
    durabilityEnabled) ← readFields snapshotResponseWire payload
  let outcome ← knownCode outcome
  pure { outcome, epoch, bootOrdinal, switches, fences, failures, activeGrants, retainedEvents
         durabilityEnabled }

def errorWire : Wire (UInt16 × Bytes) := Wire.u16.pair Wire.string

def encodeErrorPayload (code : Code) (detail : Bytes) : Bytes :=
  written textBudget (errorWire.write (code.raw, boundedMessage detail))

def decodeErrorPayload (payload : Bytes) : Result (Code × Bytes) := do
  let (code, detail) ← readFields errorWire payload
  let code ← knownCode code
  pure (code, detail)

/-! ## Codes and identities -/

theorem knownCode_eq_ok {raw : UInt16} {code : Code} :
    knownCode raw = .ok code ↔ raw = code.raw := by
  rw [← Code.ofRaw_eq_some, knownCode]
  cases Code.ofRaw raw with
  | none => exact iff_of_false (fun hrefused => nomatch hrefused) (fun hnone => nomatch hnone)
  | some known =>
    exact ⟨fun hok => congrArg some (Except.ok.inj hok),
      fun hsome => congrArg Except.ok (Option.some.inj hsome)⟩

theorem knownDependent_eq_ok {kind : UInt8} {id : UInt64} {dependent : DependentRef} :
    knownDependent kind id = .ok dependent ↔
      dependent.valid = true ∧ (kind, id) = (dependent.kind.raw, dependent.id) := by
  rw [knownDependent]
  constructor
  · intro hknown
    split at hknown
    · cases hknown
    · rename_i known hkind
      split at hknown
      · rename_i hvalid
        cases hknown
        exact ⟨hvalid, by rw [(DependentKind.ofRaw_eq_some.mp hkind).2]⟩
      · cases hknown
  · rintro ⟨hvalid, hfields⟩
    obtain ⟨rfl, rfl⟩ := Prod.mk.inj hfields
    have hkind : dependent.kind ≠ .unknown := by
      intro hunknown
      rw [DependentRef.valid, hunknown] at hvalid
      exact absurd (Bool.and_eq_true_iff.mp hvalid).1 (by decide)
    rw [DependentKind.ofRaw_eq_some.mpr ⟨hkind, rfl⟩]
    exact if_pos hvalid

theorem evidenceSourceOfRaw_eq_some {raw : UInt8} {source : EvidenceSource} :
    evidenceSourceOfRaw raw = some source ↔ source ≠ .unknown ∧ raw = evidenceSourceRaw source := by
  constructor
  · intro hsource
    unfold evidenceSourceOfRaw at hsource
    split at hsource <;> cases hsource <;> exact ⟨by decide, rfl⟩
  · rintro ⟨hsource, rfl⟩
    cases source <;> first | rfl | exact absurd rfl hsource

/-! ## Sizes -/

namespace Wire

/-- The number of bytes a value takes. -/
def size {A : Type} (format : Wire A) (value : A) : ℕ := (format.write value).flatten.length

@[simp]
theorem size_pair {A B : Type} (first : Wire A) (second : Wire B) (value : A × B) :
    size (first.pair second) value = size first value.1 + size second value.2 := by
  rw [size, Format.pair, List.flatten_append, List.length_append]
  rfl

@[simp]
theorem size_u8 (value : UInt8) : size u8 value = 1 := rfl

@[simp]
theorem size_u16 (value : UInt16) : size u16 value = 2 := rfl

@[simp]
theorem size_u32 (value : UInt32) : size u32 value = 4 := rfl

@[simp]
theorem size_u64 (value : UInt64) : size u64 value = 8 := rfl

@[simp]
theorem size_boolean (value : Bool) : size boolean value = 1 := rfl

@[simp]
theorem size_string (value : Bytes) : size string value = 4 + value.length := by
  simp [size, string, writeString]

end Wire

/-! ## Canonicity -/

/-- The codec is canonical for the values that it can carry. -/
structure Canonical {A : Type} (encode : A → Bytes) (decode : Bytes → Result A)
    (Carried : A → Prop) : Prop where
  decode_encode : ∀ value, Carried value → decode (encode value) = .ok value
  encode_decode : ∀ payload value, decode payload = .ok value → encode value = payload
  distinct : ∀ left right value, decode left = .ok value → decode right = .ok value → left = right

theorem readFields_eq_ok {Raw : Type} {format : Wire Raw} {payload : Bytes} {fields : Raw} :
    readFields format payload = .ok fields ↔
      format.Fits fields ∧ payload = (format.write fields).flatten := by
  rw [← Format.read_eq_ok, readFields, decodeWith]
  cases hread : format.read payload with
  | error status =>
    change ((format.read payload).bind _).map _ = _ ↔ _
    rw [hread]
    exact iff_of_false (fun hfailed => nomatch hfailed) (fun hfailed => nomatch hfailed)
  | ok read =>
    obtain ⟨value, rest⟩ := read
    rw [bind_of_ok hread, Except.ok.injEq, Prod.mk.injEq]
    cases rest with
    | nil =>
      change Except.ok value = Except.ok fields ↔ _
      rw [Except.ok.injEq, and_iff_left rfl]
    | cons byte rest =>
      exact iff_of_false (fun hfailed => nomatch hfailed) (fun hfields => nomatch hfields.2)

/-- A codec that writes the fields of a value within the budget, and takes back exactly the
fields of the values it can carry, is canonical. -/
theorem canonical_of {Raw A : Type} {format : Wire Raw} {budget : ℕ} {fieldsOf : A → Raw}
    {check : Raw → Result A} {Carried : A → Prop}
    (hcheck : ∀ fields value, format.Fits fields →
      (check fields = .ok value ↔ Carried value ∧ fields = fieldsOf value))
    (hfits : ∀ value, Carried value → format.Fits (fieldsOf value) ∧
      format.size (fieldsOf value) ≤ budget) :
    Canonical (fun value => written budget (format.write (fieldsOf value)))
      (fun payload => readFields format payload >>= check) Carried := by
  have hdecode (payload : Bytes) (value : A)
      (hread : (readFields format payload >>= check) = .ok value) :
      written budget (format.write (fieldsOf value)) = payload := by
    obtain ⟨fields, hfields, hchecked⟩ := result_bind_eq_ok.mp hread
    obtain ⟨hfit, rfl⟩ := readFields_eq_ok.mp hfields
    obtain ⟨hcarried, rfl⟩ := (hcheck fields value hfit).mp hchecked
    exact written_eq_flatten (hfits value hcarried).2
  refine ⟨fun value hcarried => ?_, hdecode, fun left right value hleft hright => ?_⟩
  · obtain ⟨hfit, hroom⟩ := hfits value hcarried
    refine result_bind_eq_ok.mpr ⟨fieldsOf value, ?_, (hcheck _ value hfit).mpr ⟨hcarried, rfl⟩⟩
    exact readFields_eq_ok.mpr ⟨hfit, written_eq_flatten hroom⟩
  · rw [← hdecode left value hleft, hdecode right value hright]

/-! ### The codecs -/

theorem canonical_helloRequest : Canonical encodeHelloRequest decodeHelloRequest
    fun request => request.principal.length ≤ maxMessageBytes := by
  apply canonical_of
  · rintro ⟨version, principal⟩ request ⟨-, hprincipal⟩
    constructor
    · intro hchecked
      cases hchecked
      exact ⟨hprincipal, by rw [boundedMessage_of_le hprincipal]⟩
    · rintro ⟨hlength, hfields⟩
      rw [boundedMessage_of_le hlength] at hfields
      cases hfields
      rfl
  · intro request hlength
    rw [boundedMessage_of_le hlength]
    refine ⟨⟨trivial, hlength⟩, ?_⟩
    simp only [helloRequestWire, Wire.size_pair, Wire.size_u16, Wire.size_string, textBudget]
    omega

theorem canonical_helloResponse : Canonical encodeHelloResponse decodeHelloResponse
    fun response => response.outcome = .ok →
      response.session.valid = true ∧ response.epoch.valid = true := by
  apply canonical_of
  · rintro ⟨outcome, session, epoch, bootDigest, formatVersion, maxPayload⟩ response -
    simp only [result_bind_eq_ok, knownCode_eq_ok, require_eq_ok]
    constructor
    · rintro ⟨code, rfl, -, haccepted, hresponse⟩
      cases hresponse
      exact ⟨by simpa [imp_iff_not_or] using haccepted, rfl⟩
    · rintro ⟨hcarried, hfields⟩
      cases hfields
      exact ⟨response.outcome, rfl, (), by simpa [imp_iff_not_or] using hcarried, rfl⟩
  · intro response _
    exact ⟨⟨trivial, trivial, trivial, trivial, trivial, trivial⟩,
      by simp [helloResponseWire, fixedPayloadBudget]⟩

/-- A request that names a dependent and nothing else. -/
theorem canonical_dependent {Request : Type} {wrap : DependentRef → Request}
    {dependentOf : Request → DependentRef} (hwrap : ∀ dependent, dependentOf (wrap dependent) =
      dependent) (hunwrap : ∀ request, wrap (dependentOf request) = request) :
    Canonical (fun request => written fixedPayloadBudget
        (dependentWire.write ((dependentOf request).kind.raw, (dependentOf request).id)))
      (fun payload => do
        let (kind, id) ← readFields dependentWire payload
        let dependent ← knownDependent kind id
        pure (wrap dependent))
      fun request => (dependentOf request).valid = true := by
  apply canonical_of
  · rintro ⟨kind, id⟩ request -
    simp only [result_bind_eq_ok, knownDependent_eq_ok]
    constructor
    · rintro ⟨dependent, hdependent, hrequest⟩
      cases hrequest
      rw [hwrap]
      exact hdependent
    · intro hrequest
      exact ⟨dependentOf request, hrequest, congrArg Except.ok (hunwrap request)⟩
  · intro request _
    exact ⟨⟨trivial, trivial⟩, by simp [dependentWire, fixedPayloadBudget]⟩

theorem canonical_authorityQuery : Canonical encodeAuthorityQuery decodeAuthorityQuery
    fun request => request.dependent.valid = true :=
  canonical_dependent (fun _ => rfl) fun _ => rfl

theorem canonical_authorityResponse :
    Canonical encodeAuthorityResponse decodeAuthorityResponse fun _ => True := by
  apply canonical_of
  · rintro ⟨outcome, reason, hasAuthority, activeGrants, withdrawnGrants, fencedGenerations,
      digest⟩ response -
    simp only [result_bind_eq_ok, knownCode_eq_ok]
    constructor
    · rintro ⟨outcome, rfl, reason, rfl, hresponse⟩
      cases hresponse
      exact ⟨trivial, rfl⟩
    · rintro ⟨-, hfields⟩
      cases hfields
      exact ⟨response.outcome, rfl, response.reason, rfl, rfl⟩
  · intro response _
    exact ⟨⟨trivial, trivial, trivial, trivial, trivial, trivial, trivial⟩,
      by simp [authorityResponseWire, fixedPayloadBudget]⟩

theorem canonical_failoverRequest : Canonical encodeFailoverRequest decodeFailoverRequest
    fun request => request.subject.valid = true ∧ request.source ≠ .unknown ∧
      request.reason.length ≤ maxMessageBytes := by
  apply canonical_of
  · rintro ⟨id, generation, source, observedAtNs, validForNs, reason⟩ request
      ⟨-, -, -, -, -, hreason⟩
    constructor
    · intro hchecked
      dsimp only at hchecked
      split at hchecked
      · cases hchecked
      · rename_i known hknown
        obtain ⟨_, hsubject, hrequest⟩ := result_bind_eq_ok.mp hchecked
        obtain ⟨hsource, rfl⟩ := evidenceSourceOfRaw_eq_some.mp hknown
        cases hrequest
        exact ⟨⟨(require_eq_ok _ _ _ _).mp hsubject, hsource, hreason⟩,
          by rw [boundedMessage_of_le hreason]⟩
    · rintro ⟨⟨hsubject, hsource, hlength⟩, hfields⟩
      rw [boundedMessage_of_le hlength] at hfields
      cases hfields
      dsimp only
      rw [evidenceSourceOfRaw_eq_some.mpr ⟨hsource, rfl⟩]
      exact result_bind_eq_ok.mpr ⟨(), (require_eq_ok _ _ _ _).mpr hsubject, rfl⟩
  · rintro request ⟨-, -, hlength⟩
    rw [boundedMessage_of_le hlength]
    refine ⟨⟨trivial, trivial, trivial, trivial, trivial, hlength⟩, ?_⟩
    simp only [failoverRequestWire, Wire.size_pair, Wire.size_u64, Wire.size_u8,
      Wire.size_string, textBudget]
    omega

theorem canonical_failoverResponse :
    Canonical encodeFailoverResponse decodeFailoverResponse fun _ => True := by
  apply canonical_of
  · rintro ⟨outcome, fenceId, fenceScope, closureComplete, closureMembers, grantsFenced,
      closureDigest⟩ response -
    simp only [result_bind_eq_ok, knownCode_eq_ok]
    constructor
    · rintro ⟨outcome, rfl, hresponse⟩
      cases hresponse
      exact ⟨trivial, rfl⟩
    · rintro ⟨-, hfields⟩
      cases hfields
      exact ⟨response.outcome, rfl, rfl⟩
  · intro response _
    exact ⟨⟨trivial, trivial, trivial, trivial, trivial, trivial, trivial⟩,
      by simp [failoverResponseWire, fixedPayloadBudget]⟩

theorem canonical_restoreQuery : Canonical encodeRestoreQuery decodeRestoreQuery
    fun request => request.dependent.valid = true :=
  canonical_dependent (fun _ => rfl) fun _ => rfl

theorem canonical_restoreResponse :
    Canonical encodeRestoreResponse decodeRestoreResponse fun _ => True := by
  apply canonical_of
  · rintro ⟨outcome, reason, mayRestore, effectVerified, blockingGenerations⟩ response -
    simp only [result_bind_eq_ok, knownCode_eq_ok]
    constructor
    · rintro ⟨outcome, rfl, reason, rfl, hresponse⟩
      cases hresponse
      exact ⟨trivial, rfl⟩
    · rintro ⟨-, hfields⟩
      cases hfields
      exact ⟨response.outcome, rfl, response.reason, rfl, rfl⟩
  · intro response _
    exact ⟨⟨trivial, trivial, trivial, trivial, trivial⟩,
      by simp [restoreResponseWire, fixedPayloadBudget]⟩

theorem canonical_snapshotResponse :
    Canonical encodeSnapshotResponse decodeSnapshotResponse fun _ => True := by
  apply canonical_of
  · rintro ⟨outcome, epoch, bootOrdinal, switches, fences, failures, activeGrants,
      retainedEvents, durabilityEnabled⟩ response -
    simp only [result_bind_eq_ok, knownCode_eq_ok]
    constructor
    · rintro ⟨outcome, rfl, hresponse⟩
      cases hresponse
      exact ⟨trivial, rfl⟩
    · rintro ⟨-, hfields⟩
      cases hfields
      exact ⟨response.outcome, rfl, rfl⟩
  · intro response _
    exact ⟨⟨trivial, trivial, trivial, trivial, trivial, trivial, trivial, trivial, trivial⟩,
      by simp [snapshotResponseWire, fixedPayloadBudget]⟩

theorem canonical_errorPayload :
    Canonical (fun report => encodeErrorPayload report.1 report.2) decodeErrorPayload
      fun report => report.2.length ≤ maxMessageBytes := by
  apply canonical_of
  · rintro ⟨code, detail⟩ ⟨known, kept⟩ ⟨-, hdetail⟩
    simp only [result_bind_eq_ok, knownCode_eq_ok]
    constructor
    · rintro ⟨code, rfl, hreport⟩
      cases hreport
      exact ⟨hdetail, by rw [boundedMessage_of_le hdetail]⟩
    · rintro ⟨hlength, hfields⟩
      rw [boundedMessage_of_le hlength] at hfields
      cases hfields
      exact ⟨known, rfl, rfl⟩
  · rintro ⟨known, kept⟩ hlength
    rw [boundedMessage_of_le hlength]
    refine ⟨⟨trivial, hlength⟩, ?_⟩
    simp only [errorWire, Wire.size_pair, Wire.size_u16, Wire.size_string, textBudget]
    dsimp only at hlength
    omega

/-- Every payload codec gives back the values it can carry, and the bytes of a payload that
it accepts are the encoding of what they are decoded to. -/
theorem payloads_canonical :
    (Canonical encodeHelloRequest decodeHelloRequest fun request =>
      request.principal.length ≤ maxMessageBytes) ∧
    (Canonical encodeHelloResponse decodeHelloResponse fun response =>
      response.outcome = .ok → response.session.valid = true ∧ response.epoch.valid = true) ∧
    (Canonical encodeAuthorityQuery decodeAuthorityQuery fun request =>
      request.dependent.valid = true) ∧
    (Canonical encodeAuthorityResponse decodeAuthorityResponse fun _ => True) ∧
    (Canonical encodeFailoverRequest decodeFailoverRequest fun request =>
      request.subject.valid = true ∧ request.source ≠ .unknown ∧
        request.reason.length ≤ maxMessageBytes) ∧
    (Canonical encodeFailoverResponse decodeFailoverResponse fun _ => True) ∧
    (Canonical encodeRestoreQuery decodeRestoreQuery fun request =>
      request.dependent.valid = true) ∧
    (Canonical encodeRestoreResponse decodeRestoreResponse fun _ => True) ∧
    (Canonical encodeSnapshotResponse decodeSnapshotResponse fun _ => True) ∧
    Canonical (fun report => encodeErrorPayload report.1 report.2) decodeErrorPayload fun report =>
      report.2.length ≤ maxMessageBytes :=
  ⟨canonical_helloRequest, canonical_helloResponse, canonical_authorityQuery,
    canonical_authorityResponse, canonical_failoverRequest, canonical_failoverResponse,
    canonical_restoreQuery, canonical_restoreResponse, canonical_snapshotResponse,
    canonical_errorPayload⟩

end SwitchFailover.Transport
