import SwitchFailover.Model.Authority
import SwitchFailover.Plan.Plan

/-!
# Durable records

A record is a 28-byte header with its own checksum, a payload, and the payload's
checksum.  A byte range either holds a whole checked record, or is a genuine
beginning of one, or is refused.
-/

namespace SwitchFailover.Persist

open SwitchFailover.Core Codec Model Plan Library.Codec

/-! ## Framing -/

def recordMagic : UInt32 := 0x31464653

def magicBytes : Bytes := [0x53, 0x46, 0x46, 0x31]

def recordFormatVersion : UInt16 := 1

def recordHeaderBytes : ℕ := 28

def maxRecordPayload : ℕ := 16 * 2 ^ 20

inductive RecordKind
  | unknown | streamHeader | epochAdvance | bootRegistered | topologyInstalled
  | policyInstalled | failureCommitted | fenceCommitted | grantMinted | grantWithdrawn
  | planCommitted | applyCompleted | restoreDecided | checkpoint | shutdownClean
  deriving DecidableEq

def RecordKind.raw (kind : RecordKind) : UInt16 := kind.ctorIdx.toUInt16

def RecordKind.ofRaw (raw : UInt16) : Option RecordKind :=
  [.unknown, .streamHeader, .epochAdvance, .bootRegistered, .topologyInstalled,
    .policyInstalled, .failureCommitted, .fenceCommitted, .grantMinted, .grantWithdrawn,
    .planCommitted, .applyCompleted, .restoreDecided, .checkpoint, .shutdownClean][raw.toNat]?

def isValidRecordKind (raw : UInt16) : Bool := 1 ≤ raw && raw ≤ 14

/-- The kind field is kept as the number on disk: a header is decoded before its
kind is known to be defined. -/
structure RecordHeader where
  magic : UInt32 := recordMagic
  formatVersion : UInt16 := recordFormatVersion
  kind : UInt16 := 0
  flags : UInt32 := 0
  seq : UInt64 := 0
  payloadLen : UInt32 := 0
  headerCrc : UInt32 := 0
  deriving DecidableEq

structure Record where
  header : RecordHeader
  payload : Bytes
  deriving DecidableEq

namespace RecordHeader

/-- The 24 bytes the header checksum covers. -/
def checkedBytes (header : RecordHeader) : Bytes :=
  storeLe 4 header.magic.toNat ++ storeLe 2 header.formatVersion.toNat ++
    storeLe 2 header.kind.toNat ++ storeLe 4 header.flags.toNat ++
    storeLe 8 header.seq.toNat ++ storeLe 4 header.payloadLen.toNat

def computeCrc (header : RecordHeader) : UInt32 := crc32Ieee header.checkedBytes

def encode (header : RecordHeader) : Bytes :=
  header.checkedBytes ++ storeLe 4 header.headerCrc.toNat

def payloadCeiling (limits : Limits) : ℕ := min limits.maxDocumentBytes maxRecordPayload

def validate (header : RecordHeader) (limits : Limits) : Result Unit := do
  require (header.magic == recordMagic) .corrupt (text "record magic does not match")
  require (header.formatVersion == recordFormatVersion) .versionMismatch
    (text "record format version is not supported")
  require (isValidRecordKind header.kind) .unsupported
    (text "record kind is not defined by this build")
  require (header.payloadLen.toNat ≤ payloadCeiling limits) .corrupt
    (text "record declares an impossible payload length")
  require (header.computeCrc == header.headerCrc) .corrupt
    (text "record header integrity check failed")

/-- The fields of a 28-byte header. -/
def parse (bytes : Bytes) : RecordHeader where
  magic := (loadLe (bytes.take 4)).toUInt32
  formatVersion := (loadLe ((bytes.drop 4).take 2)).toUInt16
  kind := (loadLe ((bytes.drop 6).take 2)).toUInt16
  flags := (loadLe ((bytes.drop 8).take 4)).toUInt32
  seq := (loadLe ((bytes.drop 12).take 8)).toUInt64
  payloadLen := (loadLe ((bytes.drop 20).take 4)).toUInt32
  headerCrc := (loadLe ((bytes.drop 24).take 4)).toUInt32

end RecordHeader

/-- Every way a byte range can be interpreted.  A torn tail carries its header
when the header itself was complete. -/
inductive DecodeResult
  | complete (record : Record) (consumed : ℕ)
  | tornTail (header : Option RecordHeader) (consumed : ℕ)
  | corrupt (status : Status)
  | unsupported (status : Status)

def refusedHeader (status : Status) : DecodeResult :=
  if status.code = .versionMismatch ∨ status.code = .unsupported then .unsupported status
  else .corrupt status

/-- The part of decoding that follows a valid header. -/
def decodeBody (header : RecordHeader) (data : Bytes) : DecodeResult :=
  let length := header.payloadLen.toNat
  let total := recordHeaderBytes + length + 4
  if data.length < total then .tornTail (some header) data.length
  else
    let payload := (data.drop recordHeaderBytes).take length
    let stored := loadLe ((data.drop (recordHeaderBytes + length)).take 4)
    if stored.toUInt32 ≠ crc32Ieee payload then
      .corrupt (Status.failure .corrupt (text
        "record payload integrity check failed; the record is refused, not truncated"))
    else .complete ⟨header, payload⟩ total

def decodeRecord (data : Bytes) (limits : Limits) : DecodeResult :=
  if data.isEmpty then .tornTail none 0
  else if !(data.take 4).isPrefixOf magicBytes then
    .corrupt (Status.failure .corrupt (text "record does not begin with the SFF1 magic"))
  else if data.length < recordHeaderBytes then .tornTail none data.length
  else
    let header := RecordHeader.parse (data.take recordHeaderBytes)
    match header.validate limits with
    | .error status => refusedHeader status
    | .ok () => decodeBody header data

/-- The header as it is written: checksum and payload length are filled in. -/
def finishHeader (record : Record) : RecordHeader :=
  let header := { record.header with
    magic := recordMagic
    formatVersion := recordFormatVersion
    payloadLen := record.payload.length.toUInt32 }
  { header with headerCrc := header.computeCrc }

def encodeRecord (record : Record) (limits : Limits) : Result Bytes := do
  let ceiling := RecordHeader.payloadCeiling limits
  requireWithin (text "record payload") record.payload.length ceiling
  let header := finishHeader record
  header.validate limits
  pure (header.encode ++ record.payload ++ storeLe 4 (crc32Ieee record.payload).toNat)

/-! ## Payloads -/

def payloadFormatTag : UInt8 := 1

def readTag : ByteReader Unit := do
  let tag ← readU8
  readRequire (tag == payloadFormatTag) .versionMismatch
    (text "payload format tag is unsupported")

def encodeStreamHeader (epoch : CoordinatorEpoch) (boot : BootIncarnation) : Bytes :=
  written defaultWriterLimit (writeU8 payloadFormatTag ++ writeU16 recordFormatVersion ++
    writeU64 boot.bootOrdinal ++ writeU64 boot.processId ++ writeU64 epoch.raw ++
    writeU64 boot.nonceHi ++ writeU64 boot.nonceLo)

/-- What `open` takes from a stream header; tag and version are skipped, and
trailing bytes are ignored. -/
def readStreamHeader : ByteReader (CoordinatorEpoch × BootIncarnation) := do
  let _ ← readU8
  let _ ← readU16
  let bootOrdinal ← readU64
  let processId ← readU64
  let epoch ← readU64
  let nonceHi ← readU64
  let nonceLo ← readU64
  pure (⟨epoch⟩, ⟨processId, bootOrdinal, nonceHi, nonceLo⟩)

def encodeU64Payload (value : UInt64) : Bytes :=
  written defaultWriterLimit (writeU8 payloadFormatTag ++ writeU64 value)

def failureChunks (record : FailureRecord) : List Bytes :=
  writeU8 payloadFormatTag ++ writeKey record.subject ++ writeU64 record.evidence.raw ++
    writeU64 record.epoch.raw ++ writeBoot record.boot ++ writeU64 record.observedAtNs ++
    writeU64 record.recordedAtNs ++ writeString record.reason

def encodeFailureRecord (record : FailureRecord) : Bytes :=
  written defaultWriterLimit (failureChunks record)

def readFailureFields : ByteReader FailureRecord := do
  readTag
  let subject ← readKey
  let evidence ← readU64
  let epoch ← readU64
  let boot ← readBoot
  let observedAtNs ← readU64
  let recordedAtNs ← readU64
  let reason ← readString defaultElementLimit
  pure { subject, evidence := ⟨evidence⟩, epoch := ⟨epoch⟩, boot, observedAtNs
         recordedAtNs, reason }

def decodeFailureRecord (payload : Bytes) : Result FailureRecord :=
  decodeWith (do
    let record ← readFailureFields
    requireEnd
    readRequire (record.subject.valid && record.observedAtNs != 0) .invalid
      (text "durable failure record is not a valid lineage entry")
    pure record) payload

def FenceScopeState.raw (state : FenceScopeState) : UInt8 := state.ctorIdx.toUInt8

def fenceScopeOfRaw (raw : UInt8) : Option FenceScopeState :=
  [FenceScopeState.openScope, .partialScope, .committed][raw.toNat]?

def fenceChunks (record : FenceRecord) : List Bytes :=
  writeU8 payloadFormatTag ++ writeU64 record.id.raw ++ writeKey record.subject ++
    writeU64 record.epoch.raw ++ writeBoot record.boot ++ writeU64 record.createdAtNs ++
    writeU8 (FenceScopeState.raw record.scopeState) ++ writeU64 record.closureDigest ++
    writeU64 record.closureMembers ++ writeU64 record.fencedGrants ++
    writeU64 record.omittedDependents ++ writeString record.reason

def encodeFenceRecord (record : FenceRecord) : Bytes :=
  written defaultWriterLimit (fenceChunks record)

def readFenceFields : ByteReader FenceRecord := do
  readTag
  let id ← readU64
  let subject ← readKey
  let epoch ← readU64
  let boot ← readBoot
  let createdAtNs ← readU64
  let scope ← readU8
  let closureDigest ← readU64
  let closureMembers ← readU64
  let fencedGrants ← readU64
  let omittedDependents ← readU64
  let reason ← readString defaultElementLimit
  match fenceScopeOfRaw scope with
  | none =>
      readFailure .invalid (text "durable fence record has an undefined scope state")
  | some scopeState =>
      pure { id := ⟨id⟩, subject, epoch := ⟨epoch⟩, boot, createdAtNs, scopeState
             closureDigest, closureMembers, fencedGrants, omittedDependents, reason }

def decodeFenceRecord (payload : Bytes) : Result FenceRecord :=
  decodeWith (do
    let record ← readFenceFields
    requireEnd
    readRequire record.subject.valid .invalid
      (text "durable fence record is not generation-qualified")
    pure record) payload

def grantStateOfRaw (raw : UInt8) : Option GrantState :=
  [GrantState.unknown, .active, .stale, .revoked, .expired, .fenced][raw.toNat]?

def revocationCauseOfRaw (raw : UInt8) : Option RevocationCause :=
  [RevocationCause.unknown, .superseded, .fence, .restart, .expiry, .operatorRevocation,
    .revalidationFailed, .shutdown][raw.toNat]?

/-- The element limit the grant and receipt decoders set. -/
def listElementLimit : ℕ := 2 ^ 20

def durableDependentMessage : Bytes := text "durable dependent kind is not defined"

def grantChunks (grant : AuthorityGrant) : List Bytes :=
  writeU8 payloadFormatTag ++ writeU64 grant.id.raw ++ writeDependent grant.dependent ++
    writeCount grant.bound.size ++ grant.bound.keys.flatMap writeKey ++
    writeU64 grant.epoch.raw ++ writeBoot grant.boot ++ writeU64 grant.attempt.raw ++
    writeU64 grant.grantedAtNs ++ writeU64 grant.expiresAtNs ++
    writeU8 grant.state.ctorIdx.toUInt8 ++ writeU8 grant.cause.ctorIdx.toUInt8 ++
    writeString grant.detail

def encodeGrantRecord (grant : AuthorityGrant) : Bytes :=
  written defaultWriterLimit (grantChunks grant)

def decodeGrantRecord (payload : Bytes) : Result AuthorityGrant :=
  decodeWith (do
    readTag
    let id ← readU64
    let dependent ← readDependent durableDependentMessage
    let count ← readListCount listElementLimit 16
    let keys ← readMany readKey count
    let epoch ← readU64
    let boot ← readBoot
    let attempt ← readU64
    let grantedAtNs ← readU64
    let expiresAtNs ← readU64
    let state ← readU8
    let cause ← readU8
    let detail ← readString listElementLimit
    let state ← ReconstructionPlan.readDefined grantStateOfRaw state
      (text "durable grant record has an undefined state")
    let cause ← ReconstructionPlan.readDefined revocationCauseOfRaw cause
      (text "durable grant record has an undefined cause")
    requireEnd
    readRequire (id != 0 && dependent.valid) .invalid
      (text "durable grant record is malformed")
    pure { id := ⟨id⟩, dependent, bound := GenerationVector.canonicalise keys
           epoch := ⟨epoch⟩, boot, attempt := ⟨attempt⟩, grantedAtNs, expiresAtNs, state
           cause, detail }) payload

/-- The cause is the ordinal of a cause, checked when it is read. -/
structure WithdrawRecord where
  grant : GrantId := default
  cause : UInt8 := 0
  detail : Bytes := []
  deriving DecidableEq

def withdrawChunks (record : WithdrawRecord) : List Bytes :=
  writeU8 payloadFormatTag ++ writeU64 record.grant.raw ++ writeU8 record.cause ++
    writeString record.detail

def encodeWithdrawRecord (record : WithdrawRecord) : Bytes :=
  written defaultWriterLimit (withdrawChunks record)

def decodeWithdrawRecord (payload : Bytes) : Result WithdrawRecord :=
  decodeWith (do
    readTag
    let grant ← readU64
    let cause ← readU8
    let detail ← readString defaultElementLimit
    readRequire (decide (cause ≤ RevocationCause.shutdown.ctorIdx.toUInt8)) .invalid
      (text "withdraw record has an undefined cause")
    requireEnd
    readRequire (grant != 0) .invalid (text "withdraw record names no grant")
    pure { grant := ⟨grant⟩, cause, detail }) payload

def writeApplyStep (step : ApplyStepResult) : List Bytes :=
  writeDependent step.dependent ++ writeKey step.replacement ++ writeU8 step.state.raw ++
    writeU64 step.attempt.raw ++ writeU64 step.verification.raw ++ writeString step.detail

def encodeApplyReceipt (receipt : ApplyReceipt) : Bytes :=
  written defaultWriterLimit (writeU8 payloadFormatTag ++ writeU64 receipt.plan.raw ++
    writeU64 receipt.epoch.raw ++ writeBoot receipt.boot ++ writeCount receipt.steps.length ++
    receipt.steps.flatMap writeApplyStep ++ writeSize receipt.applied ++
    writeSize receipt.verified ++ writeSize receipt.failed ++ writeSize receipt.unverified ++
    writeBoolean receipt.complete ++ writeU16 receipt.outcome.raw)

def readApplyStep : ByteReader ApplyStepResult := do
  let dependent ← readDependent durableDependentMessage
  let replacement ← readKey
  let state ← readU8
  let attempt ← readU64
  let verification ← readU64
  let detail ← readString listElementLimit
  let state ← ReconstructionPlan.readDefined AckState.ofRaw state
    (text "apply receipt step has an undefined state")
  pure { dependent, replacement, state, attempt := ⟨attempt⟩
         verification := ⟨verification⟩, detail }

/-- A receipt as the journal holds it: the counters are 64-bit numbers, and the outcome is the
number of a code, which is not checked when it is read. -/
structure StoredReceipt where
  plan : PlanId
  epoch : CoordinatorEpoch
  boot : BootIncarnation
  steps : List ApplyStepResult
  applied : UInt64
  verified : UInt64
  failed : UInt64
  unverified : UInt64
  complete : Bool
  outcome : UInt16
  deriving DecidableEq

/-- The receipt that is stored, if its outcome is an assigned code. -/
def StoredReceipt.receipt (stored : StoredReceipt) : Option ApplyReceipt :=
  (Code.ofRaw stored.outcome).map fun outcome =>
    { plan := stored.plan, epoch := stored.epoch, boot := stored.boot, steps := stored.steps
      applied := stored.applied.toNat, verified := stored.verified.toNat
      failed := stored.failed.toNat, unverified := stored.unverified.toNat
      complete := stored.complete, outcome }

/-- `decode_apply_receipt` with all that it returns; the sum of the counters wraps. -/
def decodeStoredReceipt (payload : Bytes) : Result StoredReceipt :=
  decodeWith (do
    readTag
    let plan ← readU64
    let epoch ← readU64
    let boot ← readBoot
    let count ← readListCount listElementLimit 32
    let steps ← readMany readApplyStep count
    let applied ← readU64
    let verified ← readU64
    let failed ← readU64
    let unverified ← readU64
    let complete ← readBoolean
    let outcome ← readU16
    requireEnd
    readRequire ((applied + verified + failed + unverified).toNat ≤ steps.length * 2) .invalid
      (text "apply receipt counters are inconsistent")
    pure { plan := ⟨plan⟩, epoch := ⟨epoch⟩, boot, steps, applied, verified, failed, unverified
           complete, outcome }) payload

/-- The plan and the steps of a receipt: all that `open` uses of it. -/
def decodeApplyReceipt (payload : Bytes) : Result (PlanId × List ApplyStepResult) :=
  (decodeStoredReceipt payload).map fun stored => (stored.plan, stored.steps)

end SwitchFailover.Persist
