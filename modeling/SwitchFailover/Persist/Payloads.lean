import SwitchFailover.Persist.Records

/-!
# Round trips of the lineage payloads

Failure records, fence records and stream headers are what a restart depends on.
Each is read back from its encoding; the two conditions on a failure or a fence
record are the ones its decoder checks, and a reason within the message budget.
-/

namespace SwitchFailover.Persist

open SwitchFailover.Core Codec Model Plan Library.Codec

variable {payload : Bytes} {record : FailureRecord} {steps : List ApplyStepResult}

variable {bytes message : Bytes} {code : Code} {receipt : ApplyReceipt} {A : Type} {value : A}
  {fields : ByteReader A}

/-- Running a reader over exactly the bytes it reads. -/
theorem decodeWith_reads {reader : ByteReader A} (hreads : Reads reader bytes value) :
    decodeWith reader bytes = .ok value := by
  have hread := hreads []
  rw [List.append_nil] at hread
  rw [decodeWith, hread]
  rfl

/-- The end of the payload, after which the value is only checked. -/
theorem requireEnd_bind (next : Unit → ByteReader A) :
    (requireEnd >>= next) [] = next () [] := rfl

theorem readRequire_bind {condition : Bool} {code : Code} {message : Bytes}
    (hcondition : condition = true) (next : Unit → ByteReader A) (bytes : Bytes) :
    (readRequire condition code message >>= next) bytes = next () bytes := by
  rw [readRequire, if_pos hcondition]
  rfl

theorem decodeWith_bind {B : Type} {next : A → ByteReader B} {bytes : Bytes}
    (hreads : Reads fields bytes value) :
    decodeWith (fields >>= next) bytes = (next value []).map Prod.fst := by
  rw [decodeWith, ← List.append_nil bytes, hreads.bind_apply]

/-- The common end of the payload decoders: nothing may follow, and the value must
pass a check. -/
theorem decodeWith_checked {bytes : Bytes} {accept : A → Bool} {code : Code} {message : Bytes}
    (hreads : Reads fields bytes value) (haccept : accept value = true) :
    decodeWith (do
      let read ← fields
      requireEnd
      readRequire (accept read) code message
      pure read) bytes = .ok value := by
  rw [decodeWith_bind hreads, requireEnd_bind, readRequire_bind haccept]
  rfl

/-- Nothing may follow the fields. -/
theorem decodeWith_end {bytes : Bytes} (hreads : Reads fields bytes value) :
    decodeWith (do
      let read ← fields
      requireEnd
      pure read) bytes = .ok value := by
  rw [decodeWith_bind hreads, requireEnd_bind]
  rfl

/-- What a decoder returns is what its reader can return. -/
theorem returned_of_decodeWith {reader : ByteReader A} (property : A → Prop)
    (hreturns : Returns reader property) (hdecode : decodeWith reader payload = .ok value) :
    property value := by
  rw [decodeWith] at hdecode
  cases hread : reader payload with
  | error status =>
    rw [hread] at hdecode
    cases hdecode
  | ok answer =>
    rw [hread] at hdecode
    cases hdecode
    exact hreturns payload answer.1 answer.2 hread

/-- What such a decoder returns has passed the check. -/
theorem accepted_of_decodeWith {accept : A → Bool} (hdecode : decodeWith (do
      let read ← fields
      requireEnd
      readRequire (accept read) code message
      pure read) payload = .ok value) : accept value = true := by
  refine returned_of_decodeWith (fun read => accept read = true) ?_ hdecode
  refine Returns.bind fun read => Returns.bind fun _ => ?_
  cases haccept : accept read with
  | false =>
    intro bytes value rest hread
    cases hread
  | true => exact Returns.bind fun _ => returns_pure haccept

theorem reads_detail {elementLimit : ℕ} {detail : Bytes} (hdetail : detail.length ≤ maxMessageBytes)
    (hlimit : maxMessageBytes ≤ elementLimit) :
    Reads (readString elementLimit) (writeString detail).flatten detail :=
  reads_string (hdetail.trans hlimit) (lt_of_le_of_lt hdetail (by decide))

theorem reads_tag : Reads readTag (writeU8 payloadFormatTag).flatten () := by
  have htag := (reads_u8 payloadFormatTag).bindPure (fun _ => ())
  exact htag

theorem reads_streamHeader (epoch : CoordinatorEpoch) (boot : BootIncarnation) :
    Reads readStreamHeader (writeU8 payloadFormatTag ++ writeU16 recordFormatVersion ++
        writeU64 boot.bootOrdinal ++ writeU64 boot.processId ++ writeU64 epoch.raw ++
        writeU64 boot.nonceHi ++ writeU64 boot.nonceLo).flatten (epoch, boot) := by
  simp only [List.flatten_append, List.append_assoc]
  exact (reads_u8 _).bind ((reads_u16 _).bind ((reads_u64 boot.bootOrdinal).bind
    ((reads_u64 boot.processId).bind ((reads_u64 epoch.raw).bind
      ((reads_u64 boot.nonceHi).bind ((reads_u64 boot.nonceLo).bindPure _))))))

theorem decode_encodeStreamHeader (epoch : CoordinatorEpoch) (boot : BootIncarnation) :
    decodeWith readStreamHeader (encodeStreamHeader epoch boot) = .ok (epoch, boot) := by
  rw [encodeStreamHeader, written_eq_flatten]
  · exact decodeWith_reads (reads_streamHeader epoch boot)
  · simp [writeU8, writeU16, writeU64, defaultWriterLimit]

theorem reads_failureFields (hreason : record.reason.length ≤ maxMessageBytes) :
    Reads readFailureFields (failureChunks record).flatten record := by
  simp only [failureChunks, List.flatten_append, List.append_assoc]
  exact reads_tag.bind ((reads_key record.subject).bind ((reads_u64 record.evidence.raw).bind
    ((reads_u64 record.epoch.raw).bind ((reads_boot record.boot).bind
      ((reads_u64 record.observedAtNs).bind ((reads_u64 record.recordedAtNs).bind
        ((reads_detail hreason (by decide)).bindPure _)))))))

theorem decode_encodeFailureRecord (hsubject : record.subject.valid = true)
    (hobserved : record.observedAtNs ≠ 0) (hreason : record.reason.length ≤ maxMessageBytes) :
    decodeFailureRecord (encodeFailureRecord record) = .ok record := by
  rw [encodeFailureRecord, written_eq_flatten]
  · exact decodeWith_checked (reads_failureFields hreason) (by simp [hsubject, hobserved])
  · have hbound : record.reason.length ≤ 512 := hreason
    simp [failureChunks, writeU8, writeKey, writeU64, writeBoot, writeString, defaultWriterLimit]
    omega

theorem fenceScopeOfRaw_raw (state : FenceScopeState) :
    fenceScopeOfRaw (FenceScopeState.raw state) = some state := by
  cases state <;> rfl

theorem reads_fenceFields {record : FenceRecord}
    (hreason : record.reason.length ≤ maxMessageBytes) :
    Reads readFenceFields (fenceChunks record).flatten record := by
  simp only [fenceChunks, List.flatten_append, List.append_assoc]
  refine reads_tag.bind ((reads_u64 record.id.raw).bind ((reads_key record.subject).bind
    ((reads_u64 record.epoch.raw).bind ((reads_boot record.boot).bind
      ((reads_u64 record.createdAtNs).bind ((reads_u8 _).bind
        ((reads_u64 record.closureDigest).bind ((reads_u64 record.closureMembers).bind
          ((reads_u64 record.fencedGrants).bind ((reads_u64 record.omittedDependents).bind
            ?_))))))))))
  rw [fenceScopeOfRaw_raw]
  exact (reads_detail hreason (by decide)).bindPure _

theorem decode_encodeFenceRecord {record : FenceRecord} (hsubject : record.subject.valid = true)
    (hreason : record.reason.length ≤ maxMessageBytes) :
    decodeFenceRecord (encodeFenceRecord record) = .ok record := by
  rw [encodeFenceRecord, written_eq_flatten]
  · exact decodeWith_checked (reads_fenceFields hreason) hsubject
  · have hbound : record.reason.length ≤ 512 := hreason
    simp [fenceChunks, writeU8, writeKey, writeU64, writeBoot, writeString, defaultWriterLimit]
    omega

/-! ## Grants, withdrawals and receipts -/

theorem readDefined_bind {B : Type} {ofRaw : UInt8 → Option A} {raw : UInt8}
    (hvalue : ofRaw raw = some value) (message : Bytes) (next : A → ByteReader B) (bytes : Bytes) :
    (ReconstructionPlan.readDefined ofRaw raw message >>= next) bytes = next value bytes := by
  rw [ReconstructionPlan.readDefined, hvalue]
  rfl

theorem grantStateOfRaw_raw (state : GrantState) :
    grantStateOfRaw state.ctorIdx.toUInt8 = some state := by
  cases state <;> rfl

theorem revocationCauseOfRaw_raw (cause : RevocationCause) :
    revocationCauseOfRaw cause.ctorIdx.toUInt8 = some cause := by
  cases cause <;> rfl

theorem decode_encodeGrantRecord {grant : AuthorityGrant} (hid : grant.id.valid = true)
    (hdependent : grant.dependent.valid = true) (hbound : grant.bound.size ≤ listElementLimit)
    (hdetail : grant.detail.length ≤ maxMessageBytes) :
    decodeGrantRecord (encodeGrantRecord grant) = .ok grant := by
  have hlength : byteCount (grantChunks grant) ≤ defaultWriterLimit := by
    have hkeys : grant.bound.keys.length ≤ listElementLimit := hbound
    simp only [grantChunks, byteCount_append, byteCount_u8, byteCount_u64, byteCount_dependent,
      byteCount_count, byteCount_flatMap, byteCount_key, byteCount_boot, byteCount_string,
      List.map_const', List.sum_replicate, smul_eq_mul]
    unfold listElementLimit at hkeys
    unfold maxMessageBytes at hdetail
    unfold defaultWriterLimit
    omega
  rw [encodeGrantRecord, written_eq_flatten hlength, decodeGrantRecord, decodeWith]
  rw [← List.append_nil (grantChunks grant).flatten]
  have hkeys := reads_keys hbound (by decide)
  simp only [grantChunks, GenerationVector.size, List.flatten_append, List.append_assoc]
    at hkeys ⊢
  rw [reads_tag.bind_apply, (reads_u64 _).bind_apply,
    (reads_dependent (DependentRef.kind_of_valid hdependent) _).bind_apply]
  rw [← bind_assoc, ← List.append_assoc (writeCount _).flatten, hkeys.bind_apply]
  rw [(reads_u64 _).bind_apply, (reads_boot _).bind_apply, (reads_u64 _).bind_apply,
    (reads_u64 _).bind_apply, (reads_u64 _).bind_apply, (reads_u8 _).bind_apply,
    (reads_u8 _).bind_apply, (reads_detail hdetail (by decide)).bind_apply,
    readDefined_bind (grantStateOfRaw_raw _), readDefined_bind (revocationCauseOfRaw_raw _),
    requireEnd_bind, readRequire_bind]
  · rw [GenerationVector.canonicalise_keys]
    rfl
  · rw [hdependent, Bool.and_true]
    exact hid

theorem decode_encodeWithdrawRecord {record : WithdrawRecord} (hgrant : record.grant.valid = true)
    (hcause : record.cause ≤ RevocationCause.shutdown.ctorIdx.toUInt8)
    (hdetail : record.detail.length ≤ maxMessageBytes) :
    decodeWithdrawRecord (encodeWithdrawRecord record) = .ok record := by
  have hlength : byteCount (withdrawChunks record) ≤ defaultWriterLimit := by
    simp only [withdrawChunks, byteCount_append, byteCount_u8, byteCount_u64, byteCount_string]
    unfold maxMessageBytes at hdetail
    unfold defaultWriterLimit
    omega
  have hnamed : (record.grant.raw != 0) = true := hgrant
  rw [encodeWithdrawRecord, written_eq_flatten hlength, decodeWithdrawRecord, decodeWith,
    ← List.append_nil (withdrawChunks record).flatten]
  simp only [withdrawChunks, List.flatten_append, List.append_assoc]
  rw [reads_tag.bind_apply, (reads_u64 _).bind_apply, (reads_u8 _).bind_apply,
    (reads_detail hdetail (by decide)).bind_apply, readRequire_bind (decide_eq_true hcause),
    requireEnd_bind, readRequire_bind hnamed]
  rfl

theorem ackStateOfRaw_raw (state : AckState) : AckState.ofRaw state.raw = some state := by
  cases state <;> rfl

/-- A step whose dependent has a defined kind, with a detail within the message budget. -/
def Legible (step : ApplyStepResult) : Prop :=
  step.dependent.kind ≠ .unknown ∧ step.detail.length ≤ maxMessageBytes

theorem reads_applyStep {step : ApplyStepResult} (hstep : Legible step) :
    Reads readApplyStep (writeApplyStep step).flatten step := by
  simp only [writeApplyStep, List.flatten_append, List.append_assoc]
  refine (reads_dependent hstep.1 _).bind ((reads_key _).bind ((reads_u8 _).bind
    ((reads_u64 _).bind ((reads_u64 _).bind ?_))))
  rw [ReconstructionPlan.readDefined, ackStateOfRaw_raw]
  exact (reads_detail hstep.2 (by decide)).bindPure _

theorem byteCount_applyStep (step : ApplyStepResult) :
    byteCount (writeApplyStep step) = 46 + step.detail.length := by
  simp [writeApplyStep]
  omega

theorem reads_applySteps (hcount : steps.length ≤ listElementLimit)
    (hsteps : ∀ step ∈ steps, Legible step) :
    Reads (readListCount listElementLimit 32 >>= readMany readApplyStep)
      (writeCount steps.length ++ steps.flatMap writeApplyStep).flatten steps := by
  refine reads_list hcount (lt_of_le_of_lt hcount (by decide))
    (fun step hstep => reads_applyStep (hsteps step hstep)) fun step _ => ?_
  have hsize := byteCount_applyStep step
  rw [byteCount] at hsize
  omega

/-- A receipt whose counters are 64-bit numbers and consistent, as the decoder adds them up. -/
structure Counted (receipt : ApplyReceipt) : Prop where
  applied : receipt.applied < 2 ^ 64
  verified : receipt.verified < 2 ^ 64
  failed : receipt.failed < 2 ^ 64
  unverified : receipt.unverified < 2 ^ 64
  consistent : (receipt.applied + receipt.verified + receipt.failed + receipt.unverified) % 2 ^ 64 ≤
    receipt.steps.length * 2

/-- The receipt as it is stored. -/
def storedReceipt (receipt : ApplyReceipt) : StoredReceipt where
  plan := receipt.plan
  epoch := receipt.epoch
  boot := receipt.boot
  steps := receipt.steps
  applied := receipt.applied.toUInt64
  verified := receipt.verified.toUInt64
  failed := receipt.failed.toUInt64
  unverified := receipt.unverified.toUInt64
  complete := receipt.complete
  outcome := receipt.outcome.raw

theorem receipt_storedReceipt (hcounted : Counted receipt) :
    (storedReceipt receipt).receipt = some receipt := by
  rw [StoredReceipt.receipt, storedReceipt, Code.ofRaw_eq_some.mpr rfl, Option.map_some]
  dsimp only
  rw [UInt64.toNat_ofNat_of_lt' hcounted.applied, UInt64.toNat_ofNat_of_lt' hcounted.verified,
    UInt64.toNat_ofNat_of_lt' hcounted.failed, UInt64.toNat_ofNat_of_lt' hcounted.unverified]

theorem decode_encodeApplyReceipt (hcounted : Counted receipt)
    (hcount : receipt.steps.length ≤ listElementLimit)
    (hsteps : ∀ step ∈ receipt.steps, Legible step) :
    decodeStoredReceipt (encodeApplyReceipt receipt) = .ok (storedReceipt receipt) := by
  have hread := reads_applySteps hcount hsteps
  have hconsistent : decide ((receipt.applied.toUInt64 + receipt.verified.toUInt64 +
      receipt.failed.toUInt64 + receipt.unverified.toUInt64).toNat ≤ receipt.steps.length * 2) =
      true := by
    have hsum : receipt.applied.toUInt64 + receipt.verified.toUInt64 + receipt.failed.toUInt64 +
        receipt.unverified.toUInt64 = (receipt.applied + receipt.verified + receipt.failed +
          receipt.unverified).toUInt64 := by
      simp only [Nat.toUInt64, UInt64.ofNat_add]
    rw [hsum]
    exact decide_eq_true hcounted.consistent
  rw [encodeApplyReceipt, written_eq_flatten]
  · rw [decodeStoredReceipt, decodeWith]
    nth_rewrite 1 [← List.append_nil (List.flatten _)]
    simp only [List.flatten_append, List.append_assoc] at hread ⊢
    rw [reads_tag.bind_apply, (reads_u64 _).bind_apply, (reads_u64 _).bind_apply,
      (reads_boot _).bind_apply, ← bind_assoc, ← List.append_assoc (writeCount _).flatten,
      hread.bind_apply, writeSize, writeSize, writeSize, writeSize, (reads_u64 _).bind_apply,
      (reads_u64 _).bind_apply, (reads_u64 _).bind_apply, (reads_u64 _).bind_apply,
      (reads_boolean _).bind_apply, (reads_u16 _).bind_apply, requireEnd_bind,
      readRequire_bind hconsistent]
    rfl
  · have hsum : (receipt.steps.map fun step => byteCount (writeApplyStep step)).sum ≤
        receipt.steps.length * 558 := by
      have hbounded := List.sum_le_card_nsmul
        (receipt.steps.map fun step => byteCount (writeApplyStep step)) 558
        (List.forall_mem_map.mpr fun step hstep => by
          have hdetail := (hsteps step hstep).2
          unfold maxMessageBytes at hdetail
          rw [byteCount_applyStep]
          omega)
      rwa [List.length_map, smul_eq_mul] at hbounded
    change byteCount _ ≤ _
    simp only [byteCount_append, byteCount_u8, byteCount_u64, byteCount_boot, byteCount_count,
      byteCount_flatMap, byteCount_size, byteCount_boolean, byteCount_u16]
    unfold listElementLimit at hcount
    unfold defaultWriterLimit
    omega

/-- What is decoded from a receipt names its plan, whether it was cut short or not. -/
theorem plan_of_decode_encodeApplyReceipt {plan : PlanId}
    (hdecode : decodeApplyReceipt (encodeApplyReceipt receipt) = .ok (plan, steps)) :
    plan = receipt.plan := by
  obtain ⟨rest, hrest⟩ : ∃ rest, encodeApplyReceipt receipt =
      (writeU8 payloadFormatTag).flatten ++ ((writeU64 receipt.plan.raw).flatten ++ rest) := by
    have hroom : (writeU8 payloadFormatTag ++ writeU64 receipt.plan.raw).flatten.length ≤
        defaultWriterLimit := by
      rw [defaultWriterLimit]
      simp [writeU8, writeU64]
    rw [encodeApplyReceipt]
    simp only [List.append_assoc]
    rw [← List.append_assoc (writeU8 _)]
    obtain ⟨rest, hrest⟩ := prefix_written _ hroom
    refine ⟨rest, ?_⟩
    rw [← hrest, List.flatten_append, List.append_assoc]
  cases hstored : decodeStoredReceipt (encodeApplyReceipt receipt) with
  | error status =>
    rw [decodeApplyReceipt, hstored] at hdecode
    cases hdecode
  | ok stored =>
    rw [decodeApplyReceipt, hstored] at hdecode
    cases hdecode
    rw [decodeStoredReceipt, decodeWith, hrest, reads_tag.bind_apply, (reads_u64 _).bind_apply,
      ← decodeWith] at hstored
    refine returned_of_decodeWith (fun read => read.plan = receipt.plan) ?_ hstored
    repeat refine Returns.bind fun _ => ?_
    exact returns_pure rfl

end SwitchFailover.Persist
