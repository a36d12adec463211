import SwitchFailover.Plan.Plan

/-!
# What the encoding of a plan says

The state of a plan is one byte at a fixed distance from the end of its encoding, so
that encodings of one plan in different states have the same length, and the identity
is at the start, where it is written even if the encoding is cut short.
-/

namespace SwitchFailover.Plan.ReconstructionPlan

open SwitchFailover.Core SwitchFailover.Codec SwitchFailover.Model
open SwitchFailover.Library.Codec

variable {plan : ReconstructionPlan} {limits : Limits} {raw : UInt8} {bytes rest : Bytes}

/-! ## The bytes -/

/-- What is written before the state of a plan. -/
def headChunks (plan : ReconstructionPlan) : List Bytes :=
  writeU8 planFormatTag ++ writeU64 plan.id.raw ++ writeU64 plan.epoch.raw ++
    writeBoot plan.boot ++
    writeCount plan.failedGenerations.size ++ plan.failedGenerations.keys.flatMap writeKey ++
    writeCount plan.fences.length ++ plan.fences.flatMap writeFenceStep ++
    writeCount plan.restores.length ++ plan.restores.flatMap writeRestoreStep ++
    writeCount plan.unresolved.length ++ plan.unresolved.flatMap writeUnresolved ++
    writeU8 plan.feasibility.raw

/-- What is written after it. -/
def tailChunks (plan : ReconstructionPlan) : List Bytes :=
  writeBoolean plan.closureComplete ++ writeBoolean plan.serviceWithheld ++
    writeU64 plan.topologyDigest ++ writeU64 plan.policyDigest

theorem chunks_inState (plan : ReconstructionPlan) (state : PlanState) :
    (plan.inState state).chunks = plan.headChunks ++ (writeU8 state.raw ++ plan.tailChunks) := by
  simp only [chunks, headChunks, tailChunks, inState, sealed, List.append_assoc]

theorem length_tailChunks (plan : ReconstructionPlan) : plan.tailChunks.flatten.length = 18 := by
  simp [tailChunks, writeBoolean, writeU8, writeU64]

/-- The encoding of the plan is not cut short. -/
def Fits (plan : ReconstructionPlan) : Prop :=
  plan.headChunks.flatten.length + 19 ≤ planWriterLimit

theorem encode_inState (hfits : plan.Fits) (state : PlanState) :
    (plan.inState state).encode =
      plan.headChunks.flatten ++ (state.raw :: plan.tailChunks.flatten) := by
  have hbytes : (plan.inState state).chunks.flatten =
      plan.headChunks.flatten ++ (state.raw :: plan.tailChunks.flatten) := by
    rw [chunks_inState, List.flatten_append, List.flatten_append]
    rfl
  rw [encode, written_eq_flatten, hbytes]
  rw [hbytes, List.length_append, List.length_cons, length_tailChunks]
  exact hfits

/-! ## The identity -/

/-- Every encoding starts with the identity of the plan. -/
theorem exists_encode_eq (plan : ReconstructionPlan) :
    ∃ rest, plan.encode =
      (writeU8 planFormatTag).flatten ++ ((writeU64 plan.id.raw).flatten ++ rest) := by
  have hchunks : plan.chunks =
      (writeU8 planFormatTag ++ writeU64 plan.id.raw) ++ plan.chunks.drop 2 := by
    simp only [chunks, List.append_assoc]
    rfl
  have hroom : (writeU8 planFormatTag ++ writeU64 plan.id.raw).flatten.length ≤
      planWriterLimit := by
    rw [planWriterLimit]
    simp [writeU8, writeU64]
  have hstart := prefix_written (plan.chunks.drop 2) hroom
  rw [← hchunks] at hstart
  obtain ⟨rest, hrest⟩ := hstart
  refine ⟨rest, ?_⟩
  rw [encode, ← hrest, List.flatten_append, List.append_assoc]

/-! ## The state -/

/-- What is read before the state. -/
structure Head where
  id : UInt64
  epoch : UInt64
  boot : BootIncarnation
  failed : List SwitchKey
  fences : List FenceStep
  restores : List RestoreStep
  unresolved : List UnresolvedDependent
  feasibility : UInt8

/-- What is read after it. -/
structure Flags where
  closureComplete : Bool
  serviceWithheld : Bool
  topologyDigest : UInt64
  policyDigest : UInt64

def readHead (elementLimit : ℕ) : ByteReader Head := do
  let tag ← readU8
  readRequire (tag == planFormatTag) .versionMismatch
    (text "reconstruction plan format tag is unsupported")
  let id ← readU64
  let epoch ← readU64
  let boot ← readBoot
  let failedCount ← readListCount elementLimit 16
  let failed ← readMany readKey failedCount
  let fenceCount ← readListCount elementLimit (16 + 8 + 1 + 8 + 8)
  let fences ← readMany readFenceStep fenceCount
  let restoreCount ← readListCount elementLimit (9 + 16 + 1 + 16 + 4)
  let restores ← readMany (readRestoreStep elementLimit) restoreCount
  let unresolvedCount ← readListCount elementLimit (9 + 16 + 1)
  let unresolved ← readMany (readUnresolved elementLimit) unresolvedCount
  let feasibility ← readU8
  pure { id, epoch, boot, failed, fences, restores, unresolved, feasibility }

def readFlags : ByteReader Flags := do
  let closureComplete ← readBoolean
  let serviceWithheld ← readBoolean
  let topologyDigest ← readU64
  let policyDigest ← readU64
  pure { closureComplete, serviceWithheld, topologyDigest, policyDigest }

/-- The checks on what was read. -/
def conclude (head : Head) (state : UInt8) (flags : Flags) : ByteReader ReconstructionPlan := do
  let feasibility ← readDefined PlanFeasibility.ofRaw head.feasibility
    (text "plan has an undefined feasibility value")
  let state ← readDefined PlanState.ofRaw state (text "plan has an undefined state value")
  requireEnd
  readRequire (!(head.failed.filter SwitchKey.valid).isEmpty || !head.fences.isEmpty ||
    !head.restores.isEmpty || !head.unresolved.isEmpty || head.id != 0) .invalid
    (text "decoded plan is empty")
  pure (sealed { id := ⟨head.id⟩, epoch := ⟨head.epoch⟩, boot := head.boot
                 failedGenerations := GenerationVector.canonicalise head.failed
                 fences := head.fences, restores := head.restores
                 unresolved := head.unresolved, feasibility, state
                 closureComplete := flags.closureComplete
                 serviceWithheld := flags.serviceWithheld
                 topologyDigest := flags.topologyDigest
                 policyDigest := flags.policyDigest })

theorem read_eq (elementLimit : ℕ) :
    read elementLimit = (do
      let head ← readHead elementLimit
      let state ← readU8
      let flags ← readFlags
      conclude head state flags) := by
  simp only [read, readHead, readFlags, bind_assoc, pure_bind]
  rfl

theorem consumes_flags : Consumes readFlags 18 := by
  change Consumes readFlags (1 + (1 + (8 + (8 + 0))))
  exact consumes_boolean.bind fun _ => consumes_boolean.bind fun _ => consumes_u64.bind fun _ =>
    consumes_u64.bind fun _ => consumes_pure _

theorem ofRaw_raw (state : PlanState) : PlanState.ofRaw state.raw = some state := by
  cases state <;> rfl

theorem decode_eq_ok {payload : Bytes} :
    decode payload limits = .ok plan ↔
      ∃ rest, read limits.maxPlanSteps payload = .ok (plan, rest) := by
  rw [decode, decodeWith]
  cases read limits.maxPlanSteps payload with
  | error status => simp [Except.map]
  | ok answer => simp [Except.map, Prod.ext_iff, eq_comm]

/-- What is decoded from the encoding of a plan has its identity, whether the encoding
was cut short or not. -/
theorem id_of_decode_encode {decoded : ReconstructionPlan}
    (hdecode : decode plan.encode limits = .ok decoded) : decoded.id = plan.id := by
  obtain ⟨rest, hread⟩ := decode_eq_ok.mp hdecode
  rw [read_eq] at hread
  obtain ⟨head, middle, hhead, hread⟩ := bind_eq_ok.mp hread
  have hid : head.id = plan.id.raw := by
    obtain ⟨body, hbytes⟩ := exists_encode_eq plan
    rw [hbytes, readHead, (reads_u8 planFormatTag).bind_apply, readRequire,
      if_pos (beq_self_eq_true _), pure_bind, (reads_u64 plan.id.raw).bind_apply] at hhead
    refine (?_ : Returns _ fun head : Head => head.id = plan.id.raw) _ _ _ hhead
    repeat refine Returns.bind fun _ => ?_
    exact returns_pure rfl
  have hplan : decoded.id = ⟨head.id⟩ := by
    refine (?_ : Returns _ fun read : ReconstructionPlan => read.id = ⟨head.id⟩) _ _ _ hread
    simp only [conclude]
    repeat refine Returns.bind fun _ => ?_
    exact returns_pure rfl
  rw [hplan, hid]

theorem defined_rest {A : Type} {ofRaw : UInt8 → Option A} {message : Bytes} {value : A}
    (hread : readDefined ofRaw raw message bytes = .ok (value, rest)) : rest = bytes := by
  rw [readDefined] at hread
  cases hvalue : ofRaw raw with
  | some found =>
    rw [hvalue] at hread
    cases hread
    rfl
  | none =>
    rw [hvalue] at hread
    cases hread

/-- The checks leave nothing unread. -/
theorem end_of_conclude {head : Head} {flags : Flags}
    (hread : conclude head raw flags bytes = .ok (plan, rest)) : bytes = [] := by
  obtain ⟨feasibility, first, hfeasibility, hread⟩ := bind_eq_ok.mp hread
  obtain ⟨state, second, hstate, hread⟩ := bind_eq_ok.mp hread
  obtain ⟨_, third, hend, -⟩ := bind_eq_ok.mp hread
  rw [defined_rest hstate, defined_rest hfeasibility, requireEnd] at hend
  split at hend
  · rename_i hempty
    exact List.isEmpty_iff.mp hempty
  · cases hend

end SwitchFailover.Plan.ReconstructionPlan
