import SwitchFailover.Codec.Bytes
import SwitchFailover.Model.Evidence

/-!
# Reconstruction plans

A plan records what is fenced, which dependents are moved onto which replacement
hops, and which dependents stay unresolved and why.  It is sealed with a digest
over every field, and it is written to the journal and read back through the
canonical encoding below.
-/

namespace SwitchFailover.Plan

open SwitchFailover.Core Codec Model Library.Codec

structure ReconstructionCandidate where
  dependent : DependentRef := default
  coversFailed : SwitchKey := default
  hops : List SwitchKey := []
  links : List LinkId := []
  cost : UInt32 := 0
  capabilities : CapabilityMask := 0
  evidence : EvidenceId := default
  source : EvidenceSource := .unknown
  deriving DecidableEq

namespace ReconstructionCandidate

def digest (candidate : ReconstructionCandidate) : UInt64 :=
  let head := ({} : Digest128).absorbString (text "sff.reconstruction-candidate.v1")
    |>.absorbDependent candidate.dependent
    |>.absorbKey candidate.coversFailed
    |>.absorbNat candidate.hops.length
  let hops := (candidate.hops.foldl Digest128.absorbKey head).absorbNat candidate.links.length
  let links := candidate.links.foldl (fun digest link => digest.absorbU64 link.raw) hops
  (links.absorbU64 candidate.cost.toUInt64
    |>.absorbU64 candidate.capabilities.toUInt64
    |>.absorbU64 candidate.evidence.raw
    |>.absorbByte candidate.source.ctorIdx.toUInt8).hi

def validate (candidate : ReconstructionCandidate) : Result Unit := do
  require candidate.dependent.valid .invalid
    (text "reconstruction alternative names no dependent")
  require candidate.coversFailed.valid .invalid
    (text "reconstruction alternative is not bound to a failed generation")
  require (!candidate.hops.isEmpty) .invalid
    (text "reconstruction alternative supplies no hops")
  require (candidate.hops.all SwitchKey.valid) .invalid
    (text "reconstruction alternative contains an unqualified generation")
  require (candidate.cost != 0) .invalid
    (text "reconstruction alternative has a zero cost")
  validateCapabilityMask candidate.capabilities

end ReconstructionCandidate

inductive UnresolvedReason
  | unknown | noCandidateSupplied | candidateGenerationStale | capabilityInsufficient
  | behindFence | capacityExhausted | failureDomainConflict | withheld
  | closureTruncated | searchLimitReached | contradictoryEvidence | hopNotInTopology
  | nonAuthoritativeOrigin
  deriving DecidableEq

def UnresolvedReason.raw (reason : UnresolvedReason) : UInt8 := reason.ctorIdx.toUInt8

def UnresolvedReason.ofRaw (raw : UInt8) : Option UnresolvedReason :=
  [.unknown, .noCandidateSupplied, .candidateGenerationStale, .capabilityInsufficient,
    .behindFence, .capacityExhausted, .failureDomainConflict, .withheld,
    .closureTruncated, .searchLimitReached, .contradictoryEvidence, .hopNotInTopology,
    .nonAuthoritativeOrigin][raw.toNat]?

/-- A truncated closure and an exhausted search are not proofs of absence. -/
def isProvenNegative : UnresolvedReason → Bool
  | .noCandidateSupplied | .candidateGenerationStale | .capabilityInsufficient
  | .behindFence | .capacityExhausted | .failureDomainConflict | .withheld
  | .contradictoryEvidence | .hopNotInTopology | .nonAuthoritativeOrigin => true
  | .unknown | .closureTruncated | .searchLimitReached => false

structure UnresolvedDependent where
  dependent : DependentRef := default
  coversFailed : SwitchKey := default
  reason : UnresolvedReason := .unknown
  detail : Bytes := []
  deriving DecidableEq

def UnresolvedDependent.digest (entry : UnresolvedDependent) : UInt64 :=
  (({} : Digest128).absorbString (text "sff.unresolved-dependent.v2")
    |>.absorbDependent entry.dependent
    |>.absorbKey entry.coversFailed
    |>.absorbByte entry.reason.raw
    |>.absorbString entry.detail).hi

inductive PlanAction
  | unknown | rebindReplacement
  deriving DecidableEq

def PlanAction.raw (action : PlanAction) : UInt8 := action.ctorIdx.toUInt8

def PlanAction.ofRaw (raw : UInt8) : Option PlanAction :=
  [.unknown, .rebindReplacement][raw.toNat]?

structure FenceStep where
  failed : SwitchKey := default
  closureDigest : UInt64 := 0
  closureState : ClosureState := .empty
  closureMembers : ℕ := 0
  omittedDependents : ℕ := 0
  deriving DecidableEq

def closureStateOfRaw (raw : UInt8) : Option ClosureState :=
  [ClosureState.empty, .complete, .truncated][raw.toNat]?

def FenceStep.digest (step : FenceStep) : UInt64 :=
  (({} : Digest128).absorbString (text "sff.fence-step.v1")
    |>.absorbKey step.failed
    |>.absorbU64 step.closureDigest
    |>.absorbByte step.closureState.ctorIdx.toUInt8
    |>.absorbNat step.closureMembers
    |>.absorbNat step.omittedDependents).hi

structure RestoreStep where
  dependent : DependentRef := default
  coversFailed : SwitchKey := default
  action : PlanAction := .unknown
  replacement : SwitchKey := default
  hops : List SwitchKey := []
  links : List LinkId := []
  cost : UInt32 := 0
  evidence : EvidenceId := default
  deriving DecidableEq

def RestoreStep.digest (step : RestoreStep) : UInt64 :=
  let head := ({} : Digest128).absorbString (text "sff.restore-step.v2")
    |>.absorbDependent step.dependent
    |>.absorbKey step.coversFailed
    |>.absorbByte step.action.raw
    |>.absorbKey step.replacement
    |>.absorbNat step.hops.length
  let hops := (step.hops.foldl Digest128.absorbKey head).absorbNat step.links.length
  let links := step.links.foldl (fun digest link => digest.absorbU64 link.raw) hops
  ((links.absorbU64 step.cost.toUInt64).absorbU64 step.evidence.raw).hi

inductive PlanFeasibility
  | unknown | provenFeasible | provenInfeasible | indeterminate | searchLimitReached
  | nothingToRestore
  deriving DecidableEq

def PlanFeasibility.raw (feasibility : PlanFeasibility) : UInt8 := feasibility.ctorIdx.toUInt8

def PlanFeasibility.ofRaw (raw : UInt8) : Option PlanFeasibility :=
  [.unknown, .provenFeasible, .provenInfeasible, .indeterminate, .searchLimitReached,
    .nothingToRestore][raw.toNat]?

inductive PlanState
  | draft | validated | rejected | committed | applying | applied | partiallyApplied
  | failed | superseded
  deriving DecidableEq

def PlanState.raw (state : PlanState) : UInt8 := state.ctorIdx.toUInt8

def PlanState.ofRaw (raw : UInt8) : Option PlanState :=
  [.draft, .validated, .rejected, .committed, .applying, .applied, .partiallyApplied,
    .failed, .superseded][raw.toNat]?

structure ReconstructionPlan where
  id : PlanId := default
  epoch : CoordinatorEpoch := default
  boot : BootIncarnation := default
  failedGenerations : GenerationVector := default
  fences : List FenceStep := []
  restores : List RestoreStep := []
  unresolved : List UnresolvedDependent := []
  feasibility : PlanFeasibility := .unknown
  state : PlanState := .draft
  closureComplete : Bool := false
  serviceWithheld : Bool := false
  topologyDigest : UInt64 := 0
  policyDigest : UInt64 := 0
  planDigest : UInt64 := 0
  deriving DecidableEq

namespace ReconstructionPlan

def computeDigest (plan : ReconstructionPlan) : UInt64 :=
  let head := ({} : Digest128).absorbString (text "sff.reconstruction-plan.v1")
    |>.absorbU64 plan.id.raw
    |>.absorbU64 plan.epoch.raw
    |>.absorbU64 plan.boot.processId
    |>.absorbU64 plan.boot.bootOrdinal
    |>.absorbU64 plan.boot.nonceHi
    |>.absorbU64 plan.boot.nonceLo
    |>.absorbU64 plan.failedGenerations.digest
    |>.absorbNat plan.fences.length
  let fences := ((plan.fences.map (·.digest)).foldl Digest128.absorbU64 head).absorbNat
    plan.restores.length
  let restores := ((plan.restores.map (·.digest)).foldl Digest128.absorbU64 fences).absorbNat
    plan.unresolved.length
  let unresolved := (plan.unresolved.map (·.digest)).foldl Digest128.absorbU64 restores
  (unresolved.absorbByte plan.feasibility.raw
    |>.absorbByte plan.state.raw
    |>.absorbByte (if plan.closureComplete then 1 else 0)
    |>.absorbByte (if plan.serviceWithheld then 1 else 0)
    |>.absorbU64 plan.topologyDigest
    |>.absorbU64 plan.policyDigest).hi

def digestValid (plan : ReconstructionPlan) : Bool :=
  plan.planDigest != 0 && plan.planDigest == plan.computeDigest

def sealed (plan : ReconstructionPlan) : ReconstructionPlan :=
  { plan with planDigest := plan.computeDigest }

/-- Move to another state and seal again. -/
def inState (plan : ReconstructionPlan) (state : PlanState) : ReconstructionPlan :=
  { plan with state := state }.sealed

/-- The digest covers every field but itself. -/
theorem computeDigest_planDigest (plan : ReconstructionPlan) (planDigest : UInt64) :
    { plan with planDigest }.computeDigest = plan.computeDigest := by
  simp only [computeDigest]

theorem inState_sealed (plan : ReconstructionPlan) (state : PlanState) :
    plan.sealed.inState state = plan.inState state := by
  -- With a digest that is no computation, so that nothing tries to evaluate it.
  have hany (planDigest : UInt64) :
      { plan with planDigest }.inState state = plan.inState state := by
    have hdigest := computeDigest_planDigest { plan with state := state } planDigest
    simp only [inState, sealed]
    rw [hdigest]
  exact hany plan.computeDigest

/-- Of the states a plan has gone through only the last one is left. -/
@[simp]
theorem inState_inState (plan : ReconstructionPlan) (before after : PlanState) :
    (plan.inState before).inState after = plan.inState after :=
  inState_sealed { plan with state := before } after

/-! ## Canonical encoding -/

def planFormatTag : UInt8 := 1

def planWriterLimit : ℕ := 8 * 2 ^ 20

def writeFenceStep (step : FenceStep) : List Bytes :=
  writeKey step.failed ++ writeU64 step.closureDigest ++
    writeU8 step.closureState.ctorIdx.toUInt8 ++ writeSize step.closureMembers ++
    writeSize step.omittedDependents

def writeRestoreStep (step : RestoreStep) : List Bytes :=
  writeDependent step.dependent ++ writeKey step.coversFailed ++ writeU8 step.action.raw ++
    writeKey step.replacement ++ writeCount step.hops.length ++ step.hops.flatMap writeKey ++
    writeCount step.links.length ++ step.links.flatMap (fun link => writeU64 link.raw) ++
    writeU32 step.cost ++ writeU64 step.evidence.raw

def writeUnresolved (entry : UnresolvedDependent) : List Bytes :=
  writeDependent entry.dependent ++ writeKey entry.coversFailed ++ writeU8 entry.reason.raw ++
    writeString entry.detail

def chunks (plan : ReconstructionPlan) : List Bytes :=
  writeU8 planFormatTag ++ writeU64 plan.id.raw ++ writeU64 plan.epoch.raw ++
    writeBoot plan.boot ++
    writeCount plan.failedGenerations.size ++ plan.failedGenerations.keys.flatMap writeKey ++
    writeCount plan.fences.length ++ plan.fences.flatMap writeFenceStep ++
    writeCount plan.restores.length ++ plan.restores.flatMap writeRestoreStep ++
    writeCount plan.unresolved.length ++ plan.unresolved.flatMap writeUnresolved ++
    writeU8 plan.feasibility.raw ++ writeU8 plan.state.raw ++
    writeBoolean plan.closureComplete ++ writeBoolean plan.serviceWithheld ++
    writeU64 plan.topologyDigest ++ writeU64 plan.policyDigest

/-- The digest itself is not written: a decoded plan is sealed again. -/
def encode (plan : ReconstructionPlan) : Bytes := written planWriterLimit plan.chunks

/-- An enumeration read as one byte, with the status of an undefined value. -/
def readDefined {A : Type} (ofRaw : UInt8 → Option A) (raw : UInt8) (message : Bytes) :
    ByteReader A :=
  match ofRaw raw with
  | some value => pure value
  | none => readFailure .invalid message

def readFenceStep : ByteReader FenceStep := do
  let failed ← readKey
  let closureDigest ← readU64
  let state ← readU8
  let members ← readU64
  let omitted ← readU64
  let closureState ← readDefined closureStateOfRaw state
    (text "plan fence step has an undefined closure state")
  pure { failed, closureDigest, closureState
         closureMembers := members.toNat, omittedDependents := omitted.toNat }

def readRestoreStep (elementLimit : ℕ) : ByteReader RestoreStep := do
  let dependent ← readDependent (text "dependent kind is not defined")
  let coversFailed ← readKey
  let action ← readU8
  let replacement ← readKey
  let action ← readDefined PlanAction.ofRaw action
    (text "plan restore step has an undefined action")
  let hopCount ← readListCount elementLimit 16
  let hops ← readMany readKey hopCount
  let linkCount ← readListCount elementLimit 8
  let links ← readMany readU64 linkCount
  let cost ← readU32
  let evidence ← readU64
  readRequire (hops.length ≤ elementLimit && links.length ≤ elementLimit) .exhausted
    (text "plan restore step exceeds the planning bound")
  pure { dependent, coversFailed, action, replacement, hops
         links := links.map StrongId.mk, cost, evidence := ⟨evidence⟩ }

def readUnresolved (elementLimit : ℕ) : ByteReader UnresolvedDependent := do
  let dependent ← readDependent (text "dependent kind is not defined")
  let coversFailed ← readKey
  let reason ← readU8
  let detail ← readString elementLimit
  let reason ← readDefined UnresolvedReason.ofRaw reason
    (text "plan unresolved entry has an undefined reason")
  pure { dependent, coversFailed, reason, detail }

def read (elementLimit : ℕ) : ByteReader ReconstructionPlan := do
  let tag ← readU8
  readRequire (tag == planFormatTag) .versionMismatch
    (text "reconstruction plan format tag is unsupported")
  let id ← readU64
  let epoch ← readU64
  let boot ← readBoot
  let failedCount ← readListCount elementLimit 16
  let failed ← readMany readKey failedCount
  let fenceCount ← readListCount elementLimit (16 + 8 + 1 + 8 + 8)
  let fences ← readMany readFenceStep fenceCount
  let restoreCount ← readListCount elementLimit (9 + 16 + 1 + 16 + 4)
  let restores ← readMany (readRestoreStep elementLimit) restoreCount
  let unresolvedCount ← readListCount elementLimit (9 + 16 + 1)
  let unresolved ← readMany (readUnresolved elementLimit) unresolvedCount
  let feasibility ← readU8
  let state ← readU8
  let closureComplete ← readBoolean
  let serviceWithheld ← readBoolean
  let topologyDigest ← readU64
  let policyDigest ← readU64
  let feasibility ← readDefined PlanFeasibility.ofRaw feasibility
    (text "plan has an undefined feasibility value")
  let state ← readDefined PlanState.ofRaw state (text "plan has an undefined state value")
  requireEnd
  readRequire (!(failed.filter SwitchKey.valid).isEmpty || !fences.isEmpty ||
    !restores.isEmpty || !unresolved.isEmpty || id != 0) .invalid
    (text "decoded plan is empty")
  pure (sealed { id := ⟨id⟩, epoch := ⟨epoch⟩, boot
                 failedGenerations := GenerationVector.canonicalise failed
                 fences, restores, unresolved, feasibility, state, closureComplete
                 serviceWithheld, topologyDigest, policyDigest })

def decode (payload : Bytes) (limits : Limits) : Result ReconstructionPlan :=
  decodeWith (read limits.maxPlanSteps) payload

end ReconstructionPlan

/-! ## Applying a plan -/

inductive AckState
  | unknown | applied | verified | failed | unverified
  deriving DecidableEq

def AckState.raw (state : AckState) : UInt8 := state.ctorIdx.toUInt8

def AckState.ofRaw (raw : UInt8) : Option AckState :=
  [.unknown, .applied, .verified, .failed, .unverified][raw.toNat]?

structure ApplyStepResult where
  dependent : DependentRef := default
  replacement : SwitchKey := default
  state : AckState := .unknown
  attempt : AttemptSeq := default
  verification : EvidenceId := default
  detail : Bytes := []
  deriving DecidableEq

structure ApplyReceipt where
  plan : PlanId := default
  epoch : CoordinatorEpoch := default
  boot : BootIncarnation := default
  steps : List ApplyStepResult := []
  applied : ℕ := 0
  verified : ℕ := 0
  failed : ℕ := 0
  unverified : ℕ := 0
  complete : Bool := false
  outcome : Code := .unknown
  deriving DecidableEq

structure RestoreDecision where
  dependent : DependentRef
  outcome : Code := .unknown
  reason : Code := .unknown
  mayRestore : Bool := false
  effectVerified : Bool := false
  bound : GenerationVector := default
  plan : PlanId := default
  grants : List GrantId := []
  blockingGenerations : List SwitchKey := []

end SwitchFailover.Plan
