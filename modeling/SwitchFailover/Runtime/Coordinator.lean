import SwitchFailover.Library.Effects
import SwitchFailover.Persist.Store
import SwitchFailover.Runtime.Policy

/-!
# The coordinator

The state of a running coordinator, the calls that act on it, opening it from a
journal, and the operations that install its inputs.  A call reads the clock and
appends to the journal; what the clock shows and what becomes of an append is
given by the environment of the call.

Two history variables record what the maps of the source forget: which plan and
which apply call wrote an apply step, and which apply call last had a step for a
dependent.  No operation reads them.
-/

namespace SwitchFailover.Runtime

open SwitchFailover.Core Codec Model Plan Persist Library.Effects

structure CoordinatorConfig where
  limits : Limits := {}
  policy : Policy := {}
  durableRoot : Bytes := []
  enableDurability : Bool := false
  bootOrdinal : UInt64 := 0

/-- The parts of a boot incarnation that come from the process. -/
structure Process where
  processId : UInt64
  nonceHi : UInt64
  nonceLo : UInt64

def Process.boot (process : Process) (ordinal : UInt64) : BootIncarnation :=
  ⟨process.processId, ordinal, process.nonceHi, process.nonceLo⟩

/-- An apply step with the plan and the apply call that recorded it. -/
structure RecordedStep where
  result : ApplyStepResult
  plan : PlanId
  call : ℕ

abbrev ApplySteps := Std.TreeMap (DependentRef ×ₗ SwitchKey) RecordedStep

def stepKey (dependent : DependentRef) (replacement : SwitchKey) : DependentRef ×ₗ SwitchKey :=
  toLex (dependent, replacement)

/-- The apply calls so far, and for each dependent the last one with a step for it. -/
structure ApplyHistory where
  calls : ℕ := 0
  latest : Std.TreeMap DependentRef ℕ := ∅

structure RestartReport where
  recovered : Bool := false
  cleanPreviousShutdown : Bool := false
  tornTailTruncated : Bool := false
  recordsReplayed : ℕ := 0
  corruptRecords : ℕ := 0
  tornRecords : ℕ := 0
  unsupportedRecords : ℕ := 0
  previousEpoch : CoordinatorEpoch := default
  currentEpoch : CoordinatorEpoch := default
  previousBoot : BootIncarnation := default
  currentBoot : BootIncarnation := default
  failuresRestored : ℕ := 0
  fencesRestored : ℕ := 0
  grantsInvalidated : ℕ := 0
  grantsFenced : ℕ := 0
  plansRestored : ℕ := 0
  notes : List Bytes := []

structure Impl where
  limits : Limits
  policy : Policy
  disk : Disk
  store : Option DurableStore := none
  epoch : CoordinatorEpoch := default
  boot : BootIncarnation := default
  evidence : EvidenceStore
  failures : FailureTable := {}
  authority : AuthorityRegistry
  topologyPresent : Bool := false
  topology : TopologySnapshot := .empty
  candidatesPresent : Bool := false
  candidates : CandidateTable := .empty
  plans : Std.TreeMap PlanId ReconstructionPlan := ∅
  applySteps : ApplySteps := ∅
  history : ApplyHistory := {}
  restart : RestartReport := {}
  nextPlan : UInt64 := 1
  nextEvidence : UInt64 := 1
  stopped : Bool := false

/-! ## Calls -/

/-- What the world outside does during one call: the successive readings of the
clock, and the fate of the successive appends. -/
structure Env where
  clock : ℕ → TimestampNs
  fate : ℕ → Fate

structure CallState where
  impl : Impl
  env : Env
  reads : ℕ := 0
  appends : ℕ := 0

inductive Stop
  | failed (status : Status)
  | crashed

abbrev Call := Action CallState Stop

def fail {A : Type} (status : Status) : Call A := throw (.failed status)

def ofResult {A : Type} : Result A → Call A
  | .ok value => pure value
  | .error status => fail status

def getImpl : Call Impl := do
  let state ← get
  return state.impl

def modifyImpl (change : Impl → Impl) : Call Unit :=
  modify fun state => { state with impl := change state.impl }

def now : Call TimestampNs := do
  let state ← get
  modify fun state => { state with reads := state.reads + 1 }
  return state.env.clock state.reads

def ensureRunning : Call Unit := do
  let impl ← getImpl
  ofResult (require (!impl.stopped) .closed (text "coordinator has been shut down"))

/-- One append, when there is a journal.  A process that dies during it does not
return. -/
def appendRecord (kind : RecordKind) (payload : Bytes) : Call (Result Unit) := do
  let state ← get
  match state.impl.store with
  | none => return .ok ()
  | some store =>
    let (result, store, disk) :=
      store.append state.impl.disk (state.env.fate state.appends) kind payload
    modify fun state => { state with
      impl := { state.impl with store := some store, disk := disk }
      appends := state.appends + 1 }
    match result with
    | .appended => return .ok ()
    | .failed status => return .error status
    | .crashed => throw .crashed

def persistRecord (kind : RecordKind) (payload : Bytes) : Call Unit := do
  ofResult (← appendRecord kind payload)

/-! ## Opening -/

/-- What replay has gathered from the records so far. -/
structure Lineage where
  previousEpoch : CoordinatorEpoch := default
  previousBoot : BootIncarnation := default
  failures : FailureTable := {}
  authority : AuthorityRegistry
  plans : Std.TreeMap PlanId ReconstructionPlan := ∅
  applySteps : ApplySteps := ∅
  history : ApplyHistory := {}
  failuresRestored : ℕ := 0
  fencesRestored : ℕ := 0
  grantsRestored : ℕ := 0
  plansRestored : ℕ := 0

namespace ApplyHistory

/-- A new apply call with steps for the given dependents. -/
def begin (history : ApplyHistory) (dependents : List DependentRef) : ApplyHistory where
  calls := history.calls + 1
  latest := dependents.foldl
    (fun latest dependent => latest.insert dependent (history.calls + 1)) history.latest

end ApplyHistory

namespace Lineage

/-- A plan record in state Applying opens an apply call; its receipt, if there is
one, follows it. -/
def restorePlan (lineage : Lineage) (plan : ReconstructionPlan) : Lineage :=
  { lineage with
    plans := lineage.plans.insert plan.id plan
    plansRestored :=
      if lineage.plans.contains plan.id then lineage.plansRestored
      else lineage.plansRestored + 1
    history := if plan.state = .applying
      then lineage.history.begin (plan.restores.map (·.dependent)) else lineage.history }

def restoreSteps (lineage : Lineage) (plan : PlanId) (steps : List ApplyStepResult) :
    Lineage :=
  { lineage with
    applySteps := steps.foldl (fun recorded step =>
      recorded.insert (stepKey step.dependent step.replacement)
        ⟨step, plan, lineage.history.calls⟩) lineage.applySteps }

/-- One replayed record.  A payload that does not decode is passed over. -/
def replayRecord (limits : Limits) (lineage : Lineage) (record : Record) : Lineage :=
  match RecordKind.ofRaw record.header.kind with
  | some .streamHeader =>
      match decodeWith readStreamHeader record.payload with
      | .ok (epoch, boot) => { lineage with previousEpoch := epoch, previousBoot := boot }
      | .error _ => lineage
  | some .failureCommitted =>
      match decodeFailureRecord record.payload >>= lineage.failures.record with
      | .ok failures =>
          { lineage with failures, failuresRestored := lineage.failuresRestored + 1 }
      | .error _ => lineage
  | some .fenceCommitted =>
      match decodeFenceRecord record.payload >>= lineage.authority.restoreFence with
      | .ok authority =>
          { lineage with authority, fencesRestored := lineage.fencesRestored + 1 }
      | .error _ => lineage
  | some .grantMinted =>
      match decodeGrantRecord record.payload >>= lineage.authority.restoreGrant with
      | .ok authority =>
          { lineage with authority, grantsRestored := lineage.grantsRestored + 1 }
      | .error _ => lineage
  | some .planCommitted =>
      match ReconstructionPlan.decode record.payload limits with
      | .ok plan => lineage.restorePlan plan
      | .error _ => lineage
  | some .applyCompleted =>
      match decodeApplyReceipt record.payload with
      | .ok (plan, steps) => lineage.restoreSteps plan steps
      | .error _ => lineage
  | _ => lineage

def replayAll (limits : Limits) (records : List Record) : Lineage :=
  records.foldl (replayRecord limits) { authority := { limits } }

/-- A restart advances the epoch and the boot ordinal; both wrap. -/
def nextEpoch (lineage : Lineage) : CoordinatorEpoch :=
  if lineage.previousBoot.bootOrdinal ≠ 0 then ⟨lineage.previousEpoch.raw + 1⟩ else ⟨1⟩

def nextOrdinal (lineage : Lineage) (config : CoordinatorConfig) : UInt64 :=
  if lineage.previousBoot.bootOrdinal ≠ 0 then lineage.previousBoot.bootOrdinal + 1
  else if config.bootOrdinal = 0 then 1 else config.bootOrdinal

/-- The authority registry after replay: no restored grant is active. -/
def invalidated (lineage : Lineage) (policy : Policy) : AuthorityRegistry :=
  let stale := lineage.authority.invalidatePreRestart.2
  if policy.fenceOnRestart then
    (stale.withdrawAll .restart (text "fence-on-restart policy refuses stale authority")).2
  else stale

/-- The note about a plan whose last record is in state Applying. -/
def inFlightNote (plan : PlanId) : Bytes :=
  text "plan " ++ decimal plan.raw.toNat ++
    text (" was in flight when the process ended; its effect is ambiguous and " ++
      "no apply completion record exists")

def notes (lineage : Lineage) : List Bytes :=
  (lineage.plans.toList.filter fun entry => entry.2.state == .applying).map
      (fun entry => inFlightNote entry.1) ++
    [text ("dynamic liveness, telemetry freshness, active leases and in-flight authority were " ++
        "not restored"),
      text ("the installed topology and the supplied candidate table are inputs, not durable " ++
        "state; the authoritative source must reinstall them")]

def report (lineage : Lineage) (opening : ReplayReport) (policy : Policy)
    (epoch : CoordinatorEpoch) (boot : BootIncarnation) : RestartReport :=
  let invalidated := lineage.authority.invalidatePreRestart
  { recovered := !opening.records.isEmpty
    cleanPreviousShutdown := opening.cleanShutdown
    tornTailTruncated := opening.truncatedTail
    recordsReplayed := opening.records.length
    corruptRecords := opening.corruptRecords
    tornRecords := opening.tornRecords
    unsupportedRecords := opening.unsupportedRecords
    previousEpoch := lineage.previousEpoch
    currentEpoch := epoch
    previousBoot := lineage.previousBoot
    currentBoot := boot
    failuresRestored := lineage.failuresRestored
    fencesRestored := lineage.fencesRestored
    grantsInvalidated := lineage.grantsRestored + invalidated.1
    grantsFenced := if policy.fenceOnRestart then
      (invalidated.2.withdrawAll .restart
        (text "fence-on-restart policy refuses stale authority")).1 else 0
    plansRestored := lineage.plansRestored
    notes := lineage.notes }

end Lineage

namespace Impl

/-- The coordinator before anything was replayed. -/
def fresh (config : CoordinatorConfig) (disk : Disk) : Impl where
  limits := config.limits
  policy := config.policy
  disk := disk
  evidence := { limits := config.limits }
  authority := { limits := config.limits }

/-- A coordinator without a journal starts at epoch one. -/
def started (impl : Impl) (config : CoordinatorConfig) (process : Process) : Impl :=
  let boot := process.boot (if config.bootOrdinal = 0 then 1 else config.bootOrdinal)
  { impl with
    epoch := ⟨1⟩
    boot := boot
    restart := { currentEpoch := ⟨1⟩, currentBoot := boot } }

/-- A coordinator that takes over what replay gathered. -/
def restored (impl : Impl) (config : CoordinatorConfig) (process : Process)
    (store : DurableStore) (disk : Disk) (opening : ReplayReport) : Impl :=
  let lineage := Lineage.replayAll config.limits opening.records
  let epoch := lineage.nextEpoch
  let boot := process.boot (lineage.nextOrdinal config)
  { impl with
    store := some store
    disk := disk
    epoch := epoch
    boot := boot
    failures := lineage.failures
    authority := lineage.invalidated config.policy
    plans := lineage.plans
    applySteps := lineage.applySteps
    history := lineage.history
    restart := lineage.report opening config.policy epoch boot }

end Impl

/-- Takes over the journal: nothing has been appended yet. -/
def recover (config : CoordinatorConfig) (process : Process) : Call Unit := do
  ofResult (require (!config.durableRoot.isEmpty) .invalid
    (text "durability was requested without a durable root"))
  let impl ← getImpl
  let (store, disk, opening) ← ofResult (DurableStore.open config.limits impl.disk)
  ofResult (require opening.status.isOk opening.status.code
    (text "durable lineage could not be replayed without corruption"))
  modifyImpl fun impl => impl.restored config process store disk opening

/-- The incarnation announces itself in the journal. -/
def announce : Call Unit := do
  let impl ← getImpl
  if impl.store.isSome then
    persistRecord .streamHeader (encodeStreamHeader impl.epoch impl.boot)
    if impl.epoch.raw > 1 then
      persistRecord .epochAdvance (encodeU64Payload impl.epoch.raw)

/-- `Coordinator::open`, run on the coordinator built from the configuration. -/
def openCoordinator (config : CoordinatorConfig) (process : Process) : Call Unit := do
  ofResult config.limits.validate
  ofResult config.policy.validate
  if config.enableDurability then recover config process
  else modifyImpl fun impl => impl.started config process
  announce

/-! ## Inputs -/

namespace Impl

def makeInputs (impl : Impl) (planId : PlanId) (nowNs : TimestampNs) : PlanInputs where
  topology := some impl.topology
  candidates := some impl.candidates
  evidence := some impl.evidence
  failures := some impl.failures
  authority := some impl.authority
  limits := impl.limits
  assessment := impl.policy.assessment
  planning := impl.policy.planning
  epoch := impl.epoch
  boot := impl.boot
  planId := planId
  nowNs := nowNs

def assess (impl : Impl) (subject : SwitchKey) (nowNs : TimestampNs) : SwitchAssessment :=
  assessSwitch subject impl.evidence impl.failures nowNs impl.policy.assessment

/-- A grant under the current identity and policy. -/
def mint (impl : Impl) (dependent : DependentRef) (bound : GenerationVector)
    (nowNs : TimestampNs) (detail : Bytes) : Result (GrantId × AuthorityRegistry) :=
  impl.authority.grant dependent bound impl.epoch impl.boot nowNs impl.policy.grantTtlNs detail

end Impl

/-- The generations a hop list binds. -/
def boundOf (hops : List SwitchKey) : GenerationVector :=
  hops.foldl GenerationVector.insert .empty

def topologyPayload (topology : TopologySnapshot) : Bytes :=
  written defaultWriterLimit (writeU8 1 ++ writeU64 topology.version.raw ++
    writeU64 topology.digest ++ writeSize topology.switches.length ++
    writeSize topology.links.length ++ writeSize topology.paths.length)

/-- Authority for one declared dependent; a refusal is not an error of the call. -/
def grantDeclared (dependent : DependentRef) (bound : GenerationVector) : Call Unit := do
  if bound.isEmpty then pure ()
  else
    let time ← now
    modifyImpl fun impl =>
      match impl.mint dependent bound time (text "established by topology declaration") with
      | .ok (_, authority) => { impl with authority }
      | .error _ => impl

def installTopology (topology : TopologySnapshot) : Call Unit := do
  ensureRunning
  ofResult (require (!topology.isEmpty) .invalid
    (text "an empty topology snapshot is not installable"))
  persistRecord .topologyInstalled (topologyPayload topology)
  modifyImpl fun impl => { impl with topology, topologyPresent := true }
  forM topology.paths fun path => grantDeclared (.path path.id) (boundOf path.hops)
  forM topology.links fun link => grantDeclared (.link link.id) (boundOf [link.a.sw, link.b.sw])

def establishAuthority (dependent : DependentRef) (bound : GenerationVector)
    (detail : Bytes) : Call Unit := do
  ensureRunning
  let time ← now
  let impl ← getImpl
  let (_, authority) ← ofResult (impl.mint dependent bound time detail)
  modifyImpl fun impl => { impl with authority }

def withdrawAuthority (dependent : DependentRef) (cause : RevocationCause)
    (detail : Bytes) : Call Unit := do
  ensureRunning
  modifyImpl fun impl => { impl with
    authority := (impl.authority.revokeDependent dependent cause detail).2 }

def installCandidates (candidates : CandidateTable) : Call Unit := do
  ensureRunning
  modifyImpl fun impl => { impl with candidates, candidatesPresent := true }

def installPolicy (policy : Policy) : Call Unit := do
  ofResult policy.validate
  ensureRunning
  persistRecord .policyInstalled policy.encode
  modifyImpl fun impl => { impl with policy }

/-- The store is closed whether or not the last record reached it. -/
def shutdown : Call Unit := do
  let impl ← getImpl
  if impl.stopped then pure ()
  else
    modifyImpl fun impl => { impl with stopped := true }
    let result ← appendRecord .shutdownClean (encodeU64Payload impl.epoch.raw)
    modifyImpl fun impl => { impl with
      store := impl.store.map fun store => { store with isOpen := false } }
    ofResult result

end SwitchFailover.Runtime
