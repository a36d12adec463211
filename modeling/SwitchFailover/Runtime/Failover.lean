import SwitchFailover.Runtime.Coordinator

/-!
# The failover pipeline

Evidence is admitted, the failure becomes durable lineage, every dependent of the
failed generation is fenced, and only then may a plan be produced and applied.
-/

namespace SwitchFailover.Runtime

open SwitchFailover.Core Codec Model Plan Persist Library.Effects

/-! ## Evidence -/

/-- The store is kept on every path: refusals are counted in it. -/
def admitToStore (record : EvidenceRecord) : Call Unit := do
  let time ← now
  let impl ← getImpl
  let (result, evidence) := impl.evidence.admitRecord time record
  modifyImpl fun impl => { impl with evidence }
  ofResult result

/-- Evidence is admitted under the current epoch and incarnation. -/
def Impl.stamp (impl : Impl) (record : EvidenceRecord) : EvidenceRecord :=
  { record with admittedEpoch := impl.epoch, admittedBoot := impl.boot }

@[simp]
theorem Impl.stamp_id (impl : Impl) (record : EvidenceRecord) :
    (impl.stamp record).id = record.id := rfl

def requireCallerIdentity (id : EvidenceId) (message : Bytes) : Call Unit :=
  ofResult (require (id.raw < runtimeReservedIdBase) .invalid message)

def admitEvidence (record : EvidenceRecord) : Call Unit := do
  ensureRunning
  let impl ← getImpl
  requireCallerIdentity record.id
    (text "evidence identity is inside the range reserved for runtime-minted ids")
  ofResult (require (!(record.admittedBoot.valid && record.admittedBoot != impl.boot)) .stale
    (text "evidence carries a process incarnation that is not current"))
  ofResult (require (!(record.admittedEpoch.valid && record.admittedEpoch != impl.epoch)) .stale
    (text "evidence carries a coordinator epoch that is not current"))
  admitToStore (impl.stamp record)

/-! ## Failure fencing -/

structure FailureDeclaration where
  subject : SwitchKey
  source : EvidenceSource
  observedAtNs : TimestampNs
  validForNs : UInt64
  reason : Bytes

def FailureDeclaration.validate (declaration : FailureDeclaration) : Result Unit := do
  require declaration.subject.valid .invalid
    (text "failure declaration subject is not generation-qualified")
  require (declaration.source != .unknown) .invalid
    (text "failure declaration names an unknown evidence source")
  require (trustOf declaration.source == .authoritative) .unauthorized
    (text "failure declaration requires an authoritative evidence source")
  require (declaration.observedAtNs != 0) .invalid
    (text "failure declaration has no observation time")
  require (declaration.validForNs != 0) .invalid
    (text "failure declaration has no validity window")
  require (declaration.reason.length ≤ maxMessageBytes) .invalid
    (text "failure declaration reason exceeds the message budget")

def requireTopology (message : Bytes) : Call Unit := do
  let impl ← getImpl
  ofResult (require impl.topologyPresent .unsupported message)

/-- The evidence record a declaration is turned into. -/
def FailureDeclaration.assertion (declaration : FailureDeclaration) (impl : Impl) :
    EvidenceRecord where
  id := ⟨runtimeReservedIdBase + impl.nextEvidence⟩
  kind := .switchFailureDeclaration
  source := declaration.source
  subject := declaration.subject
  admittedEpoch := impl.epoch
  admittedBoot := impl.boot
  observedAtNs := declaration.observedAtNs
  validForNs := declaration.validForNs
  health := .failed
  detail := declaration.reason

def FailureDeclaration.lineage (declaration : FailureDeclaration) (impl : Impl)
    (evidence : EvidenceId) (recordedAtNs : TimestampNs) : FailureRecord where
  subject := declaration.subject
  evidence := evidence
  epoch := impl.epoch
  boot := impl.boot
  observedAtNs := declaration.observedAtNs
  recordedAtNs := recordedAtNs
  reason := declaration.reason

/-- What an assessment must say before a failure is recorded. -/
def requireObligation (assessment : SwitchAssessment) : Result Unit := do
  require (assessment.outcome != .conflict) .conflict
    (text "authoritative evidence about this generation contradicts itself")
  require assessment.fenceRequired
    (if assessment.outcome = .ok then .denied else assessment.outcome)
    (if assessment.rationale.isEmpty
      then text "failure evidence did not establish a fence obligation"
      else assessment.rationale)

/-- The declaration becomes evidence under an identity of the runtime, and must
establish an obligation to fence. -/
def assertFailure (declaration : FailureDeclaration) : Call EvidenceId := do
  let impl ← getImpl
  let assertion := declaration.assertion impl
  modifyImpl fun impl => { impl with nextEvidence := impl.nextEvidence + 1 }
  admitToStore assertion
  let time ← now
  let impl ← getImpl
  ofResult (requireObligation (impl.assess declaration.subject time))
  return assertion.id

/-- The failure is journaled before it is entered in the table. -/
def commitLineage (declaration : FailureDeclaration) (evidence : EvidenceId) :
    Call FailureRecord := do
  let recordedAt ← now
  let impl ← getImpl
  let record := declaration.lineage impl evidence recordedAt
  persistRecord .failureCommitted (encodeFailureRecord record)
  let impl ← getImpl
  let failures ← ofResult (impl.failures.record record)
  modifyImpl fun impl => { impl with failures }
  return record

def recordFailureLocked (declaration : FailureDeclaration) : Call FailureRecord := do
  ofResult declaration.validate
  ensureRunning
  requireTopology (text "a failure cannot be recorded before a topology is installed")
  let evidence ← assertFailure declaration
  commitLineage declaration evidence

def recordFailure (declaration : FailureDeclaration) : Call FailureRecord := do
  ofResult declaration.validate
  recordFailureLocked declaration

structure FailoverOutcome where
  failed : SwitchKey
  failure : FailureRecord
  fence : FenceId
  fenceScope : FenceScopeState
  closure : DependencyClosure
  grantsFenced : ℕ
  dependentsAffected : ℕ
  deferred : Bool
  outcome : Code

/-- The fence a declaration commits. -/
def FailureDeclaration.fence (declaration : FailureDeclaration) (impl : Impl)
    (closure : DependencyClosure) (grantsFenced : ℕ) (createdAtNs : TimestampNs) :
    FenceRecord where
  subject := declaration.subject
  epoch := impl.epoch
  boot := impl.boot
  createdAtNs := createdAtNs
  scopeState := if closure.truncated || !closure.enumeratesEveryRoot
    then .partialScope else .committed
  closureDigest := closure.digest
  closureMembers := closure.members.length.toUInt64
  fencedGrants := grantsFenced.toUInt64
  omittedDependents := closure.omittedFrontier.toUInt64
  reason := if declaration.reason.isEmpty
    then text "switch generation established unusable" else declaration.reason

/-- Withdraws the grants bound to a generation; the time is not used. -/
def sweepSubject (subject : SwitchKey) : Call ℕ := do
  let _ ← now
  let impl ← getImpl
  let swept := impl.authority.fenceGenerations (GenerationVector.empty.insert subject)
  modifyImpl fun impl => { impl with authority := swept.2 }
  return swept.1

/-- The fence is in memory before it is in the journal. -/
def commitNewFence (declaration : FailureDeclaration) (closure : DependencyClosure)
    (grantsFenced : ℕ) : Call FenceRecord := do
  let createdAt ← now
  let impl ← getImpl
  let fence := declaration.fence impl closure grantsFenced createdAt
  let (id, authority) ← ofResult (impl.authority.commitFence fence)
  modifyImpl fun impl => { impl with authority }
  let fence := { fence with id }
  persistRecord .fenceCommitted (encodeFenceRecord fence)
  return fence

/-- The sweep comes first; a subject that is fenced already keeps its fence. -/
def fenceSubject (declaration : FailureDeclaration) (closure : DependencyClosure) :
    Call (FenceRecord × ℕ × Bool) := do
  let grantsFenced ← sweepSubject declaration.subject
  let impl ← getImpl
  if impl.authority.isFenced declaration.subject then
    let existing := impl.authority.fences.values.find? (·.subject == declaration.subject)
    return (existing.getD {}, grantsFenced, true)
  else
    let fence ← commitNewFence declaration closure grantsFenced
    return (fence, grantsFenced, false)

/-- A plan touches a generation that one of its steps covers or crosses. -/
def touches (plan : ReconstructionPlan) (subject : SwitchKey) : Bool :=
  plan.restores.any fun step => step.coversFailed == subject || step.hops.contains subject

def superseded (subject : SwitchKey) (plan : ReconstructionPlan) : ReconstructionPlan :=
  if plan.state = .superseded ∨ plan.state = .failed then plan
  else if touches plan subject then plan.inState .superseded else plan

def supersedePlans (subject : SwitchKey) : Call Unit :=
  modifyImpl fun impl => { impl with
    plans := impl.plans.map fun _ plan => superseded subject plan }

def failoverOutcome (declaration : FailureDeclaration) (failure : FailureRecord)
    (closure : DependencyClosure) (fenced : FenceRecord × ℕ × Bool) : FailoverOutcome where
  failed := declaration.subject
  failure := failure
  fence := fenced.1.id
  fenceScope := fenced.1.scopeState
  closure := closure
  grantsFenced := fenced.2.1
  dependentsAffected := closure.dependents.length
  deferred := fenced.2.2
  outcome := if fenced.1.scopeState = .partialScope then .partialClosure else .ok

def declareFailure (declaration : FailureDeclaration) : Call FailoverOutcome := do
  ofResult declaration.validate
  ensureRunning
  let failure ← recordFailureLocked declaration
  let impl ← getImpl
  let closure := impl.topology.closure (GenerationVector.empty.insert declaration.subject)
    impl.limits
  let fenced ← fenceSubject declaration closure
  supersedePlans declaration.subject
  return failoverOutcome declaration failure closure fenced

/-! ## Planning -/

/-- Makes room for one more plan: the oldest plan that is not being applied goes
first. -/
def retirePlans (limit : ℕ) :
    ℕ → Std.TreeMap PlanId ReconstructionPlan → Std.TreeMap PlanId ReconstructionPlan
  | 0, plans => plans
  | fuel + 1, plans =>
      if plans.size < limit ∨ plans.isEmpty then plans
      else
        match plans.toList.find? fun entry => entry.2.state != .applying with
        | none => plans
        | some victim => retirePlans limit fuel (plans.erase victim.1)

def retainPlan (plan : ReconstructionPlan) : Call Unit :=
  modifyImpl fun impl => { impl with plans := impl.plans.insert plan.id plan }

def proposePlan (failed : GenerationVector) : Call ReconstructionPlan := do
  ensureRunning
  requireTopology (text "no topology snapshot is installed")
  let impl ← getImpl
  ofResult (require impl.candidatesPresent .unsupported
    (text ("no reconstruction alternatives have been supplied; absence of alternatives is " ++
      "not evidence that none exist")))
  let time ← now
  let inputs := impl.makeInputs ⟨impl.nextPlan⟩ time
  let plan ← ofResult (planReconstruction inputs failed)
  modifyImpl fun impl => { impl with nextPlan := impl.nextPlan + 1 }
  let report := validatePlan plan inputs
  if report.valid then
    let plan := plan.inState .validated
    modifyImpl fun impl => { impl with
      plans := retirePlans impl.policy.maxRetainedPlans.toNat impl.plans.size impl.plans }
    retainPlan plan
    return plan
  else
    retainPlan (plan.inState .rejected)
    fail (Status.failure .invalid
      (text "produced plan failed independent validation: " ++ report.toText))

/-! ## Applying -/

/-- Why a hop list must not be bound, if there is a reason; the clock is read
for every hop that is neither fenced nor unknown. -/
def refusalOf : List SwitchKey → Call (Option Bytes)
  | [] => return none
  | hop :: hops => do
      let impl ← getImpl
      if impl.authority.isFenced hop then
        return some (text "replacement generation is fenced: " ++ hop.toText)
      else if (impl.topology.findSwitch hop).isNone then
        return some (text "replacement generation is not in the current topology: " ++
          hop.toText)
      else
        let time ← now
        if (impl.assess hop time).fenceRequired then
          return some (text "replacement generation carries a fence obligation: " ++
            hop.toText)
        else refusalOf hops

/-- Mints the authority of one restore step, or says why not. -/
def attemptStep (plan : ReconstructionPlan) (step : RestoreStep) : Call ApplyStepResult := do
  let result : ApplyStepResult :=
    { dependent := step.dependent, replacement := step.replacement }
  match ← refusalOf step.hops with
  | some refusal => return { result with state := .failed, detail := refusal }
  | none =>
    let bound := boundOf step.hops
    if bound.isEmpty then
      return { result with state := .failed, detail := text "restore step binds no generation" }
    else
      let time ← now
      let impl ← getImpl
      match impl.mint step.dependent bound time
          (text "reconstruction applied under plan " ++ decimal plan.id.raw.toNat) with
      | .error status => return { result with state := .failed, detail := status.toText }
      | .ok (_, authority) =>
          modifyImpl fun impl => { impl with authority }
          return { result with
            state := .applied
            attempt := authority.lastAttempt
            detail := text "authority grant minted under the current epoch and incarnation" }

/-- The receipt after one more step. -/
def receiptWith (receipt : ApplyReceipt) (result : ApplyStepResult) : ApplyReceipt :=
  { receipt with
    steps := receipt.steps ++ [result]
    applied := if result.state = .applied then receipt.applied + 1 else receipt.applied
    failed := if result.state = .applied then receipt.failed else receipt.failed + 1 }

def applyStep (plan : ReconstructionPlan) (receipt : ApplyReceipt) (step : RestoreStep) :
    Call ApplyReceipt := do
  let result ← attemptStep plan step
  modifyImpl fun impl => { impl with
    applySteps := impl.applySteps.insert (stepKey result.dependent result.replacement)
      ⟨result, plan.id, impl.history.calls⟩ }
  return receiptWith receipt result

/-- The verdict on a finished loop. -/
def concludeReceipt (receipt : ApplyReceipt) (plan : ReconstructionPlan) : ApplyReceipt :=
  let complete := receipt.failed == 0 && receipt.applied == plan.restores.length
  { receipt with
    unverified := receipt.applied
    complete
    outcome := if complete then .unverified else .partialClosure }

def planStateAfter (receipt : ApplyReceipt) : PlanState :=
  if receipt.complete then .applied
  else if receipt.applied = 0 then .failed else .partiallyApplied

def emptyReceipt (impl : Impl) (plan : ReconstructionPlan) : ApplyReceipt where
  plan := plan.id
  epoch := impl.epoch
  boot := impl.boot

/-- A plan that restores nothing is applied as a complete no-op. -/
def applyNothing (plan : ReconstructionPlan) : Call ApplyReceipt := do
  let impl ← getImpl
  let receipt := { emptyReceipt impl plan with complete := true, outcome := .ok }
  persistRecord .applyCompleted (encodeApplyReceipt receipt)
  retainPlan (plan.inState .applied)
  return receipt

/-- Write ahead, run the steps, and write the outcome.  The plan stays in state
Applying when a write fails. -/
def applySteps (plan : ReconstructionPlan) : Call ApplyReceipt := do
  let plan := plan.inState .applying
  persistRecord .planCommitted plan.encode
  retainPlan plan
  modifyImpl fun impl => { impl with
    history := impl.history.begin (plan.restores.map (·.dependent)) }
  let impl ← getImpl
  let receipt ← plan.restores.foldlM (applyStep plan) (emptyReceipt impl plan)
  let receipt := concludeReceipt receipt plan
  let plan := plan.inState (planStateAfter receipt)
  persistRecord .applyCompleted (encodeApplyReceipt receipt)
  persistRecord .planCommitted plan.encode
  retainPlan plan
  return receipt

/-- The retained plan decides; of the request only the identity is used. -/
def applyPlan (request : ReconstructionPlan) : Call ApplyReceipt := do
  ensureRunning
  requireTopology (text "no topology snapshot is installed")
  let impl ← getImpl
  match impl.plans[request.id]? with
  | none =>
      fail (Status.failure .notFound (text "plan identity is not retained by this incarnation"))
  | some plan =>
    let time ← now
    let report := validatePlan plan (impl.makeInputs plan.id time)
    if report.valid then
      ofResult (require (plan.closureComplete || impl.policy.allowRestoreWhenClosureTruncated)
        .partialClosure (text "the dependency closure is incomplete; restoration is refused"))
      if plan.feasibility = .nothingToRestore then applyNothing plan
      else
        ofResult (require (plan.feasibility == .provenFeasible) .indeterminate
          (text "plan feasibility is not proven; nothing may be applied"))
        applySteps plan
    else
      retainPlan (plan.inState .rejected)
      fail (Status.failure .invalid (text "plan no longer validates against current inputs"))

/-! ## Verification of effects -/

/-- The state an effect record moves a step to. -/
def effectState (record : EvidenceRecord) : AckState :=
  if record.kind = .effectVerification then .verified else .failed

def RecordedStep.verifiedBy (recorded : RecordedStep) (record : EvidenceRecord) :
    RecordedStep :=
  { recorded with
    result := { recorded.result with
      verification := record.id, state := effectState record, detail := record.detail } }

/-- One restore step of the named plan; the attempt number is not compared. -/
def verifyStep (record : EvidenceRecord) (found : ApplySteps × Bool) (step : RestoreStep) :
    ApplySteps × Bool :=
  if step.dependent != record.effectDependent then found
  else
    let key := stepKey step.dependent step.replacement
    match found.1[key]? with
    | none => found
    | some recorded => (found.1.insert key (recorded.verifiedBy record), true)

def verifySteps (record : EvidenceRecord) (plan : ReconstructionPlan) (steps : ApplySteps) :
    ApplySteps × Bool :=
  plan.restores.foldl (verifyStep record) (steps, false)

def recordEffectVerification (verification : EvidenceRecord) : Call Unit := do
  ofResult (require (verification.kind == .effectVerification ||
      verification.kind == .effectFailure) .invalid
    (text "record carries no effect verification"))
  ensureRunning
  requireCallerIdentity verification.id
    (text "verification identity is inside the range reserved for runtime-minted ids")
  let impl ← getImpl
  admitToStore (impl.stamp verification)
  match impl.plans[verification.effectPlan]? with
  | none =>
      fail (Status.failure .notFound (text "verification names a plan that is not retained"))
  | some plan =>
    let (steps, matched) := verifySteps verification plan impl.applySteps
    modifyImpl fun impl => { impl with applySteps := steps }
    ofResult (require matched .notFound
      (text "verification names a dependent that the plan did not restore"))

/-! ## Restoration and queries -/

namespace Impl

/-- The apply step a restore decision looks at: the last one of the dependent in
the order of the map, that is the one with the greatest replacement. -/
def latestStep (impl : Impl) (dependent : DependentRef) : Option RecordedStep :=
  ((impl.applySteps.toList.filter fun entry => (ofLex entry.1).1 == dependent).getLast?).map
    (·.2)

def latestPlan (impl : Impl) (dependent : DependentRef) : PlanId :=
  (((impl.plans.toList.filter fun entry =>
    entry.2.restores.any (·.dependent == dependent)).getLast?).map (·.1)).getD default

def blocking (impl : Impl) (bound : GenerationVector) (nowNs : TimestampNs) : List SwitchKey :=
  bound.keys.filter fun key =>
    impl.authority.isFenced key || (impl.assess key nowNs).fenceRequired

/-- Outcome, reason, permission and whether the effect is verified. -/
def restoreVerdict (impl : Impl) (query : AuthorityQuery) (blocking : List SwitchKey)
    (latest : Option RecordedStep) : Code × Code × Bool × Bool :=
  if !blocking.isEmpty then (.fenced, .fenced, false, false)
  else if !query.hasAuthority then (query.outcome, query.reason, false, false)
  else
    match latest with
    | none => (.unverified, .unverified, false, false)
    | some recorded =>
      if recorded.result.state = .failed then (.denied, .denied, false, false)
      else if recorded.result.state = .verified then (.ok, .ok, true, true)
      else if impl.policy.allowAcknowledgementRestore then (.unverified, .unverified, true, false)
      else (.unverified, .unverified, false, false)

def evaluateRestore (impl : Impl) (dependent : DependentRef) (nowNs : TimestampNs) :
    Result RestoreDecision := do
  require dependent.valid .invalid (text "restore query names an invalid dependent")
  let query := impl.authority.query dependent nowNs
  let blocking := impl.blocking query.bound nowNs
  let (outcome, reason, mayRestore, effectVerified) :=
    impl.restoreVerdict query blocking (impl.latestStep dependent)
  pure {
    dependent, outcome, reason, mayRestore, effectVerified
    bound := query.bound
    plan := impl.latestPlan dependent
    grants := query.activeGrants
    blockingGenerations := blocking }

def queryAuthority (impl : Impl) (dependent : DependentRef) (nowNs : TimestampNs) :
    Result AuthorityQuery := do
  require dependent.valid .invalid (text "authority query names an invalid dependent")
  let query := impl.authority.query dependent nowNs
  pure { query with
    unprovenGenerations := query.unprovenGenerations ++
      query.bound.keys.filter fun key => !(impl.assess key nowNs).usable }

end Impl

end SwitchFailover.Runtime
