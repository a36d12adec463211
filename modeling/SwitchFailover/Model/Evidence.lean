import SwitchFailover.Model.Topology

/-!
# Evidence admission and fail-closed adjudication

Evidence is admitted into a bounded store, at most a fixed number of records per
switch generation, and adjudicated against the clock and the durable failure
lineage.  Only a fresh authoritative observation, or committed failure lineage,
can decide about a generation.
-/

namespace SwitchFailover.Model

open SwitchFailover.Core

/-! ## Evidence records -/

inductive EvidenceSource
  | unknown | simulatedFixture | telemetryCollector | switchAgent | topologyService
  | fabricManager | operatorPolicy
  deriving DecidableEq

inductive TrustLevel
  | untrusted | advisory | authoritative
  deriving DecidableEq

def trustOf : EvidenceSource → TrustLevel
  | .unknown => .untrusted
  | .simulatedFixture => .authoritative
  | .telemetryCollector | .switchAgent => .advisory
  | .topologyService | .fabricManager | .operatorPolicy => .authoritative

inductive EvidenceKind
  | unknown | switchHealth | switchFailureDeclaration | switchRecoveryDeclaration
  | capabilityDeclaration | adminStateDeclaration | effectVerification | effectFailure
  deriving DecidableEq

structure EvidenceRecord where
  id : EvidenceId := default
  kind : EvidenceKind := .unknown
  source : EvidenceSource := .unknown
  subject : SwitchKey := default
  admittedEpoch : CoordinatorEpoch := default
  admittedBoot : BootIncarnation := default
  observedAtNs : TimestampNs := 0
  validForNs : UInt64 := 0
  health : SwitchHealthState := .unknown
  admin : SwitchAdminState := .unknown
  capabilities : CapabilityMask := 0
  effectDependent : DependentRef := default
  effectPlan : PlanId := default
  effectAttempt : AttemptSeq := default
  detail : Bytes := []
  deriving DecidableEq

namespace EvidenceRecord

/-- The part of validation that depends on the kind of the record. -/
def validateKind (record : EvidenceRecord) : Result Unit :=
  match record.kind with
  | .switchHealth =>
      require (record.health != .unknown) .invalid
        (text "health evidence carries no defined health state")
  | .adminStateDeclaration =>
      require (record.admin != .unknown) .invalid
        (text "admin evidence carries no defined admin state")
  | .capabilityDeclaration => validateCapabilityMask record.capabilities
  | .effectVerification | .effectFailure => do
      require record.effectDependent.valid .invalid
        (text "effect evidence names no dependent")
      require record.effectPlan.valid .invalid (text "effect evidence names no plan")
  | .switchFailureDeclaration | .switchRecoveryDeclaration =>
      require (trustOf record.source == .authoritative) .unsupported
        (text "advisory source cannot assert a switch lifecycle declaration")
  | .unknown => .ok ()

def validate (record : EvidenceRecord) : Result Unit := do
  require record.id.valid .invalid (text "evidence record has no identity")
  require (record.kind != .unknown) .invalid (text "evidence record has an invalid kind")
  require (record.source != .unknown) .invalid
    (text "evidence record has an invalid source")
  require record.subject.valid .invalid
    (text "evidence subject is not generation-qualified")
  require (record.validForNs != 0) .invalid
    (text "evidence record has a zero validity window")
  require (record.observedAtNs != 0) .invalid
    (text "evidence record has no observation time")
  require (record.detail.length ≤ maxMessageBytes) .invalid
    (text "evidence detail exceeds the message budget")
  record.validateKind

/-- The sum wraps, as in the source. -/
def expiresAtNs (record : EvidenceRecord) : TimestampNs :=
  record.observedAtNs + record.validForNs

/-- A window that wraps around is never fresh. -/
def freshAt (record : EvidenceRecord) (now : TimestampNs) : Bool :=
  if record.observedAtNs > now then false
  else if record.expiresAtNs < record.observedAtNs then false
  else decide (now ≤ record.expiresAtNs)

/-- Buckets are ordered by observation time, then by identity. -/
def rank (record : EvidenceRecord) : ℕ ×ₗ ℕ :=
  toLex (record.observedAtNs.toNat, record.id.raw.toNat)

end EvidenceRecord

/-! ## Durable failure lineage -/

structure FailureTable where
  entries : Std.TreeMap SwitchKey FailureRecord := ∅

namespace FailureTable

def find (table : FailureTable) (key : SwitchKey) : Option FailureRecord :=
  table.entries[key]?

def contains (table : FailureTable) (key : SwitchKey) : Bool := (table.find key).isSome

/-- A later failure of the same generation is kept. -/
def record (table : FailureTable) (value : FailureRecord) : Result FailureTable := do
  require value.subject.valid .invalid (text "failure record is not generation-qualified")
  require (value.observedAtNs != 0) .invalid
    (text "failure record has no observation time")
  match table.find value.subject with
  | some existing =>
      if existing.observedAtNs > value.observedAtNs then pure table
      else pure ⟨table.entries.insert value.subject value⟩
  | none => pure ⟨table.entries.insert value.subject value⟩

end FailureTable

/-! ## The evidence store -/

def perSubjectRetention : ℕ := 32

def futureSanityBoundNs : UInt64 := 3600 * nanosPerSecond

structure EvidenceStore where
  limits : Limits
  bySubject : Std.TreeMap SwitchKey (List EvidenceRecord) := ∅
  identities : Std.TreeSet EvidenceId := ∅
  total : ℕ := 0
  rejected : ℕ := 0
  evicted : ℕ := 0

namespace EvidenceStore

def forSubject (store : EvidenceStore) (subject : SwitchKey) : List EvidenceRecord :=
  (store.bySubject[subject]?).getD []

def reject (store : EvidenceStore) : EvidenceStore :=
  { store with rejected := store.rejected + 1 }

/-- The bucket after insertion at the lower bound, before eviction. -/
def insertOrdered (bucket : List EvidenceRecord) (record : EvidenceRecord) :
    List EvidenceRecord :=
  bucket.orderedInsert (fun left right => left.rank ≤ right.rank) record

/-- Keep the newest records of a bucket and forget the identities of the rest. -/
def retain (store : EvidenceStore) (subject : SwitchKey) (bucket : List EvidenceRecord) :
    EvidenceStore :=
  let excess := bucket.length - perSubjectRetention
  { store with
    bySubject := store.bySubject.insert subject (bucket.drop excess)
    identities := (bucket.take excess).foldl
      (fun identities record => identities.erase record.id) store.identities
    total := store.total + 1 - excess
    evicted := store.evicted + excess }

/-- Admission returns the store on every path: refusals are counted. -/
def admitRecord (store : EvidenceStore) (now : TimestampNs) (record : EvidenceRecord) :
    Result Unit × EvidenceStore :=
  match record.validate with
  | .error status => (.error status, store.reject)
  | .ok () =>
      if record.observedAtNs > now ∧ record.observedAtNs - now > futureSanityBoundNs then
        (refuse .invalid (text "evidence observation time is implausibly far ahead"),
          store.reject)
      else if store.identities.contains record.id then
        (refuse .alreadyExists (text "evidence identity has already been admitted"),
          store.reject)
      else if store.limits.maxEvidenceRecords ≤ store.total then
        (refuse .exhausted (text "evidence retention bound reached"),
          { store.reject with
            bySubject := store.bySubject.insertIfNew record.subject [] })
      else
        let bucket := insertOrdered (store.forSubject record.subject) record
        (.ok (),
          { store with identities := store.identities.insert record.id }.retain
            record.subject bucket)

end EvidenceStore

/-! ## Adjudication -/

structure AssessmentPolicy where
  fenceOnAuthoritativeConflict : Bool := true
  fenceOnMissingHealth : Bool := false
  allowSameGenerationRecovery : Bool := true
  requireAuthoritativeFailureEvidence : Bool := true
  futureSkewToleranceNs : UInt64 := nanosPerSecond
  deriving DecidableEq

structure SwitchAssessment where
  subject : SwitchKey
  health : SwitchHealthState := .unknown
  outcome : Code := .unknown
  usable : Bool := false
  fenceRequired : Bool := false
  durableFailure : Option FailureRecord := none
  supporting : List EvidenceId := []
  conflicting : List EvidenceId := []
  stale : List EvidenceId := []
  untrusted : List EvidenceId := []
  outOfWindow : List EvidenceId := []
  rationale : Bytes := []
  deriving DecidableEq

def isFailureHealth : SwitchHealthState → Bool
  | .failed | .unreachable | .suspect => true
  | _ => false

def isPositiveHealth : SwitchHealthState → Bool
  | .healthy | .degraded => true
  | _ => false

def isAdminUnavailable : SwitchAdminState → Bool
  | .disabled | .maintenance => true
  | _ => false

/-- The latest observation of one sort and the record that carried it. -/
structure Latest where
  time : TimestampNs := 0
  evidence : EvidenceId := default

/-- Failure and recovery assertions replace an earlier one only when strictly
newer. -/
def Latest.advance (latest : Latest) (record : EvidenceRecord) : Latest :=
  if record.observedAtNs > latest.time then ⟨record.observedAtNs, record.id⟩ else latest

/-- The other observations also replace one made at the same instant. -/
def Latest.renew (latest : Latest) (record : EvidenceRecord) : Latest :=
  if record.observedAtNs ≥ latest.time then ⟨record.observedAtNs, record.id⟩ else latest

/-- What one pass over the records of a subject collects. -/
structure Tally where
  failure : Latest := {}
  recovery : Latest := {}
  advisoryBad : Latest := {}
  advisoryGood : Latest := {}
  authoritativeGood : Latest := {}
  adminUnavailableTime : TimestampNs := 0
  adminEnabledTime : TimestampNs := 0
  adminEvidence : EvidenceId := default
  recoveringTime : TimestampNs := 0
  nonLifecycleEvidence : ℕ := 0
  stale : List EvidenceId := []
  untrusted : List EvidenceId := []
  outOfWindow : List EvidenceId := []

namespace Tally

def observeGood (tally : Tally) (authoritative : Bool) (record : EvidenceRecord) : Tally :=
  if authoritative then
    { tally with authoritativeGood := tally.authoritativeGood.renew record }
  else { tally with advisoryGood := tally.advisoryGood.renew record }

def observeBad (tally : Tally) (authoritative : Bool) (record : EvidenceRecord) : Tally :=
  if authoritative then { tally with failure := tally.failure.advance record }
  else { tally with advisoryBad := tally.advisoryBad.advance record }

def observeHealth (tally : Tally) (authoritative : Bool) (record : EvidenceRecord) : Tally :=
  if record.health = .recovering then
    { tally with recoveringTime := max tally.recoveringTime record.observedAtNs }
  else if isPositiveHealth record.health then tally.observeGood authoritative record
  else if isFailureHealth record.health then tally.observeBad authoritative record
  else tally

def observeAdmin (tally : Tally) (authoritative : Bool) (record : EvidenceRecord) : Tally :=
  if !authoritative then
    { tally with nonLifecycleEvidence := tally.nonLifecycleEvidence + 1 }
  else if isAdminUnavailable record.admin then
    if record.observedAtNs ≥ tally.adminUnavailableTime then
      { tally with
        adminUnavailableTime := record.observedAtNs, adminEvidence := record.id }
    else tally
  else if record.admin = .enabled then
    if record.observedAtNs ≥ tally.adminEnabledTime then
      { tally with adminEnabledTime := record.observedAtNs, adminEvidence := record.id }
    else tally
  else tally

/-- One record that is trusted and inside its window. -/
def observeFresh (tally : Tally) (record : EvidenceRecord) : Tally :=
  let authoritative := trustOf record.source == .authoritative
  match record.kind with
  | .switchFailureDeclaration => tally.observeBad authoritative record
  | .switchHealth => tally.observeHealth authoritative record
  | .switchRecoveryDeclaration =>
      if authoritative then { tally with recovery := tally.recovery.advance record }
      else { tally with advisoryGood := tally.advisoryGood.renew record }
  | .adminStateDeclaration => tally.observeAdmin authoritative record
  | .unknown | .capabilityDeclaration | .effectVerification | .effectFailure =>
      { tally with nonLifecycleEvidence := tally.nonLifecycleEvidence + 1 }

/-- One iteration of the adjudication loop. -/
def observe (now : TimestampNs) (policy : AssessmentPolicy) (tally : Tally)
    (record : EvidenceRecord) : Tally :=
  if trustOf record.source = .untrusted then
    { tally with untrusted := tally.untrusted ++ [record.id] }
  else if record.observedAtNs > now ∧
      record.observedAtNs - now > policy.futureSkewToleranceNs then
    { tally with outOfWindow := tally.outOfWindow ++ [record.id] }
  else if !record.freshAt now then { tally with stale := tally.stale ++ [record.id] }
  else tally.observeFresh record

end Tally

/-- Append an identity that is valid and not noted yet. -/
def note (supporting : List EvidenceId) (id : EvidenceId) : List EvidenceId :=
  if id.valid && !supporting.contains id then supporting ++ [id] else supporting

/-- The assessment before the cascade decides: the evidence lists and the
durable lineage are filled in. -/
def Tally.collected (tally : Tally) (subject : SwitchKey) (durable : Option FailureRecord) :
    SwitchAssessment where
  subject := subject
  durableFailure := durable
  supporting := [tally.failure.evidence, tally.recovery.evidence,
    tally.authoritativeGood.evidence, tally.adminEvidence].foldl note []
  stale := tally.stale
  untrusted := tally.untrusted ++
    (if tally.advisoryBad.evidence.valid && tally.advisoryBad.time != tally.failure.time then
      [tally.advisoryBad.evidence] else []) ++
    (if tally.advisoryGood.evidence.valid then [tally.advisoryGood.evidence] else [])
  outOfWindow := tally.outOfWindow

/-- Committed failure lineage that no later authoritative recovery lifts. -/
def Tally.durableActive (tally : Tally) (policy : AssessmentPolicy)
    (durable : Option FailureRecord) : Bool :=
  match durable with
  | none => false
  | some failure =>
      !(policy.allowSameGenerationRecovery &&
        max tally.recovery.time tally.adminEnabledTime > failure.observedAtNs)

def Tally.observedAnything (tally : Tally) : Bool :=
  tally.failure.time != 0 || tally.recovery.time != 0 || tally.adminUnavailableTime != 0 ||
    tally.adminEnabledTime != 0 || tally.advisoryBad.time != 0 ||
    tally.advisoryGood.time != 0 || tally.authoritativeGood.time != 0

/-- The last resort of the cascade: nothing adjudicates the generation. -/
def Tally.concludeUnknown (tally : Tally) (policy : AssessmentPolicy)
    (collected : SwitchAssessment) : SwitchAssessment :=
  let base := { collected with
    outcome := .unknown, health := .unknown, fenceRequired := policy.fenceOnMissingHealth }
  if tally.observedAnything then
    { base with rationale := text "evidence present but insufficient to reach a conclusion" }
  else if tally.recoveringTime ≠ 0 then
    { base with
      health := .recovering
      rationale :=
        text "the generation is reported recovering; availability is not yet affirmed" }
  else if tally.nonLifecycleEvidence ≠ 0 then
    { base with
      rationale := text
        "evidence exists for this generation but none of it adjudicates switch lifecycle" }
  else if !collected.stale.isEmpty then
    { base with
      outcome := .stale
      rationale := text "every lifecycle observation is outside its validity window" }
  else if !collected.untrusted.isEmpty then
    { base with rationale := text "no trusted evidence exists for this generation" }
  else { base with rationale := text "no evidence exists for this generation" }

/-- The adjudication cascade over the collected observations. -/
def Tally.conclude (tally : Tally) (policy : AssessmentPolicy)
    (collected : SwitchAssessment) : SwitchAssessment :=
  if tally.durableActive policy collected.durableFailure then
    { collected with
      outcome := .ok, health := .failed, fenceRequired := true
      supporting := match collected.durableFailure with
        | some failure => note collected.supporting failure.evidence
        | none => collected.supporting
      rationale := text "durable committed failure lineage applies to this generation" }
  else if tally.failure.time ≠ 0 ∧ tally.recovery.time ≠ 0 ∧
      tally.failure.time = tally.recovery.time then
    { collected with
      outcome := .conflict, health := .unknown
      fenceRequired := policy.fenceOnAuthoritativeConflict
      conflicting := [tally.failure.evidence, tally.recovery.evidence]
      supporting := []
      rationale := text
        "authoritative failure and recovery declarations share the same observation instant" }
  else if tally.recovery.time ≠ 0 ∧ tally.recovery.time > tally.failure.time then
    { collected with
      outcome := .ok, health := .healthy, usable := true
      rationale :=
        text "authoritative recovery declaration postdates every failure declaration" }
  else if tally.failure.time ≠ 0 then
    { collected with
      outcome := .ok, health := .failed, fenceRequired := true
      rationale := text "authoritative failure declaration for this exact generation" }
  else if tally.advisoryBad.time ≠ 0 ∧ !policy.requireAuthoritativeFailureEvidence then
    { collected with
      outcome := .ok, health := .unreachable, fenceRequired := true
      rationale := text
        "policy accepts advisory failure observation as sufficient to fence this generation" }
  else if tally.adminUnavailableTime ≥ tally.adminEnabledTime ∧
      tally.adminUnavailableTime ≠ 0 then
    { collected with
      outcome := .ok, health := .unknown
      rationale :=
        text "authoritative administrative declaration makes the generation unavailable" }
  else if tally.authoritativeGood.time ≠ 0 then
    { collected with
      outcome := .ok, health := .healthy, usable := true
      rationale :=
        text "authoritative affirmative health observation within its validity window" }
  else if tally.advisoryBad.time ≠ 0 then
    { collected with
      outcome := .unknown, health := .unreachable
      fenceRequired := policy.fenceOnMissingHealth
      rationale := text
        "advisory observation only; policy requires authoritative evidence before fencing" }
  else if tally.advisoryGood.time ≠ 0 then
    { collected with
      outcome := .unknown, health := .healthy
      fenceRequired := policy.fenceOnMissingHealth
      rationale :=
        text "observation is not authority: advisory health cannot grant availability" }
  else if !collected.stale.isEmpty then
    { collected with
      outcome := .stale, health := .unknown
      fenceRequired := policy.fenceOnMissingHealth
      rationale := text "every retained observation is outside its validity window" }
  else tally.concludeUnknown policy collected

def assessSwitch (subject : SwitchKey) (evidence : EvidenceStore) (failures : FailureTable)
    (now : TimestampNs) (policy : AssessmentPolicy) : SwitchAssessment :=
  if !subject.valid then
    { subject := subject, outcome := .invalid, fenceRequired := true
      rationale := text "subject is not generation-qualified; no authority can be derived" }
  else
    let tally := (evidence.forSubject subject).foldl (Tally.observe now policy) {}
    tally.conclude policy (tally.collected subject (failures.find subject))

end SwitchFailover.Model
