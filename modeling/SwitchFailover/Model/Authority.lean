import SwitchFailover.Core.Limits
import SwitchFailover.Model.Generation

/-!
# The authority registry

Forwarding authority is a grant bound to exact switch generations.  The registry
mints grants, withdraws them, commits fences, and answers authority queries.
Every map of the source is an ordered map here, so iteration order is the
canonical key order.
-/

namespace SwitchFailover.Model

open SwitchFailover.Core Library.Ordering

inductive GrantState
  | unknown | active | stale | revoked | expired | fenced
  deriving DecidableEq

inductive RevocationCause
  | unknown | superseded | fence | restart | expiry | operatorRevocation
  | revalidationFailed | shutdown
  deriving DecidableEq

structure AuthorityGrant where
  id : GrantId := default
  dependent : DependentRef := default
  bound : GenerationVector := default
  epoch : CoordinatorEpoch := default
  boot : BootIncarnation := default
  attempt : AttemptSeq := default
  grantedAtNs : TimestampNs := 0
  expiresAtNs : TimestampNs := 0
  state : GrantState := .active
  cause : RevocationCause := .unknown
  detail : Bytes := []
  deriving DecidableEq

/-- A grant confers authority only inside its own validity window. -/
def AuthorityGrant.activeAt (grant : AuthorityGrant) (now : TimestampNs) : Bool :=
  grant.state == .active && grant.expiresAtNs != 0 && decide (grant.grantedAtNs ≤ now) &&
    decide (now ≤ grant.expiresAtNs)

inductive FenceScopeState
  | openScope | partialScope | committed
  deriving DecidableEq

structure FenceRecord where
  id : FenceId := default
  subject : SwitchKey := default
  epoch : CoordinatorEpoch := default
  boot : BootIncarnation := default
  createdAtNs : TimestampNs := 0
  scopeState : FenceScopeState := .openScope
  closureDigest : UInt64 := 0
  closureMembers : UInt64 := 0
  fencedGrants : UInt64 := 0
  omittedDependents : UInt64 := 0
  reason : Bytes := []
  deriving DecidableEq

structure AuthorityQuery where
  dependent : DependentRef
  hasAuthority : Bool := false
  outcome : Code := .unknown
  reason : Code := .unknown
  bound : GenerationVector := default
  activeGrants : List GrantId := []
  withdrawnGrants : List GrantId := []
  fencedGenerations : List SwitchKey := []
  unprovenGenerations : List SwitchKey := []
  rationale : Bytes := []

structure AuthorityRegistry where
  limits : Limits
  grants : Std.TreeMap GrantId AuthorityGrant := ∅
  byDependent : Std.TreeMap DependentRef (List GrantId) := ∅
  fences : Std.TreeMap SwitchKey FenceRecord := ∅
  nextGrant : UInt64 := 1
  nextFence : UInt64 := 1
  attempt : UInt64 := 0

namespace AuthorityRegistry

def isFenced (registry : AuthorityRegistry) (key : SwitchKey) : Bool :=
  registry.fences.contains key

def lastAttempt (registry : AuthorityRegistry) : AttemptSeq := ⟨registry.attempt⟩

def indexOf (registry : AuthorityRegistry) (dependent : DependentRef) : List GrantId :=
  (registry.byDependent[dependent]?).getD []

def requireUnfenced (registry : AuthorityRegistry) (bound : GenerationVector) : Result Unit :=
  match bound.keys.find? registry.isFenced with
  | some key => refuse .fenced (text "grant would bind a fenced generation: " ++ key.toText)
  | none => .ok ()

/-- Checks of `grant` that read no grant: they refuse a malformed request and
any fenced generation. -/
def checkGrant (registry : AuthorityRegistry) (dependent : DependentRef)
    (bound : GenerationVector) (epoch : CoordinatorEpoch) (boot : BootIncarnation)
    (ttl : UInt64) : Result Unit := do
  require dependent.valid .invalid (text "grant subject is not a valid dependent reference")
  require (!bound.isEmpty) .invalid (text "grant binds no generation")
  require (epoch.valid && boot.valid) .unauthorized
    (text "grant requires a current epoch and boot incarnation")
  require (ttl != 0) .invalid (text "grant requires a non-zero validity window")
  registry.requireUnfenced bound
  requireWithin (text "max_authority_grants") (registry.grants.size + 1)
    registry.limits.maxAuthorityGrants

/-- The record a successful `grant` mints. -/
def minted (registry : AuthorityRegistry) (dependent : DependentRef)
    (bound : GenerationVector) (epoch : CoordinatorEpoch) (boot : BootIncarnation)
    (now : TimestampNs) (ttl : UInt64) (detail : Bytes) : AuthorityGrant where
  id := ⟨registry.nextGrant⟩
  dependent := dependent
  bound := bound
  epoch := epoch
  boot := boot
  attempt := ⟨registry.attempt + 1⟩
  grantedAtNs := now
  expiresAtNs := if now + ttl < now then UInt64.ofNat (2 ^ 64 - 1) else now + ttl
  state := .active
  detail := boundedMessage detail

/-- Both counters wrap.  `emplace` keeps a grant that already has the identity,
while the index lists the identity in any case. -/
def enter (registry : AuthorityRegistry) (grant : AuthorityGrant) : AuthorityRegistry :=
  { registry with
    attempt := registry.attempt + 1
    nextGrant := registry.nextGrant + 1
    grants := registry.grants.insertIfNew grant.id grant
    byDependent := registry.byDependent.insert grant.dependent
      (registry.indexOf grant.dependent ++ [grant.id]) }

def grant (registry : AuthorityRegistry) (dependent : DependentRef)
    (bound : GenerationVector) (epoch : CoordinatorEpoch) (boot : BootIncarnation)
    (now : TimestampNs) (ttl : UInt64) (detail : Bytes) :
    Result (GrantId × AuthorityRegistry) := do
  registry.checkGrant dependent bound epoch boot ttl
  let record := registry.minted dependent bound epoch boot now ttl detail
  pure (record.id, registry.enter record)

/-- Withdraw every grant that meets a condition, each in the same way. -/
def withdraw (registry : AuthorityRegistry) (applies : AuthorityGrant → Bool)
    (state : GrantState) (cause : RevocationCause) (detail : Bytes) : AuthorityRegistry :=
  { registry with
    grants := registry.grants.map fun _ grant =>
      if applies grant then { grant with state := state, cause := cause, detail := detail }
      else grant }

def countWhere (registry : AuthorityRegistry) (applies : AuthorityGrant → Bool) : ℕ :=
  registry.grants.values.countP applies

def boundToAny (generations : GenerationVector) (grant : AuthorityGrant) : Bool :=
  grant.state == .active && grant.bound.intersects generations

/-- The number of grants revoked, and the registry after the sweep. -/
def fenceGenerations (registry : AuthorityRegistry) (generations : GenerationVector) :
    ℕ × AuthorityRegistry :=
  (registry.countWhere (boundToAny generations),
    registry.withdraw (boundToAny generations) .fenced .fence
      (text "a bound switch generation was fenced"))

/-- Grants are reached through the dependent's index, by the key they are stored
under. -/
def revokeDependent (registry : AuthorityRegistry) (dependent : DependentRef)
    (cause : RevocationCause) (detail : Bytes) : ℕ × AuthorityRegistry :=
  let ids := registry.indexOf dependent
  (registry.grants.toList.countP fun entry => ids.contains entry.1 && entry.2.state == .active,
    { registry with
      grants := registry.grants.map fun id grant =>
        if ids.contains id && grant.state == .active then
          { grant with state := .revoked, cause := cause, detail := boundedMessage detail }
        else grant })

def invalidatePreRestart (registry : AuthorityRegistry) : ℕ × AuthorityRegistry :=
  (registry.countWhere fun grant => grant.state == .active,
    registry.withdraw (fun grant => grant.state == .active) .stale .restart
      (text "minted before the current process incarnation"))

def revoke (registry : AuthorityRegistry) (id : GrantId) (cause : RevocationCause)
    (detail : Bytes) : Result AuthorityRegistry :=
  match registry.grants[id]? with
  | none => refuse .notFound (text "grant identity is unknown")
  | some grant =>
      if grant.state != .active then .ok registry
      else
        .ok { registry with
          grants := registry.grants.insert id
            { grant with state := .revoked, cause := cause, detail := boundedMessage detail } }

/-- Grants whose validity window has elapsed. -/
def expireDue (registry : AuthorityRegistry) (now : TimestampNs) : ℕ × AuthorityRegistry :=
  let applies := fun grant : AuthorityGrant =>
    grant.state == .active && decide (grant.expiresAtNs < now)
  (registry.countWhere applies,
    registry.withdraw applies .expired .expiry (text "validity window elapsed"))

/-- The state a cause of withdrawal leads to. -/
def withdrawnState : RevocationCause → GrantState
  | .fence => .fenced
  | .restart => .stale
  | _ => .revoked

def withdrawAll (registry : AuthorityRegistry) (cause : RevocationCause) (detail : Bytes) :
    ℕ × AuthorityRegistry :=
  let applies := fun grant : AuthorityGrant =>
    grant.state != .revoked && grant.state != .fenced
  (registry.countWhere applies,
    registry.withdraw applies (withdrawnState cause) cause (boundedMessage detail))

def commitFence (registry : AuthorityRegistry) (record : FenceRecord) :
    Result (FenceId × AuthorityRegistry) := do
  require record.subject.valid .invalid (text "fence subject is not generation-qualified")
  require (!record.reason.isEmpty) .invalid (text "fence requires a recorded reason")
  require (!registry.isFenced record.subject) .alreadyExists
    (text "generation is already fenced: " ++ record.subject.toText)
  requireWithin (text "max_fences") (registry.fences.size + 1) registry.limits.maxFences
  let stored := { record with
    id := ⟨registry.nextFence⟩, reason := boundedMessage record.reason }
  pure (stored.id,
    { registry with
      nextFence := registry.nextFence + 1
      fences := registry.fences.insert stored.subject stored })

/-- Restoring lists an identity once, where granting appends it. -/
def listOnce (index : List GrantId) (id : GrantId) : List GrantId :=
  if index.contains id then index else index ++ [id]

/-- Restored grants are lineage: whatever state they were written in, they come
back stale. -/
def restoreGrant (registry : AuthorityRegistry) (value : AuthorityGrant) :
    Result AuthorityRegistry := do
  require (value.id.valid && value.dependent.valid) .invalid
    (text "durable grant record is malformed")
  let record := { value with
    state := .stale, cause := .restart
    detail := text "restored from durable lineage; revalidation required" }
  pure { registry with
    grants := registry.grants.insert record.id record
    byDependent := registry.byDependent.insert record.dependent
      (listOnce (registry.indexOf record.dependent) record.id)
    nextGrant :=
      if record.id.raw ≥ registry.nextGrant then record.id.raw + 1 else registry.nextGrant
    attempt :=
      if record.attempt.raw > registry.attempt then record.attempt.raw else registry.attempt }

def restoreFence (registry : AuthorityRegistry) (value : FenceRecord) :
    Result AuthorityRegistry := do
  require value.subject.valid .invalid (text "durable fence record is malformed")
  pure { registry with
    fences := registry.fences.insert value.subject value
    nextFence :=
      if value.id.raw ≥ registry.nextFence then value.id.raw + 1 else registry.nextFence }

/-! ## Queries -/

/-- What the scan over a dependent's grants collects. -/
structure QueryScan where
  activeGrants : List GrantId := []
  withdrawnGrants : List GrantId := []
  bound : GenerationVector := .empty
  historicalFenced : List SwitchKey := []
  sawRestart : Bool := false
  sawExpiry : Bool := false
  sawRevocation : Bool := false
  sawStale : Bool := false

def QueryScan.visitWithdrawn (scan : QueryScan) (id : GrantId) (grant : AuthorityGrant) :
    QueryScan :=
  let scan := { scan with
    withdrawnGrants := scan.withdrawnGrants ++ [id]
    sawRestart := scan.sawRestart || grant.cause == RevocationCause.restart }
  match grant.state with
  | .fenced => { scan with historicalFenced := scan.historicalFenced ++ grant.bound.keys }
  | .stale => { scan with sawStale := true }
  | .expired | .active => { scan with sawExpiry := true }
  | .unknown | .revoked => { scan with sawRevocation := true }

def visitGrant (registry : AuthorityRegistry) (now : TimestampNs) (scan : QueryScan)
    (id : GrantId) : QueryScan :=
  match registry.grants[id]? with
  | none => scan
  | some grant =>
      if grant.activeAt now then
        { scan with
          activeGrants := scan.activeGrants ++ [id]
          bound := scan.bound.united grant.bound }
      else scan.visitWithdrawn id grant

/-- The verdict of a query once the scan is done. -/
def QueryScan.verdict (scan : QueryScan) (blocking : List SwitchKey) : Code × Bytes :=
  if !scan.activeGrants.isEmpty && blocking.isEmpty then
    (.ok, text "an active grant covers every bound generation")
  else if !blocking.isEmpty then
    (.fenced, text "an active grant is bound to a generation that is now fenced")
  else if scan.activeGrants.isEmpty && !scan.historicalFenced.isEmpty then
    (.fenced, text "every grant for this dependent was fenced")
  else if !scan.activeGrants.isEmpty then
    (.unknown, text "active grants exist but confer no authority")
  else if scan.sawRestart || scan.sawStale then
    (.stale, text "authority was minted before the current process incarnation")
  else if scan.sawExpiry then (.expired, text "the grant validity window elapsed")
  else if scan.sawRevocation then (.denied, text "authority was withdrawn")
  else (.unknown, text "authority state could not be resolved")

def query (registry : AuthorityRegistry) (dependent : DependentRef) (now : TimestampNs) :
    AuthorityQuery :=
  if (registry.indexOf dependent).isEmpty then
    { dependent := dependent, outcome := .notFound, reason := .notFound
      rationale := text "no forwarding authority was ever granted for this dependent" }
  else
    let scan := (registry.indexOf dependent).foldl (registry.visitGrant now) {}
    let blocking := scan.bound.keys.filter registry.isFenced
    let historical := sortUnique scan.historicalFenced
    let verdict := scan.verdict blocking
    { dependent := dependent
      hasAuthority := !scan.activeGrants.isEmpty && blocking.isEmpty
      outcome := verdict.1
      reason := verdict.1
      bound := scan.bound
      activeGrants := scan.activeGrants
      withdrawnGrants := scan.withdrawnGrants
      fencedGenerations := (historical ++
        blocking.filter fun key => !historical.contains key).insertionSort (· ≤ ·)
      rationale := verdict.2 }

end AuthorityRegistry

end SwitchFailover.Model
