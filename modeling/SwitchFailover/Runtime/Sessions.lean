import SwitchFailover.Library.Emissions
import SwitchFailover.Runtime.Coordinator

/-!
# Sessions

The bounded table of sessions.  A request presents its session, the epoch and the boot
digest it was issued under, and a sequence number that has to advance.  Sessions are
closed and never removed, so the table itself is what keeps an identity from being given
out twice.

Every call holds the lock of the table from beginning to end, so that an interleaving of
calls is a list of calls.
-/

namespace SwitchFailover.Runtime

open SwitchFailover.Core Codec Library.Transitions

variable {session id : SessionId}

/-- What a request must present in order to act. -/
structure SessionBinding where
  session : SessionId := default
  epoch : CoordinatorEpoch := default
  bootDigest : UInt64 := 0
  requestSeq : UInt64 := 0
  deriving DecidableEq

structure SessionRecord where
  id : SessionId := default
  principal : Bytes := []
  epoch : CoordinatorEpoch := default
  boot : BootIncarnation := default
  openedAtNs : TimestampNs := 0
  lastRequestSeq : UInt64 := 0
  closed : Bool := false
  deriving DecidableEq

variable {record : SessionRecord}

structure SessionRegistry where
  limits : Limits := {}
  sessions : Std.TreeMap SessionId SessionRecord := ∅
  nextSession : UInt64 := 1
  replayRejections : UInt64 := 0

/-- The number of sessions and the bound on it are compared as 64-bit sizes. -/
def SessionRegistry.open (registry : SessionRegistry) (principal : Bytes) (epoch : CoordinatorEpoch)
    (boot : BootIncarnation) (now : TimestampNs) : Result SessionRecord × SessionRegistry :=
  if !epoch.valid || !boot.valid then
    (refuse .unauthorized (text "a session requires a current epoch and boot incarnation"),
      registry)
  else if registry.limits.maxSessions.toUInt64 ≤ registry.sessions.size.toUInt64 then
    (.error (refuseExhausted (text "max_sessions") (registry.sessions.size + 1)
      registry.limits.maxSessions), registry)
  else
    let record : SessionRecord := {
      id := ⟨registry.nextSession⟩
      principal := boundedMessage principal
      epoch, boot, openedAtNs := now }
    let sessions := registry.sessions.insertIfNew record.id record
    (.ok (sessions.getD record.id record),
      { registry with sessions, nextSession := registry.nextSession + 1 })

namespace SessionRegistry

def close (registry : SessionRegistry) (id : SessionId) : Status × SessionRegistry :=
  match registry.sessions[id]? with
  | none => (Status.failure .notFound (text "session identity is unknown"), registry)
  | some record => (Status.success,
      { registry with sessions := registry.sessions.insert id { record with closed := true } })

/-- Validates a binding and consumes its sequence number. -/
def authorise (registry : SessionRegistry) (binding : SessionBinding)
    (currentEpoch : CoordinatorEpoch) (currentBootDigest : UInt64) : Status × SessionRegistry :=
  match registry.sessions[binding.session]? with
  | none => (Status.failure .unauthorized (text "session identity is unknown to this incarnation"),
      { registry with replayRejections := registry.replayRejections + 1 })
  | some record =>
    if record.closed then (Status.failure .closed (text "session is closed"), registry)
    else if currentBootDigest = 0 then
      (Status.failure .unauthorized (text "this incarnation has no established boot identity"),
        registry)
    else if binding.epoch ≠ currentEpoch ∨ record.epoch ≠ currentEpoch then
      (Status.failure .stale (text "request was issued under a different coordinator epoch"),
        registry)
    else if binding.bootDigest ≠ currentBootDigest then
      (Status.failure .stale (text "request was issued under a different process incarnation"),
        registry)
    else if binding.requestSeq ≤ record.lastRequestSeq then
      (Status.failure .replay (text "request sequence did not advance"),
        { registry with replayRejections := registry.replayRejections + 1 })
    else
      (Status.success, { registry with
        sessions := registry.sessions.insert binding.session
          { record with lastRequestSeq := binding.requestSeq } })

/-- The number of sessions that were open, and the table with all of them closed. -/
def closeAll (registry : SessionRegistry) : ℕ × SessionRegistry :=
  ((registry.sessions.values.filter (!·.closed)).length,
    { registry with
      sessions := registry.sessions.map fun _ record => { record with closed := true } })

end SessionRegistry

/-! ## The coordinator's calls -/

def bootDigestOf (boot : BootIncarnation) : UInt64 :=
  (({} : Digest128).absorbString (text "sff.boot-incarnation.v1")
    |>.absorbU64 boot.processId
    |>.absorbU64 boot.bootOrdinal
    |>.absorbU64 boot.nonceHi
    |>.absorbU64 boot.nonceLo).hi

namespace Impl

def openSession (impl : Impl) (registry : SessionRegistry) (principal : Bytes)
    (now : TimestampNs) : Result SessionRecord × SessionRegistry :=
  if impl.stopped then (refuse .closed (text "coordinator has been shut down"), registry)
  else registry.open principal impl.epoch impl.boot now

def authorise (impl : Impl) (registry : SessionRegistry) (binding : SessionBinding) :
    Status × SessionRegistry :=
  registry.authorise binding impl.epoch (bootDigestOf impl.boot)

end Impl

/-! ## Runs of the table -/

/-- A call of the table, with all it is given. -/
inductive SessionCall
  | openSession (principal : Bytes) (epoch : CoordinatorEpoch) (boot : BootIncarnation)
      (now : TimestampNs)
  | closeSession (id : SessionId)
  | closeAll
  | authorise (binding : SessionBinding) (currentEpoch : CoordinatorEpoch)
      (currentBootDigest : UInt64)

namespace SessionRegistry

def after (registry : SessionRegistry) : SessionCall → SessionRegistry
  | .openSession principal epoch boot now => (registry.open principal epoch boot now).2
  | .closeSession id => (registry.close id).2
  | .closeAll => registry.closeAll.2
  | .authorise binding currentEpoch currentBootDigest =>
      (registry.authorise binding currentEpoch currentBootDigest).2

/-- The identity that a call gives out. -/
def issued (registry : SessionRegistry) : SessionCall → Option SessionId
  | .openSession principal epoch boot now =>
      match (registry.open principal epoch boot now).1 with
      | .ok record => some record.id
      | .error _ => none
  | _ => none

/-- The sequence number that a call accepts for a session. -/
def accepted (session : SessionId) (registry : SessionRegistry) : SessionCall → Option UInt64
  | .authorise binding currentEpoch currentBootDigest =>
      if binding.session = session ∧
          (registry.authorise binding currentEpoch currentBootDigest).1.isOk then
        some binding.requestSeq
      else none
  | _ => none

variable {registry : SessionRegistry}

/-- An opening is refused, or enters a new record. -/
theorem open_cases (registry : SessionRegistry) (principal : Bytes) (epoch : CoordinatorEpoch)
    (boot : BootIncarnation) (now : TimestampNs) :
    (∃ status, registry.open principal epoch boot now = (.error status, registry)) ∨
    ∃ record : SessionRecord, record.id = ⟨registry.nextSession⟩ ∧ record.lastRequestSeq = 0 ∧
      registry.sessions.size.toUInt64 < registry.limits.maxSessions.toUInt64 ∧
      registry.open principal epoch boot now =
        (.ok ((registry.sessions.insertIfNew record.id record).getD record.id record),
          { registry with
            sessions := registry.sessions.insertIfNew record.id record
            nextSession := registry.nextSession + 1 }) := by
  rw [SessionRegistry.open]
  split
  · exact Or.inl ⟨_, rfl⟩
  · split
    · exact Or.inl ⟨_, rfl⟩
    · rename_i hroom
      exact Or.inr ⟨_, rfl, rfl, UInt64.not_le.mp hroom, rfl⟩

/-- The table after a closing call: every record is as it was, but perhaps closed. -/
theorem close_cases (registry : SessionRegistry) (id : SessionId) :
    (registry.close id).2 = registry ∨
    ∃ record, registry.sessions[id]? = some record ∧ (registry.close id).2 = { registry with
          sessions := registry.sessions.insert id { record with closed := true } } := by
  rw [close]
  split
  · exact Or.inl rfl
  · rename_i record hrecord
    exact Or.inr ⟨record, hrecord, rfl⟩

/-- A request is refused and changes no record, or advances the sequence of its open session
under the current epoch and boot digest. -/
theorem authorise_cases (registry : SessionRegistry) (binding : SessionBinding)
    (epoch : CoordinatorEpoch) (bootDigest : UInt64) :
    ((registry.authorise binding epoch bootDigest).1.isOk = false ∧
      ∃ rejections, (registry.authorise binding epoch bootDigest).2 =
        { registry with replayRejections := rejections }) ∨
    ∃ record, registry.sessions[binding.session]? = some record ∧ record.closed = false ∧
      record.epoch = epoch ∧ binding.epoch = epoch ∧ binding.bootDigest = bootDigest ∧
      bootDigest ≠ 0 ∧ record.lastRequestSeq < binding.requestSeq ∧
      registry.authorise binding epoch bootDigest = (Status.success, { registry with
        sessions := registry.sessions.insert binding.session
          { record with lastRequestSeq := binding.requestSeq } }) := by
  rw [authorise]
  cases hrecord : registry.sessions[binding.session]? with
  | none => exact Or.inl ⟨Status.failure_not_isOk _ _, _, rfl⟩
  | some record =>
    dsimp only
    split
    · exact Or.inl ⟨Status.failure_not_isOk _ _, registry.replayRejections, rfl⟩
    rename_i hopen
    split
    · exact Or.inl ⟨Status.failure_not_isOk _ _, registry.replayRejections, rfl⟩
    rename_i hestablished
    split
    · exact Or.inl ⟨Status.failure_not_isOk _ _, registry.replayRejections, rfl⟩
    rename_i hepoch
    split
    · exact Or.inl ⟨Status.failure_not_isOk _ _, registry.replayRejections, rfl⟩
    rename_i hboot
    split
    · exact Or.inl ⟨Status.failure_not_isOk _ _, _, rfl⟩
    rename_i hadvances
    rw [not_or, not_not, not_not] at hepoch
    exact Or.inr ⟨record, rfl, Bool.eq_false_iff.mpr hopen, hepoch.2, hepoch.1,
      not_not.mp hboot, hestablished, UInt64.not_le.mp hadvances, rfl⟩

/-! ### Sequence numbers -/

/-- The last sequence number accepted for a session, zero if there is none. -/
def lastSeq (session : SessionId) (registry : SessionRegistry) : ℕ :=
  registry.sessions[session]?.elim 0 (·.lastRequestSeq.toNat)

theorem lastSeq_of_getElem? (hrecord : registry.sessions[session]? = some record) :
    lastSeq session registry = record.lastRequestSeq.toNat := by
  rw [lastSeq, hrecord, Option.elim_some]

/-- A record entered or replaced under one identity. -/
theorem lastSeq_insert :
    lastSeq session { registry with sessions := registry.sessions.insert id record } =
      if id = session then record.lastRequestSeq.toNat else lastSeq session registry := by
  rw [lastSeq, lastSeq]
  dsimp only
  rw [Std.TreeMap.getElem?_insert]
  simp only [Std.LawfulEqCmp.compare_eq_iff_eq]
  by_cases hid : id = session
  · rw [if_pos hid, if_pos hid, Option.elim_some]
  · rw [if_neg hid, if_neg hid]

/-- No call lowers the last sequence number of a session. -/
theorem lastSeq_le_after (session : SessionId) (registry : SessionRegistry) (call : SessionCall) :
    lastSeq session registry ≤ lastSeq session (registry.after call) := by
  cases call with
  | openSession principal epoch boot now =>
    obtain ⟨status, hopen⟩ | ⟨record, -, hfirst, -, hopen⟩ :=
      open_cases registry principal epoch boot now
    · rw [after, hopen]
    · rw [after, hopen, lastSeq, lastSeq]
      dsimp only
      rw [Std.TreeMap.getElem?_insertIfNew]
      by_cases hnew : compare record.id session = .eq ∧ record.id ∉ registry.sessions
      · rw [if_pos hnew, ← Std.LawfulEqCmp.compare_eq_iff_eq.mp hnew.1,
          Std.TreeMap.getElem?_eq_none hnew.2]
        exact Nat.zero_le _
      · rw [if_neg hnew]
  | closeSession id =>
    obtain hclose | ⟨record, hrecord, hclose⟩ := close_cases registry id
    · rw [after, hclose]
    · rw [after, hclose, lastSeq_insert]
      split
      · rename_i hid
        rw [hid] at hrecord
        exact (lastSeq_of_getElem? hrecord).le
      · exact le_rfl
  | closeAll =>
    rw [after, closeAll, lastSeq, lastSeq]
    dsimp only
    rw [Std.TreeMap.getElem?_map]
    cases registry.sessions[session]? <;> exact le_rfl
  | authorise binding epoch bootDigest =>
    obtain ⟨-, rejections, hrefused⟩ | ⟨record, hrecord, -, -, -, -, -, hadvances, haccepted⟩ :=
      authorise_cases registry binding epoch bootDigest
    · rw [after, hrefused]
      exact le_rfl
    · rw [after, haccepted, lastSeq_insert]
      split
      · rename_i hid
        rw [lastSeq_of_getElem? (hid ▸ hrecord)]
        exact (UInt64.lt_iff_toNat_lt.mp hadvances).le
      · exact le_rfl

theorem rising_accepted (session : SessionId) :
    Rising after (accepted session) (fun _ => True) UInt64.toNat (lastSeq session) where
  kept _ _ _ := trivial
  mono registry call _ := lastSeq_le_after session registry call
  above registry call sequence _ hemit := by
    cases call with
    | authorise binding epoch bootDigest =>
      rw [accepted] at hemit
      split at hemit
      · rename_i hcondition
        obtain ⟨hsession, hok⟩ := hcondition
        cases hemit
        obtain ⟨hrefused, -⟩ | ⟨record, hrecord, -, -, -, -, -, hadvances, haccepted⟩ :=
          authorise_cases registry binding epoch bootDigest
        · exact absurd (hok.symm.trans hrefused) (by decide)
        · rw [after, haccepted, lastSeq_insert, if_pos hsession,
            lastSeq_of_getElem? (hsession ▸ hrecord)]
          exact ⟨UInt64.lt_iff_toNat_lt.mp hadvances, le_rfl⟩
      · cases hemit
    | openSession | closeSession | closeAll => cases hemit

/-! ### Identities -/

/-- Identities are given out in order, and the next one is the first that is free. -/
structure Numbered (registry : SessionRegistry) : Prop where
  room : registry.sessions.size ≤ registry.limits.maxSessions.toUInt64.toNat
  next : registry.nextSession = (registry.sessions.size + 1).toUInt64
  used : ∀ id ∈ registry.sessions, id.raw.toNat ≤ registry.sessions.size

/-- Another table with the same identities in it, from which the same is given out next. -/
structure SameIdentities (registry other : SessionRegistry) : Prop where
  limits : other.limits = registry.limits
  next : other.nextSession = registry.nextSession
  size : other.sessions.size = registry.sessions.size
  mem : ∀ id ∈ other.sessions, id ∈ registry.sessions

theorem sameIdentities_insert (hrecord : registry.sessions[id]? = some record)
    (replacement : SessionRecord) :
    SameIdentities registry
      { registry with sessions := registry.sessions.insert id replacement } := by
  have hmem : id ∈ registry.sessions :=
    Std.TreeMap.mem_iff_isSome_getElem?.mpr (by rw [hrecord]; rfl)
  refine ⟨rfl, rfl, ?_, ?_⟩
  · dsimp only
    rw [Std.TreeMap.size_insert, if_pos (Std.TreeMap.contains_iff_mem.mpr hmem)]
  · intro other hother
    rw [Std.TreeMap.mem_insert, Std.LawfulEqCmp.compare_eq_iff_eq] at hother
    rcases hother with rfl | hold
    · exact hmem
    · exact hold

/-- A call leaves the identities as they are or gives out the next one. -/
theorem after_cases (registry : SessionRegistry) (call : SessionCall) :
    (registry.issued call = none ∧ SameIdentities registry (registry.after call)) ∨
    ∃ record : SessionRecord, record.id = ⟨registry.nextSession⟩ ∧
      registry.sessions.size.toUInt64 < registry.limits.maxSessions.toUInt64 ∧
      registry.issued call =
        some ((registry.sessions.insertIfNew record.id record).getD record.id record).id ∧
      registry.after call = { registry with
        sessions := registry.sessions.insertIfNew record.id record
        nextSession := registry.nextSession + 1 } := by
  cases call with
  | openSession principal epoch boot now =>
    rw [issued, after]
    obtain ⟨status, hopen⟩ | ⟨record, hid, -, hroom, hopen⟩ :=
      open_cases registry principal epoch boot now
    · rw [hopen]
      exact Or.inl ⟨rfl, rfl, rfl, rfl, fun _ hmem => hmem⟩
    · rw [hopen]
      exact Or.inr ⟨record, hid, hroom, rfl, rfl⟩
  | closeSession id =>
    refine Or.inl ⟨rfl, ?_⟩
    rw [after]
    obtain hclose | ⟨record, hrecord, hclose⟩ := close_cases registry id
    · rw [hclose]
      exact ⟨rfl, rfl, rfl, fun _ hmem => hmem⟩
    · rw [hclose]
      exact sameIdentities_insert hrecord _
  | closeAll =>
    exact Or.inl ⟨rfl, rfl, rfl, Std.TreeMap.size_map, fun id hmem => Std.TreeMap.mem_map.mp hmem⟩
  | authorise binding epoch bootDigest =>
    refine Or.inl ⟨rfl, ?_⟩
    rw [after]
    obtain ⟨-, rejections, hrefused⟩ | ⟨record, hrecord, -, -, -, -, -, -, haccepted⟩ :=
      authorise_cases registry binding epoch bootDigest
    · rw [hrefused]
      exact ⟨rfl, rfl, rfl, fun _ hmem => hmem⟩
    · rw [haccepted]
      exact sameIdentities_insert hrecord _

theorem Numbered.of_same (hnumbered : registry.Numbered) {other : SessionRegistry}
    (hsame : SameIdentities registry other) : other.Numbered where
  room := by
    rw [hsame.size, hsame.limits]
    exact hnumbered.room
  next := by
    rw [hsame.next, hsame.size]
    exact hnumbered.next
  used id hid := by
    rw [hsame.size]
    exact hnumbered.used id (hsame.mem id hid)

theorem Numbered.toNat_size (hnumbered : registry.Numbered) :
    registry.sessions.size.toUInt64.toNat = registry.sessions.size :=
  UInt64.toNat_ofNat_of_lt' (lt_of_le_of_lt hnumbered.room (UInt64.toNat_lt _))

/-- The identity that a table with room gives out is the successor of its size. -/
theorem Numbered.toNat_next (hnumbered : registry.Numbered)
    (hroom : registry.sessions.size.toUInt64 < registry.limits.maxSessions.toUInt64) :
    registry.nextSession.toNat = registry.sessions.size + 1 := by
  have hbound := UInt64.toNat_lt registry.limits.maxSessions.toUInt64
  have hless := UInt64.lt_iff_toNat_lt.mp hroom
  rw [hnumbered.toNat_size] at hless
  rw [hnumbered.next]
  exact UInt64.toNat_ofNat_of_lt' (lt_of_le_of_lt hless hbound)

theorem Numbered.fresh (hnumbered : registry.Numbered)
    (hroom : registry.sessions.size.toUInt64 < registry.limits.maxSessions.toUInt64) :
    (⟨registry.nextSession⟩ : SessionId) ∉ registry.sessions := by
  intro hused
  have hle := hnumbered.used _ hused
  rw [hnumbered.toNat_next hroom] at hle
  exact absurd hle (Nat.not_succ_le_self _)

theorem Numbered.size_opened (hnumbered : registry.Numbered)
    (hid : record.id = ⟨registry.nextSession⟩)
    (hroom : registry.sessions.size.toUInt64 < registry.limits.maxSessions.toUInt64) :
    (registry.sessions.insertIfNew record.id record).size = registry.sessions.size + 1 := by
  rw [Std.TreeMap.size_insertIfNew, if_neg (hid ▸ hnumbered.fresh hroom)]

theorem Numbered.opened (hnumbered : registry.Numbered) (hid : record.id = ⟨registry.nextSession⟩)
    (hroom : registry.sessions.size.toUInt64 < registry.limits.maxSessions.toUInt64) :
    Numbered { registry with
      sessions := registry.sessions.insertIfNew record.id record
      nextSession := registry.nextSession + 1 } := by
  have hsize := hnumbered.size_opened hid hroom
  have hnext := hnumbered.toNat_next hroom
  have hbound := UInt64.lt_iff_toNat_lt.mp hroom
  rw [hnumbered.toNat_size] at hbound
  refine ⟨hsize.trans_le hbound, ?_, fun id hmem => ?_⟩
  · dsimp only
    rw [hsize, hnumbered.next]
    exact (UInt64.ofNat_add (registry.sessions.size + 1) 1).symm
  · dsimp only at hmem ⊢
    rw [hsize]
    rw [Std.TreeMap.mem_insertIfNew, Std.LawfulEqCmp.compare_eq_iff_eq] at hmem
    rcases hmem with heq | hold
    · rw [← heq, hid]
      exact hnext.le
    · exact Nat.le_succ_of_le (hnumbered.used id hold)

theorem rising_issued :
    Rising after issued Numbered (fun id => id.raw.toNat)
      (fun registry => registry.sessions.size) where
  kept registry call hnumbered := by
    obtain ⟨-, hsame⟩ | ⟨record, hid, hroom, -, hafter⟩ := after_cases registry call
    · exact hnumbered.of_same hsame
    · rw [hafter]
      exact hnumbered.opened hid hroom
  mono registry call hnumbered := by
    obtain ⟨-, hsame⟩ | ⟨record, -, -, -, hafter⟩ := after_cases registry call
    · exact hsame.size.ge
    · rw [hafter]
      exact Std.TreeMap.size_le_size_insertIfNew
  above registry call id hnumbered hemit := by
    obtain ⟨hnone, -⟩ | ⟨record, hid, hroom, hsome, hafter⟩ := after_cases registry call
    · rw [hnone] at hemit
      cases hemit
    · have hfresh : record.id ∉ registry.sessions := hid ▸ hnumbered.fresh hroom
      rw [hsome, Std.TreeMap.getD_insertIfNew, if_pos ⟨Std.ReflCmp.compare_self, hfresh⟩] at hemit
      cases hemit
      rw [hafter]
      dsimp only
      rw [hnumbered.size_opened hid hroom, hid, hnumbered.toNat_next hroom]
      exact ⟨Nat.lt_succ_self _, le_rfl⟩

theorem numbered_empty (limits : Limits) : Numbered { limits } where
  room := Nat.zero_le _
  next := rfl
  used _ hmem := absurd hmem Std.TreeMap.not_mem_emptyc

end SessionRegistry

/-- The coordinator's calls are calls of the table under its own epoch and boot
incarnation; one that has been shut down opens no session. -/
theorem Impl.session_calls (impl : Impl) (registry : SessionRegistry) (principal : Bytes)
    (now : TimestampNs) (binding : SessionBinding) :
    (impl.openSession registry principal now).2 = (if impl.stopped then registry
      else registry.after (.openSession principal impl.epoch impl.boot now)) ∧
    (impl.authorise registry binding).2 =
      registry.after (.authorise binding impl.epoch (bootDigestOf impl.boot)) := by
  refine ⟨?_, rfl⟩
  rw [Impl.openSession, apply_ite Prod.snd]
  rfl

/-! ## Replay protection -/

/-- The table of a new incarnation after the calls. -/
def sessionsAfter (limits : Limits) (calls : List SessionCall) : SessionRegistry :=
  run SessionRegistry.after { limits } calls

/-- The sequence numbers that the calls accept for a session, in order. -/
def acceptedSequences (limits : Limits) (calls : List SessionCall) (session : SessionId) :
    List UInt64 :=
  emissions SessionRegistry.after (SessionRegistry.accepted session) { limits } calls

/-- The identities that the calls give out, in order. -/
def issuedSessions (limits : Limits) (calls : List SessionCall) : List SessionId :=
  emissions SessionRegistry.after SessionRegistry.issued { limits } calls

/-- In every interleaving of calls the accepted sequence numbers of each session rise
strictly and no identity is given out twice.  A request that follows is refused and changes
no record, or it is one of an open session under the current epoch and boot digest and
changes that session only. -/
theorem session_replay_protection (limits : Limits) (calls : List SessionCall) :
    (∀ session, (acceptedSequences limits calls session).Pairwise (· < ·)) ∧
    (issuedSessions limits calls).Nodup ∧
    ∀ binding epoch bootDigest,
      let registry := sessionsAfter limits calls
      let outcome := registry.authorise binding epoch bootDigest
      (outcome.1.isOk = false ∧ outcome.2.sessions = registry.sessions) ∨
      (outcome.1.isOk = true ∧ binding.epoch = epoch ∧ binding.bootDigest = bootDigest ∧
        (∃ record, registry.sessions[binding.session]? = some record ∧ record.closed = false ∧
          record.epoch = epoch) ∧
        ∀ other, other ≠ binding.session →
          outcome.2.sessions[other]? = registry.sessions[other]?) := by
  refine ⟨fun session => ?_, ?_, fun binding epoch bootDigest => ?_⟩
  · exact ((SessionRegistry.rising_accepted session).pairwise trivial calls).imp
      UInt64.lt_iff_toNat_lt.mpr
  · refine (SessionRegistry.rising_issued.pairwise
      (SessionRegistry.numbered_empty limits) calls).imp fun hless heq => ?_
    exact absurd (congrArg (fun id : SessionId => id.raw.toNat) heq) hless.ne
  · dsimp only
    obtain ⟨hrefused, rejections, hafter⟩ |
      ⟨record, hrecord, hopen, hunder, hepoch, hboot, -, -, haccepted⟩ :=
      SessionRegistry.authorise_cases (sessionsAfter limits calls) binding epoch bootDigest
    · rw [hafter]
      exact Or.inl ⟨hrefused, rfl⟩
    · rw [haccepted]
      refine Or.inr ⟨rfl, hepoch, hboot, ⟨record, hrecord, hopen, hunder⟩, fun other hother => ?_⟩
      rw [Std.TreeMap.getElem?_insert, if_neg]
      rw [Std.LawfulEqCmp.compare_eq_iff_eq]
      exact hother.symm

namespace Sample

/-- Two sessions with interleaved requests, one of them repeated. -/
def conversation : List SessionCall :=
  [.openSession [] ⟨1⟩ { bootOrdinal := 1 } 0, .openSession [] ⟨1⟩ { bootOrdinal := 1 } 0,
    .authorise ⟨⟨1⟩, ⟨1⟩, 9, 5⟩ ⟨1⟩ 9, .authorise ⟨⟨2⟩, ⟨1⟩, 9, 5⟩ ⟨1⟩ 9,
    .authorise ⟨⟨1⟩, ⟨1⟩, 9, 5⟩ ⟨1⟩ 9, .authorise ⟨⟨1⟩, ⟨1⟩, 9, 7⟩ ⟨1⟩ 9, .closeSession ⟨1⟩,
    .authorise ⟨⟨1⟩, ⟨1⟩, 9, 8⟩ ⟨1⟩ 9]

end Sample

theorem session_replay_protection_sample :
    acceptedSequences {} Sample.conversation ⟨1⟩ = [5, 7] ∧
      (acceptedSequences {} Sample.conversation ⟨1⟩).Pairwise (· < ·) ∧
      issuedSessions {} Sample.conversation = [⟨1⟩, ⟨2⟩] ∧
      (issuedSessions {} Sample.conversation).Nodup :=
  ⟨by decide +kernel, (session_replay_protection {} Sample.conversation).1 _, by decide +kernel,
    (session_replay_protection {} Sample.conversation).2.1⟩

end SwitchFailover.Runtime
