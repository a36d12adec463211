import SwitchFailover.Persist.Journal
import SwitchFailover.Runtime.Failover

/-!
# Executing the primitive calls

One equation for each primitive of the call layer, so that a call is followed
step by step without unfolding it.
-/

namespace SwitchFailover.Runtime

open SwitchFailover.Core Model Plan Persist Library.Effects

variable {store : DurableStore} {change : Impl → Impl} {record : EvidenceRecord}

variable {A B : Type} {state : CallState}

namespace CallState

/-- The clock has been read once more. -/
def ticked (state : CallState) : CallState := { state with reads := state.reads + 1 }

def withImpl (state : CallState) (impl : Impl) : CallState := { state with impl }

@[simp]
theorem ticked_impl (state : CallState) : state.ticked.impl = state.impl := rfl

@[simp]
theorem ticked_env (state : CallState) : state.ticked.env = state.env := rfl

@[simp]
theorem ticked_appends (state : CallState) : state.ticked.appends = state.appends := rfl

@[simp]
theorem ticked_reads (state : CallState) : state.ticked.reads = state.reads + 1 := rfl

@[simp]
theorem withImpl_impl (state : CallState) (impl : Impl) : (state.withImpl impl).impl = impl := rfl

@[simp]
theorem withImpl_env (state : CallState) (impl : Impl) :
    (state.withImpl impl).env = state.env := rfl

@[simp]
theorem withImpl_appends (state : CallState) (impl : Impl) :
    (state.withImpl impl).appends = state.appends := rfl

@[simp]
theorem withImpl_reads (state : CallState) (impl : Impl) :
    (state.withImpl impl).reads = state.reads := rfl

end CallState

/-! ## Equations -/

@[simp]
theorem execute_fail (status : Status) :
    execute (fail status : Call A) state = (.error (.failed status), state) := rfl

@[simp]
theorem execute_ofResult_ok (value : A) :
    execute (ofResult (.ok value)) state = (.ok value, state) := rfl

@[simp]
theorem execute_ofResult_error (status : Status) :
    execute (ofResult (.error status) : Call A) state = (.error (.failed status), state) := rfl

@[simp]
theorem execute_getImpl : execute getImpl state = (.ok state.impl, state) := rfl

@[simp]
theorem execute_modifyImpl (change : Impl → Impl) :
    execute (modifyImpl change) state = (.ok (), state.withImpl (change state.impl)) := rfl

@[simp]
theorem execute_now :
    execute now state = (.ok (state.env.clock state.reads), state.ticked) := rfl

/-- The coordinator after an append, however it ended. -/
def Impl.appended (impl : Impl) (store : DurableStore) (fate : Fate) (kind : RecordKind)
    (payload : Bytes) : Impl :=
  { impl with
    store := some (store.append impl.disk fate kind payload).2.1
    disk := (store.append impl.disk fate kind payload).2.2 }

/-- The call state after an append. -/
def CallState.appended (state : CallState) (store : DurableStore) (kind : RecordKind)
    (payload : Bytes) : CallState :=
  { state with
    impl := state.impl.appended store (state.env.fate state.appends) kind payload
    appends := state.appends + 1 }

/-- What the caller of an append sees. -/
def appendOutcome : AppendResult → Except Stop (Result Unit)
  | .appended => .ok (.ok ())
  | .failed status => .ok (.error status)
  | .crashed => .error .crashed

theorem append_done_alive {disk : Disk} {kind : RecordKind} {payload : Bytes} :
    (store.append disk .done kind payload).1 ≠ .crashed := by
  rw [DurableStore.append]
  cases store.prepare kind payload with
  | error status => simp
  | ok encoded => simp

/-- The stop an append causes in a call that must persist its record. -/
def appendStop : AppendResult → Option Stop
  | .appended => none
  | .failed status => some (.failed status)
  | .crashed => some .crashed

theorem execute_appendRecord_none (hstore : state.impl.store = none) (kind : RecordKind)
    (payload : Bytes) :
    execute (appendRecord kind payload) state = (.ok (.ok ()), state) := by
  rw [appendRecord, execute_bind, execute_get]
  simp [hstore]

theorem execute_appendRecord_some (hstore : state.impl.store = some store) (kind : RecordKind)
    (payload : Bytes) :
    execute (appendRecord kind payload) state = (appendOutcome
          (store.append state.impl.disk (state.env.fate state.appends) kind payload).1,
        state.appended store kind payload) := by
  rw [appendRecord, execute_bind, execute_get]
  simp only [hstore]
  rw [execute_bind, execute_modify]
  rcases hresult : store.append state.impl.disk (state.env.fate state.appends) kind payload with
    ⟨result, after⟩
  cases result with
  | appended => simp [appendOutcome, CallState.appended, Impl.appended, hresult]
  | failed status => simp [appendOutcome, CallState.appended, Impl.appended, hresult]
  | crashed => simp [appendOutcome, CallState.appended, Impl.appended, hresult]

/-- A record of this kind and payload reached the journal in full. -/
def Written (disk : Disk) (kind : RecordKind) (payload : Bytes) : Prop :=
  ∃ record ∈ disk.completed, record.header.kind = kind.raw ∧ record.payload = payload

/-- The coordinator after an append that was done, if there is a journal. -/
def Impl.journaled (impl : Impl) (kind : RecordKind) (payload : Bytes) : Impl :=
  match impl.store with
  | none => impl
  | some store => impl.appended store .done kind payload

/-- A journaled record changes the store and the disk, nothing else. -/
theorem Impl.journaled_frame (impl : Impl) (kind : RecordKind) (payload : Bytes) :
    ∃ store disk, impl.journaled kind payload = { impl with store, disk } := by
  rw [Impl.journaled]
  split
  · exact ⟨impl.store, impl.disk, rfl⟩
  · exact ⟨_, _, rfl⟩

section Frame

variable (impl : Impl) (kind : RecordKind) (payload : Bytes)

theorem journaled_authority : (impl.journaled kind payload).authority = impl.authority := by
  obtain ⟨_, _, hframe⟩ := impl.journaled_frame kind payload
  rw [hframe]

theorem journaled_plans : (impl.journaled kind payload).plans = impl.plans := by
  obtain ⟨_, _, hframe⟩ := impl.journaled_frame kind payload
  rw [hframe]

theorem journaled_evidence : (impl.journaled kind payload).evidence = impl.evidence := by
  obtain ⟨_, _, hframe⟩ := impl.journaled_frame kind payload
  rw [hframe]

end Frame

def CallState.journaled (state : CallState) (kind : RecordKind) (payload : Bytes) :
    CallState :=
  { state with
    impl := state.impl.journaled kind payload
    appends := if state.impl.store.isSome then state.appends + 1 else state.appends }

theorem Impl.journaled_stored (impl : Impl) (kind : RecordKind) (payload : Bytes) :
    (impl.journaled kind payload).store.isSome = impl.store.isSome := by
  rw [Impl.journaled]
  split
  · rfl
  · rename_i store hstore
    rw [hstore]
    rfl

/-- An append that is reported as done was done, and its record is complete. -/
theorem appended_of_done {kind : RecordKind} {payload : Bytes}
    (hstore : state.impl.store = some store)
    (happended : (store.append state.impl.disk (state.env.fate state.appends) kind
      payload).1 = .appended) :
    state.appended store kind payload = state.journaled kind payload ∧
      Written (state.impl.journaled kind payload).disk kind payload := by
  obtain ⟨hfate, encoded, hprepare, -, hdisk⟩ := DurableStore.append_eq_appended happended
  have himpl : state.impl.appended store (state.env.fate state.appends) kind payload =
      state.impl.journaled kind payload := by
    rw [Impl.journaled, hstore, hfate]
  refine ⟨?_, store.recordFor kind payload, ?_, rfl, rfl⟩
  · rw [CallState.appended, CallState.journaled, himpl, hstore]
    rfl
  · rw [← himpl]
    change _ ∈ (store.append _ _ _ _).2.2.completed
    rw [hdisk, completed_receive_full]
    exact List.mem_append_right _ List.mem_cons_self

/-! ## The same as rules about outcomes -/

section Rules

variable {post : Except Stop A → CallState → Prop}

@[simp]
theorem after_fail (status : Status) :
    After (fail status) state post ↔ post (.error (.failed status)) state := Iff.rfl

theorem after_getImpl {next : Impl → Call A} :
    After (getImpl >>= next) state post ↔ After (next state.impl) state post := Iff.rfl

theorem after_now {next : TimestampNs → Call A} :
    After (now >>= next) state post ↔
      After (next (state.env.clock state.reads)) state.ticked post := Iff.rfl

theorem after_modifyImpl {next : Unit → Call A} :
    After (modifyImpl change >>= next) state post ↔
      After (next ()) (state.withImpl (change state.impl)) post := Iff.rfl

theorem after_modifyImpl_last {post : Except Stop Unit → CallState → Prop} :
    After (modifyImpl change) state post ↔
      post (.ok ()) (state.withImpl (change state.impl)) := Iff.rfl

/-- A check at the end of a call. -/
theorem After.ofResult {result : Result A}
    (hok : ∀ value, result = .ok value → post (.ok value) state)
    (herror : ∀ status, result = .error status → post (.error (.failed status)) state) :
    After (ofResult result) state post := by
  cases hresult : result with
  | ok value => exact hok value hresult
  | error status => exact herror status hresult

/-- A check either stops the call in the same state or lets it continue. -/
theorem After.check {result : Result B} {next : B → Call A}
    (herror : ∀ status, result = .error status → post (.error (.failed status)) state)
    (hok : ∀ value, result = .ok value → After (next value) state post) :
    After (Runtime.ofResult result >>= next) state post := by
  rw [after_bind]
  exact After.ofResult hok herror

theorem After.running {next : Unit → Call A}
    (herror : ∀ status, post (.error (.failed status)) state)
    (hok : state.impl.stopped = false → After (next ()) state post) :
    After (ensureRunning >>= next) state post := by
  rw [ensureRunning, bind_assoc, after_getImpl]
  apply After.check
  · intro status _
    exact herror status
  · intro value hvalue
    exact hok (by simpa using hvalue)

theorem After.withTopology {message : Bytes} {next : Unit → Call A}
    (herror : ∀ status, post (.error (.failed status)) state)
    (hok : state.impl.topologyPresent = true → After (next ()) state post) :
    After (requireTopology message >>= next) state post := by
  rw [requireTopology, bind_assoc, after_getImpl]
  apply After.check
  · intro status _
    exact herror status
  · intro value hvalue
    exact hok (by simpa using hvalue)

section Append

variable {kind : RecordKind} {payload : Bytes} {next : Unit → Call A}
  (hfailed : ∀ store stop, state.impl.store = some store →
    appendStop (store.append state.impl.disk (state.env.fate state.appends) kind
      payload).1 = some stop →
    post (.error stop) (state.appended store kind payload))

include hfailed

/-- The ways an append goes: there is no journal, it is done, it fails, or the
process dies. -/
theorem After.persist (hnone : state.impl.store = none → After (next ()) state post)
    (happended : ∀ store, state.impl.store = some store →
      (store.append state.impl.disk (state.env.fate state.appends) kind payload).1 = .appended →
      After (next ()) (state.appended store kind payload) post) :
    After (persistRecord kind payload >>= next) state post := by
  rw [persistRecord, bind_assoc, after_bind, After]
  cases hstore : state.impl.store with
  | none =>
    rw [execute_appendRecord_none hstore]
    exact hnone hstore
  | some store =>
    rw [execute_appendRecord_some hstore]
    cases hresult : (store.append state.impl.disk (state.env.fate state.appends) kind
        payload).1 with
    | appended => exact happended store hstore hresult
    | failed status => exact hfailed store (.failed status) hstore (by rw [hresult]; rfl)
    | crashed => exact hfailed store .crashed hstore (by rw [hresult]; rfl)

/-- An append either stops the call, or is done if there is a journal. -/
theorem After.write (hdone : (∀ store, state.impl.store = some store →
        (store.append state.impl.disk (state.env.fate state.appends) kind payload).1 = .appended) →
      After (next ()) (state.journaled kind payload) post) :
    After (persistRecord kind payload >>= next) state post := by
  apply After.persist hfailed
  · intro hnone
    have hsame : state.journaled kind payload = state := by
      rw [CallState.journaled, Impl.journaled, hnone]
      rfl
    rw [hsame] at hdone
    exact hdone fun store hstore => by simp [hnone] at hstore
  · intro store hstore happended
    rw [(appended_of_done hstore happended).1]
    apply hdone
    intro other hother
    rw [hstore] at hother
    cases hother
    exact happended

/-- An append either stops the call, or leaves its record in the journal if there
is one. -/
theorem After.journal (hdone : (state.impl.store.isSome = true →
        Written (state.impl.journaled kind payload).disk kind payload) →
      After (next ()) (state.journaled kind payload) post) :
    After (persistRecord kind payload >>= next) state post := by
  apply After.write hfailed
  intro happended
  apply hdone
  intro hstored
  obtain ⟨store, hstore⟩ := Option.isSome_iff_exists.mp hstored
  exact (appended_of_done hstore (happended store hstore)).2

end Append

/-- The call state after the store has judged a record. -/
def CallState.admitted (state : CallState) (record : EvidenceRecord) : CallState :=
  state.ticked.withImpl { state.impl with
    evidence := (state.impl.evidence.admitRecord (state.env.clock state.reads) record).2 }

@[simp]
theorem CallState.admitted_env (state : CallState) (record : EvidenceRecord) :
    (state.admitted record).env = state.env := rfl

@[simp]
theorem CallState.admitted_appends (state : CallState) (record : EvidenceRecord) :
    (state.admitted record).appends = state.appends := rfl

theorem After.admission {next : Unit → Call A} (herror : ∀ status,
      (state.impl.evidence.admitRecord (state.env.clock state.reads) record).1 = .error status →
      post (.error (.failed status)) (state.admitted record))
    (hok : (state.impl.evidence.admitRecord (state.env.clock state.reads) record).1 = .ok () →
      After (next ()) (state.admitted record) post) :
    After (admitToStore record >>= next) state post := by
  rw [admitToStore, bind_assoc, after_now, bind_assoc, after_getImpl]
  rw [bind_assoc, after_modifyImpl]
  exact After.check herror fun _ hvalue => hok hvalue

theorem after_admit_last {post : Except Stop Unit → CallState → Prop}
    (hok : post (.ok ()) (state.admitted record))
    (herror : ∀ status, post (.error (.failed status)) (state.admitted record)) :
    After (admitToStore record) state post := by
  rw [admitToStore, after_now, after_getImpl, after_modifyImpl]
  exact After.ofResult (fun _ _ => hok) fun status _ => herror status

end Rules

end SwitchFailover.Runtime
