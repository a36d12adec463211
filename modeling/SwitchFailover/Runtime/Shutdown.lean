import SwitchFailover.Persist.Acceptance
import SwitchFailover.Runtime.Durability

/-!
# Shutdown beside other operations

Operations take the coordinator's mutex, test whether it is stopped, and append their
records.  Shutdown does not take the mutex: it sets the flag, appends its record and
closes the store.  An operation that passed its test before the flag was set can therefore
append after the record of the shutdown, and a second shutdown returns before the first
one has appended anything.

The atomic steps are the acquisition of the mutex, a test or exchange of the flag, an
append and the closing of the store; an interleaving is any sequence of them.
-/

namespace SwitchFailover.Runtime

open SwitchFailover.Core Codec Model Plan Persist Library.Transitions

variable {other : ℕ} {impl : Impl} {store : DurableStore} {written : Bool} {payload : Bytes}

/-! ## Threads -/

/-- What an operation does with the flag and with the journal. -/
inductive SharedStep
  | test
  | append (kind : RecordKind) (payload : Bytes)
  deriving DecidableEq

/-- The operations under the mutex, with the records they append when nothing makes them
return earlier.  The operations that append nothing are one case. -/
inductive LockedOperation
  | silent
  | installTopology (topology : TopologySnapshot)
  | installPolicy (policy : Policy)
  | recordFailure (failure : FailureRecord)
  | declareFailure (failure : FailureRecord) (fence : Option FenceRecord)
  | applyNothing (receipt : ApplyReceipt)
  | applyPlan (applying : ReconstructionPlan) (receipt : ApplyReceipt)
      (applied : ReconstructionPlan)

/-- Declaring a failure tests the flag again where the failure is recorded. -/
def LockedOperation.steps : LockedOperation → List SharedStep
  | .silent => [.test]
  | .installTopology topology => [.test, .append .topologyInstalled (topologyPayload topology)]
  | .installPolicy policy => [.test, .append .policyInstalled policy.encode]
  | .recordFailure failure => [.test, .append .failureCommitted (encodeFailureRecord failure)]
  | .declareFailure failure fence =>
      [.test, .test, .append .failureCommitted (encodeFailureRecord failure)] ++
        fence.toList.map fun fence => .append .fenceCommitted (encodeFenceRecord fence)
  | .applyNothing receipt => [.test, .append .applyCompleted (encodeApplyReceipt receipt)]
  | .applyPlan applying receipt applied =>
      [.test, .append .planCommitted applying.encode,
        .append .applyCompleted (encodeApplyReceipt receipt),
        .append .planCommitted applied.encode]

variable {steps : List SharedStep}

/-- Where a thread is.  A thread that called shutdown answers whether it won the exchange
of the flag and whether it returned Ok. -/
inductive Thread
  | waiting (steps : List SharedStep)
  | inside (steps : List SharedStep)
  | finished
  | calling
  | recording
  | closing (recorded : Bool)
  | answered (won ok : Bool)
  deriving DecidableEq

variable {next : Thread} {threads : ℕ → Thread}

structure Concurrent where
  threads : ℕ → Thread
  holder : Option ℕ := none
  stopped : Bool
  store : DurableStore
  disk : Disk
  epoch : CoordinatorEpoch

/-- The sync and the closing of the store add no record and are one step. -/
inductive AtomicStep
  | acquire (thread : ℕ)
  | test (thread : ℕ)
  | append (thread : ℕ) (written : Bool)
  | leave (thread : ℕ)
  | exchange (thread : ℕ)
  | record (thread : ℕ) (written : Bool)
  | close (thread : ℕ) (synced : Bool)

def AtomicStep.thread : AtomicStep → ℕ
  | .acquire thread | .test thread | .append thread _ | .leave thread | .exchange thread
  | .record thread _ | .close thread _ => thread

namespace Concurrent

/-- An append is atomic: it writes the whole record or leaves the file as it was. -/
def atomically (written : Bool) : Fate := if written then .done else .fault 0

def moved (state : Concurrent) (thread : ℕ) (next : Thread) : Concurrent :=
  { state with threads := Function.update state.threads thread next }

/-- The end of an operation, which releases the mutex. -/
def released (state : Concurrent) (thread : ℕ) : Concurrent :=
  { state.moved thread .finished with holder := none }

/-- One append, and whether it returned Ok. -/
def appended (state : Concurrent) (written : Bool) (kind : RecordKind) (payload : Bytes) :
    Bool × Concurrent :=
  let (result, store, disk) := state.store.append state.disk (atomically written) kind payload
  (match result with
    | .appended => true
    | _ => false, { state with store, disk })

/-- A step that a thread cannot take changes nothing. -/
def step (state : Concurrent) : AtomicStep → Concurrent
  | .acquire thread =>
      match state.threads thread, state.holder with
      | .waiting steps, none => { state.moved thread (.inside steps) with holder := some thread }
      | _, _ => state
  | .test thread =>
      match state.threads thread with
      | .inside (.test :: rest) =>
          if state.stopped then state.released thread else state.moved thread (.inside rest)
      | _ => state
  | .append thread written =>
      match state.threads thread with
      | .inside (.append kind payload :: rest) =>
          let (ok, after) := state.appended written kind payload
          if ok then after.moved thread (.inside rest) else after.released thread
      | _ => state
  | .leave thread =>
      match state.threads thread with
      | .inside _ => state.released thread
      | _ => state
  | .exchange thread =>
      match state.threads thread with
      | .calling =>
          if state.stopped then state.moved thread (.answered false true)
          else { state.moved thread .recording with stopped := true }
      | _ => state
  | .record thread written =>
      match state.threads thread with
      | .recording =>
          let (ok, after) :=
            state.appended written .shutdownClean (encodeU64Payload state.epoch.raw)
          after.moved thread (.closing ok)
      | _ => state
  | .close thread synced =>
      match state.threads thread with
      | .closing recorded =>
          { state.moved thread (.answered true (recorded && synced)) with
            store := { state.store with isOpen := false } }
      | _ => state

/-- The threads of a running coordinator, before any of them has begun. -/
def begin (impl : Impl) (store : DurableStore) (threads : ℕ → Thread) : Concurrent where
  threads := threads
  stopped := impl.stopped
  store := store
  disk := impl.disk
  epoch := impl.epoch

end Concurrent

/-- A thread that has not begun: an operation in front of the mutex, or a shutdown. -/
def Thread.Fresh (thread : Thread) : Prop :=
  (∃ operation : LockedOperation, thread = .waiting operation.steps) ∨ thread = .calling

/-! ## What the steps keep -/

def StartsWithAppend : List SharedStep → Prop
  | .append _ _ :: _ => True
  | _ => False

namespace Thread

/-- The shutdown that set the flag. -/
def Won : Thread → Prop
  | .recording | .closing _ | .answered true _ => True
  | _ => False

/-- A shutdown that has written its record, or returned Ok. -/
def Succeeded : Thread → Prop
  | .closing true | .answered _ true => True
  | _ => False

/-- The thread is in an operation whose next step appends a record. -/
def Appending : Thread → Prop
  | .inside steps => StartsWithAppend steps
  | _ => False

theorem Fresh.not_won {thread : Thread} (hfresh : thread.Fresh) : ¬thread.Won := by
  rcases hfresh with ⟨operation, rfl⟩ | rfl
  · exact id
  · exact id

theorem Fresh.not_succeeded {thread : Thread} (hfresh : thread.Fresh) : ¬thread.Succeeded := by
  rcases hfresh with ⟨operation, rfl⟩ | rfl
  · exact id
  · exact id

/-- Every operation tests the flag before it appends anything. -/
theorem Fresh.tests (hfresh : (Thread.waiting steps).Fresh) : ¬StartsWithAppend steps := by
  rcases hfresh with ⟨operation, heq⟩ | heq
  · cases heq
    cases operation <;> exact id
  · cases heq

end Thread

namespace Concurrent

variable {state : Concurrent} {thread : ℕ}

theorem threads_moved (state : Concurrent) (thread : ℕ) (next : Thread) (other : ℕ) :
    (state.moved thread next).threads other =
      if other = thread then next else state.threads other :=
  Function.update_apply _ _ _ _

/-- A step moves the thread that takes it. -/
theorem threads_step {event : AtomicStep} {other : ℕ} (hother : other ≠ event.thread) :
    (state.step event).threads other = state.threads other := by
  have hmoved : ∀ next, (state.moved event.thread next).threads other = state.threads other :=
    fun next => (threads_moved _ _ next other).trans (if_neg hother)
  cases event with
  | append thread written =>
    rw [step]
    split
    · dsimp only
      split
      · exact hmoved _
      · exact hmoved _
    · rfl
  | acquire thread | leave thread | record thread written | close thread synced =>
    rw [step]
    split
    · exact hmoved _
    · rfl
  | test thread | exchange thread =>
    rw [step]
    split
    · split
      · exact hmoved _
      · exact hmoved _
    · rfl

theorem threads_run {steps : List AtomicStep} {other : ℕ}
    (hother : ∀ event ∈ steps, other ≠ event.thread) :
    (run step state steps).threads other = state.threads other := by
  induction steps generalizing state with
  | nil => rfl
  | cons event steps ih =>
    rw [run_cons, ih fun later hlater => hother later (List.mem_cons_of_mem _ hlater)]
    exact threads_step (hother event List.mem_cons_self)

theorem won_of_moved (hwon : next.Won → (state.threads thread).Won)
    (hother : ((state.moved thread next).threads other).Won) : (state.threads other).Won := by
  rw [threads_moved] at hother
  split_ifs at hother with hsame
  · rw [hsame]
    exact hwon hother
  · exact hother

theorem waiting_of_moved (hwaiting : ∀ steps, next ≠ .waiting steps)
    (hother : (state.moved thread next).threads other = .waiting steps) :
    state.threads other = .waiting steps := by
  rw [threads_moved] at hother
  split_ifs at hother
  · exact absurd hother (hwaiting steps)
  · exact hother

/-- The record of the shutdown is the last one, and no thread is about to append. -/
structure Sealed (state : Concurrent) : Prop where
  stopped : state.stopped = true
  last : ∃ record, state.disk.completed.getLast? = some record ∧
    record.header.kind = RecordKind.shutdownClean.raw
  quiet : ∀ thread, ¬(state.threads thread).Appending
  recorded : ∀ thread, state.threads thread ≠ .recording

structure Coherent (state : Concurrent) : Prop where
  aligned : state.disk.Aligned state.store.nextSequence
  tested : ∀ thread steps, state.threads thread = .waiting steps → ¬StartsWithAppend steps
  unstarted : state.stopped = false → ∀ thread, ¬(state.threads thread).Won
  unique : ∀ first second, (state.threads first).Won → (state.threads second).Won → first = second
  sealed : ∀ thread, (state.threads thread).Succeeded → state.Sealed

theorem Coherent.not_succeeded (hcoherent : state.Coherent)
    (hopen : ¬state.Sealed) (thread : ℕ) : ¬(state.threads thread).Succeeded :=
  fun hsucceeded => hopen (hcoherent.sealed thread hsucceeded)

theorem Coherent.begin (haligned : impl.disk.Aligned store.nextSequence)
    (hfresh : ∀ thread, (threads thread).Fresh) :
    (Concurrent.begin impl store threads).Coherent where
  aligned := haligned
  tested := by
    intro thread steps hthread
    exact Thread.Fresh.tests (hthread ▸ hfresh thread)
  unstarted := fun _ thread => (hfresh thread).not_won
  unique := fun first _ hwon => absurd hwon (hfresh first).not_won
  sealed := fun thread hsucceeded => absurd hsucceeded (hfresh thread).not_succeeded

/-- A thread moves on by itself: it wins nothing and appends nothing where that is ruled
out. -/
theorem Coherent.moved (hcoherent : state.Coherent) (thread : ℕ) (next : Thread)
    (hwaiting : ∀ steps, next ≠ .waiting steps) (hwon : next.Won → (state.threads thread).Won)
    (hrecording : next ≠ .recording)
    (hsucceeded : next.Succeeded → ∃ other, (state.threads other).Succeeded)
    (happending : next.Appending → ¬state.Sealed) :
    (state.moved thread next).Coherent := by
  have hlookup := threads_moved state thread next
  have hsealed : state.Sealed → (state.moved thread next).Sealed := by
    intro hsealed
    refine ⟨hsealed.stopped, hsealed.last, ?_, ?_⟩
    · intro other
      rw [hlookup]
      split_ifs
      · exact fun happends => happending happends hsealed
      · exact hsealed.quiet other
    · intro other
      rw [hlookup]
      split_ifs
      · exact hrecording
      · exact hsealed.recorded other
  refine ⟨hcoherent.aligned, ?_, ?_, ?_, ?_⟩
  · exact fun other steps hsteps =>
      hcoherent.tested other steps (waiting_of_moved hwaiting hsteps)
  · exact fun hrunning other hother =>
      hcoherent.unstarted hrunning other (won_of_moved hwon hother)
  · exact fun first second hfirst hsecond =>
      hcoherent.unique first second (won_of_moved hwon hfirst) (won_of_moved hwon hsecond)
  · intro other hother
    rw [hlookup] at hother
    split_ifs at hother
    · obtain ⟨witness, hwitness⟩ := hsucceeded hother
      exact hsealed (hcoherent.sealed witness hwitness)
    · exact hsealed (hcoherent.sealed other hother)

/-- Who holds the mutex and whether the store is open are not part of it. -/
theorem Coherent.congr {after : Concurrent} (hcoherent : state.Coherent)
    (hthreads : after.threads = state.threads) (hstopped : after.stopped = state.stopped)
    (hdisk : after.disk = state.disk)
    (hnext : after.store.nextSequence = state.store.nextSequence) : after.Coherent := by
  have hsealed : state.Sealed → after.Sealed := by
    rintro ⟨hflag, hlast, hquiet, hrecorded⟩
    exact ⟨hstopped ▸ hflag, hdisk ▸ hlast, hthreads ▸ hquiet, hthreads ▸ hrecorded⟩
  refine ⟨?_, ?_, ?_, ?_, ?_⟩
  · rw [hdisk, hnext]
    exact hcoherent.aligned
  · rw [hthreads]
    exact hcoherent.tested
  · rw [hthreads, hstopped]
    exact hcoherent.unstarted
  · rw [hthreads]
    exact hcoherent.unique
  · intro thread hsucceeded
    rw [hthreads] at hsucceeded
    exact hsealed (hcoherent.sealed thread hsucceeded)

theorem Coherent.released (hcoherent : state.Coherent) (thread : ℕ) :
    (state.released thread).Coherent :=
  (hcoherent.moved thread .finished (fun _ => nofun) nofun nofun nofun nofun).congr rfl rfl rfl rfl

/-! ## Appends -/

theorem appended_aligned (haligned : state.disk.Aligned state.store.nextSequence) (written : Bool)
    (kind : RecordKind) (payload : Bytes) :
    (state.appended written kind payload).2.disk.Aligned
      (state.appended written kind payload).2.store.nextSequence := by
  have hfate : (atomically written).Orderly := by
    cases written with
    | false => rfl
    | true => trivial
  apply append_aligned haligned hfate
  rw [DurableStore.append]
  intro hcrashed
  cases hprepared : state.store.prepare kind payload with
  | error status =>
    rw [hprepared] at hcrashed
    cases hcrashed
  | ok encoded =>
    rw [hprepared] at hcrashed
    cases written with
    | false => cases hcrashed
    | true => cases hcrashed

/-- An append that returned Ok has added its record. -/
theorem appended_last {kind : RecordKind} (hok : (state.appended written kind payload).1 = true) :
    ∃ record, (state.appended written kind payload).2.disk.completed.getLast? = some record ∧
      record.header.kind = kind.raw := by
  have happended : (state.store.append state.disk (atomically written) kind payload).1 =
      .appended := by
    rw [appended] at hok
    dsimp only at hok
    split at hok
    · assumption
    · cases hok
  obtain ⟨-, encoded, -, -, hdisk⟩ := DurableStore.append_eq_appended happended
  refine ⟨state.store.recordFor kind payload, ?_, rfl⟩
  change ((state.store.append state.disk (atomically written) kind
    payload).2.2).completed.getLast? = _
  rw [hdisk, completed_receive_full, List.getLast?_concat]

/-- The append of an operation, which happens only before the record of a shutdown. -/
theorem Coherent.appended (hcoherent : state.Coherent)
    (happending : (state.threads thread).Appending) (written : Bool) (kind : RecordKind)
    (payload : Bytes) : (state.appended written kind payload).2.Coherent := by
  have hopen : ¬state.Sealed := fun hsealed => hsealed.quiet thread happending
  exact ⟨appended_aligned hcoherent.aligned written kind payload, hcoherent.tested,
    hcoherent.unstarted, hcoherent.unique,
    fun other hother => absurd hother (hcoherent.not_succeeded hopen other)⟩

/-! ## Steps -/

/-- The condition on an interleaving: the record of the shutdown is appended while no
operation that has passed its test is about to append, and a shutdown that finds the flag
set finds the one that set it returned. -/
def Settled (state : Concurrent) : AtomicStep → Prop
  | .record thread _ => state.threads thread = .recording →
      ∀ other, ¬(state.threads other).Appending
  | .exchange thread => state.threads thread = .calling → state.stopped = true →
      ∃ winner, state.threads winner = .answered true true
  | _ => True

theorem Coherent.exchanged (hcoherent : state.Coherent) (hrunning : state.stopped = false) :
    ({ state.moved thread .recording with stopped := true } : Concurrent).Coherent := by
  have hnone := hcoherent.unstarted hrunning
  have hopen : ¬state.Sealed := by
    intro hsealed
    rw [hsealed.stopped] at hrunning
    cases hrunning
  have hwinner : ∀ other, ((state.moved thread .recording).threads other).Won → other = thread := by
    intro other hother
    rw [threads_moved] at hother
    split_ifs at hother with hsame
    · exact hsame
    · exact absurd hother (hnone other)
  refine ⟨hcoherent.aligned, ?_, nofun, ?_, ?_⟩
  · exact fun other steps hsteps =>
      hcoherent.tested other steps (waiting_of_moved (by intro _; nofun) hsteps)
  · intro first second hfirst hsecond
    rw [hwinner first hfirst, hwinner second hsecond]
  · intro other hother
    change ((state.moved thread .recording).threads other).Succeeded at hother
    rw [threads_moved] at hother
    split_ifs at hother
    · cases hother
    · exact absurd hother (hcoherent.not_succeeded hopen other)

/-- The record of a shutdown, appended while no operation is about to append, seals the
journal. -/
theorem Coherent.sealed_of_recorded (hcoherent : state.Coherent)
    (hrecording : state.threads thread = .recording)
    (hquiet : ∀ other, ¬(state.threads other).Appending)
    (hok : (state.appended written .shutdownClean payload).1 = true) :
    ((state.appended written .shutdownClean payload).2.moved thread (.closing true)).Sealed := by
  have hwon : (state.threads thread).Won := by
    rw [hrecording]
    trivial
  refine ⟨?_, appended_last hok, ?_, ?_⟩
  · by_contra hrunning
    exact hcoherent.unstarted (Bool.eq_false_iff.mpr hrunning) thread hwon
  · intro other
    rw [threads_moved]
    split_ifs
    · exact id
    · exact hquiet other
  · intro other
    rw [threads_moved]
    split_ifs with hother
    · exact nofun
    · intro hagain
      have hagain : state.threads other = .recording := hagain
      refine hother (hcoherent.unique other thread ?_ hwon)
      rw [hagain]
      trivial

theorem Coherent.recorded (hcoherent : state.Coherent)
    (hrecording : state.threads thread = .recording)
    (hquiet : ∀ other, ¬(state.threads other).Appending) (written : Bool) (payload : Bytes) :
    ((state.appended written .shutdownClean payload).2.moved thread
      (.closing (state.appended written .shutdownClean payload).1)).Coherent := by
  have hwon : (state.threads thread).Won := by
    rw [hrecording]
    trivial
  have hopen : ¬state.Sealed := fun hsealed => hsealed.recorded thread hrecording
  refine ⟨appended_aligned hcoherent.aligned written _ payload, ?_, ?_, ?_, ?_⟩
  · exact fun other steps hsteps =>
      hcoherent.tested other steps (waiting_of_moved (by intro _; nofun) hsteps)
  · intro hrunning
    exact absurd hwon (hcoherent.unstarted hrunning thread)
  · exact fun first second hfirst hsecond => hcoherent.unique first second
      (won_of_moved (fun _ => hwon) hfirst) (won_of_moved (fun _ => hwon) hsecond)
  · intro other hother
    rw [threads_moved] at hother
    split_ifs at hother with hsame
    · cases hok : (state.appended written .shutdownClean payload).1 with
      | true => exact hcoherent.sealed_of_recorded hrecording hquiet hok
      | false =>
        rw [hok] at hother
        cases hother
    · exact absurd hother (hcoherent.not_succeeded hopen other)

theorem Coherent.step (hcoherent : state.Coherent) {event : AtomicStep}
    (hsettled : state.Settled event) : (state.step event).Coherent := by
  cases event with
  | acquire thread =>
    rw [Concurrent.step]
    split
    · rename_i steps hthread hholder
      have hentered : (state.moved thread (.inside steps)).Coherent := by
        refine hcoherent.moved thread _ (fun _ => nofun) nofun nofun nofun ?_
        intro happends
        exact absurd happends (hcoherent.tested thread steps hthread)
      exact hentered.congr rfl rfl rfl rfl
    · exact hcoherent
  | test thread =>
    rw [Concurrent.step]
    split
    · split_ifs with hstopped
      · exact hcoherent.released thread
      · exact hcoherent.moved thread _ (fun _ => nofun) nofun nofun nofun
          fun _ hsealed => hstopped hsealed.stopped
    · exact hcoherent
  | append thread written =>
    rw [Concurrent.step]
    split
    · rename_i kind payload rest hthread
      have happending : (state.threads thread).Appending := by
        rw [hthread]
        trivial
      have happended := hcoherent.appended happending written kind payload
      dsimp only
      split_ifs with hok
      · exact happended.moved thread _ (fun _ => nofun) nofun nofun nofun
          fun _ hsealed => hsealed.quiet thread happending
      · exact happended.released thread
    · exact hcoherent
  | leave thread =>
    rw [Concurrent.step]
    split
    · exact hcoherent.released thread
    · exact hcoherent
  | exchange thread =>
    rw [Concurrent.step]
    split
    · rename_i hthread
      split_ifs with hstopped
      · obtain ⟨winner, hwinner⟩ := hsettled hthread hstopped
        exact hcoherent.moved thread _ (fun _ => nofun) nofun nofun
          (fun _ => ⟨winner, by rw [hwinner]; trivial⟩) nofun
      · exact hcoherent.exchanged (Bool.eq_false_iff.mpr hstopped)
    · exact hcoherent
  | record thread written =>
    rw [Concurrent.step]
    split
    · rename_i hthread
      exact hcoherent.recorded hthread (hsettled hthread) written _
    · exact hcoherent
  | close thread synced =>
    rw [Concurrent.step]
    split
    · rename_i recorded hthread
      have hanswered : (state.moved thread (.answered true (recorded && synced))).Coherent := by
        refine hcoherent.moved thread _ (fun _ => nofun) (fun _ => by rw [hthread]; trivial) nofun
          ?_ nofun
        intro hsucceeded
        refine ⟨thread, ?_⟩
        rw [hthread]
        cases recorded with
        | false => exact hsucceeded
        | true => trivial
      exact hanswered.congr rfl rfl rfl rfl
    · exact hcoherent

/-- The interleavings of a running coordinator that meet the condition are coherent. -/
theorem coherent_run {history : List Event} (horderly : ∀ event ∈ history, event.Orderly)
    (hrun : run World.step (.down {}) history = .up impl) (hstore : impl.store = some store)
    (hfresh : ∀ thread, (threads thread).Fresh) {steps : List AtomicStep}
    (hsettled : Meets Concurrent.step Settled (Concurrent.begin impl store threads) steps) :
    (run Concurrent.step (Concurrent.begin impl store threads) steps).Coherent := by
  have hkept := run_kept horderly
  rw [hrun] at hkept
  apply invariant_of_meets (fun state event hcondition hcoherent => hcoherent.step hcondition)
    hsettled
  exact Coherent.begin (hkept.1.of_store hstore) hfresh

end Concurrent

/-! ## The next open -/

theorem cleanPreviousShutdown_of_opened {disk : Disk} (hresting : disk.Resting)
    {config : CoordinatorConfig} (hdurable : config.enableDurability = true) {process : Process}
    {env : Env} (hopened : Opened config process env disk (.ok ()) impl) :
    impl.restart.cleanPreviousShutdown = disk.completed.getLast?.any fun record =>
      record.header.kind == RecordKind.shutdownClean.raw := by
  obtain ⟨store, trimmed, opening, hopen, ⟨_, _, himpl⟩, -⟩ := hopened.durable hdurable
  rw [himpl, ← (open_resting hresting hopen).1]
  exact open_truthful hopen

/-- Clean shutdown marks the end.  In every interleaving whose steps meet the condition, a
shutdown that returns Ok has left its record as the last one, and the next open reports a
clean shutdown. -/
theorem shutdown_marks_end {history : List Event} (horderly : ∀ event ∈ history, event.Orderly)
    {impl : Impl} {store : DurableStore} (hrun : run World.step (.down {}) history = .up impl)
    (hstore : impl.store = some store) {threads : ℕ → Thread}
    (hfresh : ∀ thread, (threads thread).Fresh) {steps : List AtomicStep}
    (hsettled : Meets Concurrent.step Concurrent.Settled
      (Concurrent.begin impl store threads) steps)
    {thread : ℕ} {won : Bool}
    (hok : (run Concurrent.step (Concurrent.begin impl store threads) steps).threads thread =
      .answered won true) :
    (∃ record, (run Concurrent.step (Concurrent.begin impl store threads)
        steps).disk.completed.getLast? = some record ∧
      record.header.kind = RecordKind.shutdownClean.raw) ∧
      ∀ (config : CoordinatorConfig) (process : Process) (env : Env) (next : CallState),
        config.enableDurability = true →
        openOver (run Concurrent.step (Concurrent.begin impl store threads) steps).disk config
          process env = (.ok (), next) →
        next.impl.restart.cleanPreviousShutdown = true := by
  have hcoherent := Concurrent.coherent_run horderly hrun hstore hfresh hsettled
  have hsealed : (run Concurrent.step (Concurrent.begin impl store threads) steps).Sealed := by
    apply hcoherent.sealed thread
    rw [hok]
    cases won <;> trivial
  refine ⟨hsealed.last, ?_⟩
  intro config process env next hdurable hopened
  obtain ⟨record, hlast, hkind⟩ := hsealed.last
  rw [cleanPreviousShutdown_of_opened hcoherent.aligned.resting hdurable
    (Opened.of_openOver hopened), hlast]
  simp [hkind]

namespace Sample

def booted : List Event := [.boot durable process calm]

theorem booted_orderly : ∀ event ∈ booted, event.Orderly := by
  have hcalm : calm.Orderly := fun _ => trivial
  simp [booted, Event.Orderly, hcalm]

/-- One thread is in an operation, every other one calls shutdown. -/
def beside (operation : LockedOperation) : ℕ → Thread
  | 0 => .waiting operation.steps
  | _ + 1 => .calling

theorem beside_fresh (operation : LockedOperation) (thread : ℕ) :
    (beside operation thread).Fresh := by
  cases thread with
  | zero => exact .inl ⟨operation, rfl⟩
  | succ thread => exact .inr rfl

/-- A failure is declared: both of its records are to be appended. -/
def declaring : LockedOperation :=
  .declareFailure
    { subject := switchA, evidence := ⟨1⟩, epoch := ⟨1⟩, observedAtNs := 1000,
      recordedAtNs := 1000 }
    (some { id := ⟨1⟩, subject := switchA, epoch := ⟨1⟩, createdAtNs := 1000 })

/-- Shutdown sets the flag between the two records of the failure and appends its own after
both. -/
def concluded : List AtomicStep :=
  [.acquire 0, .test 0, .test 0, .append 0 true, .exchange 1, .append 0 true, .leave 0,
    .record 1 true, .close 1 true]

/-- Shutdown comes between the two records of the failure. -/
def interrupted : List AtomicStep :=
  [.acquire 0, .test 0, .test 0, .append 0 true, .exchange 1, .record 1 true, .append 0 true,
    .close 1 true]

def start (impl : Impl) (store : DurableStore) : Concurrent :=
  .begin impl store (beside declaring)

end Sample

set_option maxRecDepth 20000 in
/-- Shutdown after the other operation has appended both its records. -/
theorem shutdown_marks_end_sample :
    ∃ impl store next, run World.step (.down {}) Sample.booted = .up impl ∧
      impl.store = some store ∧
      Meets Concurrent.step Concurrent.Settled (Sample.start impl store) Sample.concluded ∧
      let final := run Concurrent.step (Sample.start impl store) Sample.concluded
      final.threads 1 = .answered true true ∧ final.disk.completed.length = 4 ∧
      openOver final.disk Sample.durable Sample.process Sample.calm = (.ok (), next) ∧
      next.impl.restart.cleanPreviousShutdown = true := by
  have hrun : (run World.step (.down {}) Sample.booted).passes (fun impl =>
      impl.store.any fun store =>
        let before (count : ℕ) :=
          run Concurrent.step (Sample.start impl store) (Sample.concluded.take count)
        !(before 4).stopped && (before 7).threads 0 == .finished &&
        (before 7).threads 1 == .recording && (before 9).threads 1 == .answered true true &&
        (before 9).disk.completed.length == 4 && answers (fun _ _ => true)
          (openOver (before 9).disk Sample.durable Sample.process Sample.calm)) = true := by
    decide +kernel
  obtain ⟨impl, hup, htest⟩ := World.up_of_passes hrun
  simp only [Bool.and_eq_true, Bool.not_eq_true', Option.any_eq_true, beq_iff_eq] at htest
  obtain ⟨store, hstore, ⟨⟨⟨⟨hrunning, hleft⟩, hrecording⟩, hok⟩, hlength⟩, hanswers⟩ := htest
  obtain ⟨_, next, hopen, -⟩ := ok_of_answers hanswers
  have hsettled : Meets Concurrent.step Concurrent.Settled (Sample.start impl store)
      Sample.concluded := by
    refine ⟨trivial, trivial, trivial, trivial, fun _ hset => ?_, trivial, trivial,
      fun _ other => ?_, trivial, trivial⟩
    · exact absurd (hrunning.symm.trans hset) Bool.false_ne_true
    · change ¬((run Concurrent.step _ (Sample.concluded.take 7)).threads other).Appending
      rcases other with - | - | other
      · rw [hleft]
        exact id
      · rw [hrecording]
        exact id
      · rw [Concurrent.threads_run (by simp [Sample.concluded, AtomicStep.thread])]
        exact id
  have hends := shutdown_marks_end Sample.booted_orderly hup hstore (Sample.beside_fresh _)
    hsettled hok
  exact ⟨impl, store, next, hup, hstore, hsettled, hok, hlength, hopen,
    hends.2 _ _ _ _ rfl hopen⟩

set_option maxRecDepth 20000 in
/-- Shutdown returns Ok, the fence is appended after its record, and the next open reports
no clean shutdown.  A second shutdown returns Ok before the first has appended anything. -/
theorem shutdown_overtaken_sample :
    ∃ impl store next, run World.step (.down {}) Sample.booted = .up impl ∧
      impl.store = some store ∧
      (run Concurrent.step (Concurrent.begin impl store (Sample.beside Sample.declaring))
        Sample.interrupted).threads 1 = .answered true true ∧
      (run Concurrent.step (Concurrent.begin impl store (Sample.beside Sample.declaring))
        Sample.interrupted).disk.completed.getLast?.map (·.header.kind) =
          some RecordKind.fenceCommitted.raw ∧
      openOver (run Concurrent.step (Concurrent.begin impl store
        (Sample.beside Sample.declaring)) Sample.interrupted).disk Sample.durable Sample.process
          Sample.calm = (.ok (), next) ∧
      next.impl.restart.cleanPreviousShutdown = false ∧
      (run Concurrent.step (Concurrent.begin impl store (Sample.beside Sample.declaring))
        [.exchange 1, .exchange 2]).threads 2 = .answered false true ∧
      ∀ record ∈ (run Concurrent.step (Concurrent.begin impl store
        (Sample.beside Sample.declaring)) [.exchange 1, .exchange 2]).disk.completed,
          record.header.kind ≠ RecordKind.shutdownClean.raw := by
  have hrun : (run World.step (.down {}) Sample.booted).passes (fun impl =>
      impl.store.any fun store =>
        let first := Sample.start impl store
        let final := run Concurrent.step first Sample.interrupted
        let second := run Concurrent.step first [.exchange 1, .exchange 2]
        final.threads 1 == .answered true true &&
          (final.disk.completed.getLast?.map (·.header.kind) ==
            some RecordKind.fenceCommitted.raw) &&
          answers (fun _ next => !next.impl.restart.cleanPreviousShutdown)
            (openOver final.disk Sample.durable Sample.process Sample.calm) &&
          second.threads 2 == .answered false true &&
          second.disk.completed.all fun record =>
            record.header.kind != RecordKind.shutdownClean.raw) = true := by
    decide +kernel
  obtain ⟨impl, hup, htest⟩ := World.up_of_passes hrun
  simp only [Bool.and_eq_true, Option.any_eq_true, beq_iff_eq, List.all_eq_true, bne_iff_ne]
    at htest
  obtain ⟨store, hstore, ⟨⟨⟨hok, hlast⟩, hanswers⟩, hlost⟩, hunwritten⟩ := htest
  obtain ⟨_, next, hopen, hunclean⟩ := ok_of_answers hanswers
  rw [Bool.not_eq_true'] at hunclean
  exact ⟨impl, store, next, hup, hstore, hok, hlast, hopen, hunclean, hlost, hunwritten⟩

end SwitchFailover.Runtime
