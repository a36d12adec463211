import SwitchFailover.Library.Transitions

/-!
# The worker pool

One accept thread and a fixed number of workers share a queue of connections, the set of
live connections and the flag that the server is stopping, under one mutex with one
condition variable.  Stopping sets the flag, wakes every worker, closes what is live and
joins the threads.

A step is a critical section, a notification or a call outside the mutex with the test that
follows it; an interleaving is any sequence of them, and a waiting worker may also wake for
no reason.  Any number of threads may call stop, those of the server among them.
-/

namespace SwitchFailover.Transport

open Library.Transitions

/-- What a call outside the mutex comes to: it did its work, there is more to wait for, the
loop it belongs to has ended, or it threw. -/
inductive CallFate
  | complete | incomplete | ended | threw
  deriving DecidableEq

inductive Worker
  | fetching | waiting | serving (socket : ℕ) | closing (socket : ℕ) | removing (socket : ℕ)
  | failing | broadcasting | exited
  deriving DecidableEq

inductive Acceptor
  | polling | selecting | accepting | admitting (socket : ℕ) | refusing (socket : ℕ) | notifying
  | marking | broadcasting | exited
  deriving DecidableEq

/-- A call of stop.  On a thread of the server it returns Busy where another one joins. -/
inductive Stopper
  | calling | broadcasting | copying | shutting (rest : List ℕ) | joining | clearing
  | returned (ok : Bool)
  deriving DecidableEq

/-- The handle of a connection is valid until its close is requested. -/
structure Pool (maxConnections : ℕ) where
  workers : List Worker
  acceptor : Acceptor := .polling
  acceptErrors : ℕ := 0
  stoppers : List (Bool × Stopper) := []
  queue : List ℕ := []
  live : List ℕ := []
  stopping : Bool := false
  stopped : Bool := false
  accepted : ℕ := 0
  closing : ℕ → Bool := fun _ => false

inductive PoolStep
  | worker (index : ℕ) (fate : CallFate)
  | acceptor (fate : CallFate)
  | notify (index : ℕ)
  | stop (onServerThread : Bool)
  | stopper (index : ℕ)

def maxConsecutiveAcceptErrors : ℕ := 64

/-- The connection in the hands of a worker. -/
def Worker.socket? : Worker → Option ℕ
  | .serving socket | .closing socket | .removing socket => some socket
  | _ => none

namespace Pool

variable {bound : ℕ} (pool : Pool bound)

def moved (index : ℕ) (next : Worker) : Pool bound :=
  { pool with workers := pool.workers.set index next }

def requestClose (socket : ℕ) : Pool bound :=
  { pool with closing := fun other => other = socket || pool.closing other }

def notifyAll : Pool bound :=
  { pool with workers := pool.workers.map fun worker =>
      if worker = .waiting then .fetching else worker }

/-- The loop of `serve` goes on until it ends or throws. -/
def workerMain (index : ℕ) (fate : CallFate) : Worker → Pool bound
  | .fetching =>
    if pool.stopping then pool.moved index .exited
    else
      match pool.queue with
      | [] => pool.moved index .waiting
      | socket :: rest => { pool.moved index (.serving socket) with queue := rest }
  | .waiting => pool.moved index .fetching
  | .serving socket => pool.moved index
      (if fate = .ended then .closing socket else if fate = .threw then .failing
        else .serving socket)
  | .closing socket => (pool.requestClose socket).moved index (.removing socket)
  | .removing socket =>
    { pool.moved index .fetching with live := pool.live.filter (· ≠ socket) }
  | .failing => { pool.moved index .broadcasting with stopping := true }
  | .broadcasting => pool.notifyAll.moved index .exited
  | .exited => pool

/-- A connection beyond the bound is accepted and closed at once. -/
def acceptConnection (socket : ℕ) : Pool bound :=
  if !pool.stopping && pool.live.length < bound then
    { pool with
      live := pool.live ++ [socket], queue := pool.queue ++ [socket], acceptor := .notifying }
  else { pool with acceptor := .refusing socket }

def acceptMain (fate : CallFate) : Acceptor → Pool bound
  | .polling => { pool with acceptor := if pool.stopping then .exited else .selecting }
  | .selecting =>
    { pool with acceptor :=
        if pool.stopping then .exited
        else
          match fate with
          | .complete => .accepting
          | .incomplete => .exited
          | .ended | .threw => .marking }
  | .accepting =>
    if pool.stopping then { pool with acceptor := .exited }
    else
      match fate with
      | .complete =>
        { pool with
          acceptor := .admitting pool.accepted, accepted := pool.accepted + 1
          closing := fun other => other ≠ pool.accepted && pool.closing other
          acceptErrors := 0 }
      | .incomplete =>
        { pool with
          acceptErrors := pool.acceptErrors + 1
          acceptor := if pool.acceptErrors + 1 < maxConsecutiveAcceptErrors then .polling
            else .marking }
      | .ended | .threw => { pool with acceptor := .marking }
  | .admitting socket => pool.acceptConnection socket
  | .refusing socket => { pool.requestClose socket with acceptor := .polling }
  | .notifying => pool
  | .marking => { pool with stopping := true, acceptor := .broadcasting }
  | .broadcasting => { pool.notifyAll with acceptor := .exited }
  | .exited => pool

/-- A notification wakes a worker that waits, if there is one. -/
def notifyOne (index : ℕ) : Pool bound :=
  if pool.workers[index]? = some .waiting then
    { pool.moved index .fetching with acceptor := .polling }
  else if .waiting ∈ pool.workers then pool
  else { pool with acceptor := .polling }

def Joinable : Prop :=
  pool.acceptor = .exited ∧ ∀ worker ∈ pool.workers, worker = .exited

instance : Decidable pool.Joinable := inferInstanceAs (Decidable (_ ∧ _))

/-- One step of a call of `stop`.  Several calls may join the same threads; that is taken as
well defined, with every one of them waiting until the threads have exited. -/
def stopAll (onServerThread : Bool) : Stopper → Pool bound × Stopper
  | .calling =>
    if pool.stopped then (pool, .returned true)
    else ({ pool with stopping := true }, .broadcasting)
  | .broadcasting => (pool.notifyAll, .copying)
  | .copying => (pool, .shutting pool.live)
  | .shutting (socket :: rest) => (pool.requestClose socket, .shutting rest)
  | .shutting [] => (pool, if onServerThread then .returned false else .joining)
  | .joining => (pool, if pool.Joinable then .clearing else .joining)
  | .clearing => ({ pool with live := [], queue := [], stopped := true }, .returned true)
  | .returned ok => (pool, .returned ok)

/-- A step that a thread cannot take changes nothing. -/
def step : PoolStep → Pool bound
  | .worker index fate =>
    match pool.workers[index]? with
    | some worker => pool.workerMain index fate worker
    | none => pool
  | .acceptor fate => pool.acceptMain fate pool.acceptor
  | .notify index => if pool.acceptor = .notifying then pool.notifyOne index else pool
  | .stop onServerThread =>
    { pool with stoppers := pool.stoppers ++ [(onServerThread, .calling)] }
  | .stopper index =>
    match pool.stoppers[index]? with
    | some (inside, stopper) =>
      { (pool.stopAll inside stopper).1 with
        stoppers := pool.stoppers.set index (inside, (pool.stopAll inside stopper).2) }
    | none => pool

/-- The server after its threads have been created. -/
def start (maxConnections workerThreads : ℕ) : Pool maxConnections :=
  { workers := List.replicate workerThreads .fetching }

/-! ## What every step keeps -/

/-- How many workers have a connection in their hands. -/
def held (workers : List Worker) (socket : ℕ) : ℕ := workers.countP (·.socket? = some socket)

/-- The acceptor has the connection in its hands. -/
def Entering (socket : ℕ) : Prop :=
  pool.acceptor = .admitting socket ∨ pool.acceptor = .refusing socket

/-- A live connection is queued or in the hands of one worker, or a worker that failed has left
it behind; any other is in the hands of the acceptor or closed.  While a worker sleeps, every
queued connection has a worker of its own on the way to the queue, apart from one whose
notification is due; once the server is stopping, a broadcast is due. -/
structure Sound : Prop where
  distinct : ∀ socket, pool.live.count socket ≤ 1
  bounded : pool.live.length ≤ bound
  placed : ∀ socket, pool.queue.count socket + held pool.workers socket ≤ pool.live.count socket
  known : ∀ socket ∈ pool.live, socket < pool.accepted
  closed : ∀ socket, .removing socket ∈ pool.workers → pool.closing socket
  entering : ∀ socket, pool.Entering socket → socket < pool.accepted ∧ socket ∉ pool.live
  owned : ∀ socket < pool.accepted,
    socket ∈ pool.live ∨ pool.closing socket ∨ pool.Entering socket
  notified : pool.stopping = false → .waiting ∈ pool.workers → pool.queue.length ≤
    pool.workers.count .fetching + if pool.acceptor = .notifying then 1 else 0
  roused : pool.stopping = true → .waiting ∈ pool.workers →
    .broadcasting ∈ pool.workers ∨ pool.acceptor = .broadcasting ∨
      ∃ inside, (inside, .broadcasting) ∈ pool.stoppers

variable {pool after : Pool bound} {index socket : ℕ} {worker next : Worker} {stopper : Stopper}
  {inside : Bool} (hsound : pool.Sound) (hworker : pool.workers[index]? = some worker)

include hworker in
theorem countP_set (next : Worker) (p : Worker → Bool) :
    (pool.workers.set index next).countP p + (if p worker then 1 else 0) =
      pool.workers.countP p + if p next then 1 else 0 := by
  obtain ⟨hindex, hat⟩ := List.getElem?_eq_some_iff.mp hworker
  have hpositive : p worker → 0 < pool.workers.countP p := fun hp =>
    List.countP_pos_iff.mpr ⟨worker, List.mem_of_getElem? hworker, hp⟩
  rw [List.countP_set hindex, hat]
  grind

include hworker in
theorem held_set (next : Worker) (socket : ℕ) :
    held (pool.workers.set index next) socket + (if worker.socket? = some socket then 1 else 0) =
      held pool.workers socket + if next.socket? = some socket then 1 else 0 := by
  simpa [held] using countP_set hworker next (·.socket? = some socket)

include hworker in
theorem fetching_set (next : Worker) :
    (pool.workers.set index next).count .fetching + (if worker = .fetching then 1 else 0) =
      pool.workers.count .fetching + if next = .fetching then 1 else 0 := by
  simpa [List.count] using countP_set hworker next (· == .fetching)

/-- Replacing one entry of a list keeps every other one. -/
theorem mem_set_of_ne {A : Type} {values : List A} {old : A} (hold : values[index]? = some old)
    (new : A) {value : A} (hne : old ≠ value) (hmem : value ∈ values) :
    value ∈ values.set index new := by
  obtain ⟨other, hother⟩ := List.mem_iff_getElem?.mp hmem
  refine List.mem_iff_getElem?.mpr ⟨other, ?_⟩
  rw [List.getElem?_set_ne, hother]
  rintro rfl
  exact hne (Option.some.inj (hold.symm.trans hother))

theorem held_notifyAll (pool : Pool bound) : held pool.notifyAll.workers = held pool.workers := by
  funext socket
  rw [held, notifyAll, List.countP_map, held]
  refine List.countP_congr fun worker _ => ?_
  cases worker <;> simp [Worker.socket?]

theorem waiting_notifyAll (pool : Pool bound) : .waiting ∉ pool.notifyAll.workers := by
  grind [notifyAll]

include hworker in
theorem getElem?_notifyAll (hbusy : worker ≠ .waiting) :
    pool.notifyAll.workers[index]? = some worker := by
  rw [notifyAll, List.getElem?_map, hworker, Option.map_some, if_neg hbusy]

namespace Sound

include hsound

theorem requestClose (socket : ℕ) : (pool.requestClose socket).Sound := by
  cases hsound
  constructor <;> simp only [Pool.requestClose, Bool.or_eq_true] at * <;> grind [Entering]

theorem notifyAll : pool.notifyAll.Sound :=
  { hsound with
    placed := held_notifyAll pool ▸ hsound.placed
    closed := fun socket hmem => hsound.closed socket (by grind [Pool.notifyAll])
    notified := fun _ hmem => absurd hmem (waiting_notifyAll pool)
    roused := fun _ hmem => absurd hmem (waiting_notifyAll pool) }

include hworker in
/-- A worker goes on with its connection, or gives it up. -/
theorem moved (hbusy : worker ≠ .fetching ∧ worker ≠ .broadcasting)
    (hnext : next.socket? = worker.socket? ∨ next.socket? = none)
    (hclosed : ∀ socket, next = .removing socket → pool.closing socket)
    (hawake : next ≠ .waiting) : (pool.moved index next).Sound := by
  have hheld := held_set hworker next
  have hfetching := fetching_set hworker next
  have hkept := mem_set_of_ne hworker next hbusy.2
  have hmem (value : Worker) (hmem : value ∈ pool.workers.set index next) :=
    List.mem_or_eq_of_mem_set hmem
  cases hsound
  constructor <;> simp only [Pool.moved] at * <;> grind [Entering]

/-- A worker takes a connection, waits because there is none, or leaves. -/
theorem fetched (fate : CallFate) (hworker : pool.workers[index]? = some .fetching) :
    (pool.workerMain index fate .fetching).Sound := by
  have hheld := held_set hworker
  have hfetching := fetching_set hworker
  have hkept (next : Worker) := @mem_set_of_ne index _ _ _ hworker next .broadcasting
  have hmem (value next : Worker) (hmem : value ∈ pool.workers.set index next) :=
    List.mem_or_eq_of_mem_set hmem
  cases hsound
  dsimp only [Pool.workerMain]
  split
  on_goal 2 => split
  all_goals constructor <;> simp only [Pool.moved, Worker.socket?] at * <;> grind [Entering]

/-- A connection that has been closed leaves the set. -/
theorem removed (fate : CallFate)
    (hworker : pool.workers[index]? = some (.removing socket)) :
    (pool.workerMain index fate (.removing socket)).Sound := by
  have hclosing := hsound.closed socket (List.mem_of_getElem? hworker)
  have hheld := held_set hworker .fetching
  have hplaced := hsound.placed socket
  have hgone : (pool.live.filter (· ≠ socket)).count socket = 0 :=
    List.count_eq_zero.mpr (by simp)
  have hkept : ∀ other, other ≠ socket →
      (pool.live.filter (· ≠ socket)).count other = pool.live.count other :=
    fun other hother => List.count_filter (by simpa using hother)
  have hmoved : (pool.moved index .fetching).Sound :=
    hsound.moved hworker (by simp) (.inr rfl) (by simp) (by simp)
  cases hmoved
  constructor <;> simp only [Pool.workerMain, Pool.moved, Worker.socket?] at * <;> grind [Entering]

include hworker in
theorem workerMain (fate : CallFate) : (pool.workerMain index fate worker).Sound := by
  cases worker with
  | fetching => exact hsound.fetched fate hworker
  | waiting => exact hsound.moved hworker (by simp) (.inr rfl) (by simp) (by simp)
  | serving socket =>
    refine hsound.moved hworker (by simp) ?_ ?_ ?_ <;> grind [Worker.socket?]
  | closing socket =>
    exact (hsound.requestClose socket).moved hworker (by simp) (.inl rfl)
      (by simp [Pool.requestClose]) (by simp)
  | removing socket => exact hsound.removed fate hworker
  | failing =>
    have hindex := (List.getElem?_eq_some_iff.mp hworker).1
    exact { hsound.moved hworker (by simp) (.inr rfl) (by simp) (by simp) with
      notified := fun hrunning => absurd hrunning.symm Bool.false_ne_true
      roused := fun _ _ => .inl (List.mem_set hindex _) }
  | broadcasting =>
    have hheld := held_set (getElem?_notifyAll hworker (by simp)) .exited
    have hnone := waiting_notifyAll pool
    cases hsound.notifyAll
    constructor <;> grind [Pool.workerMain, Pool.moved, Entering, Worker.socket?]
  | exited => exact hsound

/-- The acceptor had nothing in its hands and takes nothing. -/
theorem turned
    (hbefore : pool.acceptor ∈ [.polling, .selecting, .accepting]) (acceptor : Acceptor)
    (hafter : acceptor ∈ [.polling, .selecting, .accepting, .marking, .exited]) :
    ({ pool with acceptor } : Pool bound).Sound := by
  cases hsound
  constructor <;> grind [Entering]

theorem acceptConnection (hacceptor : pool.acceptor = .admitting socket) :
    (pool.acceptConnection socket).Sound := by
  have hfresh := (hsound.entering socket (.inl hacceptor)).2
  cases hsound
  rw [Pool.acceptConnection]
  split <;> constructor <;> grind [Entering]

theorem accepted (hacceptor : pool.acceptor = .accepting)
    (fate : CallFate) : (pool.acceptMain fate .accepting).Sound := by
  have hturned := hsound.turned (by simp [hacceptor])
  dsimp only [Pool.acceptMain]
  split
  · exact hturned .exited (by simp)
  split
  · -- the number of the new connection is larger than that of any other
    have hremoving : ∀ socket, .removing socket ∈ pool.workers → socket < pool.accepted := by
      intro socket hmem
      have hheld : 0 < held pool.workers socket :=
        List.countP_pos_iff.mpr ⟨_, hmem, by simp [Worker.socket?]⟩
      exact hsound.known socket
        (List.count_pos_iff.mp (by have := hsound.placed socket; omega))
    cases hsound
    constructor <;> grind [Entering]
  · refine { hturned (if pool.acceptErrors + 1 < maxConsecutiveAcceptErrors then .polling
      else .marking) ?_ with }
    split <;> simp
  · exact hturned .marking (by simp)
  · exact hturned .marking (by simp)

theorem acceptMain (fate : CallFate) :
    (pool.acceptMain fate pool.acceptor).Sound := by
  cases hacceptor : pool.acceptor with
  | admitting socket => exact hsound.acceptConnection hacceptor
  | refusing socket =>
    cases hsound.requestClose socket
    constructor <;> grind [Pool.acceptMain, Pool.requestClose, Entering]
  | accepting => exact hsound.accepted hacceptor fate
  | broadcasting =>
    have hnone := waiting_notifyAll pool
    cases hsound.notifyAll
    constructor <;> grind [Pool.acceptMain, Pool.notifyAll, Entering]
  | marking =>
    cases hsound
    constructor <;> grind [Pool.acceptMain, Entering]
  | polling => exact hsound.turned (by simp [hacceptor]) _ (by split <;> simp)
  | selecting =>
    refine hsound.turned (by simp [hacceptor]) _ ?_
    cases fate <;> split <;> simp
  | notifying => exact hsound
  | exited => exact hsound

theorem notifyOne (hacceptor : pool.acceptor = .notifying) :
    (pool.notifyOne index).Sound := by
  rw [Pool.notifyOne]
  split
  next hworker =>
    have hfetching := fetching_set hworker .fetching
    have hnotified := hsound.notified
    have hmem := List.mem_of_getElem? hworker
    have hmoved : (pool.moved index .fetching).Sound :=
      hsound.moved hworker (by simp) (.inr rfl) (by simp) (by simp)
    cases hmoved
    constructor <;> grind [Pool.moved, Entering]
  · cases hsound
    constructor <;> grind [Entering]

end Sound

/-! ## Stopping -/

/-- What a call of stop has achieved where it is. -/
def Achieved (pool : Pool bound) : Stopper → Prop
  | .calling => True
  | .broadcasting | .copying => pool.stopping
  | .shutting rest => pool.stopping ∧ ∀ socket ∈ pool.live, socket ∈ rest ∨ pool.closing socket
  | .joining | .returned false => pool.stopping ∧ ∀ socket ∈ pool.live, pool.closing socket
  | .clearing => pool.Joinable ∧ pool.stopping ∧ ∀ socket ∈ pool.live, pool.closing socket
  | .returned true => pool.stopped

structure Orderly (pool : Pool bound) : Prop extends Sound pool where
  achieved : ∀ entry ∈ pool.stoppers, pool.Achieved entry.2
  finished : pool.stopped → pool.stopping ∧ pool.Joinable ∧ pool.live = []

/-- What no step takes back: once the server is stopping nothing becomes live, what is closed
stays closed, and a thread that has ended does nothing more. -/
structure Later (pool after : Pool bound) : Prop where
  stopping : pool.stopping → after.stopping ∧ after.live ⊆ pool.live
  closing : ∀ socket ∈ pool.live, pool.closing socket → after.closing socket
  joinable : pool.Joinable → after.Joinable
  stopped : pool.stopped → after.stopped

theorem Later.achieved (hlater : Later pool after) (hachieved : pool.Achieved stopper) :
    after.Achieved stopper := by
  cases hlater
  rcases stopper with _ | _ | _ | _ | _ | _ | ok
  on_goal 7 => cases ok
  all_goals grind [Achieved]

include hworker in
theorem later_workerMain (fate : CallFate) : Later pool (pool.workerMain index fate worker) := by
  have hmem := List.mem_of_getElem? hworker
  cases worker <;> constructor <;> grind [workerMain, moved, requestClose, notifyAll, Joinable]

include hsound in
theorem later_acceptMain (fate : CallFate) : Later pool (pool.acceptMain fate pool.acceptor) := by
  have hknown := hsound.known
  cases fate <;> cases hacceptor : pool.acceptor <;> constructor <;>
    grind [acceptMain, acceptConnection, requestClose, notifyAll, Joinable]

theorem later_stopAll (inside : Bool) (stopper : Stopper) :
    Later pool (pool.stopAll inside stopper).1 := by
  rcases stopper with _ | _ | _ | rest | _ | _ | _
  on_goal 4 => cases rest
  all_goals constructor <;> grind [stopAll, requestClose, notifyAll, Joinable]

theorem achieved_stopAll (hachieved : pool.Achieved stopper) (inside : Bool) :
    (pool.stopAll inside stopper).1.Achieved (pool.stopAll inside stopper).2 := by
  rcases stopper with _ | _ | _ | rest | _ | _ | _
  on_goal 4 => rcases rest with _ | ⟨socket, rest⟩
  on_goal 5 =>
    refine ⟨hachieved.1, fun other hlive => ?_⟩
    have hbefore := hachieved.2 other hlive
    simp only [stopAll, requestClose, Bool.or_eq_true, decide_eq_true_eq]
    grind
  all_goals grind [stopAll, Achieved, notifyAll]

/-- The threads have been joined, and what is live has been closed. -/
theorem Sound.cleared (hsound : pool.Sound) (hjoinable : pool.Joinable)
    (hclosing : ∀ socket ∈ pool.live, pool.closing socket) :
    ({ pool with live := [], queue := [], stopped := true } : Pool bound).Sound := by
  have hheld : ∀ socket, held pool.workers socket = 0 := by
    intro socket
    refine List.countP_eq_zero.mpr fun worker hmem => ?_
    simp [hjoinable.2 worker hmem, Worker.socket?]
  cases hsound
  obtain ⟨hexited, hworkers⟩ := hjoinable
  constructor <;> grind [Entering]

theorem Sound.stopAll (hsound : pool.Sound) (hachieved : pool.Achieved stopper)
    (hstopper : pool.stoppers[index]? = some (inside, stopper)) :
    (pool.step (.stopper index)).Sound := by
  -- a step of another kind than a broadcast keeps the broadcasts that are due
  have hreplaced (after : Pool bound) (next : Stopper) (hafter : after.Sound)
      (hother : stopper ≠ .broadcasting) (hstoppers : after.stoppers = pool.stoppers) :
      ({ after with stoppers := pool.stoppers.set index (inside, next) } :
        Pool bound).Sound := by
    refine { hafter with roused := fun hstopping hmem => ?_ }
    refine (hafter.roused hstopping hmem).imp_right (Or.imp_right (Exists.imp fun _ hdue => ?_))
    exact mem_set_of_ne hstopper _ (by simp [hother]) (hstoppers ▸ hdue)
  simp only [Pool.step, hstopper]
  cases stopper with
  | calling =>
    rw [Pool.stopAll]
    split
    · exact hreplaced pool _ hsound (by simp) rfl
    · have hindex := (List.getElem?_eq_some_iff.mp hstopper).1
      exact { hsound with
        notified := fun hrunning => absurd hrunning.symm Bool.false_ne_true
        roused := fun _ _ => .inr (.inr ⟨inside, List.mem_set hindex _⟩) }
  | broadcasting =>
    exact { hsound.notifyAll with
      roused := fun _ hmem => absurd hmem (waiting_notifyAll pool) }
  | shutting rest =>
    cases rest with
    | nil => exact hreplaced pool _ hsound (by simp) rfl
    | cons socket rest =>
      exact hreplaced (pool.requestClose socket) _ (hsound.requestClose socket) (by simp) rfl
  | clearing => exact hreplaced _ _ (hsound.cleared hachieved.1 hachieved.2.2) (by simp) rfl
  | _ => exact hreplaced pool _ hsound (by simp) rfl

theorem Orderly.stopAll (hpool : pool.Orderly) {inside : Bool}
    (hstopper : pool.stoppers[index]? = some (inside, stopper)) :
    (pool.step (.stopper index)).Orderly := by
  have hachieved := hpool.achieved _ (List.mem_of_getElem? hstopper)
  refine { hpool.toSound.stopAll hachieved hstopper with achieved := ?_, finished := ?_ } <;>
    simp only [Pool.step, hstopper]
  · intro entry hentry
    rcases List.mem_or_eq_of_mem_set hentry with hbefore | heq
    · exact (later_stopAll inside stopper).achieved (hpool.achieved entry hbefore)
    · rw [heq]
      exact achieved_stopAll hachieved inside
  · have hfinished := hpool.finished
    rcases stopper with _ | _ | _ | rest | _ | _ | _
    on_goal 4 => cases rest
    all_goals grind [Pool.stopAll, Achieved, requestClose, notifyAll, Joinable]

/-- A step that is none of stop. -/
theorem Orderly.later (hpool : pool.Orderly) (hsound : after.Sound) (hlater : Later pool after)
    (hsame : after.stoppers = pool.stoppers ∧ after.stopped = pool.stopped) : after.Orderly := by
  refine { hsound with achieved := fun entry hentry => ?_, finished := fun hafter => ?_ }
  · exact hlater.achieved (hpool.achieved entry (hsame.1 ▸ hentry))
  · obtain ⟨hstopping, hjoinable, hlive⟩ := hpool.finished (hsame.2 ▸ hafter)
    obtain ⟨hstill, hsubset⟩ := hlater.stopping hstopping
    exact ⟨hstill, hlater.joinable hjoinable, List.subset_nil.mp (hlive ▸ hsubset)⟩

theorem Orderly.step (hpool : pool.Orderly) (event : PoolStep) : (pool.step event).Orderly := by
  have hsound := hpool.toSound
  cases event with
  | worker index fate =>
    dsimp only [Pool.step]
    split
    next worker hworker =>
      refine hpool.later (hsound.workerMain hworker fate) (later_workerMain hworker fate) ?_
      cases worker <;> grind [workerMain, moved, requestClose, notifyAll]
    · exact hpool
  | acceptor fate =>
    refine hpool.later (hsound.acceptMain fate) (later_acceptMain hsound fate) ?_
    dsimp only [Pool.step]
    cases fate <;> cases hacceptor : pool.acceptor <;>
      grind [acceptMain, acceptConnection, requestClose, notifyAll]
  | notify index =>
    dsimp only [Pool.step]
    split
    next hacceptor =>
      refine hpool.later (hsound.notifyOne hacceptor) ?_ ?_
      · constructor <;> grind [notifyOne, moved, Joinable]
      · grind [notifyOne, moved]
    · exact hpool
  | stop onServerThread =>
    refine { hpool with roused := fun hstopping hmem => ?_, achieved := fun entry hentry => ?_ }
    · exact (hpool.roused hstopping hmem).imp_right
        (Or.imp_right (Exists.imp fun _ hentry => List.mem_append_left _ hentry))
    · rcases List.mem_append.mp hentry with hbefore | hnew
      · exact hpool.achieved entry hbefore
      · cases List.mem_singleton.mp hnew
        trivial
  | stopper index =>
    cases hstopper : pool.stoppers[index]? with
    | none =>
      simp only [Pool.step, hstopper]
      exact hpool
    | some entry => exact hpool.stopAll hstopper

/-! ## Every interleaving -/

/-- The server after an interleaving of the steps of its threads and of calls of stop. -/
def reached (maxConnections workerThreads : ℕ) (events : List PoolStep) :
    Pool maxConnections :=
  run step (start maxConnections workerThreads) events

variable (maxConnections workerThreads : ℕ) (events : List PoolStep)

theorem orderly_reached :
    (reached maxConnections workerThreads events).Orderly := by
  have hmeets : Meets step (fun _ _ => True) (start maxConnections workerThreads) events :=
    meets_of_forall (fun _ _ => trivial) _
  refine invariant_of_meets (fun _ event _ hpool => hpool.step event) hmeets ?_
  refine ⟨?_, by simp [start], by simp [start]⟩
  constructor <;> simp [start, held, Entering, List.countP_replicate, Worker.socket?]

/-- No connection is queued twice, served by two workers, or served while it is queued.  The
live ones stay within the bound, and none that was accepted is lost: it is live, in the hands
of the acceptor, or closed. -/
theorem connections_owned_once :
    (reached maxConnections workerThreads events).live.length ≤ maxConnections ∧
      let pool := reached maxConnections workerThreads events
      (∀ socket, pool.queue.count socket + held pool.workers socket ≤ 1) ∧
        ∀ socket < pool.accepted,
          socket ∈ pool.live ∨ pool.closing socket ∨ pool.Entering socket := by
  have hpool := orderly_reached maxConnections workerThreads events
  exact ⟨hpool.bounded, fun socket => (hpool.placed socket).trans (hpool.distinct socket),
    hpool.owned⟩

/-- While the server runs and a worker sleeps, every queued connection has a worker of its own
that is about to look at the queue, apart from one whose notification is due; a worker that
sleeps while the server is stopping will be woken by a broadcast. -/
def Wakeful (pool : Pool bound) : Prop :=
  (pool.stopping = false → .waiting ∈ pool.workers → pool.queue.length ≤
    pool.workers.count .fetching + if pool.acceptor = .notifying then 1 else 0) ∧
  (pool.stopping = true → .waiting ∈ pool.workers →
    .broadcasting ∈ pool.workers ∨ pool.acceptor = .broadcasting ∨
      ∃ inside, (inside, .broadcasting) ∈ pool.stoppers)

/-- No wakeup is lost. -/
theorem no_lost_wakeup : (reached maxConnections workerThreads events).Wakeful :=
  ⟨(orderly_reached _ _ _).notified, (orderly_reached _ _ _).roused⟩

/-- When a call of stop has returned Ok, every thread of the server has ended and every
connection that was ever accepted has been closed. -/
theorem stop_closes_all
    (hreturned : (inside, .returned true) ∈
      (reached maxConnections workerThreads events).stoppers) :
    let pool := reached maxConnections workerThreads events
    pool.Joinable ∧ pool.live = [] ∧ pool.queue = [] ∧
      ∀ socket < pool.accepted, pool.closing socket := by
  have hpool := orderly_reached maxConnections workerThreads events
  obtain ⟨-, hjoinable, hlive⟩ := hpool.finished (hpool.achieved _ hreturned)
  refine ⟨hjoinable, hlive, List.eq_nil_iff_forall_not_mem.mpr fun socket hmem => ?_, ?_⟩
  · have hplaced := hpool.placed socket
    rw [hlive, List.count_nil] at hplaced
    exact List.count_eq_zero.mp (by omega) hmem
  · intro socket haccepted
    have howned := hpool.owned socket haccepted
    grind [Joinable, Entering]

/-- A connection is being served when stop closes it; the threads end and are joined. -/
def session : List PoolStep :=
  List.replicate 4 (.acceptor .complete) ++ [.notify 0, .worker 0 .complete, .stop false] ++
    List.replicate 5 (.stopper 0) ++ List.replicate 4 (.worker 0 .ended) ++
    [.acceptor .complete, .stopper 0, .stopper 0]

theorem stop_closes_served :
    (false, .returned true) ∈ (reached 1 1 session).stoppers ∧
      0 < (reached 1 1 session).accepted ∧ (reached 1 1 session).closing 0 := by
  have hreturned : (false, .returned true) ∈ (reached 1 1 session).stoppers := by decide +kernel
  have haccepted : 0 < (reached 1 1 session).accepted := by decide +kernel
  exact ⟨hreturned, haccepted, (stop_closes_all 1 1 session hreturned).2.2.2 0 haccepted⟩

end Pool

end SwitchFailover.Transport
