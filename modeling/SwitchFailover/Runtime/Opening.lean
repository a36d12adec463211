import SwitchFailover.Runtime.Routines

/-!
# Opening a coordinator

The courses of `open`: it is refused and leaves the file as it was, or it takes
over what replay gathered and announces the new incarnation in the journal.
-/

namespace SwitchFailover.Runtime

open SwitchFailover.Core Model Plan Persist Library.Effects Library.Transitions

variable {state : CallState} {impl : Impl} {resting : Disk → Prop} {running : Impl → Prop}
  {world : World}

variable {config : CoordinatorConfig} {process : Process} {env : Env} {disk : Disk}
  {condition : World → Event → Prop} {events : List Event}

/-! ## The announcement -/

/-- The coordinator after its stream header has been written. -/
def Impl.headed (impl : Impl) : Impl :=
  impl.journaled .streamHeader (encodeStreamHeader impl.epoch impl.boot)

/-- The courses of the announcement of a coordinator with a journal: the header
does not get through, or it does; after a restart the same for the record of the
new epoch. -/
inductive Announced (env : Env) (impl : Impl) : Except Stop Unit → Impl → Prop
  | headerFailed (store : DurableStore) (stop : Stop) (hstore : impl.store = some store)
      (hstop : appendStop (store.append impl.disk (env.fate 0) .streamHeader
        (encodeStreamHeader impl.epoch impl.boot)).1 = some stop) :
      Announced env impl (.error stop) (impl.appended store (env.fate 0) .streamHeader
        (encodeStreamHeader impl.epoch impl.boot))
  | first (hwritten : Written impl.headed.disk .streamHeader
        (encodeStreamHeader impl.epoch impl.boot)) (hepoch : ¬impl.epoch.raw > 1) :
      Announced env impl (.ok ()) impl.headed
  | advanceFailed (store : DurableStore) (stop : Stop)
      (hwritten : Written impl.headed.disk .streamHeader
        (encodeStreamHeader impl.epoch impl.boot))
      (hstore : impl.headed.store = some store)
      (hstop : appendStop (store.append impl.headed.disk (env.fate 1) .epochAdvance
        (encodeU64Payload impl.epoch.raw)).1 = some stop) :
      Announced env impl (.error stop) (impl.headed.appended store (env.fate 1) .epochAdvance
        (encodeU64Payload impl.epoch.raw))
  | advanced (hwritten : Written impl.headed.disk .streamHeader
        (encodeStreamHeader impl.epoch impl.boot)) (hepoch : impl.epoch.raw > 1) :
      Announced env impl (.ok ())
        (impl.headed.journaled .epochAdvance (encodeU64Payload impl.epoch.raw))

theorem announce_spec (hstored : state.impl.store.isSome = true) (happends : state.appends = 0) :
    After announce state fun outcome final =>
      Announced state.env state.impl outcome final.impl := by
  rw [announce, after_getImpl, if_pos hstored]
  apply After.journal
  · intro store stop hstore hstop
    rw [happends] at hstop
    have hcourse := Announced.headerFailed store stop hstore hstop
    rw [CallState.appended, happends]
    exact hcourse
  intro hwritten
  split
  · rename_i hepoch
    have hone : (state.journaled .streamHeader
        (encodeStreamHeader state.impl.epoch state.impl.boot)).appends = 1 := by
      simp [CallState.journaled, hstored, happends]
    rw [← bind_pure (persistRecord _ _)]
    apply After.journal
    · intro store stop hstore hstop
      rw [hone] at hstop
      have hcourse := Announced.advanceFailed store stop (hwritten hstored) hstore hstop
      rw [CallState.appended, hone]
      exact hcourse
    · intro _
      exact Announced.advanced (hwritten hstored) hepoch
  · rename_i hepoch
    exact Announced.first (hwritten hstored) hepoch

/-- The announcement changes the store and the disk, nothing else. -/
theorem Announced.frame {last : Impl} {outcome : Except Stop Unit}
    (hannounced : Announced env impl outcome last) :
    ∃ store disk, last = { impl with store, disk } := by
  cases hannounced with
  | headerFailed store stop hstore hstop => exact ⟨_, _, rfl⟩
  | first hwritten hepoch => exact Impl.journaled_frame _ _ _
  | advanceFailed store stop hwritten hstore hstop =>
    obtain ⟨_, _, hheaded⟩ := impl.journaled_frame .streamHeader _
    rw [Impl.headed, hheaded]
    exact ⟨_, _, rfl⟩
  | advanced hwritten hepoch =>
    obtain ⟨_, _, hheaded⟩ := impl.journaled_frame .streamHeader _
    obtain ⟨_, _, hadvanced⟩ := impl.headed.journaled_frame .epochAdvance _
    rw [hadvanced, Impl.headed, hheaded]
    exact ⟨_, _, rfl⟩

/-! ## The whole of opening -/

/-- The courses of opening over a journal. -/
inductive Opened (config : CoordinatorConfig) (process : Process) (env : Env) (disk : Disk) :
    Except Stop Unit → Impl → Prop
  | refused (status : Status) :
      Opened config process env disk (.error (.failed status)) (Impl.fresh config disk)
  | started (hlimits : config.limits.validate = .ok ())
      (hdurable : config.enableDurability = false) :
      Opened config process env disk (.ok ())
        ((Impl.fresh config disk).started config process)
  | restored (store : DurableStore) (trimmed : Disk) (opening : ReplayReport)
      (outcome : Except Stop Unit) (last : Impl)
      (hlimits : config.limits.validate = .ok ())
      (hdurable : config.enableDurability = true)
      (hopen : DurableStore.open config.limits disk = .ok (store, trimmed, opening))
      (hannounced : Announced env
        ((Impl.fresh config disk).restored config process store trimmed opening) outcome last) :
      Opened config process env disk outcome last

theorem openOver_spec (disk : Disk) (config : CoordinatorConfig) (process : Process) (env : Env) :
    Opened config process env disk (openOver disk config process env).1
      (openOver disk config process env).2.impl := by
  change After (openCoordinator config process) { impl := Impl.fresh config disk, env }
    fun outcome final => Opened config process env disk outcome final.impl
  rw [openCoordinator]
  apply After.check
  · intro status _
    exact .refused status
  intro _ hlimits
  apply After.check
  · intro status _
    exact .refused status
  intro _ _
  split
  · rename_i hdurable
    rw [recover, bind_assoc]
    apply After.check
    · intro status _
      exact .refused status
    intro _ _
    rw [bind_assoc, after_getImpl, bind_assoc]
    apply After.check
    · intro status _
      exact .refused status
    rintro ⟨store, trimmed, opening⟩ hopen
    dsimp only
    rw [bind_assoc]
    apply After.check
    · intro status _
      exact .refused status
    intro _ _
    rw [after_modifyImpl]
    apply (announce_spec rfl rfl).mono
    intro outcome final hannounced
    exact .restored store trimmed opening outcome final.impl hlimits hdurable hopen hannounced
  · rename_i hdurable
    rw [after_modifyImpl, announce, after_getImpl]
    exact .started hlimits (by simpa using hdurable)

theorem Opened.of_openOver {disk : Disk} {config : CoordinatorConfig} {process : Process}
    {env : Env} (hopen : openOver disk config process env = (.ok (), state)) :
    Opened config process env disk (.ok ()) state.impl := by
  have hspec := openOver_spec disk config process env
  rwa [hopen] at hspec

/-- A coordinator that opens has a valid policy. -/
theorem policy_of_opened {disk : Disk} {config : CoordinatorConfig} {process : Process} {env : Env}
    (hopened : (openOver disk config process env).1 = .ok ()) :
    config.policy.validate = .ok () := by
  have hvalid : After (openCoordinator config process) { impl := Impl.fresh config disk, env }
      fun outcome _ => outcome = .ok () → config.policy.validate = .ok () := by
    rw [openCoordinator]
    apply After.check
    · rintro status - ⟨⟩
    intro _ _
    apply After.check
    · rintro status - ⟨⟩
    rintro ⟨⟩ hpolicy
    exact fun _ => hpolicy
  exact hvalid hopened

/-! ## Invariants of runs -/

/-- One property of the journal between incarnations, one of a running
coordinator. -/
def World.Satisfies (resting : Disk → Prop) (running : Impl → Prop) : World → Prop
  | .down disk => resting disk
  | .up impl => running impl

/-- The invariant rule for whole runs.  A process that dies leaves its journal
behind, so a call has to keep the property of the journal however it ends. -/
theorem satisfies_of_meets (hexit : ∀ impl, running impl → resting impl.disk)
    (hboot : ∀ disk config process env outcome last,
      condition (.down disk) (.boot config process env) → resting disk →
      Opened config process env disk outcome last →
      resting last.disk ∧ (outcome = .ok () → running last)) (hcall : ∀ impl operation env,
      condition (.up impl) (.call operation env) → running impl →
      resting (callOn impl operation.call env).2.impl.disk ∧
        ((∀ state, callOn impl operation.call env ≠ (.error .crashed, state)) →
          running (callOn impl operation.call env).2.impl))
    (hmeets : Meets World.step condition world events) (hstart : world.Satisfies resting running) :
    (run World.step world events).Satisfies resting running := by
  refine invariant_of_meets ?_ hmeets hstart
  intro world event hcondition hworld
  cases world with
  | down disk =>
    cases event with
    | boot config process env =>
      have hopened := hboot disk config process env _ _ hcondition hworld
        (openOver_spec disk config process env)
      rw [World.step]
      generalize openOver disk config process env = opened at hopened
      rcases opened with ⟨⟨stop⟩ | ⟨⟩, state⟩
      · exact hopened.1
      · exact hopened.2 rfl
    | call operation env => exact hworld
    | exit => exact hworld
  | up impl =>
    cases event with
    | boot config process env => exact hworld
    | call operation env =>
      have hcalled := hcall impl operation env hcondition hworld
      rw [World.step]
      generalize callOn impl operation.call env = called at hcalled
      rcases called with ⟨⟨status | _⟩ | ⟨⟩, state⟩
      · exact hcalled.2 (by simp)
      · exact hcalled.1
      · exact hcalled.2 (by simp)
    | exit => exact hexit impl hworld

/-- The same for a property of the running coordinator alone. -/
theorem running_of_meets (running : Impl → Prop) (hboot : ∀ disk config process env last,
      condition (.down disk) (.boot config process env) →
      Opened config process env disk (.ok ()) last → running last) (hcall : ∀ impl operation env,
      condition (.up impl) (.call operation env) → running impl →
      (∀ state, callOn impl operation.call env ≠ (.error .crashed, state)) →
      running (callOn impl operation.call env).2.impl)
    (hmeets : Meets World.step condition (.down disk) events)
    (hrun : run World.step (.down disk) events = .up impl) : running impl := by
  have hsatisfies : (run World.step (.down disk) events).Satisfies (fun _ => True) running := by
    refine satisfies_of_meets ?_ ?_ ?_ hmeets trivial
    · intro _ _
      trivial
    · intro disk config process env outcome last hcondition _ hopened
      refine ⟨trivial, ?_⟩
      rintro rfl
      exact hboot disk config process env last hcondition hopened
    · intro impl operation env hcondition hrunning
      exact ⟨trivial, hcall impl operation env hcondition hrunning⟩
  rwa [hrun] at hsatisfies

/-- What opening establishes and every operation keeps holds of every reachable coordinator. -/
theorem World.Reaches.preserve (property : Impl → Prop)
    (hopened : ∀ {config process env disk impl}, Opened config process env disk (.ok ()) impl →
      property impl) (hperformed : ∀ {impl last env operation outcome},
      Performed impl env operation outcome last → property impl → property last)
    (hreaches : World.Reaches disk impl) : property impl := by
  obtain ⟨events, hevents⟩ := hreaches
  refine running_of_meets property (fun _ _ _ _ _ _ => hopened) ?_
    (meets_of_forall (fun _ _ => trivial) (World.down disk)) hevents
  intro impl operation env _ hproperty _
  exact hperformed (callOn_spec impl operation env) hproperty

end SwitchFailover.Runtime
