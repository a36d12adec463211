import SwitchFailover.Plan.Accounting
import SwitchFailover.Runtime.Routines

/-!
# The courses of making and applying a plan

What `propose_plan` and `apply_plan` do, listed by the point at which they stop.
Applying writes three records: the plan in state Applying, the receipt, and the
plan in its final state.  The steps between the first two mint authority and never
stop the call.
-/

namespace SwitchFailover.Runtime

open SwitchFailover.Core Model Plan Persist Library.Effects

variable {impl : Impl} {env : Env} {plan request : ReconstructionPlan} {state : CallState}

/-- The coordinator with one more plan, or another plan of the same identity. -/
def Impl.retaining (impl : Impl) (plan : ReconstructionPlan) : Impl :=
  { impl with plans := impl.plans.insert plan.id plan }

/-! ## Making a plan -/

/-- The inputs a proposal is made from. -/
def Impl.proposal (impl : Impl) (env : Env) : PlanInputs :=
  impl.makeInputs ⟨impl.nextPlan⟩ (env.clock 0)

/-- The courses of `propose_plan`: it is refused and changes nothing; the plan
validates, and older plans make room for it; it does not, and is kept as well. -/
inductive Proposed (impl : Impl) (env : Env) (failed : GenerationVector) :
    Except Stop ReconstructionPlan → Impl → Prop
  | refused (status : Status) : Proposed impl env failed (.error (.failed status)) impl
  | accepted (plan : ReconstructionPlan)
      (hplan : planReconstruction (impl.proposal env) failed = .ok plan)
      (hvalid : (validatePlan plan (impl.proposal env)).valid = true) :
      Proposed impl env failed (.ok (plan.inState .validated))
        (Impl.retaining { impl with
            nextPlan := impl.nextPlan + 1
            plans := retirePlans impl.policy.maxRetainedPlans.toNat impl.plans.size impl.plans }
          (plan.inState .validated))
  | rejected (plan : ReconstructionPlan) (status : Status)
      (hplan : planReconstruction (impl.proposal env) failed = .ok plan)
      (hinvalid : (validatePlan plan (impl.proposal env)).valid = false) :
      Proposed impl env failed (.error (.failed status))
        (Impl.retaining { impl with nextPlan := impl.nextPlan + 1 } (plan.inState .rejected))

theorem proposePlan_spec (impl : Impl) (env : Env) (failed : GenerationVector) :
    After (proposePlan failed) { impl, env } fun outcome final =>
      Proposed impl env failed outcome final.impl := by
  rw [proposePlan]
  apply After.running
  · exact Proposed.refused
  intro _
  apply After.withTopology
  · exact Proposed.refused
  intro _
  rw [after_getImpl]
  apply After.check
  · intro status _
    exact .refused status
  intro _ _
  rw [after_now]
  apply After.check
  · intro status _
    exact .refused status
  intro plan hplan
  rw [after_modifyImpl]
  dsimp only
  split
  · rename_i hvalid
    rw [after_modifyImpl, retainPlan, after_modifyImpl]
    exact .accepted plan hplan hvalid
  · rename_i hinvalid
    rw [retainPlan, after_modifyImpl]
    exact .rejected plan _ hplan (Bool.eq_false_of_not_eq_true hinvalid)

/-- The identity a proposal assigns. -/
theorem proposal_id {failed : GenerationVector}
    (hplan : planReconstruction (impl.proposal env) failed = .ok plan) :
    plan.id = if impl.nextPlan = 0 then ⟨1⟩ else ⟨impl.nextPlan⟩ := by
  rw [(planReconstruction_eq_ok.mp hplan).assembled]
  change (if (impl.nextPlan != 0) = true then (⟨impl.nextPlan⟩ : PlanId) else ⟨1⟩) = _
  by_cases hzero : impl.nextPlan = 0
  · simp [hzero]
  · simp [hzero]

/-! ## The steps of a plan -/

/-- A step is refused and grants nothing, or mints the grant whose attempt it
reports. -/
inductive Attempted (impl : Impl) (step : RestoreStep) : ApplyStepResult → Impl → Prop
  | refused (detail : Bytes) :
      Attempted impl step
        { dependent := step.dependent, replacement := step.replacement, state := .failed, detail }
        impl
  | minted (time : TimestampNs) (detail : Bytes) (id : GrantId) (authority : AuthorityRegistry)
      (hmint : impl.mint step.dependent (boundOf step.hops) time detail = .ok (id, authority)) :
      Attempted impl step
        { dependent := step.dependent, replacement := step.replacement, state := .applied
          attempt := authority.lastAttempt
          detail := text "authority grant minted under the current epoch and incarnation" }
        { impl with authority }

/-- Looking for a refusal reads the clock and changes nothing. -/
theorem refusalOf_spec (hops : List SwitchKey) (state : CallState) :
    After (refusalOf hops) state fun outcome final =>
      (∃ refusal, outcome = .ok refusal) ∧
      final.impl = state.impl ∧ final.env = state.env ∧ final.appends = state.appends := by
  induction hops generalizing state with
  | nil => exact ⟨⟨none, rfl⟩, rfl, rfl, rfl⟩
  | cons hop hops ih =>
    rw [refusalOf, after_getImpl]
    split
    · exact ⟨⟨_, rfl⟩, rfl, rfl, rfl⟩
    split
    · exact ⟨⟨_, rfl⟩, rfl, rfl, rfl⟩
    rw [after_now]
    split
    · exact ⟨⟨_, rfl⟩, rfl, rfl, rfl⟩
    · exact ih state.ticked

theorem attemptStep_spec (plan : ReconstructionPlan) (step : RestoreStep) (state : CallState) :
    After (attemptStep plan step) state fun outcome final =>
      (∃ result, outcome = .ok result ∧ Attempted state.impl step result final.impl) ∧
        final.env = state.env ∧ final.appends = state.appends := by
  rw [attemptStep]
  apply (refusalOf_spec step.hops state).bind
  · rintro stop middle ⟨⟨refusal, hok⟩, -⟩
    cases hok
  rintro refusal middle ⟨⟨_, hok⟩, himpl, henv, happends⟩
  cases hok
  rw [← himpl, ← henv, ← happends]
  cases refusal with
  | some reason => exact ⟨⟨_, rfl, .refused reason⟩, rfl, rfl⟩
  | none =>
    dsimp only
    split
    · exact ⟨⟨_, rfl, .refused _⟩, rfl, rfl⟩
    rw [after_now, after_getImpl]
    cases hmint : middle.ticked.impl.mint step.dependent (boundOf step.hops)
        (middle.env.clock middle.reads)
        (text "reconstruction applied under plan " ++ decimal plan.id.raw.toNat) with
    | error status =>
      exact ⟨⟨_, rfl, .refused _⟩, rfl, rfl⟩
    | ok granted =>
      obtain ⟨id, authority⟩ := granted
      dsimp only
      rw [after_modifyImpl]
      exact ⟨⟨_, rfl, .minted _ _ id authority hmint⟩, rfl, rfl⟩

/-- The coordinator after a step has been recorded. -/
def Impl.recording (impl : Impl) (result : ApplyStepResult) (plan : PlanId) : Impl :=
  { impl with
    applySteps := impl.applySteps.insert (stepKey result.dependent result.replacement)
      ⟨result, plan, impl.history.calls⟩ }

/-- The loop over the steps of a plan: each is attempted and recorded. -/
inductive Looped (plan : PlanId) :
    List RestoreStep → Impl → List ApplyStepResult → Impl → Prop
  | done (impl : Impl) : Looped plan [] impl [] impl
  | step {step : RestoreStep} {steps : List RestoreStep} {impl middle last : Impl}
      {result : ApplyStepResult} {results : List ApplyStepResult}
      (hattempted : Attempted impl step result middle)
      (hrest : Looped plan steps (middle.recording result plan) results last) :
      Looped plan (step :: steps) impl (result :: results) last

-- The loop never stops the call: a refused step is recorded as such.
theorem applyLoop_spec (plan : ReconstructionPlan) (steps : List RestoreStep)
    (receipt : ApplyReceipt) (state : CallState) :
    After (steps.foldlM (applyStep plan) receipt) state fun outcome final =>
      ∃ results, outcome = .ok (results.foldl receiptWith receipt) ∧
        Looped plan.id steps state.impl results final.impl ∧
        final.env = state.env ∧ final.appends = state.appends := by
  induction steps generalizing receipt state with
  | nil => exact ⟨[], rfl, .done _, rfl, rfl⟩
  | cons step steps ih =>
    rw [List.foldlM_cons, applyStep, bind_assoc]
    apply (attemptStep_spec plan step state).bind
    · rintro stop middle ⟨⟨result, hok, -⟩, -⟩
      cases hok
    rintro result middle ⟨⟨_, hok, hattempted⟩, henv, happends⟩
    cases hok
    rw [bind_assoc, after_modifyImpl, pure_bind]
    apply (ih (receiptWith receipt result) _).mono
    rintro outcome final ⟨results, houtcome, hlooped, hlast, hcount⟩
    exact ⟨result :: results, houtcome, .step hattempted hlooped, hlast.trans henv,
      hcount.trans happends⟩

/-! ## Applying a plan -/

/-- An append that would be carried out, if there is a journal. -/
def Impl.Takes (impl : Impl) (fate : Fate) (kind : RecordKind) (payload : Bytes) : Prop :=
  ∀ store, impl.store = some store → (store.append impl.disk fate kind payload).1 = .appended

/-- An append that stops the call. -/
structure Impl.Balks (impl : Impl) (fate : Fate) (kind : RecordKind) (payload : Bytes)
    (store : DurableStore) (stop : Stop) : Prop where
  stored : impl.store = some store
  stops : appendStop (store.append impl.disk fate kind payload).1 = some stop

/-- The write-ahead record is written and the plan is being applied. -/
def Impl.begun (impl : Impl) (plan : ReconstructionPlan) : Impl :=
  let announced := (impl.journaled .planCommitted (plan.inState .applying).encode).retaining
    (plan.inState .applying)
  { announced with history := announced.history.begin (plan.restores.map (·.dependent)) }

/-- The receipt of the results of all steps. -/
def receiptOf (impl : Impl) (plan : ReconstructionPlan) (results : List ApplyStepResult) :
    ApplyReceipt :=
  concludeReceipt (results.foldl receiptWith (emptyReceipt impl plan)) plan

/-- The receipt of a plan that restores nothing. -/
def emptyReceiptOf (impl : Impl) (plan : ReconstructionPlan) : ApplyReceipt :=
  { emptyReceipt impl plan with complete := true, outcome := .ok }

/-- The plan in the state its receipt leaves it in. -/
def concludedPlan (plan : ReconstructionPlan) (receipt : ApplyReceipt) : ReconstructionPlan :=
  plan.inState (planStateAfter receipt)

/-- What `apply_plan` asks for before its first append: a running coordinator with a topology
that retains the named plan, a plan that validates, a closure that is complete or need not
be, and the given feasibility. -/
structure Impl.Accepts (impl : Impl) (env : Env) (request plan : ReconstructionPlan)
    (feasibility : PlanFeasibility) : Prop where
  running : impl.stopped = false
  topology : impl.topologyPresent = true
  retained : impl.plans[request.id]? = some plan
  valid : (validatePlan plan (impl.makeInputs plan.id (env.clock 0))).valid = true
  closed : (plan.closureComplete || impl.policy.allowRestoreWhenClosureTruncated) = true
  feasible : plan.feasibility = feasibility

/-- A plan that is to be carried out, with its write-ahead record written. -/
structure Impl.Announces (impl : Impl) (env : Env) (request plan : ReconstructionPlan) : Prop
    extends impl.Accepts env request plan .provenFeasible where
  announced : impl.Takes (env.fate 0) .planCommitted (plan.inState .applying).encode

/-- The steps have been carried out after the write-ahead record. -/
structure Impl.Carries (impl : Impl) (env : Env) (request plan : ReconstructionPlan)
    (results : List ApplyStepResult) (middle : Impl) : Prop extends
    impl.Announces env request plan where
  looped : Looped plan.id plan.restores (impl.begun plan) results middle

/-- The courses of `apply_plan`.  It is refused and changes nothing; the plan no
longer validates; a plan that restores nothing is or is not receipted; of the three
records of any other plan the first, the second or the third is not written, or
all of them are. -/
inductive Applied (impl : Impl) (env : Env) (request : ReconstructionPlan) :
    Except Stop ApplyReceipt → Impl → Prop
  | refused (status : Status)
      (hturned : ∀ plan, ¬impl.Accepts env request plan .provenFeasible) :
      Applied impl env request (.error (.failed status)) impl
  | rejected (plan : ReconstructionPlan) (status : Status)
      (hplan : impl.plans[request.id]? = some plan)
      (hinvalid : (validatePlan plan (impl.makeInputs plan.id (env.clock 0))).valid = false) :
      Applied impl env request (.error (.failed status))
        (impl.retaining (plan.inState .rejected))
  | emptyUnwritten (plan : ReconstructionPlan) (store : DurableStore) (stop : Stop)
      (hplan : impl.Accepts env request plan .nothingToRestore)
      (hbalks : impl.Balks (env.fate 0) .applyCompleted
        (encodeApplyReceipt (emptyReceiptOf impl plan)) store stop) :
      Applied impl env request (.error stop) (impl.appended store (env.fate 0) .applyCompleted
        (encodeApplyReceipt (emptyReceiptOf impl plan)))
  | empty (plan : ReconstructionPlan) (hplan : impl.Accepts env request plan .nothingToRestore)
      (htakes : impl.Takes (env.fate 0) .applyCompleted
        (encodeApplyReceipt (emptyReceiptOf impl plan))) :
      Applied impl env request (.ok (emptyReceiptOf impl plan))
        ((impl.journaled .applyCompleted
          (encodeApplyReceipt (emptyReceiptOf impl plan))).retaining (plan.inState .applied))
  | unannounced (plan : ReconstructionPlan) (store : DurableStore) (stop : Stop)
      (hplan : impl.Accepts env request plan .provenFeasible)
      (hbalks : impl.Balks (env.fate 0) .planCommitted (plan.inState .applying).encode store stop) :
      Applied impl env request (.error stop) (impl.appended store (env.fate 0) .planCommitted
        (plan.inState .applying).encode)
  | unreceipted (plan : ReconstructionPlan) (results : List ApplyStepResult) (middle : Impl)
      (store : DurableStore) (stop : Stop) (hcarries : impl.Carries env request plan results middle)
      (hbalks : middle.Balks (env.fate 1) .applyCompleted
        (encodeApplyReceipt (receiptOf impl plan results)) store stop) :
      Applied impl env request (.error stop) (middle.appended store (env.fate 1) .applyCompleted
        (encodeApplyReceipt (receiptOf impl plan results)))
  | unconcluded (plan : ReconstructionPlan) (results : List ApplyStepResult) (middle : Impl)
      (store : DurableStore) (stop : Stop) (hcarries : impl.Carries env request plan results middle)
      (htakes : middle.Takes (env.fate 1) .applyCompleted
        (encodeApplyReceipt (receiptOf impl plan results)))
      (hbalks : (middle.journaled .applyCompleted
          (encodeApplyReceipt (receiptOf impl plan results))).Balks (env.fate 2) .planCommitted
        (concludedPlan plan (receiptOf impl plan results)).encode store stop) :
      Applied impl env request (.error stop)
        ((middle.journaled .applyCompleted
          (encodeApplyReceipt (receiptOf impl plan results))).appended store (env.fate 2)
            .planCommitted (concludedPlan plan (receiptOf impl plan results)).encode)
  | concluded (plan : ReconstructionPlan) (results : List ApplyStepResult) (middle : Impl)
      (hcarries : impl.Carries env request plan results middle)
      (hreceipt : middle.Takes (env.fate 1) .applyCompleted
        (encodeApplyReceipt (receiptOf impl plan results)))
      (hplan : (middle.journaled .applyCompleted
          (encodeApplyReceipt (receiptOf impl plan results))).Takes (env.fate 2) .planCommitted
        (concludedPlan plan (receiptOf impl plan results)).encode) :
      Applied impl env request (.ok (receiptOf impl plan results))
        (((middle.journaled .applyCompleted
          (encodeApplyReceipt (receiptOf impl plan results))).journaled .planCommitted
            (concludedPlan plan (receiptOf impl plan results)).encode).retaining
              (concludedPlan plan (receiptOf impl plan results)))

theorem applyNothing_spec (hplan : impl.Accepts env request plan .nothingToRestore)
    (himpl : state.impl = impl) (henv : state.env = env) (happends : state.appends = 0) :
    After (applyNothing plan) state fun outcome final =>
      Applied impl env request outcome final.impl := by
  subst himpl henv
  rw [applyNothing, after_getImpl]
  dsimp only
  apply After.write
  · intro store stop hstore hstop
    rw [happends] at hstop
    rw [CallState.appended, happends]
    exact .emptyUnwritten plan store stop hplan ⟨hstore, hstop⟩
  intro htakes
  rw [happends] at htakes
  rw [retainPlan, after_modifyImpl]
  exact .empty plan hplan htakes

/-- The steps change neither the journal nor the identity of the coordinator. -/
theorem Looped.frame {plan : PlanId} {steps : List RestoreStep} {first last : Impl}
    {results : List ApplyStepResult} (hlooped : Looped plan steps first results last) :
    ∃ authority applySteps, last = { first with authority, applySteps } := by
  induction hlooped with
  | done impl => exact ⟨impl.authority, impl.applySteps, rfl⟩
  | step hattempted _ ih =>
    obtain ⟨authority, applySteps, hlast⟩ := ih
    cases hattempted with
    | refused detail => exact ⟨authority, applySteps, hlast⟩
    | minted time detail id granted hmint => exact ⟨authority, applySteps, hlast⟩

/-- A coordinator that is applying a plan differs from the one before in the
journal, in the plan and in the history. -/
theorem begun_frame (impl : Impl) (plan : ReconstructionPlan) :
    ∃ store disk plans history, impl.begun plan = { impl with store, disk, plans, history } := by
  obtain ⟨_, _, hframe⟩ := impl.journaled_frame .planCommitted (plan.inState .applying).encode
  rw [Impl.begun, hframe]
  exact ⟨_, _, _, _, rfl⟩

theorem applySteps_spec (hplan : impl.Accepts env request plan .provenFeasible)
    (himpl : state.impl = impl) (henv : state.env = env) (happends : state.appends = 0) :
    After (applySteps plan) state fun outcome final =>
      Applied impl env request outcome final.impl := by
  subst himpl henv
  rw [applySteps]
  dsimp only
  apply After.write
  · intro store stop hstore hstop
    rw [happends] at hstop
    rw [CallState.appended, happends]
    exact .unannounced plan store stop hplan ⟨hstore, hstop⟩
  intro hannounced
  rw [happends] at hannounced
  rw [retainPlan, after_modifyImpl, after_modifyImpl, after_getImpl]
  generalize hstate : CallState.withImpl _ _ = begun
  have hbegun : begun.impl = state.impl.begun plan := by rw [← hstate]; rfl
  have henv : begun.env = state.env := by rw [← hstate]; rfl
  have hfirst : begun.impl.store.isSome = true → begun.appends = 1 := by
    intro hstored
    have hbefore : state.impl.store.isSome = true := by
      rw [hbegun] at hstored
      exact (state.impl.journaled_stored _ _).symm.trans hstored
    rw [← hstate]
    simp [CallState.withImpl, CallState.journaled, hbefore, happends]
  have hempty : emptyReceipt begun.impl (plan.inState .applying) =
      emptyReceipt state.impl plan := by
    obtain ⟨_, _, _, _, hframe⟩ := begun_frame state.impl plan
    rw [hbegun, hframe]
    rfl
  rw [hempty]
  apply (applyLoop_spec (plan.inState .applying) plan.restores _ begun).bind
  · rintro stop middle ⟨results, hok, -⟩
    cases hok
  rintro _ middle ⟨results, hok, hlooped, hlast, hcount⟩
  cases hok
  rw [hbegun] at hlooped
  have hcarries : state.impl.Carries state.env request plan results middle.impl :=
    ⟨⟨hplan, hannounced⟩, hlooped⟩
  have hsecond : middle.impl.store.isSome = true → middle.appends = 1 := by
    intro hstored
    obtain ⟨_, _, hframe⟩ := hlooped.frame
    rw [hcount]
    apply hfirst
    rwa [hframe, ← hbegun] at hstored
  have hreads : middle.env = state.env := hlast.trans henv
  change After (persistRecord .applyCompleted
    (encodeApplyReceipt (receiptOf state.impl plan results)) >>= _) middle _
  apply After.write
  · intro store stop hstore hstop
    have hone := hsecond (by rw [hstore]; rfl)
    rw [hone, hreads] at hstop
    rw [CallState.appended, hone, hreads]
    exact .unreceipted plan results middle.impl store stop hcarries ⟨hstore, hstop⟩
  intro hwritten
  have hreceipt : middle.impl.Takes (state.env.fate 1) .applyCompleted
      (encodeApplyReceipt (receiptOf state.impl plan results)) := by
    intro store hstore
    rw [← hsecond (by rw [hstore]; rfl), ← hreads]
    exact hwritten store hstore
  rw [ReconstructionPlan.inState_inState]
  generalize hnext : middle.journaled _ _ = receipted
  have hreceipted : receipted.impl = middle.impl.journaled .applyCompleted
      (encodeApplyReceipt (receiptOf state.impl plan results)) := by rw [← hnext]; rfl
  have hthird : receipted.impl.store.isSome = true → receipted.appends = 2 := by
    intro hstored
    rw [hreceipted, Impl.journaled_stored] at hstored
    rw [← hnext]
    simp [CallState.journaled, hstored, hsecond hstored]
  have hsame : receipted.env = state.env := by rw [← hnext]; exact hreads
  apply After.write
  · intro store stop hstore hstop
    have htwo := hthird (by rw [hstore]; rfl)
    rw [htwo, hsame] at hstop
    rw [CallState.appended, htwo, hsame]
    rw [hreceipted] at hstop hstore ⊢
    exact .unconcluded plan results middle.impl store stop hcarries hreceipt ⟨hstore, hstop⟩
  intro hlastly
  rw [retainPlan, after_modifyImpl]
  change Applied state.impl state.env request _
    ((receipted.impl.journaled .planCommitted _).retaining _)
  rw [hreceipted] at hlastly ⊢
  refine .concluded plan results middle.impl hcarries hreceipt fun store hstore => ?_
  have hstored : receipted.impl.store.isSome = true := by rw [hreceipted, hstore]; rfl
  rw [← hthird hstored, ← hsame]
  exact hlastly store hstore

theorem applyPlan_spec (impl : Impl) (env : Env) (request : ReconstructionPlan) :
    After (applyPlan request) { impl, env } fun outcome final =>
      Applied impl env request outcome final.impl := by
  rw [applyPlan, ensureRunning, bind_assoc, after_getImpl]
  apply After.check
  · intro status hstopped
    refine .refused status fun plan haccepts => ?_
    rw [haccepts.running] at hstopped
    cases hstopped
  intro _ hrunning
  rw [requireTopology, bind_assoc, after_getImpl]
  apply After.check
  · intro status hmissing
    refine .refused status fun plan haccepts => ?_
    rw [haccepts.topology] at hmissing
    cases hmissing
  intro _ htopology
  rw [after_getImpl]
  cases hplan : impl.plans[request.id]? with
  | none =>
    refine .refused _ fun plan haccepts => ?_
    have hretained := haccepts.retained
    rw [hplan] at hretained
    cases hretained
  | some plan =>
    have hsame : ∀ {other feasibility}, impl.Accepts env request other feasibility →
        other = plan := by
      intro other feasibility haccepts
      exact Option.some.inj (haccepts.retained.symm.trans hplan)
    dsimp only
    rw [after_now]
    split
    · rename_i hvalid
      apply After.check
      · intro status hopen
        refine .refused status fun other haccepts => ?_
        rw [← hsame haccepts, haccepts.closed] at hopen
        cases hopen
      intro _ hclosed
      have haccepts : impl.Accepts env request plan plan.feasibility :=
        ⟨by simpa using hrunning, by simpa using htopology, hplan, hvalid,
          by simpa using hclosed, rfl⟩
      split
      · rename_i hnothing
        exact applyNothing_spec (hnothing ▸ haccepts) rfl rfl rfl
      apply After.check
      · intro status hunproven
        refine .refused status fun other hother => ?_
        rw [← hsame hother, hother.feasible] at hunproven
        cases hunproven
      intro _ hproven
      have hfeasible : plan.feasibility = .provenFeasible := by simpa using hproven
      exact applySteps_spec (hfeasible ▸ haccepts) rfl rfl rfl
    · rename_i hinvalid
      rw [retainPlan, after_modifyImpl]
      exact .rejected plan _ hplan (Bool.eq_false_of_not_eq_true hinvalid)

/-! ## As operations -/

theorem callOn_proposed (impl : Impl) (env : Env) (failed : GenerationVector) :
    ∃ outcome, Proposed impl env failed outcome
      (callOn impl (Operation.proposePlan failed).call env).2.impl := by
  have hcall : After (Operation.proposePlan failed).call { impl, env } fun _ final =>
      ∃ outcome, Proposed impl env failed outcome final.impl := by
    apply (proposePlan_spec impl env failed).bind
    · intro stop middle hproposed
      exact ⟨_, hproposed⟩
    · intro plan middle hproposed
      exact ⟨_, hproposed⟩
  exact hcall

theorem callOn_applied (impl : Impl) (env : Env) (request : ReconstructionPlan) :
    ∃ outcome, Applied impl env request outcome
        (callOn impl (Operation.applyPlan request).call env).2.impl ∧
      (callOn impl (Operation.applyPlan request).call env).1 = ending outcome := by
  have hcall : After (Operation.applyPlan request).call { impl, env } fun ended final =>
      ∃ outcome, Applied impl env request outcome final.impl ∧ ended = ending outcome := by
    apply (applyPlan_spec impl env request).bind
    · intro stop middle happlied
      exact ⟨_, happlied, rfl⟩
    · intro receipt middle happlied
      exact ⟨_, happlied, rfl⟩
  exact hcall

end SwitchFailover.Runtime
