import SwitchFailover.Runtime.AuthoritySafety
import SwitchFailover.Runtime.Recovery

/-!
# Live plans and fenced generations

A declared failure supersedes the plans that cross its subject, but only after
the fence has been journaled, and in memory alone.  So two things can leave a
live plan over a fenced generation: the append of the fence fails after the fence
was committed, or a restart restores the plan as the journal last saw it.  In
every run in which neither happens no live plan crosses a fence.
-/

namespace SwitchFailover.Runtime

open SwitchFailover.Core Codec Model Plan Persist Library.Effects Library.Transitions

variable {kind : RecordKind} {payload : Bytes} {stop : Stop} {authority : AuthorityRegistry}
  {config : CoordinatorConfig} {process : Process} {world : World}

variable {fence : FenceRecord} {store : DurableStore} {disk : Disk} {impl first last : Impl}
  {declaration : FailureDeclaration} {env : Env} {middle : CallState} {record : FailureRecord}
  {outcome : Except Stop Unit} {subject : SwitchKey} {plan : ReconstructionPlan} {id : PlanId}

def Impl.PlansClear (impl : Impl) : Prop :=
  ∀ (id : PlanId) (plan : ReconstructionPlan), impl.plans[id]? = some plan →
    Live plan.state → Clear impl plan

/-! ## The condition -/

/-- A live plan crosses the generation. -/
def Impl.Crossed (impl : Impl) (subject : SwitchKey) : Prop :=
  ∃ (id : PlanId) (plan : ReconstructionPlan), impl.plans[id]? = some plan ∧
    Live plan.state ∧ ∃ step ∈ plan.restores, subject ∈ step.hops

/-- The longest encoding of a fence with a reason of admissible length. -/
def maxFenceBytes : ℕ := 110 + maxMessageBytes

/-- If there is a journal, it takes a fence as the second record of a call. -/
def Impl.TakesFence (impl : Impl) (env : Env) : Prop :=
  ∀ store, impl.store = some store →
    store.isOpen = true ∧ store.recordsWritten + 2 ≤ store.limits.maxJournalRecords ∧
      maxFenceBytes ≤ RecordHeader.payloadCeiling store.limits ∧
      ∀ reached, env.fate 1 ≠ .fault reached

def planIn (limits : Limits) : Record → Option ReconstructionPlan :=
  contentOf .planCommitted (ReconstructionPlan.decode · limits)

/-- A plan replaces an earlier record of it. -/
def enterPlan (plans : Std.TreeMap PlanId ReconstructionPlan) (plan : ReconstructionPlan) :
    Std.TreeMap PlanId ReconstructionPlan :=
  plans.insert plan.id plan

/-- The last record of each plan. -/
def standingPlans (limits : Limits) (records : List Record) :
    Std.TreeMap PlanId ReconstructionPlan :=
  (records.filterMap (planIn limits)).foldl enterPlan ∅

/-- No live plan of the journal crosses a generation the journal fences. -/
def JournalClear (limits : Limits) (records : List Record) : Prop :=
  ∀ (id : PlanId) (plan : ReconstructionPlan),
    (standingPlans limits records)[id]? = some plan → Live plan.state →
    ∀ step ∈ plan.restores, ∀ hop ∈ step.hops, ∀ fence ∈ records.filterMap fenceIn,
      fence.subject ≠ hop

/-- A declaration over a live plan gets its fence journaled, and a restart finds
no live plan over a fence. -/
def Guarded : World → Event → Prop
  | .down disk, .boot config _ _ => config.enableDurability = true →
      ∀ store trimmed opening,
        DurableStore.open config.limits disk = .ok (store, trimmed, opening) →
        JournalClear config.limits opening.records
  | .up impl, .call (.declareFailure declaration) env =>
      impl.stopped = false → impl.Crossed declaration.subject → impl.TakesFence env
  | _, _ => True

/-! ## The append of a fence -/

theorem encodeFenceRecord_length_le (hfence : FenceJournalable fence) :
    (encodeFenceRecord fence).length ≤ maxFenceBytes := by
  have hreason : fence.reason.length ≤ 512 := hfence.reason
  have hlength : (fenceChunks fence).flatten.length = 110 + fence.reason.length := by
    simp [fenceChunks, writeU8, writeKey, writeU64, writeBoot, writeString]
    omega
  rw [encodeFenceRecord, written_eq_flatten, hlength]
  · exact Nat.add_le_add_left hfence.reason 110
  · rw [hlength, defaultWriterLimit]
    omega

theorem prepare_of_room (hopen : store.isOpen = true) (hkind : isValidRecordKind kind.raw = true)
    (hcount : store.recordsWritten + 1 ≤ store.limits.maxJournalRecords)
    (hfits : payload.length ≤ RecordHeader.payloadCeiling store.limits) :
    ∃ encoded, store.prepare kind payload = .ok encoded := by
  have hencode : encodeRecord (store.recordFor kind payload) store.limits =
      .ok (store.recordFor kind payload).finished.bytes :=
    Record.encodeRecord_of_fits hkind hfits
  simp only [DurableStore.prepare, result_bind_eq_ok, require_eq_ok, requireWithin_eq_ok,
    exists_const]
  exact ⟨_, hopen, hcount, hkind, hencode⟩

/-- An append that is not turned down stops a call only by the death of the
process, unless it meets a fault. -/
theorem crashed_of_appendStop {fate : Fate} {encoded : Bytes}
    (hprepare : store.prepare kind payload = .ok encoded)
    (hfate : ∀ reached, fate ≠ .fault reached)
    (hstop : appendStop (store.append disk fate kind payload).1 = some stop) : stop = .crashed := by
  rw [DurableStore.append, hprepare] at hstop
  cases fate with
  | done => cases hstop
  | fault reached => exact absurd rfl (hfate reached)
  | crash reached =>
    cases hstop
    rfl

/-- The store after the first append of a call, wherever that went. -/
theorem journaled_store (hstore : impl.store = some store) (kind : RecordKind) (payload : Bytes) :
    ∃ next, (impl.journaled kind payload).store = some next ∧ next.isOpen = store.isOpen ∧
      next.limits = store.limits ∧ next.recordsWritten ≤ store.recordsWritten + 1 := by
  rw [Impl.journaled, hstore]
  refine ⟨_, rfl, ?_⟩
  rw [DurableStore.append]
  cases store.prepare kind payload with
  | error status => exact ⟨rfl, rfl, Nat.le_succ _⟩
  | ok encoded => exact ⟨rfl, rfl, le_refl _⟩

/-- A store after the first append was there before it. -/
theorem Recorded.stored (hrecorded : Recorded declaration { impl, env } middle record)
    (hstore : middle.impl.store = some store) :
    (impl.journaled .failureCommitted (encodeFailureRecord record)).store = some store ∧
      ∃ first, impl.store = some first ∧ middle.appends = 1 := by
  obtain ⟨evidence, nextEvidence, failures, -, himpl⟩ := hrecorded.impl
  have hnext : (impl.journaled .failureCommitted (encodeFailureRecord record)).store =
      some store := by
    rw [himpl] at hstore
    exact hstore
  obtain ⟨first, hfirst⟩ : ∃ first, impl.store = some first := by
    apply Option.isSome_iff_exists.mp
    rw [← Impl.journaled_stored impl .failureCommitted (encodeFailureRecord record), hnext]
    rfl
  refine ⟨hnext, first, hfirst, ?_⟩
  rw [hrecorded.appends]
  simp [CallState.journaled, hfirst]

theorem Recorded.crashed_of_takesFence
    (hrecorded : Recorded declaration { impl, env } middle record) (htakes : impl.TakesFence env)
    (hfence : FenceJournalable fence) (hstore : middle.impl.store = some store)
    (hstop : appendStop (store.append middle.impl.disk (middle.env.fate middle.appends)
      .fenceCommitted (encodeFenceRecord fence)).1 = some stop) : stop = .crashed := by
  obtain ⟨hnext, first, hfirst, happends⟩ := hrecorded.stored hstore
  obtain ⟨hopen, hcount, hfits, hfate⟩ := htakes first hfirst
  obtain ⟨next, hsame, hopened, hlimits, hwritten⟩ :=
    journaled_store hfirst .failureCommitted (encodeFailureRecord record)
  obtain rfl : store = next := Option.some.inj (hnext.symm.trans hsame)
  rw [hrecorded.env, happends] at hstop
  have hroom : store.recordsWritten + 1 ≤ store.limits.maxJournalRecords := by
    rw [hlimits]
    omega
  have hsmall : (encodeFenceRecord fence).length ≤ RecordHeader.payloadCeiling store.limits := by
    rw [hlimits]
    exact le_trans (encodeFenceRecord_length_le hfence) hfits
  have hkind : isValidRecordKind RecordKind.fenceCommitted.raw = true := rfl
  obtain ⟨encoded, hprepare⟩ := prepare_of_room (hopened.trans hopen) hkind hroom hsmall
  exact crashed_of_appendStop hprepare hfate hstop

/-! ## Calls -/

section Calls

variable {fates : Fate → Prop} {scope : Scope}

theorem Routine.plansClear (hroutine : Routine fates scope first last)
    (hclear : first.PlansClear) : last.PlansClear := by
  have hframe := hroutine.sameFrame
  intro id plan hplan hlive
  cases hroutine with
  | replan nextPlan plans hplans =>
    rcases hplans id plan hplan with hkept | hretained
    · exact hframe.clear (hclear id plan hkept hlive)
    · exact hframe.clear (hretained.clear hlive)
  | _ => exact hframe.clear (hclear id plan hplan hlive)

theorem Dies.plansClear (hdies : Dies fates first last) (hclear : first.PlansClear) :
    last.PlansClear := by
  cases hdies with
  | append => exact hclear

theorem Routines.Ending.plansClear (hending : Routines.Ending fates scope outcome first last)
    (hclear : first.PlansClear) : last.PlansClear :=
  hending.preserve (fun _ _ hroutine => hroutine.plansClear) (fun _ _ hdies => hdies.plansClear)
    hclear

end Calls

/-- A plan that is live after supersession was live before, and is not touched. -/
theorem live_superseded (hlive : Live (superseded subject plan).state) :
    superseded subject plan = plan ∧ touches plan subject = false := by
  rw [superseded] at hlive ⊢
  split
  · rename_i hdone
    rw [if_pos hdone] at hlive
    rcases hdone with hstate | hstate <;> simp [Live, hstate] at hlive
  · rename_i hdone
    rw [if_neg hdone] at hlive
    cases htouches : touches plan subject with
    | false => exact ⟨if_neg Bool.false_ne_true, rfl⟩
    | true => simp [htouches, Live] at hlive

theorem superseding_live (hplan : (impl.superseding subject).plans[id]? = some plan)
    (hlive : Live plan.state) : impl.plans[id]? = some plan ∧ touches plan subject = false := by
  rw [Impl.superseding, Std.TreeMap.getElem?_map, Option.map_eq_some_iff] at hplan
  obtain ⟨earlier, hearlier, rfl⟩ := hplan
  obtain ⟨hsame, htouches⟩ := live_superseded hlive
  rw [hsame]
  exact ⟨hearlier, htouches⟩

theorem not_mem_hops_of_touches (htouches : touches plan subject = false) {step : RestoreStep}
    (hstep : step ∈ plan.restores) : subject ∉ step.hops := by
  rw [touches, List.any_eq_false] at htouches
  have hstep := htouches step hstep
  simp only [Bool.or_eq_true, not_or, List.contains_iff_mem] at hstep
  exact hstep.2

theorem Fenced.isFenced (hfenced : Fenced subject impl fence authority) (key : SwitchKey) :
    authority.isFenced key = (decide (key = subject) || impl.authority.isFenced key) := by
  obtain ⟨record, id, rfl, hcommit⟩ := hfenced.commit
  exact AuthorityRegistry.isFenced_commitFence hcommit key

/-- Committing a fence that no step of a plan crosses keeps the plan clear. -/
theorem Fenced.clear (hfenced : Fenced subject impl fence authority)
    (hlast : last.authority = authority) (hclear : Clear impl plan)
    (hcross : ∀ step ∈ plan.restores, subject ∉ step.hops) : Clear last plan := by
  intro step hstep hop hhop
  have hother : hop ≠ subject := by
    rintro rfl
    exact hcross step hstep hhop
  rw [hlast, hfenced.isFenced, hclear step hstep hop hhop]
  simp [hother]

/-- The fence part keeps live plans clear if a fence that is committed but not
journaled crosses none, or the process dies there. -/
theorem FencePart.plansClear {first : CallState} (hfence : FencePart subject first outcome last)
    (hclear : first.impl.PlansClear)
    (hunwritten : ∀ fence store stop, FenceJournalable fence → first.impl.store = some store →
      appendStop (store.append first.impl.disk (first.env.fate first.appends) .fenceCommitted
        (encodeFenceRecord fence)).1 = some stop →
      first.impl.Crossed subject → stop = .crashed) (halive : outcome ≠ .error .crashed) :
    last.PlansClear := by
  intro id plan hplan hlive
  cases hfence with
  | deferred hfenced =>
    exact hclear id plan (superseding_live hplan hlive).1 hlive
  | refused status hfenced => exact hclear id plan hplan hlive
  | unwritten fence authority store stop hfenced hstore houtcome =>
    refine hfenced.clear rfl (hclear id plan hplan hlive) ?_
    intro step hstep hcross
    have hcrashed := hunwritten fence store stop hfenced.journalable hstore houtcome
      ⟨id, plan, hplan, hlive, step, hstep, hcross⟩
    exact halive (by rw [hcrashed])
  | committed fence authority hfenced hwritten =>
    obtain ⟨hkept, htouches⟩ := superseding_live hplan hlive
    rw [journaled_plans] at hkept
    refine hfenced.clear (journaled_authority _ _ _) (hclear id plan hkept hlive) ?_
    exact fun step hstep => not_mem_hops_of_touches htouches hstep

theorem Recorded.plans {first : CallState} (hrecorded : Recorded declaration first middle record) :
    middle.impl.plans = first.impl.plans := by
  obtain ⟨_, _, _, -, himpl⟩ := hrecorded.impl
  rw [himpl]
  exact journaled_plans _ _ _

theorem Declared.plansClear (hdeclared : Declared scope declaration { impl, env } outcome last)
    (hclear : impl.PlansClear) (htakes : impl.Crossed declaration.subject → impl.TakesFence env)
    (halive : outcome ≠ .error .crashed) : last.PlansClear := by
  cases hdeclared with
  | stopped last stop hroutines => exact hroutines.plansClear hclear
  | fenced middle record outcome last hroutines hrecorded hfence =>
    refine hfence.plansClear (hroutines.preserve (fun _ _ hstep => hstep.plansClear) hclear) ?_
      halive
    intro fence store stop hjournalable hstore hstop hcrossed
    rw [Impl.Crossed, hrecorded.plans] at hcrossed
    exact hrecorded.crashed_of_takesFence (htakes hcrossed) hjournalable hstore hstop

/-- A stopped coordinator declares nothing. -/
theorem declareFailure_stopped (hstopped : impl.stopped = true) (declaration : FailureDeclaration)
    (env : Env) : (callOn impl (Operation.declareFailure declaration).call env).2.impl = impl := by
  have hdeclare : After (declareFailure declaration) { impl, env } fun _ final =>
      final.impl = impl := by
    rw [declareFailure]
    apply After.check
    · intro status _
      rfl
    · intro _ _
      apply After.running
      · intro status
        rfl
      · intro hrunning
        exact absurd (hrunning.symm.trans hstopped) Bool.false_ne_true
  have hcall : After (Operation.declareFailure declaration).call { impl, env } fun _ final =>
      final.impl = impl := by
    apply hdeclare.bind
    · intro stop middle hmiddle
      exact hmiddle
    · intro _ middle hmiddle
      exact hmiddle
  exact hcall

/-! ## Opening -/

theorem replayRecord_plans {limits : Limits} {lineage : Lineage} {record : Record} :
    (lineage.replayRecord limits record).plans =
      (planIn limits record).elim lineage.plans (enterPlan lineage.plans) := by
  by_cases hkind : record.header.kind = RecordKind.planCommitted.raw
  · rw [planIn, contentOf, if_pos hkind, Lineage.replayRecord, ofRaw_eq_some.mpr hkind]
    cases ReconstructionPlan.decode record.payload limits with
    | error status => rfl
    | ok plan => rfl
  · rw [planIn, contentOf, if_neg hkind, Lineage.replayRecord]
    split
    · split <;> rfl
    · split <;> rfl
    · split <;> rfl
    · split <;> rfl
    · rename_i hplan
      exact absurd (ofRaw_eq_some.mp hplan) hkind
    all_goals first | rfl | (split <;> rfl)

theorem replayAll_plans (limits : Limits) (records : List Record) :
    (Lineage.replayAll limits records).plans = standingPlans limits records :=
  replayAll_component (fun lineage => lineage.plans) enterPlan (fun _ _ => replayRecord_plans)
    records _

/-- A coordinator that opens with a plan found it in its journal, with the fences there. -/
theorem Opened.standing (hopened : Opened config process env disk (.ok ()) impl)
    (hplan : impl.plans[id]? = some plan) :
    config.enableDurability = true ∧ ∃ store trimmed opening,
      DurableStore.open config.limits disk = .ok (store, trimmed, opening) ∧
      (standingPlans config.limits opening.records)[id]? = some plan ∧
      impl.authority.fences = (opening.records.filterMap fenceIn).foldl enterFence ∅ := by
  cases hopened with
  | started hlimits hdurable => simp [Impl.started, Impl.fresh] at hplan
  | restored store trimmed opening outcome last hlimits hdurable hopen hannounced =>
    obtain ⟨_, _, rfl⟩ := hannounced.frame
    refine ⟨hdurable, store, trimmed, opening, hopen, ?_, ?_⟩
    · rw [← replayAll_plans]
      exact hplan
    · exact restored_fences (Impl.fresh config disk) config process store trimmed opening

theorem Opened.plansClear (hopened : Opened config process env disk (.ok ()) impl)
    (hguarded : Guarded (.down disk) (.boot config process env)) : impl.PlansClear := by
  intro id plan hplan hlive step hstep hop hhop
  obtain ⟨hdurable, store, trimmed, opening, hopen, hstanding, hfences⟩ := hopened.standing hplan
  have hclear := hguarded hdurable store trimmed opening hopen id plan hstanding hlive step
    hstep hop hhop
  rw [AuthorityRegistry.isFenced, hfences, ← Bool.not_eq_true, Std.TreeMap.contains_iff_mem,
    mem_foldl_enterFence]
  rintro (hempty | ⟨fence, hfence, hsubject⟩)
  · simp at hempty
  · exact hclear fence hfence hsubject

/-! ## Runs -/

theorem Performed.plansClear {operation : Operation}
    (hperformed : Performed impl env operation outcome last)
    (htakes : ∀ declaration, operation = .declareFailure declaration →
      impl.Crossed declaration.subject → impl.TakesFence env) (hclear : impl.PlansClear)
    (halive : outcome ≠ .error .crashed) : last.PlansClear := by
  cases hperformed with
  | routine operation outcome last hroutines => exact hroutines.plansClear hclear
  | declared declaration outcome last hdeclared =>
    exact hdeclared.plansClear hclear (htakes declaration rfl) halive

/-- In every run whose declarations over live plans get their fences journaled,
and whose restarts find no live plan over a fence, no live plan crosses a fenced
generation. -/
theorem live_plans_clear {disk : Disk} {events : List Event}
    (hmeets : Meets World.step Guarded (.down disk) events) {impl : Impl}
    (hrun : run World.step (.down disk) events = .up impl) {id : PlanId}
    {plan : ReconstructionPlan} (hplan : impl.plans[id]? = some plan) (hlive : Live plan.state)
    {step : RestoreStep} (hstep : step ∈ plan.restores) {hop : SwitchKey}
    (hhop : hop ∈ step.hops) : impl.authority.isFenced hop = false := by
  have hclear : impl.PlansClear := by
    refine running_of_meets Impl.PlansClear ?_ ?_ hmeets hrun
    · intro disk config process env last hguarded hopened
      exact hopened.plansClear hguarded
    · intro impl operation env hguarded hclear halive
      by_cases hdeclares : impl.stopped = true ∧
          ∃ declaration, operation = .declareFailure declaration
      · obtain ⟨hstopped, declaration, rfl⟩ := hdeclares
        rw [declareFailure_stopped hstopped]
        exact hclear
      · refine (callOn_spec impl operation env).plansClear ?_ hclear ?_
        · rintro declaration rfl
          exact hguarded (Bool.eq_false_of_not_eq_true fun hstopped =>
            hdeclares ⟨hstopped, declaration, rfl⟩)
        · intro hcrashed
          exact halive _ (Prod.ext hcrashed rfl)
  exact hclear id plan hplan hlive step hstep hop hhop

/-! ## Sample runs -/

/-- A plan with the identity is live and crosses a fenced generation. -/
def Impl.crossesFence (impl : Impl) (id : PlanId) : Bool :=
  impl.plans[id]?.any fun plan =>
    plan.state ∈ [.validated, .applying, .applied, .partiallyApplied] &&
      plan.restores.any fun step => step.hops.any impl.authority.isFenced

theorem Impl.crossesFence_eq_true (hcrosses : impl.crossesFence id = true) :
    ∃ plan, impl.plans[id]? = some plan ∧ Live plan.state ∧
      ∃ step ∈ plan.restores, ∃ hop ∈ step.hops, impl.authority.isFenced hop = true := by
  simpa [crossesFence, Option.any_eq_true, List.any_eq_true, Live] using hcrosses

/-- The store is open and has room for two records, one of them a fence. -/
def Impl.roomy (impl : Impl) : Bool :=
  impl.store.all fun store => store.isOpen &&
    decide (store.recordsWritten + 2 ≤ store.limits.maxJournalRecords) &&
    decide (maxFenceBytes ≤ RecordHeader.payloadCeiling store.limits)

theorem guarded_calm (hroomy : world.passes Impl.roomy = true) (operation : Operation) :
    Guarded world (.call operation Sample.calm) := by
  obtain ⟨impl, rfl, hstore⟩ := World.up_of_passes hroomy
  rcases operation.declares_or_isRoutine with ⟨declaration, rfl⟩ | hroutine
  · intro _ _ store hstored
    rw [Impl.roomy, hstored] at hstore
    simp only [Option.all_some, Bool.and_eq_true, decide_eq_true_eq] at hstore
    obtain ⟨⟨hopen, hcount⟩, hfits⟩ := hstore
    refine ⟨hopen, hcount, hfits, ?_⟩
    intro reached hfault
    cases hfault
  · cases operation with
    | declareFailure declaration => exact hroutine.elim
    | _ => trivial

/-- Calm calls on a coordinator whose store stays roomy are guarded. -/
theorem meets_guarded_calm {operations : List Operation}
    (hroomy : ∀ count ≤ operations.length, (run World.step world
      ((operations.take count).map (.call · Sample.calm))).passes Impl.roomy = true) :
    Meets World.step Guarded world (operations.map (.call · Sample.calm)) := by
  induction operations generalizing world with
  | nil => trivial
  | cons operation operations ih =>
    refine ⟨guarded_calm (hroomy 0 (Nat.zero_le _)) operation, ih fun count hcount => ?_⟩
    exact hroomy (count + 1) (Nat.succ_le_succ hcount)

namespace Sample

/-- The replacement of a planned failover fails in turn. -/
def bothFailed : List Operation :=
  [.installTopology topology, .installCandidates candidates,
    .declareFailure (failureOf switchA), .proposePlan (GenerationVector.empty.insert switchA),
    .declareFailure (failureOf switchB), .proposePlan (GenerationVector.empty.insert switchA)]

end Sample

/-- After the failure of the replacement the first plan is superseded, and a
second one goes over the last switch. -/
theorem live_plans_clear_sample :
    ∃ impl plan, run World.step (.down {}) (.boot Sample.durable Sample.process Sample.calm ::
        Sample.bothFailed.map (.call · Sample.calm)) = .up impl ∧
      impl.plans[(⟨2⟩ : PlanId)]? = some plan ∧ Live plan.state ∧
      impl.authority.isFenced Sample.switchB = true ∧
      ∀ step ∈ plan.restores, ∀ hop ∈ step.hops, impl.authority.isFenced hop = false := by
  have hrun : (run World.step (.down {}) (.boot Sample.durable Sample.process Sample.calm ::
      Sample.bothFailed.map (.call · Sample.calm))).passes (fun impl =>
        impl.authority.isFenced Sample.switchB &&
          impl.plans[(⟨2⟩ : PlanId)]?.any fun plan => plan.state == .validated) = true := by
    decide +kernel
  obtain ⟨impl, hup, htest⟩ := World.up_of_passes hrun
  rw [Bool.and_eq_true, Option.any_eq_true] at htest
  obtain ⟨hfenced, plan, hplan, hstate⟩ := htest
  have hlive : Live plan.state := Or.inl (by simpa using hstate)
  have hboot : Guarded (.down {}) (.boot Sample.durable Sample.process Sample.calm) := by
    intro _ store trimmed opening hopen id plan hplan
    have hrecords : (DurableStore.open Sample.durable.limits {}).toOption.map
        (fun opened => opened.2.2.records) = some [] := by
      decide +kernel
    rw [hopen] at hrecords
    have hempty : opening.records = [] := Option.some.inj hrecords
    rw [hempty] at hplan
    simp [standingPlans] at hplan
  have hcalls : Meets World.step Guarded
      (World.step (.down {}) (.boot Sample.durable Sample.process Sample.calm))
      (Sample.bothFailed.map (.call · Sample.calm)) := by
    apply meets_guarded_calm
    decide +kernel
  have hmeets : Meets World.step Guarded (.down {})
      (.boot Sample.durable Sample.process Sample.calm ::
        Sample.bothFailed.map (.call · Sample.calm)) := And.intro hboot hcalls
  exact ⟨impl, plan, hup, hplan, hlive, hfenced, fun step hstep hop hhop =>
    live_plans_clear hmeets hup hplan hlive hstep hhop⟩

set_option maxRecDepth 4000 in
/-- A live plan crosses a fence after the append of the fence failed, and after a
restart although every append succeeded. -/
theorem live_plan_over_fence :
    (∃ impl plan, run World.step (.down {}) (Sample.planned Sample.durable ++
          [.call (.declareFailure (Sample.failureOf Sample.switchB))
            (Sample.calmBut 1 (.fault 0))]) = .up impl ∧
        impl.plans[(⟨1⟩ : PlanId)]? = some plan ∧ Live plan.state ∧
        ∃ step ∈ plan.restores, ∃ hop ∈ step.hops, impl.authority.isFenced hop = true) ∧
      ∃ impl plan, run World.step (.down {}) (Sample.planned Sample.durable ++
          [.call (.applyPlan Sample.firstPlan) Sample.calm,
            .call (.declareFailure (Sample.failureOf Sample.switchB)) Sample.calm, .exit,
            .boot Sample.durable Sample.process Sample.calm]) = .up impl ∧
        impl.plans[(⟨1⟩ : PlanId)]? = some plan ∧ Live plan.state ∧
        ∃ step ∈ plan.restores, ∃ hop ∈ step.hops, impl.authority.isFenced hop = true := by
  constructor
  · have hrun : (run World.step (.down {}) (Sample.planned Sample.durable ++
        [.call (.declareFailure (Sample.failureOf Sample.switchB))
          (Sample.calmBut 1 (.fault 0))])).passes (fun impl => impl.crossesFence ⟨1⟩) = true := by
      decide +kernel
    obtain ⟨impl, hup, hcrosses⟩ := World.up_of_passes hrun
    obtain ⟨plan, hplan, hlive, hstep⟩ := Impl.crossesFence_eq_true hcrosses
    exact ⟨impl, plan, hup, hplan, hlive, hstep⟩
  · have hrun : (run World.step (.down {}) (Sample.planned Sample.durable ++
        [.call (.applyPlan Sample.firstPlan) Sample.calm,
          .call (.declareFailure (Sample.failureOf Sample.switchB)) Sample.calm, .exit,
          .boot Sample.durable Sample.process Sample.calm])).passes
          (fun impl => impl.crossesFence ⟨1⟩) = true := by
      decide +kernel
    obtain ⟨impl, hup, hcrosses⟩ := World.up_of_passes hrun
    obtain ⟨plan, hplan, hlive, hstep⟩ := Impl.crossesFence_eq_true hcrosses
    exact ⟨impl, plan, hup, hplan, hlive, hstep⟩

end SwitchFailover.Runtime
