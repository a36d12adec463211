import SwitchFailover.Runtime.Changes

/-!
# Every call as a sequence of changes

All operations except `declare_failure` are sequences of routine changes.  A
failure declaration is a sequence of routine changes followed by the fence part,
whose possible courses are listed.
-/

namespace SwitchFailover.Runtime

open SwitchFailover.Core Model Plan Persist Library.Effects

variable {env : Env} {record : EvidenceRecord} {id : PlanId} {step : RestoreStep}
  {operation : Operation}

variable {A : Type} {scope : Scope} {state : CallState} {kind : RecordKind} {payload : Bytes}
  {impl : Impl} {declaration : FailureDeclaration} {plan : ReconstructionPlan}

/-! ## The primitives -/

theorem within_fail {status : Status} : Keeps (Within scope) (fail status : Call A) :=
  keeps_throw fun _ => ⟨rfl, Relation.ReflTransGen.refl⟩

theorem within_ofResult {result : Result A} : Keeps (Within scope) (ofResult result) := by
  cases result with
  | ok value => exact keeps_pure
  | error status => exact within_fail

theorem within_getImpl : Keeps (Within scope) getImpl := keeps_get.bind fun _ => keeps_pure

theorem within_now : Keeps (Within scope) now := fun _ => ⟨rfl, Relation.ReflTransGen.refl⟩

theorem within_modifyImpl {change : Impl → Impl}
    (hchange : ∀ fates impl, Routines fates scope impl (change impl)) :
    Keeps (Within scope) (modifyImpl change) :=
  fun state => ⟨rfl, hchange _ state.impl⟩

theorem within_ensureRunning : Keeps (Within scope) ensureRunning :=
  within_getImpl.bind fun _ => within_ofResult

/-- The end of a call that an append stopped. -/
theorem within_unwritten {first : CallState} (henv : state.env = first.env)
    (hfirst : Routines first.env.deals scope first.impl state.impl) {store : DurableStore}
    {stop : Stop} (hstore : state.impl.store = some store)
    (hstop : appendStop (store.append state.impl.disk (state.env.fate state.appends) kind
      payload).1 = some stop) (hrecord : Recordable kind payload) :
    Within scope (.error stop) first (state.appended store kind payload) := by
  have hfate : first.env.deals (state.env.fate state.appends) :=
    Or.inr ⟨state.appends, by rw [henv]⟩
  refine ⟨henv, ?_⟩
  cases hresult : (store.append state.impl.disk (state.env.fate state.appends) kind payload).1 with
  | appended => simp [hresult, appendStop] at hstop
  | failed status =>
    rw [hresult] at hstop
    cases hstop
    exact hfirst.tail (.append store _ kind payload hstore hfate hrecord (by simp [hresult]))
  | crashed =>
    rw [hresult] at hstop
    cases hstop
    exact ⟨state.impl, hfirst, .append store _ kind payload hstore hfate hrecord hresult⟩

theorem within_appendRecord (hrecord : Recordable kind payload) :
    Keeps (Within scope) (appendRecord kind payload) := by
  intro state
  rw [After]
  cases hstore : state.impl.store with
  | none =>
    rw [execute_appendRecord_none hstore]
    exact ⟨rfl, Relation.ReflTransGen.refl⟩
  | some store =>
    rw [execute_appendRecord_some hstore]
    have hfate : state.env.deals (state.env.fate state.appends) := Or.inr ⟨_, rfl⟩
    cases hresult : (store.append state.impl.disk (state.env.fate state.appends) kind
        payload).1 with
    | appended =>
      exact ⟨rfl, Relation.ReflTransGen.single
        (.append store _ kind payload hstore hfate hrecord (by simp [hresult]))⟩
    | failed status =>
      exact ⟨rfl, Relation.ReflTransGen.single
        (.append store _ kind payload hstore hfate hrecord (by simp [hresult]))⟩
    | crashed =>
      exact ⟨rfl, state.impl, Relation.ReflTransGen.refl,
        .append store _ kind payload hstore hfate hrecord hresult⟩

theorem routines_journaled (hrecord : Recordable kind payload) :
    Routines env.deals scope impl (impl.journaled kind payload) := by
  rw [Impl.journaled]
  split
  · exact Relation.ReflTransGen.refl
  · rename_i store hstore
    exact Relation.ReflTransGen.single
      (.append store .done kind payload hstore (Or.inl rfl) hrecord append_done_alive)

theorem within_persistRecord (hrecord : Recordable kind payload) :
    Keeps (Within scope) (persistRecord kind payload) :=
  (within_appendRecord hrecord).bind fun _ => within_ofResult

/-! ## Inputs -/

theorem within_grantDeclared {dependent : DependentRef} {bound : GenerationVector}
    (hscope : scope.mints dependent) :
    Keeps (Within scope) (grantDeclared dependent bound) := by
  rw [grantDeclared]
  split
  · exact keeps_pure
  · refine within_now.bind fun time => within_modifyImpl fun _ impl => ?_
    cases hmint : impl.mint dependent bound time (text "established by topology declaration") with
    | error status => exact Relation.ReflTransGen.refl
    | ok granted =>
      exact Relation.ReflTransGen.single
        (.mint dependent bound time _ granted.1 granted.2 hscope hmint)

/-- The dependents a topology declares. -/
def declaredBy (topology : TopologySnapshot) (dependent : DependentRef) : Prop :=
  (∃ path ∈ topology.paths, dependent = .path path.id) ∨
    ∃ link ∈ topology.links, dependent = .link link.id

theorem within_installTopology (topology : TopologySnapshot) :
    Keeps (Within ⟨declaredBy topology, False⟩) (installTopology topology) := by
  have hrecord : Recordable .topologyInstalled (topologyPayload topology) := trivial
  refine within_ensureRunning.bind fun _ => within_ofResult.bind fun _ =>
    (within_persistRecord hrecord).bind fun _ => (within_modifyImpl fun _ impl => ?_).bind
      fun _ => (keeps_forM ?_).bind fun _ => keeps_forM ?_
  · exact Relation.ReflTransGen.single
      (.install topology true impl.candidates impl.candidatesPresent impl.policy)
  · intro path hpath
    exact within_grantDeclared (Or.inl ⟨path, hpath, rfl⟩)
  · intro link hlink
    exact within_grantDeclared (Or.inr ⟨link, hlink, rfl⟩)

theorem within_establishAuthority (dependent : DependentRef) (bound : GenerationVector)
    (detail : Bytes) :
    Keeps (Within ⟨(· = dependent), False⟩) (establishAuthority dependent bound detail) := by
  refine within_ensureRunning.bind fun _ => within_now.bind fun time => ?_
  intro state
  rw [after_getImpl]
  apply After.check
  · intro status _
    exact ⟨rfl, Relation.ReflTransGen.refl⟩
  · rintro ⟨id, authority⟩ hmint
    rw [after_modifyImpl_last]
    exact ⟨rfl, Relation.ReflTransGen.single
      (.mint dependent bound time detail id authority rfl hmint)⟩

theorem within_withdrawAuthority (dependent : DependentRef) (cause : RevocationCause)
    (detail : Bytes) :
    Keeps (Within .nothing) (withdrawAuthority dependent cause detail) :=
  within_ensureRunning.bind fun _ => within_modifyImpl fun _ _ =>
    Relation.ReflTransGen.single (.revoke dependent cause detail)

theorem within_installCandidates (candidates : CandidateTable) :
    Keeps (Within .nothing) (installCandidates candidates) :=
  within_ensureRunning.bind fun _ => within_modifyImpl fun _ impl =>
    Relation.ReflTransGen.single
      (.install impl.topology impl.topologyPresent candidates true impl.policy)

theorem within_installPolicy (policy : Policy) :
    Keeps (Within .nothing) (installPolicy policy) :=
  have hrecord : Recordable .policyInstalled policy.encode := trivial
  within_ofResult.bind fun _ => within_ensureRunning.bind fun _ =>
    (within_persistRecord hrecord).bind fun _ => within_modifyImpl fun _ impl =>
      Relation.ReflTransGen.single (.install impl.topology impl.topologyPresent
        impl.candidates impl.candidatesPresent policy)

theorem within_shutdown : Keeps (Within .nothing) shutdown := by
  refine within_getImpl.bind fun impl => ?_
  split
  · exact keeps_pure
  · have hrecord : Recordable .shutdownClean (encodeU64Payload impl.epoch.raw) := trivial
    exact (within_modifyImpl fun _ _ => Relation.ReflTransGen.single .stop).bind fun _ =>
      (within_appendRecord hrecord).bind fun _ =>
        (within_modifyImpl fun _ _ => Relation.ReflTransGen.single .close).bind fun _ =>
          within_ofResult

/-! ## Evidence -/

/-- Admission by the store, for an identity that may be admitted now. -/
theorem within_admitted (hid : record.id.raw < runtimeReservedIdBase ∨
      record.id.raw + 1 = runtimeReservedIdBase + state.impl.nextEvidence) :
    Within scope (.ok ()) state (state.admitted record) :=
  ⟨rfl, Relation.ReflTransGen.single (.admission _ record hid)⟩

theorem within_admitToStore (hid : record.id.raw < runtimeReservedIdBase) :
    Keeps (Within scope) (admitToStore record) :=
  fun _ => after_admit_last (within_admitted (Or.inl hid))
    fun status => (within_admitted (Or.inl hid)).refused status

theorem within_admitEvidence (record : EvidenceRecord) :
    Keeps (Within .nothing) (admitEvidence record) := by
  refine within_ensureRunning.bind fun _ => within_getImpl.bind fun impl => ?_
  intro state
  rw [requireCallerIdentity]
  apply After.check
  · intro status _
    exact ⟨rfl, Relation.ReflTransGen.refl⟩
  · intro value hvalue
    have hid : (impl.stamp record).id.raw < runtimeReservedIdBase := by simpa using hvalue
    exact (within_ofResult.bind fun _ => within_ofResult.bind fun _ =>
      within_admitToStore hid) state

theorem within_recordEffectVerification (verification : EvidenceRecord) :
    Keeps (Within .nothing) (recordEffectVerification verification) := by
  refine within_ofResult.bind fun _ => within_ensureRunning.bind fun _ => ?_
  intro state
  rw [requireCallerIdentity]
  apply After.check
  · intro status _
    exact ⟨rfl, Relation.ReflTransGen.refl⟩
  · intro value hvalue
    have hid : (state.impl.stamp verification).id.raw < runtimeReservedIdBase := by
      simpa using hvalue
    rw [after_getImpl]
    have hadmitted : Within .nothing (.ok ()) state
        (state.admitted (state.impl.stamp verification)) :=
      within_admitted (Or.inl hid)
    apply After.admission
    · intro status _
      exact hadmitted.refused status
    · intro _
      cases hplan : state.impl.plans[verification.effectPlan]? with
      | none => exact hadmitted.refused _
      | some plan =>
        rw [after_modifyImpl]
        have hverified := Relation.ReflTransGen.tail hadmitted.ending
          (Routine.verify verification plan)
        apply After.ofResult
        · intro value _
          exact ⟨hadmitted.env, hverified⟩
        · intro status _
          exact ⟨hadmitted.env, hverified⟩

/-! ## Recording a failure -/

theorem FailureDeclaration.validate_eq_ok {value : Unit} :
    declaration.validate = .ok value ↔
      declaration.subject.valid = true ∧ declaration.source ≠ .unknown ∧
        trustOf declaration.source = .authoritative ∧ declaration.observedAtNs ≠ 0 ∧
        declaration.validForNs ≠ 0 ∧ declaration.reason.length ≤ maxMessageBytes := by
  rw [FailureDeclaration.validate]
  simp only [result_bind_eq_ok, require_eq_ok, exists_and_left, exists_const]
  simp

/-- What a successful recording of a failure has done: the record is in the
journal, and then in the table. -/
structure Recorded (declaration : FailureDeclaration) (first last : CallState)
    (record : FailureRecord) : Prop where
  valid : declaration.validate = .ok ()
  subject : record.subject = declaration.subject
  journalable : Journalable record
  written : first.impl.store.isSome = true →
    Written last.impl.disk .failureCommitted (encodeFailureRecord record)
  env : last.env = first.env
  appends : last.appends = (first.journaled .failureCommitted (encodeFailureRecord record)).appends
  impl : ∃ evidence nextEvidence failures,
    (first.impl.journaled .failureCommitted (encodeFailureRecord record)).failures.record
      record = .ok failures ∧
    last.impl = { first.impl.journaled .failureCommitted (encodeFailureRecord record) with
      evidence, nextEvidence, failures }

theorem journaled_withEvidence (impl : Impl) (evidence : EvidenceStore) (nextEvidence : UInt64)
    (kind : RecordKind) (payload : Bytes) :
    { impl with evidence, nextEvidence }.journaled kind payload =
      { impl.journaled kind payload with evidence, nextEvidence } := by
  obtain ⟨limits, policy, disk, store⟩ := impl
  cases store with
  | none => rfl
  | some store => rfl

/-- The evidence part of a recording: only the evidence store and the counter of
identities change. -/
theorem assertFailure_spec (declaration : FailureDeclaration) (state : CallState) :
    After (assertFailure declaration) state fun outcome final =>
      Within scope (ending outcome) state final ∧ final.appends = state.appends ∧
        ∃ evidence nextEvidence, final.impl = { state.impl with evidence, nextEvidence } := by
  rw [assertFailure, after_getImpl, after_modifyImpl]
  generalize hclaimed : state.withImpl _ = claimed
  have hid : (declaration.assertion state.impl).id.raw + 1 =
      runtimeReservedIdBase + claimed.impl.nextEvidence := by
    rw [← hclaimed]
    exact add_assoc _ _ _
  have hclaim : Within scope (.ok ()) state claimed := by
    rw [← hclaimed]
    exact ⟨rfl, Relation.ReflTransGen.single .claimIdentity⟩
  have hfinal : Within scope (.ok ()) state (claimed.admitted (declaration.assertion state.impl)) ∧
      (claimed.admitted (declaration.assertion state.impl)).appends = state.appends ∧
      ∃ evidence nextEvidence, (claimed.admitted (declaration.assertion state.impl)).impl =
        { state.impl with evidence, nextEvidence } := by
    refine ⟨Sequential.trans hclaim (within_admitted (Or.inr hid)), ?_, ?_⟩
    · rw [← hclaimed]
      rfl
    · rw [← hclaimed]
      exact ⟨_, _, rfl⟩
  apply After.admission
  · intro status _
    exact ⟨hfinal.1.refused status, hfinal.2⟩
  · intro _
    rw [after_now, after_getImpl]
    apply After.check
    · intro status _
      exact ⟨⟨hfinal.1.env, hfinal.1.ending⟩, hfinal.2⟩
    · intro _ _
      exact ⟨⟨hfinal.1.env, hfinal.1.ending⟩, hfinal.2⟩

theorem commitLineage_spec (hvalid : declaration.validate = .ok ()) (evidence : EvidenceId)
    (state : CallState) :
    After (commitLineage declaration evidence) state fun outcome final =>
      Within scope (ending outcome) state final ∧
        ∀ record, outcome = .ok record → Recorded declaration state final record := by
  obtain ⟨hsubject, -, -, hobserved, -, hreason⟩ :=
    FailureDeclaration.validate_eq_ok.mp hvalid
  rw [commitLineage, after_now, after_getImpl]
  generalize hrecord : declaration.lineage _ _ _ = record
  have hsame : record.subject = declaration.subject := by rw [← hrecord]; rfl
  have hfields : Journalable record := by
    rw [← hrecord]
    exact ⟨hsubject, hobserved, hreason⟩
  have hjournalable : Recordable .failureCommitted (encodeFailureRecord record) :=
    ⟨record, hfields, rfl⟩
  apply After.journal
  · intro store stop hstore hstop
    have hticked : state.ticked.env = state.env := rfl
    exact ⟨within_unwritten hticked Relation.ReflTransGen.refl hstore hstop hjournalable,
      fun _ hok => by cases hok⟩
  intro hwritten
  have hjournaled : Routines state.env.deals scope state.impl
      (state.impl.journaled .failureCommitted (encodeFailureRecord record)) :=
    routines_journaled hjournalable
  rw [after_getImpl]
  apply After.check
  · intro status _
    exact ⟨⟨rfl, hjournaled⟩, fun _ hok => by cases hok⟩
  · intro failures hfailures
    rw [after_modifyImpl]
    refine ⟨⟨rfl, hjournaled.tail (.lineage record failures ?_ hfailures)⟩, ?_⟩
    · intro hstored
      exact hwritten (by rwa [Impl.journaled_stored] at hstored)
    · rintro _ ⟨⟩
      exact ⟨hvalid, hsame, hfields, hwritten, rfl, rfl, _, _, failures, hfailures, rfl⟩

theorem recordFailureLocked_spec (declaration : FailureDeclaration) (state : CallState) :
    After (recordFailureLocked declaration) state fun outcome final =>
      Within scope (ending outcome) state final ∧
        ∀ record, outcome = .ok record → Recorded declaration state final record := by
  rw [recordFailureLocked]
  apply After.check
  · intro status _
    exact ⟨⟨rfl, Relation.ReflTransGen.refl⟩, fun _ hok => by cases hok⟩
  intro value hvalid
  apply After.running
  · intro status
    exact ⟨⟨rfl, Relation.ReflTransGen.refl⟩, fun _ hok => by cases hok⟩
  intro _
  apply After.withTopology
  · intro status
    exact ⟨⟨rfl, Relation.ReflTransGen.refl⟩, fun _ hok => by cases hok⟩
  intro _
  apply (assertFailure_spec declaration state).bind
  · intro stop middle hknown
    exact ⟨hknown.1, fun _ hok => by cases hok⟩
  rintro identity middle ⟨hmiddle, happends, evidence, nextEvidence, himpl⟩
  apply (commitLineage_spec hvalid identity middle).mono
  rintro outcome final ⟨hfinal, hrecorded⟩
  refine ⟨Sequential.trans hmiddle hfinal, fun record hok => ?_⟩
  have hfacts := hrecorded record hok
  obtain ⟨_, _, failures, hfailures, hlast⟩ := hfacts.impl
  rw [himpl, journaled_withEvidence] at hfailures hlast
  refine ⟨hvalid, hfacts.subject, hfacts.journalable, ?_, hfacts.env.trans hmiddle.env, ?_,
    _, _, failures, hfailures, hlast⟩
  · intro hstored
    apply hfacts.written
    rwa [himpl]
  · rw [hfacts.appends, CallState.journaled, CallState.journaled, himpl, happends]

theorem within_recordFailure (declaration : FailureDeclaration) :
    Keeps (Within scope) (recordFailure declaration) :=
  within_ofResult.bind fun _ state =>
    (recordFailureLocked_spec declaration state).mono fun _ _ hfinal => hfinal.1

/-! ## Declaring a failure -/

/-- The coordinator after the sweep of the grants bound to a generation. -/
def Impl.swept (impl : Impl) (subject : SwitchKey) : Impl :=
  { impl with
    authority := (impl.authority.fenceGenerations (GenerationVector.empty.insert subject)).2 }

def Impl.superseding (impl : Impl) (subject : SwitchKey) : Impl :=
  { impl with plans := impl.plans.map fun _ plan => superseded subject plan }

/-- A fence record that the decoder accepts. -/
structure FenceJournalable (fence : FenceRecord) : Prop where
  subject : fence.subject.valid = true
  reason : fence.reason.length ≤ maxMessageBytes

/-- A fence for the subject, committed by the swept registry. -/
structure Fenced (subject : SwitchKey) (impl : Impl) (fence : FenceRecord)
    (authority : AuthorityRegistry) : Prop where
  names : fence.subject = subject
  journalable : FenceJournalable fence
  commit : ∃ record id, record.subject = subject ∧
    (impl.swept subject).authority.commitFence record = .ok (id, authority)

/-- The courses the fence part of a declaration takes, from the state in which
the failure has been recorded: the subject is fenced already; the registry
refuses the fence; the fence is committed but not journaled; it is committed and,
if there is a journal, journaled. -/
inductive FencePart (subject : SwitchKey) (first : CallState) :
    Except Stop Unit → Impl → Prop
  | deferred (hfenced : first.impl.authority.isFenced subject = true) :
      FencePart subject first (.ok ()) ((first.impl.swept subject).superseding subject)
  | refused (status : Status) (hfenced : first.impl.authority.isFenced subject = false) :
      FencePart subject first (.error (.failed status)) (first.impl.swept subject)
  | unwritten (fence : FenceRecord) (authority : AuthorityRegistry) (store : DurableStore)
      (stop : Stop) (hfence : Fenced subject first.impl fence authority)
      (hstore : first.impl.store = some store)
      (houtcome : appendStop (store.append first.impl.disk (first.env.fate first.appends)
        .fenceCommitted (encodeFenceRecord fence)).1 = some stop) :
      FencePart subject first (.error stop)
        ({ first.impl with authority }.appended store (first.env.fate first.appends)
          .fenceCommitted (encodeFenceRecord fence))
  | committed (fence : FenceRecord) (authority : AuthorityRegistry)
      (hfence : Fenced subject first.impl fence authority)
      (hwritten : first.impl.store.isSome = true →
        Written ({ first.impl with authority }.journaled .fenceCommitted
          (encodeFenceRecord fence)).disk .fenceCommitted (encodeFenceRecord fence)) :
      FencePart subject first (.ok ())
        (({ first.impl with authority }.journaled .fenceCommitted
          (encodeFenceRecord fence)).superseding subject)

theorem fence_journalable (hvalid : declaration.validate = .ok ()) (impl : Impl)
    (closure : DependencyClosure) (grantsFenced : ℕ) (time : TimestampNs) (id : FenceId) :
    FenceJournalable { declaration.fence impl closure grantsFenced time with id } := by
  obtain ⟨hsubject, -, -, -, -, hreason⟩ := FailureDeclaration.validate_eq_ok.mp hvalid
  refine ⟨hsubject, ?_⟩
  change (if declaration.reason.isEmpty then _ else declaration.reason).length ≤ _
  split
  · decide +kernel
  · exact hreason

theorem after_sweepSubject {subject : SwitchKey} {next : ℕ → Call A}
    {post : Except Stop A → CallState → Prop} :
    After (sweepSubject subject >>= next) state post ↔
      After (next (state.impl.authority.fenceGenerations (GenerationVector.empty.insert subject)).1)
        (state.ticked.withImpl (state.impl.swept subject)) post := Iff.rfl

theorem fencePart_spec (hvalid : declaration.validate = .ok ()) (closure : DependencyClosure)
    (answer : FenceRecord × ℕ × Bool → A) (state : CallState) :
    After (do
      let fenced ← fenceSubject declaration closure
      supersedePlans declaration.subject
      return answer fenced) state fun outcome final =>
        FencePart declaration.subject state (ending outcome) final.impl := by
  rw [fenceSubject, bind_assoc, after_sweepSubject, bind_assoc, after_getImpl]
  split
  · rename_i hfenced
    rw [pure_bind, supersedePlans, after_modifyImpl]
    exact FencePart.deferred hfenced
  · rename_i hfenced
    rw [bind_assoc, commitNewFence, bind_assoc, after_now, bind_assoc, after_getImpl, bind_assoc]
    apply After.check
    · intro status _
      exact FencePart.refused status (Bool.eq_false_of_not_eq_true hfenced)
    rintro ⟨id, authority⟩ hcommit
    rw [bind_assoc, after_modifyImpl]
    generalize hfence : FenceRecord.mk _ _ _ _ _ _ _ _ _ _ _ = fence
    have hfacts : Fenced declaration.subject state.impl fence authority := by
      rw [← hfence]
      exact ⟨rfl, fence_journalable hvalid _ _ _ _ _, _, id, rfl, hcommit⟩
    rw [bind_assoc]
    apply After.journal
    · intro store stop hstore hstop
      exact FencePart.unwritten fence authority store stop hfacts hstore hstop
    · intro hwritten
      rw [pure_bind, pure_bind, supersedePlans, after_modifyImpl]
      exact FencePart.committed fence authority hfacts hwritten

/-- A declaration either stops before anything is fenced, or records the failure
and goes through the fence part. -/
inductive Declared (scope : Scope) (declaration : FailureDeclaration) (first : CallState) :
    Except Stop Unit → Impl → Prop
  | stopped (last : Impl) (stop : Stop)
      (hroutines : Routines.Ending first.env.deals scope (.error stop) first.impl last) :
      Declared scope declaration first (.error stop) last
  | fenced (middle : CallState) (record : FailureRecord) (outcome : Except Stop Unit)
      (last : Impl) (hroutines : Routines first.env.deals scope first.impl middle.impl)
      (hrecorded : Recorded declaration first middle record)
      (hfence : FencePart declaration.subject middle outcome last) :
      Declared scope declaration first outcome last

theorem declareFailure_spec (scope : Scope) (declaration : FailureDeclaration) (state : CallState) :
    After (declareFailure declaration) state fun outcome final =>
      Declared scope declaration state (ending outcome) final.impl := by
  rw [declareFailure]
  apply After.check
  · intro status _
    exact .stopped _ _ Relation.ReflTransGen.refl
  intro _ hvalid
  apply After.running
  · intro status
    exact .stopped _ _ Relation.ReflTransGen.refl
  intro _
  apply (recordFailureLocked_spec declaration state).bind
  · intro stop middle hknown
    exact .stopped _ _ hknown.1.ending
  intro record middle hknown
  rw [after_getImpl]
  apply (fencePart_spec hvalid _ _ middle).mono
  intro outcome final hfence
  exact .fenced middle record _ _ hknown.1.ending (hknown.2 record rfl) hfence

/-! ## Planning -/

theorem retirePlans_subset (limit fuel : ℕ) (plans : Std.TreeMap PlanId ReconstructionPlan)
    (hplan : (retirePlans limit fuel plans)[id]? = some plan) : plans[id]? = some plan := by
  induction fuel generalizing plans with
  | zero => exact hplan
  | succ fuel ih =>
    rw [retirePlans] at hplan
    split at hplan
    · exact hplan
    · split at hplan
      · exact hplan
      · have herased := ih _ hplan
        rw [Std.TreeMap.getElem?_erase] at herased
        split at herased
        · cases herased
        · exact herased

@[simp]
theorem inState_state (plan : ReconstructionPlan) (state : PlanState) :
    (plan.inState state).state = state := rfl

@[simp]
theorem inState_restores (plan : ReconstructionPlan) (state : PlanState) :
    (plan.inState state).restores = plan.restores := rfl

@[simp]
theorem inState_id (plan : ReconstructionPlan) (state : PlanState) :
    (plan.inState state).id = plan.id := rfl

theorem Clear.inState (hclear : Clear impl plan) (state : PlanState) :
    Clear impl (plan.inState state) := by
  intro step hstep
  rw [inState_restores] at hstep
  exact hclear step hstep

/-- A plan that validates against the coordinator's inputs crosses no fence. -/
theorem clear_of_valid {time : TimestampNs}
    (hvalid : (validatePlan plan (impl.makeInputs id time)).valid = true) : Clear impl plan :=
  fun _ hstep _ hhop => unfenced_of_valid hvalid hstep hhop

/-- Retaining one more plan is a routine change. -/
theorem routine_retain {fates : Fate → Prop} (hretainable : Retainable impl plan) :
    Routine fates scope impl { impl with plans := impl.plans.insert plan.id plan } := by
  refine .replan impl.nextPlan (impl.plans.insert plan.id plan) ?_
  intro id other hother
  rw [Std.TreeMap.getElem?_insert] at hother
  split at hother
  · cases hother
    exact Or.inr hretainable
  · exact Or.inl hother

theorem within_proposePlan (failed : GenerationVector) :
    Keeps (Within scope) (proposePlan failed) := by
  intro state
  rw [proposePlan]
  apply After.running
  · intro status
    exact ⟨rfl, Relation.ReflTransGen.refl⟩
  intro _
  apply After.withTopology
  · intro status
    exact ⟨rfl, Relation.ReflTransGen.refl⟩
  intro _
  rw [after_getImpl]
  apply After.check
  · intro status _
    exact ⟨rfl, Relation.ReflTransGen.refl⟩
  intro _ _
  rw [after_now]
  apply After.check
  · intro status _
    exact ⟨rfl, Relation.ReflTransGen.refl⟩
  intro plan _
  rw [after_modifyImpl]
  have hcounted : Routine state.env.deals scope state.impl
      { state.impl with nextPlan := state.impl.nextPlan + 1 } :=
    .replan (state.impl.nextPlan + 1) state.impl.plans fun _ _ hplan => Or.inl hplan
  dsimp only
  split
  · rename_i hvalid
    have hclear : Clear state.impl plan := clear_of_valid hvalid
    rw [after_modifyImpl, retainPlan, after_modifyImpl]
    refine ⟨rfl, (Relation.ReflTransGen.single hcounted).tail ?_ |>.tail (routine_retain ?_)⟩
    · exact .replan _ _ fun _ _ hplan => Or.inl (retirePlans_subset _ _ _ hplan)
    · exact ⟨by simp, fun _ => hclear.inState .validated⟩
  · rw [retainPlan, after_modifyImpl]
    exact ⟨rfl, (Relation.ReflTransGen.single hcounted).tail
      (routine_retain ⟨by simp, by simp [Live]⟩)⟩

/-! ## Applying -/

theorem within_refusalOf (hops : List SwitchKey) : Keeps (Within scope) (refusalOf hops) := by
  induction hops with
  | nil => exact keeps_pure
  | cons hop hops ih =>
    refine within_getImpl.bind fun impl => ?_
    split
    · exact keeps_pure
    split
    · exact keeps_pure
    refine within_now.bind fun time => ?_
    split
    · exact keeps_pure
    · exact ih

theorem within_attemptStep (hscope : scope.mints step.dependent) :
    Keeps (Within scope) (attemptStep plan step) := by
  refine (within_refusalOf step.hops).bind fun refusal => ?_
  cases refusal with
  | some reason => exact keeps_pure
  | none =>
    dsimp only
    split
    · exact keeps_pure
    refine within_now.bind fun time => fun state => ?_
    rw [after_getImpl]
    cases hmint : state.impl.mint step.dependent (boundOf step.hops) time
        (text "reconstruction applied under plan " ++ decimal plan.id.raw.toNat) with
    | error status => exact ⟨rfl, Relation.ReflTransGen.refl⟩
    | ok granted =>
      obtain ⟨id, authority⟩ := granted
      dsimp only
      rw [after_modifyImpl]
      exact ⟨rfl, Relation.ReflTransGen.single (.mint _ _ time _ id authority hscope hmint)⟩

theorem within_applyStep {receipt : ApplyReceipt} (hmints : scope.mints step.dependent)
    (happlies : scope.applies) : Keeps (Within scope) (applyStep plan receipt step) :=
  (within_attemptStep hmints).bind fun result =>
    (within_modifyImpl fun _ _ => Relation.ReflTransGen.single
      (.record result plan.id happlies)).bind fun _ => keeps_pure

theorem planStateAfter_ne_superseded (receipt : ApplyReceipt) :
    planStateAfter receipt ≠ .superseded := by
  rw [planStateAfter]
  split
  · simp
  · split <;> simp

/-- The whole of an application; the plan is clear, and stays clear because no
fence is committed on the way. -/
theorem within_applySteps {state : CallState}
    (hmints : ∀ step ∈ plan.restores, scope.mints step.dependent) (happlies : scope.applies)
    (hclear : Clear state.impl plan) :
    After (applySteps plan) state fun outcome final =>
      Within scope (ending outcome) state final := by
  rw [applySteps]
  dsimp only
  apply After.journal
  · intro store stop hstore hstop
    exact within_unwritten rfl Relation.ReflTransGen.refl hstore hstop trivial
  intro _
  have hjournaled : Routines state.env.deals scope state.impl
      (state.impl.journaled .planCommitted (plan.inState .applying).encode) :=
    routines_journaled trivial
  rw [retainPlan, after_modifyImpl, after_modifyImpl, after_getImpl]
  have hbegun := (hjournaled.tail (routine_retain
    ⟨by simp, fun _ => (hjournaled.sameFrame.clear hclear).inState .applying⟩)).tail
      (Routine.begin ((plan.inState .applying).restores.map (·.dependent)) happlies)
  have hloop : ∀ step ∈ (plan.inState .applying).restores, ∀ receipt,
      Keeps (Within scope) (applyStep (plan.inState .applying) receipt step) :=
    fun step hstep receipt => within_applyStep (hmints step hstep) happlies
  apply (keeps_foldlM hloop _ _).bind
  · intro stop middle hmiddle
    exact hmiddle.after rfl hbegun
  intro receipt middle hmiddle
  have henv : middle.env = state.env := hmiddle.env
  have hlooped : Routines state.env.deals scope state.impl middle.impl :=
    hbegun.trans hmiddle.ending
  generalize concludeReceipt receipt _ = concluded
  apply After.journal
  · intro store stop hstore hstop
    exact within_unwritten henv hlooped hstore hstop trivial
  intro _
  have hreceipt : Routines state.env.deals scope state.impl (middle.impl.journaled .applyCompleted
      (encodeApplyReceipt concluded)) := hlooped.trans (routines_journaled trivial)
  apply After.journal
  · intro store stop hstore hstop
    have hsame : (middle.journaled .applyCompleted (encodeApplyReceipt concluded)).env =
        state.env := henv
    exact within_unwritten hsame hreceipt hstore hstop trivial
  intro _
  have hfinal : Routines state.env.deals scope state.impl ((middle.impl.journaled .applyCompleted
      (encodeApplyReceipt concluded)).journaled .planCommitted
        ((plan.inState .applying).inState (planStateAfter concluded)).encode) :=
    hreceipt.trans (routines_journaled trivial)
  rw [retainPlan, after_modifyImpl]
  exact ⟨henv, hfinal.tail (routine_retain ⟨planStateAfter_ne_superseded concluded,
    fun _ => ((hfinal.sameFrame.clear hclear).inState .applying).inState _⟩)⟩

theorem within_applyNothing {state : CallState} (hclear : Clear state.impl plan) :
    After (applyNothing plan) state fun outcome final =>
      Within scope (ending outcome) state final := by
  rw [applyNothing, after_getImpl]
  dsimp only
  apply After.journal
  · intro store stop hstore hstop
    exact within_unwritten rfl Relation.ReflTransGen.refl hstore hstop trivial
  intro _
  rw [retainPlan, after_modifyImpl]
  generalize encodeApplyReceipt _ = payload
  have hjournaled : Routines state.env.deals scope state.impl
      (state.impl.journaled .applyCompleted payload) := routines_journaled trivial
  exact ⟨rfl, hjournaled.tail (routine_retain
    ⟨by simp, fun _ => (hjournaled.sameFrame.clear hclear).inState .applied⟩)⟩

theorem within_applyPlan (request : ReconstructionPlan) :
    Keeps (Within .everything) (applyPlan request) := by
  intro state
  rw [applyPlan]
  apply After.running
  · intro status
    exact ⟨rfl, Relation.ReflTransGen.refl⟩
  intro _
  apply After.withTopology
  · intro status
    exact ⟨rfl, Relation.ReflTransGen.refl⟩
  intro _
  rw [after_getImpl]
  cases state.impl.plans[request.id]? with
  | none => exact ⟨rfl, Relation.ReflTransGen.refl⟩
  | some plan =>
    dsimp only
    rw [after_now]
    split
    · rename_i hvalid
      have hclear : Clear state.ticked.impl plan := clear_of_valid hvalid
      apply After.check
      · intro status _
        exact ⟨rfl, Relation.ReflTransGen.refl⟩
      intro _ _
      split
      · exact (within_applyNothing hclear).mono fun _ _ hfinal => hfinal.of_ticked
      apply After.check
      · intro status _
        exact ⟨rfl, Relation.ReflTransGen.refl⟩
      intro _ _
      have heverything : After (applySteps plan) state.ticked fun outcome final =>
          Within .everything (ending outcome) state.ticked final :=
        within_applySteps (fun _ _ => trivial) trivial hclear
      exact heverything.mono fun _ _ hfinal => hfinal.of_ticked
    · rw [retainPlan, after_modifyImpl]
      exact ⟨rfl, Relation.ReflTransGen.single (routine_retain ⟨by simp, by simp [Live]⟩)⟩

/-! ## All operations -/

/-- What an operation may mint and record. -/
def Operation.extent : Operation → Scope
  | .installTopology topology => ⟨declaredBy topology, False⟩
  | .establishAuthority dependent _ _ => ⟨(· = dependent), False⟩
  | .applyPlan _ => .everything
  | _ => .nothing

/-- The operations that commit no fence. -/
def Operation.isRoutine : Operation → Prop
  | .declareFailure _ => False
  | _ => True

/-- The two kinds of operations, as invariants are proved for them. -/
theorem Operation.declares_or_isRoutine (operation : Operation) :
    (∃ declaration, operation = .declareFailure declaration) ∨ operation.isRoutine := by
  cases operation with
  | declareFailure declaration => exact Or.inl ⟨declaration, rfl⟩
  | _ => exact Or.inr trivial

theorem Operation.within (hroutine : operation.isRoutine) :
    Keeps (Within operation.extent) operation.call := by
  cases operation with
  | installTopology topology => exact within_installTopology topology
  | installCandidates candidates => exact within_installCandidates candidates
  | installPolicy policy => exact within_installPolicy policy
  | establishAuthority dependent bound detail =>
    exact within_establishAuthority dependent bound detail
  | withdrawAuthority dependent cause detail =>
    exact within_withdrawAuthority dependent cause detail
  | admitEvidence record => exact within_admitEvidence record
  | recordFailure declaration =>
    exact (within_recordFailure declaration).bind fun _ => keeps_pure
  | declareFailure declaration => exact hroutine.elim
  | proposePlan failed => exact (within_proposePlan failed).bind fun _ => keeps_pure
  | applyPlan request => exact (within_applyPlan request).bind fun _ => keeps_pure
  | recordEffectVerification verification =>
    exact within_recordEffectVerification verification
  | shutdown => exact within_shutdown

/-- What an operation has done, however it ended. -/
inductive Performed (impl : Impl) (env : Env) : Operation → Except Stop Unit → Impl → Prop
  | routine (operation : Operation) (outcome : Except Stop Unit) (last : Impl)
      (hroutines : Routines.Ending env.deals operation.extent outcome impl last) :
      Performed impl env operation outcome last
  | declared (declaration : FailureDeclaration) (outcome : Except Stop Unit) (last : Impl)
      (hdeclared : Declared .nothing declaration { impl, env } outcome last) :
      Performed impl env (.declareFailure declaration) outcome last

/-- The invariant rule for operations: what routine changes, the last append of a dying
process and the fence of a declaration keep holds after every operation. -/
theorem Performed.preserve {impl last : Impl} {outcome : Except Stop Unit} (property : Impl → Prop)
    (hroutine : ∀ {scope first last}, Routine env.deals scope first last → property first →
      property last)
    (hdies : ∀ {first last}, Dies env.deals first last → property first → property last)
    (hfence : ∀ {subject first outcome last}, FencePart subject first outcome last →
      property first.impl → property last)
    (hperformed : Performed impl env operation outcome last) (hfirst : property impl) :
    property last := by
  cases hperformed with
  | routine operation outcome last hroutines =>
    exact hroutines.preserve (fun _ _ => hroutine) (fun _ _ => hdies) hfirst
  | declared declaration outcome last hdeclared =>
    cases hdeclared with
    | stopped last stop hroutines =>
      exact hroutines.preserve (fun _ _ => hroutine) (fun _ _ => hdies) hfirst
    | fenced middle record outcome last hroutines hrecorded hpart =>
      exact hfence hpart (hroutines.preserve (fun _ _ => hroutine) hfirst)

theorem callOn_spec (impl : Impl) (operation : Operation) (env : Env) :
    Performed impl env operation (callOn impl operation.call env).1
      (callOn impl operation.call env).2.impl := by
  rcases operation.declares_or_isRoutine with ⟨declaration, rfl⟩ | hroutine
  · have hcall : After (Operation.declareFailure declaration).call { impl, env }
        fun outcome final => Declared .nothing declaration { impl, env } outcome final.impl := by
      apply (declareFailure_spec .nothing declaration { impl, env }).bind
      · intro stop middle hdeclared
        exact hdeclared
      · intro _ middle hdeclared
        exact hdeclared
    exact .declared declaration _ _ hcall
  · have hwithin := Operation.within hroutine { impl, env }
    rw [After, ending_unit] at hwithin
    exact .routine operation _ _ hwithin.ending

end SwitchFailover.Runtime
