import SwitchFailover.Model.Obligation
import SwitchFailover.Runtime.PlanSafety

/-!
# Declarations that must succeed

A declaration that is valid and inside its window, on a running coordinator with
a topology and room in its stores and its journal, is answered and leaves its
subject fenced, if the evidence made of it stays in the bucket of the subject and
its window does not wrap around.
-/

namespace SwitchFailover.Runtime

open SwitchFailover.Core Codec Model Plan Persist Library.Effects Library.Transitions

variable {record : FailureRecord} {subject : SwitchKey} {fates : Fate → Prop}
  {outcome : Except Stop Unit} {disk : Disk}

variable {env : Env} {state first : CallState} {impl last : Impl} {declaration : FailureDeclaration}

/-! ## The conditions -/

/-- If there is a journal, it takes both records of a declaration. -/
def Impl.TakesDeclaration (impl : Impl) (env : Env) : Prop :=
  ∀ store, impl.store = some store →
    store.isOpen = true ∧ store.recordsWritten + 2 ≤ store.limits.maxJournalRecords ∧
      maxFenceBytes ≤ RecordHeader.payloadCeiling store.limits ∧
      env.fate 0 = .done ∧ env.fate 1 = .done

/-- What a caller may expect to suffice: the declaration is valid and inside its
window at every reading of the clock, no authoritative recovery is as new, and no
bound is reached. -/
structure Declarable (impl : Impl) (declaration : FailureDeclaration) (env : Env) : Prop where
  running : impl.stopped = false
  topology : impl.topologyPresent = true
  valid : declaration.validate = .ok ()
  observed : ∀ index, declaration.observedAtNs ≤ env.clock index
  unexpired : ∀ index, (env.clock index).toNat ≤
    declaration.observedAtNs.toNat + declaration.validForNs.toNat
  unrecovered : RecoveredBefore (impl.evidence.forSubject declaration.subject)
    declaration.observedAtNs
  evidenceRoom : impl.evidence.total < impl.evidence.limits.maxEvidenceRecords
  fenceRoom : impl.authority.fences.size < impl.authority.limits.maxFences
  journalRoom : impl.TakesDeclaration env

/-- What is needed besides: the window does not wrap, the bucket of the subject
keeps the record, and the identities of the runtime are not used up. -/
structure Lasting (impl : Impl) (declaration : FailureDeclaration) : Prop where
  window : declaration.observedAtNs.toNat + declaration.validForNs.toNat < 2 ^ 64
  kept : (impl.evidence.forSubject declaration.subject).countP
    (fun other => decide (declaration.observedAtNs ≤ other.observedAtNs)) < perSubjectRetention
  numbered : impl.nextEvidence.toNat < 2 ^ 63
  free : impl.evidence.identities.contains ⟨runtimeReservedIdBase + impl.nextEvidence⟩ = false

/-! ## The evidence -/

section Assertion

theorem assertion_valid (hvalid : declaration.validate = .ok ())
    (hnumbered : impl.nextEvidence.toNat < 2 ^ 63) :
    (declaration.assertion impl).validate = .ok () := by
  obtain ⟨hsubject, hsource, htrust, hobserved, hwindow, hreason⟩ :=
    FailureDeclaration.validate_eq_ok.mp hvalid
  have hid : (declaration.assertion impl).id.valid = true := by
    have hraw : (runtimeReservedIdBase + impl.nextEvidence).toNat ≠ 0 := by
      rw [UInt64.toNat_add, show runtimeReservedIdBase.toNat = 2 ^ 63 from rfl]
      omega
    change ((runtimeReservedIdBase + impl.nextEvidence) != 0) = true
    rw [bne_iff_ne]
    rintro hzero
    rw [hzero] at hraw
    exact hraw rfl
  simp only [EvidenceRecord.validate, EvidenceRecord.validateKind, result_bind_eq_ok,
    require_eq_ok, exists_const]
  refine ⟨hid, rfl, ?_, hsubject, ?_, ?_, ?_, ?_⟩
  · simpa [FailureDeclaration.assertion] using hsource
  · simpa [FailureDeclaration.assertion] using hwindow
  · simpa [FailureDeclaration.assertion] using hobserved
  · exact decide_eq_true hreason
  · simpa [FailureDeclaration.assertion] using htrust

/-- The window as the code computes it, when it does not wrap. -/
theorem assertion_fresh (hwindow : declaration.observedAtNs.toNat +
    declaration.validForNs.toNat < 2 ^ 64) {time : TimestampNs}
    (hobserved : declaration.observedAtNs ≤ time)
    (hunexpired : time.toNat ≤ declaration.observedAtNs.toNat + declaration.validForNs.toNat) :
    (declaration.assertion impl).freshAt time = true := by
  have hsum : (declaration.observedAtNs + declaration.validForNs).toNat =
      declaration.observedAtNs.toNat + declaration.validForNs.toNat := by
    rw [UInt64.toNat_add, Nat.mod_eq_of_lt hwindow]
  have hexpires : ¬declaration.observedAtNs + declaration.validForNs <
      declaration.observedAtNs := by
    rw [UInt64.lt_iff_toNat_lt, hsum]
    omega
  rw [EvidenceRecord.freshAt]
  change (if declaration.observedAtNs > time then false
    else if declaration.observedAtNs + declaration.validForNs < declaration.observedAtNs then false
    else decide (time ≤ declaration.observedAtNs + declaration.validForNs)) = true
  rw [if_neg (UInt64.not_lt.mpr hobserved), if_neg hexpires, decide_eq_true_eq,
    UInt64.le_iff_toNat_le, hsum]
  exact hunexpired

end Assertion

/-- The evidence of a declaration that lasts obliges to fence. -/
theorem requireObligation_eq_ok {later : Impl} (hordered : impl.evidence.Ordered)
    (hdeclarable : Declarable impl declaration env) (hlasting : Lasting impl declaration)
    (index : ℕ) (hlater : later.evidence = (({ impl.evidence with
      identities := impl.evidence.identities.insert (declaration.assertion impl).id } :
        EvidenceStore).retain declaration.subject (EvidenceStore.insertOrdered
          (impl.evidence.forSubject declaration.subject) (declaration.assertion impl)))) :
    requireObligation (later.assess declaration.subject (env.clock index)) = .ok () := by
  obtain ⟨hsubject, -, htrust, hpositive, -, -⟩ :=
    FailureDeclaration.validate_eq_ok.mp hdeclarable.valid
  have hbucket : later.evidence.forSubject declaration.subject =
      (EvidenceStore.insertOrdered (impl.evidence.forSubject declaration.subject)
        (declaration.assertion impl)).drop
          ((EvidenceStore.insertOrdered (impl.evidence.forSubject declaration.subject)
            (declaration.assertion impl)).length - perSubjectRetention) := by
    rw [hlater, EvidenceStore.forSubject_retain, if_pos rfl]
  have hrecord : declaration.assertion impl ∈ later.evidence.forSubject declaration.subject := by
    rw [hbucket]
    exact EvidenceStore.mem_retained (hordered declaration.subject) hlasting.kept
  have hrecovered : RecoveredBefore (later.evidence.forSubject declaration.subject)
      (declaration.assertion impl).observedAtNs := by
    intro other hother hkind
    rw [hbucket] at hother
    have hsource : other = declaration.assertion impl ∨
        other ∈ impl.evidence.forSubject declaration.subject :=
      EvidenceStore.mem_forSubject_retained hother
    rcases hsource with rfl | hearlier
    · cases hkind
    · exact hdeclarable.unrecovered other hearlier hkind
  have hdeclares : DeclaresFailure (declaration.assertion impl) (env.clock index) :=
    ⟨rfl, htrust, assertion_fresh hlasting.window (hdeclarable.observed index)
      (hdeclarable.unexpired index)⟩
  obtain ⟨houtcome, hfence⟩ := assessSwitch_of_declared hsubject hrecord hdeclares hpositive
    hrecovered later.failures later.policy.assessment
  simp only [requireObligation, Impl.assess, result_bind_eq_ok, require_eq_ok, exists_const,
    houtcome, hfence]
  decide

theorem assertFailure_answers (hordered : state.impl.evidence.Ordered)
    (hdeclarable : Declarable state.impl declaration state.env)
    (hlasting : Lasting state.impl declaration) :
    After (assertFailure declaration) state fun outcome _ => ∃ id, outcome = .ok id := by
  have hadmitted := EvidenceStore.admitRecord_eq_ok
    (assertion_valid hdeclarable.valid hlasting.numbered) (hdeclarable.observed state.reads)
    hlasting.free hdeclarable.evidenceRoom
  rw [assertFailure, after_getImpl, after_modifyImpl]
  apply After.admission
  · intro status hrefused
    have hresult := congrArg Prod.fst hadmitted
    cases hresult.symm.trans hrefused
  · intro _
    rw [after_now, after_getImpl]
    apply After.check
    · intro status hrefused
      cases hrefused.symm.trans (requireObligation_eq_ok hordered hdeclarable hlasting
        (state.reads + 1) (congrArg Prod.snd hadmitted))
    · intro _ _
      exact ⟨_, rfl⟩

/-! ## The journal -/

theorem encodeFailureRecord_length_le (hrecord : Journalable record) :
    (encodeFailureRecord record).length ≤ maxFenceBytes := by
  have hreason : record.reason.length ≤ 512 := hrecord.reason
  have hlength : (failureChunks record).flatten.length ≤ 110 + record.reason.length := by
    simp [failureChunks, writeU8, writeKey, writeU64, writeBoot, writeString]
    omega
  rw [encodeFailureRecord, written_eq_flatten]
  · exact le_trans hlength (Nat.add_le_add_left hrecord.reason 110)
  · rw [defaultWriterLimit]
    omega

/-- The process does not die in an append that is carried out. -/
theorem appendStop_done_ne_crashed (store : DurableStore) (disk : Disk) (kind : RecordKind)
    (payload : Bytes) : appendStop (store.append disk .done kind payload).1 ≠ some .crashed := by
  rw [DurableStore.append]
  cases store.prepare kind payload with
  | error status => exact fun hcrashed => by cases hcrashed
  | ok encoded => exact fun hcrashed => by cases hcrashed

theorem commitLineage_answers (hvalid : declaration.validate = .ok ()) (evidence : EvidenceId)
    (htakes : state.impl.TakesDeclaration state.env) (happends : state.appends = 0) :
    After (commitLineage declaration evidence) state fun outcome _ =>
      ∃ record, outcome = .ok record := by
  obtain ⟨hsubject, -, -, hobserved, -, hreason⟩ :=
    FailureDeclaration.validate_eq_ok.mp hvalid
  rw [commitLineage, after_now, after_getImpl]
  generalize hrecord : declaration.lineage _ _ _ = record
  have hfields : Journalable record := by
    rw [← hrecord]
    exact ⟨hsubject, hobserved, hreason⟩
  apply After.journal
  · intro store stop hstore hstop
    obtain ⟨hopen, hcount, hfits, hfate, -⟩ := htakes store hstore
    have hkind : isValidRecordKind RecordKind.failureCommitted.raw = true := rfl
    obtain ⟨encoded, hprepare⟩ := prepare_of_room hopen hkind (Nat.le_of_succ_le hcount)
      (le_trans (encodeFailureRecord_length_le hfields) hfits)
    have hdone : state.ticked.env.fate state.ticked.appends = .done := by
      change state.env.fate state.appends = .done
      rw [happends, hfate]
    rw [hdone] at hstop
    obtain rfl : stop = .crashed := crashed_of_appendStop hprepare (fun _ hfault => by cases hfault)
      hstop
    exact absurd hstop (appendStop_done_ne_crashed _ _ _ _)
  · intro _
    rw [after_getImpl, record_eq_ok hfields.subject hfields.observed]
    exact ⟨_, rfl⟩

theorem recordFailureLocked_answers (hordered : impl.evidence.Ordered)
    (hdeclarable : Declarable impl declaration env) (hlasting : Lasting impl declaration) :
    After (recordFailureLocked declaration) { impl, env } fun outcome _ =>
      ∃ record, outcome = .ok record := by
  rw [recordFailureLocked, hdeclarable.valid]
  change After (ensureRunning >>= _) _ _
  rw [ensureRunning, bind_assoc, after_getImpl, hdeclarable.running]
  change After (requireTopology _ >>= _) _ _
  rw [requireTopology, bind_assoc, after_getImpl, hdeclarable.topology]
  change After (assertFailure declaration >>= _) _ _
  have hasserted : After (assertFailure declaration) { impl, env } fun outcome final =>
      (∃ id, outcome = .ok id) ∧ Within .everything (ending outcome) { impl, env } final ∧
        final.appends = 0 ∧
        ∃ evidence nextEvidence, final.impl = { impl with evidence, nextEvidence } :=
    ⟨assertFailure_answers hordered hdeclarable hlasting, assertFailure_spec declaration _⟩
  apply hasserted.bind
  · rintro stop middle ⟨⟨id, hok⟩, -⟩
    cases hok
  · rintro id middle ⟨-, hwithin, happends, evidence, nextEvidence, himpl⟩
    apply commitLineage_answers hdeclarable.valid id _ happends
    rw [himpl, hwithin.env]
    exact hdeclarable.journalRoom

/-! ## The fence -/

theorem Impl.TakesDeclaration.takesFence (htakes : impl.TakesDeclaration env) :
    impl.TakesFence env := by
  intro store hstore
  obtain ⟨hopen, hcount, hfits, -, hfate⟩ := htakes store hstore
  refine ⟨hopen, hcount, hfits, ?_⟩
  intro reached hfault
  cases hfate.symm.trans hfault

theorem Recorded.authority {middle : CallState}
    (hrecorded : Recorded declaration first middle record) :
    middle.impl.authority = first.impl.authority := by
  obtain ⟨_, _, _, -, himpl⟩ := hrecorded.impl
  rw [himpl]
  exact journaled_authority _ _ _

/-- The reason of a fence is never empty. -/
theorem fence_reason_isEmpty (declaration : FailureDeclaration) (impl : Impl)
    (closure : DependencyClosure) (grantsFenced : ℕ) (time : TimestampNs) :
    (declaration.fence impl closure grantsFenced time).reason.isEmpty = false := by
  change (if declaration.reason.isEmpty then _ else declaration.reason).isEmpty = false
  split
  · decide +kernel
  · rename_i hreason
    exact Bool.eq_false_of_not_eq_true hreason

theorem fencePart_answers (hvalid : declaration.validate = .ok ()) (closure : DependencyClosure)
    (answer : FenceRecord × ℕ × Bool → A)
    (hroom : state.impl.authority.fences.size < state.impl.authority.limits.maxFences)
    (hjournal : ∀ fence store stop, FenceJournalable fence → state.impl.store = some store →
      appendStop (store.append state.impl.disk (state.env.fate state.appends) .fenceCommitted
        (encodeFenceRecord fence)).1 ≠ some stop) :
    After (do
      let fenced ← fenceSubject declaration closure
      supersedePlans declaration.subject
      return answer fenced) state fun outcome _ => ∃ value, outcome = .ok value := by
  rw [fenceSubject, bind_assoc, after_sweepSubject, bind_assoc, after_getImpl]
  split
  · rw [pure_bind, supersedePlans, after_modifyImpl]
    exact ⟨_, rfl⟩
  · rename_i hfenced
    rw [bind_assoc, commitNewFence, bind_assoc, after_now, bind_assoc, after_getImpl, bind_assoc]
    apply After.check
    · intro status hrefused
      cases hrefused.symm.trans (AuthorityRegistry.commitFence_eq_ok.mpr
        ⟨(FailureDeclaration.validate_eq_ok.mp hvalid).1, fence_reason_isEmpty declaration _ _ _ _,
          Bool.eq_false_of_not_eq_true hfenced, hroom, rfl, rfl⟩)
    · rintro ⟨id, authority⟩ _
      rw [bind_assoc, after_modifyImpl, bind_assoc]
      apply After.journal
      · intro store stop hstore hstop
        exact absurd hstop (hjournal _ store stop (fence_journalable hvalid _ _ _ _ _) hstore)
      · intro _
        rw [pure_bind, pure_bind, supersedePlans, after_modifyImpl]
        exact ⟨_, rfl⟩

/-- The fence part answers only with the subject fenced. -/
theorem FencePart.isFenced (hfence : FencePart subject first (.ok ()) last) :
    last.authority.isFenced subject = true := by
  cases hfence with
  | deferred hfenced => exact hfenced
  | committed fence authority hfenced hwritten =>
    change ((({ first.impl with authority } : Impl).journaled _ _).authority).isFenced _ = true
    rw [journaled_authority, hfenced.isFenced]
    simp

/-! ## The call -/

theorem declareFailure_answers (hordered : impl.evidence.Ordered)
    (hdeclarable : Declarable impl declaration env) (hlasting : Lasting impl declaration) :
    After (declareFailure declaration) { impl, env } fun outcome _ =>
      ∃ value, outcome = .ok value := by
  rw [declareFailure, hdeclarable.valid]
  change After (ensureRunning >>= _) _ _
  rw [ensureRunning, bind_assoc, after_getImpl, hdeclarable.running]
  change After (recordFailureLocked declaration >>= _) _ _
  have hrecords : After (recordFailureLocked declaration) { impl, env } fun outcome final =>
      (∃ record, outcome = .ok record) ∧ Within .everything (ending outcome) { impl, env } final ∧
        ∀ record, outcome = .ok record → Recorded declaration { impl, env } final record :=
    ⟨recordFailureLocked_answers hordered hdeclarable hlasting,
      recordFailureLocked_spec declaration _⟩
  apply hrecords.bind
  · rintro stop middle ⟨⟨record, hok⟩, -⟩
    cases hok
  · rintro record middle ⟨-, hwithin, hrecorded⟩
    have hfacts := hrecorded record rfl
    rw [after_getImpl]
    apply fencePart_answers hdeclarable.valid
    · rw [hfacts.authority]
      exact hdeclarable.fenceRoom
    · -- the second append of the call is carried out, and the journal has room for it
      intro fence store stop hjournalable hstore hstop
      obtain rfl := hfacts.crashed_of_takesFence hdeclarable.journalRoom.takesFence hjournalable
        hstore hstop
      obtain ⟨-, first, hfirst, happends⟩ := hfacts.stored hstore
      obtain ⟨-, -, -, -, hfate⟩ := hdeclarable.journalRoom first hfirst
      rw [hfacts.env, happends] at hstop
      change appendStop (store.append middle.impl.disk (env.fate 1) _ _).1 = _ at hstop
      rw [hfate] at hstop
      exact appendStop_done_ne_crashed _ _ _ _ hstop

/-! ## Runs -/

theorem Routine.ordered {scope : Scope} {first : Impl} (hroutine : Routine fates scope first last)
    (hordered : first.evidence.Ordered) : last.evidence.Ordered := by
  cases hroutine with
  | admission time record hid => exact hordered.admitRecord time record
  | _ => exact hordered

theorem Dies.ordered {first : Impl} (hdies : Dies fates first last)
    (hordered : first.evidence.Ordered) : last.evidence.Ordered := by
  cases hdies with
  | append => exact hordered

theorem FencePart.evidence (hfence : FencePart subject first outcome last) :
    last.evidence = first.impl.evidence := by
  cases hfence with
  | deferred hfenced => rfl
  | refused status hfenced => rfl
  | unwritten fence authority store stop hfenced hstore houtcome => rfl
  | committed fence authority hfenced hwritten => exact journaled_evidence _ _ _

theorem Performed.ordered {last : Impl} {operation : Operation}
    (hperformed : Performed impl env operation outcome last) (hordered : impl.evidence.Ordered) :
    last.evidence.Ordered := by
  refine hperformed.preserve (fun impl => impl.evidence.Ordered) Routine.ordered Dies.ordered ?_
    hordered
  intro subject first outcome last hfence hevidence
  rw [hfence.evidence]
  exact hevidence

/-- A coordinator that has just been opened has no evidence. -/
theorem Opened.ordered {config : CoordinatorConfig} {process : Process}
    (hopened : Opened config process env disk (.ok ()) impl) : impl.evidence.Ordered := by
  have hempty : ({ limits := config.limits } : EvidenceStore).Ordered := by
    intro subject
    simp [EvidenceStore.forSubject]
  cases hopened with
  | started hlimits hdurable => exact hempty
  | restored store trimmed opening outcome last hlimits hdurable hopen hannounced =>
    obtain ⟨_, _, rfl⟩ := hannounced.frame
    exact hempty

theorem reaches_ordered (hreaches : World.Reaches disk impl) : impl.evidence.Ordered :=
  hreaches.preserve (fun impl => impl.evidence.Ordered) Opened.ordered Performed.ordered

/-- A declaration that may expect to succeed, and that lasts, is answered and
leaves its subject fenced, in every reachable coordinator. -/
theorem declared_failure_fences {disk : Disk} {impl : Impl} (hreaches : World.Reaches disk impl)
    {declaration : FailureDeclaration} {env : Env}
    (hdeclarable : Declarable impl declaration env) (hlasting : Lasting impl declaration) :
    ∃ value final, callOn impl (declareFailure declaration) env = (.ok value, final) ∧
      final.impl.authority.isFenced declaration.subject = true := by
  have hcall : After (declareFailure declaration) { impl, env } fun outcome final =>
      (∃ value, outcome = .ok value) ∧
        Declared .everything declaration { impl, env } (ending outcome) final.impl :=
    ⟨declareFailure_answers (reaches_ordered hreaches) hdeclarable hlasting,
      declareFailure_spec .everything declaration _⟩
  rw [After] at hcall
  obtain ⟨⟨value, hvalue⟩, hdeclared⟩ := hcall
  refine ⟨value, _, Prod.ext hvalue rfl, ?_⟩
  rw [hvalue] at hdeclared
  cases hdeclared with
  | fenced middle record outcome last hroutines hrecorded hfence => exact hfence.isFenced

/-! ## Sample runs -/

/-- The part of the conditions that looks at the coordinator, for a clock that
stands still at `time`. -/
def Impl.expects (impl : Impl) (declaration : FailureDeclaration) (time : TimestampNs) : Bool :=
  !impl.stopped && impl.topologyPresent && declaration.validate.toBool &&
    decide (declaration.observedAtNs ≤ time) &&
    decide (time.toNat ≤ declaration.observedAtNs.toNat + declaration.validForNs.toNat) &&
    (impl.evidence.forSubject declaration.subject).all (fun record =>
      decide (record.kind ≠ .switchRecoveryDeclaration)) &&
    decide (impl.evidence.total < impl.evidence.limits.maxEvidenceRecords) &&
    decide (impl.authority.fences.size < impl.authority.limits.maxFences) && impl.roomy

theorem declarable_calm (hexpects : impl.expects declaration 1000 = true) :
    Declarable impl declaration Sample.calm := by
  simp only [Impl.expects, Bool.and_eq_true, Bool.not_eq_true', decide_eq_true_eq,
    List.all_eq_true] at hexpects
  obtain ⟨⟨⟨⟨⟨⟨⟨⟨hrunning, htopology⟩, hvalid⟩, hobserved⟩, hunexpired⟩, hrecoveries⟩,
    hevidence⟩, hfences⟩, hroomy⟩ := hexpects
  refine ⟨hrunning, htopology, ?_, fun _ => hobserved, fun _ => hunexpired, ?_, hevidence,
    hfences, ?_⟩
  · cases hresult : declaration.validate with
    | ok value => rfl
    | error status =>
      rw [hresult] at hvalid
      cases hvalid
  · intro record hrecord hkind
    exact absurd hkind (hrecoveries record hrecord)
  · intro store hstore
    rw [Impl.roomy, hstore] at hroomy
    simp only [Option.all_some, Bool.and_eq_true, decide_eq_true_eq] at hroomy
    obtain ⟨⟨hopen, hcount⟩, hfits⟩ := hroomy
    exact ⟨hopen, hcount, hfits, rfl, rfl⟩

namespace Sample

/-- A late reading about the first switch, by a source without authority. -/
def lateReading (index : ℕ) : EvidenceRecord where
  id := ⟨index.toUInt64 + 1⟩
  kind := .switchHealth
  source := .telemetryCollector
  subject := switchA
  observedAtNs := 901 + index.toUInt64
  validForNs := 1000
  health := .healthy

/-- The fabric is installed and so many late readings have come in. -/
def observed (count : ℕ) : List Event :=
  [.boot durable process calm, .call (.installTopology topology) calm] ++
    (List.range count).map fun index => .call (.admitEvidence (lateReading index)) calm

/-- The failure of the first switch, observed before the readings. -/
def earlyFailure : FailureDeclaration := ⟨switchA, .fabricManager, 900, 1000, []⟩

/-- The failure of the first switch, declared for as long as a window can be. -/
def endlessFailure : FailureDeclaration := ⟨switchA, .fabricManager, 1000, 2 ^ 64 - 1, []⟩

/-- The conditions hold and the call is refused. -/
def refuses (declaration : FailureDeclaration) (impl : Impl) : Bool :=
  impl.expects declaration 1000 &&
    match callOn impl (declareFailure declaration) calm with
    | (.error (.failed _), final) => !final.impl.authority.isFenced declaration.subject
    | _ => false

end Sample

/-- Thirty-one later readings do not keep the declaration from its effect. -/
theorem declared_failure_fences_sample :
    ∃ impl value final, World.Reaches {} impl ∧
      callOn impl (declareFailure Sample.earlyFailure) Sample.calm = (.ok value, final) ∧
      final.impl.authority.isFenced Sample.switchA = true := by
  have hrun : (run World.step (.down {}) (Sample.observed 31)).passes (fun impl =>
      impl.expects Sample.earlyFailure 1000 &&
        (decide ((impl.evidence.forSubject Sample.switchA).countP (fun other =>
            decide ((900 : UInt64) ≤ other.observedAtNs)) < perSubjectRetention) &&
          (decide (impl.nextEvidence.toNat < 2 ^ 63) &&
            !impl.evidence.identities.contains ⟨runtimeReservedIdBase + impl.nextEvidence⟩))) =
      true := by
    decide +kernel
  obtain ⟨impl, hup, htest⟩ := World.up_of_passes hrun
  simp only [Bool.and_eq_true, decide_eq_true_eq, Bool.not_eq_true'] at htest
  obtain ⟨hexpects, hkept, hnumbered, hfree⟩ := htest
  have hreaches : World.Reaches {} impl := ⟨_, hup⟩
  have hlasting : Lasting impl Sample.earlyFailure := ⟨by decide +kernel, hkept, hnumbered, hfree⟩
  obtain ⟨value, final, hcall, hfenced⟩ :=
    declared_failure_fences hreaches (declarable_calm hexpects) hlasting
  exact ⟨impl, value, final, hreaches, hcall, hfenced⟩

theorem refused_of_refuses (hrefuses : Sample.refuses declaration impl = true) :
    Declarable impl declaration Sample.calm ∧
      ∃ status final, callOn impl (declareFailure declaration) Sample.calm =
          (.error (.failed status), final) ∧
        final.impl.authority.isFenced declaration.subject = false := by
  rw [Sample.refuses, Bool.and_eq_true] at hrefuses
  refine ⟨declarable_calm hrefuses.1, ?_⟩
  have hcall := hrefuses.2
  generalize callOn impl (declareFailure declaration) Sample.calm = result at hcall
  rcases result with ⟨(status | _) | value, final⟩
  · exact ⟨status, final, rfl, by simpa using hcall⟩
  · cases hcall
  · cases hcall

/-- A declaration is refused and its subject not fenced after thirty-two later
readings of a source without authority, and when its window wraps around. -/
theorem declared_failure_refused :
    (∃ impl status final, World.Reaches {} impl ∧
        Declarable impl Sample.earlyFailure Sample.calm ∧
        callOn impl (declareFailure Sample.earlyFailure) Sample.calm =
          (.error (.failed status), final) ∧
        final.impl.authority.isFenced Sample.switchA = false) ∧
      ∃ impl status final, World.Reaches {} impl ∧
        Declarable impl Sample.endlessFailure Sample.calm ∧
        callOn impl (declareFailure Sample.endlessFailure) Sample.calm =
          (.error (.failed status), final) ∧
        final.impl.authority.isFenced Sample.switchA = false := by
  constructor
  · have hrun : (run World.step (.down {}) (Sample.observed 32)).passes
        (Sample.refuses Sample.earlyFailure) = true := by
      decide +kernel
    obtain ⟨impl, hup, hrefuses⟩ := World.up_of_passes hrun
    obtain ⟨hdeclarable, status, final, hcall, hfenced⟩ := refused_of_refuses hrefuses
    exact ⟨impl, status, final, ⟨_, hup⟩, hdeclarable, hcall, hfenced⟩
  · have hrun : (run World.step (.down {}) (Sample.observed 0)).passes
        (Sample.refuses Sample.endlessFailure) = true := by
      decide +kernel
    obtain ⟨impl, hup, hrefuses⟩ := World.up_of_passes hrun
    obtain ⟨hdeclarable, status, final, hcall, hfenced⟩ := refused_of_refuses hrefuses
    exact ⟨impl, status, final, ⟨_, hup⟩, hdeclarable, hcall, hfenced⟩

end SwitchFailover.Runtime
