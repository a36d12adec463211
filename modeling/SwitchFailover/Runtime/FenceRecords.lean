import SwitchFailover.Runtime.Durability
import SwitchFailover.Runtime.PlanSafety

/-!
# Fences and their records

A declaration commits its fence in memory before it journals it, and a
declaration over a fenced generation journals nothing.  So after an append that
failed, a declaration that is made again answers that all is well and the fence
is gone after a restart.
-/

namespace SwitchFailover.Runtime

open SwitchFailover.Core Model Plan Persist Library.Effects Library.Transitions

variable {store : DurableStore} {kind : RecordKind} {payload : Bytes} {fates : Fate → Prop}
  {scope : Scope} {first last impl : Impl} {subject : SwitchKey} {env : Env}

/-- A completed record of the journal fences the generation. -/
def HoldsFence (disk : Disk) (key : SwitchKey) : Prop :=
  ∃ fence ∈ disk.completed.filterMap fenceIn, fence.subject = key

/-! ## Which records a call adds -/

theorem fenceIn_recordFor (hkind : kind ≠ .fenceCommitted) :
    fenceIn (store.recordFor kind payload) = none := by
  rw [fenceIn, contentOf_recordFor, if_neg hkind]

theorem appended_fences (impl : Impl) {fate : Fate} (hkind : kind ≠ .fenceCommitted) :
    (impl.appended store fate kind payload).disk.completed.filterMap fenceIn =
      impl.disk.completed.filterMap fenceIn := by
  change (store.append impl.disk fate kind payload).2.2.completed.filterMap fenceIn = _
  rcases completed_append store impl.disk fate kind payload with hsame | hadded
  · rw [hsame]
  · rw [hadded, List.filterMap_append, List.filterMap_cons_none (fenceIn_recordFor hkind),
      List.filterMap_nil, List.append_nil]

theorem Recordable.ne_fenceCommitted (hrecordable : Recordable kind payload) :
    kind ≠ .fenceCommitted := by
  rintro rfl
  exact hrecordable

/-- No routine change adds or removes the record of a fence. -/
theorem Routine.fenceRecords (hroutine : Routine fates scope first last) :
    last.disk.completed.filterMap fenceIn = first.disk.completed.filterMap fenceIn := by
  cases hroutine with
  | append store fate kind payload hstore hfate hrecord halive =>
    exact appended_fences first hrecord.ne_fenceCommitted
  | _ => rfl

theorem Routines.fenceRecords (hroutines : Routines fates scope first last) :
    last.disk.completed.filterMap fenceIn = first.disk.completed.filterMap fenceIn := by
  induction hroutines with
  | refl => rfl
  | tail _ hlast ih => exact hlast.fenceRecords.trans ih

theorem Fenced.unfenced {fence : FenceRecord} {authority : AuthorityRegistry}
    (hfenced : Fenced subject impl fence authority) : impl.authority.isFenced subject = false := by
  obtain ⟨record, id, rfl, hcommit⟩ := hfenced.commit
  obtain ⟨-, -, hunfenced, -⟩ := AuthorityRegistry.commitFence_eq_ok.mp hcommit
  exact hunfenced

/-- The fence part, when it answers, leaves the fence of its subject in the
journal if it was not fenced, or if its record was there before. -/
theorem FencePart.fences_iff {first : CallState} (hfence : FencePart subject first (.ok ()) last)
    (hstored : first.impl.store.isSome = true) :
    HoldsFence last.disk subject ↔
      first.impl.authority.isFenced subject = false ∨ HoldsFence first.impl.disk subject := by
  cases hfence with
  | deferred hfenced =>
    have hdisk : ((first.impl.swept subject).superseding subject).disk = first.impl.disk := rfl
    rw [hdisk]
    simp [hfenced]
  | committed fence authority hfenced hwritten =>
    obtain ⟨record, hrecord, hkind, hpayload⟩ := hwritten hstored
    refine iff_of_true ?_ (Or.inl hfenced.unfenced)
    exact ⟨fence, List.mem_filterMap.mpr
      ⟨record, hrecord, fenceIn_of_payload hkind hpayload hfenced.journalable⟩, hfenced.names⟩

theorem Declared.fences_iff {declaration : FailureDeclaration}
    (hdeclared : Declared scope declaration { impl, env } (.ok ()) last)
    (hstored : impl.store.isSome = true) :
    HoldsFence last.disk declaration.subject ↔ impl.authority.isFenced declaration.subject = false ∨
        HoldsFence impl.disk declaration.subject := by
  cases hdeclared with
  | fenced middle record outcome last hroutines hrecorded hfence =>
    have hframe := hroutines.sameFrame
    rw [hfence.fences_iff (hframe.stored.trans hstored), hframe.isFenced, HoldsFence,
      hroutines.fenceRecords]
    rfl

/-! ## What a later open restores -/

/-- A journal at rest is opened with the fences whose records it holds. -/
theorem openOver_isFenced_iff {disk : Disk} (hresting : disk.Resting) {config : CoordinatorConfig}
    {process : Process} {state : CallState} (hdurable : config.enableDurability = true)
    (hopen : openOver disk config process env = (.ok (), state)) (key : SwitchKey) :
    state.impl.authority.isFenced key = true ↔ HoldsFence disk key := by
  obtain ⟨hfences, -⟩ := (Opened.of_openOver hopen).lineage hdurable hresting
  rw [AuthorityRegistry.isFenced, hfences, ← Std.TreeMap.mem_iff_contains, mem_foldl_enterFence]
  simp [HoldsFence]

/-- In every run over a journal that starts empty, in which a failed append
leaves the file as it was: a declaration that answers leaves the record of its
fence in the journal, so that the next open restores it, exactly if the subject
was not fenced before the call or had its record then. -/
theorem declared_fence_journaled_iff {events : List Event}
    (horderly : ∀ event ∈ events, event.Orderly) {impl : Impl}
    (hrun : run World.step (.down {}) events = .up impl) (hstored : impl.store.isSome = true)
    {declaration : FailureDeclaration} {env : Env} (henv : env.Orderly)
    {outcome : FailoverOutcome} {state : CallState}
    (hdeclare : callOn impl (declareFailure declaration) env = (.ok outcome, state)) :
    (HoldsFence state.impl.disk declaration.subject ↔
        impl.authority.isFenced declaration.subject = false ∨
          HoldsFence impl.disk declaration.subject) ∧
      ∀ config process env' later, config.enableDurability = true →
        openOver state.impl.disk config process env' = (.ok (), later) →
        (later.impl.authority.isFenced declaration.subject = true ↔
          HoldsFence state.impl.disk declaration.subject) := by
  have hdeclared : Declared .nothing declaration { impl, env } (.ok ()) state.impl := by
    have hspec := declareFailure_spec .nothing declaration { impl, env }
    rw [After] at hspec
    rw [callOn] at hdeclare
    rw [hdeclare] at hspec
    exact hspec
  refine ⟨hdeclared.fences_iff hstored, ?_⟩
  intro config process env' later hdurable hopen
  have hkept := run_kept horderly
  rw [hrun] at hkept
  have hperformed : Performed impl env (.declareFailure declaration) (.ok ()) state.impl :=
    .declared declaration _ _ hdeclared
  exact openOver_isFenced_iff (hperformed.aligned henv hkept.1).1 hdurable hopen _

instance (disk : Disk) (key : SwitchKey) : Decidable (HoldsFence disk key) :=
  inferInstanceAs (Decidable (∃ fence ∈ disk.completed.filterMap fenceIn, _))

namespace Sample

/-- A durable coordinator over the small fabric. -/
def installed : List Event :=
  [.boot durable process calm, .call (.installTopology topology) calm,
    .call (.installCandidates candidates) calm]

theorem installed_orderly : ∀ event ∈ installed, event.Orderly := by
  have hcalm : calm.Orderly := fun _ => trivial
  simp [installed, Event.Orderly, hcalm]

end Sample

set_option maxRecDepth 4000 in
theorem declared_fence_journaled_iff_sample :
    ∃ impl outcome state, run World.step (.down {}) Sample.installed = .up impl ∧
      callOn impl (declareFailure (Sample.failureOf Sample.switchA)) Sample.calm =
        (.ok outcome, state) ∧
      HoldsFence state.impl.disk Sample.switchA := by
  have hrun : (run World.step (.down {}) Sample.installed).passes (fun impl =>
      impl.store.isSome && !impl.authority.isFenced Sample.switchA &&
        answers (fun _ _ => true)
          (callOn impl (declareFailure (Sample.failureOf Sample.switchA)) Sample.calm)) =
      true := by
    decide +kernel
  obtain ⟨impl, hup, htest⟩ := World.up_of_passes hrun
  simp only [Bool.and_eq_true, Bool.not_eq_true'] at htest
  obtain ⟨⟨hstored, hunfenced⟩, hanswers⟩ := htest
  obtain ⟨outcome, state, hdeclare, -⟩ := ok_of_answers hanswers
  have hcalm : Sample.calm.Orderly := fun _ => trivial
  have hjournaled := declared_fence_journaled_iff Sample.installed_orderly hup hstored hcalm
    hdeclare
  exact ⟨impl, outcome, state, hup, hdeclare, hjournaled.1.mpr (Or.inl hunfenced)⟩

set_option maxRecDepth 4000 in
/-- The append of the fence fails, the declaration is made again and answers, and
the next open does not know the fence. -/
theorem declared_again_not_journaled :
    ∃ impl outcome state later,
      run World.step (.down {}) (Sample.installed ++
        [.call (.declareFailure (Sample.failureOf Sample.switchA))
          (Sample.calmBut 1 (.fault 0))]) = .up impl ∧
      callOn impl (declareFailure (Sample.failureOf Sample.switchA)) Sample.calm =
        (.ok outcome, state) ∧
      ¬HoldsFence state.impl.disk Sample.switchA ∧
      openOver state.impl.disk Sample.durable Sample.process Sample.calm = (.ok (), later) ∧
      later.impl.authority.isFenced Sample.switchA = false := by
  have hrun : (run World.step (.down {}) (Sample.installed ++
      [.call (.declareFailure (Sample.failureOf Sample.switchA))
        (Sample.calmBut 1 (.fault 0))])).passes (fun impl =>
        answers (fun _ state => decide (¬HoldsFence state.impl.disk Sample.switchA) &&
          answers (fun _ later => !later.impl.authority.isFenced Sample.switchA)
            (openOver state.impl.disk Sample.durable Sample.process Sample.calm))
          (callOn impl (declareFailure (Sample.failureOf Sample.switchA)) Sample.calm)) =
      true := by
    decide +kernel
  obtain ⟨impl, hup, hanswers⟩ := World.up_of_passes hrun
  obtain ⟨outcome, state, hdeclare, htest⟩ := ok_of_answers hanswers
  rw [Bool.and_eq_true, decide_eq_true_eq] at htest
  obtain ⟨_, later, hopen, hunfenced⟩ := ok_of_answers htest.2
  rw [Bool.not_eq_true'] at hunfenced
  exact ⟨impl, outcome, state, later, hup, hdeclare, htest.1, hopen, hunfenced⟩

end SwitchFailover.Runtime
