import SwitchFailover.Library.Maps
import SwitchFailover.Model.Representation
import SwitchFailover.Runtime.Declaration

/-!
# Declaring a failure again

Where a generation is fenced, no active grant is bound to it.  So the sweep of another
declaration finds nothing to withdraw, and the declaration answers with the fence that
is there.
-/

namespace SwitchFailover.Runtime

open SwitchFailover.Core Model Plan Persist Library.Effects Library.Transitions Library.Maps

variable {record : FenceRecord} {key : SwitchKey} {declaration : FailureDeclaration}

variable {registry next : AuthorityRegistry} {subject : SwitchKey} {impl last : Impl}
  {fence : FenceRecord} {env : Env} {disk : Disk} {outcome : Except Stop Unit}

/-! ## Fences under their subjects -/

/-- Every fence is stored under the generation it is about. -/
def Labelled (registry : AuthorityRegistry) : Prop :=
  ∀ (key : SwitchKey) (fence : FenceRecord), registry.fences[key]? = some fence →
    fence.subject = key

theorem labelled_initial (limits : Limits) : Labelled { limits } := by
  intro key fence hfence
  simp at hfence

theorem Labelled.insert (hlabelled : Labelled registry) (hsubject : record.subject = subject)
    (hfences : next.fences = registry.fences.insert subject record) : Labelled next := by
  intro key fence hfence
  rw [hfences, Std.TreeMap.getElem?_insert] at hfence
  split at hfence
  · rename_i hsame
    cases hfence
    exact hsubject.trans (Std.LawfulEqOrd.eq_of_compare hsame)
  · exact hlabelled key fence hfence

theorem Labelled.congr (hlabelled : Labelled registry) (hfences : next.fences = registry.fences) :
    Labelled next := by
  rw [Labelled, hfences]
  exact hlabelled

theorem Labelled.commitFence (hlabelled : Labelled registry) {id : FenceId}
    (hcommit : registry.commitFence record = .ok (id, next)) : Labelled next := by
  obtain ⟨-, -, -, -, -, hnext⟩ := AuthorityRegistry.commitFence_eq_ok.mp hcommit
  refine hlabelled.insert ?_ (congrArg AuthorityRegistry.fences hnext)
  rfl

theorem replayAll_labelled (limits : Limits) (records : List Record) :
    Labelled (Lineage.replayAll limits records).authority := by
  have hreplay : ∀ (records : List Record) (lineage : Lineage), Labelled lineage.authority →
      Labelled (records.foldl (Lineage.replayRecord limits) lineage).authority := by
    intro records
    induction records with
    | nil => exact fun _ hlabelled => hlabelled
    | cons record records ih =>
      intro lineage hlabelled
      rw [List.foldl_cons]
      apply ih
      rcases replayRecord_authority limits lineage record with
        hsame | ⟨fence, hfence⟩ | ⟨grant, hgrant⟩
      · exact hlabelled.congr (congrArg AuthorityRegistry.fences hsame)
      · obtain ⟨-, hnext⟩ := AuthorityRegistry.restoreFence_eq_ok.mp hfence
        rw [hnext]
        exact hlabelled.insert rfl rfl
      · obtain ⟨-, hnext⟩ := AuthorityRegistry.restoreGrant_eq_ok.mp hgrant
        rw [hnext]
        exact hlabelled.congr rfl
  exact hreplay records _ (labelled_initial limits)

theorem Opened.labelled {config : CoordinatorConfig} {process : Process} {env : Env} {disk : Disk}
    (hopened : Opened config process env disk (.ok ()) impl) : Labelled impl.authority := by
  cases hopened with
  | started hlimits hdurable => exact labelled_initial config.limits
  | restored store trimmed opening outcome last hlimits hdurable hopen hannounced =>
    obtain ⟨_, _, rfl⟩ := hannounced.frame
    refine (replayAll_labelled config.limits opening.records).congr ?_
    change ((Lineage.replayAll config.limits opening.records).invalidated config.policy).fences = _
    rw [Lineage.invalidated]
    split <;> rfl

theorem Fenced.labelled {authority : AuthorityRegistry}
    (hfenced : Fenced subject impl fence authority) (hlabelled : Labelled impl.authority) :
    Labelled authority := by
  obtain ⟨record, id, -, hcommit⟩ := hfenced.commit
  have hswept : Labelled (impl.swept subject).authority := hlabelled.congr rfl
  exact hswept.commitFence hcommit

theorem FencePart.labelled {first : CallState} {outcome : Except Stop Unit} {last : Impl}
    (hfence : FencePart subject first outcome last) (hlabelled : Labelled first.impl.authority) :
    Labelled last.authority := by
  cases hfence with
  | deferred hfenced => exact hlabelled.congr rfl
  | refused status hfenced => exact hlabelled.congr rfl
  | unwritten fence authority store stop hfenced hstore houtcome => exact hfenced.labelled hlabelled
  | committed fence authority hfenced hwritten =>
    change Labelled ((({ first.impl with authority } : Impl).journaled _ _).authority)
    rw [journaled_authority]
    exact hfenced.labelled hlabelled

theorem Performed.labelled {operation : Operation}
    (hperformed : Performed impl env operation outcome last)
    (hlabelled : Labelled impl.authority) : Labelled last.authority :=
  hperformed.preserve (fun impl => Labelled impl.authority)
    (fun hroutine hlabelled => hlabelled.congr hroutine.sameFrame.fences)
    (fun hdies hlabelled => hlabelled.congr hdies.sameFrame.fences) FencePart.labelled hlabelled

theorem reaches_labelled (hreaches : World.Reaches disk impl) : Labelled impl.authority :=
  hreaches.preserve (fun impl => Labelled impl.authority) Opened.labelled Performed.labelled

/-- The search by subject finds the fence that is stored under it. -/
theorem find?_fences (hlabelled : Labelled registry) (hfence : registry.fences[key]? = some fence) :
    registry.fences.values.find? (·.subject == key) = some fence := by
  cases hfound : registry.fences.values.find? (·.subject == key) with
  | none =>
    have hmissed := List.find?_eq_none.mp hfound fence (mem_values.mpr ⟨key, hfence⟩)
    exact absurd (beq_iff_eq.mpr (hlabelled key fence hfence)) hmissed
  | some found =>
    obtain ⟨other, hother⟩ := mem_values.mp (List.mem_of_find?_eq_some hfound)
    have hsubject := List.find?_some hfound
    rw [beq_iff_eq] at hsubject
    have hkey : other = key := (hlabelled other found hother).symm.trans hsubject
    rw [hkey, hfence] at hother
    exact hother.symm

/-! ## The sweep -/

/-- A sweep for a generation that is fenced withdraws nothing. -/
theorem fenceGenerations_of_fenced (hsound : registry.Sound) (hvalid : key.valid = true)
    (hfenced : registry.isFenced key = true) :
    (registry.fenceGenerations (GenerationVector.empty.insert key)).1 = 0 ∧
      ∀ id : GrantId, (registry.fenceGenerations
        (GenerationVector.empty.insert key)).2.grants[id]? = registry.grants[id]? := by
  have huntouched : ∀ (id : GrantId) grant, registry.grants[id]? = some grant →
      AuthorityRegistry.boundToAny (GenerationVector.empty.insert key) grant = false := by
    intro id grant hgrant
    rw [AuthorityRegistry.boundToAny, Bool.and_eq_false_imp]
    intro hactive
    rw [Bool.eq_false_iff, ne_eq, GenerationVector.intersects_iff]
    rintro ⟨other, hbound, hmem⟩
    have hsame : other = key := by
      simpa [GenerationVector.mem_insert, GenerationVector.empty, hvalid] using hmem
    have hunfenced := hsound.unfenced id grant ⟨hgrant, beq_iff_eq.mp hactive⟩ other hbound
    rw [hsame, hfenced] at hunfenced
    cases hunfenced
  constructor
  · change registry.grants.values.countP _ = 0
    rw [List.countP_eq_zero]
    intro grant hgrant
    obtain ⟨id, hid⟩ := mem_values.mp hgrant
    rw [huntouched id grant hid]
    exact Bool.false_ne_true
  · intro id
    change (registry.grants.map _)[id]? = _
    rw [Std.TreeMap.getElem?_map]
    cases hgrant : registry.grants[id]? with
    | none => rfl
    | some grant =>
      rw [Option.map_some, huntouched id grant hgrant]
      rfl

/-! ## The call -/

/-- What a declaration over a fenced generation answers and leaves behind. -/
structure Deferred (existing : FenceRecord) (before after : AuthorityRegistry)
    (outcome : FailoverOutcome) : Prop where
  deferred : outcome.deferred = true
  fence : outcome.fence = existing.id
  scope : outcome.fenceScope = existing.scopeState
  swept : outcome.grantsFenced = 0
  fences : after.fences = before.fences
  grants : ∀ id : GrantId, after.grants[id]? = before.grants[id]?

theorem fencePart_deferred (record : FailureRecord) (closure : DependencyClosure)
    {state : CallState} (hsound : state.impl.authority.Sound)
    (hlabelled : Labelled state.impl.authority) (hvalid : declaration.subject.valid = true)
    (hfence : state.impl.authority.fences[declaration.subject]? = some fence) :
    After (do
      let fenced ← fenceSubject declaration closure
      supersedePlans declaration.subject
      return failoverOutcome declaration record closure fenced) state fun outcome final =>
        ∀ value, outcome = .ok value →
          Deferred fence state.impl.authority final.impl.authority value := by
  have hfenced : state.impl.authority.isFenced declaration.subject = true := by
    rw [AuthorityRegistry.isFenced, Std.TreeMap.contains_eq_isSome_getElem?, hfence]
    rfl
  obtain ⟨hcount, hgrants⟩ := fenceGenerations_of_fenced hsound hvalid hfenced
  have hfound := find?_fences hlabelled hfence
  rw [fenceSubject, bind_assoc, after_sweepSubject, bind_assoc, after_getImpl]
  split
  · rw [pure_bind, supersedePlans, after_modifyImpl]
    rintro value hok
    cases hok
    have hexisting : (List.find? (fun candidate : FenceRecord =>
        candidate.subject == declaration.subject)
        (state.impl.swept declaration.subject).authority.fences.values).getD {} = fence :=
      congrArg (fun found : Option FenceRecord => found.getD {}) hfound
    exact ⟨rfl, congrArg FenceRecord.id hexisting, congrArg FenceRecord.scopeState hexisting,
      hcount, rfl, hgrants⟩
  · rename_i hunfenced
    exact absurd hfenced hunfenced

theorem declareFailure_deferred (hsound : impl.authority.Sound)
    (hlabelled : Labelled impl.authority)
    (hfence : impl.authority.fences[declaration.subject]? = some fence) (env : Env) :
    After (declareFailure declaration) { impl, env } fun outcome final =>
      ∀ value, outcome = .ok value → Deferred fence impl.authority final.impl.authority value := by
  rw [declareFailure]
  apply After.check
  · intro status _ value hok
    cases hok
  intro _ hvalid
  apply After.running
  · intro status value hok
    cases hok
  intro _
  have hrecorded : After (recordFailureLocked declaration) { impl, env } fun outcome final =>
      Within .nothing (ending outcome) { impl, env } final ∧
        ∀ record, outcome = .ok record → Recorded declaration { impl, env } final record :=
    recordFailureLocked_spec declaration _
  apply hrecorded.bind
  · intro stop middle _ value hok
    cases hok
  intro record middle hknown
  -- recording the failure has not touched the registry
  have hauthority : middle.impl.authority = impl.authority := (hknown.2 record rfl).authority
  rw [after_getImpl, ← hauthority]
  apply fencePart_deferred record
  · rw [hauthority]
    exact hsound
  · rw [hauthority]
    exact hlabelled
  · exact (FailureDeclaration.validate_eq_ok.mp hvalid).1
  · rw [hauthority]
    exact hfence

/-- Declaring the failure of a fenced generation again, in any reachable coordinator, answers
with the fence that is there and changes neither the fences nor a grant. -/
theorem redeclaration_idempotent {disk : Disk} {impl : Impl} (hreaches : World.Reaches disk impl)
    {declaration : FailureDeclaration} {fence : FenceRecord}
    (hfence : impl.authority.fences[declaration.subject]? = some fence) {env : Env}
    {outcome : FailoverOutcome} {state : CallState}
    (hdeclare : callOn impl (declareFailure declaration) env = (.ok outcome, state)) :
    outcome.deferred = true ∧ outcome.fence = fence.id ∧
      outcome.fenceScope = fence.scopeState ∧ outcome.grantsFenced = 0 ∧
      state.impl.authority.fences = impl.authority.fences ∧
      ∀ id : GrantId, state.impl.authority.grants[id]? = impl.authority.grants[id]? := by
  have hspec := declareFailure_deferred (reaches_sound hreaches) (reaches_labelled hreaches)
    hfence env
  rw [After] at hspec
  rw [callOn] at hdeclare
  rw [hdeclare] at hspec
  have hdeferred := hspec outcome rfl
  exact ⟨hdeferred.deferred, hdeferred.fence, hdeferred.scope, hdeferred.swept, hdeferred.fences,
    hdeferred.grants⟩

/-- The failed switch of the small fabric is declared failed once more. -/
theorem redeclaration_idempotent_sample :
    ∃ impl fence outcome state, World.Reaches {} impl ∧
      impl.authority.fences[Sample.switchA]? = some fence ∧
      callOn impl (declareFailure (Sample.failureOf Sample.switchA)) Sample.calm =
        (.ok outcome, state) ∧
      outcome.deferred = true ∧ outcome.fence = fence.id := by
  have hrun : (run World.step (.down {}) (Sample.planned {})).passes (fun impl =>
      impl.authority.isFenced Sample.switchA && answers (fun _ _ => true)
        (callOn impl (declareFailure (Sample.failureOf Sample.switchA)) Sample.calm)) = true := by
    decide +kernel
  obtain ⟨impl, hup, htest⟩ := World.up_of_passes hrun
  rw [Bool.and_eq_true] at htest
  obtain ⟨outcome, state, hdeclare, -⟩ := ok_of_answers htest.2
  have hfenced := htest.1
  rw [AuthorityRegistry.isFenced, Std.TreeMap.contains_eq_isSome_getElem?,
    Option.isSome_iff_exists] at hfenced
  obtain ⟨fence, hfence⟩ := hfenced
  have hreaches : World.Reaches {} impl := ⟨_, hup⟩
  have hdeferred := redeclaration_idempotent hreaches hfence hdeclare
  exact ⟨impl, fence, outcome, state, hreaches, hfence, hdeclare, hdeferred.1, hdeferred.2.1⟩

end SwitchFailover.Runtime
