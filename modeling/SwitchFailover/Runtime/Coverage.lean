import SwitchFailover.Model.Exactness
import SwitchFailover.Runtime.AuthoritySafety

/-!
# What a declaration withdraws

A declaration lists the dependents of the failed generation and withdraws the
grants bound to that generation.  The two are computed apart from each other: a
dependent that reaches the failed generation through another dependent is listed,
and its grants are withdrawn only if they are bound to the generation themselves.
-/

namespace SwitchFailover.Runtime

open SwitchFailover.Core Model Plan Persist Library.Effects Library.Transitions

/-- Some grant of the dependent is active at the time. -/
def Empowered (impl : Impl) (dependent : DependentRef) (time : TimestampNs) : Prop :=
  ∃ (id : GrantId) (grant : AuthorityGrant), impl.authority.grants[id]? = some grant ∧
    grant.dependent = dependent ∧ grant.activeAt time = true

/-- The dependents a declaration lists. -/
def Impl.affected (impl : Impl) (subject : SwitchKey) : DependencyClosure :=
  impl.topology.closure (GenerationVector.empty.insert subject) impl.limits

/-- The grants at the end of the fence part are those the sweep has left. -/
theorem FencePart.grants {subject : SwitchKey} {first : CallState} {last : Impl}
    (hfence : FencePart subject first (.ok ()) last) :
    last.authority.grants = (first.impl.swept subject).authority.grants := by
  cases hfence with
  | deferred hfenced => rfl
  | committed fence authority hfenced hwritten =>
    change ((({ first.impl with authority } : Impl).journaled _ _).authority).grants = _
    rw [journaled_authority]
    obtain ⟨record, _, -, hcommit⟩ := hfenced.commit
    obtain ⟨-, -, -, -, -, rfl⟩ := AuthorityRegistry.commitFence_eq_ok.mp hcommit
    rfl

/-- Recording a failure changes neither the fabric nor the grants. -/
theorem Recorded.fabric {declaration : FailureDeclaration} {first middle : CallState}
    {record : FailureRecord} (hrecorded : Recorded declaration first middle record) :
    middle.impl.affected = first.impl.affected ∧
      ∀ subject, (middle.impl.swept subject).authority = (first.impl.swept subject).authority := by
  obtain ⟨_, _, _, -, himpl⟩ := hrecorded.impl
  obtain ⟨_, _, hframe⟩ := first.impl.journaled_frame .failureCommitted (encodeFailureRecord record)
  rw [himpl, hframe]
  exact ⟨rfl, fun _ => rfl⟩

theorem fencePart_returns {A : Type} (declaration : FailureDeclaration)
    (closure : DependencyClosure) (answer : FenceRecord × ℕ × Bool → A) (state : CallState) :
    After (do
      let fenced ← fenceSubject declaration closure
      supersedePlans declaration.subject
      return answer fenced) state fun outcome _ =>
        ∀ value, outcome = .ok value → ∃ fenced, value = answer fenced := by
  have hfenced : After (fenceSubject declaration closure) state fun _ _ => True := trivial
  apply hfenced.bind
  · rintro stop middle - _ ⟨⟩
  · rintro fenced middle -
    rw [supersedePlans, after_modifyImpl]
    rintro _ ⟨⟩
    exact ⟨fenced, rfl⟩

/-- An answered declaration lists the dependents of the fabric it was made in, and
leaves the grants the sweep has left. -/
theorem declareFailure_lists (declaration : FailureDeclaration) (impl : Impl) (env : Env) :
    After (declareFailure declaration) { impl, env } fun outcome final =>
      ∀ value, outcome = .ok value → declaration.subject.valid = true ∧
        value.closure = impl.affected declaration.subject ∧
        final.impl.authority.grants = (impl.swept declaration.subject).authority.grants := by
  rw [declareFailure]
  apply After.check
  · rintro status - _ ⟨⟩
  intro _ hvalid
  apply After.running
  · rintro status _ ⟨⟩
  intro _
  have hrecords : After (recordFailureLocked declaration) { impl, env } fun outcome final =>
      Within .everything (ending outcome) { impl, env } final ∧
        ∀ record, outcome = .ok record → Recorded declaration { impl, env } final record :=
    recordFailureLocked_spec declaration _
  apply hrecords.bind
  · rintro stop middle - _ ⟨⟩
  rintro record middle ⟨-, hrecorded⟩
  obtain ⟨haffected, hswept⟩ := (hrecorded record rfl).fabric
  rw [after_getImpl]
  have hlists : After (do
      let fenced ← fenceSubject declaration (middle.impl.affected declaration.subject)
      supersedePlans declaration.subject
      return failoverOutcome declaration record (middle.impl.affected declaration.subject) fenced)
      middle fun outcome final =>
        FencePart declaration.subject middle (ending outcome) final.impl ∧
          ∀ value, outcome = .ok value → ∃ fenced, value =
            failoverOutcome declaration record (middle.impl.affected declaration.subject) fenced :=
    ⟨fencePart_spec hvalid _ _ middle, fencePart_returns declaration _ _ middle⟩
  apply hlists.mono
  rintro outcome final ⟨hfence, hreturns⟩ value rfl
  obtain ⟨fenced, rfl⟩ := hreturns value rfl
  refine ⟨(FailureDeclaration.validate_eq_ok.mp hvalid).1, ?_, ?_⟩
  · rw [← haffected]
    rfl
  · rw [hfence.grants, hswept]

/-- After an answered declaration no listed dependent has an active grant exactly
if all active grants of the listed dependents were bound to the failed
generation. -/
theorem declared_failure_covers_iff {impl : Impl} {declaration : FailureDeclaration} {env : Env}
    {outcome : FailoverOutcome} {final : CallState}
    (hcall : callOn impl (declareFailure declaration) env = (.ok outcome, final))
    (time : TimestampNs) :
    (∀ dependent ∈ outcome.closure.dependents, ¬Empowered final.impl dependent time) ↔
      ∀ dependent ∈ (impl.affected declaration.subject).dependents,
        ∀ (id : GrantId) (grant : AuthorityGrant), impl.authority.grants[id]? = some grant →
          grant.dependent = dependent → grant.activeAt time = true →
          declaration.subject ∈ grant.bound.keys := by
  have hlists := declareFailure_lists declaration impl env
  rw [After, show execute (declareFailure declaration) { impl, env } = _ from hcall] at hlists
  obtain ⟨hvalid, hclosure, hgrants⟩ := hlists outcome rfl
  rw [hclosure]
  have hsurvives : ∀ (id : GrantId) (grant : AuthorityGrant), grant.activeAt time = true →
      (final.impl.authority.grants[id]? = some grant ↔
        impl.authority.grants[id]? = some grant ∧ declaration.subject ∉ grant.bound.keys) := by
    intro id grant hactive
    have hstate := AuthorityRegistry.activeAt_state hactive
    have hswept : (impl.swept declaration.subject).authority.ActiveUnder id grant ↔ _ :=
      activeUnder_swept hvalid
    rw [AuthorityRegistry.ActiveUnder, AuthorityRegistry.ActiveUnder] at hswept
    rw [hgrants]
    simpa [hstate] using hswept
  constructor
  · intro hcovered dependent hlisted id grant hstored howner hactive
    by_contra hunbound
    exact hcovered dependent hlisted
      ⟨id, grant, (hsurvives id grant hactive).mpr ⟨hstored, hunbound⟩, howner, hactive⟩
  · rintro hbound dependent hlisted ⟨id, grant, hstored, howner, hactive⟩
    obtain ⟨hbefore, hunbound⟩ := (hsurvives id grant hactive).mp hstored
    exact hunbound (hbound dependent hlisted id grant hbefore howner hactive)

/-! ## Sample runs -/

namespace Sample

/-- A coordinator that has just installed a topology. -/
def running (topology : TopologySnapshot) : List Event :=
  [.boot {} process calm, .call (.installTopology topology) calm]

/-- The grants of the dependents listed for a generation are bound to it. -/
def bindsListed (subject : SwitchKey) (impl : Impl) : Bool :=
  impl.authority.grants.toList.all fun entry =>
    !(impl.affected subject).dependents.contains entry.2.dependent ||
      entry.2.bound.keys.contains subject

end Sample

/-- The path over the failed switch is listed and loses its grant. -/
theorem declared_failure_covers_iff_sample :
    ∃ impl outcome final, run World.step (.down {}) (Sample.running Sample.topology) = .up impl ∧
      callOn impl (declareFailure (Sample.failureOf Sample.switchA)) Sample.calm =
        (.ok outcome, final) ∧ outcome.deferred = false ∧ outcome.closure.state = .complete ∧
      Sample.path ∈ outcome.closure.dependents ∧ Empowered impl Sample.path 1000 ∧
      ¬Empowered final.impl Sample.path 1000 := by
  have hrun : (run World.step (.down {}) (Sample.running Sample.topology)).passes (fun impl =>
      Sample.bindsListed Sample.switchA impl &&
        (impl.authority.grants[(⟨1⟩ : GrantId)]?.any fun grant =>
          grant.dependent == Sample.path && grant.activeAt 1000) &&
        answers (fun outcome _ => !outcome.deferred && outcome.closure.state == .complete &&
            outcome.closure.dependents.contains Sample.path)
          (callOn impl (declareFailure (Sample.failureOf Sample.switchA)) Sample.calm)) = true := by
    decide +kernel
  obtain ⟨impl, hup, htest⟩ := World.up_of_passes hrun
  rw [Bool.and_eq_true, Bool.and_eq_true, Option.any_eq_true] at htest
  obtain ⟨⟨hbinds, grant, hstored, hgrant⟩, hanswers⟩ := htest
  obtain ⟨outcome, final, hcall, houtcome⟩ := ok_of_answers hanswers
  simp only [Bool.and_eq_true, Bool.not_eq_true', beq_iff_eq, List.contains_iff_mem]
    at houtcome hgrant
  refine ⟨impl, outcome, final, hup, hcall, houtcome.1.1, houtcome.1.2, houtcome.2,
    ⟨⟨1⟩, grant, hstored, hgrant.1, hgrant.2⟩, ?_⟩
  refine (declared_failure_covers_iff hcall 1000).mpr ?_ Sample.path houtcome.2
  intro dependent hlisted id other hother howner _
  change dependent ∈ (impl.affected Sample.switchA).dependents at hlisted
  change Sample.switchA ∈ other.bound.keys
  have hentry := List.all_eq_true.mp hbinds (id, other)
    (Std.TreeMap.mem_toList_iff_getElem?_eq_some.mpr hother)
  simpa [howner, hlisted] using hentry

/-- A path over a link of the failed switch is listed and keeps its grant, which
is bound to its only hop, the other end of the link. -/
theorem declared_failure_uncovered :
    ∃ impl outcome final,
      run World.step (.down {}) (Sample.running TopologySnapshot.Sample.riding) = .up impl ∧
      callOn impl (declareFailure (Sample.failureOf Sample.switchA)) Sample.calm =
        (.ok outcome, final) ∧ outcome.deferred = false ∧ outcome.closure.state = .complete ∧
      Sample.path ∈ outcome.closure.dependents ∧ Empowered final.impl Sample.path 1000 := by
  have hrun : (run World.step (.down {})
      (Sample.running TopologySnapshot.Sample.riding)).passes (fun impl =>
        answers (fun outcome final => !outcome.deferred && outcome.closure.state == .complete &&
            outcome.closure.dependents.contains Sample.path &&
            final.impl.authority.grants[(⟨1⟩ : GrantId)]?.any fun grant =>
              grant.dependent == Sample.path && grant.activeAt 1000)
          (callOn impl (declareFailure (Sample.failureOf Sample.switchA)) Sample.calm)) = true := by
    decide +kernel
  obtain ⟨impl, hup, hanswers⟩ := World.up_of_passes hrun
  obtain ⟨outcome, final, hcall, htest⟩ := ok_of_answers hanswers
  simp only [Bool.and_eq_true, Bool.not_eq_true', beq_iff_eq, List.contains_iff_mem,
    Option.any_eq_true] at htest
  obtain ⟨⟨⟨hfresh, hcomplete⟩, hlisted⟩, grant, hstored, howner, hactive⟩ := htest
  exact ⟨impl, outcome, final, hup, hcall, hfresh, hcomplete, hlisted, ⟨1⟩, grant, hstored,
    howner, hactive⟩

end SwitchFailover.Runtime
