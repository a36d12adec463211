import SwitchFailover.Runtime.Verification
import SwitchFailover.Runtime.AuthoritySafety
import SwitchFailover.Runtime.PlanCourses

/-!
# What a restore decision relies on

A restore decision looks at the entry of the dependent with the greatest
replacement and at any active grant of the dependent; the two need not belong
together.  They do in every run in which a plan is applied only for dependents
without an active grant and through replacements not below those recorded, and
no other call grants authority to a dependent with a recorded step.
-/

namespace SwitchFailover.Runtime

open SwitchFailover.Core Model Plan Persist Library.Effects Library.Transitions

variable {record : EvidenceRecord} {steps : ApplySteps} {request : ReconstructionPlan}

variable {dependent : DependentRef} {recorded : RecordedStep} {impl first last : Impl}
  {fates : Fate → Prop} {scope : Scope} {outcome : Except Stop Unit} {subject : SwitchKey}
  {id : GrantId} {grant : AuthorityGrant} {env : Env} {operation : Operation}

/-! ## The entry a decision looks at -/

/-- The entry of the dependent with the greatest replacement. -/
structure LastEntry (steps : ApplySteps) (dependent : DependentRef) (replacement : SwitchKey)
    (recorded : RecordedStep) : Prop where
  stored : steps[stepKey dependent replacement]? = some recorded
  greatest : ∀ other, stepKey dependent other ∈ steps → other ≤ replacement

theorem stepKey_inj {dependent' : DependentRef} {replacement replacement' : SwitchKey} :
    stepKey dependent replacement = stepKey dependent' replacement' ↔
      dependent = dependent' ∧ replacement = replacement' := by
  simp [stepKey]

theorem latestStep_eq_some (hlatest : impl.latestStep dependent = some recorded) :
    ∃ replacement, LastEntry impl.applySteps dependent replacement recorded := by
  rw [Impl.latestStep, Option.map_eq_some_iff] at hlatest
  obtain ⟨⟨key, step⟩, hlast, rfl⟩ := hlatest
  generalize hentries : impl.applySteps.toList.filter
    (fun entry => (ofLex entry.1).1 == dependent) = entries at hlast
  have hsplit : entries.dropLast ++ [(key, step)] = entries :=
    List.dropLast_append_getLast? (key, step) hlast
  have hmem : (key, step) ∈ entries := List.mem_of_getLast? hlast
  rw [← hentries, List.mem_filter, beq_iff_eq] at hmem
  obtain ⟨hlisted, hdependent⟩ := hmem
  have hkey : ∀ replacement, (ofLex key).2 = replacement → key = stepKey dependent replacement := by
    rintro replacement rfl
    rw [← hdependent]
    rfl
  have hstored : impl.applySteps[stepKey dependent (ofLex key).2]? = some step := by
    rw [← hkey _ rfl]
    exact Std.TreeMap.mem_toList_iff_getElem?_eq_some.mp hlisted
  refine ⟨(ofLex key).2, hstored, fun other hother => ?_⟩
  -- the entries of the dependent are in the order of their replacements
  have hordered : entries.Pairwise fun left right => left.1 < right.1 := by
    rw [← hentries]
    apply List.Pairwise.filter
    exact Std.TreeMap.ordered_keys_toList.imp fun hlt => compare_lt_iff_lt.mp hlt
  obtain ⟨step', hstep'⟩ := Option.isSome_iff_exists.mp
    (Std.TreeMap.mem_iff_isSome_getElem?.mp hother)
  have hentry : (stepKey dependent other, step') ∈ entries := by
    rw [← hentries, List.mem_filter]
    exact ⟨Std.TreeMap.mem_toList_iff_getElem?_eq_some.mpr hstep', beq_self_eq_true dependent⟩
  rw [← hsplit] at hordered hentry
  rcases List.mem_append.mp hentry with hbefore | hsame
  · have hlt : stepKey dependent other < key :=
      (List.pairwise_append.mp hordered).2.2 _ hbefore _ List.mem_cons_self
    rw [hkey _ rfl, stepKey, stepKey, Prod.Lex.toLex_lt_toLex] at hlt
    rcases hlt with hdependent | ⟨-, hreplacement⟩
    · exact absurd hdependent (lt_irrefl _)
    · exact le_of_lt hreplacement
  · have heq : stepKey dependent other = key :=
      congrArg Prod.fst (List.mem_singleton.mp hsame)
    rw [← heq]
    exact le_refl _

/-! ## The discipline -/

def Untouched (impl : Impl) (dependent : DependentRef) : Prop :=
  ∀ replacement, stepKey dependent replacement ∉ impl.applySteps

def Ungranted (impl : Impl) (dependent : DependentRef) : Prop :=
  ∀ id grant, impl.authority.ActiveUnder id grant → grant.dependent ≠ dependent

/-- No replacement recorded for the dependent is above the given one. -/
def Tops (impl : Impl) (dependent : DependentRef) (replacement : SwitchKey) : Prop :=
  ∀ other, stepKey dependent other ∈ impl.applySteps → other ≤ replacement

/-- Authority is granted outside an application only to dependents without a
recorded step.  A plan is applied that has one step for each of its dependents,
none of which holds a grant, through replacements not below those recorded. -/
def Disciplined : World → Event → Prop
  | .up impl, .call (.installTopology topology) _ =>
      ∀ dependent, declaredBy topology dependent → Untouched impl dependent
  | .up impl, .call (.establishAuthority dependent _ _) _ => Untouched impl dependent
  | .up impl, .call (.applyPlan request) _ =>
      ∀ plan, impl.plans[request.id]? = some plan →
        (plan.restores.map (·.dependent)).Nodup ∧
          ∀ step ∈ plan.restores, Ungranted impl step.dependent ∧
            Tops impl step.dependent step.replacement
  | _, _ => True

/-- The last entry of a dependent with an active grant is of the last application
for it, and the grant is the one it minted. -/
def Attested (impl : Impl) : Prop :=
  ∀ dependent replacement recorded id grant,
    LastEntry impl.applySteps dependent replacement recorded →
    impl.authority.ActiveUnder id grant → grant.dependent = dependent →
    impl.history.latest[dependent]? = some recorded.call ∧
      grant.attempt = recorded.result.attempt

theorem Attested.mono (hattested : Attested first) (hsteps : last.applySteps = first.applySteps)
    (hhistory : last.history = first.history)
    (hgrants : ∀ id grant, last.authority.ActiveUnder id grant →
      first.authority.ActiveUnder id grant) : Attested last := by
  intro dependent replacement recorded id grant hlast hactive hdependent
  rw [hsteps] at hlast
  rw [hhistory]
  exact hattested dependent replacement recorded id grant hlast (hgrants id grant hactive)
    hdependent

/-! ## Calls that apply no plan -/

theorem mem_verifySteps {plan : ReconstructionPlan} {key : DependentRef ×ₗ SwitchKey} :
    key ∈ (verifySteps record plan steps).1 ↔ key ∈ steps := by
  rw [Std.TreeMap.mem_iff_isSome_getElem?, Std.TreeMap.mem_iff_isSome_getElem?,
    verifySteps_getElem?]
  split
  · rw [Option.isSome_map]
  · rfl

/-- A verification leaves the call and the attempt of every entry. -/
theorem lastEntry_verifySteps {plan : ReconstructionPlan} {replacement : SwitchKey}
    (hlast : LastEntry (verifySteps record plan steps).1 dependent replacement recorded) :
    ∃ before, LastEntry steps dependent replacement before ∧ before.call = recorded.call ∧
      before.result.attempt = recorded.result.attempt := by
  have hgreatest : ∀ other, stepKey dependent other ∈ steps → other ≤ replacement :=
    fun other hother => hlast.greatest other (mem_verifySteps.mpr hother)
  have hstored := hlast.stored
  rw [verifySteps_getElem?] at hstored
  split at hstored
  · obtain ⟨before, hbefore, rfl⟩ := Option.map_eq_some_iff.mp hstored
    exact ⟨before, ⟨hbefore, hgreatest⟩, rfl, rfl⟩
  · exact ⟨recorded, ⟨hstored, hgreatest⟩, rfl, rfl⟩

/-- What a call that applies nothing keeps: besides the invariant, that the
dependents it may grant authority to have no recorded step. -/
structure AttestedWithin (scope : Scope) (impl : Impl) : Prop where
  attested : Attested impl
  untouched : ∀ dependent, scope.mints dependent → Untouched impl dependent

theorem Routine.attestedWithin (happlies : ¬scope.applies)
    (hroutine : Routine fates scope first last) (hwithin : AttestedWithin scope first) :
    AttestedWithin scope last := by
  cases hroutine with
  | mint dependent bound time detail id authority hscope hmint =>
    obtain ⟨-, -, rfl⟩ := AuthorityRegistry.grant_eq_ok.mp hmint
    refine ⟨?_, hwithin.untouched⟩
    intro owner replacement recorded id grant hlast hactive howner
    rcases AuthorityRegistry.activeUnder_enter hactive with hbefore | ⟨-, hnew, -⟩
    · exact hwithin.attested owner replacement recorded id grant hlast hbefore howner
    · have hsame : owner = dependent := by rw [← howner, hnew]; rfl
      have hnone := hwithin.untouched dependent hscope replacement
      rw [← hsame] at hnone
      exact absurd (Std.TreeMap.mem_iff_isSome_getElem?.mpr (by rw [hlast.stored]; rfl)) hnone
  | revoke dependent cause detail =>
    refine ⟨hwithin.attested.mono rfl rfl ?_, hwithin.untouched⟩
    intro id grant hactive
    exact (AuthorityRegistry.activeUnder_map (AuthorityRegistry.demotes_ite (by decide)) hactive).1
  | begin dependents hscope => exact absurd hscope happlies
  | record result plan hscope => exact absurd hscope happlies
  | verify record plan =>
    refine ⟨?_, ?_⟩
    · intro dependent replacement recorded id grant hlast hactive hdependent
      obtain ⟨before, hbefore, hcall, hattempt⟩ := lastEntry_verifySteps hlast
      rw [← hcall, ← hattempt]
      exact hwithin.attested dependent replacement before id grant hbefore hactive hdependent
    · intro dependent hmints replacement hmem
      exact hwithin.untouched dependent hmints replacement (mem_verifySteps.mp hmem)
  | _ => exact ⟨hwithin.attested.mono rfl rfl fun _ _ hactive => hactive, hwithin.untouched⟩

theorem Dies.attestedWithin (hdies : Dies fates first last) (hwithin : AttestedWithin scope first) :
    AttestedWithin scope last := by
  cases hdies with
  | append =>
    exact ⟨hwithin.attested.mono rfl rfl fun _ _ hactive => hactive, hwithin.untouched⟩

theorem Routines.Ending.attested (happlies : ¬scope.applies)
    (hending : Routines.Ending fates scope outcome first last)
    (hwithin : AttestedWithin scope first) : Attested last :=
  (hending.preserve (fun _ _ hroutine => hroutine.attestedWithin happlies)
    (fun _ _ hdies => hdies.attestedWithin) hwithin).attested

theorem swept_activeUnder (hactive : (impl.swept subject).authority.ActiveUnder id grant) :
    impl.authority.ActiveUnder id grant :=
  (AuthorityRegistry.activeUnder_map (AuthorityRegistry.demotes_sweep _) hactive).1

theorem Fenced.activeUnder {fence : FenceRecord} {authority : AuthorityRegistry}
    (hfenced : Fenced subject impl fence authority) (hactive : authority.ActiveUnder id grant) :
    impl.authority.ActiveUnder id grant := by
  obtain ⟨record, _, -, hcommit⟩ := hfenced.commit
  obtain ⟨-, -, -, -, -, rfl⟩ := AuthorityRegistry.commitFence_eq_ok.mp hcommit
  exact swept_activeUnder hactive

theorem Attested.journaled (hattested : Attested impl) (kind : RecordKind) (payload : Bytes) :
    Attested (impl.journaled kind payload) := by
  obtain ⟨_, _, hframe⟩ := impl.journaled_frame kind payload
  rw [hframe]
  exact hattested.mono rfl rfl fun _ _ hactive => hactive

theorem FencePart.attested {first : CallState} (hfence : FencePart subject first outcome last)
    (hattested : Attested first.impl) : Attested last := by
  cases hfence with
  | deferred hfenced => exact hattested.mono rfl rfl fun _ _ hactive => swept_activeUnder hactive
  | refused status hfenced =>
    exact hattested.mono rfl rfl fun _ _ hactive => swept_activeUnder hactive
  | unwritten fence authority store stop hfenced hstore houtcome =>
    exact hattested.mono rfl rfl fun _ _ hactive => hfenced.activeUnder hactive
  | committed fence authority hfenced hwritten =>
    have hgranted : Attested ({ first.impl with authority } : Impl) :=
      hattested.mono rfl rfl fun _ _ hactive => hfenced.activeUnder hactive
    exact (hgranted.journaled .fenceCommitted (encodeFenceRecord fence)).mono rfl rfl
      fun _ _ hactive => hactive

/-! ## Applying a plan -/

theorem begin_latest (history : ApplyHistory) (dependents : List DependentRef)
    (dependent : DependentRef) :
    (history.begin dependents).latest[dependent]? =
      if dependent ∈ dependents then some (history.calls + 1) else history.latest[dependent]? := by
  have hfold : ∀ (latest : Std.TreeMap DependentRef ℕ),
      (dependents.foldl (fun latest dependent => latest.insert dependent (history.calls + 1))
        latest)[dependent]? =
        if dependent ∈ dependents then some (history.calls + 1) else latest[dependent]? := by
    induction dependents with
    | nil => simp
    | cons first rest ih =>
      intro latest
      rw [List.foldl_cons, ih, Std.TreeMap.getElem?_insert]
      by_cases hrest : dependent ∈ rest
      · simp [hrest]
      · by_cases hfirst : dependent = first
        · simp [hfirst]
        · simp [hrest, hfirst, Ne.symm hfirst]
  exact hfold history.latest

/-- What the loop needs of a step that is still to come. -/
structure Ready (impl : Impl) (step : RestoreStep) : Prop where
  ungranted : Ungranted impl step.dependent
  tops : Tops impl step.dependent step.replacement
  begun : impl.history.latest[step.dependent]? = some impl.history.calls

section Recording

variable {middle : Impl} {step : RestoreStep} {result : ApplyStepResult} {plan : PlanId}
  {replacement : SwitchKey}

theorem Attempted.names (hattempted : Attempted impl step result middle) :
    result.dependent = step.dependent ∧ result.replacement = step.replacement := by
  cases hattempted with
  | refused => exact ⟨rfl, rfl⟩
  | minted => exact ⟨rfl, rfl⟩

theorem Attempted.kept (hattempted : Attempted impl step result middle) :
    middle.applySteps = impl.applySteps ∧ middle.history = impl.history := by
  cases hattempted with
  | refused => exact ⟨rfl, rfl⟩
  | minted => exact ⟨rfl, rfl⟩

/-- An active grant after an attempt was active before, or is the step's own. -/
theorem Attempted.activeUnder (hattempted : Attempted impl step result middle)
    (hactive : middle.authority.ActiveUnder id grant) :
    impl.authority.ActiveUnder id grant ∨
      (grant.dependent = step.dependent ∧ grant.attempt = result.attempt) := by
  cases hattempted with
  | refused => exact Or.inl hactive
  | minted time detail granted authority hmint =>
    obtain ⟨-, -, rfl⟩ := AuthorityRegistry.grant_eq_ok.mp hmint
    rcases AuthorityRegistry.activeUnder_enter hactive with hbefore | ⟨-, rfl, -⟩
    · exact Or.inl hbefore
    · exact Or.inr ⟨rfl, rfl⟩

theorem mem_recording :
    stepKey dependent replacement ∈ (middle.recording result plan).applySteps ↔
      (dependent = result.dependent ∧ replacement = result.replacement) ∨
        stepKey dependent replacement ∈ middle.applySteps := by
  rw [Impl.recording, Std.TreeMap.mem_insert, Std.LawfulEqCmp.compare_eq_iff_eq, eq_comm,
    stepKey_inj]

/-- For the dependent of a step that tops the recorded ones, the last entry is
the one just recorded. -/
theorem lastEntry_recording_self (htops : Tops middle result.dependent result.replacement)
    (hlast : LastEntry (middle.recording result plan).applySteps result.dependent replacement
      recorded) : recorded = ⟨result, plan, middle.history.calls⟩ := by
  have hlower : result.replacement ≤ replacement :=
    hlast.greatest _ (mem_recording.mpr (Or.inl ⟨rfl, rfl⟩))
  have hmem : stepKey result.dependent replacement ∈ (middle.recording result plan).applySteps :=
    Std.TreeMap.mem_iff_isSome_getElem?.mpr (by rw [hlast.stored]; rfl)
  have hsame : replacement = result.replacement := by
    rcases mem_recording.mp hmem with ⟨-, hnew⟩ | hold
    · exact hnew
    · exact le_antisymm (htops replacement hold) hlower
  have hstored := hlast.stored
  rw [hsame, Impl.recording, Std.TreeMap.getElem?_insert_self] at hstored
  exact (Option.some.inj hstored).symm

/-- The entries of other dependents stay. -/
theorem lastEntry_recording_other (hother : dependent ≠ result.dependent)
    (hlast : LastEntry (middle.recording result plan).applySteps dependent replacement recorded) :
    LastEntry middle.applySteps dependent replacement recorded := by
  refine ⟨?_, fun other hmem => hlast.greatest other (mem_recording.mpr (Or.inr hmem))⟩
  have hstored := hlast.stored
  rw [Impl.recording, Std.TreeMap.getElem?_insert, if_neg] at hstored
  · exact hstored
  · rw [Std.LawfulEqCmp.compare_eq_iff_eq, stepKey_inj]
    exact fun hsame => hother hsame.1.symm

theorem Attempted.attested (hattempted : Attempted impl step result middle)
    (hready : Ready impl step) (hattested : Attested impl) :
    Attested (middle.recording result plan) := by
  obtain ⟨hsteps, hhistory⟩ := hattempted.kept
  obtain ⟨hdependent, hreplacement⟩ := hattempted.names
  intro dependent replacement recorded id grant hlast hactive howner
  have hgrant := hattempted.activeUnder hactive
  by_cases hown : dependent = result.dependent
  · subst hown
    have htops : Tops middle result.dependent result.replacement := by
      rw [Tops, hsteps, hdependent, hreplacement]
      exact hready.tops
    have hrecorded := lastEntry_recording_self htops hlast
    rw [hrecorded]
    refine ⟨?_, ?_⟩
    · change middle.history.latest[result.dependent]? = some middle.history.calls
      rw [hhistory, hdependent]
      exact hready.begun
    · rcases hgrant with hbefore | ⟨-, hattempt⟩
      · exact absurd (howner.trans hdependent) (hready.ungranted id grant hbefore)
      · exact hattempt
  · have hbefore : impl.authority.ActiveUnder id grant := by
      rcases hgrant with hbefore | ⟨hstep, -⟩
      · exact hbefore
      · exact absurd (howner.symm.trans (hstep.trans hdependent.symm)) hown
    have hentry := lastEntry_recording_other hown hlast
    rw [hsteps] at hentry
    have hkept := hattested dependent replacement recorded id grant hentry hbefore howner
    refine ⟨?_, hkept.2⟩
    change middle.history.latest[dependent]? = _
    rw [hhistory]
    exact hkept.1

theorem Attempted.ready (hattempted : Attempted impl step result middle) {other : RestoreStep}
    (hother : other.dependent ≠ step.dependent) (hready : Ready impl other) :
    Ready (middle.recording result plan) other := by
  obtain ⟨hsteps, hhistory⟩ := hattempted.kept
  obtain ⟨hdependent, -⟩ := hattempted.names
  refine ⟨?_, ?_, ?_⟩
  · intro id grant hactive
    rcases hattempted.activeUnder hactive with hbefore | ⟨hstep, -⟩
    · exact hready.ungranted id grant hbefore
    · rw [hstep]
      exact Ne.symm hother
  · intro replacement hmem
    rcases mem_recording.mp hmem with ⟨hnew, -⟩ | hold
    · exact absurd (hnew.trans hdependent) hother
    · rw [hsteps] at hold
      exact hready.tops replacement hold
  · change middle.history.latest[other.dependent]? = some middle.history.calls
    rw [hhistory]
    exact hready.begun

end Recording

-- The induction is on the steps still to come; each of them stays ready because
-- its dependent differs from those that went before.
theorem Looped.attested {plan : PlanId} {steps : List RestoreStep}
    {results : List ApplyStepResult} (hlooped : Looped plan steps first results last)
    (hdistinct : (steps.map (·.dependent)).Nodup) (hready : ∀ step ∈ steps, Ready first step)
    (hattested : Attested first) : Attested last := by
  induction hlooped with
  | done impl => exact hattested
  | @step step steps impl middle last result results hattempted hrest ih =>
    rw [List.map_cons, List.nodup_cons] at hdistinct
    apply ih hdistinct.2
    · intro other hother
      have hdiffers : other.dependent ≠ step.dependent := by
        intro hsame
        rw [← hsame] at hdistinct
        exact hdistinct.1 (List.mem_map_of_mem hother)
      exact hattempted.ready hdiffers (hready other (List.mem_cons_of_mem _ hother))
    · exact hattempted.attested (hready step List.mem_cons_self) hattested

section Beginning

variable {plan : ReconstructionPlan}

theorem begun_kept (impl : Impl) (plan : ReconstructionPlan) :
    (impl.begun plan).applySteps = impl.applySteps ∧
      (impl.begun plan).history = impl.history.begin (plan.restores.map (·.dependent)) ∧
      (impl.begun plan).authority = impl.authority := by
  obtain ⟨_, _, hframe⟩ := impl.journaled_frame .planCommitted (plan.inState .applying).encode
  rw [Impl.begun, hframe]
  exact ⟨rfl, rfl, rfl⟩

theorem begun_ready (hsteps : ∀ step ∈ plan.restores, Ungranted impl step.dependent ∧
      Tops impl step.dependent step.replacement) :
    ∀ step ∈ plan.restores, Ready (impl.begun plan) step := by
  obtain ⟨hkept, hhistory, hauthority⟩ := begun_kept impl plan
  intro step hstep
  obtain ⟨hungranted, htops⟩ := hsteps step hstep
  refine ⟨?_, ?_, ?_⟩
  · rw [Ungranted, hauthority]
    exact hungranted
  · rw [Tops, hkept]
    exact htops
  · rw [hhistory, begin_latest, if_pos (List.mem_map_of_mem hstep)]
    rfl

/-- The dependents of a plan have no grant, so that a new application of it leaves
the grants of the others where they were. -/
theorem begun_attested (hsteps : ∀ step ∈ plan.restores, Ungranted impl step.dependent ∧
      Tops impl step.dependent step.replacement) (hattested : Attested impl) :
    Attested (impl.begun plan) := by
  obtain ⟨hkept, hhistory, hauthority⟩ := begun_kept impl plan
  intro dependent replacement recorded id grant hlast hactive howner
  rw [hkept] at hlast
  rw [hauthority] at hactive
  rw [hhistory, begin_latest, if_neg]
  · exact hattested dependent replacement recorded id grant hlast hactive howner
  · intro hmem
    obtain ⟨step, hstep, hsame⟩ := List.mem_map.mp hmem
    exact (hsteps step hstep).1 id grant hactive (howner.trans hsame.symm)

end Beginning

theorem Applied.attested {outcome : Except Stop ApplyReceipt}
    (happlied : Applied impl env request outcome last)
    (hdisciplined : Disciplined (.up impl) (.call (.applyPlan request) env))
    (hattested : Attested impl) : Attested last := by
  have hcarried : ∀ {plan results middle}, impl.Carries env request plan results middle →
      Attested middle := by
    intro plan results middle hcarries
    obtain ⟨hdistinct, hsteps⟩ := hdisciplined plan hcarries.retained
    exact hcarries.looped.attested hdistinct (begun_ready hsteps) (begun_attested hsteps hattested)
  cases happlied with
  | refused status => exact hattested
  | rejected plan status hplan hinvalid =>
    exact hattested.mono rfl rfl fun _ _ hactive => hactive
  | emptyUnwritten plan store stop hplan hbalks =>
    exact hattested.mono rfl rfl fun _ _ hactive => hactive
  | empty plan hplan htakes =>
    exact (hattested.journaled _ _).mono rfl rfl fun _ _ hactive => hactive
  | unannounced plan store stop hplan hbalks =>
    exact hattested.mono rfl rfl fun _ _ hactive => hactive
  | unreceipted plan results middle store stop hcarries hbalks =>
    exact (hcarried hcarries).mono rfl rfl fun _ _ hactive => hactive
  | unconcluded plan results middle store stop hcarries htakes hbalks =>
    exact ((hcarried hcarries).journaled _ _).mono rfl rfl fun _ _ hactive => hactive
  | concluded plan results middle hcarries hreceipt hplan =>
    exact (((hcarried hcarries).journaled _ _).journaled _ _).mono rfl rfl
      fun _ _ hactive => hactive

/-! ## Runs -/

theorem Operation.mints_untouched (hdisciplined : Disciplined (.up impl) (.call operation env))
    (hother : ∀ request, operation ≠ .applyPlan request) :
    ¬operation.extent.applies ∧
      ∀ dependent, operation.extent.mints dependent → Untouched impl dependent := by
  cases operation with
  | applyPlan request => exact absurd rfl (hother request)
  | installTopology topology => exact ⟨id, hdisciplined⟩
  | establishAuthority dependent bound detail =>
    refine ⟨id, ?_⟩
    rintro _ rfl
    exact hdisciplined
  | _ => exact ⟨id, fun _ => False.elim⟩

theorem Performed.attested (hperformed : Performed impl env operation outcome last)
    (hdisciplined : Disciplined (.up impl) (.call operation env))
    (hother : ∀ request, operation ≠ .applyPlan request) (hattested : Attested impl) :
    Attested last := by
  obtain ⟨happlies, huntouched⟩ := Operation.mints_untouched hdisciplined hother
  cases hperformed with
  | routine operation outcome last hroutines =>
    exact hroutines.attested happlies ⟨hattested, huntouched⟩
  | declared declaration outcome last hdeclared =>
    have hwithin : AttestedWithin .nothing impl := ⟨hattested, fun _ => False.elim⟩
    cases hdeclared with
    | stopped last stop hroutines => exact hroutines.attested id hwithin
    | fenced middle record outcome last hroutines hrecorded hfence =>
      have hmiddle : AttestedWithin .nothing middle.impl :=
        hroutines.preserve (fun _ _ hroutine => hroutine.attestedWithin id) hwithin
      exact hfence.attested hmiddle.attested

theorem run_attested {disk : Disk} {events : List Event}
    (hmeets : Meets World.step Disciplined (.down disk) events)
    (hrun : run World.step (.down disk) events = .up impl) : Attested impl := by
  refine running_of_meets Attested ?_ ?_ hmeets hrun
  · intro disk config process env last _ hopened dependent replacement recorded id grant _ hactive
    exact absurd hactive ((opened_dormant hopened).1.inactive id grant)
  · intro impl operation env hdisciplined hattested _
    by_cases happlies : ∃ request, operation = .applyPlan request
    · obtain ⟨request, rfl⟩ := happlies
      obtain ⟨outcome, happlied, -⟩ := callOn_applied impl env request
      exact happlied.attested hdisciplined hattested
    · refine (callOn_spec impl operation env).attested hdisciplined ?_ hattested
      intro request hsame
      exact happlies ⟨request, hsame⟩

/-- A decision that permits restoration found authority and a recorded step. -/
theorem evaluateRestore_mayRestore {time : TimestampNs} {decision : RestoreDecision}
    (hdecision : impl.evaluateRestore dependent time = .ok decision)
    (hmay : decision.mayRestore = true) :
    (impl.authority.query dependent time).hasAuthority = true ∧
      ∃ recorded, impl.latestStep dependent = some recorded := by
  simp only [Impl.evaluateRestore, result_bind_eq_ok, require_eq_ok, exists_const] at hdecision
  obtain ⟨-, hdecision⟩ := hdecision
  cases hdecision
  simp only [Impl.restoreVerdict] at hmay
  split at hmay
  · cases hmay
  split at hmay
  · cases hmay
  rename_i hauthority
  refine ⟨by simpa using hauthority, ?_⟩
  cases hlatest : impl.latestStep dependent with
  | none =>
    rw [hlatest] at hmay
    cases hmay
  | some recorded => exact ⟨recorded, rfl⟩

/-- In every disciplined run, a decision that permits restoration relies on a step
of the last application for the dependent, and the grant of that step is active. -/
theorem restore_relies_on_latest {disk : Disk} {events : List Event}
    (hmeets : Meets World.step Disciplined (.down disk) events) {impl : Impl}
    (hrun : run World.step (.down disk) events = .up impl) {dependent : DependentRef}
    {time : TimestampNs} {decision : RestoreDecision}
    (hdecision : impl.evaluateRestore dependent time = .ok decision)
    (hmay : decision.mayRestore = true) :
    ∃ recorded, impl.latestStep dependent = some recorded ∧
      impl.history.latest[dependent]? = some recorded.call ∧
      ∃ (id : GrantId) (grant : AuthorityGrant), impl.authority.grants[id]? = some grant ∧
        grant.dependent = dependent ∧ grant.attempt = recorded.result.attempt ∧
        grant.activeAt time = true := by
  have hsound := reaches_sound ⟨events, hrun⟩
  have hattested := run_attested hmeets hrun
  obtain ⟨hauthority, recorded, hlatest⟩ := evaluateRestore_mayRestore hdecision hmay
  obtain ⟨id, grant, hstored, howner, hactive⟩ :=
    (AuthorityRegistry.Sound.query_hasAuthority hsound dependent time).mp hauthority
  obtain ⟨replacement, hlast⟩ := latestStep_eq_some hlatest
  obtain ⟨hcall, hattempt⟩ := hattested dependent replacement recorded id grant hlast
    ⟨hstored, AuthorityRegistry.activeAt_state hactive⟩ howner
  exact ⟨recorded, hlatest, hcall, id, grant, hstored, howner, hattempt, hactive⟩

/-! ## Sample runs -/

namespace Sample

/-- The replacement over the third switch is the cheaper one. -/
def otherCandidates : CandidateTable :=
  (CandidateTable.build [replacement switchB 2, replacement switchC 1] {}
    (.insertion _)).toOption.getD .empty

/-- The path is restored over the third switch, and the effect is verified. -/
def restored : List Event :=
  [.boot {} process calm, .call (.installTopology topology) calm,
    .call (.installCandidates otherCandidates) calm,
    .call (.declareFailure (failureOf switchA)) calm,
    .call (.proposePlan (GenerationVector.empty.insert switchA)) calm,
    .call (.applyPlan firstPlan) calm,
    .call (.recordEffectVerification (effectOf ⟨1⟩ ⟨2⟩)) calm]

/-- Then that switch fails too, and the path is restored over the second one. -/
def restoredAgain : List Event :=
  restored ++ [.call (.declareFailure (failureOf switchC)) calm,
    .call (.proposePlan (GenerationVector.empty.insert switchA)) calm,
    .call (.applyPlan { id := ⟨2⟩ }) calm]

/-- Nothing has been applied, and the steps of a plan are for different dependents
without a grant. -/
def firstApplication (id : PlanId) (impl : Impl) : Bool :=
  impl.applySteps.isEmpty && impl.plans[id]?.all fun plan =>
    decide (plan.restores.map (·.dependent)).Nodup && plan.restores.all fun step =>
      impl.authority.grants.toList.all fun entry =>
        !(entry.2.state == .active && entry.2.dependent == step.dependent)

end Sample

/-- The operations under no discipline. -/
def Operation.isFree : Operation → Prop
  | .installTopology _ | .establishAuthority _ _ _ | .applyPlan _ => False
  | _ => True

theorem disciplined_of_isFree (hfree : operation.isFree) (world : World) (env : Env) :
    Disciplined world (.call operation env) := by
  cases operation with
  | installTopology topology => exact hfree.elim
  | establishAuthority dependent bound detail => exact hfree.elim
  | applyPlan request => exact hfree.elim
  | _ => cases world <;> trivial

theorem untouched_of_isEmpty (hempty : impl.applySteps.isEmpty = true) (dependent : DependentRef) :
    Untouched impl dependent :=
  fun _ hmem => absurd hmem (Std.TreeMap.not_mem_of_isEmpty hempty)

theorem disciplined_firstApplication {world : World}
    (hfirst : world.passes (Sample.firstApplication request.id) = true) (env : Env) :
    Disciplined world (.call (.applyPlan request) env) := by
  obtain ⟨impl, rfl, htest⟩ := World.up_of_passes hfirst
  intro plan hplan
  rw [Sample.firstApplication, hplan] at htest
  simp only [Option.all_some, Bool.and_eq_true, decide_eq_true_eq, List.all_eq_true] at htest
  obtain ⟨hempty, hdistinct, hgrants⟩ := htest
  refine ⟨hdistinct, fun step hstep => ⟨?_, ?_⟩⟩
  · intro id grant hactive howner
    have hgrant := hgrants step hstep (id, grant)
      (Std.TreeMap.mem_toList_iff_getElem?_eq_some.mpr hactive.1)
    simp [hactive.2, howner] at hgrant
  · intro other hother
    exact absurd hother (untouched_of_isEmpty hempty step.dependent other)

theorem restore_relies_on_latest_sample :
    ∃ impl decision recorded, run World.step (.down {}) Sample.restored = .up impl ∧
      impl.evaluateRestore Sample.path 1000 = .ok decision ∧ decision.mayRestore = true ∧
      impl.latestStep Sample.path = some recorded ∧
      impl.history.latest[Sample.path]? = some recorded.call := by
  have hrun : (run World.step (.down {}) Sample.restored).passes (fun impl =>
      (impl.evaluateRestore Sample.path 1000).toOption.any (·.mayRestore)) = true := by
    decide +kernel
  obtain ⟨impl, hup, htest⟩ := World.up_of_passes hrun
  rw [Option.any_eq_true] at htest
  obtain ⟨decision, hdecision, hmay⟩ := htest
  have hok := ok_of_toOption hdecision
  have hinstall : Disciplined
      (World.step (.down {}) (.boot {} Sample.process Sample.calm))
      (.call (.installTopology Sample.topology) Sample.calm) := by
    have hempty : (World.step (.down {}) (.boot {} Sample.process Sample.calm)).passes
        (fun impl => impl.applySteps.isEmpty) = true := by
      decide +kernel
    obtain ⟨fresh, hfresh, hnone⟩ := World.up_of_passes hempty
    rw [hfresh]
    exact fun dependent _ => untouched_of_isEmpty hnone dependent
  have hmeets : Meets World.step Disciplined (.down {}) Sample.restored := by
    refine And.intro trivial (And.intro hinstall (And.intro ?_ (And.intro ?_ (And.intro ?_
      (And.intro ?_ (And.intro ?_ trivial))))))
    · exact disciplined_of_isFree (by trivial) _ _
    · exact disciplined_of_isFree (by trivial) _ _
    · exact disciplined_of_isFree (by trivial) _ _
    · exact disciplined_firstApplication (by decide +kernel) _
    · exact disciplined_of_isFree (by trivial) _ _
  obtain ⟨recorded, hlatest, hcall, -⟩ := restore_relies_on_latest hmeets hup hok hmay
  exact ⟨impl, decision, recorded, hup, hok, hmay, hlatest, hcall⟩

/-- After the second restoration the decision still rests on the step of the
first, whose grant has been withdrawn. -/
theorem restore_relies_on_stale_step :
    ∃ impl decision recorded, run World.step (.down {}) Sample.restoredAgain = .up impl ∧
      impl.evaluateRestore Sample.path 1000 = .ok decision ∧ decision.mayRestore = true ∧
      impl.latestStep Sample.path = some recorded ∧
      impl.history.latest[Sample.path]? ≠ some recorded.call ∧
      ∀ (id : GrantId) (grant : AuthorityGrant), impl.authority.grants[id]? = some grant →
        grant.attempt = recorded.result.attempt → grant.activeAt 1000 = false := by
  have hrun : (run World.step (.down {}) Sample.restoredAgain).passes (fun impl =>
      (impl.evaluateRestore Sample.path 1000).toOption.any (·.mayRestore) &&
        (impl.latestStep Sample.path).any fun recorded =>
          decide (impl.history.latest[Sample.path]? ≠ some recorded.call) &&
            impl.authority.grants.toList.all fun entry =>
              !(entry.2.attempt == recorded.result.attempt && entry.2.activeAt 1000)) = true := by
    decide +kernel
  obtain ⟨impl, hup, htest⟩ := World.up_of_passes hrun
  rw [Bool.and_eq_true, Option.any_eq_true, Option.any_eq_true] at htest
  obtain ⟨⟨decision, hdecision, hmay⟩, recorded, hlatest, hstale⟩ := htest
  simp only [Bool.and_eq_true, decide_eq_true_eq, List.all_eq_true] at hstale
  refine ⟨impl, decision, recorded, hup, ok_of_toOption hdecision, hmay, hlatest,
    hstale.1, ?_⟩
  intro id grant hstored hattempt
  have hgrant := hstale.2 (id, grant) (Std.TreeMap.mem_toList_iff_getElem?_eq_some.mpr hstored)
  simpa [hattempt] using hgrant

end SwitchFailover.Runtime
