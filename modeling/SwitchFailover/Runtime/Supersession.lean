import SwitchFailover.Runtime.PlanSafety

/-!
# Superseded plans

The state of a plan is not consulted when it is applied: a superseded plan is
kept from being applied by the validator alone, which refuses a plan of another
incarnation and one that crosses a fence.  A plan that covers the generation of
a declaration without crossing it is superseded although the validator has
nothing against it.
-/

namespace SwitchFailover.Runtime

open SwitchFailover.Core Model Plan Persist Library.Effects Library.Transitions

variable {scope : Scope} {subject : SwitchKey} {env : Env} {operation : Operation}

variable {impl first last : Impl} {plan : ReconstructionPlan} {fates : Fate → Prop}
  {outcome : Except Stop Unit}

/-- A restore step of the plan crosses a fenced generation. -/
def CrossesFence (impl : Impl) (plan : ReconstructionPlan) : Prop :=
  ∃ step ∈ plan.restores, ∃ hop ∈ step.hops, impl.authority.isFenced hop = true

/-- Something other than its state keeps the plan from being applied: it is of
another incarnation, it crosses a fence, or it has steps without being proven
feasible. -/
def Inert (impl : Impl) (plan : ReconstructionPlan) : Prop :=
  plan.boot ≠ impl.boot ∨ CrossesFence impl plan ∨
    (plan.restores ≠ [] ∧ plan.feasibility ≠ .provenFeasible)

/-- No superseded plan can be applied. -/
def Impl.SupersededInert (impl : Impl) : Prop :=
  ∀ (id : PlanId) (plan : ReconstructionPlan), impl.plans[id]? = some plan →
    plan.state = .superseded → Inert impl plan

/-- Every plan that covers the generation and could still be applied crosses it;
a restart finds no superseded plan in the journal. -/
def Decisive : World → Event → Prop
  | .down disk, .boot config _ _ => config.enableDurability = true →
      ∀ store trimmed opening,
        DurableStore.open config.limits disk = .ok (store, trimmed, opening) →
        ∀ (id : PlanId) (plan : ReconstructionPlan),
          (standingPlans config.limits opening.records)[id]? = some plan →
          plan.state ≠ .superseded
  | .up impl, .call (.declareFailure declaration) _ =>
      ∀ (id : PlanId) (plan : ReconstructionPlan), impl.plans[id]? = some plan →
        plan.state ≠ .superseded → plan.state ≠ .failed →
        (∃ step ∈ plan.restores, step.coversFailed = declaration.subject) →
        Inert impl plan ∨ ∃ step ∈ plan.restores, declaration.subject ∈ step.hops
  | _, _ => True

/-! ## Applying an inert plan -/

theorem not_valid_of_inert (hinert : Inert impl plan) {time : TimestampNs}
    (hvalid : (validatePlan plan (impl.makeInputs plan.id time)).valid = true) :
    plan.restores ≠ [] ∧ plan.feasibility ≠ .provenFeasible := by
  rcases hinert with hboot | ⟨step, hstep, hop, hhop, hfenced⟩ | hunproven
  · exact absurd (boot_of_valid hvalid) hboot
  · have hclear : Clear impl plan := clear_of_valid hvalid
    rw [hclear step hstep hop hhop] at hfenced
    cases hfenced
  · exact hunproven

/-- A valid plan with steps is not one that restores nothing. -/
theorem feasibility_of_valid {inputs : PlanInputs}
    (hvalid : (validatePlan plan inputs).valid = true) (hrestores : plan.restores ≠ []) :
    plan.feasibility ≠ .nothingToRestore := by
  intro hnothing
  have hpassed := head_of_valid hvalid (List.mem_of_getLast? (l := headChecks plan inputs) rfl)
  simp [hnothing, hrestores] at hpassed

/-- Applying an inert plan is refused and grants nothing. -/
theorem applyPlan_inert {request : ReconstructionPlan} {state : CallState}
    (hplan : state.impl.plans[request.id]? = some plan) (hinert : Inert state.impl plan) :
    After (applyPlan request) state fun outcome final =>
      (∃ stop, outcome = .error stop) ∧ final.impl.authority = state.impl.authority := by
  rw [applyPlan]
  apply After.running
  · intro status
    exact ⟨⟨_, rfl⟩, rfl⟩
  intro _
  apply After.withTopology
  · intro status
    exact ⟨⟨_, rfl⟩, rfl⟩
  intro _
  rw [after_getImpl, hplan]
  dsimp only
  rw [after_now]
  split
  · rename_i hvalid
    obtain ⟨hrestores, hunproven⟩ := not_valid_of_inert hinert hvalid
    apply After.check
    · intro status _
      exact ⟨⟨_, rfl⟩, rfl⟩
    intro _ _
    rw [if_neg (feasibility_of_valid hvalid hrestores)]
    apply After.check
    · intro status _
      exact ⟨⟨_, rfl⟩, rfl⟩
    intro _ hproven
    simp [hunproven] at hproven
  · rw [retainPlan, after_modifyImpl]
    exact ⟨⟨_, rfl⟩, rfl⟩

/-! ## Calls -/

/-- Fences are never lifted and the incarnation stays. -/
theorem Inert.mono (hinert : Inert first plan) (hboot : last.boot = first.boot)
    (hfences : ∀ key, first.authority.isFenced key = true → last.authority.isFenced key = true) :
    Inert last plan := by
  rcases hinert with hother | ⟨step, hstep, hop, hhop, hfenced⟩ | hunproven
  · exact Or.inl (hboot ▸ hother)
  · exact Or.inr (Or.inl ⟨step, hstep, hop, hhop, hfences hop hfenced⟩)
  · exact Or.inr (Or.inr hunproven)

theorem SameFrame.inert (hframe : SameFrame first last) (hinert : Inert first plan) :
    Inert last plan := by
  apply hinert.mono hframe.boot
  intro key hfenced
  rw [hframe.isFenced]
  exact hfenced

theorem Routine.supersededInert (hroutine : Routine fates scope first last)
    (hinert : first.SupersededInert) : last.SupersededInert := by
  have hframe := hroutine.sameFrame
  intro id plan hplan hstate
  cases hroutine with
  | replan nextPlan plans hplans =>
    rcases hplans id plan hplan with hkept | hretained
    · exact hframe.inert (hinert id plan hkept hstate)
    · exact absurd hstate hretained.current
  | _ => exact hframe.inert (hinert id plan hplan hstate)

theorem Dies.supersededInert (hdies : Dies fates first last) (hinert : first.SupersededInert) :
    last.SupersededInert := by
  cases hdies with
  | append => exact hinert

theorem Routines.Ending.supersededInert (hending : Routines.Ending fates scope outcome first last)
    (hinert : first.SupersededInert) : last.SupersededInert :=
  hending.preserve (fun _ _ hroutine => hroutine.supersededInert)
    (fun _ _ hdies => hdies.supersededInert) hinert

theorem Inert.inState (hinert : Inert impl plan) (state : PlanState) :
    Inert impl (plan.inState state) := hinert

/-- The plans after a supersession are inert if they were, or touch the subject
in one of two ways: they cover it, or they cross it. -/
theorem superseding_inert (hplans : last.plans = (impl.superseding subject).plans)
    (hboot : last.boot = impl.boot)
    (hfences : ∀ key, impl.authority.isFenced key = true → last.authority.isFenced key = true)
    (hsubject : last.authority.isFenced subject = true) (hinert : impl.SupersededInert)
    (hcovered : ∀ (id : PlanId) (plan : ReconstructionPlan), impl.plans[id]? = some plan →
      plan.state ≠ .superseded → plan.state ≠ .failed →
      (∃ step ∈ plan.restores, step.coversFailed = subject) →
      Inert impl plan ∨ ∃ step ∈ plan.restores, subject ∈ step.hops) : last.SupersededInert := by
  intro id plan hplan hstate
  rw [hplans, Impl.superseding, Std.TreeMap.getElem?_map, Option.map_eq_some_iff] at hplan
  obtain ⟨earlier, hearlier, rfl⟩ := hplan
  rw [superseded] at hstate ⊢
  split at hstate
  · rename_i hdone
    rw [if_pos hdone]
    exact (hinert id earlier hearlier hstate).mono hboot hfences
  · rename_i hdone
    rw [if_neg hdone]
    have hsuperseded : earlier.state ≠ .superseded := fun hsame => hdone (Or.inl hsame)
    have hfailed : earlier.state ≠ .failed := fun hsame => hdone (Or.inr hsame)
    have hcrosses : (∃ step ∈ earlier.restores, subject ∈ step.hops) → Inert last earlier := by
      rintro ⟨step, hstep, hhop⟩
      exact Or.inr (Or.inl ⟨step, hstep, subject, hhop, hsubject⟩)
    split at hstate
    · rename_i htouches
      rw [if_pos htouches]
      apply Inert.inState
      simp only [touches, List.any_eq_true, Bool.or_eq_true, beq_iff_eq,
        List.contains_iff_mem] at htouches
      obtain ⟨step, hstep, hcovers | hhop⟩ := htouches
      · rcases hcovered id earlier hearlier hsuperseded hfailed ⟨step, hstep, hcovers⟩ with
          hbefore | hcross
        · exact hbefore.mono hboot hfences
        · exact hcrosses hcross
      · exact hcrosses ⟨step, hstep, hhop⟩
    · exact absurd hstate hsuperseded

theorem FencePart.supersededInert {first : CallState}
    (hfence : FencePart subject first outcome last) (hinert : first.impl.SupersededInert)
    (hcovered : ∀ (id : PlanId) (plan : ReconstructionPlan), first.impl.plans[id]? = some plan →
      plan.state ≠ .superseded → plan.state ≠ .failed →
      (∃ step ∈ plan.restores, step.coversFailed = subject) →
      Inert first.impl plan ∨ ∃ step ∈ plan.restores, subject ∈ step.hops) :
    last.SupersededInert := by
  cases hfence with
  | deferred hfenced =>
    exact superseding_inert rfl rfl (fun _ hkey => hkey) hfenced hinert hcovered
  | refused status hfenced => exact hinert
  | unwritten fence authority store stop hfenced hstore houtcome =>
    intro id plan hplan hstate
    refine (hinert id plan hplan hstate).mono rfl fun key hkey => ?_
    change authority.isFenced key = true
    rw [hfenced.isFenced, hkey, Bool.or_true]
  | committed fence authority hfenced hwritten =>
    generalize hjournaled : ({ first.impl with authority } : Impl).journaled .fenceCommitted
      (encodeFenceRecord fence) = journaled
    have hplans : journaled.plans = first.impl.plans := by
      rw [← hjournaled, journaled_plans]
    have hauthority : journaled.authority = authority := by
      rw [← hjournaled, journaled_authority]
    have hboot : journaled.boot = first.impl.boot := by
      rw [← hjournaled, Impl.journaled]
      split <;> rfl
    have hsuperseding : (journaled.superseding subject).plans =
        (first.impl.superseding subject).plans := by
      rw [Impl.superseding, Impl.superseding, hplans]
    refine superseding_inert hsuperseding hboot ?_ ?_ hinert hcovered
    · intro key hkey
      change journaled.authority.isFenced key = true
      rw [hauthority, hfenced.isFenced, hkey, Bool.or_true]
    · change journaled.authority.isFenced subject = true
      rw [hauthority, hfenced.isFenced, decide_eq_true rfl, Bool.true_or]

theorem Performed.supersededInert (hperformed : Performed impl env operation outcome last)
    (hdecisive : Decisive (.up impl) (.call operation env)) (hinert : impl.SupersededInert) :
    last.SupersededInert := by
  cases hperformed with
  | routine operation outcome last hroutines => exact hroutines.supersededInert hinert
  | declared declaration outcome last hdeclared =>
    cases hdeclared with
    | stopped last stop hroutines => exact hroutines.supersededInert hinert
    | fenced middle record outcome last hroutines hrecorded hfence =>
      have hframe := hroutines.sameFrame
      refine hfence.supersededInert
        (hroutines.preserve (fun _ _ hstep => hstep.supersededInert) hinert) ?_
      intro id plan hplan hsuperseded hfailed hcovers
      rw [hrecorded.plans] at hplan
      exact (hdecisive id plan hplan hsuperseded hfailed hcovers).imp_left hframe.inert

theorem Opened.supersededInert {config : CoordinatorConfig} {process : Process} {disk : Disk}
    (hopened : Opened config process env disk (.ok ()) impl)
    (hdecisive : Decisive (.down disk) (.boot config process env)) : impl.SupersededInert := by
  intro id plan hplan hstate
  obtain ⟨hdurable, store, trimmed, opening, hopen, hstanding, -⟩ := hopened.standing hplan
  exact absurd hstate (hdecisive hdurable store trimmed opening hopen id plan hstanding)

/-! ## Runs -/

/-- In every run whose declarations supersede no plan that only covers their
subject and could still be applied, the application of a superseded plan is
refused and leaves every grant as it was. -/
theorem superseded_never_applied {disk : Disk} {events : List Event}
    (hmeets : Meets World.step Decisive (.down disk) events) {impl : Impl}
    (hrun : run World.step (.down disk) events = .up impl)
    {request plan : ReconstructionPlan} (hplan : impl.plans[request.id]? = some plan)
    (hstate : plan.state = .superseded) (env : Env) :
    (∃ stop, (callOn impl (applyPlan request) env).1 = .error stop) ∧
      (callOn impl (applyPlan request) env).2.impl.authority = impl.authority := by
  have hsuperseded : impl.SupersededInert := by
    refine running_of_meets Impl.SupersededInert ?_ ?_ hmeets hrun
    · intro disk config process env last hdecisive hopened
      exact hopened.supersededInert hdecisive
    · intro impl operation env hdecisive hinert _
      exact (callOn_spec impl operation env).supersededInert hdecisive hinert
  have hinert : Inert ({ impl, env } : CallState).impl plan :=
    hsuperseded request.id plan hplan hstate
  exact applyPlan_inert hplan hinert

theorem decisive_of_isRoutine (hroutine : operation.isRoutine) (world : World) (env : Env) :
    Decisive world (.call operation env) := by
  cases operation with
  | declareFailure declaration => exact hroutine.elim
  | _ => cases world <;> trivial

/-- No retained plan covers the generation. -/
def Impl.coversNone (subject : SwitchKey) (impl : Impl) : Bool :=
  impl.plans.toList.all fun entry => entry.2.restores.all fun step => step.coversFailed != subject

theorem decisive_of_coversNone {world : World} {declaration : FailureDeclaration}
    (hnone : world.passes (Impl.coversNone declaration.subject) = true) (env : Env) :
    Decisive world (.call (.declareFailure declaration) env) := by
  obtain ⟨impl, rfl, hcovers⟩ := World.up_of_passes hnone
  simp only [Impl.coversNone, List.all_eq_true, bne_iff_ne] at hcovers
  intro id plan hplan _ _ hcovered
  obtain ⟨step, hstep, hsubject⟩ := hcovered
  exact absurd hsubject (hcovers (id, plan)
    (Std.TreeMap.mem_toList_iff_getElem?_eq_some.mpr hplan) step hstep)

/-- The plan over the second switch is superseded when that switch fails. -/
theorem superseded_never_applied_sample :
    ∃ impl plan, run World.step (.down {}) (Sample.planned {} ++
        [.call (.declareFailure (Sample.failureOf Sample.switchB)) Sample.calm]) = .up impl ∧
      impl.plans[Sample.firstPlan.id]? = some plan ∧ plan.state = .superseded ∧
      ∃ stop, (callOn impl (applyPlan Sample.firstPlan) Sample.calm).1 = .error stop := by
  have hrun : (run World.step (.down {}) (Sample.planned {} ++
      [.call (.declareFailure (Sample.failureOf Sample.switchB)) Sample.calm])).passes (fun impl =>
        impl.plans[Sample.firstPlan.id]?.any fun plan => plan.state == .superseded) = true := by
    decide +kernel
  obtain ⟨impl, hup, htest⟩ := World.up_of_passes hrun
  rw [Option.any_eq_true] at htest
  obtain ⟨plan, hplan, hstate⟩ := htest
  have hsuperseded : plan.state = .superseded := by simpa using hstate
  have hmeets : Meets World.step Decisive (.down {}) (Sample.planned {} ++
      [.call (.declareFailure (Sample.failureOf Sample.switchB)) Sample.calm]) := by
    refine And.intro ?_ (And.intro ?_ (And.intro ?_ (And.intro ?_ (And.intro ?_
      (And.intro ?_ trivial)))))
    · intro hdurable
      cases hdurable
    · exact decisive_of_isRoutine (by trivial) _ _
    · exact decisive_of_isRoutine (by trivial) _ _
    · exact decisive_of_coversNone (by decide +kernel) _
    · exact decisive_of_isRoutine (by trivial) _ _
    · exact decisive_of_coversNone (by decide +kernel) _
  exact ⟨impl, plan, hup, hplan, hsuperseded,
    (superseded_never_applied hmeets hup hplan hsuperseded Sample.calm).1⟩

/-- The failed switch is declared again: the plan for it is superseded, and can
be applied all the same. -/
theorem superseded_applied :
    ∃ impl plan receipt state, run World.step (.down {}) (Sample.planned {} ++
        [.call (.declareFailure (Sample.failureOf Sample.switchA)) Sample.calm]) = .up impl ∧
      impl.plans[Sample.firstPlan.id]? = some plan ∧ plan.state = .superseded ∧
      callOn impl (applyPlan Sample.firstPlan) Sample.calm = (.ok receipt, state) ∧
      impl.authority.grants.size < state.impl.authority.grants.size := by
  have hrun : (run World.step (.down {}) (Sample.planned {} ++
      [.call (.declareFailure (Sample.failureOf Sample.switchA)) Sample.calm])).passes (fun impl =>
        impl.plans[Sample.firstPlan.id]?.any (fun plan => plan.state == .superseded) &&
          answers (fun _ state =>
              decide (impl.authority.grants.size < state.impl.authority.grants.size))
            (callOn impl (applyPlan Sample.firstPlan) Sample.calm)) = true := by
    decide +kernel
  obtain ⟨impl, hup, htest⟩ := World.up_of_passes hrun
  rw [Bool.and_eq_true, Option.any_eq_true] at htest
  obtain ⟨⟨plan, hplan, hstate⟩, hanswers⟩ := htest
  obtain ⟨receipt, state, happly, hgrants⟩ := ok_of_answers hanswers
  exact ⟨impl, plan, receipt, state, hup, hplan, by simpa using hstate, happly,
    by simpa using hgrants⟩

end SwitchFailover.Runtime
