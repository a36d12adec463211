import SwitchFailover.Runtime.Routines

/-!
# Which steps a verification settles

Apply steps are kept under their dependent and replacement, so that two plans
which restore a dependent through the same replacement share an entry.  An
effect record names a plan and an attempt; the entries it settles are found
through the restore steps of the named plan alone.
-/

namespace SwitchFailover.Runtime

open SwitchFailover.Core Model Plan Persist Library.Effects Library.Transitions

/-- The entry of a restore step for the dependent an effect record names. -/
def Named (record : EvidenceRecord) (restores : List RestoreStep)
    (key : DependentRef ×ₗ SwitchKey) : Prop :=
  ∃ step ∈ restores, step.dependent = record.effectDependent ∧
    stepKey step.dependent step.replacement = key

instance (record : EvidenceRecord) (restores : List RestoreStep)
    (key : DependentRef ×ₗ SwitchKey) : Decidable (Named record restores key) :=
  inferInstanceAs (Decidable (∃ step ∈ restores, _ ∧ _))

/-- The step was recorded for the plan an effect record names, and under the
attempt it names if it names one. -/
def Attributed (record : EvidenceRecord) (recorded : RecordedStep) : Prop :=
  recorded.plan = record.effectPlan ∧
    (record.effectAttempt.valid = true → recorded.result.attempt = record.effectAttempt)

instance (record : EvidenceRecord) (recorded : RecordedStep) :
    Decidable (Attributed record recorded) :=
  inferInstanceAs (Decidable (_ ∧ _))

section Settling

variable {record : EvidenceRecord}

theorem effectState_settled : effectState record = .verified ∨ effectState record = .failed := by
  rw [effectState]
  split
  · exact Or.inl rfl
  · exact Or.inr rfl

theorem verifyStep_getElem? (found : ApplySteps × Bool) (step : RestoreStep)
    (key : DependentRef ×ₗ SwitchKey) :
    (verifyStep record found step).1[key]? =
      if step.dependent = record.effectDependent ∧ stepKey step.dependent step.replacement = key
      then found.1[key]?.map (RecordedStep.verifiedBy · record)
      else found.1[key]? := by
  rw [verifyStep]
  by_cases hdependent : step.dependent = record.effectDependent
  · simp only [hdependent, bne_self_eq_false, Bool.false_eq_true, if_false, true_and]
    by_cases hkey : stepKey record.effectDependent step.replacement = key
    · subst hkey
      cases hfound : found.1[stepKey record.effectDependent step.replacement]? with
      | none => simp [hfound]
      | some recorded => simp
    · rw [if_neg hkey]
      cases hfound : found.1[stepKey record.effectDependent step.replacement]? with
      | none => rfl
      | some recorded => simp [Std.TreeMap.getElem?_insert, hkey]
  · simp [hdependent]

-- A key may be named by several steps; the entry is then settled again with the
-- same outcome.
theorem foldl_verifyStep_getElem? (restores : List RestoreStep) (found : ApplySteps × Bool)
    (key : DependentRef ×ₗ SwitchKey) :
    (restores.foldl (verifyStep record) found).1[key]? =
      if Named record restores key then found.1[key]?.map (RecordedStep.verifiedBy · record)
      else found.1[key]? := by
  induction restores generalizing found with
  | nil => simp [Named]
  | cons step rest ih =>
    have hcons : Named record (step :: rest) key ↔ (step.dependent = record.effectDependent ∧
          stepKey step.dependent step.replacement = key) ∨ Named record rest key := by
      simp only [Named, List.mem_cons, exists_eq_or_imp]
    rw [List.foldl_cons, ih, verifyStep_getElem?]
    by_cases hrest : Named record rest key
    · rw [if_pos hrest, if_pos (hcons.mpr (Or.inr hrest))]
      split
      · rw [Option.map_map]
        congr 1
      · rfl
    · rw [if_neg hrest]
      exact if_congr (by rw [hcons, or_iff_left hrest]) rfl rfl

theorem verifySteps_getElem? (plan : ReconstructionPlan) (steps : ApplySteps)
    (key : DependentRef ×ₗ SwitchKey) :
    (verifySteps record plan steps).1[key]? =
      if Named record plan.restores key then steps[key]?.map (RecordedStep.verifiedBy · record)
      else steps[key]? :=
  foldl_verifyStep_getElem? plan.restores (steps, false) key

end Settling

/-- An accepted effect record names a retained plan, and its steps are settled. -/
theorem recordEffectVerification_accepted (verification : EvidenceRecord) (state : CallState) :
    After (recordEffectVerification verification) state fun outcome final =>
      outcome = .ok () → ∃ plan, state.impl.plans[verification.effectPlan]? = some plan ∧
        final.impl.applySteps = (verifySteps verification plan state.impl.applySteps).1 := by
  rw [recordEffectVerification]
  apply After.check
  · intro status _ hok
    cases hok
  · intro _ _
    apply After.running
    · intro status hok
      cases hok
    · intro _
      rw [requireCallerIdentity]
      apply After.check
      · intro status _ hok
        cases hok
      · intro _ _
        rw [after_getImpl]
        apply After.admission
        · intro status _ hok
          cases hok
        · intro _
          cases hplan : state.impl.plans[verification.effectPlan]? with
          | none =>
            intro hok
            cases hok
          | some plan =>
            rw [after_modifyImpl]
            apply After.ofResult
            · intro value _ _
              exact ⟨plan, rfl, rfl⟩
            · intro status _ hok
              cases hok

/-- The steps an accepted effect record moves are those of the plan and the
attempt it names exactly if the entries of the named plan's steps for its
dependent are, as far as they do not hold the outcome already. -/
theorem verification_attributed_iff {impl : Impl} {verification : EvidenceRecord} {env : Env}
    {final : CallState}
    (haccepted : callOn impl (recordEffectVerification verification) env = (.ok (), final)) :
    (∀ (key : DependentRef ×ₗ SwitchKey) (before after : RecordedStep),
        impl.applySteps[key]? = some before →
        final.impl.applySteps[key]? = some after →
        after.result.state ≠ before.result.state →
        after.result.state = .verified ∨ after.result.state = .failed →
        Attributed verification before) ↔
      ∀ (plan : ReconstructionPlan) (key : DependentRef ×ₗ SwitchKey) (before : RecordedStep),
        impl.plans[verification.effectPlan]? = some plan →
        Named verification plan.restores key → impl.applySteps[key]? = some before →
        before.result.state ≠ effectState verification → Attributed verification before := by
  have hspec := recordEffectVerification_accepted verification { impl, env }
  rw [After] at hspec
  rw [callOn] at haccepted
  rw [haccepted] at hspec
  obtain ⟨plan, hplan, hsteps⟩ := hspec rfl
  constructor
  · intro hmoved named key before hnamed hkey hbefore hstate
    obtain rfl : plan = named := Option.some.inj (hplan.symm.trans hnamed)
    have hafter : final.impl.applySteps[key]? = some (before.verifiedBy verification) := by
      rw [hsteps, verifySteps_getElem?, if_pos hkey]
      exact congrArg _ hbefore
    exact hmoved key before _ hbefore hafter (Ne.symm hstate) effectState_settled
  · intro hentries key before after hbefore hafter hstate _
    rw [hsteps, verifySteps_getElem?] at hafter
    by_cases hkey : Named verification plan.restores key
    · rw [if_pos hkey] at hafter
      obtain rfl : before.verifiedBy verification = after := by
        simpa [hbefore] using hafter
      exact hentries plan key before hplan hkey hbefore (Ne.symm hstate)
    · rw [if_neg hkey] at hafter
      obtain rfl : before = after := Option.some.inj (hbefore.symm.trans hafter)
      exact absurd rfl hstate

namespace Sample

/-- The first of two equal plans is applied. -/
def appliedTwin : List Event :=
  planned {} ++ [.call (.proposePlan (GenerationVector.empty.insert switchA)) calm,
    .call (.applyPlan firstPlan) calm]

def effectOf (plan : PlanId) (attempt : AttemptSeq) : EvidenceRecord :=
  { id := ⟨1⟩, kind := .effectVerification, source := .fabricManager, subject := switchB,
    observedAtNs := 1000, validForNs := 1000000, effectDependent := path,
    effectPlan := plan, effectAttempt := attempt }

/-- The entry of the path's restoration over the second switch. -/
def entry : DependentRef ×ₗ SwitchKey := stepKey path switchB

def entryIn (state : AckState) (impl : Impl) : Bool :=
  impl.applySteps[entry]?.any fun recorded => recorded.result.state == state

theorem entryIn_eq_true {state : AckState} {impl : Impl} (hentry : entryIn state impl = true) :
    ∃ recorded, impl.applySteps[entry]? = some recorded ∧ recorded.result.state = state := by
  simpa [entryIn, Option.any_eq_true] using hentry

/-- An effect record settles the entry, and every recorded step passes the test. -/
def settlesEntry (effect : EvidenceRecord) (test : RecordedStep → Bool) (impl : Impl) : Bool :=
  impl.applySteps.toList.all (fun step => test step.2) && entryIn .applied impl &&
    answers (fun _ final => entryIn .verified final.impl)
      (callOn impl (recordEffectVerification effect) calm)

theorem settled_of_settlesEntry {effect : EvidenceRecord} {test : RecordedStep → Bool}
    {impl : Impl} (hsettles : settlesEntry effect test impl = true) :
    (∀ (key : DependentRef ×ₗ SwitchKey) step, impl.applySteps[key]? = some step →
        test step = true) ∧
      ∃ final before after, callOn impl (recordEffectVerification effect) calm = (.ok (), final) ∧
        impl.applySteps[entry]? = some before ∧ final.impl.applySteps[entry]? = some after ∧
        before.result.state = .applied ∧ after.result.state = .verified := by
  simp only [settlesEntry, Bool.and_eq_true, List.all_eq_true] at hsettles
  obtain ⟨⟨hall, happlied⟩, hanswers⟩ := hsettles
  obtain ⟨_, final, hcall, hverified⟩ := ok_of_answers hanswers
  obtain ⟨before, hbefore, hbeforeState⟩ := entryIn_eq_true happlied
  obtain ⟨after, hafter, hafterState⟩ := entryIn_eq_true hverified
  refine ⟨?_, final, before, after, hcall, hbefore, hafter, hbeforeState, hafterState⟩
  intro key step hstep
  exact hall (key, step) (Std.TreeMap.mem_toList_iff_getElem?_eq_some.mpr hstep)

end Sample

theorem verification_attributed_iff_sample :
    ∃ impl final before after, World.Reaches {} impl ∧
      callOn impl (recordEffectVerification (Sample.effectOf ⟨1⟩ ⟨2⟩)) Sample.calm =
        (.ok (), final) ∧
      impl.applySteps[Sample.entry]? = some before ∧
      final.impl.applySteps[Sample.entry]? = some after ∧
      before.result.state = .applied ∧ after.result.state = .verified ∧
      Attributed (Sample.effectOf ⟨1⟩ ⟨2⟩) before := by
  have hrun : (run World.step (.down {}) Sample.appliedTwin).passes
      (Sample.settlesEntry (Sample.effectOf ⟨1⟩ ⟨2⟩) fun step =>
        decide (Attributed (Sample.effectOf ⟨1⟩ ⟨2⟩) step)) = true := by
    decide +kernel
  obtain ⟨impl, hup, hsettles⟩ := World.up_of_passes hrun
  obtain ⟨hall, final, before, after, hcall, hbefore, hafter, hbeforeState, hafterState⟩ :=
    Sample.settled_of_settlesEntry hsettles
  refine ⟨impl, final, before, after, ⟨_, hup⟩, hcall, hbefore, hafter, hbeforeState,
    hafterState, ?_⟩
  apply (verification_attributed_iff hcall).mpr _ Sample.entry before after hbefore hafter
  · rw [hbeforeState, hafterState]
    decide
  · exact Or.inl hafterState
  · intro plan key step _ _ hstep _
    exact of_decide_eq_true (hall key step hstep)

/-- An effect record that names the second plan and an attempt never made
settles the step of the first. -/
theorem verification_of_other_plan :
    ∃ impl final before after, World.Reaches {} impl ∧
      callOn impl (recordEffectVerification (Sample.effectOf ⟨2⟩ ⟨77⟩)) Sample.calm =
        (.ok (), final) ∧
      impl.applySteps[Sample.entry]? = some before ∧
      final.impl.applySteps[Sample.entry]? = some after ∧
      before.result.state = .applied ∧ after.result.state = .verified ∧
      before.plan ≠ ⟨2⟩ ∧ before.result.attempt ≠ ⟨77⟩ := by
  have hrun : (run World.step (.down {}) Sample.appliedTwin).passes
      (Sample.settlesEntry (Sample.effectOf ⟨2⟩ ⟨77⟩) fun step =>
        decide (step.plan ≠ ⟨2⟩ ∧ step.result.attempt ≠ ⟨77⟩)) = true := by
    decide +kernel
  obtain ⟨impl, hup, hsettles⟩ := World.up_of_passes hrun
  obtain ⟨hall, final, before, after, hcall, hbefore, hafter, hbeforeState, hafterState⟩ :=
    Sample.settled_of_settlesEntry hsettles
  obtain ⟨hplan, hattempt⟩ := of_decide_eq_true (hall Sample.entry before hbefore)
  exact ⟨impl, final, before, after, ⟨_, hup⟩, hcall, hbefore, hafter, hbeforeState,
    hafterState, hplan, hattempt⟩

end SwitchFailover.Runtime
