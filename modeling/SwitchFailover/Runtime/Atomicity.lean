import SwitchFailover.Runtime.PlanCourses
import SwitchFailover.Runtime.PlanSafety

/-!
# An application that fails

A refused application leaves the grants and the plans alone, except that a plan which
no longer validates is kept as rejected.  Between the first and the second of its
records an application mints grants and does not take them back: if one of the
last two records is not written, the call fails with the grants in place and the plan
in state Applying.  So an application that fails is atomic exactly if it fails before its
write-ahead record is written, unless the plan was in that state before and no grant is
minted.
-/

namespace SwitchFailover.Runtime

open SwitchFailover.Core Codec Model Plan Persist Library.Effects Library.Transitions

variable {impl middle final : Impl} {env : Env} {request plan : ReconstructionPlan}
  {results : List ApplyStepResult}

/-- What a failed application may change of the plans: a plan that fails validation is
kept as rejected. -/
def KeptOrRejected (impl : Impl) (env : Env) (request : ReconstructionPlan) (final : Impl)
    (id : PlanId) : Prop :=
  final.plans[id]? = impl.plans[id]? ∨
    ∃ plan, impl.plans[request.id]? = some plan ∧ plan.id = id ∧
      (validatePlan plan (impl.makeInputs plan.id (env.clock 0))).valid = false ∧
      final.plans[id]? = some (plan.inState .rejected)

theorem keptOrRejected_rejected (hplan : impl.plans[request.id]? = some plan)
    (hinvalid : (validatePlan plan (impl.makeInputs plan.id (env.clock 0))).valid = false)
    (id : PlanId) :
    KeptOrRejected impl env request (impl.retaining (plan.inState .rejected)) id := by
  by_cases hid : plan.id = id
  · right
    refine ⟨plan, hplan, hid, hinvalid, ?_⟩
    rw [← hid]
    exact Std.TreeMap.getElem?_insert_self
  · left
    exact Std.TreeMap.getElem?_insert.trans (if_neg fun heq => hid (compare_eq_iff_eq.mp heq))

/-- The call has changed no grant and no plan, except that a plan that fails validation is
kept as rejected. -/
def Atomic (impl : Impl) (env : Env) (request : ReconstructionPlan) (final : Impl) : Prop :=
  final.authority = impl.authority ∧ ∀ id, KeptOrRejected impl env request final id

/-- Once the write-ahead record is written, the plan is in state Applying. -/
theorem Impl.Carries.plans_eq (hcarries : impl.Carries env request plan results middle) :
    middle.plans = impl.plans.insert plan.id (plan.inState .applying) := by
  obtain ⟨_, _, hmiddle⟩ := hcarries.looped.frame
  obtain ⟨_, _, hannounced⟩ := impl.journaled_frame .planCommitted (plan.inState .applying).encode
  rw [hmiddle, Impl.begun, hannounced]
  rfl

/-- A plan that validates carries the digest of its contents. -/
theorem inState_eq_self (haccepts : impl.Accepts env request plan .provenFeasible)
    (hstate : plan.state = .applying) :
    plan.inState .applying = plan := by
  have hdigest := (validatePlan_valid_iff_certified.mp haccepts.valid).digest
  rw [ReconstructionPlan.digestValid, Bool.and_eq_true, beq_iff_eq] at hdigest
  rw [ReconstructionPlan.inState, ← hstate]
  exact congrArg (fun digest => { plan with planDigest := digest }) hdigest.2.symm

/-- That is a change unless it was in that state before. -/
theorem atomic_iff_of_applying (haccepts : impl.Accepts env request plan .provenFeasible)
    (hid : plan.id = request.id)
    (hplans : final.plans = impl.plans.insert plan.id (plan.inState .applying)) :
    Atomic impl env request final ↔
      plan.state = .applying ∧ final.authority = impl.authority := by
  have hretained := haccepts.retained
  constructor
  · rintro ⟨hauthority, hkept⟩
    refine ⟨?_, hauthority⟩
    rcases hkept plan.id with hsame | ⟨other, hother, -, hinvalid, -⟩
    · rw [hplans, Std.TreeMap.getElem?_insert_self, hid, hretained, Option.some.injEq] at hsame
      rw [← hsame, inState_state]
    · cases hretained.symm.trans hother
      rw [haccepts.valid] at hinvalid
      cases hinvalid
  · rintro ⟨hstate, hauthority⟩
    refine ⟨hauthority, fun id => Or.inl ?_⟩
    rw [hplans, inState_eq_self haccepts hstate, Std.TreeMap.getElem?_insert]
    split
    · rename_i hsame
      rw [← hretained, ← hid, Std.LawfulEqOrd.eq_of_compare hsame]
    · rfl

/-- A call that returns an error ends before its write-ahead record or after it. -/
theorem Applied.atomic_or_announced {status : Status} {last : Impl}
    (happlied : Applied impl env request (.error (.failed status)) last) :
    (Atomic impl env request last ∧ ∀ plan, ¬impl.Announces env request plan) ∨
      ∃ plan, impl.Announces env request plan ∧
        last.plans = impl.plans.insert plan.id (plan.inState .applying) := by
  generalize houtcome : (.error (.failed status) : Except Stop ApplyReceipt) = outcome at happlied
  cases happlied with
  | refused _ hturned =>
    exact Or.inl ⟨⟨rfl, fun _ => .inl rfl⟩, fun plan hplan => hturned plan hplan.toAccepts⟩
  | rejected plan _ hplan hinvalid =>
    refine Or.inl ⟨⟨rfl, keptOrRejected_rejected hplan hinvalid⟩, fun other hother => ?_⟩
    cases hplan.symm.trans hother.retained
    rw [hother.valid] at hinvalid
    cases hinvalid
  | emptyUnwritten plan _ _ hplan =>
    refine Or.inl ⟨⟨rfl, fun _ => .inl rfl⟩, fun other hother => ?_⟩
    cases hplan.retained.symm.trans hother.retained
    cases hplan.feasible.symm.trans hother.feasible
  | empty => cases houtcome
  | unannounced plan store stop hplan hbalks =>
    refine Or.inl ⟨⟨rfl, fun _ => .inl rfl⟩, fun other hother => ?_⟩
    cases hplan.retained.symm.trans hother.retained
    have hstops := hbalks.stops
    rw [hother.announced store hbalks.stored] at hstops
    cases hstops
  | unreceipted plan results middle store stop hcarries hbalks =>
    exact Or.inr ⟨plan, hcarries.toAnnounces, hcarries.plans_eq⟩
  | unconcluded plan results middle store stop hcarries _ hbalks =>
    obtain ⟨_, _, hreceipted⟩ := middle.journaled_frame .applyCompleted
      (encodeApplyReceipt (receiptOf impl plan results))
    refine Or.inr ⟨plan, hcarries.toAnnounces, ?_⟩
    rw [hreceipted]
    exact hcarries.plans_eq
  | concluded => cases houtcome

/-- An application that returns an error has changed no grant and no plan, except that a
plan that fails validation is kept as rejected, if it fails before its write-ahead record
is written.  If it fails later, the plan has gone over to Applying and grants may have been
minted. -/
theorem failed_application_atomic {status : Status} {final : CallState}
    (hcall : callOn impl (applyPlan request) env = (.error (.failed status), final)) :
    ((∀ plan, ¬impl.Announces env request plan) → Atomic impl env request final.impl) ∧
      ∀ plan, impl.Announces env request plan → plan.id = request.id →
        (Atomic impl env request final.impl ↔
          plan.state = .applying ∧ final.impl.authority = impl.authority) := by
  have happlied := applyPlan_spec impl env request
  rw [After, show execute (applyPlan request) { impl, env } = _ from hcall] at happlied
  rcases happlied.atomic_or_announced with ⟨hatomic, hbefore⟩ | ⟨plan, hplan, hplans⟩
  · exact ⟨fun _ => hatomic, fun plan hplan => absurd hplan (hbefore plan)⟩
  · refine ⟨fun hbefore => absurd hplan (hbefore plan), fun other hother hid => ?_⟩
    cases hplan.retained.symm.trans hother.retained
    exact atomic_iff_of_applying hplan.toAccepts hid hplans

namespace Sample

/-- A coordinator whose journal is full after seven records. -/
def cramped : CoordinatorConfig := { durable with limits := { maxJournalRecords := 7 } }

/-- The plan is made, and then its replacement fails in turn. -/
def overtaken : List Event :=
  planned cramped ++ [.call (.declareFailure (failureOf switchB)) calm]

/-- A call that fails. -/
def fails {A : Type} (test : CallState → Bool) : Except Stop A × CallState → Bool
  | (.error (.failed _), state) => test state
  | _ => false

theorem failed_of_fails {A : Type} {test : CallState → Bool} {result : Except Stop A × CallState}
    (hfails : fails test result = true) :
    ∃ status state, result = (.error (.failed status), state) ∧ test state = true := by
  rcases result with ⟨(status | _) | _, state⟩
  · exact ⟨status, state, rfl, hfails⟩
  · cases hfails
  · cases hfails

end Sample

set_option maxRecDepth 4000 in
/-- A plan whose replacement has failed is turned down and kept as rejected, although the
journal has no room for the records of an application. -/
theorem failed_application_atomic_sample :
    ∃ impl status final, run World.step (.down {}) Sample.overtaken = .up impl ∧
      callOn impl (applyPlan Sample.firstPlan) Sample.calm = (.error (.failed status), final) ∧
      (impl.store.any fun store =>
        decide (store.limits.maxJournalRecords < store.recordsWritten + 3)) = true ∧
      (∀ plan, ¬impl.Announces Sample.calm Sample.firstPlan plan) ∧
      Atomic impl Sample.calm Sample.firstPlan final.impl := by
  have hrun : (run World.step (.down {}) Sample.overtaken).passes (fun impl =>
      (impl.store.any fun store =>
        decide (store.limits.maxJournalRecords < store.recordsWritten + 3)) &&
      (impl.plans[Sample.firstPlan.id]?.all fun plan =>
        !(validatePlan plan (impl.makeInputs plan.id 1000)).valid) &&
      Sample.fails (fun _ => true) (callOn impl (applyPlan Sample.firstPlan) Sample.calm)) =
        true := by
    decide +kernel
  obtain ⟨impl, hup, htest⟩ := World.up_of_passes hrun
  simp only [Bool.and_eq_true] at htest
  obtain ⟨⟨hcramped, hinvalid⟩, hfails⟩ := htest
  obtain ⟨status, final, hcall, -⟩ := Sample.failed_of_fails hfails
  have hbefore : ∀ plan, ¬impl.Announces Sample.calm Sample.firstPlan plan := by
    intro plan hplan
    rw [hplan.retained] at hinvalid
    have hvalid : (validatePlan plan (impl.makeInputs plan.id 1000)).valid = true := hplan.valid
    rw [Option.all_some, hvalid] at hinvalid
    cases hinvalid
  exact ⟨impl, status, final, hup, hcall, hcramped, hbefore,
    (failed_application_atomic hcall).1 hbefore⟩

set_option maxRecDepth 4000 in
/-- The receipt of an application is not written: the call fails, the grant of the path is
active on the replacement, and the plan stays in state Applying. -/
theorem failed_application_kept :
    ∃ impl status final, run World.step (.down {}) (Sample.planned Sample.durable) = .up impl ∧
      callOn impl (applyPlan Sample.firstPlan) (Sample.calmBut 1 (.fault 0)) =
        (.error (.failed status), final) ∧
      impl.authority.grants[(⟨2⟩ : GrantId)]? = none ∧
      (∃ grant, final.impl.authority.grants[(⟨2⟩ : GrantId)]? = some grant ∧
        grant.dependent = Sample.path ∧ grant.activeAt 1000 = true) ∧
      (∃ plan, impl.plans[Sample.firstPlan.id]? = some plan ∧ plan.state = .validated) ∧
      ∃ plan, final.impl.plans[Sample.firstPlan.id]? = some plan ∧ plan.state = .applying := by
  have hrun : (run World.step (.down {}) (Sample.planned Sample.durable)).passes (fun impl =>
      impl.authority.grants[(⟨2⟩ : GrantId)]?.isNone &&
      (impl.plans[Sample.firstPlan.id]?.any fun plan => plan.state == .validated) &&
      Sample.fails (fun final =>
          (final.impl.authority.grants[(⟨2⟩ : GrantId)]?.any fun grant =>
            grant.dependent == Sample.path && grant.activeAt 1000) &&
          (final.impl.plans[Sample.firstPlan.id]?.any fun plan => plan.state == .applying))
        (callOn impl (applyPlan Sample.firstPlan) (Sample.calmBut 1 (.fault 0)))) = true := by
    decide +kernel
  obtain ⟨impl, hup, htest⟩ := World.up_of_passes hrun
  simp only [Bool.and_eq_true] at htest
  obtain ⟨⟨hnone, hbefore⟩, hfails⟩ := htest
  obtain ⟨status, final, hcall, hafter⟩ := Sample.failed_of_fails hfails
  simp only [Bool.and_eq_true, Option.any_eq_true, beq_iff_eq, Option.isNone_iff_eq_none]
    at hnone hbefore hafter
  exact ⟨impl, status, final, hup, hcall, hnone, hafter.1, hbefore, hafter.2⟩

end SwitchFailover.Runtime
