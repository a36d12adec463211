import SwitchFailover.Runtime.Atomicity
import SwitchFailover.Runtime.Footprints
import SwitchFailover.Runtime.PolicyRestart

/-!
# How many plans are retained

Before `propose_plan` retains a plan that validates it evicts older plans until there
is room, sparing plans that are being applied.  A plan that does not validate is retained
as rejected without making room, so proposals that fail validation add plans beyond any
bound.
-/

namespace SwitchFailover.Runtime

open SwitchFailover.Core Model Plan Persist Library.Effects Library.Transitions

variable {plans : Std.TreeMap PlanId ReconstructionPlan}

variable {impl last : Impl} {plan : ReconstructionPlan} {env : Env} {id : PlanId}

/-! ## Eviction -/

/-- With no plan being applied, eviction makes room for one more. -/
theorem size_retirePlans_lt {limit fuel : ℕ} (hlimit : 0 < limit) (hfuel : plans.size ≤ fuel)
    (hsettled : ∀ (id : PlanId) (plan : ReconstructionPlan), plans[id]? = some plan →
      plan.state ≠ .applying) : (retirePlans limit fuel plans).size < limit := by
  induction fuel generalizing plans with
  | zero =>
    rw [retirePlans]
    omega
  | succ fuel ih =>
    rw [retirePlans]
    split
    · rename_i hdone
      rcases hdone with hroom | hempty
      · exact hroom
      · rw [Std.TreeMap.isEmpty_eq_size_eq_zero, beq_iff_eq] at hempty
        omega
    rename_i hfull
    split
    · -- Some plan is there, and none is being applied.
      rename_i hnone
      exfalso
      have hsome : plans.toList ≠ [] := by
        intro hnil
        apply hfull
        right
        rw [← Std.TreeMap.isEmpty_toList, hnil]
        rfl
      obtain ⟨entry, hentry⟩ := List.exists_mem_of_ne_nil _ hsome
      have hkept := Std.TreeMap.mem_toList_iff_getElem?_eq_some.mp hentry
      have happlying := List.find?_eq_none.mp hnone entry hentry
      exact happlying (bne_iff_ne.mpr (hsettled entry.1 entry.2 hkept))
    · rename_i victim hvictim
      have hkept : plans[victim.1]? = some victim.2 :=
        Std.TreeMap.mem_toList_iff_getElem?_eq_some.mp (List.mem_of_find?_eq_some hvictim)
      have hmem : victim.1 ∈ plans := by
        rw [Std.TreeMap.mem_iff_isSome_getElem?, hkept]
        rfl
      apply ih
      · rw [Std.TreeMap.size_erase, if_pos (Std.TreeMap.contains_iff_mem.mpr hmem)]
        omega
      · intro id plan hplan
        apply hsettled id plan
        rw [Std.TreeMap.getElem?_erase] at hplan
        split at hplan
        · cases hplan
        · exact hplan

/-! ## The bound -/

/-- The plans are within the bound, each under its identity, and none is being applied. -/
structure Tidy (impl : Impl) : Prop where
  positive : 0 < impl.policy.maxRetainedPlans.toNat
  bounded : impl.plans.size ≤ impl.policy.maxRetainedPlans.toNat
  filed : ∀ (id : PlanId) (plan : ReconstructionPlan), impl.plans[id]? = some plan →
    plan.id = id
  settled : ∀ (id : PlanId) (plan : ReconstructionPlan), impl.plans[id]? = some plan →
    plan.state ≠ .applying

/-- Keeping one more plan, if there is room for it or it replaces another. -/
theorem Tidy.retain (htidy : Tidy impl) (hpolicy : last.policy = impl.policy)
    (hlast : last.plans = plans.insert plan.id plan)
    (hsubset : ∀ (id : PlanId) (other : ReconstructionPlan), id ≠ plan.id →
      plans[id]? = some other → impl.plans[id]? = some other)
    (hroom : plan.id ∈ plans ∧ plans.size ≤ impl.policy.maxRetainedPlans.toNat ∨
      plans.size < impl.policy.maxRetainedPlans.toNat) (hstate : plan.state ≠ .applying) :
    Tidy last := by
  have hcases : ∀ (id : PlanId) (other : ReconstructionPlan), last.plans[id]? = some other →
      (other.id = id ∧ other.state ≠ .applying) := by
    intro id other hother
    rw [hlast, Std.TreeMap.getElem?_insert] at hother
    split at hother
    · rename_i hsame
      cases hother
      exact ⟨Std.LawfulEqOrd.eq_of_compare hsame, hstate⟩
    · rename_i hdifferent
      have hother' : id ≠ plan.id := by
        rintro rfl
        exact hdifferent Std.ReflCmp.compare_self
      have hkept := hsubset id other hother' hother
      exact ⟨htidy.filed id other hkept, htidy.settled id other hkept⟩
  refine ⟨?_, ?_, fun id other hother => (hcases id other hother).1,
    fun id other hother => (hcases id other hother).2⟩
  · rw [hpolicy]
    exact htidy.positive
  · rw [hpolicy, hlast, Std.TreeMap.size_insert]
    split
    · rcases hroom with ⟨-, hwithin⟩ | hless
      · exact hwithin
      · exact hless.le
    · rename_i hnew
      rcases hroom with ⟨hmem, -⟩ | hless
      · exact absurd hmem hnew
      · exact hless

/-- The plan a proposal makes validates, or there is room for it. -/
def Impl.TakesProposal (impl : Impl) (env : Env) (failed : GenerationVector) : Prop :=
  impl.plans.size < impl.policy.maxRetainedPlans.toNat ∨
    ∀ plan, planReconstruction (impl.proposal env) failed = .ok plan →
      (validatePlan plan (impl.proposal env)).valid = true

theorem Tidy.proposed {failed : GenerationVector} {outcome : Except Stop ReconstructionPlan}
    (htidy : Tidy impl) (htakes : impl.TakesProposal env failed)
    (hproposed : Proposed impl env failed outcome last) : Tidy last := by
  cases hproposed with
  | refused => exact htidy
  | accepted plan hplan hvalid =>
    refine htidy.retain rfl rfl (fun _ _ _ hother => retirePlans_subset _ _ _ hother)
      (Or.inr (size_retirePlans_lt htidy.positive le_rfl htidy.settled)) ?_
    rw [inState_state]
    decide
  | rejected plan status hplan hinvalid =>
    refine htidy.retain rfl rfl (fun _ _ _ hother => hother) (Or.inr ?_) ?_
    · rcases htakes with hroom | hvalid
      · exact hroom
      · rw [hvalid plan hplan] at hinvalid
        cases hinvalid
    · rw [inState_state]
      decide

theorem Tidy.of_same (htidy : Tidy impl) (hpolicy : last.policy = impl.policy)
    (hplans : last.plans = impl.plans) : Tidy last := by
  obtain ⟨hpositive, hbounded, hfiled, hsettled⟩ := htidy
  rw [← hpolicy] at hpositive hbounded
  rw [← hplans] at hbounded hfiled hsettled
  exact ⟨hpositive, hbounded, hfiled, hsettled⟩

theorem Tidy.mem (htidy : Tidy impl) (hplan : impl.plans[id]? = some plan) :
    plan.id ∈ impl.plans := by
  rw [htidy.filed id plan hplan, Std.TreeMap.mem_iff_isSome_getElem?, hplan]
  rfl

/-- A retained plan moves to another state. -/
theorem Tidy.replace (moved : ReconstructionPlan) (htidy : Tidy impl)
    (hplan : impl.plans[id]? = some plan) (hpolicy : last.policy = impl.policy)
    (hmoved : moved.id = plan.id) (hlast : last.plans = impl.plans.insert moved.id moved)
    (hstate : moved.state ≠ .applying) : Tidy last := by
  have hmem : moved.id ∈ impl.plans := by
    rw [hmoved]
    exact htidy.mem hplan
  exact htidy.retain hpolicy hlast (fun _ _ _ hother => hother) (Or.inl ⟨hmem, htidy.bounded⟩)
    hstate

/-- A retained plan moves to another state over the state it was announced in. -/
theorem Tidy.replaceTwice (announced moved : ReconstructionPlan) (htidy : Tidy impl)
    (hplan : impl.plans[id]? = some plan) (hpolicy : last.policy = impl.policy)
    (hannounced : announced.id = plan.id) (hmoved : moved.id = plan.id)
    (hlast : last.plans = (impl.plans.insert announced.id announced).insert moved.id moved)
    (hstate : moved.state ≠ .applying) : Tidy last := by
  have hmem := htidy.mem hplan
  rw [hannounced] at hlast
  refine htidy.retain hpolicy hlast ?_ (Or.inl ⟨?_, ?_⟩) hstate
  · intro other kept hother hkept
    rw [Std.TreeMap.getElem?_insert] at hkept
    split at hkept
    · rename_i hsame
      exact absurd (hmoved.trans (Std.LawfulEqOrd.eq_of_compare hsame)).symm hother
    · exact hkept
  · rw [hmoved]
    exact Std.TreeMap.mem_insert_self
  · rw [Std.TreeMap.size_insert, if_pos (Std.TreeMap.contains_iff_mem.mpr hmem)]
    exact htidy.bounded

theorem planStateAfter_ne_applying (receipt : ApplyReceipt) :
    planStateAfter receipt ≠ .applying := by
  rw [planStateAfter]
  split_ifs <;> decide

/-- No append of an application fails once its write-ahead record is written. -/
def Impl.Completes (impl : Impl) (env : Env) (request : ReconstructionPlan) : Prop :=
  ∀ plan, impl.Announces env request plan → ∀ status,
    (callOn impl (Operation.applyPlan request).call env).1 ≠ .error (.failed status)

theorem Tidy.applied {request : ReconstructionPlan} {outcome : Except Stop ApplyReceipt}
    (htidy : Tidy impl) (hcompletes : ∀ plan, impl.Announces env request plan →
      ∀ status, outcome ≠ .error (.failed status))
    (happlied : Applied impl env request outcome last) : outcome = .error .crashed ∨ Tidy last := by
  cases happlied with
  | refused => exact Or.inr htidy
  | rejected plan status hplan hinvalid =>
    have hstate : (plan.inState .rejected).state ≠ .applying := by
      rw [inState_state]
      decide
    exact Or.inr (Tidy.replace (plan.inState .rejected) htidy hplan rfl rfl rfl hstate)
  | emptyUnwritten => exact Or.inr (htidy.of_same rfl rfl)
  | empty plan hplan htaken =>
    obtain ⟨_, _, hframe⟩ := impl.journaled_frame .applyCompleted
      (encodeApplyReceipt (emptyReceiptOf impl plan))
    have hstate : (plan.inState .applied).state ≠ .applying := by
      rw [inState_state]
      decide
    have hplans : ((impl.journaled .applyCompleted (encodeApplyReceipt
        (emptyReceiptOf impl plan))).retaining (plan.inState .applied)).plans =
          impl.plans.insert plan.id (plan.inState .applied) := by
      rw [hframe]
      rfl
    refine Or.inr (Tidy.replace (plan.inState .applied) htidy hplan.retained ?_ rfl hplans hstate)
    rw [hframe]
    rfl
  | unannounced => exact Or.inr (htidy.of_same rfl rfl)
  | unreceipted plan results middle store stop hcarries hbalks =>
    cases stop with
    | failed status => exact absurd rfl (hcompletes plan hcarries.toAnnounces status)
    | crashed => exact Or.inl rfl
  | unconcluded plan results middle store stop hcarries _ hbalks =>
    cases stop with
    | failed status => exact absurd rfl (hcompletes plan hcarries.toAnnounces status)
    | crashed => exact Or.inl rfl
  | concluded plan results middle hcarries hreceipt hplan =>
    obtain ⟨_, _, hmiddle⟩ := hcarries.looped.frame
    obtain ⟨_, _, hannounced⟩ := impl.journaled_frame .planCommitted (plan.inState .applying).encode
    obtain ⟨_, _, hreceipted⟩ := middle.journaled_frame .applyCompleted
      (encodeApplyReceipt (receiptOf impl plan results))
    obtain ⟨_, _, hconcluded⟩ := (middle.journaled .applyCompleted
      (encodeApplyReceipt (receiptOf impl plan results))).journaled_frame .planCommitted
        (concludedPlan plan (receiptOf impl plan results)).encode
    have hstate : (concludedPlan plan (receiptOf impl plan results)).state ≠ .applying := by
      rw [concludedPlan, inState_state]
      exact planStateAfter_ne_applying _
    have hbegun : (impl.begun plan).plans = impl.plans.insert (plan.inState .applying).id
        (plan.inState .applying) ∧ (impl.begun plan).policy = impl.policy := by
      rw [Impl.begun, hannounced]
      exact ⟨rfl, rfl⟩
    refine Or.inr (Tidy.replaceTwice (plan.inState .applying)
      (concludedPlan plan (receiptOf impl plan results)) htidy hcarries.retained ?_
      rfl rfl ?_ hstate)
    · rw [hconcluded, hreceipted, hmiddle]
      exact hbegun.2
    · rw [hconcluded, hreceipted, hmiddle, ← hbegun.1]
      rfl

/-! ## Runs -/

/-- The steps under which the bound holds: a coordinator opens without plans, keeps its policy,
makes plans that validate or that there is room for, and completes its applications. -/
def Modest : World → Event → Prop
  | .down disk, .boot config process env =>
      (openOver disk config process env).2.impl.plans.isEmpty = true
  | .up impl, .call (.proposePlan failed) env => impl.TakesProposal env failed
  | .up impl, .call (.applyPlan request) env => impl.Completes env request
  | .up _, .call (.installPolicy _) _ => False
  | _, _ => True

def World.Tidied : World → Prop
  | .down _ => True
  | .up impl => Tidy impl

theorem Tidy.confined {footprint : Footprint} (htidy : Tidy impl) (hkept : ¬footprint.revises)
    (hconfined : Confined footprint impl last) : Tidy last := by
  have hpolicy : last.policy = impl.policy := hconfined.policy.resolve_left hkept
  refine ⟨?_, ?_, ?_, ?_⟩
  · rw [hpolicy]
    exact htidy.positive
  · rw [hpolicy, hconfined.planCount]
    exact htidy.bounded
  · intro id plan hplan
    obtain ⟨before, hbefore, hid, -⟩ := hconfined.plans id plan hplan
    rw [hid]
    exact htidy.filed id before hbefore
  · intro id plan hplan
    obtain ⟨before, hbefore, -, hsame | hsuperseded⟩ := hconfined.plans id plan hplan
    · rw [hsame]
      exact htidy.settled id before hbefore
    · rw [hsuperseded]
      decide

theorem maxRetainedPlans_pos_of_validate {policy : Policy} (hvalid : policy.validate = .ok ()) :
    0 < policy.maxRetainedPlans.toNat := by
  simp only [Policy.validate, result_bind_eq_ok, require_eq_ok, exists_const, Bool.and_eq_true,
    bne_iff_ne] at hvalid
  obtain ⟨-, -, ⟨hnonzero, -⟩, -⟩ := hvalid
  apply Nat.pos_of_ne_zero
  intro hzero
  exact hnonzero (UInt64.toNat_inj.mp hzero)

theorem tidy_of_opened {disk : Disk} {config : CoordinatorConfig} {process : Process}
    {state : CallState} (hopened : openOver disk config process env = (.ok (), state))
    (hempty : state.impl.plans.isEmpty = true) : Tidy state.impl := by
  have hcourse := Opened.of_openOver hopened
  have hvalid : config.policy.validate = .ok () := by
    apply policy_of_opened
    rw [hopened]
  have hpolicy := opened_policy hcourse
  have hnone : ∀ id : PlanId, state.impl.plans[id]? = none := by
    intro id
    exact Std.TreeMap.getElem?_of_isEmpty hempty
  refine ⟨?_, ?_, ?_, ?_⟩
  · rw [hpolicy]
    exact maxRetainedPlans_pos_of_validate hvalid
  · rw [Std.TreeMap.isEmpty_eq_size_eq_zero, beq_iff_eq] at hempty
    rw [hempty]
    exact Nat.zero_le _
  · intro id plan hplan
    rw [hnone] at hplan
    cases hplan
  · intro id plan hplan
    rw [hnone] at hplan
    cases hplan

theorem tidy_call {operation : Operation} (hmodest : Modest (.up impl) (.call operation env))
    (htidy : Tidy impl) :
    (callOn impl operation.call env).1 = .error .crashed ∨
      Tidy (callOn impl operation.call env).2.impl := by
  rcases operation.plans_or_isBeside with ⟨failed, rfl⟩ | ⟨request, rfl⟩ | hbeside
  · obtain ⟨outcome, hproposed⟩ := callOn_proposed impl env failed
    exact Or.inr (htidy.proposed hmodest hproposed)
  · obtain ⟨outcome, happlied, hended⟩ := callOn_applied impl env request
    have hcompletes : ∀ plan, impl.Announces env request plan →
        ∀ status, outcome ≠ .error (.failed status) := by
      rintro plan hplan status rfl
      exact hmodest plan hplan status hended
    rcases htidy.applied hcompletes happlied with hcrashed | hnext
    · left
      rw [hended, hcrashed]
      rfl
    · exact Or.inr hnext
  · have hkept : ¬operation.footprint.revises := by
      cases operation with
      | installPolicy policy => exact hmodest.elim
      | _ => exact fun hrevises => hrevises
    exact Or.inr (htidy.confined hkept (callOn_confined hbeside impl env))

theorem tidied_step (world : World) (event : Event) (hmodest : Modest world event)
    (htidied : world.Tidied) : (world.step event).Tidied := by
  cases world with
  | down disk =>
    cases event with
    | boot config process env =>
      rw [World.step]
      cases hopened : openOver disk config process env with
      | mk outcome state =>
        cases outcome with
        | error stop => trivial
        | ok value =>
          rw [Modest, hopened] at hmodest
          exact tidy_of_opened hopened hmodest
    | call operation env => trivial
    | exit => trivial
  | up impl =>
    cases event with
    | boot config process env => exact htidied
    | exit => trivial
    | call operation env =>
      have hnext : (callOn impl operation.call env).1 = .error .crashed ∨
          Tidy (callOn impl operation.call env).2.impl := tidy_call hmodest htidied
      rw [World.step]
      rcases hcall : callOn impl operation.call env with ⟨outcome, state⟩
      rw [hcall] at hnext
      split
      · trivial
      · rename_i other hother
        cases hother
        exact hnext.resolve_left (by simpa using other)

/-- Retained plans are within the bound of the policy along every run in which proposals
validate or find room. -/
theorem retained_plans_bounded (disk : Disk) (events : List Event) (impl : Impl)
    (hmodest : Meets World.step Modest (.down disk) events)
    (hrun : run World.step (.down disk) events = .up impl) :
    impl.plans.size ≤ impl.policy.maxRetainedPlans.toNat := by
  have htidied : (run World.step (.down disk) events).Tidied :=
    invariant_of_meets tidied_step hmodest trivial
  rw [hrun] at htidied
  exact htidied.bounded

namespace Sample

/-- A coordinator that may retain one plan. -/
def frugal : CoordinatorConfig := { policy := { maxRetainedPlans := 1 } }

def proposal : Event := .call (.proposePlan (GenerationVector.empty.insert switchA)) calm

/-- The steps of runs without applications, checked by evaluation. -/
def modest : World → Event → Bool
  | .down disk, .boot config process env =>
      (openOver disk config process env).2.impl.plans.isEmpty
  | .up impl, .call (.proposePlan failed) env =>
      decide (impl.plans.size < impl.policy.maxRetainedPlans.toNat) ||
        (planReconstruction (impl.proposal env) failed).toOption.all fun plan =>
          (validatePlan plan (impl.proposal env)).valid
  | .up _, .call (.applyPlan _) _ | .up _, .call (.installPolicy _) _ => false
  | _, _ => true

theorem modest_sound (world : World) (event : Event) (hmodest : modest world event = true) :
    Modest world event := by
  cases world with
  | down disk =>
    cases event with
    | boot config process env => exact hmodest
    | _ => trivial
  | up impl =>
    cases event with
    | boot config process env => trivial
    | exit => trivial
    | call operation env =>
      cases operation with
      | proposePlan failed =>
        rw [modest, Bool.or_eq_true, decide_eq_true_eq] at hmodest
        rcases hmodest with hroom | hvalid
        · exact Or.inl hroom
        · right
          intro plan hplan
          rw [hplan] at hvalid
          exact hvalid
      | applyPlan request => cases hmodest
      | installPolicy policy => cases hmodest
      | _ => trivial

/-- The replacement runs over a link that the topology does not have. -/
def unlinked : CandidateTable :=
  (CandidateTable.build [{ replacement switchB 1 with links := [⟨9⟩] }] {}
    (.insertion _)).toOption.getD .empty

/-- Two proposals over such a replacement. -/
def proposedTwice : List Event :=
  [.boot frugal process calm, .call (.installTopology topology) calm,
    .call (.installCandidates unlinked) calm, .call (.declareFailure (failureOf switchA)) calm,
    proposal, proposal]

end Sample

/-- The second of two plans takes the place of the first. -/
theorem retained_plans_bounded_tight :
    ∃ impl, run World.step (.down {}) (Sample.planned Sample.frugal ++ [Sample.proposal]) =
        .up impl ∧ impl.policy.maxRetainedPlans = 1 ∧ impl.nextPlan = 3 ∧
      impl.plans.size ≤ impl.policy.maxRetainedPlans.toNat := by
  have hchecks : checks World.step Sample.modest (.down {})
      (Sample.planned Sample.frugal ++ [Sample.proposal]) = true := by
    decide +kernel
  have hrun : (run World.step (.down {}) (Sample.planned Sample.frugal ++
      [Sample.proposal])).passes (fun impl =>
        impl.policy.maxRetainedPlans == 1 && impl.nextPlan == 3) = true := by
    decide +kernel
  obtain ⟨impl, hup, htest⟩ := World.up_of_passes hrun
  rw [Bool.and_eq_true, beq_iff_eq, beq_iff_eq] at htest
  exact ⟨impl, hup, htest.1, htest.2, retained_plans_bounded {} _ impl
    (meets_of_checks Sample.modest_sound hchecks) hup⟩

/-- Two plans that do not validate are retained where one is the bound. -/
theorem rejected_plans_beyond_bound :
    ∃ impl, run World.step (.down {}) Sample.proposedTwice = .up impl ∧
      impl.policy.maxRetainedPlans = 1 ∧ impl.plans.size = 2 ∧
      ∀ entry ∈ impl.plans.toList, entry.2.state = .rejected := by
  have hrun : (run World.step (.down {}) Sample.proposedTwice).passes (fun impl =>
      impl.policy.maxRetainedPlans == 1 && impl.plans.size == 2 &&
        impl.plans.toList.all fun entry => entry.2.state == .rejected) = true := by
    decide +kernel
  obtain ⟨impl, hup, htest⟩ := World.up_of_passes hrun
  simp only [Bool.and_eq_true, beq_iff_eq, List.all_eq_true] at htest
  exact ⟨impl, hup, htest.1.1, htest.1.2, htest.2⟩

end SwitchFailover.Runtime
