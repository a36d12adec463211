import SwitchFailover.Persist.Payloads
import SwitchFailover.Plan.Encoding
import SwitchFailover.Runtime.Footprints
import SwitchFailover.Runtime.PlanCourses

/-!
# The identities of plans

Every plan gets the next value of a counter.  The counter is no part of the journal and
starts over in every incarnation, while the plans of earlier incarnations are restored.
So an identity is new as long as the coordinator was opened over a journal that says
nothing about plans, and may be taken already otherwise.
-/

namespace SwitchFailover.Runtime

open SwitchFailover.Core Model Plan Persist Codec Library.Codec Library.Effects Library.Transitions

variable {outcome : Except Stop ApplyReceipt} {config : CoordinatorConfig} {disk : Disk}

variable {plan request : ReconstructionPlan} {failed : GenerationVector} {impl last : Impl}
  {env : Env}

/-! ## Records that name plans -/

/-- A record carries the identity of a plan. -/
def Names (record : Record) (id : PlanId) : Prop :=
  (record.header.kind = RecordKind.planCommitted.raw ∧ ∃ limits plan,
      ReconstructionPlan.decode record.payload limits = .ok plan ∧ plan.id = id) ∨
    (record.header.kind = RecordKind.applyCompleted.raw ∧ ∃ steps,
      decodeApplyReceipt record.payload = .ok (id, steps))

theorem Names.aboutPlan {record : Record} {id : PlanId} (hnames : Names record id) :
    AboutPlan record := by
  rcases hnames with ⟨hkind, -⟩ | ⟨hkind, -⟩
  · exact Or.inl hkind
  · exact Or.inr hkind

/-- A record with this payload names no other plan. -/
def Tells (kind : RecordKind) (payload : Bytes) (id : PlanId) : Prop :=
  ∀ (store : DurableStore) (other : PlanId), Names (store.recordFor kind payload) other →
    other = id

theorem tells_encode (plan : ReconstructionPlan) : Tells .planCommitted plan.encode plan.id := by
  rintro store other (⟨-, limits, decoded, hdecode, rfl⟩ | ⟨hkind, -⟩)
  · rw [recordFor_payload] at hdecode
    exact ReconstructionPlan.id_of_decode_encode hdecode
  · cases kind_of_recordFor hkind

theorem tells_encodeApplyReceipt (receipt : ApplyReceipt) :
    Tells .applyCompleted (encodeApplyReceipt receipt) receipt.plan := by
  rintro store other (⟨hkind, -⟩ | ⟨-, steps, hdecode⟩)
  · cases kind_of_recordFor hkind
  · rw [recordFor_payload] at hdecode
    exact plan_of_decode_encodeApplyReceipt hdecode

/-- The records that have been added name no plan but one. -/
def GrowsAbout (id : PlanId) (first last : Disk) : Prop :=
  ∀ record ∈ last.completed, record ∈ first.completed ∨ ∀ other, Names record other → other = id

theorem growsAbout_append {kind : RecordKind} {payload : Bytes} {id : PlanId}
    (htells : Tells kind payload id) (store : DurableStore) (disk : Disk) (fate : Fate) :
    GrowsAbout id disk (store.append disk fate kind payload).2.2 := by
  intro record hrecord
  rcases completed_append store disk fate kind payload with hsame | hadded
  · rw [hsame] at hrecord
    exact Or.inl hrecord
  · rw [hadded] at hrecord
    rcases List.mem_append.mp hrecord with hearly | hlate
    · exact Or.inl hearly
    · rw [List.mem_singleton.mp hlate]
      exact Or.inr (htells store)

/-! ## What an application leaves behind -/

/-- A plan has been kept in other states and its records written; the counter stands. -/
structure Rewrites (id : PlanId) (first last : Impl) : Prop where
  nextPlan : last.nextPlan = first.nextPlan
  plans : ∀ (other : PlanId) (plan : ReconstructionPlan), last.plans[other]? = some plan →
    first.plans[other]? = some plan ∨ (other = id ∧ plan.id = id)
  records : GrowsAbout id first.disk last.disk

section Rewrites

variable {id : PlanId} {first middle : Impl}

theorem Rewrites.of_same (hnext : last.nextPlan = first.nextPlan)
    (hplans : last.plans = first.plans) (hdisk : last.disk = first.disk) :
    Rewrites id first last where
  nextPlan := hnext
  plans := by
    intro other plan hplan
    rw [hplans] at hplan
    exact Or.inl hplan
  records := by
    intro record hrecord
    rw [hdisk] at hrecord
    exact Or.inl hrecord

theorem Rewrites.trans (hfirst : Rewrites id first middle) (hlast : Rewrites id middle last) :
    Rewrites id first last where
  nextPlan := hlast.nextPlan.trans hfirst.nextPlan
  plans := by
    intro other plan hplan
    rcases hlast.plans other plan hplan with hmiddle | hmoved
    · exact hfirst.plans other plan hmiddle
    · exact Or.inr hmoved
  records := by
    intro record hrecord
    rcases hlast.records record hrecord with hmiddle | hnew
    · exact hfirst.records record hmiddle
    · exact Or.inr hnew

theorem rewrites_retaining (impl : Impl) (hid : plan.id = id) :
    Rewrites id impl (impl.retaining plan) where
  nextPlan := rfl
  plans := by
    intro other kept hkept
    rw [Impl.retaining, Std.TreeMap.getElem?_insert] at hkept
    split at hkept
    · rename_i hsame
      cases hkept
      exact Or.inr ⟨(Std.LawfulEqOrd.eq_of_compare hsame).symm.trans hid, hid⟩
    · exact Or.inl hkept
  records := fun _ hrecord => Or.inl hrecord

variable {kind : RecordKind} {payload : Bytes}

theorem rewrites_appended (htells : Tells kind payload id) (impl : Impl) (store : DurableStore)
    (fate : Fate) : Rewrites id impl (impl.appended store fate kind payload) where
  nextPlan := rfl
  plans := fun _ _ hplan => Or.inl hplan
  records := growsAbout_append htells store impl.disk fate

theorem rewrites_journaled (htells : Tells kind payload id) (impl : Impl) :
    Rewrites id impl (impl.journaled kind payload) := by
  rw [Impl.journaled]
  split
  · exact .of_same rfl rfl rfl
  · exact rewrites_appended htells impl _ _

end Rewrites

theorem rewrites_begun (impl : Impl) (plan : ReconstructionPlan) :
    Rewrites plan.id impl (impl.begun plan) := by
  have hannounced := rewrites_journaled (tells_encode (plan.inState .applying)) impl
  have hsame : (plan.inState .applying).id = plan.id := rfl
  exact (hannounced.trans (rewrites_retaining _ hsame)).trans (.of_same rfl rfl rfl)

theorem Impl.Carries.rewrites {middle : Impl} {results : List ApplyStepResult}
    (hcarries : impl.Carries env request plan results middle) : Rewrites plan.id impl middle := by
  obtain ⟨_, _, rfl⟩ := hcarries.looped.frame
  exact (rewrites_begun impl plan).trans (.of_same rfl rfl rfl)

theorem plan_receiptOf (impl : Impl) (plan : ReconstructionPlan)
    (results : List ApplyStepResult) : (receiptOf impl plan results).plan = plan.id := by
  have hfold : ∀ receipt : ApplyReceipt,
      (results.foldl receiptWith receipt).plan = receipt.plan := by
    induction results with
    | nil => exact fun _ => rfl
    | cons result results ih => exact fun receipt => ih (receiptWith receipt result)
  exact hfold (emptyReceipt impl plan)

theorem tells_receiptOf (impl : Impl) (plan : ReconstructionPlan) (results : List ApplyStepResult) :
    Tells .applyCompleted (encodeApplyReceipt (receiptOf impl plan results)) plan.id := by
  rw [← plan_receiptOf impl plan results]
  exact tells_encodeApplyReceipt _

theorem Applied.rewrites (happlied : Applied impl env request outcome last) :
    last = impl ∨ ∃ plan, impl.plans[request.id]? = some plan ∧ Rewrites plan.id impl last := by
  cases happlied with
  | refused => exact Or.inl rfl
  | rejected plan status hplan hinvalid =>
    exact Or.inr ⟨plan, hplan, rewrites_retaining impl rfl⟩
  | emptyUnwritten plan store stop hplan hbalks =>
    exact Or.inr ⟨plan, hplan.retained,
      rewrites_appended (tells_encodeApplyReceipt (emptyReceiptOf impl plan)) impl store _⟩
  | empty plan hplan htakes =>
    have hjournaled := rewrites_journaled (tells_encodeApplyReceipt (emptyReceiptOf impl plan)) impl
    exact Or.inr ⟨plan, hplan.retained, hjournaled.trans (rewrites_retaining _ rfl)⟩
  | unannounced plan store stop hplan hbalks =>
    exact Or.inr ⟨plan, hplan.retained,
      rewrites_appended (tells_encode (plan.inState .applying)) impl store _⟩
  | unreceipted plan results middle store stop hcarries hbalks =>
    exact Or.inr ⟨plan, hcarries.retained, hcarries.rewrites.trans
      (rewrites_appended (tells_receiptOf impl plan results) middle store _)⟩
  | unconcluded plan results middle store stop hcarries htakes hbalks =>
    have hreceipted := hcarries.rewrites.trans
      (rewrites_journaled (tells_receiptOf impl plan results) middle)
    exact Or.inr ⟨plan, hcarries.retained, hreceipted.trans
      (rewrites_appended (tells_encode (concludedPlan plan _)) _ store _)⟩
  | concluded plan results middle hcarries hreceipt hplan =>
    have hreceipted := hcarries.rewrites.trans
      (rewrites_journaled (tells_receiptOf impl plan results) middle)
    have hconcluded := hreceipted.trans
      (rewrites_journaled (tells_encode (concludedPlan plan (receiptOf impl plan results))) _)
    exact Or.inr ⟨plan, hcarries.retained, hconcluded.trans (rewrites_retaining _ rfl)⟩

/-! ## The counter is ahead -/

/-- The counter is beyond every identity that is retained or in the journal. -/
structure Numbered (impl : Impl) : Prop where
  positive : 0 < impl.nextPlan.toNat
  retained : ∀ (id : PlanId) (plan : ReconstructionPlan), impl.plans[id]? = some plan →
    plan.id = id ∧ id.raw.toNat < impl.nextPlan.toNat
  journaled : ∀ record ∈ impl.disk.completed, ∀ id, Names record id →
    id.raw.toNat < impl.nextPlan.toNat

section Numbered

theorem Numbered.rewrites {id : PlanId} (hnumbered : Numbered impl)
    (hplan : impl.plans[id]? = some plan) (hrewrites : Rewrites plan.id impl last) :
    Numbered last := by
  obtain ⟨hid, hbelow⟩ := hnumbered.retained id plan hplan
  rw [← hid] at hbelow
  refine ⟨?_, ?_, ?_⟩
  · rw [hrewrites.nextPlan]
    exact hnumbered.positive
  · intro other kept hkept
    rw [hrewrites.nextPlan]
    rcases hrewrites.plans other kept hkept with hbefore | ⟨rfl, hsame⟩
    · exact hnumbered.retained other kept hbefore
    · exact ⟨hsame, hbelow⟩
  · intro record hrecord other hnames
    rw [hrewrites.nextPlan]
    rcases hrewrites.records record hrecord with hbefore | honly
    · exact hnumbered.journaled record hbefore other hnames
    · rw [honly other hnames]
      exact hbelow

theorem Numbered.applied (hnumbered : Numbered impl)
    (happlied : Applied impl env request outcome last) : Numbered last := by
  rcases happlied.rewrites with rfl | ⟨plan, hplan, hrewrites⟩
  · exact hnumbered
  · exact hnumbered.rewrites hplan hrewrites

theorem Numbered.confined {footprint : Footprint} (hnumbered : Numbered impl)
    (hconfined : Confined footprint impl last) : Numbered last := by
  refine ⟨?_, ?_, ?_⟩
  · rw [hconfined.nextPlan]
    exact hnumbered.positive
  · intro id plan hplan
    obtain ⟨before, hbefore, hid, -⟩ := hconfined.plans id plan hplan
    rw [hconfined.nextPlan, hid]
    exact hnumbered.retained id before hbefore
  · intro record hrecord id hnames
    obtain ⟨added, hadded, hothers⟩ := hconfined.records
    rw [hconfined.nextPlan]
    rw [hadded] at hrecord
    rcases List.mem_append.mp hrecord with hearly | hlate
    · exact hnumbered.journaled record hearly id hnames
    · exact absurd hnames.aboutPlan (hothers record hlate)

/-- A proposal takes the value of the counter. -/
theorem Numbered.proposal_id (hnumbered : Numbered impl)
    (hplan : planReconstruction (impl.proposal env) failed = .ok plan) :
    plan.id = ⟨impl.nextPlan⟩ := by
  have hnonzero : impl.nextPlan ≠ 0 := by
    intro hzero
    have hpositive := hnumbered.positive
    rw [hzero] at hpositive
    exact absurd hpositive (by decide)
  rw [SwitchFailover.Runtime.proposal_id hplan, if_neg hnonzero]

theorem toNat_add_one {number : UInt64} (hnext : number + 1 ≠ 0) :
    (number + 1).toNat = number.toNat + 1 := by
  have hbound := number.toNat_lt
  have hsum : (number + 1).toNat = (number.toNat + 1) % 2 ^ 64 := UInt64.toNat_add number 1
  have hnonzero : (number + 1).toNat ≠ 0 := fun hzero => hnext (UInt64.toNat_inj.mp hzero)
  omega

theorem Numbered.retain {plans : Std.TreeMap PlanId ReconstructionPlan}
    (hnumbered : Numbered impl) (hid : plan.id = ⟨impl.nextPlan⟩) (hnext : impl.nextPlan + 1 ≠ 0)
    (hsubset : ∀ (id : PlanId) (other : ReconstructionPlan), plans[id]? = some other →
      impl.plans[id]? = some other) :
    Numbered (Impl.retaining { impl with nextPlan := impl.nextPlan + 1, plans } plan) := by
  have hgrown : (impl.nextPlan + 1).toNat = impl.nextPlan.toNat + 1 := toNat_add_one hnext
  refine ⟨?_, ?_, ?_⟩
  · change 0 < (impl.nextPlan + 1).toNat
    omega
  · intro id other hother
    change other.id = id ∧ id.raw.toNat < (impl.nextPlan + 1).toNat
    rw [Impl.retaining, Std.TreeMap.getElem?_insert] at hother
    split at hother
    · rename_i hsame
      cases hother
      have heq := Std.LawfulEqOrd.eq_of_compare hsame
      refine ⟨heq, ?_⟩
      rw [← heq, hid]
      change impl.nextPlan.toNat < _
      omega
    · obtain ⟨hfiled, hbelow⟩ := hnumbered.retained id other (hsubset id other hother)
      exact ⟨hfiled, by omega⟩
  · intro record hrecord id hnames
    have hbelow := hnumbered.journaled record hrecord id hnames
    change id.raw.toNat < (impl.nextPlan + 1).toNat
    omega

theorem Numbered.proposed {outcome : Except Stop ReconstructionPlan} (hnumbered : Numbered impl)
    (hnext : impl.nextPlan + 1 ≠ 0) (hproposed : Proposed impl env failed outcome last) :
    Numbered last := by
  cases hproposed with
  | refused => exact hnumbered
  | accepted plan hplan hvalid =>
    have hid : plan.id = ⟨impl.nextPlan⟩ := hnumbered.proposal_id hplan
    have hmoved : (plan.inState .validated).id = ⟨impl.nextPlan⟩ := hid
    exact hnumbered.retain hmoved hnext fun _ _ hother => retirePlans_subset _ _ _ hother
  | rejected plan status hplan hinvalid =>
    have hid : plan.id = ⟨impl.nextPlan⟩ := hnumbered.proposal_id hplan
    have hmoved : (plan.inState .rejected).id = ⟨impl.nextPlan⟩ := hid
    exact hnumbered.retain hmoved hnext fun _ _ hother => hother

end Numbered

/-! ## Runs -/

/-- The steps under which identities stay new: a coordinator is opened over a journal that
says nothing about plans, and the counter does not wrap. -/
def Unnumbered : World → Event → Prop
  | .down disk, .boot config process env =>
      (∀ record ∈ disk.completed, ¬AboutPlan record) ∧
        (openOver disk config process env).2.impl.plans.isEmpty = true
  | .up impl, .call (.proposePlan _) _ => impl.nextPlan + 1 ≠ 0
  | _, _ => True

def World.Numbered : World → Prop
  | .down _ => True
  | .up impl => Runtime.Numbered impl

theorem opened_nextPlan {process : Process}
    (hopened : Opened config process env disk (.ok ()) impl) :
    impl.nextPlan = 1 := by
  cases hopened with
  | started hlimits hdurable => rfl
  | restored store trimmed opening outcome last hlimits hdurable hopen hannounced =>
    obtain ⟨_, _, rfl⟩ := hannounced.frame
    rfl

theorem numbered_of_opened {process : Process}
    (hopened : Opened config process env disk (.ok ()) impl)
    (hsilent : ∀ record ∈ disk.completed, ¬AboutPlan record) (hempty : impl.plans.isEmpty = true) :
    Numbered impl := by
  refine ⟨?_, ?_, ?_⟩
  · rw [opened_nextPlan hopened]
    decide
  · intro id plan hplan
    rw [Std.TreeMap.getElem?_of_isEmpty hempty] at hplan
    cases hplan
  · intro record hrecord id hnames
    obtain ⟨added, hadded, hothers⟩ := hopened.growsBeside
    rw [hadded] at hrecord
    rcases List.mem_append.mp hrecord with hearly | hlate
    · exact absurd hnames.aboutPlan (hsilent record hearly)
    · exact absurd hnames.aboutPlan (hothers record hlate)

theorem numbered_call {operation : Operation}
    (hunnumbered : Unnumbered (.up impl) (.call operation env)) (hnumbered : Numbered impl) :
    Numbered (callOn impl operation.call env).2.impl := by
  rcases operation.plans_or_isBeside with ⟨failed, rfl⟩ | ⟨request, rfl⟩ | hbeside
  · obtain ⟨outcome, hproposed⟩ := callOn_proposed impl env failed
    exact hnumbered.proposed hunnumbered hproposed
  · obtain ⟨outcome, happlied, -⟩ := callOn_applied impl env request
    exact hnumbered.applied happlied
  · exact hnumbered.confined (callOn_confined hbeside impl env)

theorem numbered_step (world : World) (event : Event) (hunnumbered : Unnumbered world event)
    (hnumbered : world.Numbered) : (world.step event).Numbered := by
  cases world with
  | down disk =>
    cases event with
    | boot config process env =>
      rw [World.step]
      have hcourse := openOver_spec disk config process env
      cases hopened : openOver disk config process env with
      | mk outcome state =>
        cases outcome with
        | error stop => trivial
        | ok value =>
          rw [Unnumbered, hopened] at hunnumbered
          rw [hopened] at hcourse
          exact numbered_of_opened hcourse hunnumbered.1 hunnumbered.2
    | call operation env => trivial
    | exit => trivial
  | up impl =>
    cases event with
    | boot config process env => exact hnumbered
    | exit => trivial
    | call operation env =>
      have hnext := numbered_call hunnumbered hnumbered
      rw [World.step]
      split
      · trivial
      · rename_i hcall
        rw [hcall] at hnext
        exact hnext

/-- Under a new identity a proposal keeps or evicts each retained plan and overwrites none. -/
theorem Proposed.kept {outcome : Except Stop ReconstructionPlan}
    (hproposed : Proposed impl env failed outcome last)
    (hfresh : ∀ plan, planReconstruction (impl.proposal env) failed = .ok plan →
      plan.id ∉ impl.plans) {id : PlanId} {kept : ReconstructionPlan}
    (hkept : impl.plans[id]? = some kept) :
    last.plans[id]? = some kept ∨ last.plans[id]? = none := by
  have hinsert : ∀ (plans : Std.TreeMap PlanId ReconstructionPlan) (plan : ReconstructionPlan),
      plan.id ∉ impl.plans → (plans[id]? = some kept ∨ plans[id]? = none) →
        (plans.insert plan.id plan)[id]? = some kept ∨ (plans.insert plan.id plan)[id]? = none := by
    intro plans plan hnew hbefore
    rw [Std.TreeMap.getElem?_insert, if_neg]
    · exact hbefore
    · intro hsame
      apply hnew
      rw [Std.LawfulEqOrd.eq_of_compare hsame, Std.TreeMap.mem_iff_isSome_getElem?, hkept]
      rfl
  cases hproposed with
  | refused => exact Or.inl hkept
  | accepted plan hplan hvalid =>
    refine hinsert _ (plan.inState .validated) (hfresh plan hplan) ?_
    cases hretired : (retirePlans impl.policy.maxRetainedPlans.toNat impl.plans.size
        impl.plans)[id]? with
    | none => exact Or.inr rfl
    | some other =>
      have hsame := retirePlans_subset _ _ _ hretired
      rw [hkept] at hsame
      exact Or.inl hsame.symm
  | rejected plan status hplan hinvalid =>
    exact hinsert _ (plan.inState .rejected) (hfresh plan hplan) (Or.inl hkept)

/-- Along every run in which coordinators open over journals without plans, a proposal takes
an identity that is neither retained nor in the journal, and overwrites no plan. -/
theorem proposed_identity_fresh (disk : Disk) (events : List Event) (impl : Impl)
    (hunnumbered : Meets World.step Unnumbered (.down disk) events)
    (hrun : run World.step (.down disk) events = .up impl) (env : Env)
    (failed : GenerationVector) :
    (∀ plan, planReconstruction (impl.proposal env) failed = .ok plan →
      plan.id ∉ impl.plans ∧ ∀ record ∈ impl.disk.completed, ¬Names record plan.id) ∧
    ∀ (id : PlanId) (kept : ReconstructionPlan), impl.plans[id]? = some kept →
      (callOn impl (Operation.proposePlan failed).call env).2.impl.plans[id]? = some kept ∨
        (callOn impl (Operation.proposePlan failed).call env).2.impl.plans[id]? = none := by
  have hworld : (run World.step (.down disk) events).Numbered :=
    invariant_of_meets numbered_step hunnumbered trivial
  rw [hrun] at hworld
  have hnumbered : Numbered impl := hworld
  have hfresh : ∀ plan, planReconstruction (impl.proposal env) failed = .ok plan →
      plan.id ∉ impl.plans ∧ ∀ record ∈ impl.disk.completed, ¬Names record plan.id := by
    intro plan hplan
    have hid := hnumbered.proposal_id hplan
    refine ⟨fun hmem => ?_, fun record hrecord hnames => ?_⟩
    · obtain ⟨kept, hkept⟩ := Option.isSome_iff_exists.mp
        (Std.TreeMap.mem_iff_isSome_getElem?.mp hmem)
      have hbelow := (hnumbered.retained plan.id kept hkept).2
      rw [hid] at hbelow
      exact absurd hbelow (Nat.lt_irrefl _)
    · have hbelow := hnumbered.journaled record hrecord plan.id hnames
      rw [hid] at hbelow
      exact absurd hbelow (Nat.lt_irrefl _)
  obtain ⟨outcome, hproposed⟩ := callOn_proposed impl env failed
  exact ⟨hfresh, fun id kept hkept =>
    hproposed.kept (fun plan hplan => (hfresh plan hplan).1) hkept⟩

namespace Sample

/-- The first plan is carried out. -/
def carriedOut : List Event := planned durable ++ [.call (.applyPlan firstPlan) calm]

/-- A second incarnation has the same fabric. -/
def reopened : List Event :=
  carriedOut ++ [.exit, .boot durable process calm, .call (.installTopology topology) calm,
    .call (.installCandidates candidates) calm]

def unnumbered : World → Event → Bool
  | .down disk, .boot config process env =>
      (disk.completed.all fun record =>
        record.header.kind != RecordKind.planCommitted.raw &&
          record.header.kind != RecordKind.applyCompleted.raw) &&
        (openOver disk config process env).2.impl.plans.isEmpty
  | .up impl, .call (.proposePlan _) _ => impl.nextPlan + 1 != 0
  | _, _ => true

theorem unnumbered_sound (world : World) (event : Event)
    (hunnumbered : unnumbered world event = true) : Unnumbered world event := by
  cases world with
  | down disk =>
    cases event with
    | boot config process env =>
      simp only [unnumbered, Bool.and_eq_true, List.all_eq_true, bne_iff_ne] at hunnumbered
      obtain ⟨hsilent, hempty⟩ := hunnumbered
      refine ⟨fun record hrecord habout => ?_, hempty⟩
      rcases habout with hcommitted | hcompleted
      · exact (hsilent record hrecord).1 hcommitted
      · exact (hsilent record hrecord).2 hcompleted
    | _ => trivial
  | up impl =>
    cases event with
    | call operation env =>
      cases operation with
      | proposePlan failed => exact bne_iff_ne.mp hunnumbered
      | _ => trivial
    | _ => trivial

end Sample

set_option maxRecDepth 4000 in
/-- After an application the next plan gets an identity that is not in the journal. -/
theorem proposed_identity_fresh_second :
    ∃ impl plan, run World.step (.down {}) Sample.carriedOut = .up impl ∧
      planReconstruction (impl.proposal Sample.calm)
        (GenerationVector.empty.insert Sample.switchA) = .ok plan ∧
      impl.plans.size = 1 ∧ plan.id ∉ impl.plans ∧
      ∀ record ∈ impl.disk.completed, ¬Names record plan.id := by
  have hchecks : checks World.step Sample.unnumbered (.down {}) Sample.carriedOut = true := by
    decide +kernel
  have hrun : (run World.step (.down {}) Sample.carriedOut).passes (fun impl =>
      impl.plans.size == 1 && (planReconstruction (impl.proposal Sample.calm)
        (GenerationVector.empty.insert Sample.switchA)).toOption.isSome) = true := by
    decide +kernel
  obtain ⟨impl, hup, htest⟩ := World.up_of_passes hrun
  rw [Bool.and_eq_true, beq_iff_eq] at htest
  cases hplan : planReconstruction (impl.proposal Sample.calm)
      (GenerationVector.empty.insert Sample.switchA) with
  | error status =>
      rw [hplan] at htest
      cases htest.2
  | ok plan =>
      obtain ⟨hfresh, hsilent⟩ := (proposed_identity_fresh {} _ impl
        (meets_of_checks Sample.unnumbered_sound hchecks) hup Sample.calm _).1 plan hplan
      exact ⟨impl, plan, hup, hplan, htest.1, hfresh, hsilent⟩

set_option maxRecDepth 4000 in
/-- In a second incarnation the first plan that is made overwrites the plan restored from
the journal, which the first incarnation has carried out. -/
theorem restored_plan_overwritten :
    ∃ impl kept plan other, run World.step (.down {}) Sample.reopened = .up impl ∧
      impl.plans[(⟨1⟩ : PlanId)]? = some kept ∧ kept.state = .applied ∧
      (∃ record ∈ impl.disk.completed, Names record ⟨1⟩) ∧
      planReconstruction (impl.proposal Sample.calm)
        (GenerationVector.empty.insert Sample.switchA) = .ok plan ∧ plan.id = ⟨1⟩ ∧
      (callOn impl (Operation.proposePlan (GenerationVector.empty.insert Sample.switchA)).call
        Sample.calm).2.impl.plans[(⟨1⟩ : PlanId)]? = some other ∧ other.state = .validated := by
  have hrun : (run World.step (.down {}) Sample.reopened).passes (fun impl =>
      (impl.plans[(⟨1⟩ : PlanId)]?.any fun kept => kept.state == .applied) &&
      (impl.disk.completed.any fun record =>
        record.header.kind == RecordKind.planCommitted.raw &&
          (ReconstructionPlan.decode record.payload {}).toOption.any fun plan => plan.id == ⟨1⟩) &&
      ((planReconstruction (impl.proposal Sample.calm)
        (GenerationVector.empty.insert Sample.switchA)).toOption.any fun plan => plan.id == ⟨1⟩) &&
      ((callOn impl (Operation.proposePlan (GenerationVector.empty.insert Sample.switchA)).call
        Sample.calm).2.impl.plans[(⟨1⟩ : PlanId)]?.any fun other => other.state == .validated)) =
          true := by
    decide +kernel
  obtain ⟨impl, hup, htest⟩ := World.up_of_passes hrun
  simp only [Bool.and_eq_true, Option.any_eq_true, List.any_eq_true, beq_iff_eq] at htest
  obtain ⟨⟨⟨⟨kept, hkept, happlied⟩, record, hrecord, hkind, decoded, hdecoded, hnamed⟩, plan,
    hplan, hid⟩, other, hother, hvalidated⟩ := htest
  exact ⟨impl, kept, plan, other, hup, hkept, happlied,
    ⟨record, hrecord, Or.inl ⟨hkind, {}, decoded, ok_of_toOption hdecoded, hnamed⟩⟩,
    ok_of_toOption hplan, hid, hother, hvalidated⟩

end SwitchFailover.Runtime
