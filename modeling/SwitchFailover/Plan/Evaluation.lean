import SwitchFailover.Plan.Search

/-!
# What candidate evaluation establishes

An eligible alternative was supplied for exactly this demand, every hop of it passed
every check, and it stands in the order of cost.  Whatever was refused was refused for
a reason that is a proof of absence.
-/

namespace SwitchFailover.Plan

open SwitchFailover.Core Model Library.Ordering

variable {inputs : PlanInputs} {demand : Demand} {candidate : ReconstructionCandidate}
  {first rest : Except Rejection Unit} {condition : Prop} {outcome : Code}
  {reason : UnresolvedReason} {detail : String}

/-! ## Verdicts -/

theorem verdict_bind_eq_ok :
    (first >>= fun _ => rest) = .ok () ↔ first = .ok () ∧ rest = .ok () := by
  cases first with
  | error rejection => simp [bind, Except.bind]
  | ok _ => simp [bind, Except.bind]

/-- A step of the judgement that refuses when a condition holds. -/
theorem rejectWhen_eq_ok [Decidable condition] :
    (if condition then (reject outcome reason detail >>= fun _ => rest) else rest) = .ok () ↔
      ¬ condition ∧ rest = .ok () := by
  by_cases hcondition : condition
  · simp [hcondition, reject, bind, Except.bind]
  · simp [hcondition]

theorem reject_eq_ok : reject outcome reason detail = .ok () ↔ False := by
  simp [reject]

/-- The policy on capabilities, for one hop. -/
def CapabilityHolds (inputs : PlanInputs) (demand : Demand) (candidate : ReconstructionCandidate)
    (descriptor : SwitchDescriptor) : Prop :=
  inputs.planning.requireCapabilitySuperset = true →
    hasAllCapabilities descriptor.capabilities
        (inputs.requiredCapabilities demand.dependent) = true ∧
      hasAllCapabilities candidate.capabilities
        (inputs.requiredCapabilities demand.dependent) = true

/-- The policy on failure domains, for one hop. -/
def SeparationHolds (inputs : PlanInputs) (demand : Demand) (descriptor : SwitchDescriptor) :
    Prop :=
  inputs.planning.allowReplacementInSameFailureDomain = false →
    ∃ failedDescriptor, inputs.snapshot.findSwitch demand.failed = some failedDescriptor ∧
      failedDescriptor.failureDomain.valid = true ∧ descriptor.failureDomain.valid = true ∧
      descriptor.failureDomain ≠ failedDescriptor.failureDomain

/-- What the checks on one hop establish. -/
structure HopAdmissible (inputs : PlanInputs) (demand : Demand)
    (candidate : ReconstructionCandidate) (hop : SwitchKey) : Prop where
  notCovered : hop ≠ demand.failed
  unfenced : inputs.isFenced hop = false
  noConflict : (inputs.assess hop).outcome ≠ .conflict
  noObligation : (inputs.assess hop).fenceRequired = false
  known : ∃ descriptor, inputs.snapshot.findSwitch hop = some descriptor ∧
    CapabilityHolds inputs demand candidate descriptor ∧
    SeparationHolds inputs demand descriptor ∧ descriptor.capacityScore ≠ 0

theorem judgeCapability_eq_ok {descriptor : SwitchDescriptor} :
    judgeCapability inputs demand candidate descriptor = .ok () ↔
      CapabilityHolds inputs demand candidate descriptor := by
  rw [judgeCapability, CapabilityHolds]
  split_ifs with hpolicy hhop hcandidate
  · simp_all [pure, Except.pure]
  · simp_all [reject]
  · simp_all [reject]
  · simp_all [pure, Except.pure]

theorem judgeSeparation_eq_ok {descriptor : SwitchDescriptor} :
    judgeSeparation inputs demand descriptor = .ok () ↔
      SeparationHolds inputs demand descriptor := by
  rw [judgeSeparation, SeparationHolds]
  by_cases hpolicy : inputs.planning.allowReplacementInSameFailureDomain = true
  · simp [hpolicy, pure, Except.pure]
  · rw [if_neg hpolicy]
    cases hfailed : inputs.snapshot.findSwitch demand.failed with
    | none => simp_all [reject]
    | some failedDescriptor =>
      dsimp only
      split_ifs with hvalid hsame
      · rcases Bool.or_eq_true _ _ ▸ hvalid with hfailedDomain | hdomain
        · simp_all [reject]
        · simp_all [reject]
      · simp_all [reject]
      · simp_all [pure, Except.pure]

theorem judgeHop_eq_ok (hop : SwitchKey) :
    judgeHop inputs demand candidate hop = .ok () ↔ HopAdmissible inputs demand candidate hop := by
  rw [judgeHop]
  dsimp only
  rw [rejectWhen_eq_ok]
  cases hfound : inputs.snapshot.findSwitch hop with
  | none =>
    constructor
    · rintro ⟨-, hok⟩
      dsimp only at hok
      split_ifs at hok
      · cases hok
      · cases hok
    · intro hadmissible
      obtain ⟨descriptor, hknown, -⟩ := hadmissible.known
      rw [hfound] at hknown
      cases hknown
  | some descriptor =>
    dsimp only
    simp only [rejectWhen_eq_ok, verdict_bind_eq_ok, judgeCapability_eq_ok, judgeSeparation_eq_ok]
    constructor
    · rintro ⟨hcovered, hfenced, hconflict, hobligation, hcapability, hseparation, hok⟩
      refine ⟨hcovered, by simpa using hfenced, hconflict, by simpa using hobligation,
        descriptor, hfound, hcapability, hseparation, ?_⟩
      intro hzero
      rw [if_pos hzero] at hok
      cases hok
    · intro hadmissible
      obtain ⟨known, hknown, hcapability, hseparation, hcapacity⟩ := hadmissible.known
      rw [hfound] at hknown
      cases hknown
      refine ⟨hadmissible.notCovered, by simp [hadmissible.unfenced], hadmissible.noConflict,
        by simp [hadmissible.noObligation], hcapability, hseparation, ?_⟩
      rw [if_neg hcapacity]
      rfl

/-- What the judgement of an alternative establishes. -/
structure CandidateAdmissible (inputs : PlanInputs) (demand : Demand)
    (candidate : ReconstructionCandidate) : Prop where
  covers : candidate.coversFailed = demand.failed
  origin : inputs.planning.requireAuthoritativeCandidateEvidence = true →
    trustOf candidate.source = .authoritative
  hops : ∀ hop ∈ candidate.hops, HopAdmissible inputs demand candidate hop

theorem verdict_forM_eq_ok {A : Type} {judge : A → Except Rejection Unit} {values : List A} :
    values.forM judge = .ok () ↔ ∀ value ∈ values, judge value = .ok () := by
  induction values with
  | nil => simp [pure, Except.pure]
  | cons value rest ih =>
    rw [List.forM_eq_forM, List.forM_cons, List.forall_mem_cons, ← ih]
    exact verdict_bind_eq_ok

theorem judgeCandidate_eq_ok :
    judgeCandidate inputs demand candidate = .ok () ↔
      CandidateAdmissible inputs demand candidate := by
  rw [judgeCandidate]
  dsimp only
  by_cases hcovers : candidate.coversFailed = demand.failed
  · rw [if_neg (not_not.mpr hcovers), rejectWhen_eq_ok, verdict_forM_eq_ok]
    simp only [judgeHop_eq_ok, Bool.and_eq_true, bne_iff_ne, not_and, not_not]
    constructor
    · rintro ⟨horigin, hhops⟩
      exact ⟨hcovers, horigin, hhops⟩
    · intro hadmissible
      exact ⟨hadmissible.origin, hadmissible.hops⟩
  · rw [if_pos hcovers]
    constructor
    · intro hok
      split_ifs at hok
      all_goals exact absurd (verdict_bind_eq_ok.mp hok).1 reject_eq_ok.mp
    · intro hadmissible
      exact absurd hadmissible.covers hcovers

/-! ## Refusals are proofs of absence -/

/-- Whatever the judgement refuses for is a proven negative. -/
def Conclusive (verdict : Except Rejection Unit) : Prop :=
  ∀ rejection, verdict = .error rejection → isProvenNegative rejection.reason = true

theorem conclusive_pure : Conclusive (pure ()) := by
  intro rejection hrefused
  cases hrefused

theorem conclusive_reject (hreason : isProvenNegative reason = true) :
    Conclusive (reject outcome reason detail) := by
  intro rejection hrefused
  cases hrefused
  exact hreason

theorem Conclusive.bind (hfirst : Conclusive first) (hrest : Conclusive rest) :
    Conclusive (first >>= fun _ => rest) := by
  cases first with
  | error rejection =>
    intro refused hrefused
    cases hrefused
    exact hfirst rejection rfl
  | ok _ => exact hrest

theorem conclusive_ite [Decidable condition] {second : Except Rejection Unit}
    (hfirst : Conclusive first) (hsecond : Conclusive second) :
    Conclusive (if condition then first else second) := by
  split_ifs
  · exact hfirst
  · exact hsecond

theorem conclusive_forM {A : Type} {judge : A → Except Rejection Unit}
    (hjudge : ∀ value, Conclusive (judge value)) (values : List A) :
    Conclusive (values.forM judge) := by
  induction values with
  | nil => exact conclusive_pure
  | cons value rest ih => exact (hjudge value).bind ih

theorem conclusive_judgeSeparation (descriptor : SwitchDescriptor) :
    Conclusive (judgeSeparation inputs demand descriptor) := by
  rw [judgeSeparation]
  refine conclusive_ite conclusive_pure ?_
  split
  · exact conclusive_reject rfl
  · exact conclusive_ite (conclusive_reject rfl)
      (conclusive_ite (conclusive_reject rfl) conclusive_pure)

theorem conclusive_judgeCapability (descriptor : SwitchDescriptor) :
    Conclusive (judgeCapability inputs demand candidate descriptor) :=
  conclusive_ite conclusive_pure (conclusive_ite (conclusive_reject rfl)
    (conclusive_ite (conclusive_reject rfl) conclusive_pure))

theorem conclusive_rejectWhen [Decidable condition] (hreason : isProvenNegative reason = true)
    (hrest : Conclusive rest) :
    Conclusive (if condition then (reject outcome reason detail >>= fun _ => rest) else rest) :=
  conclusive_ite ((conclusive_reject hreason).bind hrest) hrest

theorem conclusive_judgeHop (hop : SwitchKey) :
    Conclusive (judgeHop inputs demand candidate hop) := by
  rw [judgeHop]
  dsimp only
  refine conclusive_rejectWhen (by rfl) ?_
  cases inputs.snapshot.findSwitch hop with
  | none => exact conclusive_ite (conclusive_reject (by rfl)) (conclusive_reject (by rfl))
  | some descriptor =>
    refine conclusive_rejectWhen (by rfl) (conclusive_rejectWhen (by rfl)
      (conclusive_rejectWhen (by rfl) ?_))
    refine (conclusive_judgeCapability descriptor).bind
      ((conclusive_judgeSeparation descriptor).bind ?_)
    exact conclusive_ite (conclusive_reject (by rfl)) conclusive_pure

theorem conclusive_judgeCandidate : Conclusive (judgeCandidate inputs demand candidate) := by
  have hrest : Conclusive (if inputs.planning.requireAuthoritativeCandidateEvidence &&
          trustOf candidate.source != .authoritative then
        (reject .unauthorized .nonAuthoritativeOrigin
          "alternative origin is not an authoritative evidence source" >>= fun _ =>
            candidate.hops.forM (judgeHop inputs demand candidate))
      else candidate.hops.forM (judgeHop inputs demand candidate)) :=
    conclusive_rejectWhen (by rfl) (conclusive_forM conclusive_judgeHop _)
  rw [judgeCandidate]
  dsimp only
  refine conclusive_ite (conclusive_ite ?_ ?_) hrest
  · exact (conclusive_reject (by rfl)).bind hrest
  · exact (conclusive_reject (by rfl)).bind hrest

/-! ## The evaluation of a demand -/

theorem mem_forDependent {table : CandidateTable} {dependent : DependentRef}
    (hcandidate : candidate ∈ table.forDependent dependent) :
    candidate ∈ table.candidates ∧ candidate.dependent = dependent := by
  rw [CandidateTable.forDependent] at hcandidate
  refine ⟨?_, by simpa using List.mem_takeWhile_imp hcandidate⟩
  exact (List.dropWhile_suffix _).subset ((List.takeWhile_sublist _).subset hcandidate)

theorem capacityKeysOf_spec (hops : List SwitchKey) :
    (capacityKeysOf hops).Nodup ∧ ∀ key, key ∈ capacityKeysOf hops ↔ key ∈ hops := by
  have hloop : ∀ (hops keys : List SwitchKey), keys.Nodup →
      (hops.foldl (fun keys hop => if hop ∈ keys then keys else keys ++ [hop]) keys).Nodup ∧
      ∀ key, key ∈ hops.foldl (fun keys hop => if hop ∈ keys then keys else keys ++ [hop]) keys ↔
        key ∈ keys ∨ key ∈ hops := by
    intro hops
    induction hops with
    | nil => exact fun keys hnodup => ⟨hnodup, by simp⟩
    | cons hop hops ih =>
      intro keys hnodup
      rw [List.foldl_cons]
      split_ifs with hmem
      · refine ⟨(ih keys hnodup).1, fun key => ?_⟩
        rw [(ih keys hnodup).2, List.mem_cons]
        constructor
        · tauto
        · rintro (hold | rfl | hlater)
          · exact Or.inl hold
          · exact Or.inl hmem
          · exact Or.inr hlater
      · have hadded : (keys ++ [hop]).Nodup := by
          rw [List.nodup_append']
          exact ⟨hnodup, List.nodup_singleton _, by simpa using hmem⟩
        refine ⟨(ih _ hadded).1, fun key => ?_⟩
        rw [(ih _ hadded).2, List.mem_append, List.mem_singleton, List.mem_cons, or_assoc]
  exact ⟨(hloop hops [] List.nodup_nil).1, fun key => by
    rw [capacityKeysOf, (hloop hops [] List.nodup_nil).2]
    simp⟩

theorem reportOf_eligible :
    (reportOf inputs demand candidate).eligible = true ↔
      CandidateAdmissible inputs demand candidate := by
  rw [← judgeCandidate_eq_ok, reportOf]
  cases judgeCandidate inputs demand candidate with
  | error rejection => simp
  | ok _ => simp

theorem reportOf_refused (hrefused : (reportOf inputs demand candidate).eligible = false) :
    isProvenNegative (reportOf inputs demand candidate).reason = true := by
  have hconclusive : Conclusive (judgeCandidate inputs demand candidate) :=
    conclusive_judgeCandidate
  rw [reportOf] at hrefused ⊢
  cases hverdict : judgeCandidate inputs demand candidate with
  | error rejection =>
    exact hconclusive rejection hverdict
  | ok _ =>
    rw [hverdict] at hrefused
    cases hrefused

/-- An eligible alternative was supplied for the demand and passed all checks. -/
structure Supplied (inputs : PlanInputs) (demand : Demand) (use : CandidateUse) : Prop where
  listed : use.candidate ∈ inputs.table.candidates
  dependent : use.candidate.dependent = demand.dependent
  admissible : CandidateAdmissible inputs demand use.candidate
  keys : use.capacityKeys = capacityKeysOf use.candidate.hops

theorem supplied_of_eligible {use : CandidateUse}
    (huse : use ∈ (evaluateDemand demand inputs).eligible) : Supplied inputs demand use := by
  obtain ⟨candidate, hcandidate, rfl⟩ := List.mem_map.mp huse
  rw [List.mem_insertionSort, List.mem_filter] at hcandidate
  obtain ⟨hlisted, hdependent⟩ := mem_forDependent (List.mem_of_mem_take hcandidate.1)
  exact ⟨hlisted, hdependent, reportOf_eligible.mp hcandidate.2, rfl⟩

theorem evaluateDemand_sound : (evaluateDemand demand inputs).Sound where
  few := by
    have hlimit := inputs.planning.maxCandidatesPerDependent.toNat_lt
    have hlarge : (2 : ℕ) ^ 32 ≤ skippedChoice := by decide
    have hcount : (evaluateDemand demand inputs).eligible.length ≤
        inputs.planning.maxCandidatesPerDependent.toNat := by
      rw [evaluateDemand]
      dsimp only
      rw [List.length_map, List.length_insertionSort]
      exact (List.length_filter_le _ _).trans (List.length_take_le _ _)
    omega
  distinct := by
    intro use huse
    rw [(supplied_of_eligible huse).keys]
    exact (capacityKeysOf_spec _).1
  sorted := by
    rw [evaluateDemand]
    dsimp only
    rw [List.pairwise_map]
    exact Library.Duplicates.pairwise_insertionSort_key _

end SwitchFailover.Plan
