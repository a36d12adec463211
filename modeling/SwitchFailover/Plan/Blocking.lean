import SwitchFailover.Plan.CandidateOrder

/-!
# The reason of an unresolved dependent

A demand without an eligible alternative is reported with one reason.  The planner takes
the reason for which it refused the first alternative of the dependent in table order,
whichever generation that alternative covers.  The reason is a statement about all
alternatives of the demand where they were refused for the reason of that first one.
-/

namespace SwitchFailover.Plan

open SwitchFailover.Core Model Library

variable {inputs : PlanInputs} {demand : Demand} {candidate : ReconstructionCandidate}

/-! ## The alternatives of a dependent -/

theorem CandidateTable.forDependent_eq (table : CandidateTable) (dependent : DependentRef) :
    table.forDependent dependent =
      table.candidates.filter fun candidate => candidate.dependent == dependent := by
  apply Duplicates.takeWhile_dropWhile_eq_filter
  refine table.sorted.imp ?_
  intro left right hrank
  rcases (Prod.Lex.toLex_le_toLex).mp hrank with hlt | ⟨heq, -⟩
  · exact hlt.le
  · exact heq.le

/-- The alternatives supplied for a dependent that cover the failed generation. -/
def alternativesFor (inputs : PlanInputs) (demand : Demand) : List ReconstructionCandidate :=
  inputs.table.candidates.filter fun candidate =>
    candidate.dependent == demand.dependent && candidate.coversFailed == demand.failed

theorem mem_alternativesFor : candidate ∈ alternativesFor inputs demand ↔
    candidate ∈ inputs.table.candidates ∧ candidate.dependent = demand.dependent ∧
      candidate.coversFailed = demand.failed := by
  simp [alternativesFor]

/-- Why an alternative is refused, if it is. -/
def refusalOf (inputs : PlanInputs) (demand : Demand) (candidate : ReconstructionCandidate) :
    Option UnresolvedReason :=
  match judgeCandidate inputs demand candidate with
  | .ok () => none
  | .error rejection => some rejection.reason

theorem refusalOf_eq_some (hrefused : (reportOf inputs demand candidate).eligible = false) :
    refusalOf inputs demand candidate = some (reportOf inputs demand candidate).reason := by
  rw [reportOf] at hrefused ⊢
  rw [refusalOf]
  cases hverdict : judgeCandidate inputs demand candidate with
  | error rejection => rfl
  | ok _ =>
    rw [hverdict] at hrefused
    cases hrefused

/-- The reasons that speak about alternatives that cover the generation. -/
def coverageReasons : List UnresolvedReason :=
  [.hopNotInTopology, .behindFence, .capabilityInsufficient, .nonAuthoritativeOrigin]

theorem covers_of_refusalOf {reason : UnresolvedReason} (hreason : reason ∈ coverageReasons)
    (hrefused : refusalOf inputs demand candidate = some reason) :
    candidate.coversFailed = demand.failed := by
  by_contra hcovers
  rw [refusalOf, judgeCandidate] at hrefused
  simp only [ne_eq, hcovers, not_false_eq_true, if_true] at hrefused
  split_ifs at hrefused
  all_goals
    cases hrefused
    exact absurd hreason (by decide)

/-! ## The reported reason -/

theorem blockingOf_of_refused {report : CandidateEligibility} {reports : List CandidateEligibility}
    (heligible : report.eligible = false) (hnegative : isProvenNegative report.reason = true) :
    blockingOf (report :: reports) = (report.reason, report.detail) := by
  have hfilter : (report :: reports).filter (fun entry => !entry.eligible) =
      report :: reports.filter fun entry => !entry.eligible := by
    rw [List.filter_cons, if_pos (by rw [heligible]; rfl)]
  rw [blockingOf, hfilter]
  simp only [List.find?_cons, hnegative]
  split_ifs
  · rfl
  · rfl

section NoneEligible

variable (hnone : (evaluateDemand demand inputs).eligible = [])
  (hcomplete : (evaluateDemand demand inputs).enumerationComplete = true)

include hnone hcomplete

theorem refused_of_none_eligible
    (hcandidate : candidate ∈ inputs.table.forDependent demand.dependent) :
    (reportOf inputs demand candidate).eligible = false := by
  have hfew : (inputs.table.forDependent demand.dependent).length ≤
      inputs.planning.maxCandidatesPerDependent.toNat := of_decide_eq_true hcomplete
  by_contra heligible
  have hmem : (⟨candidate, capacityKeysOf candidate.hops⟩ : CandidateUse) ∈
      (evaluateDemand demand inputs).eligible := by
    refine List.mem_map.mpr ⟨candidate, (List.mem_insertionSort _).mpr ?_, rfl⟩
    refine List.mem_filter.mpr ⟨?_, Bool.not_eq_false _ ▸ heligible⟩
    rwa [List.take_of_length_le hfew]
  rw [hnone] at hmem
  cases hmem

/-- The first alternative of the dependent, in table order, gives the reason. -/
theorem blockingReason_eq :
    (evaluateDemand demand inputs).blockingReason =
      match inputs.table.candidates.find? fun candidate =>
          candidate.dependent == demand.dependent with
      | none => .noCandidateSupplied
      | some first => (reportOf inputs demand first).reason := by
  have hfew : (inputs.table.forDependent demand.dependent).length ≤
      inputs.planning.maxCandidatesPerDependent.toNat := of_decide_eq_true hcomplete
  have hreason : (evaluateDemand demand inputs).blockingReason =
      (blockingOf ((inputs.table.forDependent demand.dependent).map
        (reportOf inputs demand))).1 := by
    rw [evaluateDemand]
    simp only [hfew, decide_true, if_true, List.take_of_length_le]
  rw [hreason, ← List.head?_filter, ← CandidateTable.forDependent_eq]
  cases hsupplied : inputs.table.forDependent demand.dependent with
  | nil => rfl
  | cons first rest =>
    have hfirst : (reportOf inputs demand first).eligible = false :=
      refused_of_none_eligible hnone hcomplete (hsupplied ▸ List.mem_cons_self)
    rw [List.map_cons, blockingOf_of_refused hfirst (reportOf_refused hfirst)]
    rfl

end NoneEligible

/-! ## What the reasons say -/

/-- The statement a reason makes about the alternatives of its demand. -/
structure CertificateHolds (inputs : PlanInputs) (entry : UnresolvedDependent) : Prop where
  absent : entry.reason = .noCandidateSupplied →
    alternativesFor inputs ⟨entry.dependent, entry.coversFailed⟩ = []
  refused : entry.reason ∈ coverageReasons →
    alternativesFor inputs ⟨entry.dependent, entry.coversFailed⟩ ≠ [] ∧
      ∀ candidate ∈ alternativesFor inputs ⟨entry.dependent, entry.coversFailed⟩,
        refusalOf inputs ⟨entry.dependent, entry.coversFailed⟩ candidate = some entry.reason

/-- Every alternative of the demand is refused for the reason of the dependent's first
alternative, and there is none if that one covers another switch. -/
def Uniform (inputs : PlanInputs) (demand : Demand) : Prop :=
  ∀ first ∈ inputs.table.candidates.find? fun candidate =>
      candidate.dependent == demand.dependent,
    ∀ candidate ∈ alternativesFor inputs demand,
      refusalOf inputs demand first ≠ some .noCandidateSupplied ∧
        ∀ reason ∈ coverageReasons, refusalOf inputs demand first = some reason →
          refusalOf inputs demand candidate = some reason

instance (inputs : PlanInputs) (demand : Demand) : Decidable (Uniform inputs demand) := by
  unfold Uniform
  infer_instance

theorem alternativesFor_eq_nil (hfound : (inputs.table.candidates.find? fun candidate =>
      candidate.dependent == demand.dependent) = none) : alternativesFor inputs demand = [] := by
  rw [List.eq_nil_iff_forall_not_mem]
  intro candidate hcandidate
  obtain ⟨hlisted, hdependent, -⟩ := mem_alternativesFor.mp hcandidate
  exact List.find?_eq_none.mp hfound candidate hlisted (beq_iff_eq.mpr hdependent)

/-- The first alternative of the dependent is refused for the reported reason. -/
theorem refusalOf_first (hnone : (evaluateDemand demand inputs).eligible = [])
    (hcomplete : (evaluateDemand demand inputs).enumerationComplete = true)
    {first : ReconstructionCandidate} (hfound : (inputs.table.candidates.find? fun candidate =>
      candidate.dependent == demand.dependent) = some first) :
    refusalOf inputs demand first = some (evaluateDemand demand inputs).blockingReason := by
  have hdependent := List.find?_some hfound
  rw [blockingReason_eq hnone hcomplete, hfound]
  apply refusalOf_eq_some
  apply refused_of_none_eligible hnone hcomplete
  rw [CandidateTable.forDependent_eq]
  exact List.mem_filter.mpr ⟨List.mem_of_find?_eq_some hfound, hdependent⟩

theorem certificateHolds_iff {optimalityProven : Bool}
    (hnone : (evaluateDemand demand inputs).eligible = [])
    (hcomplete : (evaluateDemand demand inputs).enumerationComplete = true) :
    CertificateHolds inputs (unresolvedOf (evaluateDemand demand inputs) optimalityProven) ↔
      Uniform inputs demand := by
  have hreason : (unresolvedOf (evaluateDemand demand inputs) optimalityProven).reason =
      (evaluateDemand demand inputs).blockingReason := by
    rw [unresolvedOf, hnone]
    rfl
  cases hfound : inputs.table.candidates.find? fun candidate =>
      candidate.dependent == demand.dependent with
  | none =>
    rw [blockingReason_eq hnone hcomplete, hfound] at hreason
    dsimp only at hreason
    constructor
    · intro _ first hfirst
      rw [hfound] at hfirst
      cases hfirst
    · intro _
      refine ⟨fun _ => alternativesFor_eq_nil hfound, ?_⟩
      intro hcoverage
      rw [hreason] at hcoverage
      exact absurd hcoverage (by decide)
  | some first =>
    have hrefusal := refusalOf_first hnone hcomplete hfound
    rw [← hreason] at hrefusal
    constructor
    · intro hholds other hother candidate hcandidate
      rw [hfound, Option.mem_some_iff] at hother
      subst hother
      rw [hrefusal]
      constructor
      · intro heq
        have habsent : alternativesFor inputs demand = [] := hholds.absent (Option.some.inj heq)
        rw [habsent] at hcandidate
        cases hcandidate
      · intro reason hcoverage heq
        cases heq
        exact (hholds.refused hcoverage).2 candidate hcandidate
    · intro huniform
      refine ⟨?_, ?_⟩
      · intro heq
        apply List.eq_nil_iff_forall_not_mem.mpr
        intro candidate hcandidate
        exact (huniform first hfound candidate hcandidate).1 (hrefusal.trans (congrArg some heq))
      · intro hcoverage
        have hdependent := List.find?_some hfound
        have hfirst : first ∈ alternativesFor inputs demand :=
          mem_alternativesFor.mpr ⟨List.mem_of_find?_eq_some hfound, beq_iff_eq.mp hdependent,
            covers_of_refusalOf hcoverage hrefusal⟩
        refine ⟨List.ne_nil_of_mem hfirst, ?_⟩
        intro candidate hcandidate
        exact (huniform first hfound candidate hcandidate).2 _ hcoverage hrefusal

/-! ## The unresolved dependents of a plan -/

section Planned

variable {failed : GenerationVector} {plan : ReconstructionPlan} {referenceMode : Bool}

theorem Planned.mem_unresolved (hplanned : Planned inputs failed referenceMode plan)
    {entry : UnresolvedDependent} (hentry : entry ∈ plan.unresolved) :
    ∃ demand ∈ demandsOf inputs failed, ∃ optimalityProven,
      entry = unresolvedOf (evaluateDemand demand inputs) optimalityProven := by
  rw [hplanned.unresolved_eq, unresolvedEntriesOf, List.mem_insertionSort,
    List.mem_filterMap] at hentry
  obtain ⟨⟨option, choice⟩, hposition, hentry⟩ := hentry
  obtain ⟨demand, hdemand, rfl⟩ := List.mem_map.mp (List.of_mem_zip hposition).1
  split_ifs at hentry
  cases hentry
  exact ⟨demand, hdemand, _, rfl⟩

/-- A demand without an eligible alternative is listed as unresolved. -/
theorem Planned.unresolved_of_none_eligible (hplanned : Planned inputs failed referenceMode plan)
    (hdemand : demand ∈ demandsOf inputs failed)
    (hnone : (evaluateDemand demand inputs).eligible = []) :
    ∃ optimalityProven,
      unresolvedOf (evaluateDemand demand inputs) optimalityProven ∈ plan.unresolved := by
  have hoption : evaluateDemand demand inputs ∈ (buildDemandPlan inputs failed).options :=
    List.mem_map.mpr ⟨demand, hdemand, rfl⟩
  rw [← List.map_fst_zip hplanned.choice_length] at hoption
  obtain ⟨⟨option, choice⟩, hposition, rfl⟩ := List.mem_map.mp hoption
  have hselected : selected (evaluateDemand demand inputs) choice = none := by
    rw [selected, hnone]
    simp
  rw [hplanned.unresolved_eq, unresolvedEntriesOf]
  refine ⟨(assign inputs (buildDemandPlan inputs failed).options
    referenceMode).optimalityProven, ?_⟩
  rw [List.mem_insertionSort, List.mem_filterMap]
  exact ⟨_, hposition, by simp [hselected]⟩

/-- The reasons of a plan hold exactly when the alternatives of every demand without an
eligible one are uniform. -/
theorem certificates_hold_iff (hreturned : planReconstruction inputs failed = .ok plan)
    (hcomplete : (buildDemandPlan inputs failed).enumerationComplete = true) :
    (∀ entry ∈ plan.unresolved,
        (evaluateDemand ⟨entry.dependent, entry.coversFailed⟩ inputs).eligible = [] →
          CertificateHolds inputs entry) ↔
      ∀ demand ∈ demandsOf inputs failed, (evaluateDemand demand inputs).eligible = [] →
        Uniform inputs demand := by
  have hplanned := planReconstruction_eq_ok.mp hreturned
  have hexamined : ∀ demand ∈ demandsOf inputs failed,
      (evaluateDemand demand inputs).enumerationComplete = true := by
    intro demand hdemand
    exact List.all_eq_true.mp hcomplete _ (List.mem_map.mpr ⟨demand, hdemand, rfl⟩)
  constructor
  · intro hholds demand hdemand hnone
    obtain ⟨optimalityProven, hentry⟩ := hplanned.unresolved_of_none_eligible hdemand hnone
    exact (certificateHolds_iff hnone (hexamined demand hdemand)).mp (hholds _ hentry hnone)
  · intro huniform entry hentry hnone
    obtain ⟨demand, hdemand, optimalityProven, rfl⟩ := hplanned.mem_unresolved hentry
    exact (certificateHolds_iff hnone (hexamined demand hdemand)).mpr
      (huniform demand hdemand hnone)

end Planned

namespace Sample

/-- The plan over a list of candidates. -/
def answerWith (candidates : List ReconstructionCandidate) : ReconstructionPlan :=
  (planReconstruction (requestWith candidates) lost).toOption.getD {}

theorem answerWith_returned {candidates : List ReconstructionCandidate}
    (hok : (planReconstruction (requestWith candidates) lost).toBool = true) :
    planReconstruction (requestWith candidates) lost = .ok (answerWith candidates) :=
  ok_of_toBool hok {}

/-- An alternative that reuses the failed generation, and one that covers another switch. -/
def reusing : ReconstructionCandidate := alternative 1 switchA 2

def forOther : ReconstructionCandidate := { alternative 1 switchB 1 with coversFailed := switchC }

end Sample

/-- The path whose only alternative reuses the failed generation is behind a fence, and
the other two have no alternative. -/
theorem certificates_hold_sample :
    (Sample.answerWith [Sample.reusing]).unresolved.map (·.reason) =
        [.behindFence, .noCandidateSupplied, .noCandidateSupplied] ∧
      ∀ entry ∈ (Sample.answerWith [Sample.reusing]).unresolved,
        (evaluateDemand ⟨entry.dependent, entry.coversFailed⟩
            (Sample.requestWith [Sample.reusing])).eligible = [] →
          CertificateHolds (Sample.requestWith [Sample.reusing]) entry :=
  ⟨by decide +kernel, (certificates_hold_iff (Sample.answerWith_returned (by decide +kernel))
    (by decide +kernel)).mpr (by decide +kernel)⟩

/-- The plan says that no candidate was supplied for the path where one was, and that the
candidates are not of an authoritative origin where one is. -/
theorem certificates_fail_sample :
    (Sample.answerWith [Sample.forOther, Sample.reusing]).unresolved.head?.map (·.reason) =
        some .noCandidateSupplied ∧
      Sample.reusing ∈ alternativesFor (Sample.requestWith [Sample.forOther, Sample.reusing])
        ⟨.path ⟨1⟩, Sample.switchA⟩ ∧
      (Sample.answerWith [Sample.byAgent ⟨1⟩, Sample.reusing]).unresolved.head?.map (·.reason) =
        some .nonAuthoritativeOrigin ∧
      refusalOf (Sample.requestWith [Sample.byAgent ⟨1⟩, Sample.reusing])
        ⟨.path ⟨1⟩, Sample.switchA⟩ Sample.reusing = some .behindFence := by
  refine ⟨?_, ?_, ?_, ?_⟩ <;> decide +kernel

end SwitchFailover.Plan
