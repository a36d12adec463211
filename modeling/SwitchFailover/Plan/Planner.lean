import SwitchFailover.Library.Duplicates
import SwitchFailover.Model.Authority
import SwitchFailover.Plan.Plan

/-!
# Planning inputs and candidate evaluation

Alternatives are supplied, never invented: the planner only judges which of them
are admissible for a demand under the current generations, fences, evidence and
policy.  A demand is one dependent together with one failed generation it has to
be moved off.
-/

namespace SwitchFailover.Plan

open Std (TransOrd LawfulEqOrd TransCmp)
open SwitchFailover.Core Model Library Library.Ordering

structure PlanningPolicy where
  allowReplacementInSameFailureDomain : Bool := false
  requireCapabilitySuperset : Bool := true
  requireAuthoritativeCandidateEvidence : Bool := true
  allowWithholdOnUnresolved : Bool := true
  allowRestoreWhenClosureTruncated : Bool := false
  maxCandidatesPerDependent : UInt32 := 256
  deriving DecidableEq

def absorbFlag (digest : Digest128) (flag : Bool) : Digest128 :=
  digest.absorbByte (if flag then 1 else 0)

def PlanningPolicy.digest (policy : PlanningPolicy) : UInt64 :=
  let head := ({} : Digest128).absorbString (text "sff.planning-policy.v1")
  let flags := [policy.allowReplacementInSameFailureDomain, policy.requireCapabilitySuperset,
    policy.requireAuthoritativeCandidateEvidence, policy.allowWithholdOnUnresolved,
    policy.allowRestoreWhenClosureTruncated].foldl absorbFlag head
  (flags.absorbU64 policy.maxCandidatesPerDependent.toUInt64).hi

/-! ## The candidate table -/

/-- Within one dependent: cheapest first, then hop count, hops, links and
capabilities; the evidence identity breaks the last tie. -/
def ReconstructionCandidate.orderRank (candidate : ReconstructionCandidate) :
    ℕ ×ₗ ℕ ×ₗ List SwitchKey ×ₗ List LinkId ×ₗ ℕ ×ₗ EvidenceId :=
  toLex (candidate.cost.toNat, toLex (candidate.hops.length, toLex (candidate.hops,
    toLex (candidate.links, toLex (candidate.capabilities.toNat, candidate.evidence)))))

/-- The order of the whole table.  Every field the uniqueness test compares is
part of it, so equal alternatives are adjacent. -/
def ReconstructionCandidate.tableRank (candidate : ReconstructionCandidate) :
    DependentRef ×ₗ ℕ ×ₗ ℕ ×ₗ List SwitchKey ×ₗ List LinkId ×ₗ ℕ ×ₗ SwitchKey ×ₗ EvidenceId :=
  toLex (candidate.dependent, toLex (candidate.cost.toNat, toLex (candidate.hops.length,
    toLex (candidate.hops, toLex (candidate.links, toLex (candidate.capabilities.toNat,
      toLex (candidate.coversFailed, candidate.evidence)))))))

def ReconstructionCandidate.sameAlternative (left right : ReconstructionCandidate) : Bool :=
  left.dependent == right.dependent && left.coversFailed == right.coversFailed &&
    left.hops == right.hops && left.links == right.links && left.cost == right.cost &&
    left.capabilities == right.capabilities

structure CandidateTable where
  candidates : List ReconstructionCandidate
  digest : UInt64
  sorted : candidates.Pairwise fun left right => left.tableRank ≤ right.tableRank
  distinct : candidates.IsChain fun left right => left.sameAlternative right = false
  validated : ∀ candidate ∈ candidates, candidate.validate = .ok ()
  bounded : candidates.length ≤ hardMaxElements

namespace CandidateTable

def empty : CandidateTable :=
  ⟨[], 0, List.Pairwise.nil, List.IsChain.nil, by simp, Nat.zero_le _⟩

instance : Inhabited CandidateTable := ⟨empty⟩

/-- What `std::sort` may make of the candidates: any sorted permutation.  The order does not
compare the source, and the sort is not stable, so which of the candidates that differ only
there comes first is open. -/
abbrev Order (candidates : List ReconstructionCandidate) : Type :=
  Duplicates.Arrangement ReconstructionCandidate.tableRank candidates

/-- `std::unique` on the sorted candidates: the first of each run of equal alternatives. -/
def arrange {candidates : List ReconstructionCandidate} (order : Order candidates) :
    List ReconstructionCandidate :=
  order.list.destutter fun left right => left.sameAlternative right = false

def digestOf (candidates : List ReconstructionCandidate) : UInt64 :=
  ((candidates.map (·.digest)).foldl Digest128.absorbU64
    (({} : Digest128).absorbString (text "sff.candidate-table.v1")
      |>.absorbNat candidates.length)).hi

/-- The table that results if the sort leaves the candidates in the given order. -/
def build (candidates : List ReconstructionCandidate) (limits : Limits)
    (order : Order candidates) : Result CandidateTable := do
  let ⟨_, hlimits⟩ ← attach limits.validate
  let ⟨_, hwithin⟩ ← attach (requireWithin (text "max_candidates_evaluated") candidates.length
    limits.maxCandidatesEvaluated)
  let ⟨_, hvalidated⟩ ← attach (candidates.forM ReconstructionCandidate.validate)
  pure {
    candidates := arrange order
    digest := digestOf (arrange order)
    sorted := order.sorted.sublist (List.destutter_sublist _ _)
    distinct := List.isChain_destutter _ _
    validated := by
      intro candidate hcandidate
      have hsorted := (List.destutter_sublist _ _).subset hcandidate
      exact forM_eq_ok.mp hvalidated candidate (order.perm.mem_iff.mp hsorted)
    bounded := by
      calc (arrange order).length
          ≤ order.list.length := (List.destutter_sublist _ _).length_le
        _ = candidates.length := order.perm.length_eq
        _ ≤ limits.maxCandidatesEvaluated := (requireWithin_eq_ok _ _ _ _).mp hwithin
        _ ≤ hardMaxElements := Limits.maxCandidatesEvaluated_le hlimits }

/-- The alternatives of one dependent, in table order. -/
def forDependent (table : CandidateTable) (dependent : DependentRef) :
    List ReconstructionCandidate :=
  (table.candidates.dropWhile fun candidate => candidate.dependent < dependent).takeWhile
    fun candidate => candidate.dependent == dependent

end CandidateTable

/-! ## Inputs -/

/-- Everything planning and validation read.  An absent component is a null
pointer of the source. -/
structure PlanInputs where
  topology : Option TopologySnapshot := none
  candidates : Option CandidateTable := none
  evidence : Option EvidenceStore := none
  failures : Option FailureTable := none
  authority : Option AuthorityRegistry := none
  limits : Limits := {}
  assessment : AssessmentPolicy := {}
  planning : PlanningPolicy := {}
  epoch : CoordinatorEpoch := default
  boot : BootIncarnation := default
  planId : PlanId := default
  nowNs : TimestampNs := 0

namespace PlanInputs

def validate (inputs : PlanInputs) : Result Unit := do
  require inputs.topology.isSome .unsupported
    (text "planning requires an installed topology")
  require inputs.candidates.isSome .unsupported
    (text "planning requires a supplied candidate table")
  require inputs.authority.isSome .unsupported
    (text "planning requires the authority registry")
  require (inputs.epoch.valid && inputs.boot.valid) .unauthorized
    (text "planning requires a current epoch and boot incarnation")
  inputs.limits.validate

def policyDigest (inputs : PlanInputs) : UInt64 :=
  let head := ({} : Digest128).absorbString (text "sff.plan-inputs-policy.v1")
  let flags := [inputs.assessment.fenceOnAuthoritativeConflict,
    inputs.assessment.fenceOnMissingHealth, inputs.assessment.allowSameGenerationRecovery,
    inputs.assessment.requireAuthoritativeFailureEvidence].foldl
      (fun digest flag => digest.absorbU64 (if flag then 1 else 0)) head
  (flags.absorbU64 inputs.assessment.futureSkewToleranceNs
    |>.absorbU64 inputs.planning.digest
    |>.absorbU64 ((inputs.candidates.map (·.digest)).getD 0)).hi

/-- The components a validated request dereferences. -/
def snapshot (inputs : PlanInputs) : TopologySnapshot := inputs.topology.getD .empty
def table (inputs : PlanInputs) : CandidateTable := inputs.candidates.getD .empty
def isFenced (inputs : PlanInputs) (key : SwitchKey) : Bool :=
  match inputs.authority with
  | some registry => registry.isFenced key
  | none => false

/-- Missing evidence and missing lineage are empty stores. -/
def assess (inputs : PlanInputs) (key : SwitchKey) : SwitchAssessment :=
  assessSwitch key (inputs.evidence.getD { limits := {} }) (inputs.failures.getD {})
    inputs.nowNs inputs.assessment

def requiredCapabilities (inputs : PlanInputs) (dependent : DependentRef) : CapabilityMask :=
  if dependent.kind ≠ .path then 0
  else ((inputs.snapshot.findPath ⟨dependent.id⟩).map (·.requiredCapabilities)).getD 0

def capacityOf (inputs : PlanInputs) (key : SwitchKey) : ℕ :=
  ((inputs.snapshot.findSwitch key).map (·.capacityScore.toNat)).getD 0

end PlanInputs

/-! ## Judging alternatives -/

structure Demand where
  dependent : DependentRef
  failed : SwitchKey
  deriving DecidableEq

namespace Demand

def rank (demand : Demand) : DependentRef ×ₗ SwitchKey :=
  toLex (demand.dependent, demand.failed)

theorem rank_injective : Function.Injective rank := by
  rintro ⟨leftDependent, leftFailed⟩ ⟨rightDependent, rightFailed⟩ heq
  simpa [rank] using heq

instance : Ord Demand := ⟨compareOn rank⟩

instance : TransOrd Demand := inferInstanceAs (TransCmp (compareOn rank))

instance : LawfulEqOrd Demand := lawfulEqCmp_compareOn rank_injective

instance : LinearOrder Demand := LinearOrder.ofStd _

end Demand

/-- Why an alternative is refused. -/
structure Rejection where
  outcome : Code
  reason : UnresolvedReason
  detail : Bytes
  deriving DecidableEq

structure CandidateEligibility where
  dependent : DependentRef
  coversFailed : SwitchKey
  hops : List SwitchKey
  cost : UInt32
  eligible : Bool
  outcome : Code
  reason : UnresolvedReason
  detail : Bytes
  deriving DecidableEq

structure CandidateUse where
  candidate : ReconstructionCandidate
  capacityKeys : List SwitchKey
  deriving DecidableEq

structure DemandOptions where
  demand : Demand
  eligible : List CandidateUse
  reports : List CandidateEligibility
  enumerationComplete : Bool
  blockingReason : UnresolvedReason
  blockingDetail : Bytes
  deriving DecidableEq

def reject (outcome : Code) (reason : UnresolvedReason) (detail : String) :
    Except Rejection Unit :=
  .error ⟨outcome, reason, text detail⟩

/-- Failure-domain separation of one hop from the failed generation. -/
def judgeSeparation (inputs : PlanInputs) (demand : Demand) (descriptor : SwitchDescriptor) :
    Except Rejection Unit :=
  if inputs.planning.allowReplacementInSameFailureDomain then pure ()
  else
    match inputs.snapshot.findSwitch demand.failed with
    | none =>
        reject .denied .failureDomainConflict
          "failure-domain separation from the failed generation cannot be established"
    | some failedDescriptor =>
        if !failedDescriptor.failureDomain.valid || !descriptor.failureDomain.valid then
          reject .denied .failureDomainConflict
            "failure-domain separation from the failed generation cannot be established"
        else if descriptor.failureDomain = failedDescriptor.failureDomain then
          reject .denied .failureDomainConflict
            "alternative reuses the failed generation failure domain"
        else pure ()

def judgeCapability (inputs : PlanInputs) (demand : Demand)
    (candidate : ReconstructionCandidate) (descriptor : SwitchDescriptor) :
    Except Rejection Unit :=
  let required := inputs.requiredCapabilities demand.dependent
  if !inputs.planning.requireCapabilitySuperset then pure ()
  else if !hasAllCapabilities descriptor.capabilities required then
    reject .unsupported .capabilityInsufficient
      "hop generation does not provide the required capability set"
  else if !hasAllCapabilities candidate.capabilities required then
    reject .unsupported .capabilityInsufficient
      "alternative does not provide the required capability set"
  else pure ()

/-- The checks on one hop of an alternative, in the order of the source. -/
def judgeHop (inputs : PlanInputs) (demand : Demand) (candidate : ReconstructionCandidate)
    (hop : SwitchKey) : Except Rejection Unit := do
  if hop = demand.failed then
    reject .fenced .behindFence "alternative reuses the failed generation"
  match inputs.snapshot.findSwitch hop with
  | none =>
      if (inputs.snapshot.findHighestGeneration hop.id).isSome then
        reject .stale .candidateGenerationStale
          "alternative names a superseded generation of a known switch identity"
      else
        reject .notFound .hopNotInTopology
          "alternative names a switch generation the topology does not contain"
  | some descriptor =>
      if inputs.isFenced hop then
        reject .fenced .behindFence "alternative crosses a fenced generation"
      let assessment := inputs.assess hop
      if assessment.outcome = .conflict then
        reject .conflict .contradictoryEvidence
          "authoritative evidence about a hop generation contradicts itself"
      if assessment.fenceRequired then
        reject .fenced .behindFence "a hop generation carries a fence obligation"
      judgeCapability inputs demand candidate descriptor
      judgeSeparation inputs demand descriptor
      if descriptor.capacityScore = 0 then
        reject .exhausted .capacityExhausted
          "replacement generation declares no spare capacity"

/-- The generations whose capacity an alternative consumes.  A generation that
is traversed twice still counts once. -/
def capacityKeysOf (hops : List SwitchKey) : List SwitchKey :=
  hops.foldl (fun keys hop => if hop ∈ keys then keys else keys ++ [hop]) []

def judgeCandidate (inputs : PlanInputs) (demand : Demand)
    (candidate : ReconstructionCandidate) : Except Rejection Unit := do
  if candidate.coversFailed ≠ demand.failed then
    if candidate.coversFailed.sameIdentity demand.failed then
      reject .stale .candidateGenerationStale
        "alternative covers a different generation of the same switch identity"
    else
      reject .notFound .noCandidateSupplied
        "alternative does not cover this failed generation"
  if inputs.planning.requireAuthoritativeCandidateEvidence &&
      trustOf candidate.source != .authoritative then
    reject .unauthorized .nonAuthoritativeOrigin
      "alternative origin is not an authoritative evidence source"
  candidate.hops.forM (judgeHop inputs demand candidate)

def reportOf (inputs : PlanInputs) (demand : Demand) (candidate : ReconstructionCandidate) :
    CandidateEligibility :=
  let verdict : Bool × Rejection := match judgeCandidate inputs demand candidate with
    | .ok () => (true, ⟨.ok, .unknown, text "admissible under current generations"⟩)
    | .error rejection => (false, rejection)
  { dependent := demand.dependent
    coversFailed := candidate.coversFailed
    hops := candidate.hops
    cost := candidate.cost
    eligible := verdict.1
    outcome := verdict.2.outcome
    reason := verdict.2.reason
    detail := verdict.2.detail }

/-- The reported blocking reason: the first proven negative in canonical order,
otherwise the first reported reason. -/
def blockingOf (reports : List CandidateEligibility) : UnresolvedReason × Bytes :=
  let refused := reports.filter fun report => !report.eligible
  let first := match refused.find? fun report => isProvenNegative report.reason with
    | some report => (report.reason, report.detail)
    | none =>
        (.noCandidateSupplied, text "no admissible reconstruction alternative is available")
  if first.1 = .noCandidateSupplied then
    match refused with
    | report :: _ => (report.reason, report.detail)
    | [] => first
  else first

def evaluateDemand (demand : Demand) (inputs : PlanInputs) : DemandOptions :=
  let supplied := inputs.table.forDependent demand.dependent
  let limit := inputs.planning.maxCandidatesPerDependent.toNat
  let examined := supplied.take limit
  let complete := decide (supplied.length ≤ limit)
  let reports := examined.map (reportOf inputs demand)
  let admissible := examined.filter fun candidate =>
    (reportOf inputs demand candidate).eligible
  let blocking := blockingOf reports
  { demand := demand
    eligible := (admissible.insertionSort fun left right =>
        left.orderRank ≤ right.orderRank).map fun candidate =>
      ⟨candidate, capacityKeysOf candidate.hops⟩
    reports := reports
    enumerationComplete := complete
    blockingReason := if complete then blocking.1 else .searchLimitReached
    blockingDetail :=
      if complete then blocking.2
      else text "candidate enumeration was cut short by a declared bound" }

structure DemandPlan where
  demands : List Demand
  options : List DemandOptions
  closure : DependencyClosure
  fences : List FenceStep
  closureComplete : Bool
  enumerationComplete : Bool

def fenceStepOf (inputs : PlanInputs) (root : SwitchKey) : FenceStep :=
  let closure := inputs.snapshot.closure (GenerationVector.empty.insert root) inputs.limits
  { failed := root
    closureDigest := closure.digest
    closureState := closure.state
    closureMembers := closure.members.length
    omittedDependents := closure.omittedFrontier }

/-- Each discovered dependent is attributed to the failed generations it
actually depends on. -/
def demandsOf (inputs : PlanInputs) (failed : GenerationVector) : List Demand :=
  sortUnique (failed.keys.flatMap fun root =>
    (inputs.snapshot.closure (GenerationVector.empty.insert root)
      inputs.limits).dependents.map fun dependent => ⟨dependent, root⟩)

def buildDemandPlan (inputs : PlanInputs) (failed : GenerationVector) : DemandPlan :=
  let closure := inputs.snapshot.closure failed inputs.limits
  let demands := demandsOf inputs failed
  let options := demands.map fun demand => evaluateDemand demand inputs
  { demands := demands
    options := options
    closure := closure
    fences := failed.keys.map (fenceStepOf inputs)
    closureComplete := closure.state != .truncated && closure.enumeratesEveryRoot
    enumerationComplete := options.all (·.enumerationComplete) }

end SwitchFailover.Plan
