import SwitchFailover.Plan.PlanningCore

/-!
# Independent plan validation

A plan is checked against the current inputs, not against the planner that
produced it.  The validator performs a sequence of checks, each of which either
passes or leaves a finding; a plan is valid exactly when no check left one.
-/

namespace SwitchFailover.Plan

open SwitchFailover.Core Model Library.Ordering

structure ValidationFinding where
  code : Code
  scope : Bytes
  detail : Bytes
  deriving DecidableEq

structure ValidationReport where
  valid : Bool
  outcome : Code
  checksPerformed : ℕ
  findings : List ValidationFinding
  planDigest : UInt64
  inputsDigest : UInt64
  deriving DecidableEq

def maxFindings : ℕ := 256

/-- One performed check: a finding when it failed. -/
abbrev Check := Option ValidationFinding

def check (condition : Bool) (code : Code) (scope detail : Bytes) : Check :=
  if condition then none else some ⟨code, scope, detail⟩

/-- A check that is performed only because it already failed. -/
def checkWhen (failed : Bool) (code : Code) (scope detail : Bytes) : List Check :=
  if failed then [some ⟨code, scope, detail⟩] else []

/-- The report keeps a bounded number of findings and says so when it drops
some. -/
def boundFindings (findings : List ValidationFinding) : List ValidationFinding :=
  if findings.length ≤ maxFindings then findings
  else findings.take maxFindings ++
    [⟨.exhausted, text "report", text "validation findings were truncated by the report bound"⟩]

def finishReport (plan : ReconstructionPlan) (inputs : PlanInputs) (checks : List Check) :
    ValidationReport :=
  let findings := boundFindings (checks.filterMap id)
  { valid := findings.isEmpty
    outcome := match findings with
      | [] => .ok
      | finding :: _ => finding.code
    checksPerformed := checks.length
    findings := findings
    planDigest := plan.planDigest
    inputsDigest := inputs.policyDigest }

def fenceStepChecks (plan : ReconstructionPlan) (inputs : PlanInputs) (step : FenceStep) :
    List Check :=
  [check step.failed.valid .invalid (text "fence")
      (text "fence step names an unqualified generation")] ++
    (if step.closureState = .truncated then
      [check (!plan.closureComplete) .invalid (text "fence")
        (text "a truncated closure must not be reported as complete")] else []) ++
    checkWhen (!inputs.isFenced step.failed) .fenced (text "fence")
      (text "failed generation is not fenced: " ++ step.failed.toText)

def fenceChecks (plan : ReconstructionPlan) (inputs : PlanInputs) : List Check :=
  plan.fences.flatMap (fenceStepChecks plan inputs) ++
    plan.failedGenerations.keys.map fun key =>
      check (plan.fences.any (·.failed == key)) .fenced (text "fence")
        (text "failed generation has no fence step: " ++ key.toText)

def scopeOf (step : RestoreStep) : Bytes :=
  step.dependent.toText ++ text "->" ++ step.coversFailed.toText

/-- The checks on one hop; a fenced or unknown generation ends them early. -/
def hopChecks (plan : ReconstructionPlan) (inputs : PlanInputs) (scope : Bytes)
    (hop : SwitchKey) : List Check :=
  check (!plan.failedGenerations.contains hop) .fenced scope
      (text "restore step reuses a failed generation: " ++ hop.toText) ::
    if inputs.isFenced hop then
      [some ⟨.fenced, scope,
        text "restore step crosses a fenced generation: " ++ hop.toText⟩]
    else if (inputs.snapshot.findSwitch hop).isNone then
      if (inputs.snapshot.findHighestGeneration hop.id).isSome then
        [some ⟨.stale, scope,
          text "restore step names a superseded generation: " ++ hop.toText⟩]
      else
        [some ⟨.notFound, scope,
          text "restore step names a generation absent from the topology: " ++ hop.toText⟩]
    else
      checkWhen (inputs.assess hop).fenceRequired .fenced scope
        (text "restore step crosses a generation that carries a fence obligation: " ++
          hop.toText) ++
      checkWhen ((inputs.assess hop).outcome == .conflict) .conflict scope
        (text "authoritative evidence about a hop generation contradicts itself: " ++
          hop.toText)

def restoreStepChecks (plan : ReconstructionPlan) (inputs : PlanInputs)
    (seen : List (DependentRef × SwitchKey)) (step : RestoreStep) : List Check :=
  let scope := scopeOf step
  [check step.dependent.valid .invalid scope
      (text "restore step names an invalid dependent"),
    check step.coversFailed.valid .invalid scope
      (text "restore step names an unqualified failed generation"),
    check (plan.failedGenerations.contains step.coversFailed) .invalid scope
      (text "restore step covers a generation that is not in the failed set"),
    check (step.action == .rebindReplacement) .invalid scope
      (text "restore step has an undefined action"),
    check (!step.hops.isEmpty) .invalid scope (text "restore step supplies no hops"),
    check (step.cost != 0) .invalid scope (text "restore step has a zero cost"),
    check (step.hops.isEmpty || step.hops.head? == some step.replacement) .invalid scope
      (text "restore step replacement is not the head of its hop set"),
    check (!seen.contains (step.dependent, step.coversFailed)) .alreadyExists scope
      (text "duplicate restore step for the same dependent and failed generation")] ++
    step.hops.flatMap (hopChecks plan inputs scope) ++
    step.links.map fun link =>
      check (inputs.snapshot.findLink link).isSome .notFound scope
        (text "restore step names a link the topology does not contain")

/-- The loop over the restore steps; `seen` holds the demands of earlier steps. -/
def restoreLoopChecks (plan : ReconstructionPlan) (inputs : PlanInputs) :
    List (DependentRef × SwitchKey) → List RestoreStep → List Check
  | _, [] => []
  | seen, step :: steps =>
      restoreStepChecks plan inputs seen step ++
        restoreLoopChecks plan inputs ((step.dependent, step.coversFailed) :: seen) steps

/-- How many steps use a generation; a step counts once. -/
def usageOf (plan : ReconstructionPlan) (key : SwitchKey) : ℕ :=
  plan.restores.countP fun step => decide (key ∈ step.hops)

def capacityChecks (plan : ReconstructionPlan) (inputs : PlanInputs) : List Check :=
  (sortUnique (plan.restores.flatMap (·.hops))).flatMap fun key =>
    match inputs.snapshot.findSwitch key with
    | none => []
    | some descriptor =>
        checkWhen (usageOf plan key > descriptor.capacityScore.toNat) .exhausted key.toText
          (text
            "assignment exceeds the declared spare capacity of the replacement generation")

def coverageChecks (plan : ReconstructionPlan) (inputs : PlanInputs) : List Check :=
  let demandPlan := buildDemandPlan inputs plan.failedGenerations
  let resolved := plan.restores.map (fun step => (step.dependent, step.coversFailed)) ++
    plan.unresolved.map fun entry => (entry.dependent, entry.coversFailed)
  -- An enumeration value is always defined, so this check is counted and passes.
  plan.unresolved.map (fun _ => none) ++
    (demandPlan.demands.flatMap fun demand =>
      checkWhen (!resolved.contains (demand.dependent, demand.failed)) .partialClosure
        demand.dependent.toText
        (text "dependent invalidated by " ++ demand.failed.toText ++
          text " appears in neither the restore set nor the unresolved set")) ++
    [check (plan.closureComplete == demandPlan.closureComplete) .invalid (text "plan")
      (text
        "plan closure completeness does not match the closure recomputed from the inputs")]

def orderingChecks (plan : ReconstructionPlan) : List Check :=
  [check (plan.restores.IsChain fun left right => left.rank ≤ right.rank) .invalid
      (text "plan") (text "restore steps are not in canonical order"),
    check (plan.unresolved.IsChain fun left right => left.rank ≤ right.rank) .invalid
      (text "plan") (text "unresolved entries are not in canonical order")]

/-- The checks on the plan as a whole, after its digest. -/
def headChecks (plan : ReconstructionPlan) (inputs : PlanInputs) : List Check :=
  [check (plan.epoch == inputs.epoch) .stale (text "plan")
      (text "plan was produced under a different coordinator epoch"),
    check (plan.boot == inputs.boot) .stale (text "plan")
      (text "plan was produced under a different process incarnation"),
    check (plan.topologyDigest == inputs.snapshot.digest) .stale (text "plan")
      (text "plan was produced against a different topology snapshot"),
    check (plan.policyDigest == inputs.policyDigest) .stale (text "plan")
      (text "plan was produced under a different policy"),
    check (!plan.failedGenerations.isEmpty) .invalid (text "plan")
      (text "plan names no failed generation and therefore fences nothing"),
    none,
    check (plan.feasibility != .provenInfeasible ||
        (plan.restores.isEmpty && !plan.unresolved.isEmpty)) .invalid (text "plan")
      (text ("a proven-infeasible plan must restore nothing and must explain every " ++
        "unresolved demand")),
    check (plan.feasibility != .nothingToRestore || plan.restores.isEmpty) .invalid
      (text "plan") (text "a nothing-to-restore plan must restore nothing")]

def planChecks (plan : ReconstructionPlan) (inputs : PlanInputs) : List Check :=
  check plan.digestValid .corrupt (text "plan")
      (text "plan digest does not match its contents") ::
    if plan.digestValid then
      headChecks plan inputs ++ fenceChecks plan inputs ++
        restoreLoopChecks plan inputs [] plan.restores ++ capacityChecks plan inputs ++
        coverageChecks plan inputs ++ orderingChecks plan
    else []

def validatePlan (plan : ReconstructionPlan) (inputs : PlanInputs) : ValidationReport :=
  finishReport plan inputs (planChecks plan inputs)

def ValidationReport.toText (report : ValidationReport) : Bytes :=
  (if report.valid then text "VALID" else text "INVALID") ++ text " outcome=" ++
    report.outcome.toText ++ text " checks=" ++ decimal report.checksPerformed ++
    text " findings=" ++ decimal report.findings.length ++
    report.findings.flatMap fun finding =>
      text " [" ++ finding.code.toText ++ text " " ++ finding.scope ++ text ": " ++
        finding.detail ++ text "]"

end SwitchFailover.Plan
