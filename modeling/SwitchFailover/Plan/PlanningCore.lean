import SwitchFailover.Library.DisjointSets
import SwitchFailover.Plan.Planner

/-!
# The assignment search

Every demand gets one of its eligible alternatives or nothing, and no switch
generation may be used by more demands than its capacity.  The objective is, in
this order, the number of unassigned demands, the total cost, the total hop
count, and the vector of alternative indices.  Demands that compete for no
capacity are solved separately by depth-first branch and bound under one shared
node budget; when nothing can be oversubscribed the cheapest alternative of each
demand is taken directly.
-/

namespace SwitchFailover.Plan

open SwitchFailover.Core Model Library.Ordering Library.DisjointSets

/-- The index that stands for "nothing assigned": the largest `std::size_t`. -/
def skippedChoice : ℕ := 2 ^ 64 - 1

def saturatedCost : ℕ := 2 ^ 64 - 1

def addCost (total added : ℕ) : ℕ :=
  if total > saturatedCost - added then saturatedCost else total + added

structure Assignment where
  choice : List ℕ
  skipped : ℕ := 0
  cost : ℕ := 0
  hops : ℕ := 0
  deriving DecidableEq

def assignmentBetter (left right : Assignment) : Bool :=
  if left.skipped ≠ right.skipped then left.skipped < right.skipped
  else if left.cost ≠ right.cost then left.cost < right.cost
  else if left.hops ≠ right.hops then left.hops < right.hops
  else left.choice < right.choice

/-- The alternative a choice selects, if any. -/
def selected (option : DemandOptions) (choice : ℕ) : Option CandidateUse :=
  if choice = skippedChoice then none else option.eligible[choice]?

/-- One position of `summarise`. -/
def summariseStep (total : Assignment) (position : ℕ × DemandOptions) : Assignment :=
  match selected position.2 position.1 with
  | some use =>
      { total with
        cost := addCost total.cost use.candidate.cost.toNat
        hops := total.hops + use.candidate.hops.length }
  | none => { total with skipped := total.skipped + 1 }

def summarise (choice : List ℕ) (evaluations : List DemandOptions) : Assignment :=
  (choice.zip evaluations).foldl summariseStep { choice := choice }

/-- The mutable part of the search: the shared budget, the nodes visited, and
whether the space was exhausted so far. -/
structure SearchState where
  remaining : ℕ
  nodes : ℕ := 0
  exhausted : Bool := true
  best : Option Assignment := none

def SearchState.spend (state : SearchState) : SearchState :=
  { state with remaining := state.remaining - 1, nodes := state.nodes + 1 }

/-- A partial assignment that cannot beat the best one found. -/
def SearchState.prunes (state : SearchState) (skipped cost : ℕ) : Bool :=
  match state.best with
  | none => false
  | some best => skipped > best.skipped || (skipped == best.skipped && cost > best.cost)

def SearchState.offer (state : SearchState) (candidate : Assignment) : SearchState :=
  match state.best with
  | none => { state with best := some candidate }
  | some best =>
      if assignmentBetter candidate best then { state with best := some candidate } else state

/-- `used` lists the capacity consumed by the demands assigned so far, with
multiplicity. -/
def fits (capacity : SwitchKey → ℕ) (used : List SwitchKey) (use : CandidateUse) : Bool :=
  use.capacityKeys.all fun key => used.count key < capacity key

/-- Depth-first search over the remaining demands.  `chosen` holds the choices
for the demands before them.  The capacity consumed by an alternative is released
when its subtree is done, so it is an argument here. -/
def dfs (capacity : SwitchKey → ℕ) (evaluations : List DemandOptions) :
    List DemandOptions → List ℕ → List SwitchKey → ℕ → ℕ → SearchState → SearchState
  | [], chosen, _, skipped, cost, state =>
      if !state.exhausted || state.prunes skipped cost then state
      else state.offer (summarise chosen evaluations)
  | option :: rest, chosen, used, skipped, cost, state =>
      if !state.exhausted || state.prunes skipped cost then state
      else
        let tried := option.eligible.zipIdx.foldl
          (fun state entry =>
            if !state.exhausted then state
            else if state.remaining = 0 then { state with exhausted := false }
            else if !fits capacity used entry.1 then state.spend
            else
              dfs capacity evaluations rest (chosen ++ [entry.2])
                (entry.1.capacityKeys ++ used) skipped
                (addCost cost entry.1.candidate.cost.toNat) state.spend) state
        if !tried.exhausted then tried
        else if tried.remaining = 0 then { tried with exhausted := false }
        else
          dfs capacity evaluations rest (chosen ++ [skippedChoice]) used (skipped + 1) cost
            tried.spend

/-- Search one component.  Without a complete assignment in budget every
position stays unassigned. -/
def searchComponent (capacity : SwitchKey → ℕ) (evaluations : List DemandOptions)
    (budget : ℕ) : List ℕ × SearchState :=
  let final := dfs capacity evaluations evaluations [] [] 0 0 { remaining := budget }
  (match final.best with
    | some best => best.choice
    | none => List.replicate evaluations.length skippedChoice, final)

/-- The switch generations any alternative of a demand would consume. -/
def touchedKeys (option : DemandOptions) : List SwitchKey :=
  sortUnique (option.eligible.flatMap (·.capacityKeys))

/-- How many demands could use a generation at most. -/
def potential (options : List DemandOptions) (key : SwitchKey) : ℕ :=
  options.countP fun option => decide (key ∈ touchedKeys option)

def capacityBinding (capacity : SwitchKey → ℕ) (options : List DemandOptions) : Bool :=
  (sortUnique (options.flatMap touchedKeys)).any fun key =>
    decide (potential options key > capacity key)

/-- The demands that could use a generation, in demand order. -/
def usersOf (options : List DemandOptions) (key : SwitchKey) : List ℕ :=
  (options.zipIdx.filter fun entry => decide (key ∈ touchedKeys entry.1)).map (·.2)

def uniteUsers (parents users : List ℕ) : List ℕ :=
  match users with
  | [] => parents
  | first :: others => others.foldl (fun parents other => unite parents first other) parents

def demandForest (options : List DemandOptions) : List ℕ :=
  (sortUnique (options.flatMap touchedKeys)).foldl
    (fun parents key => uniteUsers parents (usersOf options key))
    (singletons options.length)

/-- The components, keyed by their root: each find may still shorten paths. -/
def componentsOf (options : List DemandOptions) : Std.TreeMap ℕ (List ℕ) :=
  ((List.range options.length).foldl
    (fun entry index =>
      let (root, parents) := find entry.1 index
      (parents, entry.2.insert root ((entry.2[root]?).getD [] ++ [index])))
    (demandForest options, (∅ : Std.TreeMap ℕ (List ℕ)))).2

/-- The state of the loop over components. -/
structure Assembly where
  choice : List ℕ
  remaining : ℕ
  nodes : ℕ := 0
  optimalityProven : Bool := true

def assembleComponent (capacity : SwitchKey → ℕ) (options : List DemandOptions)
    (assembly : Assembly) (component : List ℕ) : Assembly :=
  let evaluations := component.filterMap fun index => options[index]?
  let (choice, final) := searchComponent capacity evaluations assembly.remaining
  { choice := (component.zip choice).foldl
      (fun choices entry => choices.set entry.1 entry.2) assembly.choice
    remaining := final.remaining
    nodes := assembly.nodes + final.nodes
    optimalityProven := assembly.optimalityProven && final.exhausted }

def assignBySearch (capacity : SwitchKey → ℕ) (options : List DemandOptions) (budget : ℕ) :
    Assembly :=
  (componentsOf options).values.foldl (assembleComponent capacity options)
    { choice := List.replicate options.length skippedChoice, remaining := budget }

/-- The first alternative of each demand; eligible alternatives are sorted. -/
def assignIndependently (options : List DemandOptions) : List ℕ :=
  options.map fun option => if option.eligible.isEmpty then skippedChoice else 0

def assign (inputs : PlanInputs) (options : List DemandOptions) (referenceMode : Bool) :
    Assembly :=
  if !capacityBinding inputs.capacityOf options && !referenceMode then
    { choice := assignIndependently options, remaining := inputs.limits.maxCandidatesEvaluated }
  else assignBySearch inputs.capacityOf options inputs.limits.maxCandidatesEvaluated

/-! ## From an assignment to a plan -/

def unresolvedOf (option : DemandOptions) (optimalityProven : Bool) : UnresolvedDependent where
  dependent := option.demand.dependent
  coversFailed := option.demand.failed
  reason :=
    if option.eligible.isEmpty then option.blockingReason
    else if optimalityProven then .capacityExhausted else .searchLimitReached
  detail :=
    if option.eligible.isEmpty then option.blockingDetail
    else if optimalityProven then
      text "admissible alternatives exist but every assignment saturates them"
    else text "no admissible assignment was found within the declared planning bound"

def restoreOf (option : DemandOptions) (use : CandidateUse) : RestoreStep where
  dependent := option.demand.dependent
  coversFailed := option.demand.failed
  action := .rebindReplacement
  replacement := use.candidate.hops.headD default
  hops := use.candidate.hops
  links := use.candidate.links
  cost := use.candidate.cost
  evidence := use.candidate.evidence

def RestoreStep.rank (step : RestoreStep) : DependentRef ×ₗ SwitchKey ×ₗ SwitchKey :=
  toLex (step.dependent, toLex (step.coversFailed, step.replacement))

def UnresolvedDependent.rank (entry : UnresolvedDependent) : DependentRef ×ₗ SwitchKey :=
  toLex (entry.dependent, entry.coversFailed)

def restoresOf (options : List DemandOptions) (choice : List ℕ) : List RestoreStep :=
  ((options.zip choice).filterMap fun entry =>
      (selected entry.1 entry.2).map (restoreOf entry.1)).insertionSort
    fun left right => left.rank ≤ right.rank

def unresolvedEntriesOf (options : List DemandOptions) (choice : List ℕ)
    (optimalityProven : Bool) : List UnresolvedDependent :=
  ((options.zip choice).filterMap fun entry =>
      if (selected entry.1 entry.2).isSome then none
      else some (unresolvedOf entry.1 optimalityProven)).insertionSort
    fun left right => left.rank ≤ right.rank

def feasibilityOf (demandPlan : DemandPlan) (optimalityProven : Bool)
    (restores : List RestoreStep) : PlanFeasibility :=
  if !demandPlan.closureComplete || !demandPlan.enumerationComplete || !optimalityProven then
    .searchLimitReached
  else if demandPlan.demands.isEmpty then .nothingToRestore
  else if restores.isEmpty then .provenInfeasible
  else .provenFeasible

/-- Planning is only defined for generations that are fenced or failing. -/
def requireFailing (inputs : PlanInputs) (key : SwitchKey) : Result Unit := do
  require key.valid .invalid (text "failed generation set contains an invalid key")
  require (inputs.isFenced key || (inputs.assess key).fenceRequired) .invalid
    (text "planning was requested for a generation that is neither fenced nor failing: " ++
      key.toText)

/-- The plan that carries out an assignment, before the accounting checks. -/
def assemblePlan (inputs : PlanInputs) (failed : GenerationVector) (demandPlan : DemandPlan)
    (assembly : Assembly) : ReconstructionPlan :=
  let restores := restoresOf demandPlan.options assembly.choice
  let unresolved := unresolvedEntriesOf demandPlan.options assembly.choice
    assembly.optimalityProven
  ReconstructionPlan.sealed {
    id := if inputs.planId.valid then inputs.planId else ⟨1⟩
    epoch := inputs.epoch
    boot := inputs.boot
    failedGenerations := failed
    fences := demandPlan.fences
    restores := restores
    unresolved := unresolved
    feasibility := feasibilityOf demandPlan assembly.optimalityProven restores
    state := .draft
    closureComplete := demandPlan.closureComplete
    serviceWithheld := inputs.planning.allowWithholdOnUnresolved && !unresolved.isEmpty
    topologyDigest := inputs.snapshot.digest
    policyDigest := inputs.policyDigest }

/-- The plan, and the number of search nodes it took. -/
def planInternal (inputs : PlanInputs) (failed : GenerationVector) (referenceMode : Bool) :
    Result (ReconstructionPlan × ℕ) := do
  inputs.validate
  require (!failed.isEmpty) .invalid
    (text "planning requires at least one failed generation")
  failed.keys.forM (requireFailing inputs)
  let demandPlan := buildDemandPlan inputs failed
  let assembly := assign inputs demandPlan.options referenceMode
  let plan := assemblePlan inputs failed demandPlan assembly
  require (demandPlan.options.length == plan.restores.length + plan.unresolved.length) .invalid
    (text "plan accounting did not close: every demand must be restored or unresolved")
  requireWithin (text "max_unresolved_dependents") plan.unresolved.length
    inputs.limits.maxUnresolvedDependents
  pure (plan, assembly.nodes)

def planReconstruction (inputs : PlanInputs) (failed : GenerationVector) :
    Result ReconstructionPlan :=
  (planInternal inputs failed false).map Prod.fst

/-! ## The reference solver -/

structure ReferenceSolution where
  optimalFound : Bool := false
  exhausted : Bool := false
  nodesVisited : ℕ := 0
  nodeBudget : UInt64 := 0
  plan : ReconstructionPlan := {}
  outcome : Code := .indeterminate

def solveReference (inputs : PlanInputs) (failed : GenerationVector) (nodeBudget : UInt64) :
    ReferenceSolution :=
  let adjusted := { inputs with
    limits := { inputs.limits with maxCandidatesEvaluated := max nodeBudget.toNat 1 } }
  match planInternal adjusted failed true with
  | .error status => { nodeBudget := nodeBudget, outcome := status.code }
  | .ok (plan, nodes) =>
      let exhausted :=
        plan.feasibility == .provenFeasible || plan.feasibility == .provenInfeasible
      { optimalFound := exhausted
        exhausted := exhausted
        nodesVisited := nodes
        nodeBudget := nodeBudget
        plan := plan
        outcome := if exhausted then .ok else .searchLimitReached }

end SwitchFailover.Plan
