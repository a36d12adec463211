import SwitchFailover.Library.Transitions
import SwitchFailover.Runtime.Failover

/-!
# Incarnations and their journal

At most one coordinator runs over a journal at a time.  It is opened from what
the journal holds, serves operations, and ends: by leaving, or by dying in the
middle of an append.  The journal is what remains.
-/

namespace SwitchFailover.Runtime

open SwitchFailover.Core Model Plan Persist Library.Effects Library.Transitions

inductive Operation
  | installTopology (topology : TopologySnapshot)
  | installCandidates (candidates : CandidateTable)
  | installPolicy (policy : Policy)
  | establishAuthority (dependent : DependentRef) (bound : GenerationVector) (detail : Bytes)
  | withdrawAuthority (dependent : DependentRef) (cause : RevocationCause) (detail : Bytes)
  | admitEvidence (record : EvidenceRecord)
  | recordFailure (declaration : FailureDeclaration)
  | declareFailure (declaration : FailureDeclaration)
  | proposePlan (failed : GenerationVector)
  | applyPlan (request : ReconstructionPlan)
  | recordEffectVerification (verification : EvidenceRecord)
  | shutdown

/-- The call an operation makes; its answer is not kept. -/
def Operation.call : Operation → Call Unit
  | .installTopology topology => Runtime.installTopology topology
  | .installCandidates candidates => Runtime.installCandidates candidates
  | .installPolicy policy => Runtime.installPolicy policy
  | .establishAuthority dependent bound detail =>
      Runtime.establishAuthority dependent bound detail
  | .withdrawAuthority dependent cause detail => Runtime.withdrawAuthority dependent cause detail
  | .admitEvidence record => Runtime.admitEvidence record
  | .recordFailure declaration => do let _ ← Runtime.recordFailure declaration
  | .declareFailure declaration => do let _ ← Runtime.declareFailure declaration
  | .proposePlan failed => do let _ ← Runtime.proposePlan failed
  | .applyPlan request => do let _ ← Runtime.applyPlan request
  | .recordEffectVerification verification => Runtime.recordEffectVerification verification
  | .shutdown => Runtime.shutdown

inductive World
  | down (disk : Disk)
  | up (impl : Impl)

inductive Event
  | boot (config : CoordinatorConfig) (process : Process) (env : Env)
  | call (operation : Operation) (env : Env)
  | exit

/-- The outcome of opening a coordinator over a journal. -/
def openOver (disk : Disk) (config : CoordinatorConfig) (process : Process) (env : Env) :
    Except Stop Unit × CallState :=
  execute (openCoordinator config process) { impl := Impl.fresh config disk, env }

/-- The outcome of a call on a running coordinator. -/
def callOn {A : Type} (impl : Impl) (action : Call A) (env : Env) :
    Except Stop A × CallState :=
  execute action { impl, env }

namespace World

def disk : World → Disk
  | .down disk => disk
  | .up impl => impl.disk

def step : World → Event → World
  | .down disk, .boot config process env =>
      match openOver disk config process env with
      | (.ok (), state) => .up state.impl
      | (.error _, state) => .down state.impl.disk
  | .up impl, .call operation env =>
      match callOn impl operation.call env with
      | (.error .crashed, state) => .down state.impl.disk
      | (_, state) => .up state.impl
  | .up impl, .exit => .down impl.disk
  | world, _ => world

/-- The coordinator is reached from a journal by some run. -/
def Reaches (disk : Disk) (impl : Impl) : Prop :=
  ∃ events, run step (.down disk) events = .up impl

/-- A coordinator is running and passes a test. -/
def passes (test : Impl → Bool) : World → Bool
  | .up impl => test impl
  | .down _ => false

theorem up_of_passes {test : Impl → Bool} {world : World} (hpasses : world.passes test = true) :
    ∃ impl, world = .up impl ∧ test impl = true := by
  cases world with
  | down disk => cases hpasses
  | up impl => exact ⟨impl, rfl, hpasses⟩

/-- No coordinator is running and the journal passes a test. -/
def rests (test : Disk → Bool) : World → Bool
  | .up _ => false
  | .down disk => test disk

theorem down_of_rests {test : Disk → Bool} {world : World} (hrests : world.rests test = true) :
    ∃ disk, world = .down disk ∧ test disk = true := by
  cases world with
  | down disk => exact ⟨disk, rfl, hrests⟩
  | up impl => cases hrests

end World

/-- A call answered, and its answer and final state pass a test. -/
def answers {A : Type} (test : A → CallState → Bool) : Except Stop A × CallState → Bool
  | (.ok value, state) => test value state
  | (.error _, _) => false

theorem ok_of_answers {A : Type} {test : A → CallState → Bool}
    {result : Except Stop A × CallState} (hanswers : answers test result = true) :
    ∃ value state, result = (.ok value, state) ∧ test value state = true := by
  rcases result with ⟨stop | value, state⟩
  · cases hanswers
  · exact ⟨value, state, rfl, hanswers⟩

/-! ## A small fabric

One path over the first of three switches, with a replacement over each of the
other two.
-/

namespace Sample

def switchA : SwitchKey := ⟨⟨1⟩, ⟨1⟩⟩

def switchB : SwitchKey := ⟨⟨2⟩, ⟨1⟩⟩

def switchC : SwitchKey := ⟨⟨3⟩, ⟨1⟩⟩

def descriptor (key : SwitchKey) : SwitchDescriptor :=
  { key, portCount := 1, failureDomain := ⟨key.id.raw⟩ }

def path : DependentRef := .path ⟨1⟩

def topology : TopologySnapshot :=
  (TopologySnapshot.build ⟨1⟩ ([switchA, switchB, switchC].map descriptor) []
    [{ id := ⟨1⟩, hops := [switchA] }] [] {}).toOption.getD .empty

def replacement (hop : SwitchKey) (cost : UInt32) : ReconstructionCandidate :=
  { dependent := path, coversFailed := switchA, hops := [hop], cost, source := .fabricManager }

def candidates : CandidateTable :=
  (CandidateTable.build [replacement switchB 1, replacement switchC 2] {}
    (.insertion _)).toOption.getD .empty

def process : Process := ⟨7, 8, 9⟩

/-- The clock stands still and every append succeeds. -/
def calm : Env := ⟨fun _ => 1000, fun _ => .done⟩

/-- Every append succeeds but one. -/
def calmBut (index : ℕ) (fate : Fate) : Env :=
  ⟨fun _ => 1000, fun append => if append = index then fate else .done⟩

def durable : CoordinatorConfig := { enableDurability := true, durableRoot := text "root" }

def failureOf (subject : SwitchKey) : FailureDeclaration :=
  ⟨subject, .fabricManager, 1000, 1000000, []⟩

/-- The fabric is installed and its first switch has failed. -/
def failedOver (config : CoordinatorConfig) : List Event :=
  [.boot config process calm, .call (.installTopology topology) calm,
    .call (.installCandidates candidates) calm, .call (.declareFailure (failureOf switchA)) calm]

/-- A plan for the failed switch, the first of its incarnation, is made. -/
def planned (config : CoordinatorConfig) : List Event :=
  failedOver config ++ [.call (.proposePlan (GenerationVector.empty.insert switchA)) calm]

def firstPlan : ReconstructionPlan := { id := ⟨1⟩ }

end Sample

end SwitchFailover.Runtime
