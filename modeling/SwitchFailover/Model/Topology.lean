import SwitchFailover.Core.Limits
import SwitchFailover.Model.Generation

/-!
# Topology snapshots and dependency closures

A snapshot is built once from declared switches, links, paths and explicit
dependency edges, and is canonical afterwards: every table is sorted and free of
duplicates.  The closure of a set of roots is the bounded breadth-first
traversal of the reverse dependency edges; a bound that stops it is reported and
never silently drops a dependent.
-/

namespace SwitchFailover.Model

open Std (TransOrd LawfulEqOrd TransCmp)
open SwitchFailover.Core Library.Ordering

/-! ## Switches, links and paths -/

inductive SwitchRole
  | unknown | leaf | spine | topOfRack | core | edge
  deriving DecidableEq

inductive SwitchAdminState
  | unknown | enabled | disabled | maintenance
  deriving DecidableEq

inductive SwitchHealthState
  | unknown | healthy | degraded | unreachable | suspect | failed | recovering
  deriving DecidableEq

abbrev CapabilityMask := UInt32

/-- The ten capabilities the runtime defines. -/
def allCapabilities : CapabilityMask := 0x3ff

def hasAllCapabilities (mask required : CapabilityMask) : Bool :=
  mask &&& required == required

def validateCapabilityMask (mask : CapabilityMask) : Result Unit :=
  require (mask &&& ~~~allCapabilities == 0) .invalid
    (text "capability mask contains undefined bits")

structure SwitchDescriptor where
  key : SwitchKey := default
  role : SwitchRole := .unknown
  admin : SwitchAdminState := .unknown
  failureDomain : FailureDomainId := default
  capabilities : CapabilityMask := 0
  portCount : UInt32 := 0
  maxRadix : UInt32 := 0
  capacityScore : UInt32 := 100
  label : Bytes := []
  deriving DecidableEq

variable {switches : List SwitchDescriptor}

namespace SwitchDescriptor

def digest (descriptor : SwitchDescriptor) : UInt64 :=
  (({} : Digest128).absorbString (text "sff.switch-descriptor.v1")
    |>.absorbKey descriptor.key
    |>.absorbByte descriptor.role.ctorIdx.toUInt8
    |>.absorbByte descriptor.admin.ctorIdx.toUInt8
    |>.absorbU64 descriptor.failureDomain.raw
    |>.absorbU64 descriptor.capabilities.toUInt64
    |>.absorbU64 descriptor.portCount.toUInt64
    |>.absorbU64 descriptor.maxRadix.toUInt64
    |>.absorbU64 descriptor.capacityScore.toUInt64
    |>.absorbString descriptor.label).hi

/-- A failure domain without a switch identity is refused, but the first check
already excludes it. -/
def validate (descriptor : SwitchDescriptor) : Result Unit := do
  require descriptor.key.valid .invalid
    (text "switch descriptor carries an unqualified generation")
  validateCapabilityMask descriptor.capabilities
  require (descriptor.portCount != 0) .invalid
    (text "switch descriptor declares zero ports")
  require (!(descriptor.failureDomain.valid && !descriptor.key.id.valid)) .invalid
    (text "failure domain without a switch identity")

end SwitchDescriptor

structure PortRef where
  sw : SwitchKey := default
  index : UInt32 := 0
  deriving DecidableEq

structure LinkDescriptor where
  id : LinkId := default
  a : PortRef := {}
  b : PortRef := {}
  cost : UInt32 := 1
  bandwidthGbps : UInt32 := 0
  latencyNs : UInt32 := 0
  deriving DecidableEq

namespace LinkDescriptor

def valid (link : LinkDescriptor) : Bool :=
  link.id.valid && link.a.sw.valid && link.b.sw.valid

def digest (link : LinkDescriptor) : UInt64 :=
  (({} : Digest128).absorbString (text "sff.link-descriptor.v1")
    |>.absorbU64 link.id.raw
    |>.absorbKey link.a.sw
    |>.absorbU64 link.a.index.toUInt64
    |>.absorbKey link.b.sw
    |>.absorbU64 link.b.index.toUInt64
    |>.absorbU64 link.cost.toUInt64
    |>.absorbU64 link.bandwidthGbps.toUInt64
    |>.absorbU64 link.latencyNs.toUInt64).hi

def validate (link : LinkDescriptor) : Result Unit := do
  require link.valid .invalid (text "link descriptor is not fully generation-qualified")
  require (link.a != link.b) .invalid (text "link descriptor is a self loop")
  require (link.cost != 0) .invalid (text "link descriptor has a zero cost")

end LinkDescriptor

structure PathDescriptor where
  id : PathId := default
  source : NodeId := default
  destination : NodeId := default
  hops : List SwitchKey := []
  links : List LinkId := []
  cost : UInt32 := 0
  requiredCapabilities : CapabilityMask := 0
  deriving DecidableEq

namespace PathDescriptor

def digest (path : PathDescriptor) : UInt64 :=
  let head := ({} : Digest128).absorbString (text "sff.path-descriptor.v1")
    |>.absorbU64 path.id.raw
    |>.absorbU64 path.source.raw
    |>.absorbU64 path.destination.raw
    |>.absorbNat path.hops.length
  let hops := (path.hops.foldl Digest128.absorbKey head).absorbNat path.links.length
  let links := path.links.foldl (fun digest link => digest.absorbU64 link.raw) hops
  ((links.absorbU64 path.cost.toUInt64).absorbU64 path.requiredCapabilities.toUInt64).hi

def validate (path : PathDescriptor) : Result Unit := do
  require path.id.valid .invalid (text "path descriptor has no identity")
  require (!path.hops.isEmpty) .invalid (text "path descriptor has no hops")
  require (path.hops.all SwitchKey.valid) .invalid
    (text "path descriptor has an unqualified hop generation")
  validateCapabilityMask path.requiredCapabilities

end PathDescriptor

/-! ## Dependency nodes and edges -/

inductive ClosureNode
  | ofSwitch (key : SwitchKey)
  | ofDependent (dependent : DependentRef)
  deriving DecidableEq

namespace ClosureNode

instance : Inhabited ClosureNode := ⟨.ofSwitch default⟩

def valid : ClosureNode → Bool
  | ofSwitch key => key.valid
  | ofDependent dependent => dependent.valid

/-- Switch nodes come before dependent nodes. -/
def rank : ClosureNode → UInt8 ×ₗ SwitchKey ×ₗ DependentRef
  | ofSwitch key => toLex (0, toLex (key, default))
  | ofDependent dependent => toLex (1, toLex (default, dependent))

theorem rank_injective : Function.Injective rank := by
  intro left right heq
  cases left <;> cases right <;> simp [rank] at heq <;> simp [heq]

instance : Ord ClosureNode := ⟨compareOn rank⟩

instance : TransOrd ClosureNode := inferInstanceAs (TransCmp (compareOn rank))

instance : LawfulEqOrd ClosureNode := lawfulEqCmp_compareOn rank_injective

instance : LinearOrder ClosureNode := LinearOrder.ofStd _

instance : LawfulBEq ClosureNode := inferInstance

def absorb (digest : Digest128) : ClosureNode → Digest128
  | ofSwitch key => (digest.absorbByte 0).absorbKey key
  | ofDependent dependent => (digest.absorbByte 1).absorbDependent dependent

end ClosureNode

/-- `source` depends on `target`. -/
structure DependencyEdge where
  source : ClosureNode := default
  target : ClosureNode := default
  deriving DecidableEq

namespace DependencyEdge

def rank (edge : DependencyEdge) : ClosureNode ×ₗ ClosureNode :=
  toLex (edge.source, edge.target)

theorem rank_injective : Function.Injective rank := by
  rintro ⟨leftSource, leftTarget⟩ ⟨rightSource, rightTarget⟩ heq
  simpa [rank] using heq

instance : Ord DependencyEdge := ⟨compareOn rank⟩

instance : TransOrd DependencyEdge := inferInstanceAs (TransCmp (compareOn rank))

instance : LawfulEqOrd DependencyEdge := lawfulEqCmp_compareOn rank_injective

instance : LinearOrder DependencyEdge := LinearOrder.ofStd _

end DependencyEdge

/-! ## Building a snapshot -/

section AdmitSorted

variable {Declared Name : Type} [LinearOrder Name] {name : Declared → Name}
  {digest : Declared → UInt64} {conflict : Declared → Bytes} {kept kept' : List Declared}
  {declared : Declared}

/-- One declaration of a table that is built in identity order.  The accepted
entries are kept latest first.  A repeated identity is dropped when its digest
agrees and refused otherwise. -/
def admitNext (name : Declared → Name) (digest : Declared → UInt64)
    (conflict : Declared → Bytes) (kept : List Declared) (declared : Declared) :
    Result (List Declared) :=
  match kept with
  | [] => .ok [declared]
  | last :: _ =>
      if name last = name declared then
        if digest last = digest declared then .ok kept
        else refuse .conflict (conflict declared)
      else .ok (declared :: kept)

/-- Check and accept declarations in the order given. -/
def admitAll (name : Declared → Name) (digest : Declared → UInt64)
    (conflict : Declared → Bytes) (check : Declared → Result Declared) :
    List Declared → List Declared → Result (List Declared)
  | kept, [] => .ok kept
  | kept, declared :: rest => do
      let checked ← check declared
      let kept ← admitNext name digest conflict kept checked
      admitAll name digest conflict check kept rest

/-- Sort the declarations by identity, then check and accept them one by one. -/
def admitSorted (name : Declared → Name) (digest : Declared → UInt64)
    (conflict : Declared → Bytes) (check : Declared → Result Declared)
    (declarations : List Declared) : Result (List Declared) := do
  let kept ← admitAll name digest conflict check []
    (declarations.insertionSort fun left right => name left ≤ name right)
  pure kept.reverse

/-- A declaration repeats the latest entry and is dropped, or it becomes the latest entry. -/
theorem admitNext_eq_ok :
    admitNext name digest conflict kept declared = .ok kept' ↔
      ((∃ last ∈ kept.head?, name last = name declared ∧ digest last = digest declared) ∧
          kept' = kept) ∨
        (∀ last ∈ kept.head?, name last ≠ name declared) ∧ kept' = declared :: kept := by
  cases kept with
  | nil => simp [admitNext, eq_comm]
  | cons last rest =>
    by_cases hsame : name last = name declared
    · by_cases hdigest : digest last = digest declared
      · simp [admitNext, hsame, hdigest, eq_comm]
      · simp [admitNext, hsame, hdigest, refuse]
    · simp [admitNext, hsame, eq_comm (a := kept')]

theorem admitNext_descending
    (hkept : kept.Pairwise fun later earlier => name earlier < name later)
    (hbelow : ∀ entry ∈ kept, name entry ≤ name declared)
    (hnext : admitNext name digest conflict kept declared = .ok kept') :
    (kept'.Pairwise fun later earlier => name earlier < name later) ∧
      ∀ entry ∈ kept', name entry ≤ name declared := by
  rcases admitNext_eq_ok.mp hnext with ⟨-, rfl⟩ | ⟨hother, rfl⟩
  · exact ⟨hkept, hbelow⟩
  have hless : ∀ entry ∈ kept, name entry < name declared := by
    cases kept with
    | nil =>
      intro entry hentry
      cases hentry
    | cons last rest =>
      have hlast : name last < name declared :=
        lt_of_le_of_ne (hbelow last List.mem_cons_self) (hother last rfl)
      intro entry hentry
      rcases List.mem_cons.mp hentry with rfl | hrest
      · exact hlast
      · exact ((List.pairwise_cons.mp hkept).1 entry hrest).trans hlast
  refine ⟨List.pairwise_cons.mpr ⟨hless, hkept⟩, ?_⟩
  intro entry hentry
  rcases List.mem_cons.mp hentry with rfl | hrest
  · exact le_rfl
  · exact hbelow entry hrest

theorem admitAll_descending {check : Declared → Result Declared}
    (hcheck : ∀ declared checked, check declared = .ok checked → name checked = name declared)
    {rest : List Declared} (hrest : rest.Pairwise fun left right => name left ≤ name right)
    (hkept : kept.Pairwise fun later earlier => name earlier < name later)
    (hbelow : ∀ entry ∈ kept, ∀ declared ∈ rest, name entry ≤ name declared)
    (hrun : admitAll name digest conflict check kept rest = .ok kept') :
    kept'.Pairwise fun later earlier => name earlier < name later := by
  induction rest generalizing kept with
  | nil =>
    cases hrun
    exact hkept
  | cons declared rest ih =>
    rw [List.pairwise_cons] at hrest
    rw [admitAll, result_bind_eq_ok] at hrun
    obtain ⟨checked, hchecked, hrun⟩ := hrun
    rw [result_bind_eq_ok] at hrun
    obtain ⟨next, hnext, hrun⟩ := hrun
    have hname := hcheck declared checked hchecked
    obtain ⟨hsorted, hupper⟩ := admitNext_descending hkept (fun entry hentry =>
        hname ▸ hbelow entry hentry declared (List.mem_cons_self ..)) hnext
    refine ih hrest.2 hsorted ?_ hrun
    intro entry hentry other hother
    exact le_trans (hname ▸ hupper entry hentry) (hrest.1 other hother)

/-- The admitted table is strictly sorted by identity. -/
theorem admitSorted_sorted {check : Declared → Result Declared}
    (hcheck : ∀ declared checked, check declared = .ok checked → name checked = name declared)
    {declarations table : List Declared}
    (htable : admitSorted name digest conflict check declarations = .ok table) :
    table.Pairwise fun left right => name left < name right := by
  rw [admitSorted, result_bind_eq_ok] at htable
  obtain ⟨kept, hkept, htable⟩ := htable
  cases htable
  rw [List.pairwise_reverse]
  exact admitAll_descending hcheck (List.pairwise_insertionSort _ _) List.Pairwise.nil
    (by simp) hkept

end AdmitSorted

structure TopologySnapshot where
  version : TopologyVersion
  switches : List SwitchDescriptor
  links : List LinkDescriptor
  paths : List PathDescriptor
  edges : List DependencyEdge
  nodes : List ClosureNode
  limits : Limits
  digest : UInt64
  switchesSorted : switches.Pairwise fun left right => left.key < right.key
  linksSorted : links.Pairwise fun left right => left.id < right.id
  pathsSorted : paths.Pairwise fun left right => left.id < right.id
  edgesSorted : edges.Pairwise (· < ·)
  nodesSorted : nodes.Pairwise (· < ·)
  edgesListed : ∀ edge ∈ edges, edge.source ∈ nodes ∧ edge.target ∈ nodes

namespace TopologySnapshot

/-- The default-constructed snapshot. -/
def empty : TopologySnapshot where
  version := default
  switches := []
  links := []
  paths := []
  edges := []
  nodes := []
  limits := {}
  digest := 0
  switchesSorted := List.Pairwise.nil
  linksSorted := List.Pairwise.nil
  pathsSorted := List.Pairwise.nil
  edgesSorted := List.Pairwise.nil
  nodesSorted := List.Pairwise.nil
  edgesListed := by simp

instance : Inhabited TopologySnapshot := ⟨empty⟩

def isEmpty (snapshot : TopologySnapshot) : Bool := snapshot.switches.isEmpty

def checkSwitch (descriptor : SwitchDescriptor) : Result SwitchDescriptor := do
  descriptor.validate
  pure descriptor

def checkLink (switches : List SwitchDescriptor) (link : LinkDescriptor) :
    Result LinkDescriptor := do
  link.validate
  require (switches.any (·.key == link.a.sw) && switches.any (·.key == link.b.sw)) .invalid
    (text "link references a switch generation the snapshot does not contain")
  pure link

/-- Hops and links of a path are brought to canonical order before they are
looked up. -/
def checkPath (switches : List SwitchDescriptor) (links : List LinkDescriptor)
    (path : PathDescriptor) : Result PathDescriptor := do
  path.validate
  let hops := sortUnique path.hops
  require (hops.all fun hop => switches.any (·.key == hop)) .invalid
    (text "path references a switch generation the snapshot does not contain")
  let used := sortUnique path.links
  require (used.all fun link => links.any (·.id == link)) .invalid
    (text "path references a link the snapshot does not contain")
  pure { path with hops := hops, links := used }

theorem checkSwitch_key {descriptor checked : SwitchDescriptor}
    (hcheck : checkSwitch descriptor = .ok checked) : checked.key = descriptor.key := by
  rw [checkSwitch, result_bind_eq_ok] at hcheck
  obtain ⟨_, _, hcheck⟩ := hcheck
  cases hcheck
  rfl

theorem checkLink_id {link checked : LinkDescriptor}
    (hcheck : checkLink switches link = .ok checked) : checked.id = link.id := by
  simp only [checkLink, result_bind_eq_ok] at hcheck
  obtain ⟨_, _, _, _, hcheck⟩ := hcheck
  cases hcheck
  rfl

theorem checkPath_id {links : List LinkDescriptor} {path checked : PathDescriptor}
    (hcheck : checkPath switches links path = .ok checked) : checked.id = path.id := by
  simp only [checkPath, result_bind_eq_ok] at hcheck
  obtain ⟨_, _, _, _, _, _, hcheck⟩ := hcheck
  cases hcheck
  rfl

/-- A link depends on both endpoint generations, a path on its hops and links. -/
def derivedEdges (links : List LinkDescriptor) (paths : List PathDescriptor) :
    List DependencyEdge :=
  (links.flatMap fun link =>
    [⟨.ofDependent (.link link.id), .ofSwitch link.a.sw⟩,
      ⟨.ofDependent (.link link.id), .ofSwitch link.b.sw⟩]) ++
  paths.flatMap fun path =>
    (path.hops.map fun hop => ⟨.ofDependent (.path path.id), .ofSwitch hop⟩) ++
      path.links.map fun link =>
        ⟨.ofDependent (.path path.id), .ofDependent (.link link)⟩

def digestOf (version : TopologyVersion) (switches : List SwitchDescriptor)
    (links : List LinkDescriptor) (paths : List PathDescriptor)
    (edges : List DependencyEdge) : UInt64 :=
  let head := (({} : Digest128).absorbString (text "sff.topology.v1")).absorbU64 version.raw
  let tables := (switches.map (·.digest) ++ links.map (·.digest) ++
    paths.map (·.digest)).foldl Digest128.absorbU64 head
  (edges.foldl
    (fun digest edge => ClosureNode.absorb (ClosureNode.absorb digest edge.source) edge.target)
    tables).hi

def build (version : TopologyVersion) (switches : List SwitchDescriptor)
    (links : List LinkDescriptor) (paths : List PathDescriptor)
    (explicitEdges : List DependencyEdge) (limits : Limits) : Result TopologySnapshot := do
  limits.validate
  require version.valid .invalid (text "topology version is not set")
  requireWithin (text "max_switches") switches.length limits.maxSwitches
  requireWithin (text "max_links") links.length limits.maxLinks
  requireWithin (text "max_paths") paths.length limits.maxPaths
  requireWithin (text "max_closure_edges") explicitEdges.length limits.maxClosureEdges
  let ⟨switches, hswitches⟩ ← attach (admitSorted SwitchDescriptor.key SwitchDescriptor.digest
    (fun descriptor =>
      text "contradictory declarations for the same switch generation: " ++
        descriptor.key.toText)
    checkSwitch switches)
  let ⟨links, hlinks⟩ ← attach (admitSorted LinkDescriptor.id LinkDescriptor.digest
    (fun _ => text "contradictory declarations for the same link identity")
    (checkLink switches) links)
  let ⟨paths, hpaths⟩ ← attach (admitSorted PathDescriptor.id PathDescriptor.digest
    (fun _ => text "contradictory declarations for the same path identity")
    (checkPath switches links) paths)
  require (explicitEdges.all fun edge => edge.source.valid && edge.target.valid) .invalid
    (text "dependency edge endpoint is not fully qualified")
  let edges := sortUnique (derivedEdges links paths ++ explicitEdges)
  let nodes := sortUnique ((switches.map fun descriptor => .ofSwitch descriptor.key) ++
    (paths.map fun path => .ofDependent (.path path.id)) ++
    (links.map fun link => .ofDependent (.link link.id)) ++
    edges.flatMap fun edge => [edge.source, edge.target])
  requireWithin (text "max_closure_nodes") nodes.length limits.maxClosureNodes
  pure {
    version, switches, links, paths, edges, nodes, limits
    digest := digestOf version switches links paths edges
    switchesSorted := admitSorted_sorted (fun _ _ => checkSwitch_key) hswitches
    linksSorted := admitSorted_sorted (fun _ _ => checkLink_id) hlinks
    pathsSorted := admitSorted_sorted (fun _ _ => checkPath_id) hpaths
    edgesSorted := sortUnique_pairwise _
    nodesSorted := sortUnique_pairwise _
    edgesListed := by
      intro edge hedge
      have hends : ∀ node ∈ [edge.source, edge.target], node ∈ nodes := by
        intro node hnode
        rw [mem_sortUnique]
        exact List.mem_append_right _ (List.mem_flatMap.mpr ⟨edge, hedge, hnode⟩)
      exact ⟨hends _ (by simp), hends _ (by simp)⟩ }

/-- Exact generation match over the sorted table. -/
def findSwitch (snapshot : TopologySnapshot) (key : SwitchKey) : Option SwitchDescriptor :=
  snapshot.switches.find? fun descriptor => descriptor.key == key

/-- The last entry of the run of generations of one identity. -/
def findHighestGeneration (snapshot : TopologySnapshot) (id : SwitchId) :
    Option SwitchDescriptor :=
  if id.valid then
    ((snapshot.switches.dropWhile fun descriptor => descriptor.key < ⟨id, ⟨1⟩⟩).takeWhile
      fun descriptor => descriptor.key.id == id).getLast?
  else none

def findPath (snapshot : TopologySnapshot) (id : PathId) : Option PathDescriptor :=
  snapshot.paths.find? fun path => path.id == id

def findLink (snapshot : TopologySnapshot) (id : LinkId) : Option LinkDescriptor :=
  snapshot.links.find? fun link => link.id == id

/-- Direct dependents of a node in canonical order. -/
def directDependents (snapshot : TopologySnapshot) (node : ClosureNode) : List ClosureNode :=
  sortUnique (snapshot.edges.filterMap fun edge =>
    if edge.target = node then some edge.source else none)

end TopologySnapshot

/-! ## Bounded dependency closure -/

inductive ClosureState
  | empty | complete | truncated
  deriving DecidableEq

structure DependencyClosure where
  roots : GenerationVector := default
  members : List ClosureNode := []
  dependents : List DependentRef := []
  state : ClosureState := .empty
  edgesExamined : ℕ := 0
  omittedFrontier : ℕ := 0
  omittedEdges : ℕ := 0
  rootsAbsent : ℕ := 0
  deriving DecidableEq

namespace DependencyClosure

def enumeratesEveryRoot (closure : DependencyClosure) : Bool := closure.rootsAbsent == 0

def truncated (closure : DependencyClosure) : Bool := closure.state == .truncated

def digest (closure : DependencyClosure) : UInt64 :=
  let head := (({} : Digest128).absorbString (text "sff.dependency-closure.v1")
    |>.absorbU64 closure.roots.digest
    |>.absorbNat closure.members.length)
  (closure.members.foldl ClosureNode.absorb head
    |>.absorbByte closure.state.ctorIdx.toUInt8
    |>.absorbNat closure.omittedFrontier
    |>.absorbNat closure.rootsAbsent).hi

end DependencyClosure

/-- The loop state of the traversal: what was discovered, what is still to be
expanded, and whether a bound stopped the loop. -/
structure Traversal where
  members : List ClosureNode := []
  visited : List ClosureNode := []
  queue : List ClosureNode := []
  edgesExamined : ℕ := 0
  rootsAbsent : ℕ := 0
  truncated : Bool := false

namespace TopologySnapshot

def seedRoot (snapshot : TopologySnapshot) (traversal : Traversal) (root : ClosureNode) :
    Traversal :=
  if root ∉ snapshot.nodes then
    { traversal with
      rootsAbsent := traversal.rootsAbsent + 1
      members := traversal.members ++ [root] }
  else if root ∈ traversal.visited then traversal
  else
    { traversal with
      visited := root :: traversal.visited
      members := traversal.members ++ [root]
      queue := traversal.queue ++ [root] }

/-- Examine the dependents of one expanded node; a bound breaks the loop. -/
def expand (snapshot : TopologySnapshot) (nodeBudget edgeBudget : ℕ) :
    List ClosureNode → Traversal → Traversal
  | [], traversal => traversal
  | dependent :: rest, traversal =>
      if edgeBudget ≤ traversal.edgesExamined then { traversal with truncated := true }
      else
        let examined := { traversal with edgesExamined := traversal.edgesExamined + 1 }
        if dependent ∉ snapshot.nodes ∨ dependent ∈ traversal.visited then
          snapshot.expand nodeBudget edgeBudget rest examined
        else if nodeBudget ≤ traversal.members.length then { examined with truncated := true }
        else
          snapshot.expand nodeBudget edgeBudget rest
            { examined with
              visited := dependent :: examined.visited
              members := examined.members ++ [dependent]
              queue := examined.queue ++ [dependent] }

/-- Every node is queued at most once, so the number of nodes bounds the number
of iterations. -/
def traverse (snapshot : TopologySnapshot) (nodeBudget edgeBudget : ℕ) :
    ℕ → Traversal → Traversal
  | 0, traversal => traversal
  | fuel + 1, traversal =>
      match traversal.queue with
      | [] => traversal
      | node :: rest =>
          if nodeBudget ≤ traversal.members.length ∨ edgeBudget ≤ traversal.edgesExamined then
            { traversal with truncated := true }
          else
            let expanded := snapshot.expand nodeBudget edgeBudget
              (snapshot.directDependents node) { traversal with queue := rest }
            if expanded.truncated then expanded
            else snapshot.traverse nodeBudget edgeBudget fuel expanded

def closureFrom (snapshot : TopologySnapshot) (roots : List ClosureNode) (limits : Limits) :
    DependencyClosure :=
  let nodeBudget := min limits.maxClosureNodes snapshot.limits.maxClosureNodes
  let edgeBudget := min limits.maxClosureEdges snapshot.limits.maxClosureEdges
  let seeded := (sortUnique roots).foldl snapshot.seedRoot {}
  let final := snapshot.traverse nodeBudget edgeBudget snapshot.nodes.length seeded
  let members := sortUnique final.members
  let dependents := sortUnique (members.filterMap fun
    | .ofSwitch _ => none
    | .ofDependent dependent => some dependent)
  { members, dependents
    state :=
      if final.truncated then .truncated
      else if dependents.isEmpty then .empty else .complete
    edgesExamined := final.edgesExamined
    omittedFrontier := if final.truncated then final.queue.length else 0
    omittedEdges :=
      if final.truncated then
        (final.queue.map fun node => (snapshot.directDependents node).length).sum
      else 0
    rootsAbsent := final.rootsAbsent }

def closure (snapshot : TopologySnapshot) (roots : GenerationVector) (limits : Limits) :
    DependencyClosure :=
  { snapshot.closureFrom (roots.keys.map .ofSwitch) limits with roots := roots }

end TopologySnapshot

end SwitchFailover.Model
