import SwitchFailover.Model.Closure

/-!
# The closure is exact, or says that it is not

For a snapshot that was built, the dependency edges are those of its links and paths and
the explicit ones.  The traversal of their reverse ends within as many rounds as there
are nodes and stays within its bounds; what it finds depends on a root, and unless a
bound stopped it, it finds everything that does.
-/

namespace SwitchFailover.Model

open SwitchFailover.Core Library.Ordering

variable {count : ℕ} {traversal : Traversal} {node : ClosureNode} {dependent : DependentRef}

namespace TopologySnapshot

/-! ## The edges of a built snapshot -/

/-- What a node depends on directly, in a topology of the given links, paths and explicit
edges. -/
inductive Requires (links : List LinkDescriptor) (paths : List PathDescriptor)
    (explicitEdges : List DependencyEdge) : ClosureNode → ClosureNode → Prop
  | linkStart {link : LinkDescriptor} (hlink : link ∈ links) :
      Requires links paths explicitEdges (.ofDependent (.link link.id)) (.ofSwitch link.a.sw)
  | linkEnd {link : LinkDescriptor} (hlink : link ∈ links) :
      Requires links paths explicitEdges (.ofDependent (.link link.id)) (.ofSwitch link.b.sw)
  | pathHop {path : PathDescriptor} (hpath : path ∈ paths) {hop : SwitchKey}
      (hhop : hop ∈ path.hops) :
      Requires links paths explicitEdges (.ofDependent (.path path.id)) (.ofSwitch hop)
  | pathLink {path : PathDescriptor} (hpath : path ∈ paths) {link : LinkId}
      (hlink : link ∈ path.links) :
      Requires links paths explicitEdges (.ofDependent (.path path.id))
        (.ofDependent (.link link))
  | explicit {edge : DependencyEdge} (hedge : edge ∈ explicitEdges) :
      Requires links paths explicitEdges edge.source edge.target

theorem mem_derivedEdges_iff (links : List LinkDescriptor) (paths : List PathDescriptor)
    (explicitEdges : List DependencyEdge) (source target : ClosureNode) :
    (⟨source, target⟩ : DependencyEdge) ∈ derivedEdges links paths ++ explicitEdges ↔
      Requires links paths explicitEdges source target := by
  constructor
  · intro hedge
    simp only [derivedEdges, List.mem_append, List.mem_flatMap, List.mem_map, List.mem_cons,
      List.not_mem_nil, or_false, DependencyEdge.mk.injEq] at hedge
    rcases hedge with (⟨link, hlink, ⟨rfl, rfl⟩ | ⟨rfl, rfl⟩⟩ |
      ⟨path, hpath, ⟨hop, hhop, rfl, rfl⟩ | ⟨link, hlink, rfl, rfl⟩⟩) | hexplicit
    · exact .linkStart hlink
    · exact .linkEnd hlink
    · exact .pathHop hpath hhop
    · exact .pathLink hpath hlink
    · exact .explicit hexplicit
  · intro hrequires
    simp only [derivedEdges, List.mem_append, List.mem_flatMap, List.mem_map, List.mem_cons,
      List.not_mem_nil, or_false, DependencyEdge.mk.injEq]
    cases hrequires with
    | linkStart hlink => exact Or.inl (Or.inl ⟨_, hlink, Or.inl ⟨rfl, rfl⟩⟩)
    | linkEnd hlink => exact Or.inl (Or.inl ⟨_, hlink, Or.inr ⟨rfl, rfl⟩⟩)
    | pathHop hpath hhop => exact Or.inl (Or.inr ⟨_, hpath, Or.inl ⟨_, hhop, rfl, rfl⟩⟩)
    | pathLink hpath hlink => exact Or.inl (Or.inr ⟨_, hpath, Or.inr ⟨_, hlink, rfl, rfl⟩⟩)
    | explicit hedge => exact Or.inr hedge

/-- The edges of a built snapshot. -/
theorem dependsOn_of_build {version : TopologyVersion} {switches : List SwitchDescriptor}
    {links : List LinkDescriptor} {paths : List PathDescriptor}
    {explicitEdges : List DependencyEdge} {limits : Limits} {snapshot : TopologySnapshot}
    (hbuilt : build version switches links paths explicitEdges limits = .ok snapshot)
    (source target : ClosureNode) :
    snapshot.DependsOn source target ↔
      Requires snapshot.links snapshot.paths explicitEdges source target := by
  simp only [build, result_bind_eq_ok, require_eq_ok, requireWithin_eq_ok, exists_const] at hbuilt
  obtain ⟨-, -, -, -, -, -, -, admittedSwitches, -, hbuilt⟩ := hbuilt
  obtain ⟨admittedLinks, -, hbuilt⟩ := hbuilt
  obtain ⟨admittedPaths, -, hbuilt⟩ := hbuilt
  obtain ⟨-, -, hsnapshot⟩ := hbuilt
  cases hsnapshot
  rw [DependsOn, ← mem_derivedEdges_iff]
  exact mem_sortUnique _ _

variable {snapshot : TopologySnapshot} {nodeBudget edgeBudget : ℕ}

/-! ## The bounds hold in every state of the traversal -/

/-- The counts of a traversal that the budgets bound. -/
structure Bounded (edgeBudget count : ℕ) (traversal : Traversal) : Prop where
  edges : traversal.edgesExamined ≤ edgeBudget
  members : traversal.members.length ≤ count

theorem Bounded.expand (hcount : nodeBudget ≤ count) (dependents : List ClosureNode)
    (hbounded : Bounded edgeBudget count traversal) :
    Bounded edgeBudget count (snapshot.expand nodeBudget edgeBudget dependents traversal) := by
  induction dependents generalizing traversal with
  | nil => exact hbounded
  | cons dependent rest ih =>
    rw [TopologySnapshot.expand]
    dsimp only
    split_ifs with hedges hknown hnodes
    · exact ⟨hbounded.edges, hbounded.members⟩
    · exact ih ⟨Nat.succ_le_of_lt (not_le.mp hedges), hbounded.members⟩
    · exact ⟨Nat.succ_le_of_lt (not_le.mp hedges), hbounded.members⟩
    · refine ih ⟨Nat.succ_le_of_lt (not_le.mp hedges), ?_⟩
      rw [List.length_append, List.length_singleton]
      exact Nat.succ_le_of_lt (lt_of_lt_of_le (not_le.mp hnodes) hcount)

theorem Bounded.traverse (hcount : nodeBudget ≤ count) (fuel : ℕ)
    (hbounded : Bounded edgeBudget count traversal) :
    Bounded edgeBudget count (snapshot.traverse nodeBudget edgeBudget fuel traversal) := by
  induction fuel generalizing traversal with
  | zero => exact hbounded
  | succ fuel ih =>
    rw [TopologySnapshot.traverse]
    split
    · exact hbounded
    · rename_i node rest hqueue
      have hpopped : Bounded edgeBudget count { traversal with queue := rest } :=
        ⟨hbounded.edges, hbounded.members⟩
      have hexpanded : Bounded edgeBudget count (snapshot.expand nodeBudget edgeBudget
          (snapshot.directDependents node) { traversal with queue := rest }) :=
        hpopped.expand hcount _
      dsimp only
      split_ifs
      · exact ⟨hbounded.edges, hbounded.members⟩
      · exact hexpanded
      · exact ih hexpanded

/-! ## The traversal ends -/

/-- The loop has no further round. -/
def Ended (traversal : Traversal) : Prop := traversal.truncated = true ∨ traversal.queue = []

/-- More rounds change nothing once the loop has ended. -/
theorem traverse_of_ended {fuel : ℕ} (hrunning : traversal.truncated = false)
    (hended : Ended (snapshot.traverse nodeBudget edgeBudget fuel traversal)) (more : ℕ) :
    snapshot.traverse nodeBudget edgeBudget (fuel + more) traversal =
      snapshot.traverse nodeBudget edgeBudget fuel traversal := by
  induction fuel generalizing traversal with
  | zero =>
    rcases hended with hflag | hempty
    · rw [traverse, hrunning] at hflag
      cases hflag
    · cases more with
      | zero => rfl
      | succ more =>
        rw [traverse] at hempty
        change snapshot.traverse nodeBudget edgeBudget (0 + (more + 1)) traversal = traversal
        rw [Nat.zero_add, traverse, hempty]
  | succ fuel ih =>
    rw [Nat.add_right_comm, traverse, traverse]
    rw [traverse] at hended
    split at hended
    · rfl
    · dsimp only at hended ⊢
      split_ifs at hended ⊢ with hbounds hstopped
      · rfl
      · rfl
      · exact ih (Bool.eq_false_of_not_eq_true hstopped) hended

/-- The state of the traversal after a number of rounds. -/
def search (snapshot : TopologySnapshot) (roots : List ClosureNode) (limits : Limits)
    (rounds : ℕ) : Traversal :=
  snapshot.traverse (min limits.maxClosureNodes snapshot.limits.maxClosureNodes)
    (min limits.maxClosureEdges snapshot.limits.maxClosureEdges) rounds
    ((sortUnique roots).foldl snapshot.seedRoot {})

section Searching

variable (snapshot) (roots : List ClosureNode) (limits : Limits)

theorem explores_roots :
    Explores snapshot (sortUnique roots) ((sortUnique roots).filter (· ∉ snapshot.nodes)) []
      ((sortUnique roots).foldl snapshot.seedRoot {}) :=
  explores_seedRoots ((sortUnique_pairwise roots).imp ne_of_lt)

theorem search_ended : Ended (snapshot.search roots limits snapshot.nodes.length) := by
  cases hflag : (snapshot.search roots limits snapshot.nodes.length).truncated with
  | true => exact Or.inl hflag
  | false =>
    have hseeded := explores_roots snapshot roots
    obtain ⟨-, -, -, hempty, -⟩ := traverse_complete snapshot.nodes.length hseeded (by simp)
      (by rw [hseeded.edges]; exact Nat.zero_le _) hflag
    exact Or.inr hempty

/-- As many rounds as there are nodes are enough. -/
theorem search_eq {rounds : ℕ} (hrounds : snapshot.nodes.length ≤ rounds) :
    snapshot.search roots limits rounds = snapshot.search roots limits snapshot.nodes.length := by
  obtain ⟨more, rfl⟩ := Nat.exists_eq_add_of_le hrounds
  exact traverse_of_ended (explores_roots snapshot roots).running
    (search_ended snapshot roots limits) more

theorem search_bounded :
    Bounded (min limits.maxClosureEdges snapshot.limits.maxClosureEdges)
      (max (min limits.maxClosureNodes snapshot.limits.maxClosureNodes) (sortUnique roots).length)
      (snapshot.search roots limits snapshot.nodes.length) := by
  have hseeded : (sortUnique roots).foldl snapshot.seedRoot {} = _ :=
    seedRoots_eq ((sortUnique_pairwise roots).imp ne_of_lt)
  apply Bounded.traverse (le_max_left _ _)
  rw [hseeded]
  exact ⟨Nat.zero_le _, le_max_right _ _⟩

/-- What is found is a root or depends on one. -/
theorem search_sound (hnode : node ∈ (snapshot.search roots limits snapshot.nodes.length).members) :
    snapshot.Reaches (sortUnique roots) node := by
  have hseeded : (sortUnique roots).foldl snapshot.seedRoot {} = _ :=
    seedRoots_eq ((sortUnique_pairwise roots).imp ne_of_lt)
  revert hnode node
  apply traverse_members
  · intro other hother dependent hdependent
    exact hother.dependent hdependent
  · intro other hother
    rw [hseeded] at hother
    exact Reaches.root hother
  · intro other hother
    rw [hseeded] at hother
    exact Reaches.root (List.mem_filter.mp hother).1

/-- A search that was not stopped has found the roots and all that depends on them. -/
theorem search_complete
    (hflag : (snapshot.search roots limits snapshot.nodes.length).truncated = false)
    (hreaches : snapshot.Reaches (sortUnique roots) node) :
    node ∈ (snapshot.search roots limits snapshot.nodes.length).members := by
  have hseeded := explores_roots snapshot roots
  obtain ⟨final, hfinal, hsubset, hempty, -⟩ := traverse_complete snapshot.nodes.length hseeded
    (by simp) (by rw [hseeded.edges]; exact Nat.zero_le _) hflag
  have hclosed := hfinal.closed
  have hmembers := hfinal.members
  rw [hempty, List.append_nil] at hclosed hmembers
  have hqueue : [] ++ ((sortUnique roots).foldl snapshot.seedRoot {}).queue =
      (sortUnique roots).filter (· ∈ snapshot.nodes) := by
    rw [List.nil_append, seedRoots_eq ((sortUnique_pairwise roots).imp ne_of_lt)]
  rw [search, hmembers]
  obtain ⟨root, hroot, hpath⟩ := hreaches
  rcases Relation.ReflTransGen.cases_head hpath with rfl | ⟨dependent, hedge, -⟩
  · -- a root is a member whether the snapshot knows it or not
    by_cases hlisted : root ∈ snapshot.nodes
    · exact Or.inl (hsubset (hqueue ▸ List.mem_filter.mpr ⟨hroot, decide_eq_true hlisted⟩))
    · exact Or.inr (List.mem_filter.mpr ⟨hroot, decide_eq_true hlisted⟩)
  · -- a root that something depends on is a node of the snapshot
    have hlisted : root ∈ snapshot.nodes := (snapshot.edgesListed _ hedge).2
    have hstart : root ∈ final :=
      hsubset (hqueue ▸ List.mem_filter.mpr ⟨hroot, decide_eq_true hlisted⟩)
    have hfrom : snapshot.Reaches [root] node := ⟨root, List.mem_singleton_self _, hpath⟩
    left
    apply hfrom.mem_of_closed _ hclosed
    intro other hother
    rw [List.mem_singleton.mp hother]
    exact hstart

end Searching

/-! ## The closure of a list of roots -/

variable {version : TopologyVersion} {switches : List SwitchDescriptor}
  {links : List LinkDescriptor} {paths : List PathDescriptor}
  {explicitEdges : List DependencyEdge} {declared : Limits}

/-- Reachability over the edges of a built snapshot. -/
theorem reaches_of_build
    (hbuilt : build version switches links paths explicitEdges declared = .ok snapshot)
    (roots : List ClosureNode) (node : ClosureNode) :
    snapshot.Reaches (sortUnique roots) node ↔
      node ∈ roots ∨ ∃ root ∈ roots, root ∈ snapshot.nodes ∧
        Relation.TransGen (Requires snapshot.links snapshot.paths explicitEdges) node root := by
  have hedges : snapshot.DependsOn = Requires snapshot.links snapshot.paths explicitEdges := by
    funext source target
    exact propext (dependsOn_of_build hbuilt source target)
  rw [← hedges]
  constructor
  · rintro ⟨root, hroot, hpath⟩
    rw [mem_sortUnique] at hroot
    rcases Relation.reflTransGen_iff_eq_or_transGen.mp hpath with rfl | htrans
    · exact Or.inl hroot
    · obtain ⟨dependent, hedge, -⟩ := Relation.TransGen.head'_iff.mp htrans
      exact Or.inr ⟨root, hroot, (snapshot.edgesListed _ hedge).2, Relation.transGen_swap.mp htrans⟩
  · rintro (hroot | ⟨root, hroot, -, htrans⟩)
    · exact Reaches.root ((mem_sortUnique _ _).mpr hroot)
    · exact ⟨root, (mem_sortUnique _ _).mpr hroot,
        (Relation.transGen_swap.mpr htrans).to_reflTransGen⟩

/-! ## What the counts and the dependents of a closure can be -/

theorem expand_queue_le (dependents : List ClosureNode)
    (hqueue : traversal.queue.length ≤ traversal.members.length) :
    (snapshot.expand nodeBudget edgeBudget dependents traversal).queue.length ≤
      (snapshot.expand nodeBudget edgeBudget dependents traversal).members.length := by
  induction dependents generalizing traversal with
  | nil => exact hqueue
  | cons dependent rest ih =>
    rw [TopologySnapshot.expand]
    dsimp only
    split_ifs
    · exact hqueue
    · exact ih hqueue
    · exact hqueue
    · refine ih ?_
      rw [List.length_append, List.length_append]
      exact Nat.add_le_add_right hqueue _

/-- What is queued is a member as well. -/
theorem traverse_queue_le (fuel : ℕ) (hqueue : traversal.queue.length ≤ traversal.members.length) :
    (snapshot.traverse nodeBudget edgeBudget fuel traversal).queue.length ≤
      (snapshot.traverse nodeBudget edgeBudget fuel traversal).members.length := by
  induction fuel generalizing traversal with
  | zero => exact hqueue
  | succ fuel ih =>
    rw [TopologySnapshot.traverse]
    split
    · exact hqueue
    · rename_i node rest hnodes
      have hpopped : rest.length ≤ traversal.members.length := by
        rw [hnodes, List.length_cons] at hqueue
        omega
      have hexpanded : (snapshot.expand nodeBudget edgeBudget (snapshot.directDependents node)
            { traversal with queue := rest }).queue.length ≤ _ :=
        expand_queue_le _ hpopped
      dsimp only
      split_ifs
      · exact hqueue
      · exact hexpanded
      · exact ih hexpanded

theorem search_queue_le (snapshot : TopologySnapshot) (roots : List ClosureNode)
    (limits : Limits) (rounds : ℕ) :
    (snapshot.search roots limits rounds).queue.length ≤
      (snapshot.search roots limits rounds).members.length := by
  have hseeded : (sortUnique roots).foldl snapshot.seedRoot {} = _ :=
    seedRoots_eq ((sortUnique_pairwise roots).imp ne_of_lt)
  apply traverse_queue_le
  rw [hseeded]
  exact List.length_filter_le _ _

theorem closure_counts (snapshot : TopologySnapshot) (failed : GenerationVector) (limits : Limits) :
    (snapshot.closure failed limits).members.length ≤
        max limits.maxClosureNodes failed.keys.length ∧
      (snapshot.closure failed limits).omittedFrontier ≤
        max limits.maxClosureNodes failed.keys.length := by
  have hroots : (sortUnique (failed.keys.map ClosureNode.ofSwitch)).length ≤ failed.keys.length :=
    (length_sortUnique_le fun _ hroot => hroot).trans_eq (List.length_map _)
  have hfound : (snapshot.search (failed.keys.map .ofSwitch) limits
      snapshot.nodes.length).members.length ≤ max limits.maxClosureNodes failed.keys.length :=
    (search_bounded snapshot _ limits).members.trans (max_le_max (min_le_left _ _) hroots)
  have hqueued := (search_queue_le snapshot (failed.keys.map .ofSwitch) limits
    snapshot.nodes.length).trans hfound
  constructor
  · exact le_trans (length_sortUnique_le fun _ hnode => hnode) hfound
  · change (if (snapshot.search (failed.keys.map .ofSwitch) limits
      snapshot.nodes.length).truncated then _ else 0) ≤ _
    split
    · exact hqueued
    · exact Nat.zero_le _

/-- A snapshot is default-constructed or built. -/
def Constructed (snapshot : TopologySnapshot) : Prop :=
  snapshot = .empty ∨ ∃ version switches links paths explicitEdges limits,
    build version switches links paths explicitEdges limits = .ok snapshot

theorem explicit_of_build
    (hbuilt : build version switches links paths explicitEdges declared = .ok snapshot)
    {edge : DependencyEdge} (hedge : edge ∈ explicitEdges) : edge.source.valid = true := by
  simp only [build, result_bind_eq_ok, require_eq_ok, requireWithin_eq_ok, exists_const] at hbuilt
  obtain ⟨-, -, -, -, -, -, -, admittedSwitches, -, hbuilt⟩ := hbuilt
  obtain ⟨admittedLinks, -, hbuilt⟩ := hbuilt
  obtain ⟨admittedPaths, -, hexplicit, -⟩ := hbuilt
  have hends := List.all_eq_true.mp hexplicit edge hedge
  exact (Bool.and_eq_true_iff.mp hends).1

theorem kind_of_dependsOn (hconstructed : Constructed snapshot) {target : ClosureNode}
    (hedge : snapshot.DependsOn (.ofDependent dependent) target) : dependent.kind ≠ .unknown := by
  rcases hconstructed with rfl | ⟨version, switches, links, paths, explicitEdges, limits, hbuilt⟩
  · cases hedge
  · generalize hsource : ClosureNode.ofDependent dependent = source at hedge
    cases (dependsOn_of_build hbuilt source target).mp hedge with
    | linkStart hlink =>
      cases hsource
      exact fun hkind => by cases hkind
    | linkEnd hlink =>
      cases hsource
      exact fun hkind => by cases hkind
    | pathHop hpath hhop =>
      cases hsource
      exact fun hkind => by cases hkind
    | pathLink hpath hlink =>
      cases hsource
      exact fun hkind => by cases hkind
    | explicit hexplicit =>
      have hvalid := explicit_of_build hbuilt hexplicit
      rw [← hsource] at hvalid
      exact DependentRef.kind_of_valid hvalid

theorem kind_of_mem_closure (hconstructed : Constructed snapshot) {failed : GenerationVector}
    {limits : Limits} (hdependent : dependent ∈ (snapshot.closure failed limits).dependents) :
    dependent.kind ≠ .unknown := by
  have hreaches := search_sound snapshot (failed.keys.map .ofSwitch) limits
    ((mem_closure_dependents dependent).mp hdependent)
  obtain ⟨root, hroot, hpath⟩ := hreaches
  rcases Relation.ReflTransGen.cases_tail hpath with hsame | ⟨target, -, hedge⟩
  · rw [mem_sortUnique, ← hsame] at hroot
    obtain ⟨key, -, hkey⟩ := List.mem_map.mp hroot
    cases hkey
  · exact kind_of_dependsOn hconstructed hedge

/-- The closure is exact.  The traversal ends; its members are roots or nodes that depend
on a root; unless it reports that a bound stopped it, they are all of them; its counts
stay within the budgets; and the order and the repetitions of the roots do not matter. -/
theorem closureFrom_exact
    (hbuilt : build version switches links paths explicitEdges declared = .ok snapshot)
    (roots : List ClosureNode) (limits : Limits) :
    let closure := snapshot.closureFrom roots limits
    let requires := Requires snapshot.links snapshot.paths explicitEdges
    (∀ rounds, snapshot.nodes.length ≤ rounds →
      Ended (snapshot.search roots limits rounds) ∧
      snapshot.search roots limits rounds =
        snapshot.search roots limits snapshot.nodes.length) ∧
    (∀ node ∈ closure.members,
      node ∈ roots ∨ ∃ root ∈ roots, Relation.TransGen requires node root) ∧
    (closure.state ≠ .truncated → ∀ node, node ∈ closure.members ↔
      node ∈ roots ∨ ∃ root ∈ roots, root ∈ snapshot.nodes ∧
        Relation.TransGen requires node root) ∧
    closure.edgesExamined ≤ min limits.maxClosureEdges snapshot.limits.maxClosureEdges ∧
    closure.members.length ≤
      max (min limits.maxClosureNodes snapshot.limits.maxClosureNodes) roots.dedup.length ∧
    ∀ others : List ClosureNode, (∀ node, node ∈ others ↔ node ∈ roots) →
      snapshot.closureFrom others limits = closure := by
  intro closure requires
  have hmembers : ∀ node, node ∈ closure.members ↔
      node ∈ (snapshot.search roots limits snapshot.nodes.length).members :=
    fun node => mem_sortUnique node _
  have hbounded := search_bounded snapshot roots limits
  refine ⟨?_, ?_, ?_, hbounded.edges, ?_, ?_⟩
  · intro rounds hrounds
    have hequal := search_eq snapshot roots limits hrounds
    rw [hequal]
    exact ⟨search_ended snapshot roots limits, rfl⟩
  · intro node hnode
    have hreaches := search_sound snapshot roots limits ((hmembers node).mp hnode)
    rcases (reaches_of_build hbuilt roots node).mp hreaches with hroot | ⟨root, hroot, -, htrans⟩
    · exact Or.inl hroot
    · exact Or.inr ⟨root, hroot, htrans⟩
  · intro hstate node
    have hflag : (snapshot.search roots limits snapshot.nodes.length).truncated = false := by
      by_contra hstopped
      exact hstate (if_pos (Bool.eq_true_of_not_eq_false hstopped))
    rw [hmembers, ← reaches_of_build hbuilt]
    exact ⟨search_sound snapshot roots limits, search_complete snapshot roots limits hflag⟩
  · calc closure.members.length
        ≤ (snapshot.search roots limits snapshot.nodes.length).members.length :=
          length_sortUnique_le fun _ hnode => hnode
      _ ≤ max (min limits.maxClosureNodes snapshot.limits.maxClosureNodes)
            (sortUnique roots).length := hbounded.members
      _ ≤ _ := max_le_max le_rfl (length_sortUnique_le fun _ hroot => List.mem_dedup.mpr hroot)
  · intro others hsame
    change snapshot.closureFrom others limits = snapshot.closureFrom roots limits
    rw [closureFrom, closureFrom, sortUnique_congr hsame]

namespace Sample

def near : SwitchKey := ⟨⟨1⟩, ⟨1⟩⟩

def far : SwitchKey := ⟨⟨2⟩, ⟨1⟩⟩

/-- A service that rides on a path over a link between two switches. -/
def declaration : Result TopologySnapshot :=
  build ⟨1⟩ [{ key := near, portCount := 1 }, { key := far, portCount := 1 }]
    [{ id := ⟨1⟩, a := ⟨near, 1⟩, b := ⟨far, 1⟩ }]
    [{ id := ⟨1⟩, hops := [far], links := [⟨1⟩] }]
    [⟨.ofDependent (.service 1), .ofDependent (.path ⟨1⟩)⟩] {}

def riding : TopologySnapshot := declaration.toOption.getD .empty

theorem built : declaration = .ok riding :=
  ok_of_toBool (by decide +kernel) .empty

end Sample

/-- The closure of a failed switch lists the link, the path and the service. -/
theorem closureFrom_exact_sample :
    (Sample.riding.closureFrom [.ofSwitch Sample.near] {}).state = .complete ∧
      (.ofDependent (.service 1) ∈
          (Sample.riding.closureFrom [.ofSwitch Sample.near] {}).members ↔
        ClosureNode.ofDependent (.service 1) ∈ [ClosureNode.ofSwitch Sample.near] ∨
          ∃ root ∈ [ClosureNode.ofSwitch Sample.near], root ∈ Sample.riding.nodes ∧
            Relation.TransGen (Requires Sample.riding.links Sample.riding.paths
              [⟨.ofDependent (.service 1), .ofDependent (.path ⟨1⟩)⟩])
              (.ofDependent (.service 1)) root) := by
  have hcomplete : (Sample.riding.closureFrom [.ofSwitch Sample.near] {}).state = .complete := by
    decide +kernel
  refine ⟨hcomplete, (closureFrom_exact Sample.built [.ofSwitch Sample.near] {}).2.2.1 ?_ _⟩
  rw [hcomplete]
  decide

end TopologySnapshot

end SwitchFailover.Model
