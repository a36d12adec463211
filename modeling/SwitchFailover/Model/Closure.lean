import SwitchFailover.Model.Topology

/-!
# The dependency closure and its bounds

A traversal that no bound stopped has visited exactly what is reachable from its
roots.  The bounds are on the whole traversal, so a traversal from fewer roots does
not need more; it may be stopped by the bound on edges, but only when nothing is left
to examine.
-/

namespace SwitchFailover.Model

open SwitchFailover.Core Library.Ordering

variable {node : ClosureNode} {property : ClosureNode → Prop}
  {rest fresh : List ClosureNode} {key : SwitchKey}

/-- The state after the dependents of a node were examined without being stopped. -/
def Traversal.discover (traversal : Traversal) (fresh : List ClosureNode) (examined : ℕ) :
    Traversal :=
  { traversal with
    visited := fresh.reverse ++ traversal.visited
    members := traversal.members ++ fresh
    queue := traversal.queue ++ fresh
    edgesExamined := traversal.edgesExamined + examined }

namespace TopologySnapshot

variable {snapshot : TopologySnapshot} {nodeBudget edgeBudget : ℕ} {roots absent : List ClosureNode}
  {traversal : Traversal}

/-- One dependency edge, derived or explicit. -/
def DependsOn (snapshot : TopologySnapshot) (source target : ClosureNode) : Prop :=
  (⟨source, target⟩ : DependencyEdge) ∈ snapshot.edges

theorem mem_directDependents (node dependent : ClosureNode) :
    dependent ∈ snapshot.directDependents node ↔ snapshot.DependsOn dependent node := by
  rw [directDependents, mem_sortUnique, List.mem_filterMap]
  constructor
  · rintro ⟨⟨source, target⟩, hedge, hselected⟩
    split_ifs at hselected with htarget
    cases hselected
    cases htarget
    exact hedge
  · intro hedge
    exact ⟨⟨dependent, node⟩, hedge, by simp⟩

/-- The nodes that depend on one of the roots, directly or not, and the roots. -/
def Reaches (snapshot : TopologySnapshot) (roots : List ClosureNode) (node : ClosureNode) : Prop :=
  ∃ root ∈ roots, Relation.ReflTransGen (fun target source => snapshot.DependsOn source target)
    root node

theorem Reaches.root {root : ClosureNode} (hroot : root ∈ roots) : snapshot.Reaches roots root :=
  ⟨root, hroot, Relation.ReflTransGen.refl⟩

theorem Reaches.dependent {dependent : ClosureNode} (hreaches : snapshot.Reaches roots node)
    (hdependent : dependent ∈ snapshot.directDependents node) :
    snapshot.Reaches roots dependent := by
  obtain ⟨root, hroot, hpath⟩ := hreaches
  exact ⟨root, hroot, hpath.tail ((mem_directDependents node dependent).mp hdependent)⟩

theorem Reaches.mono {more : List ClosureNode} (hreaches : snapshot.Reaches roots node)
    (hsubset : roots ⊆ more) : snapshot.Reaches more node := by
  obtain ⟨root, hroot, hpath⟩ := hreaches
  exact ⟨root, hsubset hroot, hpath⟩

/-- A set that contains the roots and with each node its dependents contains everything
that is reachable. -/
theorem Reaches.mem_of_closed {visited : List ClosureNode}
    (hreaches : snapshot.Reaches roots node) (hroots : ∀ root ∈ roots, root ∈ visited)
    (hclosed : ∀ other ∈ visited, ∀ dependent ∈ snapshot.directDependents other,
      dependent ∈ visited) : node ∈ visited := by
  obtain ⟨root, hroot, hpath⟩ := hreaches
  induction hpath with
  | refl => exact hroots root hroot
  | tail _ hedge ih => exact hclosed _ ih _ ((mem_directDependents _ _).mpr hedge)

theorem directDependents_listed {dependent : ClosureNode}
    (hdependent : dependent ∈ snapshot.directDependents node) : dependent ∈ snapshot.nodes :=
  (snapshot.edgesListed _ ((mem_directDependents node dependent).mp hdependent)).1

/-! ## What is discovered is reachable -/

theorem expand_members (dependents : List ClosureNode) (traversal : Traversal)
    (hdependents : ∀ node ∈ dependents, property node)
    (hmembers : ∀ node ∈ traversal.members, property node)
    (hqueue : ∀ node ∈ traversal.queue, property node) :
    (∀ node ∈ (snapshot.expand nodeBudget edgeBudget dependents traversal).members, property node) ∧
    ∀ node ∈ (snapshot.expand nodeBudget edgeBudget dependents traversal).queue, property node := by
  induction dependents generalizing traversal with
  | nil => exact ⟨hmembers, hqueue⟩
  | cons dependent rest ih =>
    have hrest := fun node hnode => hdependents node (List.mem_cons_of_mem _ hnode)
    rw [expand]
    dsimp only
    split_ifs
    · exact ⟨hmembers, hqueue⟩
    · exact ih _ hrest hmembers hqueue
    · exact ⟨hmembers, hqueue⟩
    · have hadded : ∀ nodes : List ClosureNode, (∀ node ∈ nodes, property node) →
          ∀ node ∈ nodes ++ [dependent], property node := by
        intro nodes hnodes node hnode
        rcases List.mem_append.mp hnode with hold | hnew
        · exact hnodes node hold
        · rw [List.mem_singleton.mp hnew]
          exact hdependents dependent List.mem_cons_self
      exact ih _ hrest (hadded _ hmembers) (hadded _ hqueue)

theorem traverse_members
    (hclosed : ∀ node, property node → ∀ dependent ∈ snapshot.directDependents node,
      property dependent) (fuel : ℕ) (traversal : Traversal)
    (hmembers : ∀ node ∈ traversal.members, property node)
    (hqueue : ∀ node ∈ traversal.queue, property node) :
    ∀ node ∈ (snapshot.traverse nodeBudget edgeBudget fuel traversal).members, property node := by
  induction fuel generalizing traversal with
  | zero => exact hmembers
  | succ fuel ih =>
    rw [traverse]
    cases hqueued : traversal.queue with
    | nil => exact hmembers
    | cons node rest =>
      rw [hqueued] at hqueue
      dsimp only
      obtain ⟨hexpanded, hnext⟩ := expand_members
        (snapshot.directDependents node) { traversal with queue := rest }
        (hclosed node (hqueue node List.mem_cons_self)) hmembers
        (fun other hother => hqueue other (List.mem_cons_of_mem _ hother))
      split_ifs
      · exact hmembers
      · exact hexpanded
      · exact ih _ hexpanded hnext

/-! ## One expansion -/

/-- What an expansion discovers, when no bound stops it. -/
structure Discovers (snapshot : TopologySnapshot) (dependents : List ClosureNode)
    (traversal : Traversal) (fresh : List ClosureNode) : Prop where
  nodup : fresh.Nodup
  new : ∀ node ∈ fresh, node ∈ dependents ∧ node ∈ snapshot.nodes ∧ node ∉ traversal.visited
  complete : ∀ node ∈ dependents, node ∈ snapshot.nodes →
    node ∈ fresh ∨ node ∈ traversal.visited

theorem expand_complete (dependents : List ClosureNode) (traversal : Traversal)
    (hflag : (snapshot.expand nodeBudget edgeBudget dependents traversal).truncated = false) :
    traversal.truncated = false ∧ (traversal.edgesExamined ≤ edgeBudget →
        traversal.edgesExamined + dependents.length ≤ edgeBudget) ∧
      ∃ fresh, Discovers snapshot dependents traversal fresh ∧
        snapshot.expand nodeBudget edgeBudget dependents traversal =
          traversal.discover fresh dependents.length := by
  induction dependents generalizing traversal with
  | nil =>
    refine ⟨hflag, fun hwithin => hwithin, [], ⟨List.nodup_nil, by simp, by simp⟩, ?_⟩
    simp [expand, Traversal.discover]
  | cons dependent rest ih =>
    rw [expand] at hflag ⊢
    dsimp only at hflag ⊢
    split_ifs at hflag ⊢ with hedges hknown hnodes
    · -- the dependent is not new
      obtain ⟨hstart, hcount, fresh, hfresh, hresult⟩ := ih _ hflag
      refine ⟨hstart, fun _ => ?_, fresh, ⟨hfresh.nodup, ?_, ?_⟩, ?_⟩
      · have hwithin := hcount (Nat.succ_le_of_lt (not_le.mp hedges))
        rw [List.length_cons]
        dsimp only at hwithin
        omega
      · intro node hnode
        obtain ⟨hmem, hlisted, hnew⟩ := hfresh.new node hnode
        exact ⟨List.mem_cons_of_mem _ hmem, hlisted, hnew⟩
      · intro node hnode hlisted
        rcases List.mem_cons.mp hnode with rfl | hrest
        · exact Or.inr (hknown.resolve_left (not_not.mpr hlisted))
        · exact hfresh.complete node hrest hlisted
      · rw [hresult, Traversal.discover, Traversal.discover]
        simp
        omega
    · obtain ⟨hstart, hcount, fresh, hfresh, hresult⟩ := ih _ hflag
      rw [not_or, not_not] at hknown
      refine ⟨hstart, fun _ => ?_, dependent :: fresh, ⟨?_, ?_, ?_⟩, ?_⟩
      · have hwithin := hcount (Nat.succ_le_of_lt (not_le.mp hedges))
        rw [List.length_cons]
        dsimp only at hwithin
        omega
      · refine List.nodup_cons.mpr ⟨?_, hfresh.nodup⟩
        intro hrepeated
        exact (hfresh.new dependent hrepeated).2.2 List.mem_cons_self
      · intro node hnode
        rcases List.mem_cons.mp hnode with rfl | hrest
        · exact ⟨List.mem_cons_self, hknown.1, hknown.2⟩
        · obtain ⟨hmem, hlisted, hnew⟩ := hfresh.new node hrest
          exact ⟨List.mem_cons_of_mem _ hmem, hlisted,
            fun hvisited => hnew (List.mem_cons_of_mem _ hvisited)⟩
      · intro node hnode hlisted
        rcases List.mem_cons.mp hnode with rfl | hrest
        · exact Or.inl List.mem_cons_self
        · rcases hfresh.complete node hrest hlisted with hnew | hvisited
          · exact Or.inl (List.mem_cons_of_mem _ hnew)
          · rcases List.mem_cons.mp hvisited with rfl | hold
            · exact Or.inl List.mem_cons_self
            · exact Or.inr hold
      · rw [hresult, Traversal.discover, Traversal.discover]
        simp
        omega

/-- Where the bounds leave room for all dependents, an expansion is not stopped. -/
theorem expand_not_truncated (dependents : List ClosureNode) (traversal : Traversal)
    (hflag : traversal.truncated = false)
    (hedges : traversal.edgesExamined + dependents.length ≤ edgeBudget)
    (hnodes : ∀ fresh : List ClosureNode, fresh.Nodup →
      (∀ node ∈ fresh, node ∈ dependents ∧ node ∈ snapshot.nodes ∧ node ∉ traversal.visited) →
      traversal.members.length + fresh.length ≤ nodeBudget) :
    (snapshot.expand nodeBudget edgeBudget dependents traversal).truncated = false := by
  induction dependents generalizing traversal with
  | nil => exact hflag
  | cons dependent rest ih =>
    rw [List.length_cons] at hedges
    rw [expand, if_neg (by omega)]
    dsimp only
    split_ifs with hknown hfull
    · apply ih
      · exact hflag
      · dsimp only
        omega
      · intro fresh hnodup hfresh
        apply hnodes fresh hnodup
        intro node hnode
        obtain ⟨hmem, hrest⟩ := hfresh node hnode
        exact ⟨List.mem_cons_of_mem _ hmem, hrest⟩
    · exfalso
      rw [not_or, not_not] at hknown
      have hroom := hnodes [dependent] (List.nodup_singleton _) (by
        intro node hnode
        rw [List.mem_singleton.mp hnode]
        exact ⟨List.mem_cons_self, hknown.1, hknown.2⟩)
      rw [List.length_singleton] at hroom
      omega
    · rw [not_or, not_not] at hknown
      apply ih
      · exact hflag
      · dsimp only
        omega
      · intro fresh hnodup hfresh
        dsimp only at hfresh ⊢
        rw [List.length_append, List.length_singleton]
        have hroom := hnodes (dependent :: fresh) (List.nodup_cons.mpr ⟨fun hrepeated =>
            (hfresh dependent hrepeated).2.2 List.mem_cons_self, hnodup⟩) (by
          intro node hnode
          rcases List.mem_cons.mp hnode with rfl | hrest
          · exact ⟨List.mem_cons_self, hknown.1, hknown.2⟩
          · obtain ⟨hmem, hlisted, hnew⟩ := hfresh node hrest
            exact ⟨List.mem_cons_of_mem _ hmem, hlisted,
              fun hvisited => hnew (List.mem_cons_of_mem _ hvisited)⟩)
        rw [List.length_cons] at hroom
        omega

/-! ## A whole traversal -/

/-- The number of edges into a node that a traversal examines. -/
def edgesInto (snapshot : TopologySnapshot) (node : ClosureNode) : ℕ :=
  (snapshot.directDependents node).length

/-- The invariant of the loop while no bound has stopped it.  The visited nodes are the
expanded ones, whose dependents are all visited, and the queued ones. -/
structure Explores (snapshot : TopologySnapshot) (roots absent expanded : List ClosureNode)
    (traversal : Traversal) : Prop where
  running : traversal.truncated = false
  nodup : (expanded ++ traversal.queue).Nodup
  visited : ∀ node, node ∈ traversal.visited ↔ node ∈ expanded ++ traversal.queue
  listed : ∀ node ∈ expanded ++ traversal.queue, node ∈ snapshot.nodes
  reached : ∀ node ∈ expanded ++ traversal.queue, snapshot.Reaches roots node
  members : ∀ node, node ∈ traversal.members ↔
    node ∈ expanded ++ traversal.queue ∨ node ∈ absent
  count : traversal.members.length = (expanded ++ traversal.queue).length + absent.length
  closed : ∀ node ∈ expanded, ∀ dependent ∈ snapshot.directDependents node,
    dependent ∈ expanded ++ traversal.queue
  edges : traversal.edgesExamined = (expanded.map snapshot.edgesInto).sum

variable {expanded : List ClosureNode}

/-- One round: the node at the head of the queue becomes an expanded one. -/
theorem Explores.round (hexplores : Explores snapshot roots absent expanded traversal)
    (hqueue : traversal.queue = node :: rest)
    (hfresh : Discovers snapshot (snapshot.directDependents node)
      { traversal with queue := rest } fresh) :
    Explores snapshot roots absent (expanded ++ [node])
      (({ traversal with queue := rest } : Traversal).discover fresh
        (snapshot.directDependents node).length) := by
  have hsplit : expanded ++ [node] ++ (rest ++ fresh) = (expanded ++ traversal.queue) ++ fresh := by
    rw [hqueue]
    simp
  have hnode : node ∈ expanded ++ traversal.queue := by
    rw [hqueue]
    exact List.mem_append_right _ List.mem_cons_self
  have hnew : ∀ other ∈ fresh, other ∉ expanded ++ traversal.queue := by
    intro other hother hold
    exact (hfresh.new other hother).2.2 ((hexplores.visited other).mpr hold)
  refine ⟨hexplores.running, ?_, ?_, ?_, ?_, ?_, ?_, ?_, ?_⟩
  · change (expanded ++ [node] ++ (rest ++ fresh)).Nodup
    rw [hsplit]
    exact List.nodup_append'.mpr ⟨hexplores.nodup, hfresh.nodup,
      fun other hold hother => hnew other hother hold⟩
  · intro other
    change other ∈ fresh.reverse ++ traversal.visited ↔
      other ∈ expanded ++ [node] ++ (rest ++ fresh)
    rw [hsplit, List.mem_append, List.mem_reverse, hexplores.visited, List.mem_append (t := fresh),
      or_comm]
  · change ∀ other ∈ expanded ++ [node] ++ (rest ++ fresh), other ∈ snapshot.nodes
    rw [hsplit]
    intro other hother
    rcases List.mem_append.mp hother with hold | hadded
    · exact hexplores.listed other hold
    · exact (hfresh.new other hadded).2.1
  · change ∀ other ∈ expanded ++ [node] ++ (rest ++ fresh), snapshot.Reaches roots other
    rw [hsplit]
    intro other hother
    rcases List.mem_append.mp hother with hold | hadded
    · exact hexplores.reached other hold
    · exact (hexplores.reached node hnode).dependent (hfresh.new other hadded).1
  · intro other
    change other ∈ traversal.members ++ fresh ↔
      other ∈ expanded ++ [node] ++ (rest ++ fresh) ∨ other ∈ absent
    rw [hsplit, List.mem_append, hexplores.members, List.mem_append (t := fresh)]
    tauto
  · change (traversal.members ++ fresh).length =
      (expanded ++ [node] ++ (rest ++ fresh)).length + absent.length
    simp only [hsplit, List.length_append, hexplores.count]
    omega
  · change ∀ other ∈ expanded ++ [node], ∀ dependent ∈ snapshot.directDependents other,
      dependent ∈ expanded ++ [node] ++ (rest ++ fresh)
    rw [hsplit]
    intro other hother dependent hdependent
    rcases List.mem_append.mp hother with hold | hlast
    · exact List.mem_append_left _ (hexplores.closed other hold dependent hdependent)
    · rw [List.mem_singleton.mp hlast] at hdependent
      rcases hfresh.complete dependent hdependent (directDependents_listed hdependent) with
        hadded | hvisited
      · exact List.mem_append_right _ hadded
      · exact List.mem_append_left _ ((hexplores.visited dependent).mp hvisited)
  · change traversal.edgesExamined + _ = _
    rw [hexplores.edges, List.map_append, List.sum_append]
    simp [edgesInto]

/-- A round forgets no node. -/
theorem subset_round {next : Traversal} {examined : ℕ} (hqueue : traversal.queue = node :: rest)
    (hnext : next = ({ traversal with queue := rest } : Traversal).discover fresh examined) :
    (expanded ++ traversal.queue) ⊆ (expanded ++ [node] ++ next.queue) := by
  have hsplit : expanded ++ [node] ++ next.queue = (expanded ++ traversal.queue) ++ fresh := by
    rw [hnext, Traversal.discover, hqueue]
    simp
  rw [hsplit]
  exact List.subset_append_left _ _

/-- The queue is empty once as many nodes were expanded as the topology has. -/
theorem Explores.queue_eq_nil (hexplores : Explores snapshot roots absent expanded traversal)
    (hmany : snapshot.nodes.length ≤ expanded.length) : traversal.queue = [] := by
  have hcount : (expanded ++ traversal.queue).length ≤ snapshot.nodes.length :=
    (hexplores.nodup.subperm hexplores.listed).length_le
  rw [List.length_append] at hcount
  exact List.length_eq_zero_iff.mp (by omega)

/-- A traversal that ends without being stopped has expanded everything it visited.  It
stayed below the bound on nodes, unless it had nothing to do, and within the bound on
edges. -/
theorem traverse_complete (fuel : ℕ) (hexplores : Explores snapshot roots absent expanded traversal)
    (hfuel : snapshot.nodes.length ≤ fuel + expanded.length)
    (hedges : traversal.edgesExamined ≤ edgeBudget)
    (hflag : (snapshot.traverse nodeBudget edgeBudget fuel traversal).truncated = false) :
    ∃ final, Explores snapshot roots absent final
        (snapshot.traverse nodeBudget edgeBudget fuel traversal) ∧
      (expanded ++ traversal.queue) ⊆ final ∧
      (snapshot.traverse nodeBudget edgeBudget fuel traversal).queue = [] ∧
      (snapshot.traverse nodeBudget edgeBudget fuel traversal).edgesExamined ≤ edgeBudget ∧
      (traversal.queue ≠ [] →
        (snapshot.traverse nodeBudget edgeBudget fuel traversal).members.length < nodeBudget) := by
  induction fuel generalizing expanded traversal with
  | zero =>
    have hempty := hexplores.queue_eq_nil (by omega)
    refine ⟨expanded, hexplores, ?_, hempty, hedges, fun hsome => absurd hempty hsome⟩
    rw [hempty, List.append_nil]
    exact List.Subset.refl _
  | succ fuel ih =>
    rw [traverse] at hflag ⊢
    cases hqueue : traversal.queue with
    | nil =>
      rw [hqueue] at hflag
      refine ⟨expanded, hexplores, ?_, hqueue, hedges, fun hsome => absurd rfl hsome⟩
      rw [List.append_nil]
      exact List.Subset.refl _
    | cons node rest =>
      rw [hqueue] at hflag
      dsimp only at hflag ⊢
      split_ifs at hflag ⊢ with hbounds hstopped
      · exact absurd hflag (by rw [hstopped]; decide)
      · rw [Bool.not_eq_true] at hstopped
        obtain ⟨-, hwithin, fresh, hfresh, hresult⟩ := expand_complete _ _ hstopped
        have hnext := hexplores.round hqueue hfresh
        rw [← hresult] at hnext
        obtain ⟨final, hfinal, hsubset, hempty, hexamined, hroom⟩ := ih hnext (by
            rw [List.length_append, List.length_singleton]
            omega) (by
            rw [hresult]
            exact hwithin hedges) hflag
        refine ⟨final, hfinal, ?_, hempty, hexamined, fun _ => ?_⟩
        · rw [← hqueue]
          exact List.Subset.trans (subset_round hqueue hresult) hsubset
        by_cases hlast : (snapshot.expand nodeBudget edgeBudget
            (snapshot.directDependents node) { traversal with queue := rest }).queue = []
        · -- nothing was discovered, so the bound was checked with the final members
          have hnone : fresh = [] := by
            rw [hresult] at hlast
            exact (List.append_eq_nil_iff.mp hlast).2
          have hstill : snapshot.traverse nodeBudget edgeBudget fuel (snapshot.expand nodeBudget
              edgeBudget (snapshot.directDependents node) { traversal with queue := rest }) =
              snapshot.expand nodeBudget edgeBudget (snapshot.directDependents node)
                { traversal with queue := rest } := by
            cases fuel with
            | zero => rfl
            | succ fuel => rw [traverse, hlast]
          rw [hstill, hresult, hnone]
          change (traversal.members ++ []).length < nodeBudget
          rw [List.append_nil]
          omega
        · exact hroom hlast

/-- Where the bound leaves room for all that is reachable, it leaves room for what the
next expansion discovers. -/
theorem Explores.room (hexplores : Explores snapshot roots absent expanded traversal)
    (hqueue : traversal.queue = node :: rest) (hnodes : ∀ nodes : List ClosureNode, nodes.Nodup →
      (∀ node ∈ nodes, snapshot.Reaches roots node) → nodes.length + absent.length < nodeBudget)
    (fresh : List ClosureNode) (hnodup : fresh.Nodup)
    (hfresh : ∀ other ∈ fresh, other ∈ snapshot.directDependents node ∧
      other ∈ snapshot.nodes ∧ other ∉ traversal.visited) :
    traversal.members.length + fresh.length ≤ nodeBudget := by
  have hnode : node ∈ expanded ++ traversal.queue := by
    rw [hqueue]
    exact List.mem_append_right _ List.mem_cons_self
  have hall : (expanded ++ traversal.queue ++ fresh).Nodup := by
    refine List.nodup_append'.mpr ⟨hexplores.nodup, hnodup, ?_⟩
    intro other hold hother
    exact (hfresh other hother).2.2 ((hexplores.visited other).mpr hold)
  have hreached : ∀ other ∈ expanded ++ traversal.queue ++ fresh, snapshot.Reaches roots other := by
    intro other hother
    rcases List.mem_append.mp hother with hold | hadded
    · exact hexplores.reached other hold
    · exact (hexplores.reached node hnode).dependent (hfresh other hadded).1
  have hroom := hnodes _ hall hreached
  rw [List.length_append] at hroom
  rw [hexplores.count]
  omega

/-- A traversal for which the bounds leave room reaches everything, even if the bound on
edges stops it in the end. -/
theorem traverse_closed (fuel : ℕ) (hexplores : Explores snapshot roots absent expanded traversal)
    (hfuel : snapshot.nodes.length ≤ fuel + expanded.length)
    (hnodes : ∀ nodes : List ClosureNode, nodes.Nodup →
      (∀ node ∈ nodes, snapshot.Reaches roots node) → nodes.length + absent.length < nodeBudget)
    (hedges : ∀ nodes : List ClosureNode, nodes.Nodup →
      (∀ node ∈ nodes, snapshot.Reaches roots node) →
      (nodes.map snapshot.edgesInto).sum ≤ edgeBudget) :
    ∃ visited : List ClosureNode, (expanded ++ traversal.queue) ⊆ visited ∧
      (∀ node ∈ visited, ∀ dependent ∈ snapshot.directDependents node, dependent ∈ visited) ∧
      ∀ node ∈ visited,
        node ∈ (snapshot.traverse nodeBudget edgeBudget fuel traversal).members := by
  have hmembers : ∀ node ∈ expanded ++ traversal.queue, node ∈ traversal.members :=
    fun node hnode => (hexplores.members node).mpr (Or.inl hnode)
  induction fuel generalizing expanded traversal with
  | zero =>
    have hempty := hexplores.queue_eq_nil (by omega)
    refine ⟨expanded ++ traversal.queue, List.Subset.refl _, ?_, hmembers⟩
    intro node hnode
    rw [hempty, List.append_nil] at hnode
    exact hexplores.closed node hnode
  | succ fuel ih =>
    rw [traverse]
    cases hqueue : traversal.queue with
    | nil =>
      rw [hqueue] at hmembers
      refine ⟨expanded ++ [], List.Subset.refl _, ?_, hmembers⟩
      intro node hnode dependent hdependent
      rw [List.append_nil] at hnode
      have hclosed := hexplores.closed node hnode dependent hdependent
      rwa [hqueue] at hclosed
    | cons node rest =>
      dsimp only
      have hroom := hnodes _ hexplores.nodup hexplores.reached
      rw [← hexplores.count] at hroom
      have htotal := hedges _ hexplores.nodup hexplores.reached
      rw [List.map_append, List.sum_append, ← hexplores.edges] at htotal
      split_ifs with hbounds hstopped
      · -- all edges were examined: what is still queued has no dependents
        have hexhausted := hbounds.resolve_left (not_le.mpr hroom)
        have hnone : (traversal.queue.map snapshot.edgesInto).sum = 0 := by omega
        rw [← hqueue]
        refine ⟨expanded ++ traversal.queue, List.Subset.refl _, ?_, hmembers⟩
        intro other hother dependent hdependent
        rcases List.mem_append.mp hother with hold | hqueued
        · exact hexplores.closed other hold dependent hdependent
        · have hzero := List.sum_eq_zero_iff.mp hnone _ (List.mem_map_of_mem hqueued)
          rw [edgesInto, List.length_eq_zero_iff] at hzero
          rw [hzero] at hdependent
          cases hdependent
      · exfalso
        have hwithin : traversal.edgesExamined + (snapshot.directDependents node).length ≤
            edgeBudget := by
          rw [hqueue, List.map_cons, List.sum_cons, edgesInto] at htotal
          omega
        rw [expand_not_truncated (snapshot.directDependents node)
          { traversal with queue := rest } hexplores.running hwithin
          (hexplores.room hqueue hnodes)] at hstopped
        cases hstopped
      · rw [Bool.not_eq_true] at hstopped
        obtain ⟨-, -, fresh, hfresh, hresult⟩ := expand_complete _ _ hstopped
        have hnext := hexplores.round hqueue hfresh
        rw [← hresult] at hnext
        obtain ⟨visited, hsubset, hclosed, hfound⟩ := ih hnext (by
            rw [List.length_append, List.length_singleton]
            omega) (fun other hother => (hnext.members other).mpr (Or.inl hother))
        rw [← hqueue]
        exact ⟨visited, List.Subset.trans (subset_round hqueue hresult) hsubset, hclosed, hfound⟩

/-! ## The closure of a set of generations -/

theorem expand_rootsAbsent (dependents : List ClosureNode) (traversal : Traversal) :
    (snapshot.expand nodeBudget edgeBudget dependents traversal).rootsAbsent =
      traversal.rootsAbsent := by
  induction dependents generalizing traversal with
  | nil => rfl
  | cons dependent rest ih =>
    rw [expand]
    dsimp only
    split_ifs
    · rfl
    · rw [ih]
    · rfl
    · rw [ih]

theorem traverse_rootsAbsent (fuel : ℕ) (traversal : Traversal) :
    (snapshot.traverse nodeBudget edgeBudget fuel traversal).rootsAbsent =
      traversal.rootsAbsent := by
  induction fuel generalizing traversal with
  | zero => rfl
  | succ fuel ih =>
    rw [traverse]
    split
    · rfl
    · dsimp only
      split_ifs
      · rfl
      · exact expand_rootsAbsent _ _
      · rw [ih]
        exact expand_rootsAbsent _ _

/-- The state the roots leave: a root outside the topology is a member that is never
expanded. -/
theorem seedRoots_eq (hnodup : roots.Nodup) :
    roots.foldl snapshot.seedRoot {} =
      { members := roots
        visited := (roots.filter (· ∈ snapshot.nodes)).reverse
        queue := roots.filter (· ∈ snapshot.nodes)
        rootsAbsent := (roots.filter (· ∉ snapshot.nodes)).length } := by
  induction roots using List.reverseRecOn with
  | nil => rfl
  | append_singleton roots root ih =>
    obtain ⟨hearlier, -, hnew⟩ := List.nodup_append'.mp hnodup
    have hroot : root ∉ roots := fun hmem => hnew hmem List.mem_cons_self
    rw [List.foldl_append, ih hearlier, List.foldl_cons, List.foldl_nil, seedRoot]
    by_cases hlisted : root ∈ snapshot.nodes
    · simp [hlisted, hroot, List.filter_append]
    · simp [hlisted, List.filter_append]

theorem explores_seedRoots (hnodup : roots.Nodup) :
    Explores snapshot roots (roots.filter (· ∉ snapshot.nodes)) []
      (roots.foldl snapshot.seedRoot {}) := by
  rw [seedRoots_eq hnodup]
  refine ⟨rfl, ?_, ?_, ?_, ?_, ?_, ?_, ?_, rfl⟩
  · exact hnodup.filter _
  · intro node
    exact List.mem_reverse
  · intro node hnode
    exact of_decide_eq_true (List.mem_filter.mp hnode).2
  · intro node hnode
    exact Reaches.root (List.mem_filter.mp hnode).1
  · intro node
    simp only [List.nil_append, List.mem_filter, decide_eq_true_eq]
    tauto
  · simp only [List.nil_append]
    rw [List.length_eq_length_filter_add (fun node => decide (node ∈ snapshot.nodes))]
    congr 2
    apply List.filter_congr
    intro node _
    simp
  · intro node hnode
    cases hnode

section Seeded

variable (hdistinct : roots.Nodup) (hpresent : ∀ root ∈ roots, root ∈ snapshot.nodes)

include hdistinct hpresent

theorem explores_of_present :
    Explores snapshot roots [] [] (roots.foldl snapshot.seedRoot {}) ∧
      (roots.foldl snapshot.seedRoot {}).queue = roots := by
  have hnone : roots.filter (· ∉ snapshot.nodes) = [] := by
    rw [List.filter_eq_nil_iff]
    intro root hroot
    simpa using hpresent root hroot
  have hseeded : Explores snapshot roots _ [] _ := explores_seedRoots hdistinct
  rw [hnone] at hseeded
  refine ⟨hseeded, ?_⟩
  rw [seedRoots_eq hdistinct]
  exact List.filter_eq_self.mpr fun root hroot => by simpa using hpresent root hroot

/-- A traversal that was not stopped bounds what is reachable from its roots. -/
theorem bounds_of_traverse (hsome : roots ≠ [])
    (hflag : (snapshot.traverse nodeBudget edgeBudget snapshot.nodes.length
      (roots.foldl snapshot.seedRoot {})).truncated = false)
    {nodes : List ClosureNode} (hnodup : nodes.Nodup)
    (hreached : ∀ node ∈ nodes, snapshot.Reaches roots node) :
    nodes.length < nodeBudget ∧ (nodes.map snapshot.edgesInto).sum ≤ edgeBudget := by
  obtain ⟨hseeded, hqueue⟩ := explores_of_present hdistinct hpresent
  obtain ⟨final, hfinal, hsubset, hempty, hexamined, hroom⟩ :=
    traverse_complete snapshot.nodes.length hseeded (by simp)
      (by rw [hseeded.edges]; exact Nat.zero_le _) hflag
  rw [hqueue, List.nil_append] at hsubset
  have hcount := hfinal.count
  have hclosed := hfinal.closed
  rw [hempty, List.append_nil] at hcount hclosed
  have hcovered : nodes ⊆ final :=
    fun node hnode => (hreached node hnode).mem_of_closed (fun root hroot => hsubset hroot) hclosed
  obtain ⟨kept, hperm, hsublist⟩ := hnodup.subperm hcovered
  constructor
  · calc nodes.length = kept.length := hperm.length_eq.symm
      _ ≤ final.length := hsublist.length_le
      _ = (snapshot.traverse nodeBudget edgeBudget snapshot.nodes.length
            (roots.foldl snapshot.seedRoot {})).members.length := by
          rw [hcount, List.length_nil, Nat.add_zero]
      _ < nodeBudget := hroom (by rw [hqueue]; exact hsome)
  · calc (nodes.map snapshot.edgesInto).sum = (kept.map snapshot.edgesInto).sum :=
          (hperm.map _).sum_eq.symm
      _ ≤ (final.map snapshot.edgesInto).sum := (hsublist.map _).sum_le_sum (by simp)
      _ ≤ edgeBudget := by
          rw [← hfinal.edges]
          exact hexamined

/-- Where the bounds leave room, the members are exactly what is reachable. -/
theorem traverse_members_iff (hbounds : ∀ nodes : List ClosureNode, nodes.Nodup →
      (∀ node ∈ nodes, snapshot.Reaches roots node) →
      nodes.length < nodeBudget ∧ (nodes.map snapshot.edgesInto).sum ≤ edgeBudget)
    (node : ClosureNode) :
    node ∈ (snapshot.traverse nodeBudget edgeBudget snapshot.nodes.length
        (roots.foldl snapshot.seedRoot {})).members ↔ snapshot.Reaches roots node := by
  obtain ⟨hseeded, hqueue⟩ := explores_of_present hdistinct hpresent
  constructor
  · apply traverse_members
    · intro other hother dependent hdependent
      exact hother.dependent hdependent
    · intro other hother
      rw [seedRoots_eq hdistinct] at hother
      exact Reaches.root hother
    · intro other hother
      rw [hqueue] at hother
      exact Reaches.root hother
  · intro hreaches
    obtain ⟨visited, hsubset, hclosed, hfound⟩ :=
      traverse_closed snapshot.nodes.length hseeded (by simp)
        (fun nodes hnodup hreached => (hbounds nodes hnodup hreached).1)
        (fun nodes hnodup hreached => (hbounds nodes hnodup hreached).2)
    rw [hqueue, List.nil_append] at hsubset
    exact hfound node (hreaches.mem_of_closed (fun root hroot => hsubset hroot) hclosed)

end Seeded

/-- The roots of the closure of a set of generations. -/
def rootsOf (failed : GenerationVector) : List ClosureNode :=
  sortUnique (failed.keys.map .ofSwitch)

theorem mem_rootsOf {failed : GenerationVector} (hkey : key ∈ failed.keys) :
    .ofSwitch key ∈ rootsOf failed := by
  rw [rootsOf, mem_sortUnique]
  exact List.mem_map_of_mem hkey

theorem rootsOf_single (hvalid : key.valid = true) :
    rootsOf (GenerationVector.empty.insert key) = [.ofSwitch key] := by
  have hkeys : (GenerationVector.empty.insert key).keys = [key] := by
    simp [GenerationVector.insert, GenerationVector.empty, hvalid]
  rw [rootsOf, hkeys]
  rfl

variable {failed : GenerationVector} {limits : Limits}

theorem mem_closure_dependents (dependent : DependentRef) :
    dependent ∈ (snapshot.closure failed limits).dependents ↔
      .ofDependent dependent ∈ (snapshot.traverse
        (min limits.maxClosureNodes snapshot.limits.maxClosureNodes)
        (min limits.maxClosureEdges snapshot.limits.maxClosureEdges) snapshot.nodes.length
        ((rootsOf failed).foldl snapshot.seedRoot {})).members := by
  change dependent ∈ sortUnique _ ↔ _
  rw [mem_sortUnique, List.mem_filterMap]
  constructor
  · rintro ⟨node, hnode, hselected⟩
    cases node with
    | ofSwitch key => cases hselected
    | ofDependent other =>
      cases hselected
      exact (mem_sortUnique _ _).mp hnode
  · intro hmember
    exact ⟨.ofDependent dependent, (mem_sortUnique _ _).mpr hmember, rfl⟩

/-- All roots are in the topology when the closure says so. -/
theorem roots_listed (hroots : (snapshot.closure failed limits).enumeratesEveryRoot = true) :
    ∀ root ∈ rootsOf failed, root ∈ snapshot.nodes := by
  have hdistinct : (rootsOf failed).Nodup := (sortUnique_pairwise _).imp ne_of_lt
  have habsent : ((rootsOf failed).filter (· ∉ snapshot.nodes)).length = 0 := by
    have hcount := of_decide_eq_true hroots
    change (snapshot.traverse _ _ _ ((rootsOf failed).foldl snapshot.seedRoot {})).rootsAbsent = 0
      at hcount
    rwa [traverse_rootsAbsent, seedRoots_eq hdistinct] at hcount
  rw [List.length_eq_zero_iff, List.filter_eq_nil_iff] at habsent
  intro root hroot
  simpa using habsent root hroot

theorem traverse_not_truncated (hstate : (snapshot.closure failed limits).state ≠ .truncated) :
    (snapshot.traverse (min limits.maxClosureNodes snapshot.limits.maxClosureNodes)
      (min limits.maxClosureEdges snapshot.limits.maxClosureEdges) snapshot.nodes.length
      ((rootsOf failed).foldl snapshot.seedRoot {})).truncated = false := by
  by_contra hflag
  rw [Bool.not_eq_false] at hflag
  exact hstate (if_pos hflag)

/-- When the closure of all failed generations is complete, the closure of each of them
lists exactly the dependents that depend on it. -/
theorem closure_dependents_iff (hstate : (snapshot.closure failed limits).state ≠ .truncated)
    (hroots : (snapshot.closure failed limits).enumeratesEveryRoot = true)
    {root : SwitchKey} (hroot : root ∈ failed.keys) (dependent : DependentRef) :
    dependent ∈ (snapshot.closure (GenerationVector.empty.insert root) limits).dependents ↔
      Relation.TransGen snapshot.DependsOn (.ofDependent dependent) (.ofSwitch root) := by
  have hdistinct : (rootsOf failed).Nodup := (sortUnique_pairwise _).imp ne_of_lt
  have hlisted := roots_listed hroots
  have hsingle : [ClosureNode.ofSwitch root] ⊆ rootsOf failed := by
    intro node hnode
    rw [List.mem_singleton.mp hnode]
    exact mem_rootsOf hroot
  rw [mem_closure_dependents, rootsOf_single (failed.qualified root hroot),
    traverse_members_iff (List.nodup_singleton _) (fun node hnode => hlisted node (hsingle hnode))]
  · constructor
    · rintro ⟨start, hstart, hpath⟩
      rw [List.mem_singleton.mp hstart] at hpath
      rcases Relation.reflTransGen_iff_eq_or_transGen.mp hpath with heq | htrans
      · cases heq
      · exact Relation.transGen_swap.mp htrans
    · intro htrans
      exact ⟨_, List.mem_singleton_self _, (Relation.transGen_swap.mpr htrans).to_reflTransGen⟩
  · intro nodes hnodup hreached
    exact bounds_of_traverse hdistinct hlisted (List.ne_nil_of_mem (mem_rootsOf hroot))
      (traverse_not_truncated hstate) hnodup
      fun node hnode => (hreached node hnode).mono hsingle

end TopologySnapshot

end SwitchFailover.Model
