import SwitchFailover.Model.Exactness

/-!
# Closures under different budgets

The budgets only decide where the traversal stops, so larger ones find at least as much,
and the same where the smaller ones were enough.  What is reported as omitted is counted
from the queue.  It misses the entries of the node under expansion that a bound left
unexamined, and is right exactly when there are none.
-/

namespace SwitchFailover.Model

open SwitchFailover.Core Library.Ordering

variable {roots absent expanded : List ClosureNode} {traversal : Traversal}

namespace TopologySnapshot

variable {snapshot : TopologySnapshot} {nodeBudget edgeBudget : ℕ}

/-! ## Larger budgets find more -/

theorem members_subset_expand (dependents : List ClosureNode) (traversal : Traversal) :
    traversal.members ⊆ (snapshot.expand nodeBudget edgeBudget dependents traversal).members := by
  induction dependents generalizing traversal with
  | nil => exact List.Subset.refl _
  | cons dependent rest ih =>
    rw [expand]
    dsimp only
    split_ifs
    · exact List.Subset.refl _
    · exact ih { traversal with edgesExamined := traversal.edgesExamined + 1 }
    · exact List.Subset.refl _
    · exact List.Subset.trans (List.subset_append_left _ [dependent]) (ih { traversal with
          edgesExamined := traversal.edgesExamined + 1
          visited := dependent :: traversal.visited
          members := traversal.members ++ [dependent]
          queue := traversal.queue ++ [dependent] })

theorem members_subset_traverse (fuel : ℕ) (traversal : Traversal) :
    traversal.members ⊆ (snapshot.traverse nodeBudget edgeBudget fuel traversal).members := by
  induction fuel generalizing traversal with
  | zero => exact List.Subset.refl _
  | succ fuel ih =>
    rw [traverse]
    split
    · exact List.Subset.refl _
    · rename_i node rest hqueue
      have hexpanded : traversal.members ⊆ (snapshot.expand nodeBudget edgeBudget
          (snapshot.directDependents node) { traversal with queue := rest }).members :=
        members_subset_expand _ { traversal with queue := rest }
      dsimp only
      split_ifs
      · exact List.Subset.refl _
      · exact hexpanded
      · exact List.Subset.trans hexpanded (ih _)

section Larger

variable {moreNodes moreEdges : ℕ} (hnodes : nodeBudget ≤ moreNodes)
  (hedges : edgeBudget ≤ moreEdges)

include hnodes hedges

/-- An expansion under larger budgets goes at least as far, and the same way. -/
theorem expand_mono (dependents : List ClosureNode) (traversal : Traversal) :
    (snapshot.expand nodeBudget edgeBudget dependents traversal).members ⊆
        (snapshot.expand moreNodes moreEdges dependents traversal).members ∧
      ((snapshot.expand nodeBudget edgeBudget dependents traversal).truncated = false →
        snapshot.expand moreNodes moreEdges dependents traversal =
          snapshot.expand nodeBudget edgeBudget dependents traversal) := by
  induction dependents generalizing traversal with
  | nil => exact ⟨List.Subset.refl _, fun _ => rfl⟩
  | cons dependent rest ih =>
    by_cases hspent : edgeBudget ≤ traversal.edgesExamined
    · have hstopped : snapshot.expand nodeBudget edgeBudget (dependent :: rest) traversal =
          { traversal with truncated := true } := by
        rw [expand, if_pos hspent]
      rw [hstopped]
      exact ⟨members_subset_expand (dependent :: rest) traversal, fun hflag => by cases hflag⟩
    have hmore : ¬moreEdges ≤ traversal.edgesExamined := by omega
    by_cases hknown : dependent ∉ snapshot.nodes ∨ dependent ∈ traversal.visited
    · rw [expand, expand, if_neg hspent, if_neg hmore]
      dsimp only
      rw [if_pos hknown, if_pos hknown]
      exact ih _
    by_cases hfull : nodeBudget ≤ traversal.members.length
    · have hstopped : snapshot.expand nodeBudget edgeBudget (dependent :: rest) traversal =
          { traversal with
            edgesExamined := traversal.edgesExamined + 1
            truncated := true } := by
        rw [expand, if_neg hspent]
        dsimp only
        rw [if_neg hknown, if_pos hfull]
      rw [hstopped]
      exact ⟨members_subset_expand (dependent :: rest) traversal, fun hflag => by cases hflag⟩
    have hroom : ¬moreNodes ≤ traversal.members.length := by omega
    rw [expand, expand, if_neg hspent, if_neg hmore]
    dsimp only
    rw [if_neg hknown, if_neg hknown, if_neg hfull, if_neg hroom]
    exact ih _

theorem traverse_mono (fuel : ℕ) (traversal : Traversal) :
    (snapshot.traverse nodeBudget edgeBudget fuel traversal).members ⊆
        (snapshot.traverse moreNodes moreEdges fuel traversal).members ∧
      ((snapshot.traverse nodeBudget edgeBudget fuel traversal).truncated = false →
        snapshot.traverse moreNodes moreEdges fuel traversal =
          snapshot.traverse nodeBudget edgeBudget fuel traversal) := by
  induction fuel generalizing traversal with
  | zero => exact ⟨List.Subset.refl _, fun _ => rfl⟩
  | succ fuel ih =>
    cases hqueue : traversal.queue with
    | nil =>
      rw [traverse, traverse, hqueue]
      exact ⟨List.Subset.refl _, fun _ => rfl⟩
    | cons node rest =>
      by_cases hbounds : nodeBudget ≤ traversal.members.length ∨
          edgeBudget ≤ traversal.edgesExamined
      · have hstopped : snapshot.traverse nodeBudget edgeBudget (fuel + 1) traversal =
            { traversal with truncated := true } := by
          rw [traverse, hqueue]
          exact if_pos hbounds
        rw [hstopped]
        exact ⟨members_subset_traverse (fuel + 1) traversal, fun hflag => by cases hflag⟩
      have hmore : ¬(moreNodes ≤ traversal.members.length ∨
          moreEdges ≤ traversal.edgesExamined) := by omega
      obtain ⟨hfound, hsame⟩ := expand_mono hnodes hedges (snapshot.directDependents node)
        { traversal with queue := rest }
      rw [traverse, traverse, hqueue]
      dsimp only
      rw [if_neg hbounds, if_neg hmore]
      split_ifs with hstopped hother hother
      · exact ⟨hfound, fun hflag => by rw [hstopped] at hflag; cases hflag⟩
      · refine ⟨List.Subset.trans hfound (members_subset_traverse _ _), fun hflag => ?_⟩
        rw [hstopped] at hflag
        cases hflag
      · rw [hsame (Bool.eq_false_of_not_eq_true hstopped)] at hother
        exact absurd hother hstopped
      · rw [hsame (Bool.eq_false_of_not_eq_true hstopped)]
        exact ih _

end Larger

/-- The closure under larger budgets has every member of the closure under smaller ones, and
the same members if those were enough. -/
theorem closureFrom_mono (snapshot : TopologySnapshot) (roots : List ClosureNode)
    {small large : Limits} (hnodes : small.maxClosureNodes ≤ large.maxClosureNodes)
    (hedges : small.maxClosureEdges ≤ large.maxClosureEdges) :
    (snapshot.closureFrom roots small).members ⊆ (snapshot.closureFrom roots large).members ∧
      ((snapshot.closureFrom roots small).state ≠ .truncated →
        (snapshot.closureFrom roots large).members =
          (snapshot.closureFrom roots small).members) := by
  obtain ⟨hfound, hsame⟩ := traverse_mono
    (min_le_min_right snapshot.limits.maxClosureNodes hnodes)
    (min_le_min_right snapshot.limits.maxClosureEdges hedges) snapshot.nodes.length
    ((sortUnique roots).foldl snapshot.seedRoot {})
  constructor
  · intro node hnode
    exact (mem_sortUnique node _).mpr (hfound ((mem_sortUnique node _).mp hnode))
  · intro hstate
    have hflag : (snapshot.search roots small snapshot.nodes.length).truncated = false := by
      by_contra hstopped
      exact hstate (if_pos (Bool.eq_true_of_not_eq_false hstopped))
    exact congrArg (fun final : Traversal => sortUnique final.members) (hsame hflag)

/-- A budget of two nodes finds the failed switch and its link, the default finds all. -/
theorem closureFrom_mono_sample :
    (Sample.riding.closureFrom [.ofSwitch Sample.near] { maxClosureNodes := 2 }).members.length =
        2 ∧
      (Sample.riding.closureFrom [.ofSwitch Sample.near] { maxClosureNodes := 2 }).members ⊆
        (Sample.riding.closureFrom [.ofSwitch Sample.near] {}).members :=
  ⟨by decide +kernel, (closureFrom_mono Sample.riding [.ofSwitch Sample.near]
    (by decide) (by decide)).1⟩

/-! ## What a stopped traversal leaves out -/

/-- The entries left when a bound breaks the loop over the dependents of a node. -/
def leftOf (snapshot : TopologySnapshot) (nodeBudget edgeBudget : ℕ) :
    List ClosureNode → Traversal → List ClosureNode
  | [], _ => []
  | dependent :: rest, traversal =>
      if edgeBudget ≤ traversal.edgesExamined then dependent :: rest
      else
        let examined := { traversal with edgesExamined := traversal.edgesExamined + 1 }
        if dependent ∉ snapshot.nodes ∨ dependent ∈ traversal.visited then
          snapshot.leftOf nodeBudget edgeBudget rest examined
        else if nodeBudget ≤ traversal.members.length then rest
        else
          snapshot.leftOf nodeBudget edgeBudget rest
            { examined with
              visited := dependent :: examined.visited
              members := examined.members ++ [dependent]
              queue := examined.queue ++ [dependent] }

/-- The entries of the node under expansion that are left when a bound stops the traversal. -/
def leftBy (snapshot : TopologySnapshot) (nodeBudget edgeBudget : ℕ) :
    ℕ → Traversal → List ClosureNode
  | 0, _ => []
  | fuel + 1, traversal =>
      match traversal.queue with
      | [] => []
      | node :: rest =>
          if nodeBudget ≤ traversal.members.length ∨ edgeBudget ≤ traversal.edgesExamined then []
          else
            let expanded := snapshot.expand nodeBudget edgeBudget
              (snapshot.directDependents node) { traversal with queue := rest }
            if expanded.truncated then
              snapshot.leftOf nodeBudget edgeBudget (snapshot.directDependents node)
                { traversal with queue := rest }
            else snapshot.leftBy nodeBudget edgeBudget fuel expanded

/-- The entries a closure of some roots leaves unexamined in the middle of a node. -/
def unexamined (snapshot : TopologySnapshot) (roots : List ClosureNode) (limits : Limits) :
    List ClosureNode :=
  snapshot.leftBy (min limits.maxClosureNodes snapshot.limits.maxClosureNodes)
    (min limits.maxClosureEdges snapshot.limits.maxClosureEdges) snapshot.nodes.length
    ((sortUnique roots).foldl snapshot.seedRoot {})

/-- An expansion that a bound stops: it has discovered some dependents and examined all
entries but those left.  If none is left, the bound on nodes stopped it. -/
theorem expand_stopped (dependents : List ClosureNode) (traversal : Traversal)
    (hflag : (snapshot.expand nodeBudget edgeBudget dependents traversal).truncated = true)
    (hstart : traversal.truncated = false) :
    ∃ fresh examined, fresh.Nodup ∧
      (∀ node ∈ fresh, node ∈ snapshot.nodes ∧ node ∉ traversal.visited) ∧
      examined + (snapshot.leftOf nodeBudget edgeBudget dependents traversal).length =
        dependents.length ∧
      snapshot.expand nodeBudget edgeBudget dependents traversal =
        { traversal.discover fresh examined with truncated := true } ∧
      (snapshot.leftOf nodeBudget edgeBudget dependents traversal = [] →
        nodeBudget ≤ traversal.members.length + fresh.length) := by
  induction dependents generalizing traversal with
  | nil =>
    rw [expand, hstart] at hflag
    cases hflag
  | cons dependent rest ih =>
    rw [expand] at hflag ⊢
    rw [leftOf]
    dsimp only at hflag ⊢
    split_ifs at hflag ⊢ with hedges hknown hnodes
    · refine ⟨[], 0, List.nodup_nil, by simp, Nat.zero_add _, ?_, fun hnone => by cases hnone⟩
      simp [Traversal.discover]
    · -- the dependent is not new
      obtain ⟨fresh, examined, hnodup, hfresh, hcount, hresult, hfull⟩ := ih _ hflag hstart
      refine ⟨fresh, examined + 1, hnodup, hfresh, ?_, ?_, hfull⟩
      · rw [List.length_cons, ← hcount]
        omega
      · rw [hresult, Traversal.discover, Traversal.discover]
        simp
        omega
    · refine ⟨[], 1, List.nodup_nil, by simp, ?_, ?_, fun _ => hnodes⟩
      · rw [List.length_cons, Nat.add_comm]
      · simp [Traversal.discover]
    · obtain ⟨fresh, examined, hnodup, hfresh, hcount, hresult, hfull⟩ := ih _ hflag hstart
      rw [not_or, not_not] at hknown
      refine ⟨dependent :: fresh, examined + 1, ?_, ?_, ?_, ?_, ?_⟩
      · refine List.nodup_cons.mpr ⟨fun hrepeated => ?_, hnodup⟩
        exact (hfresh dependent hrepeated).2 List.mem_cons_self
      · intro node hnode
        rcases List.mem_cons.mp hnode with rfl | hrest
        · exact hknown
        · obtain ⟨hlisted, hnew⟩ := hfresh node hrest
          exact ⟨hlisted, fun hvisited => hnew (List.mem_cons_of_mem _ hvisited)⟩
      · rw [List.length_cons, ← hcount]
        omega
      · rw [hresult, Traversal.discover, Traversal.discover]
        simp
        omega
      · intro hnone
        have hbound := hfull hnone
        rw [List.length_append, List.length_singleton] at hbound
        rw [List.length_cons]
        omega

/-- The state a bound stopped the traversal in, and what it left. -/
structure Stopped (snapshot : TopologySnapshot) (absent left : List ClosureNode)
    (traversal : Traversal) : Prop where
  found : ∃ present : List ClosureNode, present.Nodup ∧ (∀ node ∈ present, node ∈ snapshot.nodes) ∧
    (∀ node, node ∈ traversal.members ↔ node ∈ present ∨ node ∈ absent) ∧
    (present.map snapshot.edgesInto).sum = traversal.edgesExamined + left.length +
      (traversal.queue.map snapshot.edgesInto).sum
  pending : left = [] → traversal.queue ≠ []

theorem Explores.stopped (hexplores : Explores snapshot roots absent expanded traversal)
    (hqueue : traversal.queue ≠ []) :
    Stopped snapshot absent [] { traversal with truncated := true } where
  found := by
    refine ⟨expanded ++ traversal.queue, hexplores.nodup, hexplores.listed, hexplores.members, ?_⟩
    rw [List.map_append, List.sum_append, hexplores.edges]
    rfl
  pending := fun _ => hqueue

/-- A bound stops the expansion of the node at the head of the queue. -/
theorem Explores.stoppedWithin {node : ClosureNode} {rest : List ClosureNode}
    (hexplores : Explores snapshot roots absent expanded traversal)
    (hqueue : traversal.queue = node :: rest) (hroom : traversal.members.length < nodeBudget)
    (hflag : (snapshot.expand nodeBudget edgeBudget (snapshot.directDependents node)
      { traversal with queue := rest }).truncated = true) :
    Stopped snapshot absent (snapshot.leftOf nodeBudget edgeBudget
        (snapshot.directDependents node) { traversal with queue := rest })
      (snapshot.expand nodeBudget edgeBudget (snapshot.directDependents node)
        { traversal with queue := rest }) := by
  obtain ⟨fresh, examined, hnodup, hfresh, hcount, hresult, hfull⟩ := expand_stopped _
    { traversal with queue := rest } hflag hexplores.running
  have hold : expanded ++ traversal.queue = expanded ++ node :: rest := by rw [hqueue]
  rw [hresult]
  refine ⟨⟨(expanded ++ traversal.queue) ++ fresh, ?_, ?_, ?_, ?_⟩, fun hnone hempty => ?_⟩
  · refine List.nodup_append'.mpr ⟨hexplores.nodup, hnodup, fun other hother hadded => ?_⟩
    exact (hfresh other hadded).2 ((hexplores.visited other).mpr hother)
  · intro other hother
    rcases List.mem_append.mp hother with hknown | hadded
    · exact hexplores.listed other hknown
    · exact (hfresh other hadded).1
  · intro other
    change other ∈ traversal.members ++ fresh ↔ _
    rw [List.mem_append, hexplores.members, List.mem_append (t := fresh)]
    tauto
  · change _ = traversal.edgesExamined + examined + _ + ((rest ++ fresh).map _).sum
    have hdegree : snapshot.edgesInto node = (snapshot.directDependents node).length := rfl
    have hedges := hexplores.edges
    rw [hold]
    simp only [List.map_append, List.sum_append, List.map_cons, List.sum_cons]
    omega
  · have hbound := hfull hnone
    change rest ++ fresh = [] at hempty
    have hlength := congrArg List.length hempty
    rw [List.length_append, List.length_nil] at hlength
    change nodeBudget ≤ traversal.members.length + fresh.length at hbound
    omega

theorem traverse_stopped (fuel : ℕ) (hexplores : Explores snapshot roots absent expanded traversal)
    (hflag : (snapshot.traverse nodeBudget edgeBudget fuel traversal).truncated = true) :
    Stopped snapshot absent (snapshot.leftBy nodeBudget edgeBudget fuel traversal)
      (snapshot.traverse nodeBudget edgeBudget fuel traversal) := by
  induction fuel generalizing expanded traversal with
  | zero =>
    rw [traverse, hexplores.running] at hflag
    cases hflag
  | succ fuel ih =>
    rw [leftBy]
    rw [traverse] at hflag ⊢
    cases hqueue : traversal.queue with
    | nil =>
      rw [hqueue] at hflag
      dsimp only at hflag
      rw [hexplores.running] at hflag
      cases hflag
    | cons node rest =>
      rw [hqueue] at hflag
      dsimp only at hflag ⊢
      split_ifs at hflag ⊢ with hbounds hstopped
      · have hstop := hexplores.stopped (by rw [hqueue]; exact List.cons_ne_nil _ _)
        rwa [hqueue] at hstop
      · rw [not_or, not_le] at hbounds
        exact hexplores.stoppedWithin hqueue hbounds.1 hstopped
      · obtain ⟨-, -, fresh, hfresh, hresult⟩ := expand_complete _ _
          (Bool.eq_false_of_not_eq_true hstopped)
        have hnext := hexplores.round hqueue hfresh
        rw [← hresult] at hnext
        exact ih hnext hflag

/-- Nothing is left by a traversal that was not stopped. -/
theorem leftBy_of_running (fuel : ℕ)
    (hflag : (snapshot.traverse nodeBudget edgeBudget fuel traversal).truncated = false) :
    snapshot.leftBy nodeBudget edgeBudget fuel traversal = [] := by
  induction fuel generalizing traversal with
  | zero => rfl
  | succ fuel ih =>
    cases hqueue : traversal.queue with
    | nil => rw [leftBy, hqueue]
    | cons node rest =>
      rw [traverse, hqueue] at hflag
      rw [leftBy, hqueue]
      dsimp only at hflag ⊢
      split_ifs at hflag ⊢ with hbounds hstopped
      · rw [hstopped] at hflag
        cases hflag
      · exact ih hflag

/-- The reverse-adjacency entries of the present members of a closure. -/
def entriesOf (snapshot : TopologySnapshot) (members : List ClosureNode) : ℕ :=
  ((members.filter (· ∈ snapshot.nodes)).map fun node =>
    (snapshot.directDependents node).length).sum

/-- What a closure reports as omitted is right: together with the examined entries it is all
entries of the discovered nodes, and it is not nothing when something is missing. -/
structure Accounted (snapshot : TopologySnapshot) (roots : List ClosureNode)
    (closure : DependencyClosure) : Prop where
  edges : closure.state = .truncated →
    closure.edgesExamined + closure.omittedEdges = snapshot.entriesOf closure.members
  missing : ∀ node, (∃ root ∈ roots, Relation.TransGen
      (fun target source => snapshot.DependsOn source target) root node) →
    node ∉ closure.members → 0 < closure.omittedFrontier ∨ 0 < closure.omittedEdges

theorem entriesOf_sortUnique {members present : List ClosureNode} (hnodup : present.Nodup)
    (hlisted : ∀ node ∈ present, node ∈ snapshot.nodes)
    (habsent : ∀ node ∈ absent, node ∉ snapshot.nodes)
    (hmembers : ∀ node, node ∈ members ↔ node ∈ present ∨ node ∈ absent) :
    snapshot.entriesOf (sortUnique members) = (present.map snapshot.edgesInto).sum := by
  have hperm : ((sortUnique members).filter (· ∈ snapshot.nodes)).Perm present := by
    have hdistinct : (sortUnique members).Nodup := (sortUnique_pairwise members).imp ne_of_lt
    refine (List.perm_ext_iff_of_nodup (hdistinct.filter _) hnodup).mpr fun node => ?_
    rw [List.mem_filter, mem_sortUnique, hmembers, decide_eq_true_eq]
    constructor
    · rintro ⟨hpresent | hmissing, hnode⟩
      · exact hpresent
      · exact absurd hnode (habsent node hmissing)
    · intro hpresent
      exact ⟨Or.inl hpresent, hlisted node hpresent⟩
  exact (hperm.map _).sum_eq

/-- What a closure reports as omitted is right exactly when no bound stops the traversal
between the entries of a node. -/
theorem omissions_accounted_iff (snapshot : TopologySnapshot) (roots : List ClosureNode)
    (limits : Limits) :
    Accounted snapshot roots (snapshot.closureFrom roots limits) ↔
      snapshot.unexamined roots limits = [] := by
  have hmembers : ∀ node, node ∈ (snapshot.closureFrom roots limits).members ↔
      node ∈ (snapshot.search roots limits snapshot.nodes.length).members :=
    fun node => mem_sortUnique node _
  cases hflag : (snapshot.search roots limits snapshot.nodes.length).truncated with
  | false =>
      have hleft : snapshot.unexamined roots limits = [] := leftBy_of_running _ hflag
      refine iff_of_true ⟨fun hstate => ?_, fun node hdepends hmissing => ?_⟩ hleft
      · have hrunning : (snapshot.closureFrom roots limits).state ≠ .truncated := by
          change (if (snapshot.search roots limits snapshot.nodes.length).truncated then _ else
            _) ≠ ClosureState.truncated
          rw [hflag, if_neg Bool.false_ne_true]
          split <;> decide
        exact absurd hstate hrunning
      · obtain ⟨root, hroot, hpath⟩ := hdepends
        have hreaches : snapshot.Reaches (sortUnique roots) node :=
          ⟨root, (mem_sortUnique root roots).mpr hroot, hpath.to_reflTransGen⟩
        exact absurd ((hmembers node).mpr (search_complete snapshot roots limits hflag hreaches))
          hmissing
  | true =>
      have hstopped : Stopped snapshot _ (snapshot.unexamined roots limits)
          (snapshot.search roots limits snapshot.nodes.length) :=
        traverse_stopped _ (explores_roots snapshot roots) hflag
      obtain ⟨present, hnodup, hlisted, hfound, hsum⟩ := hstopped.found
      have hentries : snapshot.entriesOf (snapshot.closureFrom roots limits).members =
          (present.map snapshot.edgesInto).sum := by
        refine entriesOf_sortUnique hnodup hlisted (fun node hnode => ?_) hfound
        exact of_decide_eq_true (List.mem_filter.mp hnode).2
      have homitted : (snapshot.closureFrom roots limits).omittedEdges =
          ((snapshot.search roots limits snapshot.nodes.length).queue.map
            snapshot.edgesInto).sum := if_pos hflag
      have hfrontier : (snapshot.closureFrom roots limits).omittedFrontier =
          (snapshot.search roots limits snapshot.nodes.length).queue.length := if_pos hflag
      have hexamined : (snapshot.closureFrom roots limits).edgesExamined =
          (snapshot.search roots limits snapshot.nodes.length).edgesExamined := rfl
      constructor
      · intro haccounted
        have hedges := haccounted.edges (if_pos hflag)
        apply List.eq_nil_of_length_eq_zero
        omega
      · intro hleft
        refine ⟨fun _ => ?_, fun node _ _ => Or.inl ?_⟩
        · rw [hleft, List.length_nil] at hsum
          omega
        · rw [hfrontier]
          exact List.length_pos_iff.mpr (hstopped.pending hleft)

namespace Sample

/-- A switch that depends on itself, and a path over it. -/
def loopDeclaration : Result TopologySnapshot :=
  build ⟨1⟩ [{ key := near, portCount := 1 }] [] [{ id := ⟨1⟩, hops := [near] }]
    [⟨.ofSwitch near, .ofSwitch near⟩] {}

def looping : TopologySnapshot := loopDeclaration.toOption.getD .empty

end Sample

/-- Of the two entries of a switch one is examined, and leads nowhere new.  The path is
missing from the closure, which reports that nothing was omitted. -/
theorem omissions_unaccounted :
    Sample.loopDeclaration = .ok Sample.looping ∧
      (Sample.looping.closureFrom [.ofSwitch Sample.near] { maxClosureEdges := 1 }).state =
        .truncated ∧
      Sample.looping.entriesOf (Sample.looping.closureFrom [.ofSwitch Sample.near]
        { maxClosureEdges := 1 }).members = 2 ∧
      (Sample.looping.closureFrom [.ofSwitch Sample.near]
        { maxClosureEdges := 1 }).edgesExamined = 1 ∧
      ClosureNode.ofDependent (.path ⟨1⟩) ∉ (Sample.looping.closureFrom [.ofSwitch Sample.near]
        { maxClosureEdges := 1 }).members ∧
      Sample.looping.DependsOn (.ofDependent (.path ⟨1⟩)) (.ofSwitch Sample.near) ∧
      (Sample.looping.closureFrom [.ofSwitch Sample.near]
        { maxClosureEdges := 1 }).omittedFrontier = 0 ∧
      (Sample.looping.closureFrom [.ofSwitch Sample.near]
        { maxClosureEdges := 1 }).omittedEdges = 0 := by
  refine ⟨ok_of_toBool (by decide +kernel) .empty, ?_⟩
  rw [DependsOn]
  decide +kernel

end TopologySnapshot

end SwitchFailover.Model
