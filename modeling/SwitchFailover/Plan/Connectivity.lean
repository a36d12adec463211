import SwitchFailover.Plan.Components

/-!
# Components are chains of contested generations

Two demands compete when some generation could be used by both.  The components of the
planner are exactly the classes of demands that are linked by competition, directly or in
several steps, so a generation is never contested across two components.
-/

namespace SwitchFailover.Plan

open SwitchFailover.Core Model Library.Ordering Library.DisjointSets Library.Partition

variable {first second : ℕ}

variable {options : List DemandOptions}

/-- Some eligible alternative of the demand at an index needs the generation. -/
def Needs (options : List DemandOptions) (index : ℕ) (key : SwitchKey) : Prop :=
  ∃ option, options[index]? = some option ∧ ∃ use ∈ option.eligible, key ∈ use.capacityKeys

/-- Two demands that share a generation among their eligible alternatives. -/
def Neighbours (options : List DemandOptions) (first second : ℕ) : Prop :=
  ∃ key, Needs options first key ∧ Needs options second key

theorem touches_iff_needs {index : ℕ} {key : SwitchKey} :
    Touches options index key ↔ Needs options index key := by
  simp only [Touches, Needs, touchedKeys, mem_sortUnique, List.mem_flatMap]

instance neighbours_symm : Std.Symm (Neighbours options) where
  symm := by
    rintro first second ⟨key, hfirst, hsecond⟩
    exact ⟨key, hsecond, hfirst⟩

theorem root_eq_of_neighbours (hneighbours : Neighbours options first second) :
    root (demandForest options) first = root (demandForest options) second := by
  obtain ⟨key, hfirst, hsecond⟩ := hneighbours
  exact (demandForest_spec options).2.2 key first second (touches_iff_needs.mpr hfirst)
    (touches_iff_needs.mpr hsecond)

/-- Two demands have the same root exactly if a chain of neighbours links them. -/
theorem root_eq_iff_chain (first second : ℕ) :
    root (demandForest options) first = root (demandForest options) second ↔
      Relation.ReflTransGen (Neighbours options) first second := by
  constructor
  · intro hsame
    have hlinked := ((demandForest_classes options).2.joined first second).mp hsame
    clear hsame
    -- each union is between neighbours, and a chain can be walked both ways
    induction hlinked with
    | rel left right hunion =>
      obtain ⟨key, one, other, hone, hother, heq⟩ := touches_of_mem_unions hunion
      cases heq
      exact Relation.ReflTransGen.single
        ⟨key, touches_iff_needs.mp hone, touches_iff_needs.mp hother⟩
    | refl _ => exact Relation.ReflTransGen.refl
    | symm _ _ _ ih => exact Std.Symm.symm _ _ ih
    | trans _ _ _ _ _ ih ihNext => exact ih.trans ihNext
  · intro hchain
    induction hchain with
    | refl => rfl
    | tail _ hstep ih => exact ih.trans (root_eq_of_neighbours hstep)

/-- The members of a component are the demands with one root. -/
theorem same_component_iff (hfirst : first < options.length) (hsecond : second < options.length) :
    (∃ component ∈ (componentsOf options).values, first ∈ component ∧ second ∈ component) ↔
      root (demandForest options) first = root (demandForest options) second := by
  obtain ⟨hperm, hclasses⟩ := components_perm options
  constructor
  · rintro ⟨component, hcomponent, hone, hother⟩
    obtain ⟨key, rfl⟩ := hclasses component hcomponent
    rw [classOf, List.mem_filter, decide_eq_true_eq] at hone hother
    exact hone.2.trans hother.2.symm
  · intro hsame
    obtain ⟨component, hcomponent, hone⟩ := List.mem_flatten.mp
      (hperm.mem_iff.mpr (List.mem_range.mpr hfirst))
    refine ⟨component, hcomponent, hone, ?_⟩
    obtain ⟨key, rfl⟩ := hclasses component hcomponent
    rw [classOf, List.mem_filter, decide_eq_true_eq] at hone ⊢
    exact ⟨List.mem_range.mpr hsecond, hsame.symm.trans hone.2⟩

/-- Different components have no demand in common, so no two of their demands are linked. -/
theorem not_neighbours_of_ne {component other : List ℕ}
    (hcomponent : component ∈ (componentsOf options).values)
    (hother : other ∈ (componentsOf options).values) (hne : component ≠ other)
    (hfirst : first ∈ component) (hsecond : second ∈ other) : ¬Neighbours options first second := by
  intro hneighbours
  obtain ⟨-, hclasses⟩ := components_perm options
  obtain ⟨key, rfl⟩ := hclasses component hcomponent
  obtain ⟨key', rfl⟩ := hclasses other hother
  rw [classOf, List.mem_filter, decide_eq_true_eq] at hfirst hsecond
  have hsame := root_eq_of_neighbours hneighbours
  rw [hfirst.2, hsecond.2] at hsame
  exact hne (by rw [hsame])

/-- What the decomposition into components rests on.  Whatever finds and unions came before,
no parent exceeds its child and every further find stops; and the components of a list of
demands are the classes of its chains of neighbours. -/
theorem components_are_chains (options : List DemandOptions) (size : ℕ) (calls : List Call)
    (hrange : ∀ call ∈ calls, call.InRange size) :
    (∀ value, parentOf (calls.foldl perform (singletons size)) value ≤ value) ∧
      (∀ value < size, ∃ rounds ≤ value,
        StopsAfter (calls.foldl perform (singletons size), value) rounds ∧
          find (calls.foldl perform (singletons size)) value =
            (halveRound^[rounds] (calls.foldl perform (singletons size), value)).swap) ∧
      (∀ first < options.length, ∀ second < options.length,
        (∃ component ∈ (componentsOf options).values, first ∈ component ∧ second ∈ component) ↔
          Relation.ReflTransGen (Neighbours options) first second) ∧
      ∀ component ∈ (componentsOf options).values, ∀ other ∈ (componentsOf options).values,
        component ≠ other → ∀ first ∈ component, ∀ second ∈ other, ∀ key,
          ¬(Needs options first key ∧ Needs options second key) := by
  obtain ⟨hlength, hclasses⟩ := classes_performed hrange
  refine ⟨hclasses.descending, ?_, ?_, ?_⟩
  · intro value hvalue
    exact find_stops hclasses.descending (hvalue.trans_eq hlength.symm)
  · intro first hfirst second hsecond
    rw [same_component_iff hfirst hsecond, root_eq_iff_chain]
  · intro component hcomponent other hother hne first hfirst second hsecond key hneeds
    exact not_neighbours_of_ne hcomponent hother hne hfirst hsecond ⟨key, hneeds⟩

namespace Sample

/-- A demand with one eligible alternative over the given generations. -/
def demandOver (keys : List SwitchKey) : DemandOptions where
  demand := ⟨default, default⟩
  eligible := [⟨{}, keys⟩]
  reports := []
  enumerationComplete := true
  blockingReason := .unknown
  blockingDetail := []

/-- The first and the last demand share no generation, but each shares one with the second. -/
def chained : List DemandOptions :=
  [demandOver [⟨⟨1⟩, ⟨1⟩⟩], demandOver [⟨⟨1⟩, ⟨1⟩⟩, ⟨⟨2⟩, ⟨1⟩⟩], demandOver [⟨⟨2⟩, ⟨1⟩⟩]]

theorem chained_ends : Relation.ReflTransGen (Neighbours chained) 0 2 := by
  have hfirst : Neighbours chained 0 1 :=
    ⟨⟨⟨1⟩, ⟨1⟩⟩, ⟨_, rfl, _, List.mem_cons_self, List.mem_cons_self⟩,
      ⟨_, rfl, _, List.mem_cons_self, List.mem_cons_self⟩⟩
  have hlast : Neighbours chained 1 2 :=
    ⟨⟨⟨2⟩, ⟨1⟩⟩, ⟨_, rfl, _, List.mem_cons_self, List.mem_cons_of_mem _ List.mem_cons_self⟩,
      ⟨_, rfl, _, List.mem_cons_self, List.mem_cons_self⟩⟩
  exact (Relation.ReflTransGen.single hfirst).tail hlast

end Sample

/-- The three demands are in one component, and a find after a union stops. -/
theorem components_are_chains_sample :
    (∃ component ∈ (componentsOf Sample.chained).values, 0 ∈ component ∧ 2 ∈ component) ∧
      ∃ rounds ≤ 2, StopsAfter ([Call.unite 1 2, Call.find 2].foldl perform (singletons 3), 2)
        rounds := by
  obtain ⟨-, hstops, hchains, -⟩ := components_are_chains Sample.chained 3
    [Call.unite 1 2, Call.find 2] (by simp [Call.InRange])
  refine ⟨(hchains 0 (by decide) 2 (by decide)).mpr Sample.chained_ends, ?_⟩
  obtain ⟨rounds, hrounds, hstopped, -⟩ := hstops 2 (by decide)
  exact ⟨rounds, hrounds, hstopped⟩

end SwitchFailover.Plan
