import SwitchFailover.Library.Partition
import SwitchFailover.Plan.Search

/-!
# Splitting the demands into components

Demands that could use the same generation are joined, so a generation is used inside
one component only.  The loop over the components writes the result of each search at
the positions of its component, and the whole assignment is admissible because each
part is.
-/

namespace SwitchFailover.Plan

open SwitchFailover.Core Model Library.Ordering Library.DisjointSets Library.Partition

variable {users : List ℕ} {call : Call}

variable {capacity : SwitchKey → ℕ} {options : List DemandOptions}

/-! ## The forest joins the users of each generation -/

/-- The demand at an index could use a generation. -/
def Touches (options : List DemandOptions) (index : ℕ) (key : SwitchKey) : Prop :=
  ∃ option, options[index]? = some option ∧ key ∈ touchedKeys option

theorem mem_usersOf (key : SwitchKey) (index : ℕ) :
    index ∈ usersOf options key ↔ Touches options index key := by
  rw [usersOf, List.mem_map]
  constructor
  · rintro ⟨⟨option, position⟩, hentry, rfl⟩
    obtain ⟨hmem, hkey⟩ := List.mem_filter.mp hentry
    exact ⟨option, List.mem_zipIdx_iff_getElem?.mp hmem, of_decide_eq_true hkey⟩
  · rintro ⟨option, hindex, hkey⟩
    exact ⟨(option, index), List.mem_filter.mpr ⟨List.mem_zipIdx_iff_getElem?.mpr hindex,
      decide_eq_true hkey⟩, rfl⟩

theorem Touches.lt_length {index : ℕ} {key : SwitchKey} (htouches : Touches options index key) :
    index < options.length := by
  obtain ⟨option, hindex, -⟩ := htouches
  exact (List.getElem?_eq_some_iff.mp hindex).1

/-- The unions for the users of one generation. -/
def unionsOf : List ℕ → List Call
  | [] => []
  | first :: others => others.map (Call.unite first)

/-- All unions of the loop over the generations. -/
def unions (options : List DemandOptions) : List Call :=
  (sortUnique (options.flatMap touchedKeys)).flatMap fun key => unionsOf (usersOf options key)

theorem uniteUsers_eq (parents users : List ℕ) :
    uniteUsers parents users = (unionsOf users).foldl perform parents := by
  cases users with
  | nil => rfl
  | cons first others =>
    rw [unionsOf, List.foldl_map]
    rfl

theorem demandForest_eq (options : List DemandOptions) :
    demandForest options = (unions options).foldl perform (singletons options.length) := by
  have hloop : (fun parents key => uniteUsers parents (usersOf options key)) = fun parents key =>
      (unionsOf (usersOf options key)).foldl perform parents :=
    funext fun parents => funext fun key => uniteUsers_eq parents (usersOf options key)
  rw [demandForest, unions, List.foldl_flatMap, hloop]

/-- Only users of one generation are united. -/
theorem users_of_mem_unionsOf (hcall : call ∈ unionsOf users) :
    ∃ left ∈ users, ∃ right ∈ users, call = Call.unite left right := by
  cases users with
  | nil => cases hcall
  | cons first others =>
    obtain ⟨other, hother, rfl⟩ := List.mem_map.mp hcall
    exact ⟨first, List.mem_cons_self, other, List.mem_cons_of_mem _ hother, rfl⟩

theorem touches_of_mem_unions (hcall : call ∈ unions options) :
    ∃ key left right, Touches options left key ∧ Touches options right key ∧
      call = Call.unite left right := by
  obtain ⟨key, -, hunited⟩ := List.mem_flatMap.mp hcall
  obtain ⟨left, hleft, right, hright, rfl⟩ := users_of_mem_unionsOf hunited
  exact ⟨key, left, right, (mem_usersOf key left).mp hleft, (mem_usersOf key right).mp hright, rfl⟩

/-- And all users of one generation are linked, through the first of them. -/
theorem linked_of_users {left right : ℕ} (hleft : left ∈ users) (hright : right ∈ users) :
    Relation.EqvGen (fun one other => Call.unite one other ∈ unionsOf users) left right := by
  cases users with
  | nil => cases hleft
  | cons first others =>
    have hfirst : ∀ user ∈ first :: others, Relation.EqvGen
        (fun one other => Call.unite one other ∈ unionsOf (first :: others)) first user := by
      rw [List.forall_mem_cons]
      refine ⟨Relation.EqvGen.refl first, fun user huser => ?_⟩
      exact Relation.EqvGen.rel _ _ (List.mem_map_of_mem huser)
    exact (hfirst left hleft).symm.trans _ _ _ (hfirst right hright)

/-- The trees of the forest are the classes of the unions. -/
theorem demandForest_classes (options : List DemandOptions) :
    (demandForest options).length = options.length ∧
      Classes (demandForest options) fun left right => Call.unite left right ∈ unions options := by
  rw [demandForest_eq]
  apply classes_performed
  intro call hcall
  obtain ⟨key, left, right, hleft, hright, rfl⟩ := touches_of_mem_unions hcall
  exact ⟨hleft.lt_length, hright.lt_length⟩

/-- Two demands that could use the same generation have the same root. -/
theorem demandForest_spec (options : List DemandOptions) :
    Descending (demandForest options) ∧ (demandForest options).length = options.length ∧
      ∀ key first second, Touches options first key → Touches options second key →
        root (demandForest options) first = root (demandForest options) second := by
  obtain ⟨hlength, hclasses⟩ := demandForest_classes options
  refine ⟨hclasses.descending, hlength, ?_⟩
  intro key first second hfirst hsecond
  have hkey : key ∈ sortUnique (options.flatMap touchedKeys) := by
    obtain ⟨option, hindex, hkey⟩ := hfirst
    rw [mem_sortUnique]
    exact List.mem_flatMap.mpr ⟨option, List.mem_of_getElem? hindex, hkey⟩
  have hlinked := linked_of_users ((mem_usersOf key first).mpr hfirst)
    ((mem_usersOf key second).mpr hsecond)
  refine (hclasses.joined first second).mpr (hlinked.mono ?_)
  intro left right hunited
  exact List.mem_flatMap.mpr ⟨key, hkey, hunited⟩

/-! ## The components partition the demands -/

/-- The demands with a given root. -/
def classOf (options : List DemandOptions) (key : ℕ) : List ℕ :=
  (List.range options.length).filter fun index => root (demandForest options) index = key

/-- The loop of `componentsOf` over the first demands. -/
def componentsUpTo (options : List DemandOptions) (size : ℕ) :
    List ℕ × Std.TreeMap ℕ (List ℕ) :=
  (List.range size).foldl
    (fun entry index =>
      ((find entry.1 index).2, entry.2.insert (find entry.1 index).1
        ((entry.2[(find entry.1 index).1]?).getD [] ++ [index])))
    (demandForest options, ∅)

/-- The loop shortens paths of the forest and has listed each index under its root. -/
theorem componentsUpTo_spec (options : List DemandOptions) (size : ℕ) :
    Shortened (demandForest options) (componentsUpTo options size).1 ∧
      ∀ key : ℕ, (componentsUpTo options size).2[key]? =
        if (List.range size).filter (fun index => root (demandForest options) index = key) = []
        then none
        else some ((List.range size).filter fun index =>
          root (demandForest options) index = key) := by
  induction size with
  | zero =>
    refine ⟨Shortened.refl (demandForest_spec options).1, fun key => ?_⟩
    simp [componentsUpTo]
  | succ size ih =>
    have hstep : componentsUpTo options (size + 1) = ((find (componentsUpTo options size).1 size).2,
          (componentsUpTo options size).2.insert (find (componentsUpTo options size).1 size).1
            (((componentsUpTo options size).2[(find (componentsUpTo options size).1
              size).1]?).getD [] ++ [size])) := by
      rw [componentsUpTo, List.range_succ, List.foldl_append]
      rfl
    rw [hstep, List.range_succ]
    generalize componentsUpTo options size = entry at ih ⊢
    obtain ⟨hshortened, hlisted⟩ := ih
    obtain ⟨hroot, hfind⟩ := find_spec hshortened.descending size
    rw [hshortened.root] at hroot
    refine ⟨⟨hfind.descending, hfind.length.trans hshortened.length,
      fun value => (hfind.root value).trans (hshortened.root value)⟩, fun key => ?_⟩
    dsimp only
    rw [Std.TreeMap.getElem?_insert, hroot, hlisted, hlisted, List.filter_append]
    by_cases hkey : root (demandForest options) size = key
    · subst hkey
      generalize (List.range size).filter _ = earlier
      by_cases hnone : earlier = []
      · simp [hnone]
      · simp [hnone]
    · simp [hkey]

theorem componentsOf_getElem? (key : ℕ) (indices : List ℕ) :
    (componentsOf options)[key]? = some indices ↔ indices = classOf options key ∧ indices ≠ [] := by
  have hcomponents : componentsOf options = (componentsUpTo options options.length).2 := rfl
  rw [hcomponents, (componentsUpTo_spec options options.length).2 key, classOf]
  split_ifs with hnone
  · constructor
    · intro hsome
      cases hsome
    · rintro ⟨rfl, hsome⟩
      exact absurd hnone hsome
  · constructor
    · intro hsome
      cases hsome
      exact ⟨rfl, hnone⟩
    · rintro ⟨rfl, -⟩
      rfl

/-- The components list every demand once, and each of them is one class. -/
theorem components_perm (options : List DemandOptions) :
    (componentsOf options).values.flatten.Perm (List.range options.length) ∧
      ∀ component ∈ (componentsOf options).values, ∃ key, component = classOf options key :=
  classes_perm fun key indices => componentsOf_getElem? key indices

/-! ## The loop over the components -/

/-- One component's part of an assignment is what some search of it returned. -/
structure Solved (capacity : SwitchKey → ℕ) (options : List DemandOptions) (assembly : Assembly)
    (component : List ℕ) : Prop where
  search : ∃ budget,
    gather assembly.choice component =
      (searchComponent capacity (gather options component) budget).1 ∧
    (assembly.optimalityProven = true →
      (searchComponent capacity (gather options component) budget).2.exhausted = true)

theorem assembleComponent_eq (assembly : Assembly) (component : List ℕ) :
    (assembleComponent capacity options assembly component).choice =
      scatter assembly.choice component
        (searchComponent capacity (gather options component) assembly.remaining).1 ∧
    (assembleComponent capacity options assembly component).optimalityProven =
      (assembly.optimalityProven &&
        (searchComponent capacity (gather options component) assembly.remaining).2.exhausted) :=
  ⟨rfl, rfl⟩

theorem assemble_spec (hsound : ∀ option ∈ options, option.Sound)
    (components : List (List ℕ)) (hdistinct : components.flatten.Nodup)
    (hindices : ∀ component ∈ components, ∀ index ∈ component, index < options.length)
    (assembly : Assembly) (hlength : assembly.choice.length = options.length) :
    (components.foldl (assembleComponent capacity options) assembly).choice.length =
        options.length ∧
      ((components.foldl (assembleComponent capacity options) assembly).optimalityProven = true →
        assembly.optimalityProven = true) ∧
      (∀ index, index ∉ components.flatten →
        (components.foldl (assembleComponent capacity options) assembly).choice[index]? =
          assembly.choice[index]?) ∧
      ∀ component ∈ components, Solved capacity options
        (components.foldl (assembleComponent capacity options) assembly) component := by
  induction components generalizing assembly with
  | nil => exact ⟨hlength, id, fun _ _ => rfl, by simp⟩
  | cons component components ih =>
    rw [List.forall_mem_cons] at hindices
    rw [List.flatten_cons, List.nodup_append'] at hdistinct
    obtain ⟨hcomponent, hothers, hdisjoint⟩ := hdistinct
    obtain ⟨hchoice, hproven⟩ :
        (assembleComponent capacity options assembly component).choice = _ ∧ _ :=
      assembleComponent_eq assembly component
    have hgathered : ∀ option ∈ gather options component, option.Sound :=
      fun option hoption => hsound option (mem_of_mem_gather hoption)
    have hwritten : (searchComponent capacity (gather options component)
        assembly.remaining).1.length = component.length :=
      (searchComponent_spec hgathered assembly.remaining).1.length.trans (length_gather hindices.1)
    obtain ⟨hscattered, huntouched, hgather⟩ := scatter_spec hcomponent hwritten
      (show ∀ index ∈ component, index < assembly.choice.length by
        rw [hlength]
        exact hindices.1)
    rw [← hchoice] at hscattered huntouched hgather
    obtain ⟨hfinal, hflag, hkept, hsolved⟩ := ih hothers hindices.2
      (assembleComponent capacity options assembly component) (hscattered.trans hlength)
    rw [List.foldl_cons]
    refine ⟨hfinal, ?_, ?_, ?_⟩
    · intro hoptimal
      have hearlier := hflag hoptimal
      rw [hproven, Bool.and_eq_true] at hearlier
      exact hearlier.1
    · intro index hindex
      rw [List.flatten_cons, List.mem_append, not_or] at hindex
      rw [hkept index hindex.2, huntouched index hindex.1]
    · rw [List.forall_mem_cons]
      refine ⟨⟨assembly.remaining, ?_, ?_⟩, hsolved⟩
      · rw [← hgather]
        exact gather_congr fun index hindex => hkept index fun hlater => hdisjoint hindex hlater
      · intro hoptimal
        have hearlier := hflag hoptimal
        rw [hproven, Bool.and_eq_true] at hearlier
        exact hearlier.2

/-- What the search over all components returns. -/
theorem assignBySearch_spec (hsound : ∀ option ∈ options, option.Sound) (budget : ℕ) :
    (assignBySearch capacity options budget).choice.length = options.length ∧
      ∀ component ∈ (componentsOf options).values,
        Solved capacity options (assignBySearch capacity options budget) component := by
  obtain ⟨hperm, -⟩ := components_perm options
  obtain ⟨hlength, -, -, hsolved⟩ := assemble_spec hsound (componentsOf options).values
    (hperm.nodup_iff.mpr List.nodup_range)
    (fun component hcomponent index hindex => List.mem_range.mp
      (hperm.mem_iff.mp (List.mem_flatten.mpr ⟨component, hcomponent, hindex⟩)))
    { choice := List.replicate options.length skippedChoice, remaining := budget }
    List.length_replicate
  exact ⟨hlength, hsolved⟩

end SwitchFailover.Plan
