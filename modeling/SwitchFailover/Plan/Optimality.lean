import SwitchFailover.Plan.Components
import SwitchFailover.Plan.Evaluation

/-!
# The assignment is admissible and minimal

Each component is assigned within the capacities, and a generation is used in one
component only, so the whole assignment is admissible, whatever budget the searches
ran into.  The objective adds up over the components, so minimal parts make a minimal
whole.  Without contention every demand is a part of its own.
-/

namespace SwitchFailover.Plan

open SwitchFailover.Core Model Library.Ordering Library.DisjointSets Library.Partition Library.Maps

variable {capacity : SwitchKey → ℕ} {options : List DemandOptions} {choice other : List ℕ}

/-! ## Capacity -/

theorem touches_of_consumes {index : ℕ} {key : SwitchKey}
    (hconsumes : (choice.zip options)[index]?.any (Position.consumes key)) :
    Touches options index key := by
  cases hposition : (choice.zip options)[index]? with
  | none => simp [hposition] at hconsumes
  | some position =>
    rw [hposition, Option.any_some] at hconsumes
    rw [List.getElem?_zip_eq_some] at hposition
    refine ⟨position.2, hposition.2, ?_⟩
    rw [Position.consumes, Position.use] at hconsumes
    cases hselected : selected position.2 position.1 with
    | none => simp [hselected] at hconsumes
    | some use =>
      rw [hselected, Option.any_some, decide_eq_true_eq] at hconsumes
      rw [touchedKeys, mem_sortUnique]
      refine List.mem_flatMap.mpr ⟨use, ?_, hconsumes⟩
      rw [selected] at hselected
      split_ifs at hselected
      exact List.mem_of_getElem? hselected

theorem components_bounds {component : List ℕ}
    (hcomponent : component ∈ (componentsOf options).values) :
    ∀ index ∈ component, index < options.length := by
  intro index hindex
  have hmem := (components_perm options).1.mem_iff.mp
    (List.mem_flatten.mpr ⟨component, hcomponent, hindex⟩)
  exact List.mem_range.mp hmem

theorem components_sorted {component : List ℕ}
    (hcomponent : component ∈ (componentsOf options).values) : component.Pairwise (· < ·) := by
  obtain ⟨key, rfl⟩ := (components_perm options).2 component hcomponent
  exact List.pairwise_lt_range.filter _

/-- All uses of a generation lie in one component. -/
theorem usage_le_of_classes (hlength : choice.length = options.length)
    (hclasses : ∀ component ∈ (componentsOf options).values, ∀ key,
      usage (gather (choice.zip options) component) key ≤ capacity key) (key : SwitchKey) :
    usage (choice.zip options) key ≤ capacity key := by
  have hzip : (choice.zip options).length = options.length := by
    rw [List.length_zip, hlength, Nat.min_self]
  have hbounds : ∀ indices : List ℕ, (∀ index ∈ indices, index < options.length) →
      usage (gather (choice.zip options) indices) key = indices.countP fun index =>
        (choice.zip options)[index]?.any (Position.consumes key) := by
    intro indices hindices
    exact countP_gather _ (by rwa [hzip])
  have hall := hbounds (List.range options.length) (fun index hindex => List.mem_range.mp hindex)
  rw [← hzip, gather_range, hzip] at hall
  rw [hall]
  by_cases hused : ∃ index ∈ List.range options.length,
      (choice.zip options)[index]?.any (Position.consumes key) = true
  · obtain ⟨index, hindex, hconsumes⟩ := hused
    have hmember : index ∈ classOf options (root (demandForest options) index) :=
      List.mem_filter.mpr ⟨hindex, by simp⟩
    have hcomponent : classOf options (root (demandForest options) index) ∈
        (componentsOf options).values := by
      rw [values_eq_map_snd]
      exact List.mem_map.mpr ⟨_, Std.TreeMap.mem_toList_iff_getElem?_eq_some.mpr
        ((componentsOf_getElem? _ _).mpr ⟨rfl, List.ne_nil_of_mem hmember⟩), rfl⟩
    have hwithin := hclasses _ hcomponent key
    rw [hbounds _ (components_bounds hcomponent), classOf, List.countP_filter] at hwithin
    refine le_trans (List.countP_mono_left fun other hother hconsumed => ?_) hwithin
    rw [Bool.and_eq_true, decide_eq_true_eq]
    exact ⟨hconsumed, (demandForest_spec options).2.2 key other index
      (touches_of_consumes hconsumed) (touches_of_consumes hconsumes)⟩
  · have hnone : (List.range options.length).countP (fun index =>
        (choice.zip options)[index]?.any (Position.consumes key)) = 0 := by
      rw [List.countP_eq_zero]
      intro index hindex hconsumes
      exact hused ⟨index, hindex, hconsumes⟩
    rw [hnone]
    exact Nat.zero_le _

/-- The assignment that the searches leave is admissible, also when the budget ran out. -/
theorem assignBySearch_admissible (hsound : ∀ option ∈ options, option.Sound) (budget : ℕ) :
    Admissible capacity options (assignBySearch capacity options budget).choice := by
  obtain ⟨hlength, hsolved⟩ :
      (assignBySearch capacity options budget).choice.length = options.length ∧ _ :=
    assignBySearch_spec hsound budget
  have hpart : ∀ component ∈ (componentsOf options).values,
      Admissible capacity (gather options component)
        (gather (assignBySearch capacity options budget).choice component) := by
    intro component hcomponent
    obtain ⟨spent, hgather, -⟩ := (hsolved component hcomponent).search
    rw [hgather]
    exact (searchComponent_spec (fun option hoption => hsound option (mem_of_mem_gather hoption))
      spent).1
  have hzip : ∀ component ∈ (componentsOf options).values,
      (gather (assignBySearch capacity options budget).choice component).zip
          (gather options component) =
        gather ((assignBySearch capacity options budget).choice.zip options) component := by
    intro component hcomponent
    exact gather_zip hlength (by rw [hlength]; exact components_bounds hcomponent)
  refine ⟨hlength, ?_, ?_⟩
  · intro position hposition
    have hclasses : (componentsOf options).values.flatten.Perm
        (List.range ((assignBySearch capacity options budget).choice.zip options).length) := by
      rw [List.length_zip, hlength, Nat.min_self]
      exact (components_perm options).1
    obtain ⟨component, hcomponent, hgathered⟩ := mem_gather_of_mem hclasses hposition
    rw [← hzip component hcomponent] at hgathered
    exact (hpart component hcomponent).inRange position hgathered
  · apply usage_le_of_classes hlength
    intro component hcomponent key
    rw [← hzip component hcomponent]
    exact (hpart component hcomponent).within key

/-! ## Without contention -/

theorem potential_le (hfree : capacityBinding capacity options = false) (key : SwitchKey) :
    potential options key ≤ capacity key := by
  by_cases htouched : key ∈ sortUnique (options.flatMap touchedKeys)
  · have hkey := List.any_eq_false.mp hfree key htouched
    rw [decide_eq_true_eq] at hkey
    exact not_lt.mp hkey
  · have hnone : potential options key = 0 := by
      rw [potential, List.countP_eq_zero]
      intro option hoption hkey
      rw [mem_sortUnique] at htouched
      exact htouched (List.mem_flatMap.mpr ⟨option, hoption, of_decide_eq_true hkey⟩)
    rw [hnone]
    exact Nat.zero_le _

theorem usage_le_potential (hlength : choice.length = options.length) (key : SwitchKey) :
    usage (choice.zip options) key ≤ potential options key := by
  have hsecond : options = (choice.zip options).map Prod.snd :=
    (List.map_snd_zip hlength.ge).symm
  rw [potential]
  nth_rewrite 2 [hsecond]
  rw [List.countP_map, usage]
  refine List.countP_mono_left fun position hposition hconsumes => ?_
  obtain ⟨index, hindex⟩ := List.mem_iff_getElem?.mp hposition
  have htouches := touches_of_consumes (show
    (choice.zip options)[index]?.any (Position.consumes key) = true by
      rw [hindex]
      exact hconsumes)
  obtain ⟨option, hoption, hkey⟩ := htouches
  rw [List.getElem?_zip_eq_some] at hindex
  rw [hindex.2] at hoption
  cases hoption
  exact decide_eq_true hkey

/-- The choice made for a demand on its own. -/
def firstChoice (option : DemandOptions) : ℕ := if option.eligible.isEmpty then skippedChoice else 0

theorem zip_assignIndependently (options : List DemandOptions) :
    (assignIndependently options).zip options =
      options.map fun option => (firstChoice option, option) := by
  induction options with
  | nil => rfl
  | cons option options ih => exact congrArg (List.cons (firstChoice option, option)) ih

theorem assignIndependently_admissible (hfree : capacityBinding capacity options = false) :
    Admissible capacity options (assignIndependently options) := by
  have hlength : (assignIndependently options).length = options.length := List.length_map _
  refine ⟨hlength, ?_, fun key => (usage_le_potential hlength key).trans (potential_le hfree key)⟩
  intro position hposition
  rw [zip_assignIndependently] at hposition
  obtain ⟨option, -, rfl⟩ := List.mem_map.mp hposition
  dsimp only
  rw [firstChoice]
  split_ifs with hempty
  · exact Or.inl rfl
  · rw [List.isEmpty_iff, ← List.length_eq_zero_iff] at hempty
    exact Or.inr (by omega)

/-! ## The objective -/

/-- The objective with costs as they are, in the order in which it is compared. -/
def objectiveOf (options : List DemandOptions) (choice : List ℕ) : ℕ ×ₗ ℕ ×ₗ ℕ ×ₗ List ℕ :=
  toLex (skippedOf (choice.zip options), toLex (costOf (choice.zip options),
    toLex (hopsOf (choice.zip options), choice)))

/-- The part of the objective that adds up over the demands. -/
def Position.weight (position : Position) : ℕ ×ₗ ℕ ×ₗ ℕ :=
  toLex (position.skipped, toLex (position.cost, position.hops))

theorem sum_weight (positions : List Position) :
    (positions.map Position.weight).sum =
      toLex (skippedOf positions, toLex (costOf positions, hopsOf positions)) := by
  induction positions with
  | nil => rfl
  | cons position positions ih =>
    rw [List.map_cons, List.sum_cons, ih]
    rfl

theorem objectiveOf_le_iff :
    objectiveOf options choice ≤ objectiveOf options other ↔
      toLex (((choice.zip options).map Position.weight).sum, choice) ≤
        toLex (((other.zip options).map Position.weight).sum, other) := by
  simp only [objectiveOf, sum_weight, Prod.Lex.toLex_le_toLex, Prod.Lex.toLex_lt_toLex,
    EmbeddingLike.apply_eq_iff_eq, Prod.mk.injEq]
  tauto

theorem objective_summarise (hcost : costOf (choice.zip options) ≤ saturatedCost) :
    (summarise choice options).objective = objectiveOf options choice := by
  rw [summarise_eq, min_eq_left hcost]
  rfl

/-! ## Minimal parts -/

section Parts

variable {component : List ℕ} (hcomponent : component ∈ (componentsOf options).values)

include hcomponent

theorem gather_zip_component (hlength : choice.length = options.length) :
    (gather choice component).zip (gather options component) =
      gather (choice.zip options) component :=
  gather_zip hlength (by rw [hlength]; exact components_bounds hcomponent)

/-- The part of an admissible choice is admissible. -/
theorem Admissible.gather (hadmissible : Admissible capacity options choice) :
    Admissible capacity (gather options component) (gather choice component) := by
  have hbounds := components_bounds hcomponent
  have hzip := gather_zip_component hcomponent hadmissible.length
  have hlength : (choice.zip options).length = options.length := by
    rw [List.length_zip, hadmissible.length, Nat.min_self]
  refine ⟨?_, ?_, ?_⟩
  · rw [length_gather hbounds, length_gather (by rw [hadmissible.length]; exact hbounds)]
  · rw [hzip]
    intro position hposition
    exact hadmissible.inRange position (mem_of_mem_gather hposition)
  · intro key
    obtain ⟨root, rfl⟩ := (components_perm options).2 component hcomponent
    have hpart := countP_gather (Position.consumes key)
      (show ∀ index ∈ classOf options root, index < (choice.zip options).length by
        rw [hlength]
        exact hbounds)
    have hwhole := countP_gather (Position.consumes key)
      (show ∀ index ∈ List.range (choice.zip options).length,
        index < (choice.zip options).length by simp)
    rw [gather_range, hlength] at hwhole
    calc usage ((Library.Partition.gather choice _).zip (Library.Partition.gather options _)) key
        = (classOf options root).countP fun index =>
            (choice.zip options)[index]?.any (Position.consumes key) := by
          rw [hzip]
          exact hpart
      _ ≤ (List.range options.length).countP fun index =>
            (choice.zip options)[index]?.any (Position.consumes key) :=
          List.filter_sublist.countP_le
      _ = usage (choice.zip options) key := hwhole.symm
      _ ≤ capacity key := hadmissible.within key

theorem costOf_gather_le (hlength : choice.length = options.length) :
    costOf (gather (choice.zip options) component) ≤ costOf (choice.zip options) := by
  have hclasses : (componentsOf options).values.flatten.Perm
      (List.range ((choice.zip options).map Position.cost).length) := by
    rw [List.length_map, List.length_zip, hlength, Nat.min_self]
    exact (components_perm options).1
  have hsum := sum_gather hclasses
  rw [costOf, costOf, ← hsum, ← gather_map]
  exact List.le_sum_of_mem (List.mem_map.mpr ⟨component, hcomponent, rfl⟩)

end Parts

/-- Parts that are minimal one by one make a minimal choice. -/
theorem objectiveOf_le_of_parts {classes : List (List ℕ)}
    (hclasses : classes.flatten.Perm (List.range options.length))
    (hsorted : ∀ indices ∈ classes, indices.Pairwise (· < ·))
    (hchoice : choice.length = options.length) (hother : other.length = options.length)
    (hparts : ∀ indices ∈ classes, objectiveOf (gather options indices) (gather choice indices) ≤
      objectiveOf (gather options indices) (gather other indices)) :
    objectiveOf options choice ≤ objectiveOf options other := by
  have hlength : ∀ picked : List ℕ, picked.length = options.length →
      ((picked.zip options).map Position.weight).length = options.length := by
    intro picked hpicked
    rw [List.length_map, List.length_zip, hpicked, Nat.min_self]
  have hbounds : ∀ indices ∈ classes, ∀ index ∈ indices, index < options.length :=
    fun indices hindices index hindex => lt_length_of_mem_classes hclasses hindices hindex
  rw [objectiveOf_le_iff]
  refine toLex_le_of_gather_le (hchoice.trans hother.symm) ((hlength choice hchoice).trans
    hchoice.symm) ((hlength other hother).trans hchoice.symm) (by rwa [hchoice]) hsorted ?_
  intro indices hindices
  have hpart := objectiveOf_le_iff.mp (hparts indices hindices)
  rwa [gather_zip hchoice (by rw [hchoice]; exact hbounds indices hindices),
    gather_zip hother (by rw [hother]; exact hbounds indices hindices), ← gather_map,
    ← gather_map] at hpart

/-- When no search was cut short, the assignment is minimal. -/
theorem assignBySearch_minimal (hsound : ∀ option ∈ options, option.Sound) {budget : ℕ}
    (hcosts : ∀ picked, Admissible capacity options picked →
      costOf (picked.zip options) ≤ saturatedCost)
    (hproven : (assignBySearch capacity options budget).optimalityProven = true)
    (hother : Admissible capacity options other) :
    objectiveOf options (assignBySearch capacity options budget).choice ≤
      objectiveOf options other := by
  have hadmissible : Admissible capacity options (assignBySearch capacity options budget).choice :=
    assignBySearch_admissible hsound budget
  obtain ⟨hperm, -⟩ := components_perm options
  refine objectiveOf_le_of_parts hperm (fun component => components_sorted) hadmissible.length
    hother.length fun component hcomponent => ?_
  have hpartCost : ∀ picked, Admissible capacity options picked →
      costOf ((gather picked component).zip (gather options component)) ≤ saturatedCost := by
    intro picked hpicked
    rw [gather_zip_component hcomponent hpicked.length]
    exact (costOf_gather_le hcomponent hpicked.length).trans (hcosts picked hpicked)
  rw [← objective_summarise (hpartCost _ hadmissible), ← objective_summarise (hpartCost _ hother)]
  obtain ⟨spent, hgather, hexhausted⟩ :=
    ((assignBySearch_spec hsound budget).2 component hcomponent).search
  rw [hgather]
  exact (searchComponent_spec (fun option hoption => hsound option (mem_of_mem_gather hoption))
    spent).2 (hexhausted hproven) _ (hother.gather hcomponent)

/-- The first alternative of a demand is its best one. -/
theorem firstChoice_minimal {option : DemandOptions} (hsound : option.Sound) {index : ℕ}
    (hindex : index = skippedChoice ∨ index < option.eligible.length) :
    objectiveOf [option] [firstChoice option] ≤ objectiveOf [option] [index] := by
  rw [objectiveOf_le_iff]
  simp only [List.zip_cons_cons, List.zip_nil_right, List.map_cons, List.map_nil, List.sum_cons,
    List.sum_nil, add_zero]
  cases heligible : option.eligible with
  | nil =>
    have hfirst : firstChoice option = skippedChoice := by simp [firstChoice, heligible]
    have hskipped : index = skippedChoice := by simpa [heligible] using hindex
    rw [hfirst, hskipped]
  | cons use rest =>
    have hfirst : firstChoice option = 0 := by simp [firstChoice, heligible]
    have htaken : selected option 0 = some use :=
      selected_of_eligible hsound (by rw [heligible]; rfl)
    rw [hfirst]
    by_cases hskipped : index = skippedChoice
    · rw [hskipped, Prod.Lex.toLex_le_toLex]
      left
      rw [Position.weight, Position.weight, Prod.Lex.toLex_lt_toLex]
      left
      simp [Position.skipped, Position.use, htaken, selected_skipped]
    · have hbound := hindex.resolve_left hskipped
      have hselected := selected_of_eligible hsound (List.getElem?_eq_getElem hbound)
      have hrank : use.candidate.orderRank ≤ (option.eligible[index]).candidate.orderRank := by
        cases index with
        | zero => simp [heligible]
        | succ index =>
          have hsorted := List.pairwise_iff_getElem.mp hsound.sorted 0 (index + 1)
            (Nat.zero_lt_of_lt hbound) hbound (Nat.succ_pos _)
          simpa [heligible] using hsorted
      have hweight : Position.weight (0, option) ≤ Position.weight (index, option) := by
        simp only [Position.weight, Position.skipped, Position.cost, Position.hops, Position.use,
          htaken, hselected, Option.isSome_some, if_true, Option.map_some, Option.getD_some,
          Prod.Lex.toLex_le_toLex]
        simp only [ReconstructionCandidate.orderRank, Prod.Lex.toLex_le_toLex] at hrank
        rcases hrank with hcost | ⟨hcost, hhops | ⟨hhops, -⟩⟩
        · exact Or.inr ⟨trivial, Or.inl hcost⟩
        · exact Or.inr ⟨trivial, Or.inr ⟨hcost, hhops.le⟩⟩
        · exact Or.inr ⟨trivial, Or.inr ⟨hcost, hhops.le⟩⟩
      rw [Prod.Lex.toLex_le_toLex]
      rcases lt_or_eq_of_le hweight with hless | hequal
      · exact Or.inl hless
      · refine Or.inr ⟨hequal, ?_⟩
        rcases Nat.eq_zero_or_pos index with hzero | hpositive
        · rw [hzero]
        · exact le_of_lt (lt_of_first_difference 0 (by simp) rfl rfl hpositive)

/-- Without contention the cheapest alternative of each demand is minimal. -/
theorem assignIndependently_minimal (hsound : ∀ option ∈ options, option.Sound)
    (hother : Admissible capacity options other) :
    objectiveOf options (assignIndependently options) ≤ objectiveOf options other := by
  have hlength : (assignIndependently options).length = options.length := List.length_map _
  have hclasses : ((List.range options.length).map fun index => [index]).flatten.Perm
      (List.range options.length) := by
    rw [← List.flatMap_def, List.flatMap_singleton']
  refine objectiveOf_le_of_parts hclasses (by simp) hlength hother.length ?_
  intro indices hindices
  obtain ⟨index, hindex, rfl⟩ := List.mem_map.mp hindices
  have hbound : index < options.length := List.mem_range.mp hindex
  have hchosen : index < other.length := by
    rw [hother.length]
    exact hbound
  have hfirst : (assignIndependently options)[index]? = some (firstChoice options[index]) := by
    rw [assignIndependently, List.getElem?_map, List.getElem?_eq_getElem hbound]
    rfl
  have hread : ∀ {A : Type} {values : List A} {value : A}, values[index]? = some value →
      gather values [index] = [value] := by
    intro A values value hvalue
    simp [gather, hvalue]
  rw [hread hfirst, hread (List.getElem?_eq_getElem hbound),
    hread (List.getElem?_eq_getElem hchosen)]
  apply firstChoice_minimal (hsound _ (List.getElem_mem hbound))
  exact hother.inRange (other[index], options[index])
    (List.mem_iff_getElem?.mpr ⟨index, List.getElem?_zip_eq_some.mpr
      ⟨List.getElem?_eq_getElem hchosen, List.getElem?_eq_getElem hbound⟩⟩)

end SwitchFailover.Plan
