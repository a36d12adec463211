import SwitchFailover.Plan.PlanOrder

/-!
# A larger budget never gives a worse plan

With more budget the search of a component visits the same nodes in the same order and
then goes on.  Until the smaller budget is used up the two searches are level; after that
the smaller one is stopped and the larger one only improves on what it had found.  Either
way the larger one has no less left for the components that follow.
-/

namespace SwitchFailover.Plan

open SwitchFailover.Core Model Library.Ordering Library.DisjointSets Library.Partition

variable {extra budget : ℕ} {choice : List ℕ} {assembly : Assembly}

/-! ## One search ahead of another -/

namespace SearchState

/-- The same search with more budget left. -/
def plus (state : SearchState) (extra : ℕ) : SearchState :=
  { state with remaining := state.remaining + extra }

/-- What was found is not given up for something worse. -/
def Improves (before after : SearchState) : Prop :=
  ∀ best, before.best = some best →
    ∃ better, after.best = some better ∧ better.objective ≤ best.objective

theorem Improves.refl (state : SearchState) : state.Improves state :=
  fun best hbest => ⟨best, hbest, le_rfl⟩

theorem Improves.trans {first second third : SearchState} (hfirst : first.Improves second)
    (hsecond : second.Improves third) : first.Improves third := by
  intro best hbest
  obtain ⟨better, hbetter, hle⟩ := hfirst best hbest
  obtain ⟨least, hleast, hless⟩ := hsecond better hbetter
  exact ⟨least, hleast, hless.trans hle⟩

/-- The second search is the first one with more budget: level with it, or further after
the first one has used up its budget. -/
def Ahead (extra : ℕ) (first second : SearchState) : Prop :=
  (first.exhausted = true ∧ second = first.plus extra) ∨
    (first.exhausted = false ∧ first.remaining = 0 ∧ first.Improves second)

theorem Ahead.remaining_le {first second : SearchState} (hahead : Ahead extra first second) :
    first.remaining ≤ second.remaining := by
  rcases hahead with ⟨-, rfl⟩ | ⟨-, hempty, -⟩
  · exact Nat.le_add_right _ _
  · exact hempty ▸ Nat.zero_le _

end SearchState

/-- A part of the search that more budget does not lead elsewhere. -/
structure Steady (part : SearchState → SearchState) : Prop where
  improves : ∀ state : SearchState, state.Improves (part state)
  stays : ∀ state : SearchState, state.exhausted = false → part state = state
  spends : ∀ state : SearchState,
    (part state).nodes + (part state).remaining = state.nodes + state.remaining
  level : ∀ (extra : ℕ) (state : SearchState), state.exhausted = true →
    SearchState.Ahead extra (part state) (part (state.plus extra))

namespace Steady

variable {first second part : SearchState → SearchState}

theorem ahead (hpart : Steady part) {less more : SearchState}
    (hahead : SearchState.Ahead extra less more) :
    SearchState.Ahead extra (part less) (part more) := by
  rcases hahead with ⟨hexhausted, rfl⟩ | ⟨hstopped, hempty, himproves⟩
  · exact hpart.level extra less hexhausted
  · rw [hpart.stays less hstopped]
    exact Or.inr ⟨hstopped, hempty, himproves.trans (hpart.improves more)⟩

theorem nothing : Steady id where
  improves := SearchState.Improves.refl
  stays := fun _ _ => rfl
  spends := fun _ => rfl
  level := fun _ _ hexhausted => Or.inl ⟨hexhausted, rfl⟩

theorem andThen (hfirst : Steady first) (hsecond : Steady second) :
    Steady fun state => second (first state) where
  improves := fun state => (hfirst.improves state).trans (hsecond.improves _)
  stays := by
    intro state hstopped
    rw [hfirst.stays state hstopped, hsecond.stays state hstopped]
  spends := fun state => (hsecond.spends _).trans (hfirst.spends state)
  level := fun extra state hexhausted => hsecond.ahead (hfirst.level extra state hexhausted)

theorem foldl {A : Type*} {round : SearchState → A → SearchState} (values : List A)
    (hround : ∀ value ∈ values, Steady fun state => round state value) :
    Steady fun state => values.foldl round state := by
  induction values with
  | nil => exact nothing
  | cons value values ih =>
    rw [List.forall_mem_cons] at hround
    exact hround.1.andThen (ih hround.2)

/-- A node of the search is entered only while budget is left. -/
theorem entering (hpart : Steady part) :
    Steady fun state =>
      if !state.exhausted then state
      else if state.remaining = 0 then { state with exhausted := false }
      else part state.spend where
  improves := by
    intro state
    split_ifs
    · exact SearchState.Improves.refl state
    · exact fun best hbest => ⟨best, hbest, le_rfl⟩
    · exact fun best hbest => hpart.improves state.spend best hbest
  stays := by
    intro state hstopped
    simp [hstopped]
  spends := by
    intro state
    split_ifs with hstopped hempty
    · rfl
    · rfl
    · rw [hpart.spends, SearchState.spend]
      dsimp only
      omega
  level := by
    intro extra state hexhausted
    by_cases hempty : state.remaining = 0
    · refine Or.inr ?_
      simp only [hexhausted, Bool.not_true, Bool.false_eq_true, if_false, hempty, if_true,
        SearchState.plus, Nat.zero_add]
      refine ⟨trivial, trivial, ?_⟩
      split_ifs
      · exact fun best hbest => ⟨best, hbest, le_rfl⟩
      · exact fun best hbest => hpart.improves _ best hbest
    · have hspend : (state.plus extra).spend = state.spend.plus extra := by
        simp only [SearchState.plus, SearchState.spend, SearchState.mk.injEq, and_true]
        omega
      have hmore : ¬(state.plus extra).remaining = 0 := by
        simp only [SearchState.plus]
        omega
      have hflag : (state.plus extra).exhausted = true := hexhausted
      simp only [hexhausted, hflag, Bool.not_true, Bool.false_eq_true, if_false, hempty, hmore,
        hspend]
      exact hpart.level extra state.spend hexhausted

/-- A part that is left out when it cannot beat what was found. -/
theorem pruning (skipped cost : ℕ) (himproves : ∀ state : SearchState, state.Improves (part state))
    (hspends : ∀ state : SearchState,
      (part state).nodes + (part state).remaining = state.nodes + state.remaining)
    (hlevel : ∀ (extra : ℕ) (state : SearchState), state.exhausted = true →
      SearchState.Ahead extra (part state) (part (state.plus extra))) :
    Steady fun state => if !state.exhausted || state.prunes skipped cost then state
      else part state where
  improves := by
    intro state
    split_ifs
    · exact SearchState.Improves.refl state
    · exact himproves state
  stays := by
    intro state hstopped
    simp [hstopped]
  spends := by
    intro state
    split_ifs
    · rfl
    · exact hspends state
  level := by
    intro extra state hexhausted
    have hprunes : (state.plus extra).prunes skipped cost = state.prunes skipped cost := rfl
    have hflag : (state.plus extra).exhausted = true := hexhausted
    simp only [hexhausted, hflag, hprunes]
    split_ifs
    · exact Or.inl ⟨hexhausted, rfl⟩
    · exact hlevel extra state hexhausted

end Steady

/-! ## The search of a component -/

variable {capacity : SwitchKey → ℕ} {evaluations rest : List DemandOptions} {chosen : List ℕ}
  {used : List SwitchKey}

/-- Offering a candidate changes nothing but the best one found. -/
theorem offer_eq (state : SearchState) (candidate : Assignment) :
    state.offer candidate = { state with best := (state.offer candidate).best } := by
  rw [SearchState.offer]
  split
  · rfl
  · split_ifs
    · rfl
    · rfl

theorem offer_plus (state : SearchState) (candidate : Assignment) (extra : ℕ) :
    (state.plus extra).offer candidate = (state.offer candidate).plus extra := by
  have hbest : ((state.plus extra).offer candidate).best = (state.offer candidate).best := by
    have hsame : (state.plus extra).best = state.best := rfl
    rw [SearchState.offer, SearchState.offer, hsame]
    cases state.best with
    | none => rfl
    | some best =>
      dsimp only
      split_ifs
      · rfl
      · rfl
  rw [offer_eq, offer_eq state, hbest]
  rfl

theorem dfs_steady (skipped cost : ℕ) :
    Steady (dfs capacity evaluations rest chosen used skipped cost) := by
  induction rest generalizing chosen used skipped cost with
  | nil =>
    have hleaf : Steady fun state : SearchState =>
        if !state.exhausted || state.prunes skipped cost then state
        else state.offer (summarise chosen evaluations) := by
      apply Steady.pruning
      · exact fun state => (covers_offer state _).improves
      · intro state
        rw [offer_eq]
      · intro extra state hexhausted
        refine Or.inl ⟨?_, offer_plus state _ extra⟩
        rw [offer_eq]
        exact hexhausted
    have heq : dfs capacity evaluations [] chosen used skipped cost = fun state : SearchState =>
        if !state.exhausted || state.prunes skipped cost then state
        else state.offer (summarise chosen evaluations) := by
      funext state
      rw [dfs]
    rw [heq]
    exact hleaf
  | cons option rest ih =>
    -- one round of the loop over the alternatives
    have hround : ∀ entry ∈ option.eligible.zipIdx, Steady fun state : SearchState =>
        if !state.exhausted then state
        else if state.remaining = 0 then { state with exhausted := false }
        else if !fits capacity used entry.1 then state.spend
        else dfs capacity evaluations rest (chosen ++ [entry.2]) (entry.1.capacityKeys ++ used)
          skipped (addCost cost entry.1.candidate.cost.toNat) state.spend := by
      intro entry _
      cases hfits : fits capacity used entry.1 with
      | false =>
        have hskip := Steady.nothing.entering
        simpa [hfits] using hskip
      | true =>
        have hdeeper : Steady (dfs capacity evaluations rest (chosen ++ [entry.2])
          (entry.1.capacityKeys ++ used) skipped
          (addCost cost entry.1.candidate.cost.toNat)) := ih _ _
        simpa [hfits] using hdeeper.entering
    have hskipping : Steady (dfs capacity evaluations rest (chosen ++ [skippedChoice]) used
      (skipped + 1) cost) := ih _ _
    have hnode := (Steady.foldl _ hround).andThen hskipping.entering
    have hpruned := Steady.pruning skipped cost hnode.improves hnode.spends hnode.level
    convert hpruned using 1
    funext state
    rw [dfs]

/-- The numbers of a choice that add up over the demands. -/
def weightOf (evaluations : List DemandOptions) (choice : List ℕ) : ℕ ×ₗ ℕ ×ₗ ℕ :=
  ((choice.zip evaluations).map Position.weight).sum

theorem weight_le_skipped (option : DemandOptions) (index : ℕ) :
    Position.weight (index, option) ≤ Position.weight (skippedChoice, option) := by
  have hskipped : Position.weight (skippedChoice, option) = toLex (1, toLex (0, 0)) := by
    simp [Position.weight, Position.skipped, Position.cost, Position.hops, Position.use,
      selected_skipped]
  rw [hskipped, Position.weight]
  cases hselected : selected option index with
  | none => simp [Position.skipped, Position.cost, Position.hops, Position.use, hselected]
  | some use =>
    rw [Prod.Lex.toLex_le_toLex]
    left
    simp [Position.skipped, Position.use, hselected]

/-- No choice is worse than assigning nothing. -/
theorem weightOf_le_skipping (hlength : choice.length = evaluations.length) :
    weightOf evaluations choice ≤
      weightOf evaluations (List.replicate evaluations.length skippedChoice) := by
  induction evaluations generalizing choice with
  | nil => simp [weightOf]
  | cons option evaluations ih =>
    cases choice with
    | nil => cases hlength
    | cons index choice =>
      have hrest := ih (Nat.succ.inj hlength)
      simp only [weightOf, List.length_cons, List.replicate_succ, List.zip_cons_cons,
        List.map_cons, List.sum_cons] at hrest ⊢
      exact add_le_add (weight_le_skipped option index) hrest

theorem weightOf_le_of_objective {other : List ℕ}
    (hchoice : costOf (choice.zip evaluations) ≤ saturatedCost)
    (hother : costOf (other.zip evaluations) ≤ saturatedCost)
    (hle : (summarise choice evaluations).objective ≤ (summarise other evaluations).objective) :
    weightOf evaluations choice ≤ weightOf evaluations other := by
  rw [objective_summarise hchoice, objective_summarise hother, objectiveOf_le_iff,
    Prod.Lex.toLex_le_toLex] at hle
  rcases hle with hlt | ⟨heq, -⟩
  · exact hlt.le
  · exact heq.le

/-- What a search has found is an admissible assignment, summarised. -/
theorem searchComponent_best (hsound : ∀ option ∈ evaluations, option.Sound) {best : Assignment}
    (hbest : (searchComponent capacity evaluations budget).2.best = some best) :
    (searchComponent capacity evaluations budget).1 = best.choice ∧
      best = summarise best.choice evaluations := by
  have hcovers : SwitchFailover.Library.Incumbent.Covers Assignment.objective
      (below capacity evaluations evaluations [] []) _ _ :=
    dfs_covers hsound (show Underway evaluations evaluations [] 0 0 from ⟨[], rfl, rfl, rfl, rfl⟩)
      { remaining := budget }
  constructor
  · simp only [searchComponent] at hbest ⊢
    rw [hbest]
  · rcases hcovers.origin best hbest with hbefore | ⟨found, -, rfl⟩
    · cases hbefore
    · have hchoice : (summarise found evaluations).choice = found := by rw [summarise_eq]
      rw [List.nil_append, hchoice]

theorem searchComponent_none (hbest : (searchComponent capacity evaluations budget).2.best = none) :
    (searchComponent capacity evaluations budget).1 =
      List.replicate evaluations.length skippedChoice := by
  simp only [searchComponent] at hbest ⊢
  rw [hbest]

section Component

variable (hsound : ∀ option ∈ evaluations, option.Sound) {small large : ℕ} (hle : small ≤ large)

include hle

theorem searchComponent_ahead : SearchState.Ahead (large - small)
    (searchComponent capacity evaluations small).2
    (searchComponent capacity evaluations large).2 := by
  have hsteady : Steady (dfs capacity evaluations evaluations [] [] 0 0) := dfs_steady 0 0
  have hahead := hsteady.level (large - small) { remaining := small } rfl
  have hplus : ({ remaining := small } : SearchState).plus (large - small) =
      { remaining := large } := by
    simp [SearchState.plus, hle]
  rwa [hplus] at hahead

include hsound

/-- With more budget a component is assigned no worse. -/
theorem searchComponent_mono
    (hsmallCost : costOf ((searchComponent capacity evaluations small).1.zip evaluations) ≤
      saturatedCost)
    (hlargeCost : costOf ((searchComponent capacity evaluations large).1.zip evaluations) ≤
      saturatedCost) :
    weightOf evaluations (searchComponent capacity evaluations large).1 ≤
      weightOf evaluations (searchComponent capacity evaluations small).1 := by
  cases hsmall : (searchComponent capacity evaluations small).2.best with
  | none =>
    rw [searchComponent_none hsmall]
    exact weightOf_le_skipping (searchComponent_spec hsound large).1.length
  | some best =>
    have hlarge : ∃ better, (searchComponent capacity evaluations large).2.best = some better ∧
        better.objective ≤ best.objective := by
      rcases searchComponent_ahead hle with ⟨-, hlevel⟩ | ⟨-, -, himproves⟩
      · rw [hlevel]
        exact ⟨best, hsmall, le_rfl⟩
      · exact himproves best hsmall
    obtain ⟨better, hbetter, hobjective⟩ := hlarge
    obtain ⟨hchoice, hbest⟩ := searchComponent_best hsound hsmall
    obtain ⟨hother, hfound⟩ := searchComponent_best hsound hbetter
    rw [hbest, hfound, ← hchoice, ← hother] at hobjective
    exact weightOf_le_of_objective hlargeCost hsmallCost hobjective

end Component

/-! ## The loop over the components -/

section Components

variable {options : List DemandOptions}

theorem searchComponent_spends (budget : ℕ) :
    (searchComponent capacity evaluations budget).2.nodes +
      (searchComponent capacity evaluations budget).2.remaining = budget :=
  ((dfs_steady 0 0).spends { remaining := budget }).trans (Nat.zero_add budget)

theorem assembled_spends (components : List (List ℕ)) (assembly : Assembly) :
    (components.foldl (assembleComponent capacity options) assembly).nodes +
        (components.foldl (assembleComponent capacity options) assembly).remaining =
      assembly.nodes + assembly.remaining := by
  induction components generalizing assembly with
  | nil => rfl
  | cons component components ih =>
    have hsearch := @searchComponent_spends capacity (gather options component) assembly.remaining
    rw [List.foldl_cons, ih]
    change assembly.nodes + (searchComponent capacity (gather options component)
        assembly.remaining).2.nodes +
      (searchComponent capacity (gather options component) assembly.remaining).2.remaining = _
    omega

theorem assignBySearch_nodes_le (budget : ℕ) :
    (assignBySearch capacity options budget).nodes ≤ budget := by
  have hspends : (assignBySearch capacity options budget).nodes +
      (assignBySearch capacity options budget).remaining = 0 + budget := assembled_spends _ _
  omega

variable (hsound : ∀ option ∈ options, option.Sound)

include hsound

/-- The loop leaves a component as its search returned it. -/
theorem gather_foldl_head {component : List ℕ} {components : List (List ℕ)}
    (hdistinct : (component :: components).flatten.Nodup)
    (hindices : ∀ part ∈ component :: components, ∀ index ∈ part, index < options.length)
    (hlength : assembly.choice.length = options.length) :
    (assembleComponent capacity options assembly component).choice.length = options.length ∧
      gather ((component :: components).foldl (assembleComponent capacity options)
          assembly).choice component =
        (searchComponent capacity (gather options component) assembly.remaining).1 := by
  rw [List.forall_mem_cons] at hindices
  rw [List.flatten_cons, List.nodup_append'] at hdistinct
  obtain ⟨hcomponent, hothers, hdisjoint⟩ := hdistinct
  have hwritten : (searchComponent capacity (gather options component)
      assembly.remaining).1.length = component.length :=
    (searchComponent_spec (fun option hoption => hsound option (mem_of_mem_gather hoption))
      assembly.remaining).1.length.trans (length_gather hindices.1)
  obtain ⟨hscattered, -, hgather⟩ := scatter_spec hcomponent hwritten
    (show ∀ index ∈ component, index < assembly.choice.length by
      rw [hlength]
      exact hindices.1)
  rw [← (assembleComponent_eq assembly component).1] at hscattered hgather
  refine ⟨hscattered.trans hlength, ?_⟩
  obtain ⟨-, -, hkept, -⟩ := @assemble_spec capacity options hsound components hothers
    hindices.2 (assembleComponent capacity options assembly component) (hscattered.trans hlength)
  rw [List.foldl_cons, ← hgather]
  exact gather_congr fun index hindex => hkept index fun hlater => hdisjoint hindex hlater

/-- Started with more budget, the loop searches every component with no less. -/
theorem assembled_mono (components : List (List ℕ)) (hdistinct : components.flatten.Nodup)
    (hindices : ∀ part ∈ components, ∀ index ∈ part, index < options.length) {larger : Assembly}
    (hlength : assembly.choice.length = options.length)
    (hlarger : larger.choice.length = options.length)
    (hremaining : assembly.remaining ≤ larger.remaining) :
    ∀ component ∈ components, ∃ small large, small ≤ large ∧
      gather (components.foldl (assembleComponent capacity options) assembly).choice component =
        (searchComponent capacity (gather options component) small).1 ∧
      gather (components.foldl (assembleComponent capacity options) larger).choice component =
        (searchComponent capacity (gather options component) large).1 := by
  induction components generalizing assembly larger with
  | nil => simp
  | cons component components ih =>
    obtain ⟨hnext, hfirst⟩ := @gather_foldl_head assembly capacity options hsound component
      components hdistinct hindices hlength
    obtain ⟨hnextLarger, hsecond⟩ := @gather_foldl_head larger capacity options hsound component
      components hdistinct hindices hlarger
    rw [List.forall_mem_cons]
    refine ⟨⟨_, _, hremaining, hfirst, hsecond⟩, ?_⟩
    rw [List.flatten_cons, List.nodup_append'] at hdistinct
    exact ih hdistinct.2.1 (List.forall_mem_cons.mp hindices).2 hnext hnextLarger
      (searchComponent_ahead hremaining).remaining_le

theorem assignBySearch_searched {small large : ℕ} (hle : small ≤ large) :
    ∀ component ∈ (componentsOf options).values, ∃ less more, less ≤ more ∧
      gather (assignBySearch capacity options small).choice component =
        (searchComponent capacity (gather options component) less).1 ∧
      gather (assignBySearch capacity options large).choice component =
        (searchComponent capacity (gather options component) more).1 := by
  obtain ⟨hperm, -⟩ := components_perm options
  exact assembled_mono hsound (componentsOf options).values
    (hperm.nodup_iff.mpr List.nodup_range) (fun component => components_bounds)
    List.length_replicate List.length_replicate hle

omit hsound in
/-- The numbers of a choice are the sums of those of its components. -/
theorem sum_weightOf_gather (hlength : choice.length = options.length) :
    ((componentsOf options).values.map fun component =>
        weightOf (gather options component) (gather choice component)).sum =
      weightOf options choice := by
  have hclasses : (componentsOf options).values.flatten.Perm
      (List.range ((choice.zip options).map Position.weight).length) := by
    rw [List.length_map, List.length_zip, hlength, Nat.min_self]
    exact (components_perm options).1
  rw [weightOf, ← sum_gather hclasses]
  congr 1
  apply List.map_congr_left
  intro component hcomponent
  rw [weightOf, gather_zip_component hcomponent hlength, gather_map]

/-- With more budget the whole assignment is no worse. -/
theorem assignBySearch_mono {small large : ℕ} (hle : small ≤ large)
    (hcosts : ∀ picked, Admissible capacity options picked →
      costOf (picked.zip options) ≤ saturatedCost) :
    weightOf options (assignBySearch capacity options large).choice ≤
      weightOf options (assignBySearch capacity options small).choice := by
  have hadmissible : ∀ budget,
      Admissible capacity options (assignBySearch capacity options budget).choice :=
    assignBySearch_admissible hsound
  rw [← sum_weightOf_gather (hadmissible large).length,
    ← sum_weightOf_gather (hadmissible small).length]
  apply List.sum_le_sum
  intro component hcomponent
  have hcost : ∀ budget, costOf ((gather (assignBySearch capacity options budget).choice
      component).zip (gather options component)) ≤ saturatedCost := by
    intro budget
    rw [gather_zip_component hcomponent (hadmissible budget).length]
    exact (costOf_gather_le hcomponent (hadmissible budget).length).trans
      (hcosts _ (hadmissible budget))
  obtain ⟨less, more, hbudget, hless, hmore⟩ :=
    assignBySearch_searched hsound hle component hcomponent
  have hlessCost := hcost small
  have hmoreCost := hcost large
  rw [hless] at hlessCost
  rw [hmore] at hmoreCost
  rw [hless, hmore]
  exact searchComponent_mono (fun option hoption => hsound option (mem_of_mem_gather hoption))
    hbudget hlessCost hmoreCost

end Components

/-! ## Plans -/

section Planned

variable {inputs : PlanInputs} {failed : GenerationVector} {plan better : ReconstructionPlan}

/-- The unresolved dependents, the total cost and the total hop count of a plan. -/
def ReconstructionPlan.burden (plan : ReconstructionPlan) : ℕ ×ₗ ℕ ×ₗ ℕ :=
  toLex (plan.unresolved.length, toLex ((plan.restores.map (·.cost.toNat)).sum,
    (plan.restores.map (·.hops.length)).sum))

theorem Planned.burden_eq (hplanned : Planned (inputs.withBudget budget) failed false plan) :
    plan.burden = weightOf (optionsOf inputs failed)
      (assign (inputs.withBudget budget) (optionsOf inputs failed) false).choice := by
  have hrestores := hplanned.restores_eq
  have hunresolved := hplanned.unresolved_eq
  rw [buildDemandPlan_withBudget] at hrestores hunresolved
  rw [ReconstructionPlan.burden, hrestores, hunresolved, length_unresolvedEntriesOf,
    sum_cost_restoresOf, sum_hops_restoresOf, weightOf, sum_weight]
  rfl

theorem assign_nodes_le (budget : ℕ) :
    (assign (inputs.withBudget budget) (optionsOf inputs failed) false).nodes ≤ budget := by
  rw [assign]
  split_ifs
  · exact Nat.zero_le budget
  · exact assignBySearch_nodes_le budget

theorem assign_mono {small large : ℕ} (hle : small ≤ large) :
    weightOf (optionsOf inputs failed)
        (assign (inputs.withBudget large) (optionsOf inputs failed) false).choice ≤
      weightOf (optionsOf inputs failed)
        (assign (inputs.withBudget small) (optionsOf inputs failed) false).choice := by
  have hcapacity : ∀ budget, (inputs.withBudget budget).capacityOf = inputs.capacityOf :=
    fun _ => rfl
  rw [assign, assign, hcapacity, hcapacity]
  split_ifs
  · exact le_rfl
  · exact assignBySearch_mono optionsOf_sound hle fun picked hpicked =>
      costOf_le_saturated hpicked.length

/-- Anytime search.  The plan found with a larger budget is no worse, and neither search
visits more nodes than its budget. -/
theorem planned_anytime {small large : ℕ} (hle : small ≤ large)
    (hsmall : planReconstruction (inputs.withBudget small) failed = .ok plan)
    (hlarge : planReconstruction (inputs.withBudget large) failed = .ok better) :
    better.burden ≤ plan.burden ∧
      ∃ nodes moreNodes,
        planInternal (inputs.withBudget small) failed false = .ok (plan, nodes) ∧ nodes ≤ small ∧
        planInternal (inputs.withBudget large) failed false = .ok (better, moreNodes) ∧
          moreNodes ≤ large := by
  have hplanned := planReconstruction_eq_ok.mp hsmall
  have hbetter := planReconstruction_eq_ok.mp hlarge
  have hnodes : ∀ budget, (assign (inputs.withBudget budget)
      (buildDemandPlan (inputs.withBudget budget) failed).options false).nodes ≤ budget := by
    intro budget
    rw [buildDemandPlan_withBudget]
    exact assign_nodes_le budget
  refine ⟨?_, _, _, planInternal_eq_ok.mpr ⟨hplanned, rfl⟩, hnodes small,
    planInternal_eq_ok.mpr ⟨hbetter, rfl⟩, hnodes large⟩
  rw [hbetter.burden_eq, hplanned.burden_eq]
  exact assign_mono hle

end Planned

namespace Sample

def answerWithin (budget : ℕ) : ReconstructionPlan :=
  (planReconstruction (request.withBudget budget) lost).toOption.getD {}

theorem answerWithin_returned
    (hok : (planReconstruction (request.withBudget budget) lost).toBool = true) :
    planReconstruction (request.withBudget budget) lost = .ok (answerWithin budget) :=
  ok_of_toBool hok {}

end Sample

/-- Two nodes do not suffice to restore a path, a hundred restore two of them. -/
theorem planned_anytime_sample :
    (Sample.answerWithin 2).restores = [] ∧ (Sample.answerWithin 100).restores.length = 2 ∧
      (Sample.answerWithin 100).burden ≤ (Sample.answerWithin 2).burden :=
  ⟨by decide +kernel, by decide +kernel,
    (planned_anytime (by decide) (Sample.answerWithin_returned (by decide +kernel))
      (Sample.answerWithin_returned (by decide +kernel))).1⟩

end SwitchFailover.Plan
