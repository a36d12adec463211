import Mathlib

/-!
# Computations with a state that survives a stop

A computation carries a state through and may stop early; the state reached at
the stop is kept.  Two ways to reason about one are given.  `After` states what
holds of the outcome and the final state of one run, and is computed step by
step.  `Keeps` states that every run relates its two end states, in a way that
may depend on how the run ended; it composes without looking at results, so that
an invariant of a long computation follows from that of its parts.
-/

namespace SwitchFailover.Library.Effects

variable {S E A B C : Type}

abbrev Action (S E A : Type) := ExceptT E (StateM S) A

def execute (action : Action S E A) (state : S) : Except E A × S := action state

section Execution

variable (state : S)

@[simp]
theorem execute_pure (value : A) :
    execute (pure value : Action S E A) state = (.ok value, state) := rfl

@[simp]
theorem execute_throw (stop : E) :
    execute (throw stop : Action S E A) state = (.error stop, state) := rfl

@[simp]
theorem execute_get : execute (get : Action S E S) state = (.ok state, state) := rfl

@[simp]
theorem execute_modify (change : S → S) :
    execute (modify change : Action S E Unit) state = (.ok (), change state) := rfl

theorem execute_bind (first : Action S E A) (next : A → Action S E B) :
    execute (first >>= next) state = match execute first state with
      | (.ok value, middle) => execute (next value) middle
      | (.error stop, middle) => (.error stop, middle) := by
  change execute (ExceptT.bind first next) state = _
  simp only [execute, ExceptT.bind, ExceptT.bindCont, ExceptT.mk, bind, StateT.bind]
  rcases hrun : first state with ⟨outcome, middle⟩
  cases outcome with
  | ok value => rfl
  | error stop => rfl

end Execution

/-! ## Outcome and final state of one run -/

/-- The outcome and the final state of the run from `state` satisfy `post`. -/
def After (action : Action S E A) (state : S) (post : Except E A → S → Prop) : Prop :=
  post (execute action state).1 (execute action state).2

section After

variable {state : S} {post : Except E B → S → Prop}

theorem After.mono {action : Action S E A} {weak strong : Except E A → S → Prop}
    (hafter : After action state strong)
    (himplies : ∀ outcome final, strong outcome final → weak outcome final) :
    After action state weak :=
  himplies _ _ hafter

@[simp]
theorem after_pure {value : B} :
    After (pure value) state post ↔ post (.ok value) state := Iff.rfl

@[simp]
theorem after_throw {stop : E} :
    After (throw stop) state post ↔ post (.error stop) state := Iff.rfl

theorem after_bind {first : Action S E A} {next : A → Action S E B} :
    After (first >>= next) state post ↔ After first state fun outcome middle =>
        match outcome with
        | .ok value => After (next value) middle post
        | .error stop => post (.error stop) middle := by
  rw [After, execute_bind, After]
  rcases execute first state with ⟨outcome, middle⟩
  cases outcome with
  | ok value => rfl
  | error stop => rfl

/-- The usual way through a sequence: from what is known of the first part. -/
theorem After.bind {first : Action S E A} {next : A → Action S E B}
    {known : Except E A → S → Prop} (hfirst : After first state known)
    (herror : ∀ stop middle, known (.error stop) middle → post (.error stop) middle)
    (hok : ∀ value middle, known (.ok value) middle → After (next value) middle post) :
    After (first >>= next) state post := by
  rw [after_bind]
  apply hfirst.mono
  intro outcome middle hknown
  cases outcome with
  | ok value => exact hok value middle hknown
  | error stop => exact herror stop middle hknown

end After

/-! ## Relations between the two ends of every run -/

/-- How a run ended, without its answer. -/
def ending (outcome : Except E A) : Except E Unit := outcome.map fun _ => ()

@[simp]
theorem ending_unit (outcome : Except E Unit) : ending outcome = outcome := by
  cases outcome with
  | ok value => rfl
  | error stop => rfl

/-- A relation between two states, for each way to end, that can be followed
along a sequence: every part but the last one finished. -/
class Sequential (relation : Except E Unit → S → S → Prop) : Prop where
  refl : ∀ state, relation (.ok ()) state state
  trans : ∀ {outcome first middle last}, relation (.ok ()) first middle →
    relation outcome middle last → relation outcome first last

/-- Every run relates the state it starts in to the state it ends in. -/
def Keeps (relation : Except E Unit → S → S → Prop) (action : Action S E A) : Prop :=
  ∀ state, After action state fun outcome final => relation (ending outcome) state final

section Keeps

variable {relation : Except E Unit → S → S → Prop}

theorem keeps_throw {stop : E} (hstop : ∀ state, relation (.error stop) state state) :
    Keeps relation (throw stop : Action S E A) := hstop

variable [Sequential relation]

theorem keeps_pure {value : A} : Keeps relation (pure value : Action S E A) :=
  fun state => Sequential.refl state

theorem keeps_get : Keeps relation (get : Action S E S) :=
  fun state => Sequential.refl state

theorem Keeps.bind {first : Action S E A} {next : A → Action S E B}
    (hfirst : Keeps relation first) (hnext : ∀ value, Keeps relation (next value)) :
    Keeps relation (first >>= next) := by
  intro state
  apply (hfirst state).bind
  · intro stop middle hmiddle
    exact hmiddle
  · intro value middle hmiddle
    apply (hnext value middle).mono
    intro outcome final hfinal
    exact Sequential.trans hmiddle hfinal

/-- The rule for a loop over a list: one round keeps the relation, so all do. -/
theorem keeps_foldlM {step : B → A → Action S E B} {values : List A}
    (hstep : ∀ value ∈ values, ∀ accumulated, Keeps relation (step accumulated value))
    (start : B) : Keeps relation (values.foldlM step start) := by
  induction values generalizing start with
  | nil => exact keeps_pure
  | cons value rest ih =>
    rw [List.foldlM_cons]
    exact (hstep value List.mem_cons_self start).bind fun next =>
      ih (fun other hother => hstep other (List.mem_cons_of_mem _ hother)) next

theorem keeps_forM {step : A → Action S E PUnit} {values : List A}
    (hstep : ∀ value ∈ values, Keeps relation (step value)) :
    Keeps relation (forM values step) := by
  induction values with
  | nil => exact keeps_pure
  | cons value rest ih =>
    rw [List.forM_cons]
    exact (hstep value List.mem_cons_self).bind fun _ =>
      ih fun other hother => hstep other (List.mem_cons_of_mem _ hother)

end Keeps

end SwitchFailover.Library.Effects
