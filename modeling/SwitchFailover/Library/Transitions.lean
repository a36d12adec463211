import Mathlib

/-!
# Runs of a deterministic transition system

A run is the fold of a list of events over the transition function.  A condition
on the steps of a run is a relation between the state before a step and the
event; an invariant that every admitted step preserves holds after every run all
of whose steps are admitted.
-/

namespace SwitchFailover.Library.Transitions

variable {State Event : Type*} {step : State → Event → State} {state : State}
  {events : List Event}

def run (step : State → Event → State) (state : State) (events : List Event) : State :=
  events.foldl step state

@[simp]
theorem run_nil (state : State) : run step state [] = state := rfl

@[simp]
theorem run_cons (state : State) (event : Event) (events : List Event) :
    run step state (event :: events) = run step (step state event) events := rfl

theorem run_append (state : State) (before after : List Event) :
    run step state (before ++ after) = run step (run step state before) after :=
  List.foldl_append

/-- Every step of the run meets the condition in the state it is taken from. -/
def Meets (step : State → Event → State) (condition : State → Event → Prop) :
    State → List Event → Prop
  | _, [] => True
  | state, event :: events =>
      condition state event ∧ Meets step condition (step state event) events

/-- A condition on the events alone is met when every event meets it. -/
theorem meets_of_forall {condition : Event → Prop} (hevents : ∀ event ∈ events, condition event)
    (state : State) : Meets step (fun _ event => condition event) state events := by
  induction events generalizing state with
  | nil => trivial
  | cons event events ih =>
    exact ⟨hevents event List.mem_cons_self,
      ih (fun other hother => hevents other (List.mem_cons_of_mem _ hother)) _⟩

/-- A test of every step of a run. -/
def checks (step : State → Event → State) (check : State → Event → Bool) :
    State → List Event → Bool
  | _, [] => true
  | state, event :: events => check state event && checks step check (step state event) events

theorem meets_of_checks {check : State → Event → Bool} {condition : State → Event → Prop}
    (hcheck : ∀ state event, check state event = true → condition state event)
    (hchecks : checks step check state events = true) : Meets step condition state events := by
  induction events generalizing state with
  | nil => trivial
  | cons event events ih =>
    rw [checks, Bool.and_eq_true] at hchecks
    exact ⟨hcheck state event hchecks.1, ih hchecks.2⟩

/-- The invariant rule: what admitted steps preserve, admitted runs preserve. -/
theorem invariant_of_meets {condition : State → Event → Prop} {invariant : State → Prop}
    (hstep : ∀ state event, condition state event → invariant state → invariant (step state event))
    (hmeets : Meets step condition state events) (hstart : invariant state) :
    invariant (run step state events) := by
  induction events generalizing state with
  | nil => exact hstart
  | cons event events ih => exact ih hmeets.2 (hstep state event hmeets.1 hstart)

end SwitchFailover.Library.Transitions
