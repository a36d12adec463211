import SwitchFailover.Library.Transitions

/-!
# Values that the steps of a run emit

A step may emit a value.  If the state keeps a mark that no step lowers, and a value
that is emitted lies above the mark before the step and not above the mark after it,
then the values of a whole run rise strictly.
-/

namespace SwitchFailover.Library.Transitions

variable {State Event Value : Type*} {step : State → Event → State}
variable {emit : State → Event → Option Value}

/-- The values that the steps of a run emit, in order. -/
def emissions (step : State → Event → State) (emit : State → Event → Option Value) :
    State → List Event → List Value
  | _, [] => []
  | state, event :: events =>
      (emit state event).toList ++ emissions step emit (step state event) events

/-- The mark that the state keeps, in all states that satisfy the invariant. -/
structure Rising (step : State → Event → State) (emit : State → Event → Option Value)
    (invariant : State → Prop) (rank : Value → ℕ) (mark : State → ℕ) : Prop where
  kept : ∀ state event, invariant state → invariant (step state event)
  mono : ∀ state event, invariant state → mark state ≤ mark (step state event)
  above : ∀ state event value, invariant state → emit state event = some value →
    mark state < rank value ∧ rank value ≤ mark (step state event)

variable {invariant : State → Prop} {rank : Value → ℕ} {mark : State → ℕ}

theorem Rising.lt_of_mem (hrising : Rising step emit invariant rank mark) {state : State}
    (hstart : invariant state) {events : List Event} {value : Value}
    (hvalue : value ∈ emissions step emit state events) : mark state < rank value := by
  induction events generalizing state with
  | nil => cases hvalue
  | cons event events ih =>
    rw [emissions, List.mem_append, Option.mem_toList] at hvalue
    rcases hvalue with hnow | hlater
    · exact (hrising.above state event value hstart hnow).1
    · exact lt_of_le_of_lt (hrising.mono state event hstart)
        (ih (hrising.kept state event hstart) hlater)

theorem Rising.pairwise (hrising : Rising step emit invariant rank mark) {state : State}
    (hstart : invariant state) (events : List Event) :
    (emissions step emit state events).Pairwise (fun left right => rank left < rank right) := by
  induction events generalizing state with
  | nil => exact List.Pairwise.nil
  | cons event events ih =>
    have hnext := hrising.kept state event hstart
    rw [emissions]
    cases hemit : emit state event with
    | none => exact ih hnext
    | some value =>
      refine List.pairwise_cons.mpr ⟨fun later hlater => ?_, ih hnext⟩
      exact lt_of_le_of_lt (hrising.above state event value hstart hemit).2
        (hrising.lt_of_mem hnext hlater)

end SwitchFailover.Library.Transitions
