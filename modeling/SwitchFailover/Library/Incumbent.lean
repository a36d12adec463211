import Mathlib

/-!
# Searches that keep the best candidate found

A search keeps the best candidate found so far and whether it has left anything out.
What one part of a search covers is a set of candidates; the parts compose to the
union of their sets.
-/

namespace SwitchFailover.Library.Incumbent

variable {C V : Type*} [LinearOrder V]

/-- The best candidate found, and whether nothing was left out for lack of budget. -/
structure Progress (C : Type*) where
  best : Option C
  exhausted : Bool

/-- The part of a search from `before` to `after` covers a set of candidates: it takes
its finds from the set, never forgets a better one, and unless it was stopped it ends
with a find that no candidate of the set beats. -/
structure Covers (value : C → V) (space : Set C) (before after : Progress C) : Prop where
  exhausted : after.exhausted = true → before.exhausted = true
  complete : after.exhausted = true → ∀ candidate ∈ space,
    ∃ best, after.best = some best ∧ value best ≤ value candidate
  origin : ∀ best, after.best = some best → before.best = some best ∨ best ∈ space
  improves : ∀ best, before.best = some best →
    ∃ better, after.best = some better ∧ value better ≤ value best

namespace Covers

variable {value : C → V} {space first second : Set C} {before middle after : Progress C}

theorem nothing (before : Progress C) : Covers value ∅ before before where
  exhausted := id
  complete := by simp
  origin := fun _ hbest => Or.inl hbest
  improves := fun best hbest => ⟨best, hbest, le_rfl⟩

/-- A stopped search covers anything. -/
theorem stopped (hbest : after.best = before.best) (hflag : after.exhausted = false) :
    Covers value space before after where
  exhausted := by simp [hflag]
  complete := by simp [hflag]
  origin := fun _ hfound => Or.inl (hbest ▸ hfound)
  improves := fun best hfound => ⟨best, hbest ▸ hfound, le_rfl⟩

/-- A set that the best find beats need not be searched. -/
theorem pruned {best : C} (hbest : before.best = some best)
    (hbeats : ∀ candidate ∈ space, value best ≤ value candidate) :
    Covers value space before before where
  exhausted := id
  complete := fun _ candidate hcandidate => ⟨best, hbest, hbeats candidate hcandidate⟩
  origin := fun _ hfound => Or.inl hfound
  improves := fun found hfound => ⟨found, hfound, le_rfl⟩

/-- Offering a candidate that replaces a worse find. -/
theorem replaced {candidate : C} (hflag : after.exhausted = before.exhausted)
    (hafter : after.best = some candidate)
    (hworse : ∀ best, before.best = some best → value candidate ≤ value best) :
    Covers value {candidate} before after where
  exhausted := fun hexhausted => hflag ▸ hexhausted
  complete := by
    rintro _ other rfl
    exact ⟨other, hafter, le_rfl⟩
  origin := by
    intro best hbest
    rw [hafter] at hbest
    cases hbest
    exact Or.inr rfl
  improves := fun best hbest => ⟨candidate, hafter, hworse best hbest⟩

theorem trans (hfirst : Covers value first before middle)
    (hsecond : Covers value second middle after) :
    Covers value (first ∪ second) before after where
  exhausted := fun hexhausted => hfirst.exhausted (hsecond.exhausted hexhausted)
  complete := by
    rintro hexhausted candidate (hcandidate | hcandidate)
    · obtain ⟨best, hbest, hle⟩ :=
        hfirst.complete (hsecond.exhausted hexhausted) candidate hcandidate
      obtain ⟨better, hbetter, himproved⟩ := hsecond.improves best hbest
      exact ⟨better, hbetter, himproved.trans hle⟩
    · exact hsecond.complete hexhausted candidate hcandidate
  origin := by
    intro best hbest
    rcases hsecond.origin best hbest with hmiddle | hfound
    · rcases hfirst.origin best hmiddle with hbefore | hfound
      · exact Or.inl hbefore
      · exact Or.inr (Or.inl hfound)
    · exact Or.inr (Or.inr hfound)
  improves := by
    intro best hbest
    obtain ⟨better, hbetter, hle⟩ := hfirst.improves best hbest
    obtain ⟨final, hfinal, himproved⟩ := hsecond.improves better hbetter
    exact ⟨final, hfinal, himproved.trans hle⟩

/-- A search that covers the rest of a loop after one of its rounds. -/
theorem foldl {A S : Type*} {progress : S → Progress C} {step : S → A → S} {spaceOf : A → Set C}
    (values : List A) (hstep : ∀ entry ∈ values, ∀ state,
      Covers value (spaceOf entry) (progress state) (progress (step state entry))) (state : S) :
    Covers value {candidate | ∃ entry ∈ values, candidate ∈ spaceOf entry} (progress state)
      (progress (values.foldl step state)) := by
  induction values generalizing state with
  | nil => simpa using nothing (progress state)
  | cons entry rest ih =>
    have hrest := ih (fun other hother => hstep other (List.mem_cons_of_mem _ hother))
      (step state entry)
    have hboth := (hstep entry List.mem_cons_self state).trans hrest
    have hspace : spaceOf entry ∪ {candidate | ∃ other ∈ rest, candidate ∈ spaceOf other} =
        {candidate | ∃ other ∈ entry :: rest, candidate ∈ spaceOf other} := by
      ext candidate
      simp
    rwa [hspace] at hboth

end Covers

end SwitchFailover.Library.Incumbent
