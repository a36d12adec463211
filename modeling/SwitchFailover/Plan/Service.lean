import SwitchFailover.Model.Withdrawal
import SwitchFailover.Plan.PlanOrder

/-!
# Restoring onto generations out of service

A generation may be taken out of service by administrative evidence or by the state its
descriptor declares.  The checks on a hop look at neither: of the adjudication they read the
contradiction and the fence obligation.  So a plan keeps off such generations only if the
alternatives it selects do.
-/

namespace SwitchFailover.Plan

open SwitchFailover.Core Model Library.Transitions

/-- The descriptor declares that the switch is not in service. -/
def unavailableState : SwitchAdminState → Bool
  | .disabled | .maintenance => true
  | .unknown | .enabled => false

/-- Administrative evidence or the topology takes the generation out of service. -/
def OutOfService (inputs : PlanInputs) (hop : SwitchKey) : Prop :=
  Withdrawn (inputs.evidence.getD { limits := {} }) hop inputs.nowNs ∨
    ∃ descriptor, inputs.snapshot.findSwitch hop = some descriptor ∧
      unavailableState descriptor.admin = true

def StepsInService (inputs : PlanInputs) (steps : List RestoreStep) : Prop :=
  ∀ step ∈ steps, ∀ hop ∈ step.hops, ¬OutOfService inputs hop

/-- No alternative that passes the checks leads over a generation that is out of service. -/
def AlternativesInService (inputs : PlanInputs) (failed : GenerationVector) : Prop :=
  ∀ demand ∈ demandsOf inputs failed, ∀ candidate ∈ inputs.table.candidates,
    candidate.dependent = demand.dependent → CandidateAdmissible inputs demand candidate →
      ∀ hop ∈ candidate.hops, ¬OutOfService inputs hop

/-- The least admissible choice of alternatives leads over no such generation. -/
def LeastInService (inputs : PlanInputs) (failed : GenerationVector) : Prop :=
  ∀ least, Admissible inputs.capacityOf (optionsOf inputs failed) least →
    (∀ choice, Admissible inputs.capacityOf (optionsOf inputs failed) choice →
      objectiveOf (optionsOf inputs failed) least ≤ objectiveOf (optionsOf inputs failed) choice) →
    StepsInService inputs (restoresOf (optionsOf inputs failed) least)

section Planned

variable {inputs : PlanInputs} {failed : GenerationVector} {plan : ReconstructionPlan}

theorem AlternativesInService.steps (halternatives : AlternativesInService inputs failed)
    (choice : List ℕ) : StepsInService inputs (restoresOf (optionsOf inputs failed) choice) := by
  intro step hstep
  obtain ⟨⟨option, index⟩, hentry, use, hselected, rfl⟩ := (mem_restoresOf step).mp hstep
  have hoption : option ∈ optionsOf inputs failed := (List.of_mem_zip hentry).1
  have hsupplied := supplied_of_mem_optionsOf hoption (mem_eligible_of_selected hselected)
  obtain ⟨demand, hdemand, rfl⟩ := mem_optionsOf.mp hoption
  exact halternatives demand hdemand use.candidate hsupplied.listed hsupplied.dependent
    hsupplied.admissible

/-- A plan restores onto no generation out of service if no alternative that passes the
checks leads over one.  Where no search limit was reached, the plan keeps off them exactly
if the least choice of alternatives does. -/
theorem restores_in_service (hreturned : planReconstruction inputs failed = .ok plan) :
    (AlternativesInService inputs failed → StepsInService inputs plan.restores) ∧
      (plan.feasibility ≠ .searchLimitReached →
        (StepsInService inputs plan.restores ↔ LeastInService inputs failed)) := by
  have hplanned := planReconstruction_eq_ok.mp hreturned
  have hrestores : plan.restores = restoresOf (optionsOf inputs failed)
      (assign inputs (optionsOf inputs failed) false).choice := hplanned.restores_eq
  rw [hrestores]
  refine ⟨fun halternatives => halternatives.steps _, fun hlimit => ⟨?_, ?_⟩⟩
  · intro hsteps least hleast hminimal
    rw [hplanned.choice_eq_of_least hlimit hleast hminimal]
    exact hsteps
  · intro hleast
    exact hleast _ assign_admissible fun choice hchoice =>
      assign_minimal (hplanned.optimalityProven hlimit) hchoice

end Planned

/-- Nothing is out of service in the sample, and the plan is as good as its alternatives. -/
theorem restores_in_service_sample :
    Sample.answer.feasibility = .provenFeasible ∧
      (StepsInService Sample.request Sample.answer.restores ↔
        LeastInService Sample.request Sample.lost) := by
  have hfeasible : Sample.answer.feasibility = .provenFeasible := by decide +kernel
  exact ⟨hfeasible, (restores_in_service Sample.planned).2 (by rw [hfeasible]; decide)⟩

namespace Sample

/-- An operator has disabled the switch that the first path can move to. -/
def disabling : EvidenceRecord := { Model.Sample.disabled with subject := switchB }

def disabledRequest : PlanInputs :=
  { request with evidence := some (run EvidenceStore.perform ({ limits := {} } : EvidenceStore)
      [.admitRecord 1000 disabling]) }

/-- The topology declares that switch to be under maintenance. -/
def maintainedRequest : PlanInputs :=
  { request with topology := (TopologySnapshot.build ⟨1⟩ [descriptor switchA 1,
      { descriptor switchB 1 with admin := .maintenance }, descriptor switchC 1] []
    ([1, 2, 3].map fun id => { id := ⟨id⟩, hops := [switchA] }) [] {}).toOption }

/-- The hops onto which a plan restores. -/
def restoredHops (inputs : PlanInputs) : Option (List SwitchKey) :=
  (planReconstruction inputs lost).toOption.map fun plan => plan.restores.flatMap (·.hops)

theorem outOfService_disabled : OutOfService disabledRequest switchB := by
  refine Or.inl (Withdrawn.of_bucket (EvidenceStore.filed_calls {} [.admitRecord 1000 disabling])
    (show disabling ∈ _ by decide +kernel) (by decide +kernel) (by decide +kernel))

theorem outOfService_maintained : OutOfService maintainedRequest switchB := by
  refine Or.inr ⟨{ descriptor switchB 1 with admin := .maintenance }, by decide +kernel, rfl⟩

end Sample

/-- The plan restores onto a switch that is disabled, and onto one under maintenance. -/
theorem restores_out_of_service :
    (OutOfService Sample.disabledRequest Sample.switchB ∧
        (Sample.restoredHops Sample.disabledRequest).any (Sample.switchB ∈ ·) = true) ∧
      OutOfService Sample.maintainedRequest Sample.switchB ∧
        (Sample.restoredHops Sample.maintainedRequest).any (Sample.switchB ∈ ·) = true :=
  ⟨⟨Sample.outOfService_disabled, by decide +kernel⟩, Sample.outOfService_maintained,
    by decide +kernel⟩

end SwitchFailover.Plan
