import SwitchFailover.Model.Fencing
import SwitchFailover.Plan.Validity
import SwitchFailover.Runtime.Execution
import SwitchFailover.Runtime.System

/-!
# What a call can change

Every call except a failure declaration is a sequence of routine changes.  A
routine change states what the code has checked before it makes it; invariants of
the coordinator are proved for each routine change once, and hold after every
call because every call is such a sequence.
-/

namespace SwitchFailover.Runtime

open SwitchFailover.Core Model Plan Persist Library.Effects

variable {fates : Fate → Prop} {first last : Impl}

/-! ## Routine changes -/

/-- A failure record that the decoder accepts. -/
structure Journalable (record : FailureRecord) : Prop where
  subject : record.subject.valid = true
  observed : record.observedAtNs ≠ 0
  reason : record.reason.length ≤ maxMessageBytes

/-- The records routine changes append: a failure record is well formed, the
payload of the others is free. -/
def Recordable : RecordKind → Bytes → Prop
  | .failureCommitted, payload =>
      ∃ record, Journalable record ∧ payload = encodeFailureRecord record
  | .topologyInstalled, _ | .policyInstalled, _ | .planCommitted, _ | .applyCompleted, _
  | .shutdownClean, _ => True
  | _, _ => False

/-- The states in which a plan may still confer authority. -/
def Live (state : PlanState) : Prop :=
  state = .validated ∨ state = .applying ∨ state = .applied ∨ state = .partiallyApplied

/-- No restore step of the plan crosses a fenced generation. -/
def Clear (impl : Impl) (plan : ReconstructionPlan) : Prop :=
  ∀ step ∈ plan.restores, ∀ hop ∈ step.hops, impl.authority.isFenced hop = false

/-- A plan that may be retained: it is not superseded, and clear while live. -/
structure Retainable (impl : Impl) (plan : ReconstructionPlan) : Prop where
  current : plan.state ≠ .superseded
  clear : Live plan.state → Clear impl plan

/-- The dependents a call may mint authority for, and whether it may record apply
steps. -/
structure Scope where
  mints : DependentRef → Prop
  applies : Prop

variable {scope : Scope}

def Scope.nothing : Scope := ⟨fun _ => False, False⟩

def Scope.everything : Scope := ⟨fun _ => True, True⟩

/-- The fates an append can meet in an environment; success is always one. -/
def Env.deals (env : Env) (fate : Fate) : Prop := fate = .done ∨ ∃ index, fate = env.fate index

/-- One routine change, in a call whose appends meet the given fates. -/
inductive Routine (fates : Fate → Prop) (scope : Scope) : Impl → Impl → Prop
  | append {impl : Impl} (store : DurableStore) (fate : Fate) (kind : RecordKind)
      (payload : Bytes) (hstore : impl.store = some store) (hfate : fates fate)
      (hrecord : Recordable kind payload)
      (halive : (store.append impl.disk fate kind payload).1 ≠ .crashed) :
      Routine fates scope impl (impl.appended store fate kind payload)
  | install {impl : Impl} (topology : TopologySnapshot) (topologyPresent : Bool)
      (candidates : CandidateTable) (candidatesPresent : Bool) (policy : Policy) :
      Routine fates scope impl
        { impl with topology, topologyPresent, candidates, candidatesPresent, policy }
  | mint {impl : Impl} (dependent : DependentRef) (bound : GenerationVector)
      (time : TimestampNs) (detail : Bytes) (id : GrantId) (authority : AuthorityRegistry)
      (hscope : scope.mints dependent)
      (hmint : impl.mint dependent bound time detail = .ok (id, authority)) :
      Routine fates scope impl { impl with authority }
  | revoke {impl : Impl} (dependent : DependentRef) (cause : RevocationCause)
      (detail : Bytes) :
      Routine fates scope impl { impl with
        authority := (impl.authority.revokeDependent dependent cause detail).2 }
  | claimIdentity {impl : Impl} :
      Routine fates scope impl { impl with nextEvidence := impl.nextEvidence + 1 }
  | admission {impl : Impl} (time : TimestampNs) (record : EvidenceRecord)
      (hid : record.id.raw < runtimeReservedIdBase ∨
        record.id.raw + 1 = runtimeReservedIdBase + impl.nextEvidence) :
      Routine fates scope impl { impl with evidence := (impl.evidence.admitRecord time record).2 }
  | lineage {impl : Impl} (record : FailureRecord) (failures : FailureTable)
      (hwritten : impl.store.isSome → Written impl.disk .failureCommitted
        (encodeFailureRecord record))
      (hrecord : impl.failures.record record = .ok failures) :
      Routine fates scope impl { impl with failures }
  | replan {impl : Impl} (nextPlan : UInt64)
      (plans : Std.TreeMap PlanId ReconstructionPlan)
      (hplans : ∀ (id : PlanId) (plan : ReconstructionPlan), plans[id]? = some plan →
        impl.plans[id]? = some plan ∨ Retainable impl plan) :
      Routine fates scope impl { impl with nextPlan, plans }
  | begin {impl : Impl} (dependents : List DependentRef) (hscope : scope.applies) :
      Routine fates scope impl { impl with history := impl.history.begin dependents }
  | record {impl : Impl} (result : ApplyStepResult) (plan : PlanId)
      (hscope : scope.applies) :
      Routine fates scope impl { impl with
        applySteps := impl.applySteps.insert (stepKey result.dependent result.replacement)
          ⟨result, plan, impl.history.calls⟩ }
  | verify {impl : Impl} (record : EvidenceRecord) (plan : ReconstructionPlan) :
      Routine fates scope impl { impl with
        applySteps := (verifySteps record plan impl.applySteps).1 }
  | stop {impl : Impl} : Routine fates scope impl { impl with stopped := true }
  | close {impl : Impl} : Routine fates scope impl { impl with
      store := impl.store.map fun store => { store with isOpen := false } }

abbrev Routines (fates : Fate → Prop) (scope : Scope) : Impl → Impl → Prop :=
  Relation.ReflTransGen (Routine fates scope)

/-- The last thing a dying process does: an append it does not return from. -/
inductive Dies (fates : Fate → Prop) : Impl → Impl → Prop
  | append {impl : Impl} (store : DurableStore) (fate : Fate) (kind : RecordKind)
      (payload : Bytes) (hstore : impl.store = some store) (hfate : fates fate)
      (hrecord : Recordable kind payload)
      (hcrash : (store.append impl.disk fate kind payload).1 = .crashed) :
      Dies fates impl (impl.appended store fate kind payload)

/-- Routine changes, and at the end of a call that crashed a last append. -/
def Routines.Ending (fates : Fate → Prop) (scope : Scope) (outcome : Except Stop Unit)
    (first last : Impl) : Prop :=
  match outcome with
  | .error .crashed => ∃ middle, Routines fates scope first middle ∧ Dies fates middle last
  | _ => Routines fates scope first last

/-- The relation between the two ends of a call made of routine changes. -/
structure Within (scope : Scope) (outcome : Except Stop Unit) (first last : CallState) :
    Prop where
  env : last.env = first.env
  ending : Routines.Ending first.env.deals scope outcome first.impl last.impl

section Ending

variable {outcome : Except Stop Unit} {property : Impl → Prop} {middle : Impl}

theorem Routines.Ending.after (hlast : Routines.Ending fates scope outcome middle last)
    (hfirst : Routines fates scope first middle) :
    Routines.Ending fates scope outcome first last := by
  rcases outcome with (status | _) | ⟨⟩
  · exact hfirst.trans hlast
  · obtain ⟨dying, hdying, hdies⟩ := hlast
    exact ⟨dying, hfirst.trans hdying, hdies⟩
  · exact hfirst.trans hlast

/-- The invariant rule for sequences of routine changes. -/
theorem Routines.preserve
    (hstep : ∀ first last, Routine fates scope first last → property first → property last)
    (hroutines : Routines fates scope first last) (hfirst : property first) :
    property last := by
  induction hroutines with
  | refl => exact hfirst
  | tail _ hlast ih => exact hstep _ _ hlast ih

/-- An invariant that routine changes and the last append of a dying process keep
holds at the end of a call, however it ended. -/
theorem Routines.Ending.preserve
    (hstep : ∀ first last, Routine fates scope first last → property first → property last)
    (hdies : ∀ first last, Dies fates first last → property first → property last)
    (hending : Routines.Ending fates scope outcome first last) (hfirst : property first) :
    property last := by
  rcases outcome with (status | _) | ⟨⟩
  · exact Routines.preserve hstep hending hfirst
  · obtain ⟨middle, hmiddle, hlast⟩ := hending
    exact hdies middle last hlast (hmiddle.preserve hstep hfirst)
  · exact Routines.preserve hstep hending hfirst

end Ending

theorem Within.after {outcome : Except Stop Unit} {first middle last : CallState}
    (hlast : Within scope outcome middle last) (henv : middle.env = first.env)
    (hfirst : Routines first.env.deals scope first.impl middle.impl) :
    Within scope outcome first last where
  env := hlast.env.trans henv
  ending := by
    have hending := hlast.ending
    rw [henv] at hending
    exact hending.after hfirst

theorem Within.of_ticked {outcome : Except Stop Unit} {first last : CallState}
    (hwithin : Within scope outcome first.ticked last) : Within scope outcome first last :=
  ⟨hwithin.env, hwithin.ending⟩

/-- A call that is refused has changed what it would have changed. -/
theorem Within.refused {first last : CallState} (hwithin : Within scope (.ok ()) first last)
    (status : Status) : Within scope (.error (.failed status)) first last :=
  ⟨hwithin.env, hwithin.ending⟩

instance (scope : Scope) : Sequential (Within scope) where
  refl _ := ⟨rfl, Relation.ReflTransGen.refl⟩
  trans hfirst hlast := hlast.after hfirst.env hfirst.ending

/-! ## What every routine change leaves alone -/

/-- Identity, bounds and fences are fixed while a call is routine. -/
structure SameFrame (first last : Impl) : Prop where
  limits : last.limits = first.limits
  epoch : last.epoch = first.epoch
  boot : last.boot = first.boot
  restart : last.restart = first.restart
  fences : last.authority.fences = first.authority.fences
  nextFence : last.authority.nextFence = first.authority.nextFence
  authorityLimits : last.authority.limits = first.authority.limits
  stored : last.store.isSome = first.store.isSome

theorem SameFrame.refl (impl : Impl) : SameFrame impl impl :=
  ⟨rfl, rfl, rfl, rfl, rfl, rfl, rfl, rfl⟩

theorem SameFrame.trans {middle : Impl} (hfirst : SameFrame first middle)
    (hlast : SameFrame middle last) : SameFrame first last where
  limits := hlast.limits.trans hfirst.limits
  epoch := hlast.epoch.trans hfirst.epoch
  boot := hlast.boot.trans hfirst.boot
  restart := hlast.restart.trans hfirst.restart
  fences := hlast.fences.trans hfirst.fences
  nextFence := hlast.nextFence.trans hfirst.nextFence
  authorityLimits := hlast.authorityLimits.trans hfirst.authorityLimits
  stored := hlast.stored.trans hfirst.stored

theorem Routine.sameFrame (hroutine : Routine fates scope first last) : SameFrame first last := by
  cases hroutine with
  | append store fate kind payload hstore =>
    exact ⟨rfl, rfl, rfl, rfl, rfl, rfl, rfl, by simp [Impl.appended, hstore]⟩
  | mint dependent bound time detail id authority hscope hmint =>
    obtain ⟨-, -, rfl⟩ := AuthorityRegistry.grant_eq_ok.mp hmint
    exact ⟨rfl, rfl, rfl, rfl, rfl, rfl, rfl, rfl⟩
  | close => exact ⟨rfl, rfl, rfl, rfl, rfl, rfl, rfl, by simp⟩
  | _ => exact ⟨rfl, rfl, rfl, rfl, rfl, rfl, rfl, rfl⟩

theorem Routines.sameFrame (hroutines : Routines fates scope first last) :
    SameFrame first last := by
  induction hroutines with
  | refl => exact SameFrame.refl first
  | tail _ hlast ih => exact ih.trans hlast.sameFrame

theorem Dies.sameFrame (hdies : Dies fates first last) : SameFrame first last := by
  cases hdies with
  | append store fate kind payload hstore =>
    exact ⟨rfl, rfl, rfl, rfl, rfl, rfl, rfl, by simp [Impl.appended, hstore]⟩

theorem SameFrame.isFenced (hframe : SameFrame first last) (key : SwitchKey) :
    last.authority.isFenced key = first.authority.isFenced key := by
  rw [AuthorityRegistry.isFenced, AuthorityRegistry.isFenced, hframe.fences]

theorem SameFrame.clear (hframe : SameFrame first last) {plan : ReconstructionPlan}
    (hclear : Clear first plan) : Clear last plan := by
  intro step hstep hop hhop
  rw [hframe.isFenced]
  exact hclear step hstep hop hhop

end SwitchFailover.Runtime
