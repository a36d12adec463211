import SwitchFailover.Persist.Payloads
import SwitchFailover.Runtime.Opening

/-!
# The policy after a restart

An installed policy is journaled before it is in force, in a form that can be read
back.  Opening does not read it back: the policy in force after a restart is the
configured one, whatever was installed before.
-/

namespace SwitchFailover.Runtime

open SwitchFailover.Core Codec Model Plan Persist Library.Codec Library.Effects Library.Transitions

variable {policy : Policy} {impl : Impl} {env : Env}

/-! ## The journaled policy -/

namespace Policy

def assessmentChunks (policy : AssessmentPolicy) : List Bytes :=
  writeBoolean policy.fenceOnAuthoritativeConflict ++ writeBoolean policy.fenceOnMissingHealth ++
    writeBoolean policy.allowSameGenerationRecovery ++
    writeBoolean policy.requireAuthoritativeFailureEvidence ++
    writeU64 policy.futureSkewToleranceNs

def planningChunks (policy : PlanningPolicy) : List Bytes :=
  writeBoolean policy.allowReplacementInSameFailureDomain ++
    writeBoolean policy.requireCapabilitySuperset ++
    writeBoolean policy.requireAuthoritativeCandidateEvidence ++
    writeBoolean policy.allowWithholdOnUnresolved ++
    writeBoolean policy.allowRestoreWhenClosureTruncated ++
    writeU32 policy.maxCandidatesPerDependent

theorem reads_assessment (policy : AssessmentPolicy) :
    Reads readAssessment (assessmentChunks policy).flatten policy := by
  simp only [assessmentChunks, List.flatten_append, List.append_assoc]
  exact (reads_boolean _).bind ((reads_boolean _).bind ((reads_boolean _).bind
    ((reads_boolean _).bind ((reads_u64 _).bindPure _))))

theorem reads_planning (policy : PlanningPolicy) :
    Reads readPlanning (planningChunks policy).flatten policy := by
  simp only [planningChunks, List.flatten_append, List.append_assoc]
  exact (reads_boolean _).bind ((reads_boolean _).bind ((reads_boolean _).bind
    ((reads_boolean _).bind ((reads_boolean _).bind ((reads_u32 _).bindPure _)))))

/-- The fields of a policy in the order they are written. -/
def chunks (policy : Policy) : List Bytes :=
  writeU8 policyFormatTag ++ writeU32 policy.formatVersion ++
    assessmentChunks policy.assessment ++ planningChunks policy.planning ++
    writeBoolean policy.requireVerifiedEffectForRestore ++
    writeBoolean policy.allowAcknowledgementRestore ++
    writeBoolean policy.allowRestoreWhenClosureTruncated ++
    writeBoolean policy.fenceOnRestart ++
    writeU64 policy.grantTtlNs ++ writeU64 policy.maxRetainedPlans

theorem encode_eq (policy : Policy) : policy.encode = policy.chunks.flatten := by
  have hsame : policy.encode = written defaultWriterLimit policy.chunks := by
    simp only [encode, chunks, assessmentChunks, planningChunks, List.append_assoc]
  rw [hsame, written_eq_flatten]
  simp [chunks, assessmentChunks, planningChunks, writeU8, writeU32, writeU64, writeBoolean,
    defaultWriterLimit]

theorem reads_fields (policy : Policy) : Reads readFields policy.chunks.flatten policy := by
  have htag : Reads (readRequire (policyFormatTag == policyFormatTag) .versionMismatch
      (text "policy format tag is unsupported")) [] () := reads_pure ()
  simp only [chunks, List.flatten_append, List.append_assoc]
  exact (reads_u8 _).bind (htag.bind ((reads_u32 _).bind ((reads_assessment _).bind
    ((reads_planning _).bind ((reads_boolean _).bind ((reads_boolean _).bind
      ((reads_boolean _).bind ((reads_boolean _).bind ((reads_u64 _).bind
        ((reads_u64 _).bindPure _))))))))))

/-- A valid policy is read back from its encoding. -/
theorem decode_encode (hvalid : policy.validate = .ok ()) : decode policy.encode = .ok policy := by
  rw [decode, encode_eq, decodeWith_end (reads_fields policy)]
  change (policy.validate >>= fun _ => pure policy) = _
  rw [hvalid]
  rfl

end Policy

/-! ## The last installed policy -/

/-- The policy an event installs: the argument of a call that is answered. -/
def World.installs : World → Event → Option Policy
  | .up impl, .call (.installPolicy policy) env =>
      match (callOn impl (installPolicy policy) env).1 with
      | .ok _ => some policy
      | .error _ => none
  | _, _ => none

/-- The last policy that was installed in a run. -/
def lastInstalled : World → List Event → Option Policy
  | _, [] => none
  | world, event :: events => (lastInstalled (world.step event) events).or (world.installs event)

theorem opened_policy {config : CoordinatorConfig} {process : Process} {disk : Disk}
    (hopened : Opened config process env disk (.ok ()) impl) : impl.policy = config.policy := by
  cases hopened with
  | started hlimits hdurable => rfl
  | restored store trimmed opening outcome last hlimits hdurable hopen hannounced =>
    obtain ⟨_, _, rfl⟩ := hannounced.frame
    rfl

/-- A coordinator that was opened over the journal an earlier run has left. -/
def Reopens (events : List Event) (config : CoordinatorConfig) (impl : Impl) : Prop :=
  ∃ disk process env state, run World.step (.down {}) events = .down disk ∧
    openOver disk config process env = (.ok (), state) ∧ state.impl = impl

/-- The policy in force after a restart is the last installed one, or the configured one
where none was installed, exactly when the configuration repeats the last installed
policy. -/
theorem restart_policy_iff {events : List Event} {config : CoordinatorConfig} {impl : Impl}
    (hreopens : Reopens events config impl) :
    impl.policy = (lastInstalled (.down {}) events).getD config.policy ↔
      ∀ policy, lastInstalled (.down {}) events = some policy → config.policy = policy := by
  obtain ⟨disk, process, env, state, -, hopen, rfl⟩ := hreopens
  rw [opened_policy (Opened.of_openOver hopen)]
  cases lastInstalled (.down {}) events with
  | none => simp
  | some installed => simp

namespace Sample

/-- A policy with a shorter lease than the configured one. -/
def shortLease : Policy := { grantTtlNs := 1000 }

/-- The policy is installed and the process leaves. -/
def leased : List Event :=
  [.boot durable process calm, .call (.installPolicy shortLease) calm, .exit]

end Sample

set_option maxRecDepth 4000 in
/-- A configuration that repeats the installed policy keeps it in force. -/
theorem restart_policy_iff_sample :
    lastInstalled (.down {}) Sample.leased = some Sample.shortLease ∧
      ∃ impl, Reopens Sample.leased { Sample.durable with policy := Sample.shortLease } impl ∧
        impl.policy = Sample.shortLease := by
  have hinstalled : lastInstalled (.down {}) Sample.leased = some Sample.shortLease := by
    decide +kernel
  have hrun : (run World.step (.down {}) Sample.leased).rests (fun disk =>
      answers (fun _ _ => true) (openOver disk
        { Sample.durable with policy := Sample.shortLease } Sample.process Sample.calm)) =
      true := by
    decide +kernel
  obtain ⟨disk, hdown, hanswers⟩ := World.down_of_rests hrun
  obtain ⟨_, state, hopen, -⟩ := ok_of_answers hanswers
  have hreopens : Reopens Sample.leased { Sample.durable with policy := Sample.shortLease }
      state.impl := ⟨disk, _, _, state, hdown, hopen, rfl⟩
  have hpolicy := (restart_policy_iff hreopens).mpr (by
    intro policy hlast
    exact Option.some.inj (hinstalled.symm.trans hlast))
  rw [hinstalled] at hpolicy
  exact ⟨hinstalled, state.impl, hreopens, hpolicy⟩

set_option maxRecDepth 4000 in
/-- The journal has the installed policy; the reopened coordinator has the configured
one. -/
theorem restart_policy_forgotten :
    lastInstalled (.down {}) Sample.leased = some Sample.shortLease ∧
      ∃ impl, Reopens Sample.leased Sample.durable impl ∧
        (∃ record ∈ impl.disk.completed, record.header.kind = RecordKind.policyInstalled.raw ∧
          Policy.decode record.payload = .ok Sample.shortLease) ∧
        impl.policy ≠ Sample.shortLease := by
  have hrun : (run World.step (.down {}) Sample.leased).rests (fun disk =>
      answers (fun _ state =>
        (state.impl.disk.completed.any fun record =>
          record.header.kind == RecordKind.policyInstalled.raw &&
            (Policy.decode record.payload).toOption == some Sample.shortLease) &&
        state.impl.policy != Sample.shortLease)
        (openOver disk Sample.durable Sample.process Sample.calm)) = true := by
    decide +kernel
  obtain ⟨disk, hdown, hanswers⟩ := World.down_of_rests hrun
  obtain ⟨_, state, hopen, htest⟩ := ok_of_answers hanswers
  simp only [Bool.and_eq_true, List.any_eq_true, beq_iff_eq, bne_iff_ne] at htest
  obtain ⟨⟨record, hrecord, hkind, hdecoded⟩, hpolicy⟩ := htest
  refine ⟨by decide +kernel, state.impl, ⟨disk, _, _, state, hdown, hopen, rfl⟩,
    ⟨record, hrecord, hkind, ?_⟩, hpolicy⟩
  cases hresult : Policy.decode record.payload with
  | error status =>
      rw [hresult] at hdecoded
      cases hdecoded
  | ok policy =>
      rw [hresult] at hdecoded
      rw [Option.some.inj hdecoded]

end SwitchFailover.Runtime
