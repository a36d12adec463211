import SwitchFailover.Plan.Validator

/-!
# Runtime policy

The defaults refuse: every switch that could turn an unproven state into
authority is off.
-/

namespace SwitchFailover.Runtime

open SwitchFailover.Core Codec Model Plan

structure Policy where
  formatVersion : UInt32 := 1
  assessment : AssessmentPolicy := {}
  planning : PlanningPolicy := {}
  requireVerifiedEffectForRestore : Bool := true
  allowAcknowledgementRestore : Bool := false
  allowRestoreWhenClosureTruncated : Bool := false
  fenceOnRestart : Bool := false
  grantTtlNs : UInt64 := 30 * nanosPerSecond
  maxRetainedPlans : UInt64 := 256
  deriving DecidableEq

namespace Policy

def validate (policy : Policy) : Result Unit := do
  require (policy.formatVersion == 1) .versionMismatch
    (text "policy format version is not supported")
  require (policy.grantTtlNs != 0) .invalid (text "grant_ttl_ns must be positive")
  require (policy.maxRetainedPlans != 0 &&
      decide (policy.maxRetainedPlans.toNat ≤ hardMaxElements)) .invalid
    (text "max_retained_plans is outside the supported range")
  require (policy.planning.maxCandidatesPerDependent != 0 &&
      decide (policy.planning.maxCandidatesPerDependent.toNat ≤ hardMaxElements)) .invalid
    (text "max_candidates_per_dependent is outside the supported range")
  require (!(policy.allowAcknowledgementRestore && policy.requireVerifiedEffectForRestore))
    .invalid (text "acknowledgement-only restore contradicts the verified-effect requirement")

def policyFormatTag : UInt8 := 1

def encode (policy : Policy) : Bytes :=
  written defaultWriterLimit (writeU8 policyFormatTag ++ writeU32 policy.formatVersion ++
    writeBoolean policy.assessment.fenceOnAuthoritativeConflict ++
    writeBoolean policy.assessment.fenceOnMissingHealth ++
    writeBoolean policy.assessment.allowSameGenerationRecovery ++
    writeBoolean policy.assessment.requireAuthoritativeFailureEvidence ++
    writeU64 policy.assessment.futureSkewToleranceNs ++
    writeBoolean policy.planning.allowReplacementInSameFailureDomain ++
    writeBoolean policy.planning.requireCapabilitySuperset ++
    writeBoolean policy.planning.requireAuthoritativeCandidateEvidence ++
    writeBoolean policy.planning.allowWithholdOnUnresolved ++
    writeBoolean policy.planning.allowRestoreWhenClosureTruncated ++
    writeU32 policy.planning.maxCandidatesPerDependent ++
    writeBoolean policy.requireVerifiedEffectForRestore ++
    writeBoolean policy.allowAcknowledgementRestore ++
    writeBoolean policy.allowRestoreWhenClosureTruncated ++
    writeBoolean policy.fenceOnRestart ++
    writeU64 policy.grantTtlNs ++ writeU64 policy.maxRetainedPlans)

def readAssessment : ByteReader AssessmentPolicy := do
  let fenceOnAuthoritativeConflict ← readBoolean
  let fenceOnMissingHealth ← readBoolean
  let allowSameGenerationRecovery ← readBoolean
  let requireAuthoritativeFailureEvidence ← readBoolean
  let futureSkewToleranceNs ← readU64
  pure { fenceOnAuthoritativeConflict, fenceOnMissingHealth, allowSameGenerationRecovery
         requireAuthoritativeFailureEvidence, futureSkewToleranceNs }

def readPlanning : ByteReader PlanningPolicy := do
  let allowReplacementInSameFailureDomain ← readBoolean
  let requireCapabilitySuperset ← readBoolean
  let requireAuthoritativeCandidateEvidence ← readBoolean
  let allowWithholdOnUnresolved ← readBoolean
  let allowRestoreWhenClosureTruncated ← readBoolean
  let maxCandidatesPerDependent ← readU32
  pure { allowReplacementInSameFailureDomain, requireCapabilitySuperset
         requireAuthoritativeCandidateEvidence, allowWithholdOnUnresolved
         allowRestoreWhenClosureTruncated, maxCandidatesPerDependent }

def readFields : ByteReader Policy := do
  let tag ← readU8
  readRequire (tag == policyFormatTag) .versionMismatch (text "policy format tag is unsupported")
  let formatVersion ← readU32
  let assessment ← readAssessment
  let planning ← readPlanning
  let requireVerifiedEffectForRestore ← readBoolean
  let allowAcknowledgementRestore ← readBoolean
  let allowRestoreWhenClosureTruncated ← readBoolean
  let fenceOnRestart ← readBoolean
  let grantTtlNs ← readU64
  let maxRetainedPlans ← readU64
  pure { formatVersion, assessment, planning, requireVerifiedEffectForRestore
         allowAcknowledgementRestore, allowRestoreWhenClosureTruncated, fenceOnRestart
         grantTtlNs, maxRetainedPlans }

/-- A decoded policy is a valid one. -/
def decode (bytes : Bytes) : Result Policy := do
  let policy ← decodeWith (do
    let policy ← readFields
    requireEnd
    pure policy) bytes
  policy.validate
  pure policy

end Policy

end SwitchFailover.Runtime
