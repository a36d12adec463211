import SwitchFailover.Core.Outcome

/-!
# Bounded resource limits

Every collection the runtime materialises is bounded by one field of `Limits`,
and a limits record is accepted only when each field is positive and below its
hard ceiling.
-/

namespace SwitchFailover.Core

variable {entry : ℕ × ℕ × Bytes}

def hardMaxDocumentBytes : ℕ := 256 * 2 ^ 20
def hardMaxFramePayload : ℕ := 16 * 2 ^ 20
def hardMaxElements : ℕ := 64 * 2 ^ 20
def hardMaxJournalRecords : ℕ := 64 * 2 ^ 20
def hardMaxEventRecords : ℕ := 2 ^ 20
def hardMaxSessions : ℕ := 2 ^ 20
def hardMaxQueueDepth : ℕ := 2 ^ 20
def hardMaxExplanationTerms : ℕ := 4096
def hardMaxRetainedAttempts : ℕ := 4096

structure Limits where
  maxSwitches : ℕ := 200000
  maxLinks : ℕ := 2000000
  maxPaths : ℕ := 2000000
  maxPorts : ℕ := 4000000
  maxFailureDomains : ℕ := 100000
  maxClosureNodes : ℕ := 2000000
  maxClosureEdges : ℕ := 8000000
  maxPlanSteps : ℕ := 1000000
  maxCandidatesEvaluated : ℕ := 200000
  maxUnresolvedDependents : ℕ := 1000000
  maxExplanationTerms : ℕ := 64
  maxRetainedAttempts : ℕ := 64
  maxAuthorityGrants : ℕ := 4000000
  maxFences : ℕ := 1000000
  maxEvidenceRecords : ℕ := 200000
  maxEventRecords : ℕ := 65536
  maxJournalRecords : ℕ := 1000000
  maxSessions : ℕ := 4096
  maxSessionQueue : ℕ := 256
  maxFramePayload : ℕ := 2 ^ 20
  maxDocumentBytes : ℕ := 64 * 2 ^ 20
  freshnessWindowNs : UInt64 := 30 * 1000 * 1000 * 1000
  fenceHorizonNs : UInt64 := 24 * 3600 * 1000 * 1000 * 1000
  deriving DecidableEq

variable {limits : Limits}

namespace Limits

/-- The table of bounded fields, in the order in which they are checked. -/
def bounded (limits : Limits) : List (ℕ × ℕ × Bytes) :=
  [(limits.maxSwitches, hardMaxElements, text "max_switches"),
    (limits.maxLinks, hardMaxElements, text "max_links"),
    (limits.maxPaths, hardMaxElements, text "max_paths"),
    (limits.maxPorts, hardMaxElements, text "max_ports"),
    (limits.maxFailureDomains, hardMaxElements, text "max_failure_domains"),
    (limits.maxClosureNodes, hardMaxElements, text "max_closure_nodes"),
    (limits.maxClosureEdges, hardMaxElements, text "max_closure_edges"),
    (limits.maxPlanSteps, hardMaxElements, text "max_plan_steps"),
    (limits.maxCandidatesEvaluated, hardMaxElements,
      text "max_candidates_evaluated"),
    (limits.maxUnresolvedDependents, hardMaxElements,
      text "max_unresolved_dependents"),
    (limits.maxExplanationTerms, hardMaxExplanationTerms,
      text "max_explanation_terms"),
    (limits.maxRetainedAttempts, hardMaxRetainedAttempts,
      text "max_retained_attempts"),
    (limits.maxAuthorityGrants, hardMaxElements, text "max_authority_grants"),
    (limits.maxFences, hardMaxElements, text "max_fences"),
    (limits.maxEvidenceRecords, hardMaxElements, text "max_evidence_records"),
    (limits.maxEventRecords, hardMaxEventRecords, text "max_event_records"),
    (limits.maxJournalRecords, hardMaxJournalRecords, text "max_journal_records"),
    (limits.maxSessions, hardMaxSessions, text "max_sessions"),
    (limits.maxSessionQueue, hardMaxQueueDepth, text "max_session_queue"),
    (limits.maxFramePayload, hardMaxFramePayload, text "max_frame_payload"),
    (limits.maxDocumentBytes, hardMaxDocumentBytes, text "max_document_bytes")]

def requireBounded (entry : ℕ × ℕ × Bytes) : Result Unit := do
  require (entry.1 != 0) .invalid (text "limit must be positive: " ++ entry.2.2)
  require (entry.1 ≤ entry.2.1) .invalid
    (text "limit exceeds hard ceiling: " ++ entry.2.2)

def validate (limits : Limits) : Result Unit := do
  limits.bounded.forM requireBounded
  require (limits.freshnessWindowNs != 0) .invalid
    (text "freshness_window_ns must be positive")
  require (limits.fenceHorizonNs != 0) .invalid
    (text "fence_horizon_ns must be positive")
  require (limits.maxFramePayload ≤ limits.maxDocumentBytes) .invalid
    (text "max_document_bytes must be at least max_frame_payload")

theorem requireBounded_eq_ok (hok : requireBounded entry = .ok ()) :
    0 < entry.1 ∧ entry.1 ≤ entry.2.1 := by
  unfold requireBounded at hok
  by_cases hpositive : entry.1 = 0
  · simp [hpositive, require, refuse] at hok
    cases hok
  · by_cases hceiling : entry.1 ≤ entry.2.1
    · exact ⟨Nat.pos_of_ne_zero hpositive, hceiling⟩
    · simp [hpositive, hceiling, require, refuse] at hok
      cases hok

theorem bounded_of_validate (hvalid : limits.validate = .ok ()) (hentry : entry ∈ limits.bounded) :
    0 < entry.1 ∧ entry.1 ≤ entry.2.1 := by
  rw [validate, result_bind_eq_ok] at hvalid
  obtain ⟨_, hbounded, -⟩ := hvalid
  exact requireBounded_eq_ok (forM_eq_ok.mp hbounded entry hentry)

theorem maxAuthorityGrants_le (hvalid : limits.validate = .ok ()) :
    limits.maxAuthorityGrants ≤ hardMaxElements :=
  (bounded_of_validate hvalid (List.mem_of_getElem? (i := 12) rfl)).2

theorem maxCandidatesEvaluated_le (hvalid : limits.validate = .ok ()) :
    limits.maxCandidatesEvaluated ≤ hardMaxElements :=
  (bounded_of_validate hvalid (List.mem_of_getElem? (i := 8) rfl)).2

end Limits

end SwitchFailover.Core
