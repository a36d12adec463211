import SwitchFailover.Runtime.PolicyRestart

/-!
# What the journal can give back

A restart drops every record whose payload does not decode, so what is written to the
journal must be read back as it was.  The conditions are those the decoders check; the
bounds on lists and texts keep every payload within the limit of the writer.
-/

namespace SwitchFailover.Runtime

open SwitchFailover.Core Codec Model Plan Persist

/-- Every payload that the journal holds is decoded to the value it was encoded from. -/
theorem journal_payloads_round_trip :
    (∀ record : FailureRecord, record.subject.valid = true → record.observedAtNs ≠ 0 →
      record.reason.length ≤ maxMessageBytes →
      decodeFailureRecord (encodeFailureRecord record) = .ok record) ∧
    (∀ record : FenceRecord, record.subject.valid = true →
      record.reason.length ≤ maxMessageBytes →
      decodeFenceRecord (encodeFenceRecord record) = .ok record) ∧
    (∀ grant : AuthorityGrant, grant.id.valid = true → grant.dependent.valid = true →
      grant.bound.size ≤ listElementLimit → grant.detail.length ≤ maxMessageBytes →
      decodeGrantRecord (encodeGrantRecord grant) = .ok grant) ∧
    (∀ record : WithdrawRecord, record.grant.valid = true →
      record.cause ≤ RevocationCause.shutdown.ctorIdx.toUInt8 →
      record.detail.length ≤ maxMessageBytes →
      decodeWithdrawRecord (encodeWithdrawRecord record) = .ok record) ∧
    (∀ receipt : ApplyReceipt, Counted receipt → receipt.steps.length ≤ listElementLimit →
      (∀ step ∈ receipt.steps, Legible step) →
      (decodeStoredReceipt (encodeApplyReceipt receipt)).map StoredReceipt.receipt =
        .ok (some receipt)) ∧
    ∀ policy : Policy, policy.validate = .ok () → Policy.decode policy.encode = .ok policy := by
  refine ⟨fun record hsubject hobserved hreason =>
      decode_encodeFailureRecord hsubject hobserved hreason,
    fun record hsubject hreason => decode_encodeFenceRecord hsubject hreason,
    fun grant hid hdependent hbound hdetail =>
      decode_encodeGrantRecord hid hdependent hbound hdetail,
    fun record hgrant hcause hdetail => decode_encodeWithdrawRecord hgrant hcause hdetail,
    fun receipt hcounted hcount hsteps => ?_, fun policy hvalid => Policy.decode_encode hvalid⟩
  rw [decode_encodeApplyReceipt hcounted hcount hsteps, Except.map, receipt_storedReceipt hcounted]

namespace Sample

def storedGrant : AuthorityGrant :=
  { id := ⟨7⟩, dependent := .link ⟨3⟩, bound := .canonicalise [⟨⟨1⟩, ⟨1⟩⟩, ⟨⟨2⟩, ⟨4⟩⟩]
    detail := text "restored" }

def storedSteps : ApplyReceipt :=
  { plan := ⟨5⟩, steps := [{ dependent := .link ⟨3⟩, state := .verified, detail := text "ok" }]
    applied := 1, verified := 1, complete := true, outcome := .ok }

end Sample

theorem journal_payloads_round_trip_sample :
    decodeGrantRecord (encodeGrantRecord Sample.storedGrant) = .ok Sample.storedGrant ∧
      (decodeStoredReceipt (encodeApplyReceipt Sample.storedSteps)).map StoredReceipt.receipt =
        .ok (some Sample.storedSteps) := by
  obtain ⟨-, -, hgrants, -, hreceipts, -⟩ := journal_payloads_round_trip
  have hstep : ∀ step ∈ Sample.storedSteps.steps, Legible step := by
    intro step hmem
    cases List.mem_singleton.mp hmem
    exact ⟨by decide, by decide +kernel⟩
  exact ⟨hgrants Sample.storedGrant rfl rfl (by decide +kernel) (by decide +kernel),
    hreceipts Sample.storedSteps ⟨by decide, by decide, by decide, by decide, by decide⟩
      (by decide) hstep⟩

end SwitchFailover.Runtime
