import SwitchFailover.Model.Buckets

/-!
# Administrative unavailability

The newest fresh authoritative administrative declaration may withdraw a generation from
service.  The cascade looks at it after the recovery declarations: a generation whose
recovery postdates every failure is usable although it is withdrawn, and no other
withdrawn generation is.
-/

namespace SwitchFailover.Model

open SwitchFailover.Core Library.Transitions

namespace EvidenceStore

theorem Filed.perform {store : EvidenceStore} (hfiled : store.Filed) (call : StoreCall) :
    (store.perform call).Filed := by
  cases call with
  | admitRecord now record => exact hfiled.admitNext (now, record)
  | clear =>
    intro subject record hrecord
    simp [EvidenceStore.perform, clear, forSubject] at hrecord

/-- What calls have built from an empty store is filed. -/
theorem filed_calls (limits : Limits) (calls : List StoreCall) :
    (run perform ({ limits := limits } : EvidenceStore) calls).Filed := by
  have hempty : ({ limits := limits } : EvidenceStore).Filed := by
    intro subject record hrecord
    simp [forSubject] at hrecord
  have hmeets : Meets perform (fun _ _ => True) ({ limits := limits } : EvidenceStore) calls :=
    meets_of_forall (fun _ _ => trivial) _
  have hstep : ∀ (store : EvidenceStore) (call : StoreCall), True → store.Filed →
      (perform store call).Filed := fun store call _ hfiled => hfiled.perform call
  exact invariant_of_meets hstep hmeets hempty

end EvidenceStore

/-- The newest fresh authoritative administrative declaration about the subject makes it
unavailable; among declarations of one instant that one counts. -/
def Withdrawn (store : EvidenceStore) (subject : SwitchKey) (now : TimestampNs) : Prop :=
  ∃ record, Testimony store subject now .unavailable record ∧
    ∀ enabled, Testimony store subject now .enabled enabled →
      enabled.observedAtNs ≤ record.observedAtNs

/-- Failure lineage is lifted, and a fresh authoritative recovery is newer than every
fresh authoritative failure. -/
def Recovered (store : EvidenceStore) (subject : SwitchKey) (failures : FailureTable)
    (now : TimestampNs) (policy : AssessmentPolicy) : Prop :=
  (∀ failure, failures.find subject = some failure →
    Superseded store subject now policy failure) ∧
  ∃ recovery, Testimony store subject now .recovery recovery ∧
    ∀ failure, Testimony store subject now .failure failure →
      failure.observedAtNs < recovery.observedAtNs

/-- Where the unavailability is as new as the enabling, only a recovery affirms. -/
theorem conclude_usable_of_unavailable {tally : Tally}
    (hnewer : tally.adminEnabledTime.toNat ≤ tally.adminUnavailableTime.toNat)
    (hsome : 0 < tally.adminUnavailableTime.toNat) (policy : AssessmentPolicy)
    (subject : SwitchKey) (durable : Option FailureRecord) :
    (tally.conclude policy (tally.collected subject durable)).usable = true ↔
      tally.durableActive policy durable = false ∧
        tally.failure.time.toNat < tally.recovery.time.toNat := by
  constructor
  · intro husable
    have haffirmed := (affirmed_of_usable husable).2
    refine ⟨haffirmed.lifted, ?_⟩
    rcases haffirmed.cause with hrecovery | ⟨hnever, -⟩
    · exact hrecovery
    -- without a recovery the cascade stops at the administrative branch at the latest
    by_contra hnone
    have hzero : tally.recovery.time.toNat = 0 := by omega
    have hunavailable : tally.adminUnavailableTime ≥ tally.adminEnabledTime ∧
        tally.adminUnavailableTime ≠ 0 := by
      refine ⟨UInt64.le_iff_toNat_le.mpr hnewer, fun h => ?_⟩
      rw [h] at hsome
      exact absurd hsome (lt_irrefl 0)
    revert husable
    rw [Tally.conclude]
    split
    · exact Bool.false_ne_true
    split
    · exact Bool.false_ne_true
    split
    · rename_i hrecovery
      exact absurd (UInt64.lt_iff_toNat_lt.mp hrecovery.2) (by omega)
    split
    · exact Bool.false_ne_true
    split
    · exact Bool.false_ne_true
    · exact Bool.false_ne_true
  · rintro ⟨hlifted, hrecovery⟩
    have hnone : tally.recovery.time ≠ 0 := by
      intro hzero
      rw [hzero] at hrecovery
      exact absurd hrecovery (Nat.not_lt_zero _)
    have hapart : ¬(tally.failure.time ≠ 0 ∧ tally.recovery.time ≠ 0 ∧
        tally.failure.time = tally.recovery.time) := by
      rintro ⟨-, -, hsame⟩
      rw [hsame] at hrecovery
      exact absurd hrecovery (lt_irrefl _)
    have hactive : ¬tally.durableActive policy (tally.collected subject durable).durableFailure =
        true := by
      rw [show tally.durableActive policy (tally.collected subject durable).durableFailure = false
        from hlifted]
      exact Bool.false_ne_true
    rw [Tally.conclude, if_neg hactive, if_neg hapart,
      if_pos ⟨hnone, UInt64.lt_iff_toNat_lt.mpr hrecovery⟩]

/-- A generation is withdrawn when a record in its bucket says so and no later one enables
it. -/
theorem Withdrawn.of_bucket {store : EvidenceStore} (hfiled : store.Filed) {subject : SwitchKey}
    {now : TimestampNs} {record : EvidenceRecord} (hrecord : record ∈ store.forSubject subject)
    (hunavailable : record.declares now .unavailable = true)
    (holder : (store.forSubject subject).all (fun other => !other.declares now .enabled ||
      decide (other.observedAtNs ≤ record.observedAtNs)) = true) :
    Withdrawn store subject now := by
  refine ⟨record, ⟨⟨subject, hrecord⟩, (hfiled subject record hrecord).1, hunavailable⟩, ?_⟩
  intro enabled henabled
  have hmem := hfiled.mem_forSubject henabled.held
  rw [henabled.about] at hmem
  have hbefore := List.all_eq_true.mp holder enabled hmem
  rw [henabled.declares] at hbefore
  exact of_decide_eq_true hbefore

section Withdrawal

variable {store : EvidenceStore} {subject : SwitchKey} {now : TimestampNs}
  {policy : AssessmentPolicy}

/-- A withdrawn generation in terms of the latest times. -/
theorem Withdrawn.latest (hwithdrawn : Withdrawn store subject now) (hfiled : store.Filed)
    (policy : AssessmentPolicy) :
    (latestOf now policy (store.forSubject subject) .enabled).toNat ≤
        (latestOf now policy (store.forSubject subject) .unavailable).toNat ∧
      0 < (latestOf now policy (store.forSubject subject) .unavailable).toNat := by
  obtain ⟨record, htestimony, hnewest⟩ := hwithdrawn
  have hle : record.observedAtNs.toNat ≤
      (latestOf now policy (store.forSubject subject) .unavailable).toNat :=
    htestimony.le_latestOf hfiled
  have hpositive := hfiled.positive (hfiled.mem_forSubject htestimony.held)
  refine ⟨?_, lt_of_lt_of_le hpositive hle⟩
  by_contra hlater
  obtain ⟨enabled, henabled, hnewer⟩ :=
    exists_testimony hfiled subject now policy .enabled (not_le.mp hlater)
  have htie := UInt64.le_iff_toNat_le.mp (hnewest enabled henabled)
  omega

theorem recovered_iff (hfiled : store.Filed) (failures : FailureTable) :
    Recovered store subject failures now policy ↔
      ((store.forSubject subject).foldl (Tally.observe now policy) {}).durableActive policy
          (failures.find subject) = false ∧
        (latestOf now policy (store.forSubject subject) .failure).toNat <
          (latestOf now policy (store.forSubject subject) .recovery).toNat := by
  refine and_congr ?_ ⟨?_, fun hnewer => ?_⟩
  · cases failures.find subject with
    | none => exact iff_of_true (by intro _; nofun) rfl
    | some failure =>
      rw [← superseded_iff hfiled]
      exact ⟨fun hall => hall failure rfl, fun hsuperseded other hother =>
        Option.some.inj hother ▸ hsuperseded⟩
  · rintro ⟨recovery, htestimony, hnewer⟩
    have hle : recovery.observedAtNs.toNat ≤
        (latestOf now policy (store.forSubject subject) .recovery).toNat :=
      htestimony.le_latestOf hfiled
    by_contra hnot
    have hpositive := hfiled.positive (hfiled.mem_forSubject htestimony.held)
    obtain ⟨failure, hfailure, htime⟩ := exists_testimony hfiled subject now policy .failure
      (lt_of_lt_of_le (Nat.sub_lt hpositive Nat.one_pos) (hle.trans (not_lt.mp hnot)))
    have holder := UInt64.lt_iff_toNat_lt.mp (hnewer failure hfailure)
    omega
  · obtain ⟨recovery, htestimony, htime⟩ :=
      exists_testimony hfiled subject now policy .recovery hnewer
    refine ⟨recovery, htestimony, fun failure hfailure => ?_⟩
    exact UInt64.lt_iff_toNat_lt.mpr (lt_of_le_of_lt (hfailure.le_latestOf hfiled) htime)

end Withdrawal

/-- A withdrawn generation is kept out of use exactly if it has not recovered: the
recovery declaration may be older than the withdrawal and still wins. -/
theorem withdrawn_unusable_iff (limits : Limits) (calls : List StoreCall) {subject : SwitchKey}
    (hsubject : subject.valid = true) (failures : FailureTable) (now : TimestampNs)
    (policy : AssessmentPolicy) :
    let store := run EvidenceStore.perform ({ limits := limits } : EvidenceStore) calls
    Withdrawn store subject now →
      ((assessSwitch subject store failures now policy).usable = false ↔
        ¬Recovered store subject failures now policy) := by
  intro store hwithdrawn
  have hfiled : store.Filed := EvidenceStore.filed_calls limits calls
  obtain ⟨hnewer, hsome⟩ := hwithdrawn.latest hfiled policy
  have husable := conclude_usable_of_unavailable hnewer hsome policy subject (failures.find subject)
  rw [← assessSwitch_of_valid hsubject store failures now policy] at husable
  rw [recovered_iff hfiled, ← Bool.not_eq_true, not_iff_not]
  exact husable

namespace Sample

/-- Later still, an operator takes the generation out of service. -/
def disabled : EvidenceRecord where
  id := ⟨3⟩
  kind := .adminStateDeclaration
  source := .operatorPolicy
  subject := subject
  observedAtNs := 300
  validForNs := 1000
  admin := .disabled

/-- The generation is declared recovered, then disabled. -/
def withdrawing : List StoreCall := [.admitRecord 1000 recovered, .admitRecord 1000 disabled]

/-- It is in service and fails, recovers, fails again and is then disabled. -/
def relapsing : List StoreCall :=
  [.admitRecord 1000 { disabled with id := ⟨4⟩, observedAtNs := 50, admin := .enabled },
    .admitRecord 1000 declared, .admitRecord 1000 recovered,
    .admitRecord 1000 { declared with id := ⟨5⟩, observedAtNs := 250 }, .admitRecord 1000 disabled]

end Sample

/-- A generation that failed after it recovered is not usable once it is withdrawn. -/
theorem withdrawn_unusable_sample :
    let store := run EvidenceStore.perform ({ limits := {} } : EvidenceStore) Sample.relapsing
    (store.forSubject Sample.subject).length = 5 ∧ Withdrawn store Sample.subject 1000 ∧
      (assessSwitch Sample.subject store {} 1000 {}).usable = false ∧
      ¬Recovered store Sample.subject {} 1000 {} := by
  intro store
  have hbucket : Sample.disabled ∈ store.forSubject Sample.subject := by decide +kernel
  have hwithdrawn : Withdrawn store Sample.subject 1000 :=
    .of_bucket (EvidenceStore.filed_calls {} Sample.relapsing) hbucket (by decide +kernel)
      (by decide +kernel)
  have hunusable : (assessSwitch Sample.subject store {} 1000 {}).usable = false := by
    decide +kernel
  exact ⟨by decide +kernel, hwithdrawn, hunusable,
    (withdrawn_unusable_iff {} _ (by decide) {} 1000 {} hwithdrawn).mp hunusable⟩

/-- A recovery from before the withdrawal makes the generation usable. -/
theorem withdrawn_usable :
    let store := run EvidenceStore.perform ({ limits := {} } : EvidenceStore) Sample.withdrawing
    Sample.subject.valid = true ∧ Withdrawn store Sample.subject 1000 ∧
      Sample.recovered.observedAtNs < Sample.disabled.observedAtNs ∧
      (assessSwitch Sample.subject store {} 1000 {}).usable = true := by
  have hbucket : Sample.disabled ∈ (run EvidenceStore.perform ({ limits := {} } : EvidenceStore)
      Sample.withdrawing).forSubject Sample.subject := by decide +kernel
  refine ⟨by decide, ?_, by decide, by decide +kernel⟩
  exact Withdrawn.of_bucket (EvidenceStore.filed_calls {} Sample.withdrawing) hbucket
    (by decide +kernel) (by decide +kernel)

end SwitchFailover.Model
