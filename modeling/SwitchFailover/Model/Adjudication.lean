import SwitchFailover.Library.Maxima
import SwitchFailover.Model.Advisory

/-!
# Fail-closed adjudication

The pass over the records of a generation keeps, for every sort of assertion, the time
of the latest fresh authoritative record that makes it.  The cascade compares these
times: it affirms a generation only on fresh authority that postdates every failure,
and it obliges to fence a generation whose failure nothing postdates.
-/

namespace SwitchFailover.Model

open SwitchFailover.Core Library.Transitions Library.Maxima

variable {records : List EvidenceRecord} {durable : Option FailureRecord} {failure : FailureRecord}

variable {record : EvidenceRecord} {tally : Tally}

/-! ## What a record asserts -/

/-- The sorts of lifecycle assertions of which the pass keeps the latest time. -/
inductive Assertion
  | failure | recovery | good | unavailable | enabled
  deriving DecidableEq

variable {assertion : Assertion}

namespace EvidenceRecord

def asserts (record : EvidenceRecord) : Assertion → Bool
  | .failure => record.kind == .switchFailureDeclaration ||
      (record.kind == .switchHealth && isFailureHealth record.health)
  | .recovery => record.kind == .switchRecoveryDeclaration
  | .good => record.kind == .switchHealth && isPositiveHealth record.health
  | .unavailable => record.kind == .adminStateDeclaration && isAdminUnavailable record.admin
  | .enabled => record.kind == .adminStateDeclaration && record.admin == .enabled

/-- A fresh authoritative record makes the assertion. -/
def declares (record : EvidenceRecord) (now : TimestampNs) (assertion : Assertion) : Bool :=
  trustOf record.source == .authoritative && record.freshAt now && record.asserts assertion

theorem observedAt_le_of_fresh {now : TimestampNs} (hfresh : record.freshAt now = true) :
    ¬record.observedAtNs > now := by
  intro hfuture
  rw [freshAt, if_pos hfuture] at hfresh
  cases hfresh

theorem observedAt_ne_zero (hvalid : record.validate = .ok ()) : record.observedAtNs ≠ 0 := by
  simp only [validate, result_bind_eq_ok, require_eq_ok, exists_const] at hvalid
  simpa using hvalid.2.2.2.2.2.1

end EvidenceRecord

/-! ## The latest times -/

def Tally.latest (tally : Tally) : Assertion → TimestampNs
  | .failure => tally.failure.time
  | .recovery => tally.recovery.time
  | .good => tally.authoritativeGood.time
  | .unavailable => tally.adminUnavailableTime
  | .enabled => tally.adminEnabledTime

/-- Times are compared as numbers from here on. -/
theorem advance_time (latest : Latest) (record : EvidenceRecord) :
    (latest.advance record).time.toNat = max latest.time.toNat record.observedAtNs.toNat := by
  rw [Latest.advance]
  split
  · rename_i hnewer
    have hless : latest.time.toNat < record.observedAtNs.toNat := UInt64.lt_iff_toNat_lt.mp hnewer
    exact (max_eq_right (le_of_lt hless)).symm
  · rename_i holder
    have hless : ¬latest.time.toNat < record.observedAtNs.toNat :=
      fun hless => holder (UInt64.lt_iff_toNat_lt.mpr hless)
    exact (max_eq_left (not_lt.mp hless)).symm

/-- A time that is replaced unless the record is older. -/
theorem renewed_time (time : TimestampNs) (record : EvidenceRecord) :
    (if record.observedAtNs ≥ time then record.observedAtNs else time).toNat =
      max time.toNat record.observedAtNs.toNat := by
  split
  · rename_i hnewer
    exact (max_eq_right (UInt64.le_iff_toNat_le.mp hnewer)).symm
  · rename_i holder
    have hless : ¬time.toNat ≤ record.observedAtNs.toNat :=
      fun hle => holder (UInt64.le_iff_toNat_le.mpr hle)
    exact (max_eq_left (le_of_lt (not_le.mp hless))).symm

theorem renew_time (latest : Latest) (record : EvidenceRecord) :
    (latest.renew record).time.toNat = max latest.time.toNat record.observedAtNs.toNat := by
  rw [← renewed_time, Latest.renew]
  split <;> rfl

section Observing

variable (now : TimestampNs) (policy : AssessmentPolicy)

theorem latest_observeHealth (hkind : record.kind = .switchHealth) (tally : Tally)
    (assertion : Assertion) :
    ((tally.observeHealth true record).latest assertion).toNat =
      if record.asserts assertion then
        max (tally.latest assertion).toNat record.observedAtNs.toNat
      else (tally.latest assertion).toNat := by
  cases assertion <;> cases hhealth : record.health <;>
    simp [Tally.observeHealth, Tally.observeGood, Tally.observeBad, Tally.latest,
      EvidenceRecord.asserts, hkind, hhealth, isPositiveHealth, isFailureHealth, advance_time,
      renew_time]

theorem latest_observeAdmin (hkind : record.kind = .adminStateDeclaration) (tally : Tally)
    (assertion : Assertion) :
    ((tally.observeAdmin true record).latest assertion).toNat =
      if record.asserts assertion then
        max (tally.latest assertion).toNat record.observedAtNs.toNat
      else (tally.latest assertion).toNat := by
  cases assertion <;> cases hadmin : record.admin <;>
    simp [Tally.observeAdmin, apply_ite Tally.adminUnavailableTime,
      apply_ite Tally.adminEnabledTime, apply_ite Tally.failure, apply_ite Tally.recovery,
      apply_ite Tally.authoritativeGood, Tally.latest, EvidenceRecord.asserts, hkind, hadmin,
      isAdminUnavailable, -ge_iff_le, renewed_time]

/-- A fresh authoritative record raises the times of what it asserts. -/
theorem latest_observeFresh (htrust : trustOf record.source = .authoritative) (tally : Tally)
    (assertion : Assertion) :
    ((tally.observeFresh record).latest assertion).toNat =
      if record.asserts assertion then
        max (tally.latest assertion).toNat record.observedAtNs.toNat
      else (tally.latest assertion).toNat := by
  rw [Tally.observeFresh, htrust]
  cases hkind : record.kind with
  | switchHealth => exact latest_observeHealth hkind tally assertion
  | adminStateDeclaration => exact latest_observeAdmin hkind tally assertion
  | _ =>
    cases assertion <;>
      simp [EvidenceRecord.asserts, hkind, Tally.latest, Tally.observeBad, advance_time]

theorem latest_eq_of_times {left right : Tally} (htimes : left.times = right.times)
    (assertion : Assertion) : left.latest assertion = right.latest assertion := by
  cases assertion with
  | failure => exact congrArg AuthoritativeTimes.failure htimes
  | recovery => exact congrArg AuthoritativeTimes.recovery htimes
  | good => exact congrArg AuthoritativeTimes.good htimes
  | unavailable => exact congrArg AuthoritativeTimes.adminUnavailable htimes
  | enabled => exact congrArg AuthoritativeTimes.adminEnabled htimes

theorem observe_eq_observeFresh (htrust : trustOf record.source = .authoritative)
    (hfresh : record.freshAt now = true) (tally : Tally) :
    tally.observe now policy record = tally.observeFresh record := by
  have htrusted : ¬trustOf record.source = .untrusted := by
    rw [htrust]
    decide
  have hpast : ¬(record.observedAtNs > now ∧
      record.observedAtNs - now > policy.futureSkewToleranceNs) :=
    fun hfuture => EvidenceRecord.observedAt_le_of_fresh hfresh hfuture.1
  rw [Tally.observe, if_neg htrusted, if_neg hpast, hfresh, if_neg (by decide)]

theorem observe_times_of_stale (hstale : record.freshAt now = false) (tally : Tally) :
    (tally.observe now policy record).times = tally.times := by
  rw [Tally.observe, hstale]
  split_ifs with huntrusted hfuture hnever
  · rfl
  · rfl
  · rfl
  · exact absurd rfl hnever

/-- The pass keeps the latest time of every sort of assertion. -/
theorem observe_runningMax (assertion : Assertion) :
    RunningMax (Tally.observe now policy) (fun tally => (tally.latest assertion).toNat)
      (fun record => record.declares now assertion) fun record => record.observedAtNs.toNat := by
  intro tally record
  change ((tally.observe now policy record).latest assertion).toNat =
    if record.declares now assertion then
      max (tally.latest assertion).toNat record.observedAtNs.toNat
    else (tally.latest assertion).toNat
  by_cases htrust : trustOf record.source = .authoritative
  swap
  · have hsilent : record.declares now assertion = false := by
      simp [EvidenceRecord.declares, htrust]
    rw [latest_eq_of_times (observe_times_of_advisory now policy tally htrust), hsilent]
    rfl
  cases hfresh : record.freshAt now with
  | false =>
    have hsilent : record.declares now assertion = false := by
      simp [EvidenceRecord.declares, hfresh]
    rw [latest_eq_of_times (observe_times_of_stale now policy hfresh tally), hsilent]
    rfl
  | true =>
    have hheard : record.declares now assertion = record.asserts assertion := by
      simp [EvidenceRecord.declares, hfresh, htrust]
    rw [observe_eq_observeFresh now policy htrust hfresh, hheard]
    exact latest_observeFresh htrust tally assertion

/-- The latest times after the pass over a bucket. -/
def latestOf (records : List EvidenceRecord) (assertion : Assertion) : TimestampNs :=
  (records.foldl (Tally.observe now policy) {}).latest assertion

theorem observedAt_le_latestOf (hrecord : record ∈ records)
    (hdeclares : record.declares now assertion = true) :
    record.observedAtNs.toNat ≤ (latestOf now policy records assertion).toNat :=
  (observe_runningMax now policy assertion).value_le hrecord hdeclares {}

/-- A time that is not zero was declared. -/
theorem exists_declares (hsome : 0 < (latestOf now policy records assertion).toNat) :
    ∃ record ∈ records, record.declares now assertion = true ∧
      record.observedAtNs.toNat = (latestOf now policy records assertion).toNat := by
  rcases (observe_runningMax now policy assertion).attained records {} with hnever | hfound
  · have hzero : (latestOf now policy records assertion).toNat = 0 := by
      rw [latestOf, hnever]
      cases assertion <;> rfl
    rw [hzero] at hsome
    exact absurd hsome (lt_irrefl 0)
  · exact hfound

end Observing

/-! ## The cascade -/

/-- The latest failure is newer than the latest recovery: the cascade ends in an
obligation, whatever the lineage and the policy. -/
theorem conclude_of_failure (hnewer : tally.recovery.time.toNat < tally.failure.time.toNat)
    (policy : AssessmentPolicy) (subject : SwitchKey) (durable : Option FailureRecord) :
    let assessment := tally.conclude policy (tally.collected subject durable)
    assessment.outcome = .ok ∧ assessment.fenceRequired = true ∧ assessment.usable = false := by
  have hfailure : tally.failure.time ≠ 0 := by
    intro hzero
    rw [hzero] at hnewer
    exact absurd hnewer (Nat.not_lt_zero _)
  dsimp only
  rw [Tally.conclude]
  split
  · exact ⟨rfl, rfl, rfl⟩
  split
  · rename_i hconflict
    rw [hconflict.2.2] at hnewer
    exact absurd hnewer (lt_irrefl _)
  split
  · rename_i hrecovery
    exact absurd (UInt64.lt_iff_toNat_lt.mp hrecovery.2) (Nat.lt_asymm hnewer)
  exact ⟨rfl, rfl, rfl⟩

theorem conclude_of_durable {policy : AssessmentPolicy} (subject : SwitchKey)
    (hactive : tally.durableActive policy durable = true) :
    let assessment := tally.conclude policy (tally.collected subject durable)
    assessment.fenceRequired = true ∧ assessment.usable = false := by
  dsimp only
  rw [Tally.conclude, if_pos (show tally.durableActive policy
    (tally.collected subject durable).durableFailure = true from hactive)]
  exact ⟨rfl, rfl⟩

/-- What an affirmation rests on: the lineage is lifted, and the latest recovery is
newer than the latest failure, or no failure is known and the health is good. -/
structure Affirmed (tally : Tally) (policy : AssessmentPolicy) (durable : Option FailureRecord) :
    Prop where
  lifted : tally.durableActive policy durable = false
  cause : tally.failure.time.toNat < tally.recovery.time.toNat ∨
    tally.failure.time.toNat = 0 ∧ 0 < tally.authoritativeGood.time.toNat

theorem toNat_pos_of_ne_zero {time : TimestampNs} (hsome : time ≠ 0) : 0 < time.toNat :=
  Nat.pos_of_ne_zero fun hzero => hsome (UInt64.toNat_inj.mp hzero)

theorem concludeUnknown_usable (tally : Tally) (policy : AssessmentPolicy) (subject : SwitchKey)
    (durable : Option FailureRecord) :
    (tally.concludeUnknown policy (tally.collected subject durable)).usable = false := by
  rw [Tally.concludeUnknown]
  dsimp only
  split_ifs <;> rfl

theorem affirmed_of_usable {policy : AssessmentPolicy} {subject : SwitchKey}
    (husable : (tally.conclude policy (tally.collected subject durable)).usable = true) :
    (tally.conclude policy (tally.collected subject durable)).fenceRequired = false ∧
      Affirmed tally policy durable := by
  have hunknown := concludeUnknown_usable tally policy subject durable
  revert husable
  rw [Tally.conclude]
  split
  · exact fun husable => absurd husable Bool.false_ne_true
  rename_i hdurable
  have hlifted : tally.durableActive policy durable = false := Bool.eq_false_of_not_eq_true hdurable
  split
  · exact fun husable => absurd husable Bool.false_ne_true
  split
  · rename_i hrecovery
    exact fun _ => ⟨rfl, hlifted, Or.inl (UInt64.lt_iff_toNat_lt.mp hrecovery.2)⟩
  split
  · exact fun husable => absurd husable Bool.false_ne_true
  rename_i hfailure
  have hnever : tally.failure.time.toNat = 0 := by
    rw [not_not.mp hfailure]
    rfl
  split
  · exact fun husable => absurd husable Bool.false_ne_true
  split
  · exact fun husable => absurd husable Bool.false_ne_true
  split
  · rename_i hgood
    exact fun _ => ⟨rfl, hlifted, Or.inr ⟨hnever, toNat_pos_of_ne_zero hgood⟩⟩
  split
  · exact fun husable => absurd husable Bool.false_ne_true
  split
  · exact fun husable => absurd husable Bool.false_ne_true
  split
  · exact fun husable => absurd husable Bool.false_ne_true
  exact fun husable => absurd (husable.symm.trans hunknown) Bool.noConfusion

theorem lt_max_toNat {bound left right : TimestampNs} :
    max left right > bound ↔
      bound.toNat < left.toNat ∨ bound.toNat < right.toNat := by
  have hmax : (max left right).toNat = max left.toNat right.toNat := by
    change (if left ≤ right then right else left).toNat = _
    split
    · rename_i hle
      exact (max_eq_right (UInt64.le_iff_toNat_le.mp hle)).symm
    · rename_i hnot
      have hless : ¬left.toNat ≤ right.toNat := fun hle => hnot (UInt64.le_iff_toNat_le.mpr hle)
      exact (max_eq_left (le_of_lt (not_le.mp hless))).symm
  rw [gt_iff_lt, UInt64.lt_iff_toNat_lt, hmax, lt_max_iff]

/-- Lineage is lifted by a later recovery or enabling, if the policy allows it. -/
theorem durableActive_eq_false {policy : AssessmentPolicy} :
    tally.durableActive policy (some failure) = false ↔
      policy.allowSameGenerationRecovery = true ∧
        (failure.observedAtNs.toNat < tally.recovery.time.toNat ∨
          failure.observedAtNs.toNat < tally.adminEnabledTime.toNat) := by
  rw [Tally.durableActive, Bool.not_eq_false', Bool.and_eq_true, decide_eq_true_eq, lt_max_toNat]

/-! ## The records of a store -/

namespace EvidenceStore

def Holds (store : EvidenceStore) (record : EvidenceRecord) : Prop :=
  ∃ subject, record ∈ store.forSubject subject

/-- Every record held is valid and in the bucket of its subject. -/
def Filed (store : EvidenceStore) : Prop :=
  ∀ subject, ∀ record ∈ store.forSubject subject,
    record.subject = subject ∧ record.validate = .ok ()

theorem Filed.admitNext {store : EvidenceStore} (hfiled : store.Filed) (admission : Admission) :
    (store.admitNext admission).Filed := by
  obtain ⟨now, record⟩ := admission
  intro subject other hother
  rcases store.forSubject_admitRecord now record subject with hsame | ⟨hvalid, hsubject, hbucket⟩
  · rw [EvidenceStore.admitNext, hsame] at hother
    exact hfiled subject other hother
  · rw [EvidenceStore.admitNext, hbucket] at hother
    have hmem := List.mem_of_mem_drop hother
    rw [insertOrdered, List.mem_orderedInsert] at hmem
    rcases hmem with rfl | hmem
    · exact ⟨hsubject, hvalid⟩
    · exact hfiled subject other hmem

/-- What admissions have built from an empty store is filed. -/
theorem filed_run (limits : Limits) (admissions : List Admission) :
    (run admitNext ({ limits := limits } : EvidenceStore) admissions).Filed := by
  have hempty : ({ limits := limits } : EvidenceStore).Filed := by
    intro subject record hrecord
    simp [forSubject] at hrecord
  have hmeets : Meets admitNext (fun _ _ => True) ({ limits := limits } : EvidenceStore)
      admissions := meets_of_forall (fun _ _ => trivial) _
  have hstep : ∀ (store : EvidenceStore) (admission : Admission), True → store.Filed →
      (admitNext store admission).Filed :=
    fun store admission _ hfiled => hfiled.admitNext admission
  exact invariant_of_meets hstep hmeets hempty

theorem Filed.mem_forSubject {store : EvidenceStore} (hfiled : store.Filed)
    (hholds : store.Holds record) : record ∈ store.forSubject record.subject := by
  obtain ⟨subject, hrecord⟩ := hholds
  rw [(hfiled subject record hrecord).1]
  exact hrecord

theorem Filed.positive {store : EvidenceStore} (hfiled : store.Filed) {subject : SwitchKey}
    (hrecord : record ∈ store.forSubject subject) : 0 < record.observedAtNs.toNat :=
  toNat_pos_of_ne_zero (EvidenceRecord.observedAt_ne_zero (hfiled subject record hrecord).2)

end EvidenceStore

/-- A fresh authoritative record about the subject, held by the store, that makes one of
the assertions. -/
structure Testimony (store : EvidenceStore) (subject : SwitchKey) (now : TimestampNs)
    (assertion : Assertion) (record : EvidenceRecord) : Prop where
  held : store.Holds record
  about : record.subject = subject
  declares : record.declares now assertion = true

/-- A failure in the lineage is superseded by a later authoritative recovery or enabling
of the same generation, where the policy allows it. -/
def Superseded (store : EvidenceStore) (subject : SwitchKey) (now : TimestampNs)
    (policy : AssessmentPolicy) (failure : FailureRecord) : Prop :=
  policy.allowSameGenerationRecovery = true ∧
    ∃ record, (Testimony store subject now .recovery record ∨
        Testimony store subject now .enabled record) ∧
      failure.observedAtNs < record.observedAtNs

section Adjudicating

variable {store : EvidenceStore} {subject : SwitchKey} {now : TimestampNs}
  {policy : AssessmentPolicy}

theorem Testimony.le_latestOf (hfiled : store.Filed)
    (htestimony : Testimony store subject now assertion record) :
    record.observedAtNs.toNat ≤
      (latestOf now policy (store.forSubject subject) assertion).toNat := by
  have hrecord := hfiled.mem_forSubject htestimony.held
  rw [htestimony.about] at hrecord
  exact observedAt_le_latestOf now policy hrecord htestimony.declares

/-- A time after the given one was testified. -/
theorem exists_testimony (hfiled : store.Filed) (subject : SwitchKey) (now : TimestampNs)
    (policy : AssessmentPolicy) (assertion : Assertion) {bound : ℕ}
    (hlater : bound < (latestOf now policy (store.forSubject subject) assertion).toNat) :
    ∃ record, Testimony store subject now assertion record ∧ bound < record.observedAtNs.toNat := by
  obtain ⟨record, hrecord, hdeclares, htime⟩ :=
    exists_declares now policy (lt_of_le_of_lt (Nat.zero_le bound) hlater)
  refine ⟨record, ⟨⟨subject, hrecord⟩, (hfiled subject record hrecord).1, hdeclares⟩, ?_⟩
  rw [htime]
  exact hlater

theorem superseded_iff (hfiled : store.Filed) :
    Superseded store subject now policy failure ↔
      ((store.forSubject subject).foldl (Tally.observe now policy) {}).durableActive policy
        (some failure) = false := by
  rw [durableActive_eq_false, Superseded]
  refine and_congr_right fun _ => ⟨?_, ?_⟩
  · rintro ⟨record, hrecovery | henabled, hlater⟩
    · left
      exact lt_of_lt_of_le (UInt64.lt_iff_toNat_lt.mp hlater) (hrecovery.le_latestOf hfiled)
    · right
      exact lt_of_lt_of_le (UInt64.lt_iff_toNat_lt.mp hlater) (henabled.le_latestOf hfiled)
  · rintro (hrecovery | henabled)
    · obtain ⟨record, htestimony, hlater⟩ :=
        exists_testimony hfiled subject now policy .recovery hrecovery
      exact ⟨record, Or.inl htestimony, UInt64.lt_iff_toNat_lt.mpr hlater⟩
    · obtain ⟨record, htestimony, hlater⟩ :=
        exists_testimony hfiled subject now policy .enabled henabled
      exact ⟨record, Or.inr htestimony, UInt64.lt_iff_toNat_lt.mpr hlater⟩

end Adjudicating

/-- The assessment of a valid generation is the conclusion of the pass over its bucket. -/
theorem assessSwitch_of_valid {subject : SwitchKey} (hsubject : subject.valid = true)
    (store : EvidenceStore) (failures : FailureTable) (now : TimestampNs)
    (policy : AssessmentPolicy) :
    assessSwitch subject store failures now policy =
      ((store.forSubject subject).foldl (Tally.observe now policy) {}).conclude policy
        (((store.forSubject subject).foldl (Tally.observe now policy) {}).collected subject
          (failures.find subject)) := by
  rw [assessSwitch, hsubject]
  rfl

/-- A failure that no fresh recovery postdates obliges to fence. -/
theorem assessSwitch_of_unrecovered {subject : SwitchKey} (hsubject : subject.valid = true)
    {store : EvidenceStore} (hrecord : record ∈ store.forSubject subject) {now : TimestampNs}
    (hfailure : record.declares now .failure = true) (hpositive : record.observedAtNs ≠ 0)
    (hnewer : ∀ other ∈ store.forSubject subject, other.declares now .recovery = true →
      other.observedAtNs < record.observedAtNs) (failures : FailureTable)
    (policy : AssessmentPolicy) :
    let assessment := assessSwitch subject store failures now policy
    assessment.outcome = .ok ∧ assessment.fenceRequired = true ∧ assessment.usable = false := by
  dsimp only
  rw [assessSwitch, hsubject]
  apply conclude_of_failure
  have hrecovery : (latestOf now policy (store.forSubject subject) .recovery).toNat <
      record.observedAtNs.toNat :=
    (observe_runningMax now policy .recovery).foldl_lt (toNat_pos_of_ne_zero hpositive)
      fun other hother hdeclares => UInt64.lt_iff_toNat_lt.mp (hnewer other hother hdeclares)
  exact lt_of_lt_of_le hrecovery (observedAt_le_latestOf now policy hrecord hfailure)

/-- Fail-closed adjudication.  A generation is affirmed only on fresh authority about
exactly it, with every known failure older than a recovery; a failure that is not
superseded always obliges to fence. -/
theorem assessSwitch_failClosed (limits : Limits) (admissions : List Admission)
    {subject : SwitchKey} (hsubject : subject.valid = true) (failures : FailureTable)
    (now : TimestampNs) (policy : AssessmentPolicy) :
    let store := run EvidenceStore.admitNext ({ limits := limits } : EvidenceStore) admissions
    let assessment := assessSwitch subject store failures now policy
    (assessment.usable = true →
      assessment.fenceRequired = false ∧
      (∃ record, Testimony store subject now .recovery record ∨
        Testimony store subject now .good record) ∧
      (∀ failure, Testimony store subject now .failure failure →
        ∃ recovery, Testimony store subject now .recovery recovery ∧
          failure.observedAtNs < recovery.observedAtNs) ∧
      (∀ failure, failures.find subject = some failure →
        Superseded store subject now policy failure)) ∧
    (∀ failure, failures.find subject = some failure →
      ¬Superseded store subject now policy failure →
      assessment.fenceRequired = true ∧ assessment.usable = false) ∧
    (∀ failure, Testimony store subject now .failure failure →
      (∀ recovery, Testimony store subject now .recovery recovery →
        recovery.observedAtNs < failure.observedAtNs) →
      assessment.fenceRequired = true ∧ assessment.usable = false) := by
  intro store assessment
  have hfiled : store.Filed := EvidenceStore.filed_run limits admissions
  have hassessment : assessment =
      ((store.forSubject subject).foldl (Tally.observe now policy) {}).conclude policy
        (((store.forSubject subject).foldl (Tally.observe now policy) {}).collected subject
          (failures.find subject)) := assessSwitch_of_valid hsubject store failures now policy
  refine ⟨?_, ?_, ?_⟩
  · intro husable
    rw [hassessment] at husable ⊢
    obtain ⟨hfence, haffirmed⟩ := affirmed_of_usable husable
    refine ⟨hfence, ?_, ?_, ?_⟩
    · rcases haffirmed.cause with hrecovery | ⟨-, hgood⟩
      · obtain ⟨record, htestimony, -⟩ :=
          exists_testimony hfiled subject now policy .recovery hrecovery
        exact ⟨record, Or.inl htestimony⟩
      · obtain ⟨record, htestimony, -⟩ :=
          exists_testimony hfiled subject now policy .good hgood
        exact ⟨record, Or.inr htestimony⟩
    · intro failure hfailure
      have hle : failure.observedAtNs.toNat ≤
          (latestOf now policy (store.forSubject subject) .failure).toNat :=
        hfailure.le_latestOf hfiled
      rcases haffirmed.cause with hrecovery | ⟨hnever, -⟩
      · obtain ⟨recovery, htestimony, hlater⟩ :=
          exists_testimony hfiled subject now policy .recovery (lt_of_le_of_lt hle hrecovery)
        exact ⟨recovery, htestimony, UInt64.lt_iff_toNat_lt.mpr hlater⟩
      · -- no failure is known at all
        have hpositive := hfiled.positive (hfiled.mem_forSubject hfailure.held)
        exact absurd (lt_of_lt_of_le hpositive hle) (not_lt.mpr (le_of_eq hnever))
    · intro failure hdurable
      rw [superseded_iff hfiled, ← hdurable]
      exact haffirmed.lifted
  · intro failure hdurable hstands
    rw [hassessment, hdurable]
    apply conclude_of_durable
    rw [superseded_iff hfiled] at hstands
    exact Bool.eq_true_of_not_eq_false hstands
  · intro failure hfailure hnewer
    have hrecord := hfiled.mem_forSubject hfailure.held
    rw [hfailure.about] at hrecord
    have hpositive := EvidenceRecord.observedAt_ne_zero (hfiled subject failure hrecord).2
    have hunrecovered : ∀ other ∈ store.forSubject subject,
        other.declares now .recovery = true → other.observedAtNs < failure.observedAtNs := by
      intro other hother hdeclares
      exact hnewer other ⟨⟨subject, hother⟩, (hfiled subject other hother).1, hdeclares⟩
    exact (assessSwitch_of_unrecovered hsubject hrecord hfailure.declares hpositive hunrecovered
      failures policy).2

namespace Sample

/-- A later authoritative declaration that the generation recovered. -/
def recovered : EvidenceRecord where
  id := ⟨2⟩
  kind := .switchRecoveryDeclaration
  source := .operatorPolicy
  subject := subject
  observedAtNs := 200
  validForNs := 1000

end Sample

/-- A recovery after the declared failure makes the generation usable again, and a fresh
authoritative record about it can be named. -/
theorem assessSwitch_failClosed_sample :
    ∃ record, Testimony (run EvidenceStore.admitNext ({ limits := {} } : EvidenceStore)
        [(1000, Sample.declared), (1000, Sample.recovered)]) Sample.subject 1000 .recovery record ∨
      Testimony (run EvidenceStore.admitNext ({ limits := {} } : EvidenceStore)
        [(1000, Sample.declared), (1000, Sample.recovered)]) Sample.subject 1000 .good record :=
  ((assessSwitch_failClosed {} [(1000, Sample.declared), (1000, Sample.recovered)]
    (show Sample.subject.valid = true by decide) {} 1000 {}).1 (by decide +kernel)).2.1

end SwitchFailover.Model
