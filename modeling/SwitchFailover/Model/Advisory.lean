import SwitchFailover.Library.Transitions
import SwitchFailover.Model.Evidence

/-!
# Observation is not authority

Under the default policy the verdict about a generation is a function of its durable
lineage and of the times of its fresh authoritative observations.  Advisory records
do not enter it.  They can only take part by pushing authoritative records out of the
bounded bucket of the subject.
-/

namespace SwitchFailover.Model

open SwitchFailover.Core Library.Transitions

/-! ## What the verdict depends on -/

/-- The latest authoritative observation of each sort. -/
structure AuthoritativeTimes where
  failure : TimestampNs
  recovery : TimestampNs
  adminUnavailable : TimestampNs
  adminEnabled : TimestampNs
  good : TimestampNs
  deriving DecidableEq

def Tally.times (tally : Tally) : AuthoritativeTimes where
  failure := tally.failure.time
  recovery := tally.recovery.time
  adminUnavailable := tally.adminUnavailableTime
  adminEnabled := tally.adminEnabledTime
  good := tally.authoritativeGood.time

/-- Committed failure lineage that no later authoritative recovery lifts. -/
def AuthoritativeTimes.durableActive (times : AuthoritativeTimes)
    (durable : Option FailureRecord) : Bool :=
  match durable with
  | none => false
  | some failure => !decide (max times.recovery times.adminEnabled > failure.observedAtNs)

/-- Usability and the fence obligation, decided on authoritative times alone. -/
def AuthoritativeTimes.verdict (times : AuthoritativeTimes) (durable : Option FailureRecord) :
    Bool × Bool :=
  if times.durableActive durable then (false, true)
  else if times.failure ≠ 0 ∧ times.recovery ≠ 0 ∧ times.failure = times.recovery then
    (false, true)
  else if times.recovery ≠ 0 ∧ times.recovery > times.failure then (true, false)
  else if times.failure ≠ 0 then (false, true)
  else if times.adminUnavailable ≥ times.adminEnabled ∧ times.adminUnavailable ≠ 0 then
    (false, false)
  else if times.good ≠ 0 then (true, false)
  else (false, false)

def SwitchAssessment.verdict (assessment : SwitchAssessment) : Bool × Bool :=
  (assessment.usable, assessment.fenceRequired)

theorem concludeUnknown_verdict (tally : Tally) (subject : SwitchKey)
    (durable : Option FailureRecord) :
    (tally.concludeUnknown {} (tally.collected subject durable)).verdict = (false, false) := by
  unfold Tally.concludeUnknown
  dsimp only
  split_ifs <;> rfl

/-- The cascade of the default policy decides on authoritative times alone. -/
theorem conclude_verdict (tally : Tally) (subject : SwitchKey) (durable : Option FailureRecord) :
    (tally.conclude {} (tally.collected subject durable)).verdict =
      tally.times.verdict durable := by
  have hactive : tally.durableActive {} (tally.collected subject durable).durableFailure =
      tally.times.durableActive durable := by
    cases durable with
    | none => rfl
    | some failure => rfl
  have hadvisory : ¬ (tally.advisoryBad.time ≠ 0 ∧
      (!({} : AssessmentPolicy).requireAuthoritativeFailureEvidence) = true) := by
    rintro ⟨-, hpolicy⟩
    cases hpolicy
  have hunknown := concludeUnknown_verdict tally subject durable
  unfold Tally.conclude AuthoritativeTimes.verdict
  rw [hactive, if_neg hadvisory]
  -- both sides test the same conditions in the same order
  by_cases hdurable : tally.times.durableActive durable = true
  · rw [if_pos hdurable, if_pos hdurable]
    rfl
  rw [if_neg hdurable, if_neg hdurable]
  by_cases hconflict : tally.times.failure ≠ 0 ∧ tally.times.recovery ≠ 0 ∧
      tally.times.failure = tally.times.recovery
  · rw [if_pos hconflict, if_pos (show tally.failure.time ≠ 0 ∧ tally.recovery.time ≠ 0 ∧
      tally.failure.time = tally.recovery.time from hconflict)]
    rfl
  rw [if_neg hconflict, if_neg (show ¬ (tally.failure.time ≠ 0 ∧ tally.recovery.time ≠ 0 ∧
      tally.failure.time = tally.recovery.time) from hconflict)]
  by_cases hrecovery : tally.times.recovery ≠ 0 ∧ tally.times.recovery > tally.times.failure
  · rw [if_pos hrecovery, if_pos (show tally.recovery.time ≠ 0 ∧
      tally.recovery.time > tally.failure.time from hrecovery)]
    rfl
  rw [if_neg hrecovery, if_neg (show ¬ (tally.recovery.time ≠ 0 ∧
      tally.recovery.time > tally.failure.time) from hrecovery)]
  by_cases hfailure : tally.times.failure ≠ 0
  · rw [if_pos hfailure, if_pos (show tally.failure.time ≠ 0 from hfailure)]
    rfl
  rw [if_neg hfailure, if_neg (show ¬ (tally.failure.time ≠ 0) from hfailure)]
  by_cases hadmin : tally.times.adminUnavailable ≥ tally.times.adminEnabled ∧
      tally.times.adminUnavailable ≠ 0
  · rw [if_pos hadmin, if_pos (show tally.adminUnavailableTime ≥ tally.adminEnabledTime ∧
      tally.adminUnavailableTime ≠ 0 from hadmin)]
    rfl
  rw [if_neg hadmin, if_neg (show ¬ (tally.adminUnavailableTime ≥ tally.adminEnabledTime ∧
      tally.adminUnavailableTime ≠ 0) from hadmin)]
  by_cases hgood : tally.times.good ≠ 0
  · rw [if_pos hgood, if_pos (show tally.authoritativeGood.time ≠ 0 from hgood)]
    rfl
  rw [if_neg hgood, if_neg (show ¬ (tally.authoritativeGood.time ≠ 0) from hgood)]
  split_ifs
  · rfl
  · rfl
  · rfl
  · exact hunknown

/-! ## Advisory records do not move the authoritative times -/

theorem observe_times_of_advisory {record : EvidenceRecord} (now : TimestampNs)
    (policy : AssessmentPolicy) (tally : Tally) (htrust : trustOf record.source ≠ .authoritative) :
    (tally.observe now policy record).times = tally.times := by
  have hflag : (trustOf record.source == .authoritative) = false := by simpa using htrust
  rw [Tally.observe]
  split_ifs
  · rfl
  · rfl
  · rfl
  · rw [Tally.observeFresh, hflag]
    cases record.kind with
    | switchHealth =>
      simp only [Tally.observeHealth, Tally.observeGood, Tally.observeBad, Bool.false_eq_true,
        if_false]
      split_ifs <;> rfl
    | _ => rfl

/-- The times after an observation depend only on the times before it. -/
theorem observe_times_congr {left right : Tally} (now : TimestampNs) (policy : AssessmentPolicy)
    (record : EvidenceRecord) (htimes : left.times = right.times) :
    (left.observe now policy record).times = (right.observe now policy record).times := by
  simp only [Tally.times, AuthoritativeTimes.mk.injEq] at htimes ⊢
  obtain ⟨hfailure, hrecovery, hunavailable, henabled, hgood⟩ := htimes
  simp only [Tally.observe]
  split_ifs
  · exact ⟨hfailure, hrecovery, hunavailable, henabled, hgood⟩
  · exact ⟨hfailure, hrecovery, hunavailable, henabled, hgood⟩
  · exact ⟨hfailure, hrecovery, hunavailable, henabled, hgood⟩
  · simp only [Tally.observeFresh]
    cases record.kind with
    | switchHealth =>
      simp only [Tally.observeHealth, Tally.observeGood, Tally.observeBad, Latest.advance,
        Latest.renew, hfailure, hgood]
      split_ifs <;> simp_all
    | switchFailureDeclaration =>
      simp only [Tally.observeBad, Latest.advance, hfailure]
      split_ifs <;> simp_all
    | switchRecoveryDeclaration =>
      simp only [Latest.advance, hrecovery]
      split_ifs <;> simp_all
    | adminStateDeclaration =>
      simp only [Tally.observeAdmin, hunavailable, henabled]
      split_ifs <;> simp_all
    | _ => exact ⟨hfailure, hrecovery, hunavailable, henabled, hgood⟩

/-- The records that can enter the verdict. -/
def authoritativeRecords (records : List EvidenceRecord) : List EvidenceRecord :=
  records.filter fun record => decide (trustOf record.source = .authoritative)

theorem foldl_observe_times (now : TimestampNs) (policy : AssessmentPolicy)
    (records : List EvidenceRecord) {left right : Tally} (htimes : left.times = right.times) :
    (records.foldl (Tally.observe now policy) left).times =
      ((authoritativeRecords records).foldl (Tally.observe now policy) right).times := by
  induction records generalizing left right with
  | nil => exact htimes
  | cons record records ih =>
    by_cases htrust : trustOf record.source = .authoritative
    · rw [authoritativeRecords, List.filter_cons_of_pos (by simpa using htrust),
        List.foldl_cons, List.foldl_cons]
      exact ih (observe_times_congr now policy record htimes)
    · rw [authoritativeRecords, List.filter_cons_of_neg (by simpa using htrust),
        List.foldl_cons]
      exact ih ((observe_times_of_advisory now policy left htrust).trans htimes)

/-- Two stores with the same authoritative records of a generation give the same
verdict on it. -/
theorem assessSwitch_verdict_congr {subject : SwitchKey} {left right : EvidenceStore}
    (failures : FailureTable) (now : TimestampNs)
    (hrecords : authoritativeRecords (left.forSubject subject) =
      authoritativeRecords (right.forSubject subject)) :
    (assessSwitch subject left failures now {}).verdict =
      (assessSwitch subject right failures now {}).verdict := by
  unfold assessSwitch
  split_ifs
  · rfl
  · dsimp only
    rw [conclude_verdict, conclude_verdict, foldl_observe_times now {} _ rfl, hrecords,
      ← foldl_observe_times now {} _ rfl]

/-! ## Admission -/

/-- The records that leave the bucket when a record is entered. -/
def EvidenceStore.pushedOut (store : EvidenceStore) (record : EvidenceRecord) :
    List EvidenceRecord :=
  let bucket := EvidenceStore.insertOrdered (store.forSubject record.subject) record
  bucket.take (bucket.length - perSubjectRetention)

/-- One admission: the reading of the clock, and the record. -/
abbrev Admission := TimestampNs × EvidenceRecord

def EvidenceStore.admitNext (store : EvidenceStore) (admission : Admission) : EvidenceStore :=
  (store.admitRecord admission.1 admission.2).2

/-- The admission pushes no authoritative record of the subject out of its bucket. -/
def EvidenceStore.Spares (subject : SwitchKey) (store : EvidenceStore) (admission : Admission) :
    Prop :=
  admission.2.subject = subject →
    ∀ record ∈ store.pushedOut admission.2, trustOf record.source ≠ .authoritative

theorem authoritativeRecords_insertOrdered {record : EvidenceRecord}
    (htrust : trustOf record.source ≠ .authoritative) (bucket : List EvidenceRecord) :
    authoritativeRecords (EvidenceStore.insertOrdered bucket record) =
      authoritativeRecords bucket := by
  rw [EvidenceStore.insertOrdered, List.orderedInsert_eq_take_drop, authoritativeRecords,
    List.filter_append, List.filter_cons_of_neg (by simpa using htrust), ← List.filter_append,
    List.takeWhile_append_dropWhile]
  rfl

theorem authoritativeRecords_drop {records : List EvidenceRecord} {count : ℕ}
    (hspared : ∀ record ∈ records.take count, trustOf record.source ≠ .authoritative) :
    authoritativeRecords (records.drop count) = authoritativeRecords records := by
  have hnone : authoritativeRecords (records.take count) = [] := by
    rw [authoritativeRecords, List.filter_eq_nil_iff]
    intro record hrecord
    simpa using hspared record hrecord
  calc authoritativeRecords (records.drop count)
      = authoritativeRecords (records.take count) ++ authoritativeRecords (records.drop count) := by
        rw [hnone, List.nil_append]
    _ = authoritativeRecords records := by
        rw [authoritativeRecords, authoritativeRecords, ← List.filter_append,
          List.take_append_drop]
        rfl

/-- The bucket of a generation after a call of admission: it is as it was, or a valid
record of the generation has been entered and the oldest ones dropped. -/
theorem EvidenceStore.forSubject_admitRecord (store : EvidenceStore) (now : TimestampNs)
    (record : EvidenceRecord) (subject : SwitchKey) :
    (store.admitRecord now record).2.forSubject subject = store.forSubject subject ∨
      (record.validate = .ok () ∧ record.subject = subject ∧
        (store.admitRecord now record).2.forSubject subject =
          (insertOrdered (store.forSubject subject) record).drop
            ((insertOrdered (store.forSubject subject) record).length - perSubjectRetention)) := by
  rw [EvidenceStore.admitRecord]
  cases record.validate with
  | error status => exact Or.inl rfl
  | ok _ =>
    dsimp only
    split_ifs
    · exact Or.inl rfl
    · exact Or.inl rfl
    · -- the bound on all records is reached; the bucket is created but stays empty
      left
      dsimp only [EvidenceStore.forSubject, EvidenceStore.reject]
      rw [Std.TreeMap.getElem?_insertIfNew]
      split_ifs with hnew
      · obtain ⟨hsubject, hmissing⟩ := hnew
        have hsame : record.subject = subject := Std.LawfulEqCmp.eq_of_compare hsubject
        rw [hsame] at hmissing
        rw [Std.TreeMap.getElem?_eq_none hmissing]
        rfl
      · rfl
    · dsimp only [EvidenceStore.forSubject, EvidenceStore.retain]
      by_cases hsubject : record.subject = subject
      · subst hsubject
        rw [Std.TreeMap.getElem?_insert_self, Option.getD_some]
        exact Or.inr ⟨rfl, rfl, rfl⟩
      · rw [Std.TreeMap.getElem?_insert, if_neg]
        · exact Or.inl rfl
        · intro hcompare
          exact hsubject (Std.LawfulEqCmp.eq_of_compare hcompare)

/-- An advisory admission that spares the subject leaves its authoritative records. -/
theorem authoritativeRecords_admitNext {subject : SwitchKey} {store : EvidenceStore}
    {admission : Admission} (htrust : trustOf admission.2.source ≠ .authoritative)
    (hspares : store.Spares subject admission) :
    authoritativeRecords ((store.admitNext admission).forSubject subject) =
      authoritativeRecords (store.forSubject subject) := by
  obtain ⟨now, record⟩ := admission
  rcases store.forSubject_admitRecord now record subject with hsame | ⟨-, hsubject, hbucket⟩
  · exact congrArg authoritativeRecords hsame
  · subst hsubject
    have hspared : ∀ other ∈ store.pushedOut record,
        trustOf other.source ≠ .authoritative := hspares rfl
    rw [EvidenceStore.admitNext, hbucket]
    exact (authoritativeRecords_drop hspared).trans (authoritativeRecords_insertOrdered htrust _)

/-- Advisory evidence is never authority.  However many advisory records are admitted,
as long as they push no authoritative record of the generation out of its bucket, they
never make it usable and never lift a fence obligation. -/
theorem advisory_never_authority {subject : SwitchKey} {store : EvidenceStore}
    (failures : FailureTable) (now : TimestampNs) {admissions : List Admission}
    (hadvisory : ∀ admission ∈ admissions, trustOf admission.2.source = .advisory)
    (hspares : Meets EvidenceStore.admitNext (EvidenceStore.Spares subject) store admissions) :
    ((assessSwitch subject store failures now {}).usable = false →
      (assessSwitch subject (run EvidenceStore.admitNext store admissions) failures now
        {}).usable = false) ∧
    ((assessSwitch subject store failures now {}).fenceRequired = true →
      (assessSwitch subject (run EvidenceStore.admitNext store admissions) failures now
        {}).fenceRequired = true) := by
  have hkept : authoritativeRecords ((run EvidenceStore.admitNext store admissions).forSubject
      subject) = authoritativeRecords (store.forSubject subject) := by
    induction admissions generalizing store with
    | nil => rfl
    | cons admission admissions ih =>
        rw [run_cons, ih (fun other hother => hadvisory other (List.mem_cons_of_mem _ hother))
          hspares.2]
        apply authoritativeRecords_admitNext _ hspares.1
        rw [hadvisory admission List.mem_cons_self]
        decide
  have hverdict := assessSwitch_verdict_congr failures now hkept
  simp only [SwitchAssessment.verdict, Prod.mk.injEq] at hverdict
  rw [hverdict.1, hverdict.2]
  exact ⟨id, id⟩

namespace Sample

def subject : SwitchKey := ⟨⟨1⟩, ⟨1⟩⟩

/-- An authoritative declaration that the generation failed. -/
def declared : EvidenceRecord where
  id := ⟨1⟩
  kind := .switchFailureDeclaration
  source := .fabricManager
  subject := subject
  observedAtNs := 100
  validForNs := 1000

/-- A later advisory reading. -/
def reading (index : ℕ) : Admission :=
  (1000, { id := ⟨index.toUInt64 + 2⟩, kind := .switchHealth, source := .telemetryCollector,
           subject := subject, observedAtNs := index.toUInt64 + 101, validForNs := 1000,
           health := .healthy })

def store : EvidenceStore := ({ limits := {} } : EvidenceStore).admitNext (1000, declared)

end Sample

/-- With thirty-one readings the bucket is full, and the declared failure is in force. -/
theorem advisory_never_authority_sample :
    let readings := (List.range 31).map Sample.reading
    ((run EvidenceStore.admitNext Sample.store readings).forSubject Sample.subject).length = 32 ∧
      (assessSwitch Sample.subject (run EvidenceStore.admitNext Sample.store readings) {} 1000
        {}).fenceRequired = true := by
  intro readings
  have hspares : ∀ (store : EvidenceStore) (admission : Admission),
      (store.pushedOut admission.2).isEmpty = true → store.Spares Sample.subject admission := by
    intro store admission hnone _ record hrecord
    rw [List.isEmpty_iff.mp hnone] at hrecord
    cases hrecord
  have hchecks : checks EvidenceStore.admitNext
      (fun store admission => (store.pushedOut admission.2).isEmpty) Sample.store readings = true := by
    decide +kernel
  refine ⟨by decide +kernel, ?_⟩
  refine (advisory_never_authority {} 1000 ?_ (meets_of_checks hspares hchecks)).2
    (by decide +kernel)
  decide +kernel

/-- Thirty-two later readings fill the bucket of the generation: the declared failure is
pushed out, and the fence obligation is gone. -/
theorem advisory_flood_lifts_fence :
    (∀ admission ∈ (List.range 32).map Sample.reading,
      trustOf admission.2.source = .advisory) ∧
    (assessSwitch Sample.subject Sample.store {} 1000 {}).fenceRequired = true ∧
    (assessSwitch Sample.subject (run EvidenceStore.admitNext Sample.store
      ((List.range 32).map Sample.reading)) {} 1000 {}).fenceRequired = false := by
  refine ⟨?_, ?_, ?_⟩
  · intro admission hadmission
    obtain ⟨index, -, rfl⟩ := List.mem_map.mp hadmission
    rfl
  · decide +kernel
  · decide +kernel

end SwitchFailover.Model
