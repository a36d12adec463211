import SwitchFailover.Model.Adjudication

/-!
# What a declared failure obliges to

An authoritative failure declaration that is retained, fresh, and newer than every
authoritative recovery of its generation establishes an obligation to fence it, under
every policy.  It is retained if fewer records of the generation than its bucket holds
are as new as it is.
-/

namespace SwitchFailover.Model

open SwitchFailover.Core Library.Maxima

variable {bucket : List EvidenceRecord} {store : EvidenceStore} {now : TimestampNs}
  {record : EvidenceRecord}

/-! ## Retention -/

namespace EvidenceStore

/-- Every bucket is in the order of observation. -/
def Ordered (store : EvidenceStore) : Prop :=
  ∀ subject, (store.forSubject subject).Pairwise fun left right => left.rank ≤ right.rank

theorem insertOrdered_pairwise (hordered : bucket.Pairwise fun left right => left.rank ≤ right.rank)
    (record : EvidenceRecord) :
    (insertOrdered bucket record).Pairwise fun left right => left.rank ≤ right.rank := by
  have htotal : Std.Total fun left right : EvidenceRecord => left.rank ≤ right.rank :=
    ⟨fun left right => le_total left.rank right.rank⟩
  have htrans : IsTrans EvidenceRecord fun left right => left.rank ≤ right.rank :=
    ⟨fun _ _ _ hfirst hsecond => le_trans hfirst hsecond⟩
  exact List.Pairwise.orderedInsert record bucket hordered

theorem forSubject_retain (store : EvidenceStore) (owner subject : SwitchKey)
    (bucket : List EvidenceRecord) :
    (store.retain owner bucket).forSubject subject =
      if owner = subject then bucket.drop (bucket.length - perSubjectRetention)
      else store.forSubject subject := by
  rw [forSubject, retain, Std.TreeMap.getElem?_insert]
  by_cases hsame : owner = subject
  · simp [hsame]
  · simp [hsame, forSubject]

theorem Ordered.admitRecord (hordered : store.Ordered) (now : TimestampNs)
    (record : EvidenceRecord) : (store.admitRecord now record).2.Ordered := by
  intro subject
  rcases store.forSubject_admitRecord now record subject with hsame | ⟨-, -, hbucket⟩
  · rw [hsame]
    exact hordered subject
  · rw [hbucket]
    exact (insertOrdered_pairwise (hordered subject) record).drop

/-- Admission succeeds for a valid record that is not from the far future, has a free
identity, and finds room. -/
theorem admitRecord_eq_ok (hvalid : record.validate = .ok ())
    (hobserved : record.observedAtNs ≤ now) (hfree : store.identities.contains record.id = false)
    (hroom : store.total < store.limits.maxEvidenceRecords) :
    store.admitRecord now record =
      (.ok (), { store with identities := store.identities.insert record.id }.retain
        record.subject (insertOrdered (store.forSubject record.subject) record)) := by
  have hpast : ¬(record.observedAtNs > now ∧ record.observedAtNs - now > futureSanityBoundNs) := by
    rintro ⟨hfuture, -⟩
    exact UInt64.not_lt.mpr hobserved hfuture
  rw [EvidenceStore.admitRecord, hvalid]
  dsimp only
  rw [if_neg hpast, hfree, if_neg Bool.false_ne_true, if_neg (not_le.mpr hroom)]

/-- A record survives its own admission if fewer records of the bucket than it holds
are as new as it is. -/
theorem mem_retained (hordered : bucket.Pairwise fun left right => left.rank ≤ right.rank)
    (hnewer : bucket.countP (fun other => decide (record.observedAtNs ≤ other.observedAtNs)) <
      perSubjectRetention) :
    record ∈ (insertOrdered bucket record).drop
      ((insertOrdered bucket record).length - perSubjectRetention) := by
  have hinserted := insertOrdered_pairwise hordered record
  have hsplit : insertOrdered bucket record =
      bucket.takeWhile (fun other => decide ¬record.rank ≤ other.rank) ++
        record :: bucket.dropWhile (fun other => decide ¬record.rank ≤ other.rank) :=
    List.orderedInsert_eq_take_drop _ record bucket
  generalize bucket.takeWhile (fun other => decide ¬record.rank ≤ other.rank) = older at hsplit
  generalize hlater : bucket.dropWhile (fun other => decide ¬record.rank ≤ other.rank) = newer
    at hsplit
  rw [hsplit] at hinserted ⊢
  have hranks : ∀ other ∈ newer, record.observedAtNs ≤ other.observedAtNs := by
    intro other hother
    have hrank : record.rank ≤ other.rank :=
      List.rel_of_pairwise_cons (List.pairwise_append.mp hinserted).2.1 hother
    have htime : record.observedAtNs.toNat ≤ other.observedAtNs.toNat :=
      (Prod.Lex.monotone_fst _ _ hrank)
    exact UInt64.le_iff_toNat_le.mpr htime
  have hcount : newer.length < perSubjectRetention := by
    calc newer.length
        = newer.countP (fun other => decide (record.observedAtNs ≤ other.observedAtNs)) := by
          rw [List.countP_eq_length.mpr]
          intro other hother
          exact decide_eq_true (hranks other hother)
      _ ≤ bucket.countP (fun other => decide (record.observedAtNs ≤ other.observedAtNs)) := by
          rw [← hlater]
          exact (List.dropWhile_sublist _).countP_le
      _ < perSubjectRetention := hnewer
  have hexcess : (older ++ record :: newer).length - perSubjectRetention ≤ older.length := by
    rw [List.length_append, List.length_cons]
    omega
  rw [List.drop_append_of_le_length hexcess]
  exact List.mem_append_right _ List.mem_cons_self

theorem mem_forSubject_retained {other : EvidenceRecord}
    (hother : other ∈ (insertOrdered (store.forSubject record.subject) record).drop
      ((insertOrdered (store.forSubject record.subject) record).length - perSubjectRetention)) :
    other = record ∨ other ∈ store.forSubject record.subject := by
  have hmem := List.mem_of_mem_drop hother
  rw [insertOrdered, List.mem_orderedInsert] at hmem
  exact hmem

end EvidenceStore

/-! ## Adjudication -/

/-- A fresh authoritative declaration that the generation failed. -/
structure DeclaresFailure (record : EvidenceRecord) (now : TimestampNs) : Prop where
  kind : record.kind = .switchFailureDeclaration
  trust : trustOf record.source = .authoritative
  fresh : record.freshAt now = true

/-- Every authoritative recovery among the records is older than the given time. -/
def RecoveredBefore (records : List EvidenceRecord) (time : TimestampNs) : Prop :=
  ∀ record ∈ records, record.kind = .switchRecoveryDeclaration →
    trustOf record.source = .authoritative → record.observedAtNs < time

/-- A retained, fresh declaration that is newer than every recovery obliges to fence. -/
theorem assessSwitch_of_declared {subject : SwitchKey} (hsubject : subject.valid = true)
    (hrecord : record ∈ store.forSubject subject) (hdeclares : DeclaresFailure record now)
    (hpositive : record.observedAtNs ≠ 0)
    (hrecovered : RecoveredBefore (store.forSubject subject) record.observedAtNs)
    (failures : FailureTable) (policy : AssessmentPolicy) :
    (assessSwitch subject store failures now policy).outcome = .ok ∧
      (assessSwitch subject store failures now policy).fenceRequired = true := by
  have hfailure : record.declares now .failure = true := by
    simp [EvidenceRecord.declares, EvidenceRecord.asserts, hdeclares.kind, hdeclares.trust,
      hdeclares.fresh]
  have hnewer : ∀ other ∈ store.forSubject subject, other.declares now .recovery = true →
      other.observedAtNs < record.observedAtNs := by
    intro other hother hrecovery
    simp only [EvidenceRecord.declares, EvidenceRecord.asserts, Bool.and_eq_true,
      beq_iff_eq] at hrecovery
    exact hrecovered other hother hrecovery.2 hrecovery.1.1
  have hassessed := assessSwitch_of_unrecovered hsubject hrecord hfailure hpositive hnewer
    failures policy
  exact ⟨hassessed.1, hassessed.2.1⟩

end SwitchFailover.Model
