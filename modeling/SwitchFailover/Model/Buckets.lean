import SwitchFailover.Library.Emissions
import SwitchFailover.Library.Maps
import SwitchFailover.Library.Retention
import SwitchFailover.Model.Obligation

/-!
# What the evidence store keeps

After every sequence of admissions and clearings the identities of the store are those of
the records it holds, each record is held once, and the bucket of a subject holds the
newest of the records that were admitted for it since the last clearing.  A refused
admission leaves the records alone; one that is refused because the store is full may
still leave an empty bucket behind.
-/

namespace SwitchFailover.Model

open SwitchFailover.Core Library.Transitions Library.Maps Library.Retention

variable {record : EvidenceRecord} {store : EvidenceStore}

/-! ## Calls -/

inductive StoreCall
  | admitRecord (now : TimestampNs) (record : EvidenceRecord)
  | clear

namespace EvidenceStore

/-- The counters of refusals and evictions survive. -/
def clear (store : EvidenceStore) : EvidenceStore :=
  { store with bySubject := ∅, identities := ∅, total := 0 }

def records (store : EvidenceStore) : List EvidenceRecord :=
  store.bySubject.toList.flatMap fun entry => entry.2

def perform (store : EvidenceStore) : StoreCall → EvidenceStore
  | .admitRecord now record => (store.admitRecord now record).2
  | .clear => store.clear

/-- The records admitted since the last clearing, after one more call. -/
def remember (store : EvidenceStore) (history : List EvidenceRecord) :
    StoreCall → List EvidenceRecord
  | .admitRecord now record =>
      match (store.admitRecord now record).1 with
      | .ok _ => history ++ [record]
      | .error _ => history
  | .clear => []

/-- The records that the calls admit after the last clearing among them; the given ones
were admitted before. -/
def admittedSince : EvidenceStore → List EvidenceRecord → List StoreCall → List EvidenceRecord
  | _, history, [] => history
  | store, history, call :: calls =>
      admittedSince (store.perform call) (store.remember history call) calls

/-! ## What a call of admission does -/

/-- The record passes every check but the bound on all records. -/
def TurnedAway (store : EvidenceStore) (now : TimestampNs) (record : EvidenceRecord) : Prop :=
  record.validate = .ok () ∧
    ¬(record.observedAtNs > now ∧ record.observedAtNs - now > futureSanityBoundNs) ∧
    store.identities.contains record.id = false ∧
    store.limits.maxEvidenceRecords ≤ store.total

/-- The store after an admission. -/
def admitted (store : EvidenceStore) (record : EvidenceRecord) : EvidenceStore :=
  { store with identities := store.identities.insert record.id }.retain record.subject
    (insertOrdered (store.forSubject record.subject) record)

/-- The store after a refusal because it is full. -/
def turnedAway (store : EvidenceStore) (record : EvidenceRecord) : EvidenceStore :=
  { store.reject with bySubject := store.bySubject.insertIfNew record.subject [] }

/-- Admission refuses and counts, or refuses because the store is full, or admits. -/
theorem admitRecord_cases (store : EvidenceStore) (now : TimestampNs) (record : EvidenceRecord) :
    (¬store.TurnedAway now record ∧
      ∃ status, store.admitRecord now record = (.error status, store.reject)) ∨
    (store.TurnedAway now record ∧
      ∃ status, store.admitRecord now record = (.error status, store.turnedAway record)) ∨
    (store.identities.contains record.id = false ∧ store.total < store.limits.maxEvidenceRecords ∧
      store.admitRecord now record = (.ok (), store.admitted record)) := by
  rw [admitRecord, TurnedAway]
  cases hvalid : record.validate with
  | error status =>
    refine Or.inl ⟨fun hturned => ?_, status, rfl⟩
    cases hturned.1
  | ok _ =>
    dsimp only
    split_ifs with hfuture hknown hfull
    · exact Or.inl ⟨fun hturned => hturned.2.1 hfuture, _, rfl⟩
    · refine Or.inl ⟨fun hturned => ?_, _, rfl⟩
      rw [hknown] at hturned
      cases hturned.2.2.1
    · exact Or.inr (Or.inl ⟨⟨rfl, hfuture, Bool.eq_false_of_not_eq_true hknown, hfull⟩, _, rfl⟩)
    · exact Or.inr (Or.inr ⟨Bool.eq_false_of_not_eq_true hknown, not_le.mp hfull, rfl⟩)

/-! ## The records of a store, subject by subject -/

/-- The records of the other subjects. -/
def otherRecords (store : EvidenceStore) (subject : SwitchKey) : List EvidenceRecord :=
  (others store.bySubject subject).flatMap fun entry => entry.2

theorem records_perm (store : EvidenceStore) (subject : SwitchKey) :
    store.records.Perm (store.forSubject subject ++ store.otherRecords subject) := by
  refine ((toList_perm store.bySubject subject).flatMap_right _).trans ?_
  rw [List.flatMap_append, forSubject, otherRecords]
  cases store.bySubject[subject]? <;> simp

theorem records_insert {next : EvidenceStore} {subject : SwitchKey} {bucket : List EvidenceRecord}
    (hnext : next.bySubject.toList = (store.bySubject.insert subject bucket).toList) :
    next.records.Perm (bucket ++ store.otherRecords subject) := by
  rw [records, hnext]
  exact (toList_insert_perm store.bySubject subject bucket).flatMap_right _

theorem records_turnedAway (store : EvidenceStore) (record : EvidenceRecord) :
    (store.turnedAway record).records.Perm store.records := by
  by_cases hmem : record.subject ∈ store.bySubject
  · have hsame : (store.turnedAway record).bySubject.toList = store.bySubject.toList :=
      toList_insertIfNew_of_mem hmem []
    rw [records, hsame]
    exact List.Perm.refl _
  · have hnone : store.forSubject record.subject = [] := by
      rw [forSubject, Std.TreeMap.getElem?_eq_none hmem]
      rfl
    have hbefore := store.records_perm record.subject
    rw [hnone] at hbefore
    exact (records_insert (toList_insertIfNew_of_not_mem hmem [])).trans hbefore.symm

theorem forSubject_turnedAway (store : EvidenceStore) (record : EvidenceRecord)
    (subject : SwitchKey) :
    (store.turnedAway record).forSubject subject = store.forSubject subject := by
  rw [forSubject, turnedAway, Std.TreeMap.getElem?_insertIfNew]
  split
  · rename_i hnew
    rw [forSubject, ← Std.LawfulEqOrd.eq_of_compare hnew.1, Std.TreeMap.getElem?_eq_none hnew.2]
    rfl
  · rfl

theorem mem_eraseAll (records : List EvidenceRecord) (identities : Std.TreeSet EvidenceId)
    (id : EvidenceId) :
    id ∈ records.foldl (fun identities record => identities.erase record.id) identities ↔
      id ∈ identities ∧ id ∉ records.map (·.id) := by
  induction records generalizing identities with
  | nil => simp
  | cons record records ih =>
    rw [List.foldl_cons, ih, Std.TreeSet.mem_erase, List.map_cons, List.mem_cons, not_or]
    have hne : compare record.id id ≠ .eq ↔ ¬id = record.id :=
      not_congr (Std.LawfulEqCmp.compare_eq_iff_eq.trans eq_comm)
    rw [hne]
    tauto

/-! ## The invariant -/

/-- The identities are those of the records held, each record is held once, the total is
their number and within the bound, and every bucket holds the newest of the records that
were admitted for its subject. -/
structure Consistent (store : EvidenceStore) (history : List EvidenceRecord) : Prop where
  identities : ∀ id, id ∈ store.identities ↔ id ∈ store.records.map (·.id)
  distinct : (store.records.map (·.id)).Nodup
  counted : store.total = store.records.length
  within : store.total ≤ store.limits.maxEvidenceRecords
  newest : ∀ subject, Newest EvidenceRecord.rank perSubjectRetention
    (history.filter fun record => decide (record.subject = subject)) (store.forSubject subject)

theorem consistent_empty (hbuckets : store.bySubject = ∅) (hidentities : store.identities = ∅)
    (htotal : store.total = 0) : store.Consistent [] := by
  have hrecords : store.records = [] := by
    rw [records, hbuckets]
    rfl
  refine ⟨fun id => ?_, ?_, ?_, ?_, fun subject => ?_⟩
  · rw [hidentities, hrecords]
    simp
  · rw [hrecords]
    exact List.nodup_nil
  · rw [hrecords, htotal]
    rfl
  · rw [htotal]
    exact Nat.zero_le _
  · rw [forSubject, hbuckets]
    exact Newest.nil _ _

section Step

variable {next : EvidenceStore} {history : List EvidenceRecord}

/-- What a store is consistent with depends on its records, not on empty buckets. -/
theorem Consistent.congr (hconsistent : store.Consistent history)
    (hidentities : next.identities = store.identities) (htotal : next.total = store.total)
    (hlimits : next.limits = store.limits) (hrecords : next.records.Perm store.records)
    (hsubject : ∀ subject, next.forSubject subject = store.forSubject subject) :
    next.Consistent history := by
  have hids := hrecords.map (·.id)
  refine ⟨fun id => ?_, ?_, ?_, ?_, fun subject => ?_⟩
  · rw [hidentities, hids.mem_iff]
    exact hconsistent.identities id
  · exact hids.nodup_iff.mpr hconsistent.distinct
  · rw [htotal, hrecords.length_eq]
    exact hconsistent.counted
  · rw [htotal, hlimits]
    exact hconsistent.within
  · rw [hsubject]
    exact hconsistent.newest subject

theorem Consistent.new_identity (hconsistent : store.Consistent history)
    (hfree : store.identities.contains record.id = false) :
    record.id ∉ store.records.map (·.id) := by
  rw [← hconsistent.identities, ← Std.TreeSet.contains_iff_mem, hfree]
  exact Bool.false_ne_true

/-- The records after an admission, with those that were evicted by it. -/
theorem records_admitted (store : EvidenceStore) (record : EvidenceRecord) :
    ∃ evicted, (evicted ++ (store.admitted record).records).Perm (record :: store.records) ∧
      (∀ id, id ∈ (store.admitted record).identities ↔
        (record.id = id ∨ id ∈ store.identities) ∧ id ∉ evicted.map (·.id)) ∧
      (store.admitted record).total = store.total + 1 - evicted.length := by
  let bucket := insertOrdered (store.forSubject record.subject) record
  let excess := bucket.length - perSubjectRetention
  refine ⟨bucket.take excess, ?_, fun id => ?_, ?_⟩
  · have hafter : (store.admitted record).records.Perm
        (bucket.drop excess ++ store.otherRecords record.subject) :=
      records_insert rfl
    have hbucket : bucket.Perm (record :: store.forSubject record.subject) :=
      List.perm_orderedInsert _ _ _
    calc (bucket.take excess ++ (store.admitted record).records).Perm
          (bucket.take excess ++ (bucket.drop excess ++ store.otherRecords record.subject)) :=
          hafter.append_left _
      _ = bucket ++ store.otherRecords record.subject := by
          rw [← List.append_assoc, List.take_append_drop]
      _ |>.Perm (record :: (store.forSubject record.subject ++
            store.otherRecords record.subject)) := hbucket.append_right _
      _ |>.Perm (record :: store.records) := (store.records_perm record.subject).symm.cons _
  · change id ∈ (bucket.take excess).foldl _ (store.identities.insert record.id) ↔ _
    rw [mem_eraseAll, Std.TreeSet.mem_insert, Std.LawfulEqCmp.compare_eq_iff_eq]
  · change store.total + 1 - excess = _
    rw [List.length_take_of_le (Nat.sub_le _ _)]

/-- An admitted record has a rank of its own in its bucket. -/
theorem Consistent.rank_ne (hconsistent : store.Consistent history)
    (hfree : store.identities.contains record.id = false) :
    ∀ other ∈ store.forSubject record.subject, other.rank ≠ record.rank := by
  intro other hother hrank
  have hid : other.id = record.id := by
    have hraw : other.id.raw.toNat = record.id.raw.toNat :=
      congrArg (fun rank => (ofLex rank).2) hrank
    exact StrongId.raw_injective (UInt64.toNat_inj.mp hraw)
  apply hconsistent.new_identity hfree
  rw [← hid]
  apply List.mem_map_of_mem
  exact (store.records_perm record.subject).mem_iff.mpr (List.mem_append_left _ hother)

theorem Consistent.admitted (hconsistent : store.Consistent history)
    (hfree : store.identities.contains record.id = false)
    (hroom : store.total < store.limits.maxEvidenceRecords) :
    (store.admitted record).Consistent (history ++ [record]) := by
  obtain ⟨evicted, hperm, hidentities, htotal⟩ := store.records_admitted record
  have hids := hperm.map (·.id)
  rw [List.map_append, List.map_cons] at hids
  have hnodup : (evicted.map (·.id) ++ (store.admitted record).records.map (·.id)).Nodup :=
    hids.nodup_iff.mpr (List.nodup_cons.mpr ⟨hconsistent.new_identity hfree, hconsistent.distinct⟩)
  have hlength := hperm.length_eq
  rw [List.length_append, List.length_cons] at hlength
  have hcounted := hconsistent.counted
  refine ⟨fun id => ?_, (List.nodup_append.mp hnodup).2.1, ?_, ?_, fun subject => ?_⟩
  · rw [hidentities, hconsistent.identities, eq_comm (a := record.id), ← List.mem_cons,
      ← hids.mem_iff, List.mem_append]
    constructor
    · rintro ⟨hevicted | hkept, hgone⟩
      · exact absurd hevicted hgone
      · exact hkept
    · intro hkept
      exact ⟨Or.inr hkept, fun hevicted =>
        (List.nodup_append.mp hnodup).2.2 id hevicted id hkept rfl⟩
  · omega
  · change (store.admitted record).total ≤ store.limits.maxEvidenceRecords
    omega
  · rw [EvidenceStore.admitted, forSubject_retain, List.filter_append]
    by_cases hsame : record.subject = subject
    · subst hsame
      rw [if_pos rfl, List.filter_cons, if_pos (decide_eq_true rfl)]
      exact (hconsistent.newest record.subject).insert (hconsistent.rank_ne hfree)
    · rw [if_neg hsame, List.filter_cons, decide_eq_false hsame, List.filter_nil,
        if_neg Bool.false_ne_true, List.append_nil]
      exact hconsistent.newest subject

theorem Consistent.perform (hconsistent : store.Consistent history) (call : StoreCall) :
    (store.perform call).Consistent (store.remember history call) := by
  cases call with
  | clear => exact consistent_empty rfl rfl rfl
  | admitRecord now record =>
    rcases store.admitRecord_cases now record with
      ⟨-, status, hadmitted⟩ | ⟨-, status, hadmitted⟩ | ⟨hfree, hroom, hadmitted⟩
    · rw [EvidenceStore.perform, remember, hadmitted]
      exact hconsistent.congr rfl rfl rfl (List.Perm.refl _) fun _ => rfl
    · rw [EvidenceStore.perform, remember, hadmitted]
      exact hconsistent.congr rfl rfl rfl (store.records_turnedAway record)
        (store.forSubject_turnedAway record)
    · rw [EvidenceStore.perform, remember, hadmitted]
      exact hconsistent.admitted hfree hroom

theorem Consistent.run (hconsistent : store.Consistent history) (calls : List StoreCall) :
    (run EvidenceStore.perform store calls).Consistent (store.admittedSince history calls) := by
  induction calls generalizing store history with
  | nil => exact hconsistent
  | cons call calls ih => exact ih (hconsistent.perform call)

end Step

theorem limits_perform (store : EvidenceStore) (call : StoreCall) :
    (store.perform call).limits = store.limits := by
  cases call with
  | clear => rfl
  | admitRecord now record =>
    rcases store.admitRecord_cases now record with
      ⟨-, status, hadmitted⟩ | ⟨-, status, hadmitted⟩ | ⟨-, -, hadmitted⟩
    all_goals
      rw [perform, hadmitted]
      rfl

theorem limits_run (store : EvidenceStore) (calls : List StoreCall) :
    (run perform store calls).limits = store.limits := by
  induction calls generalizing store with
  | nil => rfl
  | cons call calls ih => rw [run_cons, ih, limits_perform]

/-- The invariant of the evidence store, after every sequence of calls.  The bucket of a
subject holds the newest of the records admitted for it since the last clearing: none that
is forgotten is as new, and some are forgotten only if the bucket is full. -/
theorem store_keeps_newest (limits : Limits) (calls : List StoreCall) :
    let store := run perform ({ limits := limits } : EvidenceStore) calls
    let history := admittedSince ({ limits := limits } : EvidenceStore) [] calls
    (∀ id, id ∈ store.identities ↔ ∃ record ∈ store.records, record.id = id) ∧
    (store.records.map (·.id)).Nodup ∧
    store.total = (store.bySubject.toList.map fun entry => entry.2.length).sum ∧
    store.total ≤ limits.maxEvidenceRecords ∧
    (∀ (subject : SwitchKey) (bucket : List EvidenceRecord),
      store.bySubject[subject]? = some bucket →
      bucket.length ≤ perSubjectRetention ∧ (∀ record ∈ bucket, record.subject = subject) ∧
      bucket.Pairwise fun left right => left.rank < right.rank) ∧
    (∀ subject, ∃ forgotten,
      (history.filter fun record => decide (record.subject = subject)).Perm
        (forgotten ++ store.forSubject subject) ∧
      (∀ old ∈ forgotten, ∀ new ∈ store.forSubject subject, old.rank < new.rank) ∧
      (forgotten ≠ [] → (store.forSubject subject).length = perSubjectRetention)) := by
  intro store history
  have hconsistent : store.Consistent history :=
    Consistent.run (consistent_empty rfl rfl rfl) calls
  refine ⟨fun id => ?_, hconsistent.distinct, ?_, ?_, fun subject bucket hbucket => ?_,
    fun subject => (hconsistent.newest subject).greatest⟩
  · rw [hconsistent.identities, List.mem_map]
  · rw [hconsistent.counted, records, List.length_flatMap]
  · rw [← show store.limits = limits from limits_run _ calls]
    exact hconsistent.within
  · have hnewest := hconsistent.newest subject
    rw [show store.forSubject subject = bucket by rw [forSubject, hbucket]; rfl] at hnewest
    refine ⟨hnewest.within, fun record hrecord => ?_, hnewest.sorted⟩
    exact of_decide_eq_true (List.mem_filter.mp (hnewest.mem_history hrecord)).2

/-! ## Refused admissions -/

/-- Nothing but the counter of refusals has changed. -/
structure OnlyCounted (before after : EvidenceStore) : Prop where
  limits : after.limits = before.limits
  bySubject : after.bySubject.toList = before.bySubject.toList
  identities : after.identities = before.identities
  total : after.total = before.total
  evicted : after.evicted = before.evicted
  rejected : after.rejected = before.rejected + 1

/-- The admission adds no bucket for a record that finds the store full. -/
def Tidy (store : EvidenceStore) (admission : Admission) : Prop :=
  store.TurnedAway admission.1 admission.2 → admission.2.subject ∈ store.bySubject

theorem onlyCounted_turnedAway_iff (store : EvidenceStore) (record : EvidenceRecord) :
    OnlyCounted store (store.turnedAway record) ↔ record.subject ∈ store.bySubject := by
  constructor
  · intro hcounted
    by_contra hnew
    have hsize := congrArg List.length hcounted.bySubject
    rw [Std.TreeMap.length_toList, Std.TreeMap.length_toList, turnedAway,
      Std.TreeMap.size_insertIfNew, if_neg hnew] at hsize
    omega
  · intro hmem
    exact ⟨rfl, toList_insertIfNew_of_mem hmem [], rfl, rfl, rfl, rfl⟩

theorem refused_iff (store : EvidenceStore) (now : TimestampNs) (record : EvidenceRecord)
    (hrefused : (store.admitRecord now record).1 ≠ .ok ()) :
    OnlyCounted store (store.admitRecord now record).2 ↔ store.Tidy (now, record) := by
  rcases store.admitRecord_cases now record with
    ⟨hother, status, hadmitted⟩ | ⟨hturned, status, hadmitted⟩ | ⟨-, -, hadmitted⟩
  · rw [hadmitted]
    exact iff_of_true ⟨rfl, rfl, rfl, rfl, rfl, rfl⟩ fun hturned => absurd hturned hother
  · rw [hadmitted, onlyCounted_turnedAway_iff]
    exact ⟨fun hmem _ => hmem, fun htidy => htidy hturned⟩
  · rw [hadmitted] at hrefused
    exact absurd rfl hrefused

/-- The record of an admission that succeeds. -/
def accepted (store : EvidenceStore) (admission : Admission) : Option EvidenceRecord :=
  match (store.admitRecord admission.1 admission.2).1 with
  | .ok _ => some admission.2
  | .error _ => none

/-- A tidy admission adds a bucket only with a record in it. -/
theorem size_admitNext_le {admission : Admission} (htidy : store.Tidy admission) :
    (store.admitNext admission).bySubject.size ≤
      store.bySubject.size + (store.accepted admission).toList.length := by
  rw [admitNext, accepted]
  rcases store.admitRecord_cases admission.1 admission.2 with
    ⟨-, status, hadmitted⟩ | ⟨hturned, status, hadmitted⟩ | ⟨-, -, hadmitted⟩
  · rw [hadmitted]
    exact le_refl _
  · rw [hadmitted]
    change (store.bySubject.insertIfNew _ _).size ≤ _
    rw [Std.TreeMap.size_insertIfNew, if_pos (htidy hturned)]
    exact le_refl _
  · rw [hadmitted]
    exact Std.TreeMap.size_insert_le

/-- What tidy admissions leave: the number of buckets grows by at most the number of
records that were accepted. -/
theorem size_run_le {admissions : List Admission} (htidy : Meets admitNext Tidy store admissions) :
    (run admitNext store admissions).bySubject.size ≤
      store.bySubject.size + (emissions admitNext accepted store admissions).length := by
  induction admissions generalizing store with
  | nil => exact le_refl _
  | cons admission admissions ih =>
    have hfirst := size_admitNext_le htidy.1
    have hrest := ih htidy.2
    rw [run_cons, emissions, List.length_append]
    omega

/-- A refused admission changes the counter of refusals and nothing else exactly if the
record was not turned away from a full store in which its subject has no bucket.  Without
such admissions there are never more buckets than records accepted. -/
theorem refusal_stores_nothing (store : EvidenceStore) (now : TimestampNs)
    (record : EvidenceRecord) :
    ((store.admitRecord now record).1 ≠ .ok () →
      (OnlyCounted store (store.admitRecord now record).2 ↔ store.Tidy (now, record))) ∧
    ∀ (limits : Limits) (admissions : List Admission),
      Meets admitNext Tidy ({ limits := limits } : EvidenceStore) admissions →
      (run admitNext ({ limits := limits } : EvidenceStore) admissions).bySubject.size ≤
        (emissions admitNext accepted ({ limits := limits } : EvidenceStore)
          admissions).length := by
  refine ⟨store.refused_iff now record, fun limits admissions htidy => ?_⟩
  have hsize := size_run_le htidy
  rwa [show ({ limits := limits } : EvidenceStore).bySubject.size = 0 from
    Std.TreeMap.size_emptyc, Nat.zero_add] at hsize

end EvidenceStore

namespace Sample

/-- A store for one record. -/
def narrow : EvidenceStore := { limits := { maxEvidenceRecords := 1 } }

/-- The declaration again, about another generation and under another identity. -/
def elsewhere (index : ℕ) : Admission :=
  (1000, { declared with
    id := ⟨index.toUInt64 + 2⟩, subject := ⟨⟨index.toUInt64 + 2⟩, ⟨1⟩⟩ })

/-- A reading about the generation of the one record, which finds the store full, and the
record again. -/
def refusals : List Admission := [reading 0, (1000, declared)]

end Sample

/-- Both refusals are counted and leave the one bucket alone. -/
theorem refusal_stores_nothing_sample :
    let full := Sample.narrow.admitNext (1000, Sample.declared)
    EvidenceStore.OnlyCounted full (full.admitNext (Sample.reading 0)) ∧
      (run EvidenceStore.admitNext Sample.narrow
        ((1000, Sample.declared) :: Sample.refusals)).rejected = 2 ∧
      (run EvidenceStore.admitNext Sample.narrow
        ((1000, Sample.declared) :: Sample.refusals)).bySubject.size ≤ 1 := by
  intro full
  have htidy : ∀ (store : EvidenceStore) (admission : Admission),
      (decide (store.total < store.limits.maxEvidenceRecords) ||
        decide (admission.2.subject ∈ store.bySubject)) = true → store.Tidy admission := by
    intro store admission hchecked hturned
    rcases Bool.or_eq_true _ _ ▸ hchecked with hroom | hkept
    · exact absurd hturned.2.2.2 (not_le.mpr (of_decide_eq_true hroom))
    · exact of_decide_eq_true hkept
  have hrefused : (full.admitRecord 1000 (Sample.reading 0).2).1 ≠ .ok () := by
    intro hok
    have hcode := congrArg Except.isOk hok
    revert hcode
    decide +kernel
  obtain ⟨hone, hruns⟩ := EvidenceStore.refusal_stores_nothing full 1000 (Sample.reading 0).2
  refine ⟨(hone hrefused).mpr (htidy full _ (by decide +kernel)), by decide +kernel, ?_⟩
  have hmeets := meets_of_checks htidy (show checks EvidenceStore.admitNext _ Sample.narrow
    ((1000, Sample.declared) :: Sample.refusals) = true by decide +kernel)
  exact (hruns _ _ hmeets).trans (by decide +kernel)

/-- A full store refuses two records, and keeps an empty bucket for each of them. -/
theorem refusals_leave_buckets :
    let admissions := [(1000, Sample.declared), Sample.elsewhere 0, Sample.elsewhere 1]
    let full := Sample.narrow.admitNext (1000, Sample.declared)
    (full.admitRecord 1000 (Sample.elsewhere 0).2).1 ≠ .ok () ∧
    ¬EvidenceStore.OnlyCounted full (full.admitNext (Sample.elsewhere 0)) ∧
    (emissions EvidenceStore.admitNext EvidenceStore.accepted Sample.narrow
      admissions).length = 1 ∧
    (run EvidenceStore.admitNext Sample.narrow admissions).bySubject.size = 3 := by
  refine ⟨?_, fun hcounted => ?_, ?_, ?_⟩
  · intro hok
    have hcode := congrArg Except.isOk hok
    revert hcode
    decide +kernel
  · have hsize := congrArg List.length hcounted.bySubject
    revert hsize
    decide +kernel
  · decide +kernel
  · decide +kernel

end SwitchFailover.Model
