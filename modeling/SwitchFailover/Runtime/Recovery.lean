import SwitchFailover.Persist.Journal
import SwitchFailover.Persist.Payloads
import SwitchFailover.Runtime.Opening

/-!
# What replay gathers

Replay is a fold over the records of the journal.  The failure table, the fences
and the identity of the last incarnation each depend on the records of one kind
only, and are the folds of what those records say.
-/

namespace SwitchFailover.Runtime

open SwitchFailover.Core Codec Model Plan Persist

/-! ## What a record says -/

theorem ofRaw_eq_some {raw : UInt16} {kind : RecordKind} :
    RecordKind.ofRaw raw = some kind ↔ raw = kind.raw := by
  constructor
  · intro hkind
    obtain ⟨hlength, hget⟩ := List.getElem?_eq_some_iff.mp hkind
    have hlt : raw.toNat < 15 := hlength
    have hraw : raw = UInt16.ofNat raw.toNat := (UInt16.ofNat_toNat).symm
    generalize raw.toNat = index at hlength hget hlt hraw
    subst hraw
    interval_cases index <;> (rw [← hget]; rfl)
  · rintro rfl
    cases kind <;> rfl

/-- The content of a record of one kind. -/
def contentOf {A : Type} (kind : RecordKind) (decode : Bytes → Result A) (record : Record) :
    Option A :=
  if record.header.kind = kind.raw then (decode record.payload).toOption else none

def failureIn : Record → Option FailureRecord :=
  contentOf .failureCommitted decodeFailureRecord

def fenceIn : Record → Option FenceRecord := contentOf .fenceCommitted decodeFenceRecord

def headerIn : Record → Option (CoordinatorEpoch × BootIncarnation) :=
  contentOf .streamHeader (decodeWith readStreamHeader)

/-- A failure replaces an earlier one of the same generation, unless that one was
observed later. -/
def enterFailure (entries : Std.TreeMap SwitchKey FailureRecord) (record : FailureRecord) :
    Std.TreeMap SwitchKey FailureRecord :=
  match entries[record.subject]? with
  | some existing =>
      if existing.observedAtNs > record.observedAtNs then entries
      else entries.insert record.subject record
  | none => entries.insert record.subject record

def enterFence (fences : Std.TreeMap SwitchKey FenceRecord) (fence : FenceRecord) :
    Std.TreeMap SwitchKey FenceRecord :=
  fences.insert fence.subject fence

theorem record_eq_ok {table : FailureTable} {record : FailureRecord}
    (hsubject : record.subject.valid = true) (hobserved : record.observedAtNs ≠ 0) :
    table.record record = .ok ⟨enterFailure table.entries record⟩ := by
  rw [FailureTable.record]
  simp only [hsubject, hobserved, require, bne_iff_ne, ne_eq, not_false_eq_true, if_true,
    FailureTable.find]
  rw [enterFailure]
  change (match table.entries[record.subject]? with
    | some existing => if existing.observedAtNs > record.observedAtNs then pure table
        else pure ⟨table.entries.insert record.subject record⟩
    | none => pure ⟨table.entries.insert record.subject record⟩ : Result FailureTable) = _
  cases table.entries[record.subject]? with
  | none => rfl
  | some existing =>
    dsimp only
    split <;> rfl

/-! ## One record -/

variable {limits : Limits} {lineage : Lineage} {record : Record}

theorem replayRecord_failures :
    (lineage.replayRecord limits record).failures.entries =
      (failureIn record).elim lineage.failures.entries (enterFailure lineage.failures.entries) := by
  by_cases hkind : record.header.kind = RecordKind.failureCommitted.raw
  · rw [failureIn, contentOf, if_pos hkind, Lineage.replayRecord, ofRaw_eq_some.mpr hkind]
    cases hdecode : decodeFailureRecord record.payload with
    | error status => rfl
    | ok failure =>
      have haccepted := accepted_of_decodeWith hdecode
      rw [Bool.and_eq_true, bne_iff_ne] at haccepted
      simp only [Bind.bind, Except.bind, record_eq_ok haccepted.1 haccepted.2]
      rfl
  · rw [failureIn, contentOf, if_neg hkind, Lineage.replayRecord]
    split
    · split <;> rfl
    · rename_i hfailure
      exact absurd (ofRaw_eq_some.mp hfailure) hkind
    all_goals first | rfl | (split <;> rfl)

theorem replayRecord_fences :
    (lineage.replayRecord limits record).authority.fences =
      (fenceIn record).elim lineage.authority.fences (enterFence lineage.authority.fences) := by
  by_cases hkind : record.header.kind = RecordKind.fenceCommitted.raw
  · rw [fenceIn, contentOf, if_pos hkind, Lineage.replayRecord, ofRaw_eq_some.mpr hkind]
    cases hdecode : decodeFenceRecord record.payload with
    | error status => rfl
    | ok fence =>
      have haccepted := accepted_of_decodeWith hdecode
      simp only [Bind.bind, Except.bind, AuthorityRegistry.restoreFence, require, haccepted]
      rfl
  · rw [fenceIn, contentOf, if_neg hkind, Lineage.replayRecord]
    split
    · split <;> rfl
    · split <;> rfl
    · rename_i hfence
      exact absurd (ofRaw_eq_some.mp hfence) hkind
    · split
      · rename_i authority hrestore
        obtain ⟨grant, -, hgrant⟩ := result_bind_eq_ok.mp hrestore
        rw [AuthorityRegistry.restoreGrant, result_bind_eq_ok] at hgrant
        obtain ⟨_, -, hnext⟩ := hgrant
        cases hnext
        rfl
      · rfl
    all_goals first | rfl | (split <;> rfl)

theorem replayRecord_header :
    ((lineage.replayRecord limits record).previousEpoch,
        (lineage.replayRecord limits record).previousBoot) =
      (headerIn record).elim (lineage.previousEpoch, lineage.previousBoot) id := by
  by_cases hkind : record.header.kind = RecordKind.streamHeader.raw
  · rw [headerIn, contentOf, if_pos hkind, Lineage.replayRecord, ofRaw_eq_some.mpr hkind]
    cases hdecode : decodeWith readStreamHeader record.payload with
    | error status => rfl
    | ok header => rfl
  · rw [headerIn, contentOf, if_neg hkind, Lineage.replayRecord]
    split
    · rename_i hheader
      exact absurd (ofRaw_eq_some.mp hheader) hkind
    all_goals first | rfl | (split <;> rfl)

/-! ## The whole journal -/

/-- A component of the lineage that one kind of content drives is the fold of that
content. -/
theorem replayAll_component {A B : Type} (component : Lineage → B) (enter : B → A → B)
    {content : Record → Option A}
    (hstep : ∀ lineage record, component (lineage.replayRecord limits record) =
      (content record).elim (component lineage) (enter (component lineage)))
    (records : List Record) (lineage : Lineage) :
    component (records.foldl (Lineage.replayRecord limits) lineage) =
      (records.filterMap content).foldl enter (component lineage) := by
  induction records generalizing lineage with
  | nil => rfl
  | cons record records ih =>
    rw [List.foldl_cons, ih, hstep]
    cases hcontent : content record with
    | none => rw [List.filterMap_cons_none hcontent, Option.elim_none]
    | some value => rw [List.filterMap_cons_some hcontent, List.foldl_cons, Option.elim_some]

theorem replayAll_failures (limits : Limits) (records : List Record) :
    (Lineage.replayAll limits records).failures.entries =
      (records.filterMap failureIn).foldl enterFailure ∅ :=
  replayAll_component (fun lineage => lineage.failures.entries) enterFailure
    (fun _ _ => replayRecord_failures) records _

theorem replayAll_fences (limits : Limits) (records : List Record) :
    (Lineage.replayAll limits records).authority.fences =
      (records.filterMap fenceIn).foldl enterFence ∅ :=
  replayAll_component (fun lineage => lineage.authority.fences) enterFence
    (fun _ _ => replayRecord_fences) records _

/-- The identity the last header gives, or none. -/
def lastHeader (records : List Record) : CoordinatorEpoch × BootIncarnation :=
  (records.filterMap headerIn).foldl (fun _ header => header) default

theorem replayAll_header (limits : Limits) (records : List Record) :
    ((Lineage.replayAll limits records).previousEpoch,
      (Lineage.replayAll limits records).previousBoot) = lastHeader records :=
  replayAll_component (fun lineage => (lineage.previousEpoch, lineage.previousBoot))
    (fun _ header => header) (fun _ _ => replayRecord_header) records _

/-- The fences of a coordinator that took over a journal. -/
theorem restored_fences (impl : Impl) (config : CoordinatorConfig) (process : Process)
    (store : DurableStore) (disk : Disk) (opening : ReplayReport) :
    (impl.restored config process store disk opening).authority.fences =
      (opening.records.filterMap fenceIn).foldl enterFence ∅ := by
  rw [← replayAll_fences config.limits]
  change (Lineage.invalidated _ _).fences = _
  rw [Lineage.invalidated]
  split <;> rfl

/-! ## Membership in the folds -/

theorem mem_foldl_enterFence (fences : List FenceRecord)
    (start : Std.TreeMap SwitchKey FenceRecord) (key : SwitchKey) :
    key ∈ fences.foldl enterFence start ↔ key ∈ start ∨ ∃ fence ∈ fences, fence.subject = key := by
  induction fences generalizing start with
  | nil => simp
  | cons fence fences ih =>
    rw [List.foldl_cons, ih, enterFence, Std.TreeMap.mem_insert,
      Std.LawfulEqCmp.compare_eq_iff_eq, List.exists_mem_cons_iff]
    tauto

theorem mem_enterFailure (entries : Std.TreeMap SwitchKey FailureRecord) (failure : FailureRecord)
    (key : SwitchKey) :
    key ∈ enterFailure entries failure ↔ key ∈ entries ∨ failure.subject = key := by
  have hinsert : key ∈ entries.insert failure.subject failure ↔
      key ∈ entries ∨ failure.subject = key := by
    rw [Std.TreeMap.mem_insert, Std.LawfulEqCmp.compare_eq_iff_eq, or_comm]
  rw [enterFailure]
  split
  · rename_i existing hexisting
    split
    · -- the entry that stays is one for the same generation
      refine ⟨Or.inl, ?_⟩
      rintro (hmem | rfl)
      · exact hmem
      · rw [Std.TreeMap.mem_iff_isSome_getElem?, hexisting]
        rfl
    · exact hinsert
  · exact hinsert

theorem mem_foldl_enterFailure (failures : List FailureRecord)
    (start : Std.TreeMap SwitchKey FailureRecord) (key : SwitchKey) :
    key ∈ failures.foldl enterFailure start ↔
      key ∈ start ∨ ∃ failure ∈ failures, failure.subject = key := by
  induction failures generalizing start with
  | nil => simp
  | cons failure failures ih =>
    rw [List.foldl_cons, ih, mem_enterFailure, List.exists_mem_cons_iff]
    tauto

end SwitchFailover.Runtime
