import SwitchFailover.Codec.Checksum
import SwitchFailover.Library.Files
import SwitchFailover.Persist.Compaction

/-!
# Atomic replacement

`write_snapshot` and `compact` write a staging file, force it to stable storage and rename
it over the snapshot or the journal.  Here they are the steps they take on the files of the
store, with every failure and its cleaning up.  Wherever a crash cuts the steps short, the
old file or the new one is there, and never anything else.
-/

namespace SwitchFailover.Persist

open SwitchFailover.Core Codec Library.Codec Library.Transitions Library.Files

variable {pieces : List Bytes}

inductive FileName
  | journal | snapshot | journalStaging | snapshotStaging
  deriving DecidableEq

variable {staging other : FileName}

abbrev StoreFiles := Directory FileName UInt8

/-- What the operating system does with the replacement of a file: whether the staging file
is created, how many bytes of it can be written, whether they are forced to stable storage,
whether it is removed when it has to be, and whether it is renamed. -/
structure ReplacementFate where
  created : Bool := true
  room : ℕ
  forced : Bool := true
  removed : Bool := true
  replaced : Bool := true

/-- Errors of the removal are ignored. -/
def ReplacementFate.cleanUp (fate : ReplacementFate) (staging : FileName) :
    List (FileStep FileName UInt8) :=
  if fate.removed then [.remove staging] else []

/-! ## Snapshots -/

/-- The document, and its checksum as a trailer. -/
def snapshotPieces (document : Bytes) : List Bytes :=
  [document, storeLe 4 (crc32Ieee document).toNat]

namespace DurableStore

def writeSnapshot (store : DurableStore) (document : Bytes) (fate : ReplacementFate) :
    Status × List (FileStep FileName UInt8) :=
  if !store.isOpen then (Status.failure .closed (text "durable store is closed"), [])
  else if document.length > store.limits.maxDocumentBytes then
    (refuseExhausted (text "max_document_bytes") document.length store.limits.maxDocumentBytes, [])
  else if !fate.created then
    (ioFailure (text "snapshot staging file could not be created"), [])
  else
    let staged := stage .snapshotStaging fate.room fate.forced
      ((snapshotPieces document).map some)
    if !staged.1 then
      (ioFailure (text "snapshot staging file could not be written in full"),
        staged.2 ++ fate.cleanUp .snapshotStaging)
    else if !fate.replaced then
      (ioFailure (text "snapshot could not be published atomically"),
        staged.2 ++ fate.cleanUp .snapshotStaging)
    else (Status.success, staged.2 ++ [.rename .snapshotStaging .snapshot])

/-- What `read_snapshot` makes of the bytes of the file. -/
def readDocument (store : DurableStore) (raw : Bytes) : Result Bytes :=
  if raw.length > store.limits.maxDocumentBytes + 4 then
    refuse .corrupt (text "snapshot could not be read or exceeds the document bound")
  else if raw.length < 4 then
    refuse .truncated (text "snapshot is shorter than its integrity trailer")
  else
    let documentSize := raw.length - 4
    let stored := (loadLe ((raw.drop documentSize).take 4)).toUInt32
    let document := raw.take documentSize
    if crc32Ieee document ≠ stored then
      refuse .corrupt (text "snapshot integrity check failed")
    else .ok document

def readSnapshot (store : DurableStore) (files : StoreFiles) : Result Bytes :=
  match files .snapshot with
  | none => refuse .notFound (text "snapshot does not exist")
  | some file => store.readDocument file.contents

end DurableStore

/-! ## Compaction -/

/-- The flush of the old journal, and the opening of the new one. -/
structure JournalFate extends ReplacementFate where
  flushed : Bool := true
  reopened : Bool := true

/-- The fate of the compaction as a whole. -/
def JournalFate.outcome (fate : JournalFate) (limits : Limits) (records : List Record) :
    CompactionFate where
  created := fate.created
  written := (stage FileName.journalStaging fate.room fate.forced
    (records.map fun record => (encodeRecord record limits).toOption)).1
  flushed := fate.flushed
  replaced := fate.replaced
  reopened := fate.reopened

namespace DurableStore

/-- A record that cannot be encoded ends the writing, as a failed write does.  When the
journal cannot be flushed the staging file is left behind. -/
def compactFiles (store : DurableStore) (records : List Record) (fate : JournalFate) :
    Status × DurableStore × List (FileStep FileName UInt8) :=
  if !store.isOpen then (Status.failure .closed (text "durable store is closed"), store, [])
  else if records.length > store.limits.maxJournalRecords then
    (refuseExhausted (text "max_journal_records") records.length store.limits.maxJournalRecords,
      store, [])
  else if !fate.created then
    (ioFailure (text "journal staging file could not be created"), store, [])
  else
    let staged := stage .journalStaging fate.room fate.forced
      (records.map fun record => (encodeRecord record store.limits).toOption)
    if !staged.1 then
      (ioFailure (text "journal compaction could not be written in full"), store,
        staged.2 ++ fate.cleanUp .journalStaging)
    else if !fate.flushed then
      (ioFailure (text "journal could not be flushed before compaction"), store, staged.2)
    else if !fate.replaced then
      (ioFailure (text "journal could not be replaced atomically"),
        { store with isOpen := false }, staged.2 ++ fate.cleanUp .journalStaging)
    else
      let published := staged.2 ++ [.rename .journalStaging .journal]
      if !fate.reopened then
        (ioFailure (text "journal could not be reopened after compaction"),
          { store with isOpen := false }, published)
      else
        (Status.success,
          { store with
            isOpen := true
            nextSequence := match records.getLast? with
              | none => 1
              | some last => last.header.seq + 1
            recordsWritten := records.length }, published)

end DurableStore

/-! ## The files at every step -/

theorem cleanUp_touches (hother : staging ≠ other) (fate : ReplacementFate) :
    ∀ step ∈ fate.cleanUp staging, ¬step.Touches other := by
  rw [ReplacementFate.cleanUp]
  split_ifs
  · intro step hstep
    rw [List.mem_singleton.mp hstep]
    exact hother
  · intro step hstep
    cases hstep

/-- A staging file that is given up leaves every other file alone. -/
theorem abandoned_touches (hother : staging ≠ other) (fate : ReplacementFate)
    (pieces : List (Option Bytes)) :
    ∀ step ∈ (stage staging fate.room fate.forced pieces).2 ++ fate.cleanUp staging,
      ¬step.Touches other := by
  intro step hstep
  rcases List.mem_append.mp hstep with hstep | hstep
  · exact stage_touches hother _ _ _ step hstep
  · exact cleanUp_touches hother fate step hstep

theorem nothing_touches (name : FileName) :
    ∀ step ∈ ([] : List (FileStep FileName UInt8)), ¬step.Touches name := by
  intro step hstep
  cases hstep

/-- The steps replace the target or leave it alone, and a success is a replacement. -/
structure Replaces (files : StoreFiles) (target : FileName) (contents : Bytes) (status : Status)
    (steps : List (FileStep FileName UInt8)) : Prop where
  allOrNothing : AllOrNothing files target contents steps
  published : status.isOk = true → run perform files steps target = some (.settled contents)

section Replaces

variable {files : StoreFiles} {target : FileName} {contents : Bytes} {status : Status}
  {steps : List (FileStep FileName UInt8)}

theorem Replaces.of_failure (hfailed : status.isOk = false)
    (helsewhere : ∀ step ∈ steps, ¬step.Touches target) :
    Replaces files target contents status steps where
  allOrNothing := allOrNothing_of_not_touches helsewhere
  published hok := by
    rw [hfailed] at hok
    cases hok

theorem Replaces.of_stage (hother : staging ≠ target) {room : ℕ} {forced : Bool}
    (hstaged : (stage staging room forced (pieces.map some)).1 = true) :
    Replaces files target pieces.flatten status
      ((stage staging room forced (pieces.map some)).2 ++ [.rename staging target]) := by
  obtain ⟨written, hpieces, hrun⟩ := stage_spec hstaged files
  have hsame : pieces = written :=
    List.map_injective_iff.mpr (Option.some_injective _) hpieces
  rw [← hsame] at hrun
  exact ⟨allOrNothing_rename (stage_touches hother _ _ _) hother hrun,
    fun _ => run_rename hother hrun⟩

end Replaces

namespace DurableStore

variable (store : DurableStore)

/-- A document that is too long is refused at once. -/
theorem writeSnapshot_spec (document : Bytes) (fate : ReplacementFate) (files : StoreFiles) :
    ((store.writeSnapshot document fate).1.isOk = false ∧
        (store.writeSnapshot document fate).2 = []) ∨
      document.length ≤ store.limits.maxDocumentBytes ∧
        Replaces files .snapshot (snapshotPieces document).flatten
          (store.writeSnapshot document fate).1 (store.writeSnapshot document fate).2 := by
  have hother : FileName.snapshotStaging ≠ .snapshot := by decide
  rw [writeSnapshot]
  dsimp only
  split_ifs with hclosed hlong hcreated hstaged hreplaced
  · exact Or.inl ⟨Status.failure_not_isOk _ _, rfl⟩
  · exact Or.inl ⟨Status.failure_not_isOk _ _, rfl⟩
  · exact Or.inl ⟨Status.failure_not_isOk _ _, rfl⟩
  · exact Or.inr ⟨not_lt.mp hlong,
      .of_failure (Status.failure_not_isOk _ _) (abandoned_touches hother fate _)⟩
  · exact Or.inr ⟨not_lt.mp hlong,
      .of_failure (Status.failure_not_isOk _ _) (abandoned_touches hother fate _)⟩
  · rw [Bool.not_eq_true, Bool.not_eq_false'] at hstaged
    exact Or.inr ⟨not_lt.mp hlong, .of_stage hother hstaged⟩

theorem mapM_encodeRecord {limits : Limits} {records : List Record}
    (hpieces : records.map (fun record => (encodeRecord record limits).toOption) =
      pieces.map some) : records.mapM (fun record => encodeRecord record limits) = .ok pieces := by
  induction records generalizing pieces with
  | nil =>
    cases pieces with
    | nil => rfl
    | cons piece pieces => cases hpieces
  | cons record records ih =>
    cases pieces with
    | nil => cases hpieces
    | cons piece pieces =>
      rw [List.map_cons, List.map_cons, List.cons.injEq] at hpieces
      rw [List.mapM_cons, ok_of_toOption hpieces.1, ih hpieces.2]
      rfl

theorem compactFiles_spec (records : List Record) (fate : JournalFate) (files : StoreFiles) :
    ((store.compactFiles records fate).1.isOk = false ∧
        ∀ step ∈ (store.compactFiles records fate).2.2, ¬step.Touches .journal) ∨
      ∃ pieces, records.mapM (fun record => encodeRecord record store.limits) = .ok pieces ∧
        Replaces files .journal pieces.flatten (store.compactFiles records fate).1
          (store.compactFiles records fate).2.2 := by
  have hother : FileName.journalStaging ≠ .journal := by decide
  rw [compactFiles]
  dsimp only
  split_ifs with hclosed hmany hcreated hstaged hflushed hreplaced hreopened
  · exact Or.inl ⟨Status.failure_not_isOk _ _, nothing_touches _⟩
  · exact Or.inl ⟨Status.failure_not_isOk _ _, nothing_touches _⟩
  · exact Or.inl ⟨Status.failure_not_isOk _ _, nothing_touches _⟩
  · exact Or.inl ⟨Status.failure_not_isOk _ _, abandoned_touches hother _ _⟩
  · exact Or.inl ⟨Status.failure_not_isOk _ _, stage_touches hother _ _ _⟩
  · exact Or.inl ⟨Status.failure_not_isOk _ _, abandoned_touches hother _ _⟩
  all_goals
    rw [Bool.not_eq_true, Bool.not_eq_false'] at hstaged
    obtain ⟨pieces, hpieces, -⟩ := stage_spec hstaged files
    rw [hpieces] at hstaged ⊢
    exact Or.inr ⟨pieces, mapM_encodeRecord hpieces, .of_stage hother hstaged⟩

/-- Step by step, a compaction does to the journal what it does as a whole. -/
theorem compactFiles_eq_compact (records : List Record) (fate : JournalFate) {files : StoreFiles}
    {disk : Disk} (hjournal : (files .journal).map File.contents = some disk.journal) :
    let whole := store.compact disk records (fate.outcome store.limits records)
    let stepwise := store.compactFiles records fate
    stepwise.1 = whole.1 ∧ stepwise.2.1 = whole.2.1 ∧
      (run perform files stepwise.2.2 .journal).map File.contents = some whole.2.2.journal := by
  have hother : FileName.journalStaging ≠ .journal := by decide
  have hkept {steps : List (FileStep FileName UInt8)}
      (helsewhere : ∀ step ∈ steps, ¬step.Touches .journal) :
      (run perform files steps .journal).map File.contents = some disk.journal := by
    rw [run_of_not_touches helsewhere, hjournal]
  generalize houtcome : fate.outcome store.limits records = outcome
  obtain ⟨created, staged, flushed, replaced, reopened⟩ := outcome
  rw [JournalFate.outcome, CompactionFate.mk.injEq] at houtcome
  obtain ⟨hcreated, hstaged, hflushed, hreplaced, hreopened⟩ := houtcome
  dsimp only
  rw [compactFiles, compact]
  dsimp only
  rw [hcreated, hstaged, hflushed, hreplaced, hreopened]
  by_cases hclosed : (!store.isOpen) = true
  · rw [if_pos hclosed, if_pos hclosed]
    exact ⟨rfl, rfl, hkept (nothing_touches _)⟩
  by_cases hmany : records.length > store.limits.maxJournalRecords
  · simp only [if_neg hclosed, if_pos hmany]
    exact ⟨trivial, trivial, hkept (nothing_touches _)⟩
  simp only [if_neg hclosed, if_neg hmany]
  cases created with
  | false => exact ⟨rfl, rfl, hkept (nothing_touches _)⟩
  | true =>
    cases staged with
    | false =>
      cases records.mapM fun record => encodeRecord record store.limits with
      | error status => exact ⟨rfl, rfl, hkept (abandoned_touches hother _ _)⟩
      | ok pieces => exact ⟨rfl, rfl, hkept (abandoned_touches hother _ _)⟩
    | true =>
      obtain ⟨pieces, hpieces, hrun⟩ := stage_spec hstaged files
      rw [mapM_encodeRecord hpieces]
      have hnew := congrArg (Option.map File.contents) (run_rename hother hrun)
      cases flushed with
      | false => exact ⟨rfl, rfl, hkept (stage_touches hother _ _ _)⟩
      | true =>
        cases replaced with
        | false => exact ⟨rfl, rfl, hkept (abandoned_touches hother _ _)⟩
        | true =>
          cases reopened with
          | false => exact ⟨rfl, rfl, hnew⟩
          | true => exact ⟨rfl, rfl, hnew⟩

end DurableStore

namespace Sample

/-- The journal of three records, which is to be compacted to two. -/
def full : Disk := { journal := stream [earlier, later, skipping] }

def fullFiles : StoreFiles
  | .journal => some (.settled full.journal)
  | _ => none

def writer : DurableStore := { limits := {}, nextSequence := 4, recordsWritten := 3 }

/-- The compaction, with room for some bytes in the staging file. -/
def compacting (room : ℕ) : Status × DurableStore × List (FileStep FileName UInt8) :=
  writer.compactFiles [earlier, later] { room }

end Sample

namespace DurableStore

/-- With room for both records the journal is replaced.  With room for the first and a part
of the second, both writes are made, the staging file is removed, and the store and the
journal are as before. -/
theorem compactFiles_eq_compact_sample :
    (∀ room ∈ [67, 50],
      let whole := Sample.writer.compact Sample.full [Sample.earlier, Sample.later]
        (JournalFate.outcome { room } Sample.writer.limits [Sample.earlier, Sample.later])
      (Sample.compacting room).1 = whole.1 ∧ (Sample.compacting room).2.1 = whole.2.1 ∧
        (run perform Sample.fullFiles (Sample.compacting room).2.2 .journal).map File.contents =
          some whole.2.2.journal) ∧
      (Sample.compacting 67).1.isOk = true ∧ (Sample.compacting 67).2.1.recordsWritten = 2 ∧
      (Sample.compacting 67).2.2.length = 5 ∧
      (Sample.compacting 50).1.isOk = false ∧ (Sample.compacting 50).2.1 = Sample.writer ∧
      (Sample.compacting 50).2.2.length = 4 := by
  refine ⟨fun room _ => ?_, by decide +kernel, by decide +kernel, by decide +kernel,
    by decide +kernel, by decide +kernel, by decide +kernel⟩
  rw [Sample.compacting]
  have hjournal : (Sample.fullFiles .journal).map File.contents = some Sample.full.journal := rfl
  exact compactFiles_eq_compact Sample.writer [Sample.earlier, Sample.later] { room } hjournal

variable (store : DurableStore)

/-! ## Reading a snapshot -/

theorem readSnapshot_congr {files files' : StoreFiles}
    (hsame : files .snapshot = files' .snapshot) :
    store.readSnapshot files = store.readSnapshot files' := by
  rw [readSnapshot, readSnapshot, hsame]

theorem readSnapshot_written {document : Bytes}
    (hlength : document.length ≤ store.limits.maxDocumentBytes) {files : StoreFiles}
    (hsnapshot : files .snapshot = some (.settled (snapshotPieces document).flatten)) :
    store.readSnapshot files = .ok document := by
  have hcontents : (snapshotPieces document).flatten =
      document ++ storeLe 4 (crc32Ieee document).toNat := by
    rw [snapshotPieces, List.flatten_cons, List.flatten_cons, List.flatten_nil, List.append_nil]
  have hsize : (snapshotPieces document).flatten.length = document.length + 4 := by
    rw [hcontents, List.length_append, length_storeLe]
  have hstored := (checked_iff hsize).mp ⟨document, hcontents⟩
  have hdocument : (snapshotPieces document).flatten.take document.length = document := by
    rw [hcontents, List.take_left]
  rw [hdocument] at hstored
  have hread : store.readSnapshot files = store.readDocument (snapshotPieces document).flatten := by
    rw [readSnapshot, hsnapshot]
    rfl
  rw [hread, readDocument, hsize, if_neg (by omega), if_neg (by omega)]
  dsimp only
  rw [Nat.add_sub_cancel, hstored, hdocument, if_neg (not_not.mpr rfl)]

/-! ## Every crash point -/

/-- Wherever a crash cuts a replacement short, the old contents or the new are there: as the
files stand if the process is killed, and also if the power is lost, as long as the old file
was on stable storage.  A success leaves the new contents. -/
theorem replacement_atomic (files : StoreFiles) :
    (∀ document fate,
      (∀ done, done <+: (store.writeSnapshot document fate).2 →
        ∀ after, Crashed (files .snapshot) (run perform files done) after →
          store.readSnapshot after = store.readSnapshot files ∨
            store.readSnapshot after = .ok document) ∧
      ((store.writeSnapshot document fate).1.isOk = true →
        store.readSnapshot (run perform files (store.writeSnapshot document fate).2) =
          .ok document)) ∧
    ∀ records fate,
      (∀ done, done <+: (store.compactFiles records fate).2.2 →
        ∀ after, Crashed (files .journal) (run perform files done) after →
          after .journal = files .journal ∨
            ∃ pieces, records.mapM (fun record => encodeRecord record store.limits) = .ok pieces ∧
              (after .journal).map File.contents = some pieces.flatten) ∧
      ((store.compactFiles records fate).1.isOk = true →
        ∃ pieces, records.mapM (fun record => encodeRecord record store.limits) = .ok pieces ∧
          (run perform files (store.compactFiles records fate).2.2 .journal).map File.contents =
            some pieces.flatten) := by
  refine ⟨fun document fate => ?_, fun records fate => ?_⟩
  · rcases store.writeSnapshot_spec document fate files with
      ⟨hfailed, hnothing⟩ | ⟨hlength, hreplaces⟩
    · rw [hnothing, hfailed]
      refine ⟨fun done hdone after hcrashed => Or.inl (store.readSnapshot_congr ?_),
        fun hok => absurd hok Bool.false_ne_true⟩
      exact hcrashed.eq_previous (run_of_beginning (nothing_touches _) hdone)
    · refine ⟨fun done hdone after hcrashed => ?_, fun hok =>
        store.readSnapshot_written hlength (hreplaces.published hok)⟩
      exact (hreplaces.allOrNothing.crashed hdone hcrashed).imp store.readSnapshot_congr
        (store.readSnapshot_written hlength)
  · rcases store.compactFiles_spec records fate files with
      ⟨hfailed, helsewhere⟩ | ⟨pieces, hpieces, hreplaces⟩
    · rw [hfailed]
      refine ⟨fun done hdone after hcrashed => Or.inl ?_,
        fun hok => absurd hok Bool.false_ne_true⟩
      exact hcrashed.eq_previous (run_of_beginning helsewhere hdone)
    · refine ⟨fun done hdone after hcrashed => ?_, fun hok => ⟨pieces, hpieces, ?_⟩⟩
      · refine (hreplaces.allOrNothing.crashed hdone hcrashed).imp_right ?_
        intro hnew
        exact ⟨pieces, hpieces, by rw [hnew]; rfl⟩
      · rw [hreplaces.published hok]
        rfl

end DurableStore

end SwitchFailover.Persist
