import SwitchFailover.Persist.Acceptance

/-!
# Compaction

`compact` writes a list of records to a fresh file and puts it in place of the
journal.  It checks what encoding checks and the number of records, and leaves the
sequence numbers to its caller: the new journal replays to the list exactly if the
numbers follow one another.
-/

namespace SwitchFailover.Persist

open SwitchFailover.Core Codec

/-- What the operating system does with one compaction, step by step. -/
structure CompactionFate where
  created : Bool := true
  written : Bool := true
  flushed : Bool := true
  replaced : Bool := true
  reopened : Bool := true
  deriving DecidableEq

/-- The records are encoded and written to the staging file, which then replaces the
journal.  A failure after the journal was closed leaves the store closed. -/
def DurableStore.compact (store : DurableStore) (disk : Disk) (records : List Record)
    (fate : CompactionFate) : Status × DurableStore × Disk :=
  if !store.isOpen then
    (Status.failure .closed (text "durable store is closed"), store, disk)
  else if records.length > store.limits.maxJournalRecords then
    (refuseExhausted (text "max_journal_records") records.length store.limits.maxJournalRecords,
      store, disk)
  else if !fate.created then
    (ioFailure (text "journal staging file could not be created"), store, disk)
  else
    match records.mapM fun record => encodeRecord record store.limits with
    | .error _ =>
        (ioFailure (text "journal compaction could not be written in full"), store, disk)
    | .ok pieces =>
      if !fate.written then
        (ioFailure (text "journal compaction could not be written in full"), store, disk)
      else if !fate.flushed then
        (ioFailure (text "journal could not be flushed before compaction"), store, disk)
      else if !fate.replaced then
        (ioFailure (text "journal could not be replaced atomically"),
          { store with isOpen := false }, disk)
      else
        let compacted : Disk := ⟨pieces.flatten, records.map Record.finished⟩
        if !fate.reopened then
          (ioFailure (text "journal could not be reopened after compaction"),
            { store with isOpen := false }, compacted)
        else
          (Status.success,
            { store with
              isOpen := true
              nextSequence := match records.getLast? with
                | none => 1
                | some last => last.header.seq + 1
              recordsWritten := records.length }, compacted)

section Compacted

variable {store compacted : DurableStore} {disk trimmed : Disk} {records : List Record}
  {fate : CompactionFate}

/-- What a compaction that is reported as done has done. -/
structure Compacted (store : DurableStore) (records : List Record) (compacted : DurableStore)
    (disk : Disk) : Prop where
  within : records.length ≤ store.limits.maxJournalRecords
  encoded : ∃ pieces, records.mapM (fun record => encodeRecord record store.limits) = .ok pieces ∧
    disk.journal = pieces.flatten
  limits : compacted.limits = store.limits
  written : compacted.recordsWritten = records.length
  next : compacted.nextSequence = lastSequenceOf records 0 + 1

theorem lastSequenceOf_eq (records : List Record) :
    lastSequenceOf records 0 + 1 = match records.getLast? with
      | none => 1
      | some last => last.header.seq + 1 := by
  induction records using List.reverseRecOn with
  | nil => rfl
  | append_singleton records record _ =>
    rw [List.getLast?_concat, lastSequenceOf, List.foldl_append]
    rfl

theorem DurableStore.compact_eq_success
    (hcompact : store.compact disk records fate = (Status.success, compacted, trimmed)) :
    Compacted store records compacted trimmed := by
  have hfailed {code : Code} {message : Bytes} {store : DurableStore} {disk : Disk}
      (hresult : (Status.failure code message, store, disk) =
        (Status.success, compacted, trimmed)) : False := by
    have hstatus : (Status.failure code message).isOk = true :=
      congrArg (fun result => result.1.isOk) hresult
    rw [Status.failure_not_isOk] at hstatus
    cases hstatus
  rw [compact] at hcompact
  split at hcompact
  · exact (hfailed hcompact).elim
  split at hcompact
  · exact (hfailed hcompact).elim
  rename_i hcount
  split at hcompact
  · exact (hfailed hcompact).elim
  split at hcompact
  · exact (hfailed hcompact).elim
  rename_i pieces hpieces
  split at hcompact
  · exact (hfailed hcompact).elim
  split at hcompact
  · exact (hfailed hcompact).elim
  split at hcompact
  · exact (hfailed hcompact).elim
  dsimp only at hcompact
  split at hcompact
  · exact (hfailed hcompact).elim
  · obtain ⟨-, rfl, rfl⟩ := hcompact
    exact ⟨not_lt.mp hcount, ⟨pieces, hpieces, rfl⟩, rfl, rfl, (lastSequenceOf_eq records).symm⟩

end Compacted

/-! ## Faithfulness -/

/-- What a caller hands over of a record, and what replay gives back of it. -/
def Record.contents (record : Record) : UInt16 × UInt32 × UInt64 × Bytes :=
  (record.header.kind, record.header.flags, record.header.seq, record.payload)

/-- Replay of the journal succeeds and returns records with these contents. -/
def Replays (limits : Limits) (journal : Bytes) (records : List Record) : Prop :=
  (replay limits journal).status.isOk = true ∧
    (replay limits journal).records.map Record.contents = records.map Record.contents

theorem contents_finished (records : List Record) :
    (records.map Record.finished).map Record.contents = records.map Record.contents := by
  rw [List.map_map]
  rfl

/-- Whether numbers follow one another is a matter of the contents. -/
theorem Consecutive.of_contents {left right : List Record} (hleft : Consecutive left)
    (hcontents : left.map Record.contents = right.map Record.contents) : Consecutive right := by
  have hchain (records : List Record) : Consecutive records ↔
      (records.map Record.contents).IsChain fun before after =>
        after.2.2.1 = before.2.2.1 + 1 := by
    rw [List.isChain_map]
    rfl
  rw [hchain, hcontents, ← hchain] at hleft
  exact hleft

/-- Records that replay returns without a failure are numbered one after the other. -/
theorem replay_consecutive {limits : Limits} {journal : Bytes}
    (hok : (replay limits journal).status.isOk = true) :
    Consecutive (replay limits journal).records := by
  obtain ⟨records, tail, -, hreadable, -, -, hresult⟩ :=
    replayLoop_accepted (Nat.lt_succ_self _) (Nat.zero_le _) hok
  have hrecords : (replay limits journal).records = records := by
    rw [replay, hresult, ReplayReport.ended]
    split
    · exact (foldl_gather records {}).1
    · exact (foldl_gather records {}).1
  rw [hrecords]
  exact hreadable.consecutive

theorem replays_stream {limits : Limits} {records : List Record}
    (hreadable : Readable limits records) (hroom : records.length ≤ limits.maxJournalRecords) :
    (replay limits (stream records)).status.isOk = true ∧
      (replay limits (stream records)).records = records := by
  have hspec := replay_readable_spec hreadable hroom (Or.inl rfl)
  rw [List.append_nil] at hspec
  exact ⟨hspec.1, hspec.2.1⟩

/-- A compaction that is reported as done is faithful, also for the record that is
appended next, exactly if the records it was given are numbered one after the other. -/
theorem compaction_faithful_iff {store compacted : DurableStore} {disk trimmed : Disk}
    {records : List Record} {fate : CompactionFate}
    (hcompact : store.compact disk records fate = (Status.success, compacted, trimmed)) :
    (Replays compacted.limits trimmed.journal records ∧
      ∀ appendFate kind payload flags,
        (compacted.append trimmed appendFate kind payload flags).1 = .appended →
        Replays compacted.limits
          (compacted.append trimmed appendFate kind payload flags).2.2.journal
          (records ++ [compacted.recordFor kind payload flags])) ↔
      Consecutive records := by
  have hdone := DurableStore.compact_eq_success hcompact
  obtain ⟨pieces, hencoded, hjournal⟩ := hdone.encoded
  constructor
  · rintro ⟨⟨hok, hcontents⟩, -⟩
    exact (replay_consecutive hok).of_contents hcontents
  · intro hconsecutive
    have hreadable := readable_of_encodings hencoded hconsecutive
    have hstream : trimmed.journal = stream (records.map Record.finished) :=
      hjournal.trans (flatten_encodings hencoded).1
    rw [← hdone.limits] at hreadable
    constructor
    · obtain ⟨hok, hrecords⟩ := replays_stream hreadable
        (by rw [List.length_map, hdone.limits]; exact hdone.within)
      rw [Replays, hstream]
      exact ⟨hok, by rw [hrecords, contents_finished]⟩
    · intro appendFate kind payload flags happended
      have hnext : compacted.nextSequence =
          lastSequenceOf (records.map Record.finished) 0 + 1 := by
        rw [hdone.next, lastSequenceOf, lastSequenceOf, List.foldl_map]
        rfl
      obtain ⟨hlonger, hafter⟩ := append_readable hreadable hstream hnext happended
      obtain ⟨-, encoded, hprepare, -⟩ := DurableStore.append_eq_appended happended
      have hroom := (DurableStore.bounds_of_prepare hprepare).1
      rw [hdone.written] at hroom
      obtain ⟨hok, hrecords⟩ := replays_stream hlonger (by
        rw [List.length_append, List.length_map, List.length_singleton]
        exact hroom)
      rw [Replays, hafter]
      exact ⟨hok, by rw [hrecords, List.map_append, contents_finished, List.map_append]⟩

theorem compaction_faithful_iff_sample :
    ∃ compacted trimmed,
      ({ limits := {} } : DurableStore).compact {} [Sample.earlier, Sample.later] {} =
        (Status.success, compacted, trimmed) ∧
      Replays compacted.limits trimmed.journal [Sample.earlier, Sample.later] := by
  have hcompact : ({ limits := {} } : DurableStore).compact {} [Sample.earlier, Sample.later] {} =
      (Status.success, { limits := {}, nextSequence := 3, recordsWritten := 2 },
        ⟨stream [Sample.earlier.finished, Sample.later.finished],
          [Sample.earlier.finished, Sample.later.finished]⟩) := by
    decide +kernel
  have hconsecutive : Consecutive [Sample.earlier, Sample.later] :=
    List.isChain_cons_cons.mpr ⟨rfl, List.IsChain.singleton _⟩
  exact ⟨_, _, hcompact, ((compaction_faithful_iff hcompact).mpr hconsecutive).1⟩

namespace Sample

/-- A record whose number does not follow. -/
def skipping : Record := ⟨{ kind := 3, seq := 3 }, [8, 9]⟩

end Sample

/-- A list with a gap in its numbers is compacted without complaint, and the journal can
no longer be read. -/
theorem compaction_with_gap :
    ∃ compacted trimmed,
      ({ limits := {} } : DurableStore).compact {} [Sample.earlier, Sample.skipping] {} =
        (Status.success, compacted, trimmed) ∧
      (replay compacted.limits trimmed.journal).status.isOk = false := by
  have hcompact : ({ limits := {} } : DurableStore).compact {}
      [Sample.earlier, Sample.skipping] {} =
      (Status.success, { limits := {}, nextSequence := 4, recordsWritten := 2 },
        ⟨stream [Sample.earlier.finished, Sample.skipping.finished],
          [Sample.earlier.finished, Sample.skipping.finished]⟩) := by
    decide +kernel
  refine ⟨_, _, hcompact, ?_⟩
  decide +kernel

end SwitchFailover.Persist
