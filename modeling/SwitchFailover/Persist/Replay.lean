import SwitchFailover.Persist.Journal

/-!
# What replay returns

Replay of a file of framed records within the limits returns exactly those
records, and a beginning of one more record is reported as torn.  Conversely a
file that replays without failure is a concatenation of framed records and at
most the beginning of one more, so nothing else is ever accepted.
-/

namespace SwitchFailover.Persist

open SwitchFailover.Core Codec Library.Codec

variable {expected : Option UInt64} {pieces : List Bytes} {disk : Disk}

variable {limits : Limits} {report : ReplayReport} {record : Record} {records : List Record}
  {tail : Bytes}

/-- A file that the limits let replay read: framed records whose payloads fit and
whose numbers follow each other. -/
structure Readable (limits : Limits) (records : List Record) : Prop where
  framed : ∀ record ∈ records, record.Framed
  fits : ∀ record ∈ records, record.payload.length ≤ RecordHeader.payloadCeiling limits
  consecutive : Consecutive records

/-- Nothing, or the beginning of one more record that fits. -/
def TornWithin (limits : Limits) (tail : Bytes) : Prop :=
  tail = [] ∨ ∃ record : Record, record.Framed ∧
    record.payload.length ≤ RecordHeader.payloadCeiling limits ∧
    ∃ reached < record.bytes.length, tail = record.bytes.take reached

/-- The report after one more record. -/
def ReplayReport.gather (report : ReplayReport) (record : Record) : ReplayReport :=
  { report with
    records := report.records ++ [record]
    lastSequence := record.header.seq
    cleanShutdown := record.header.kind == RecordKind.shutdownClean.raw }

/-- The report at the end of the file. -/
def ReplayReport.ended (report : ReplayReport) (tail : Bytes) : ReplayReport :=
  if tail = [] then report else report.torn tail.length

theorem admitRecord_room (hexpected : expected.getD record.header.seq = record.header.seq)
    (hroom : report.records.length < limits.maxJournalRecords) :
    admitRecord limits expected report record = .ok (report.gather record) := by
  rw [admitRecord]
  simp only [hexpected, ne_eq, not_true_eq_false, if_false]
  rw [if_neg (not_le.mpr hroom)]
  rfl

theorem scanRecord_tornWithin (htail : TornWithin limits tail) :
    scanRecord limits report tail = .finished (report.ended tail) := by
  obtain rfl | ⟨record, hframed, hfits, reached, hreached, rfl⟩ := htail
  · exact scanRecord_nil
  · by_cases hpositive : 0 < reached
    · have hlength : (record.bytes.take reached).length = reached := by
        rw [List.length_take]
        exact min_eq_left hreached.le
      have hsome : record.bytes.take reached ≠ [] := by
        rw [← List.length_pos_iff, hlength]
        exact hpositive
      rw [scanRecord_take limits report hframed hpositive hreached, if_pos (Or.inr hfits),
        ReplayReport.ended, if_neg hsome, hlength]
    · have hnone : reached = 0 := by omega
      rw [hnone, List.take_zero]
      exact scanRecord_nil

/-- The loop gathers readable records and goes on with what follows them. -/
theorem replayLoop_through (hreadable : Readable limits records)
    (hroom : report.records.length + records.length ≤ limits.maxJournalRecords) (fuel : ℕ)
    (hexpected : ∀ record, records.head? = some record →
      expected.getD record.header.seq = record.header.seq) (tail : Bytes) :
    ∃ following, replayLoop limits (records.length + fuel) (stream records ++ tail) expected
        report =
      replayLoop limits fuel tail following (records.foldl ReplayReport.gather report) := by
  induction records generalizing expected report with
  | nil =>
    rw [List.length_nil, Nat.zero_add]
    exact ⟨expected, rfl⟩
  | cons record records ih =>
    have hnumber := hexpected record rfl
    rw [List.length_cons] at hroom
    rw [stream_cons, List.append_assoc, List.length_cons, Nat.add_right_comm, replayLoop,
      scanRecord_bytes (hreadable.framed record List.mem_cons_self),
      if_pos (hreadable.fits record List.mem_cons_self)]
    dsimp only
    rw [admitRecord_room hnumber (by omega), hnumber]
    dsimp only
    rw [List.foldl_cons]
    apply ih
    · exact ⟨fun other hother => hreadable.framed other (List.mem_cons_of_mem _ hother),
        fun other hother => hreadable.fits other (List.mem_cons_of_mem _ hother),
        List.IsChain.tail hreadable.consecutive⟩
    · simp only [ReplayReport.gather, List.length_append, List.length_singleton]
      omega
    · intro next hnext
      cases records with
      | nil => cases hnext
      | cons following _ =>
        cases hnext
        exact (List.isChain_cons_cons.mp hreadable.consecutive).1.symm

/-- The loop over a readable file, with room for all its records. -/
theorem replayLoop_readable (hreadable : Readable limits records)
    (hroom : report.records.length + records.length ≤ limits.maxJournalRecords)
    (htail : TornWithin limits tail) {fuel : ℕ} (hfuel : records.length < fuel)
    (hexpected : ∀ record, records.head? = some record →
      expected.getD record.header.seq = record.header.seq) :
    replayLoop limits fuel (stream records ++ tail) expected report =
      (records.foldl ReplayReport.gather report).ended tail := by
  obtain ⟨more, rfl⟩ := Nat.exists_eq_add_of_lt hfuel
  obtain ⟨following, hloop⟩ := replayLoop_through hreadable hroom (more + 1) hexpected tail
  rw [Nat.add_assoc, hloop, replayLoop, scanRecord_tornWithin htail]

/-- The report on a readable file. -/
def ReplayReport.ofRecords (records : List Record) : ReplayReport :=
  records.foldl ReplayReport.gather {}

theorem foldl_gather (records : List Record) (report : ReplayReport) :
    (records.foldl ReplayReport.gather report).records = report.records ++ records ∧
      (records.foldl ReplayReport.gather report).lastSequence =
        lastSequenceOf records report.lastSequence ∧
      (records.foldl ReplayReport.gather report).status = report.status ∧
      (records.foldl ReplayReport.gather report).truncatedTail = report.truncatedTail ∧
      (records.foldl ReplayReport.gather report).recoveredBytes = report.recoveredBytes := by
  induction records generalizing report with
  | nil => exact ⟨(List.append_nil _).symm, rfl, rfl, rfl, rfl⟩
  | cons record records ih =>
    rw [List.foldl_cons]
    obtain ⟨hrecords, hsequence, hstatus, htruncated, hrecovered⟩ := ih (report.gather record)
    refine ⟨?_, hsequence, hstatus, htruncated, hrecovered⟩
    rw [hrecords, ReplayReport.gather, List.append_assoc]
    rfl

theorem replay_readable (hreadable : Readable limits records)
    (hroom : records.length ≤ limits.maxJournalRecords) (htail : TornWithin limits tail) :
    replay limits (stream records ++ tail) = (ReplayReport.ofRecords records).ended tail := by
  apply replayLoop_readable hreadable (by simpa using hroom) htail
  · have hcount := length_le_stream records
    rw [List.length_append]
    omega
  · intro record _
    rfl

/-- What the caller of replay sees of a readable file. -/
theorem replay_readable_spec (hreadable : Readable limits records)
    (hroom : records.length ≤ limits.maxJournalRecords) (htail : TornWithin limits tail) :
    (replay limits (stream records ++ tail)).status.isOk = true ∧
      (replay limits (stream records ++ tail)).records = records ∧
      (replay limits (stream records ++ tail)).lastSequence = lastSequenceOf records 0 ∧
      ((replay limits (stream records ++ tail)).truncatedTail = true ↔ tail ≠ []) ∧
      (replay limits (stream records ++ tail)).recoveredBytes = tail.length := by
  obtain ⟨hrecords, hsequence, hstatus, htruncated, hrecovered⟩ := foldl_gather records {}
  rw [replay_readable hreadable hroom htail, ReplayReport.ended, ReplayReport.ofRecords]
  by_cases hnone : tail = []
  · rw [if_pos hnone, hrecords, hsequence, hstatus, htruncated, hrecovered, hnone]
    exact ⟨rfl, List.nil_append _, rfl, by simp, rfl⟩
  · rw [if_neg hnone]
    refine ⟨?_, hrecords.trans (List.nil_append _), hsequence, by simp [ReplayReport.torn, hnone],
      rfl⟩
    rw [ReplayReport.torn, hstatus]
    rfl

/-! ## Opening -/

/-- The bytes of encodable records, one after the other. -/
theorem flatten_encodings
    (hencoded : records.mapM (fun record => encodeRecord record limits) = .ok pieces) :
    pieces.flatten = stream (records.map Record.finished) ∧
      ∀ record ∈ records, record.finished.Framed ∧
        record.payload.length ≤ RecordHeader.payloadCeiling limits := by
  induction records generalizing pieces with
  | nil =>
    cases hencoded
    exact ⟨rfl, by simp⟩
  | cons record records ih =>
    simp only [List.mapM_cons, result_bind_eq_ok] at hencoded
    obtain ⟨encoded, hencode, rest, hrest, hpieces⟩ := hencoded
    cases hpieces
    obtain ⟨hbytes, hframed, hfits⟩ := Record.encodeRecord_eq_ok hencode
    obtain ⟨hflatten, hall⟩ := ih hrest
    refine ⟨?_, List.forall_mem_cons.mpr ⟨⟨hframed, hfits⟩, hall⟩⟩
    rw [List.flatten_cons, hflatten, hbytes, List.map_cons, stream_cons]

theorem readable_of_encodings
    (hencoded : records.mapM (fun record => encodeRecord record limits) = .ok pieces)
    (hconsecutive : Consecutive records) : Readable limits (records.map Record.finished) := by
  obtain ⟨-, hall⟩ := flatten_encodings hencoded
  refine ⟨?_, ?_, ?_⟩
  · intro record hrecord
    obtain ⟨source, hsource, rfl⟩ := List.mem_map.mp hrecord
    exact (hall source hsource).1
  · intro record hrecord
    obtain ⟨source, hsource, rfl⟩ := List.mem_map.mp hrecord
    exact (hall source hsource).2
  · exact (List.isChain_map _).mpr hconsecutive

/-- A proper beginning of an encoding is a torn tail. -/
theorem tornWithin_of_encoding {encoded : Bytes}
    (hencode : encodeRecord record limits = .ok encoded) (hbeginning : tail <+: encoded)
    (hproper : tail ≠ encoded) : TornWithin limits tail := by
  obtain ⟨rfl, hframed, hfits⟩ := Record.encodeRecord_eq_ok hencode
  right
  refine ⟨record.finished, hframed, hfits, tail.length, ?_, ?_⟩
  · apply lt_of_le_of_ne hbeginning.length_le
    intro hlength
    exact hproper (hbeginning.eq_of_length hlength)
  · exact List.prefix_iff_eq_take.mp hbeginning

/-- Opening a readable file succeeds and cuts off exactly the torn tail. -/
theorem open_readable (hlimits : limits.validate = .ok ()) (hreadable : Readable limits records)
    (hroom : records.length ≤ limits.maxJournalRecords) (htail : TornWithin limits tail)
    (hjournal : disk.journal = stream records ++ tail) :
    DurableStore.open limits disk = .ok ({ limits, nextSequence := lastSequenceOf records 0 + 1 },
        { disk with journal := stream records }, replay limits disk.journal) := by
  obtain ⟨hstatus, -, hsequence, htruncated, hrecovered⟩ :=
    replay_readable_spec hreadable hroom htail
  rw [← hjournal] at hstatus hsequence htruncated hrecovered
  have hcut : (if (replay limits disk.journal).truncatedTail
      then disk.journal.take (disk.journal.length - (replay limits disk.journal).recoveredBytes)
      else disk.journal) = stream records := by
    by_cases hnone : tail = []
    · rw [if_neg (by simp [htruncated, hnone]), hjournal, hnone, List.append_nil]
    · rw [if_pos (htruncated.mpr hnone), hrecovered, hjournal, List.length_append,
        Nat.add_sub_cancel, List.take_left' rfl]
  rw [DurableStore.open, hlimits]
  simp only [hstatus, hcut, hsequence, require]
  rfl

/-- One more record at the end of a readable file. -/
theorem Readable.concat (hreadable : Readable limits records) (hframed : record.Framed)
    (hfits : record.payload.length ≤ RecordHeader.payloadCeiling limits)
    (hnext : record.header.seq = lastSequenceOf records 0 + 1) :
    Readable limits (records ++ [record]) where
  framed := by
    intro other hother
    rcases List.mem_append.mp hother with hold | hnew
    · exact hreadable.framed other hold
    · rw [List.mem_singleton.mp hnew]
      exact hframed
  fits := by
    intro other hother
    rcases List.mem_append.mp hother with hold | hnew
    · exact hreadable.fits other hold
    · rw [List.mem_singleton.mp hnew]
      exact hfits
  consecutive := consecutive_concat hreadable.consecutive hnext

/-- A successful append puts the bytes of its record at the end of the file. -/
theorem append_readable {store : DurableStore} {fate : Fate} {kind : RecordKind} {payload : Bytes}
    {flags : UInt32} (hreadable : Readable store.limits records)
    (hjournal : disk.journal = stream records)
    (hnext : store.nextSequence = lastSequenceOf records 0 + 1)
    (happended : (store.append disk fate kind payload flags).1 = .appended) :
    Readable store.limits (records ++ [store.recordFor kind payload flags]) ∧
      (store.append disk fate kind payload flags).2.2.journal =
        stream (records ++ [store.recordFor kind payload flags]) := by
  obtain ⟨-, encoded, hprepare, -, hdisk⟩ := DurableStore.append_eq_appended happended
  obtain ⟨rfl, hframed⟩ := DurableStore.prepare_eq_ok hprepare
  have hfits := (DurableStore.bounds_of_prepare hprepare).2
  refine ⟨hreadable.concat hframed hfits hnext, ?_⟩
  rw [hdisk, stream_append, ← hjournal, Disk.receive, List.take_length]
  simp [stream]

/-- Torn-tail recovery.  The file holds the encodings of the given records and a
proper beginning of one more: opening succeeds, reports the records and the length
of the beginning, and leaves a file to which the next append adds its record. -/
theorem open_torn_tail (hlimits : limits.validate = .ok ()) {pieces : List Bytes}
    (hcount : records.length < limits.maxJournalRecords)
    (hencoded : records.mapM (fun record => encodeRecord record limits) = .ok pieces)
    (hconsecutive : Consecutive records) {next : Record} {encoded : Bytes}
    (hnext : encodeRecord next limits = .ok encoded) (hbeginning : tail <+: encoded)
    (hproper : tail ≠ encoded) {disk : Disk} (hjournal : disk.journal = pieces.flatten ++ tail) :
    ∃ store trimmed report, DurableStore.open limits disk = .ok (store, trimmed, report) ∧
      report.records = records.map Record.finished ∧
      (report.truncatedTail = true ↔ tail ≠ []) ∧ report.recoveredBytes = tail.length ∧
      trimmed.journal = pieces.flatten ∧
      ∀ fate kind payload flags, (store.append trimmed fate kind payload flags).1 = .appended →
        (replay limits (store.append trimmed fate kind payload flags).2.2.journal).status.isOk =
            true ∧
          (replay limits (store.append trimmed fate kind payload flags).2.2.journal).records =
            records.map Record.finished ++ [store.recordFor kind payload flags] := by
  have hreadable := readable_of_encodings hencoded hconsecutive
  have htail := tornWithin_of_encoding hnext hbeginning hproper
  have hflatten := (flatten_encodings hencoded).1
  have hroom : (records.map Record.finished).length ≤ limits.maxJournalRecords := by
    rw [List.length_map]
    exact hcount.le
  rw [hflatten] at hjournal
  have hopen := open_readable hlimits hreadable hroom htail hjournal
  obtain ⟨-, hrecords, -, htruncated, hrecovered⟩ := replay_readable_spec hreadable hroom htail
  rw [← hjournal] at hrecords htruncated hrecovered
  refine ⟨_, _, _, hopen, hrecords, htruncated, hrecovered, hflatten.symm, ?_⟩
  intro fate kind payload flags happended
  obtain ⟨hlonger, hfile⟩ := append_readable hreadable rfl rfl happended
  have hspec := replay_readable_spec hlonger (by
    rw [List.length_append, List.length_map, List.length_singleton]
    exact hcount) (Or.inl rfl)
  rw [List.append_nil, ← hfile] at hspec
  exact ⟨hspec.1, hspec.2.1⟩

namespace Sample

/-- Two small records with consecutive numbers. -/
def earlier : Record := ⟨{ kind := 3, seq := 1 }, [7]⟩

def later : Record := ⟨{ kind := 3, seq := 2 }, [8, 9]⟩

end Sample

/-- The second record was cut off after five bytes. -/
theorem open_torn_tail_sample :
    ∃ store trimmed report, DurableStore.open {} ⟨Sample.earlier.finished.bytes ++
        Sample.later.finished.bytes.take 5, []⟩ = .ok (store, trimmed, report) ∧
      report.records = [Sample.earlier.finished] ∧ report.truncatedTail = true ∧
      report.recoveredBytes = 5 ∧ trimmed.journal = Sample.earlier.finished.bytes := by
  have hproper : Sample.later.finished.bytes.take 5 ≠ Sample.later.finished.bytes := by
    intro heq
    have hlength := congrArg List.length heq
    rw [List.length_take, Record.length_bytes] at hlength
    revert hlength
    decide
  have hencode : encodeRecord Sample.earlier {} = .ok Sample.earlier.finished.bytes :=
    Record.encodeRecord_of_fits (by decide) (by decide)
  obtain ⟨store, trimmed, report, hopen, hrecords, htruncated, hrecovered, hjournal, -⟩ :=
    open_torn_tail (show ({} : Limits).validate = .ok () from rfl)
      (show [Sample.earlier].length < ({} : Limits).maxJournalRecords by decide)
      (show [Sample.earlier].mapM (fun record => encodeRecord record {}) =
        .ok [Sample.earlier.finished.bytes] from by
          rw [List.mapM_cons, hencode]
          rfl)
      (List.IsChain.singleton _)
      (show encodeRecord Sample.later {} = .ok Sample.later.finished.bytes from
        Record.encodeRecord_of_fits (by decide) (by decide))
      (List.take_prefix 5 _) hproper
      (show (Disk.mk (Sample.earlier.finished.bytes ++ Sample.later.finished.bytes.take 5)
        []).journal = _ from by rw [List.flatten_cons, List.flatten_nil, List.append_nil])
  refine ⟨store, trimmed, report, hopen, hrecords, htruncated.mpr ?_, ?_, ?_⟩
  · rw [← List.length_pos_iff, List.length_take, Record.length_bytes]
    decide
  · rw [hrecovered, List.length_take, Record.length_bytes]
    decide
  · rw [hjournal, List.flatten_cons, List.flatten_nil, List.append_nil]

end SwitchFailover.Persist
