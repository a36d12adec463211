import SwitchFailover.Persist.Records

/-!
# The durable store

The journal file is a byte string.  Beside it stands a history variable: the
records whose bytes reached the file in full, in order.  No function of the store
reads the history; it is what the bytes are compared with.
-/

namespace SwitchFailover.Persist

open SwitchFailover.Core Codec

structure Disk where
  journal : Bytes := []
  completed : List Record := []
  deriving DecidableEq

/-- What the operating system does with one append: it succeeds, it fails after
some bytes reached the file, or the process dies after some bytes did. -/
inductive Fate
  | done
  | fault (reached : ℕ)
  | crash (reached : ℕ)
  deriving DecidableEq

structure DurableStore where
  limits : Limits
  isOpen : Bool := true
  nextSequence : UInt64 := 1
  recordsWritten : ℕ := 0
  deriving DecidableEq

/-- The result of an append; a process that dies gets none. -/
inductive AppendResult
  | appended
  | failed (status : Status)
  | crashed

def ioFailure (what : Bytes) : Status := Status.failure .ioError what

namespace Disk

/-- The first `reached` bytes of an encoded record arrive at the end of the file. -/
def receive (disk : Disk) (record : Record) (encoded : Bytes) (reached : ℕ) : Disk where
  journal := disk.journal ++ encoded.take reached
  completed := if encoded.length ≤ reached then disk.completed ++ [record]
    else disk.completed

end Disk

namespace DurableStore

/-- The record an append writes, with the header as it stands on disk. -/
def recordFor (store : DurableStore) (kind : RecordKind) (payload : Bytes)
    (flags : UInt32 := 0) : Record :=
  let record : Record := ⟨{ kind := kind.raw, flags, seq := store.nextSequence }, payload⟩
  ⟨finishHeader record, payload⟩

/-- Everything an append checks before it touches the file. -/
def prepare (store : DurableStore) (kind : RecordKind) (payload : Bytes)
    (flags : UInt32 := 0) : Result Bytes := do
  require store.isOpen .closed (text "durable store is closed")
  requireWithin (text "max_journal_records") (store.recordsWritten + 1)
    store.limits.maxJournalRecords
  require (isValidRecordKind kind.raw) .invalid (text "record kind cannot be persisted")
  encodeRecord (store.recordFor kind payload flags) store.limits

/-- The counters after a successful append. -/
def advanced (store : DurableStore) : DurableStore :=
  { store with nextSequence := store.nextSequence + 1
               recordsWritten := store.recordsWritten + 1 }

def append (store : DurableStore) (disk : Disk) (fate : Fate) (kind : RecordKind)
    (payload : Bytes) (flags : UInt32 := 0) : AppendResult × DurableStore × Disk :=
  match store.prepare kind payload flags with
  | .error status => (.failed status, store, disk)
  | .ok encoded =>
    let record := store.recordFor kind payload flags
    match fate with
    | .done => (.appended, store.advanced, disk.receive record encoded encoded.length)
    | .fault reached =>
        (.failed (ioFailure (if reached < encoded.length
            then text "record could not be written in full"
            else text "record could not be forced to stable storage")),
          store, disk.receive record encoded reached)
    | .crash reached => (.crashed, store, disk.receive record encoded reached)

end DurableStore

/-! ## Replay -/

structure ReplayReport where
  records : List Record := []
  tornRecords : ℕ := 0
  corruptRecords : ℕ := 0
  unsupportedRecords : ℕ := 0
  recoveredBytes : ℕ := 0
  truncatedTail : Bool := false
  cleanShutdown : Bool := false
  lastSequence : UInt64 := 0
  status : Status := Status.success
  deriving DecidableEq

namespace ReplayReport

def torn (report : ReplayReport) (bytes : ℕ) : ReplayReport :=
  { report with truncatedTail := true, tornRecords := report.tornRecords + 1
                recoveredBytes := bytes }

def corrupted (report : ReplayReport) (status : Status) : ReplayReport :=
  { report with corruptRecords := report.corruptRecords + 1, status }

def unsupportedBy (report : ReplayReport) (status : Status) : ReplayReport :=
  { report with unsupportedRecords := report.unsupportedRecords + 1, status }

end ReplayReport

/-- Reads one whole record off the front of the file.  The header is decoded on
its own first; it says how many bytes the record needs. -/
inductive ScanResult
  | finished (report : ReplayReport)
  | scanned (record : Record) (rest : Bytes)

def scanRecord (limits : Limits) (report : ReplayReport) (bytes : Bytes) : ScanResult :=
  let header := bytes.take recordHeaderBytes
  if header.isEmpty then .finished report
  else if header.length < recordHeaderBytes then
    match decodeRecord header limits with
    | .tornTail _ _ => .finished (report.torn header.length)
    | .complete _ _ => .finished (report.corrupted (Status.failure .corrupt
        (text "truncated record header is not a valid prefix")))
    | .corrupt status => .finished (report.corrupted status)
    | .unsupported status => .finished (report.corrupted status)
  else
    match decodeRecord header limits with
    | .corrupt status => .finished (report.corrupted status)
    | .unsupported status => .finished (report.unsupportedBy status)
    | probe =>
      let payloadLen := match probe with
        | .tornTail (some header) _ => header.payloadLen.toNat
        | _ => 0
      let body := (bytes.drop recordHeaderBytes).take (payloadLen + 4)
      if body.length < payloadLen + 4 then
        .finished (report.torn (recordHeaderBytes + body.length))
      else
        match decodeRecord (header ++ body) limits with
        | .complete record _ => .scanned record (bytes.drop (recordHeaderBytes + payloadLen + 4))
        | .unsupported status => .finished (report.unsupportedBy status)
        | .corrupt status => .finished (report.corrupted status)
        | .tornTail _ _ => .finished { report with corruptRecords := report.corruptRecords + 1 }

/-- Admits one whole record: its sequence number must follow the one before. -/
def admitRecord (limits : Limits) (expected : Option UInt64) (report : ReplayReport)
    (record : Record) : Except ReplayReport ReplayReport :=
  let sequence := record.header.seq
  let wanted := expected.getD sequence
  if sequence ≠ wanted then
    .error (report.corrupted (if sequence < wanted
      then Status.failure .replay (text "journal sequence number regressed")
      else Status.failure .corrupt (text "journal sequence number is not contiguous")))
  else
    let report := { report with
      lastSequence := sequence
      cleanShutdown := record.header.kind == RecordKind.shutdownClean.raw }
    if limits.maxJournalRecords ≤ report.records.length then
      .error { report with
        status := refuseExhausted (text "max_journal_records") (report.records.length + 1)
          limits.maxJournalRecords }
    else .ok { report with records := report.records ++ [record] }

/-- The replay loop; every round consumes at least the bytes of a header, so the
length of the file is fuel enough. -/
def replayLoop (limits : Limits) :
    ℕ → Bytes → Option UInt64 → ReplayReport → ReplayReport
  | 0, _, _, report => report
  | fuel + 1, bytes, expected, report =>
    match scanRecord limits report bytes with
    | .finished report => report
    | .scanned record rest =>
      match admitRecord limits expected report record with
      | .error report => report
      | .ok report =>
        replayLoop limits fuel rest (some (expected.getD record.header.seq + 1)) report

def replay (limits : Limits) (journal : Bytes) : ReplayReport :=
  replayLoop limits (journal.length + 1) journal none {}

/-- Opens or creates the journal.  A torn tail is cut off the file; an integrity
failure on a complete record is never repaired or skipped. -/
def DurableStore.open (limits : Limits) (disk : Disk) :
    Result (DurableStore × Disk × ReplayReport) := do
  limits.validate
  let report := replay limits disk.journal
  require report.status.isOk report.status.code
    (text "journal contains a record that failed its integrity check")
  let journal := if report.truncatedTail
    then disk.journal.take (disk.journal.length - report.recoveredBytes) else disk.journal
  pure ({ limits, nextSequence := report.lastSequence + 1 }, { disk with journal }, report)

end SwitchFailover.Persist
