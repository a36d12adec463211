import SwitchFailover.Persist.Framing
import SwitchFailover.Persist.Store

/-!
# The journal and its records

A file is compared with the history of records that were written to it in full.
At rest it holds exactly those records and at most the beginning of one more, so
that opening it gives the history back.
-/

namespace SwitchFailover.Persist

open SwitchFailover.Core Codec Library.Codec

variable {tail : Bytes} {expected : Option UInt64} {records : List Record} {trimmed : Disk}
  {opening : ReplayReport}

variable {store : DurableStore} {disk : Disk} {fate : Fate} {kind : RecordKind} {payload : Bytes}
  {flags : UInt32} {record : Record} {next : UInt64} {encoded : Bytes}

namespace DurableStore

/-- Only an append whose bytes all arrived is reported as done. -/
theorem append_eq_appended (happended : (store.append disk fate kind payload flags).1 = .appended) :
    fate = .done ∧ ∃ encoded, store.prepare kind payload flags = .ok encoded ∧
      (store.append disk fate kind payload flags).2.1 = store.advanced ∧
      (store.append disk fate kind payload flags).2.2 =
        disk.receive (store.recordFor kind payload flags) encoded encoded.length := by
  rw [append] at happended ⊢
  cases hprepare : store.prepare kind payload flags with
  | error status => simp [hprepare] at happended
  | ok encoded =>
    cases fate with
    | done => exact ⟨rfl, encoded, rfl, rfl, rfl⟩
    | fault reached => simp [hprepare] at happended
    | crash reached => simp [hprepare] at happended

end DurableStore

@[simp]
theorem recordFor_kind (store : DurableStore) (kind : RecordKind) (payload : Bytes)
    (flags : UInt32) :
    (store.recordFor kind payload flags).header.kind = kind.raw := rfl

@[simp]
theorem recordFor_payload (store : DurableStore) (kind : RecordKind) (payload : Bytes)
    (flags : UInt32) :
    (store.recordFor kind payload flags).payload = payload := rfl

theorem completed_receive_full (disk : Disk) (record : Record) (encoded : Bytes) :
    (disk.receive record encoded encoded.length).completed = disk.completed ++ [record] := by
  simp [Disk.receive]

/-- The history of completed records only grows. -/
theorem completed_subset_append :
    disk.completed ⊆ (store.append disk fate kind payload flags).2.2.completed := by
  rw [DurableStore.append]
  cases store.prepare kind payload flags with
  | error status => exact List.Subset.refl _
  | ok encoded =>
    have hreceive : ∀ reached, disk.completed ⊆
        (disk.receive (store.recordFor kind payload flags) encoded reached).completed := by
      intro reached record hrecord
      simp only [Disk.receive]
      split
      · exact List.mem_append_left _ hrecord
      · exact hrecord
    cases fate with
    | done => exact hreceive _
    | fault reached => exact hreceive _
    | crash reached => exact hreceive _

/-! ## Scanning -/

/-- What a process that died in the middle of an append leaves behind. -/
def Torn (tail : Bytes) : Prop :=
  ∃ record : Record, record.Framed ∧ ∃ reached < record.bytes.length,
    tail = record.bytes.take reached

variable {limits : Limits} {report : ReplayReport}

theorem scanRecord_nil : scanRecord limits report [] = .finished report := rfl

/-- The header at the front of the file decides whether the record is read. -/
theorem decode_header (hframed : record.Framed) :
    decodeRecord record.header.encode limits =
      if record.payload.length ≤ RecordHeader.payloadCeiling limits
      then .tornTail (some record.header) recordHeaderBytes
      else .corrupt Record.oversized := by
  rw [← List.append_nil record.header.encode, hframed.decode, List.append_nil,
    hframed.decodeBody_torn]
  · rw [RecordHeader.length_encode]
  · rw [RecordHeader.length_encode, record.length_bytes]
    omega

theorem scanRecord_bytes (hframed : record.Framed) (rest : Bytes) :
    scanRecord limits report (record.bytes ++ rest) =
      if record.payload.length ≤ RecordHeader.payloadCeiling limits
      then .scanned record rest
      else .finished (report.corrupted Record.oversized) := by
  have hheader : (record.bytes ++ rest).take recordHeaderBytes = record.header.encode := by
    rw [Record.bytes, List.append_assoc, List.append_assoc,
      List.take_left' (RecordHeader.length_encode _)]
  have hbody : ((record.bytes ++ rest).drop recordHeaderBytes).take (record.payload.length + 4) =
      record.payload ++ storeLe 4 (crc32Ieee record.payload).toNat := by
    rw [Record.bytes, List.append_assoc, List.append_assoc,
      List.drop_left' (RecordHeader.length_encode _), ← List.append_assoc,
      List.take_left' (by simp)]
  have hrest : (record.bytes ++ rest).drop (recordHeaderBytes + record.payload.length + 4) = rest :=
    List.drop_left' record.length_bytes
  rw [scanRecord]
  simp only [hheader, RecordHeader.encode_isEmpty, RecordHeader.length_encode, lt_irrefl, if_false,
    decode_header hframed, Bool.false_eq_true]
  by_cases hfits : record.payload.length ≤ RecordHeader.payloadCeiling limits
  · have hwhole : record.header.encode ++ (record.payload ++
        storeLe 4 (crc32Ieee record.payload).toNat) = record.bytes := by
      rw [Record.bytes, List.append_assoc]
    have hdecode : decodeRecord record.bytes limits =
        .complete record (recordHeaderBytes + record.payload.length + 4) := by
      rw [← hwhole, hframed.decode, if_pos hfits, hwhole, hframed.decodeBody_bytes]
    simp only [hfits, if_true, hframed.payloadLen, hbody, hwhole, hdecode, hrest]
    simp
  · simp [hfits]

/-- The beginning of a record ends the scan.  It is reported as torn, with its
length, unless its header is there and declares more than the limits allow. -/
theorem scanRecord_take (limits : Limits) (report : ReplayReport) (hframed : record.Framed)
    {reached : ℕ} (hpositive : 0 < reached) (hreached : reached < record.bytes.length) :
    scanRecord limits report (record.bytes.take reached) =
      if reached < recordHeaderBytes ∨ record.payload.length ≤ RecordHeader.payloadCeiling limits
      then .finished (report.torn reached)
      else .finished (report.corrupted Record.oversized) := by
  have hlength : (record.bytes.take reached).length = reached := by
    rw [List.length_take]
    exact min_eq_left hreached.le
  have htail : record.bytes.take reached ≠ [] := by
    rw [← List.length_pos_iff, hlength]
    exact hpositive
  rw [scanRecord]
  by_cases hshort : reached < recordHeaderBytes
  · -- not even the header arrived
    have hheader : (record.bytes.take reached).take recordHeaderBytes = record.bytes.take reached :=
      List.take_of_length_le (by rw [hlength]; exact hshort.le)
    have hmagic : ((record.bytes.take reached).take 4).isPrefixOf magicBytes = true := by
      rw [List.isPrefixOf_iff_prefix, List.take_take, ← hframed.take_four (record.payload ++
        storeLe 4 (crc32Ieee record.payload).toNat), ← List.append_assoc]
      exact List.take_prefix_take_left (min_le_left 4 reached)
    have hdecode : decodeRecord (record.bytes.take reached) limits = .tornTail none reached := by
      rw [decodeRecord, if_neg (by simpa using htail), hmagic, hlength, if_pos hshort]
      rfl
    simp only [hheader, hdecode, hlength, hshort, if_true, true_or]
    rw [if_neg (by simpa using htail)]
  · have hheader : (record.bytes.take reached).take recordHeaderBytes = record.header.encode := by
      rw [List.take_take, min_eq_left (not_lt.mp hshort), Record.bytes, List.append_assoc,
        List.take_left' (RecordHeader.length_encode _)]
    simp only [hheader, RecordHeader.encode_isEmpty, RecordHeader.length_encode, lt_irrefl,
      if_false, decode_header hframed, Bool.false_eq_true, hshort, false_or]
    by_cases hfits : record.payload.length ≤ RecordHeader.payloadCeiling limits
    · have hbody : (((record.bytes.take reached).drop recordHeaderBytes).take
          (record.payload.length + 4)).length = reached - recordHeaderBytes := by
        rw [List.length_take, List.length_drop, hlength]
        rw [record.length_bytes] at hreached
        omega
      rw [record.length_bytes] at hreached
      simp only [hfits, if_true, hframed.payloadLen, hbody]
      rw [if_pos (by omega)]
      congr 2
      omega
    · simp [hfits]

theorem scanRecord_torn (limits : Limits) (report : ReplayReport) (htorn : Torn tail)
    (htail : tail ≠ []) :
    scanRecord limits report tail = .finished (report.torn tail.length) ∨
      scanRecord limits report tail = .finished (report.corrupted Record.oversized) := by
  obtain ⟨record, hframed, reached, hreached, rfl⟩ := htorn
  have hlength : (record.bytes.take reached).length = reached := by
    rw [List.length_take]
    exact min_eq_left hreached.le
  rw [← List.length_pos_iff, hlength] at htail
  rw [scanRecord_take limits report hframed htail hreached, hlength]
  split
  · exact Or.inl rfl
  · exact Or.inr rfl

/-! ## Replay -/

/-- The file that holds exactly the given records. -/
def stream (records : List Record) : Bytes := records.flatMap Record.bytes

theorem stream_cons (record : Record) (records : List Record) :
    stream (record :: records) = record.bytes ++ stream records := List.flatMap_cons

theorem stream_append (left right : List Record) :
    stream (left ++ right) = stream left ++ stream right := List.flatMap_append

/-- No record is empty, so the length of the file bounds their number. -/
theorem length_le_stream (records : List Record) : records.length ≤ (stream records).length := by
  induction records with
  | nil => exact Nat.zero_le _
  | cons record records ih =>
    rw [stream_cons, List.length_append, record.length_bytes, List.length_cons]
    omega

/-- Sequence numbers follow each other; they wrap. -/
def Consecutive (records : List Record) : Prop :=
  records.IsChain fun left right => right.header.seq = left.header.seq + 1

/-- The number of the last record, or of the one before all of them. -/
def lastSequenceOf (records : List Record) (before : UInt64) : UInt64 :=
  records.foldl (fun _ record => record.header.seq) before

theorem admitRecord_expected (limits : Limits) (report : ReplayReport)
    (hexpected : expected.getD record.header.seq = record.header.seq) :
    (∃ exhausted, exhausted.status.isOk = false ∧
      admitRecord limits expected report record = .error exhausted) ∨
    admitRecord limits expected report record = .ok { report with
      records := report.records ++ [record]
      lastSequence := record.header.seq
      cleanShutdown := record.header.kind == RecordKind.shutdownClean.raw } := by
  rw [admitRecord]
  simp only [hexpected, ne_eq, not_true_eq_false, if_false]
  split
  · left
    exact ⟨_, Status.failure_not_isOk _ _, rfl⟩
  · right
    rfl

/-- The part of a successful report that depends on the tail of the file. -/
structure ReplayReport.Covers (report start : ReplayReport) (records : List Record)
    (tail : Bytes) : Prop where
  gathered : report.records = start.records ++ records
  lastSequence : report.lastSequence = lastSequenceOf records start.lastSequence
  whole : tail = [] → report.truncatedTail = start.truncatedTail
  torn : tail ≠ [] → report.truncatedTail = true ∧ report.recoveredBytes = tail.length

/-- The loop over a file of framed records and a torn tail.  The expected number
is that of the first record, so no record is refused for its number; a bound may
stop the loop, but then the report carries a failure. -/
theorem replayLoop_stream (hframed : ∀ record ∈ records, record.Framed)
    (hconsecutive : Consecutive records) (htorn : tail = [] ∨ Torn tail) {fuel : ℕ}
    (hfuel : records.length < fuel) (hexpected : ∀ record, records.head? = some record →
      expected.getD record.header.seq = record.header.seq)
    (hok : (replayLoop limits fuel (stream records ++ tail) expected report).status.isOk = true) :
    (replayLoop limits fuel (stream records ++ tail) expected report).Covers report records
      tail := by
  induction records generalizing fuel expected report with
  | nil =>
    cases fuel with
    | zero => exact absurd hfuel (Nat.lt_irrefl 0)
    | succ fuel =>
      rw [show stream [] = [] from rfl, List.nil_append, replayLoop] at hok ⊢
      by_cases htail : tail = []
      · subst htail
        rw [scanRecord_nil]
        exact ⟨by simp, rfl, fun _ => rfl, fun hsome => absurd rfl hsome⟩
      · rcases scanRecord_torn limits report (htorn.resolve_left htail) htail with
          hscan | hscan
        · rw [hscan]
          exact ⟨by simp [ReplayReport.torn], rfl, fun hnil => absurd hnil htail,
            fun _ => ⟨rfl, rfl⟩⟩
        · rw [hscan] at hok
          exact absurd hok (by rw [Bool.not_eq_true]; exact Status.failure_not_isOk _ _)
  | cons record records ih =>
    cases fuel with
    | zero => exact absurd hfuel (Nat.not_lt_zero _)
    | succ fuel =>
      have hrecord := hframed record List.mem_cons_self
      have hnumber := hexpected record rfl
      rw [stream_cons, List.append_assoc, replayLoop, scanRecord_bytes hrecord] at hok ⊢
      by_cases hfits : record.payload.length ≤ RecordHeader.payloadCeiling limits
      · rw [if_pos hfits] at hok ⊢
        dsimp only at hok ⊢
        rcases admitRecord_expected limits report hnumber with
          ⟨exhausted, hfailed, hnext⟩ | hnext
        · rw [hnext] at hok
          dsimp only at hok
          rw [hfailed] at hok
          cases hok
        · rw [hnext] at hok ⊢
          dsimp only at hok ⊢
          rw [hnumber] at hok ⊢
          have hrest := ih (fun other hother => hframed other (List.mem_cons_of_mem _ hother))
            (List.IsChain.tail hconsecutive) (Nat.lt_of_succ_lt_succ hfuel) (by
              intro next hnext
              cases records with
              | nil => cases hnext
              | cons following _ =>
                cases hnext
                exact (List.isChain_cons_cons.mp hconsecutive).1.symm) hok
          exact ⟨by rw [hrest.gathered]; simp, hrest.lastSequence, hrest.whole, hrest.torn⟩
      · rw [if_neg hfits] at hok
        exact absurd hok (by rw [Bool.not_eq_true]; exact Status.failure_not_isOk _ _)

/-! ## The file and its history -/

/-- An append that fails without a crash leaves the file as it was. -/
def Fate.Orderly : Fate → Prop
  | .fault reached => reached = 0
  | _ => True

namespace Disk

/-- The history is one the store can have written. -/
structure Recorded (disk : Disk) : Prop where
  framed : ∀ record ∈ disk.completed, record.Framed
  consecutive : Consecutive disk.completed

/-- A file at rest holds the completed records, and perhaps the beginning of one
more. -/
structure Resting (disk : Disk) : Prop extends disk.Recorded where
  journal : ∃ tail, (tail = [] ∨ Torn tail) ∧ disk.journal = stream disk.completed ++ tail

/-- A file that is being appended to holds the completed records, and the store
knows the next number. -/
structure Aligned (disk : Disk) (next : UInt64) : Prop extends disk.Recorded where
  journal : disk.journal = stream disk.completed
  next : next = lastSequenceOf disk.completed 0 + 1

theorem Aligned.resting (haligned : disk.Aligned next) : disk.Resting :=
  ⟨haligned.toRecorded, [], Or.inl rfl, by rw [List.append_nil, haligned.journal]⟩

theorem resting_empty : Resting {} where
  framed := by simp
  consecutive := List.IsChain.nil
  journal := ⟨[], Or.inl rfl, rfl⟩

end Disk

theorem consecutive_concat {before : UInt64} (hconsecutive : Consecutive records)
    (hnext : record.header.seq = lastSequenceOf records before + 1) :
    Consecutive (records ++ [record]) := by
  induction records generalizing before with
  | nil => exact List.IsChain.singleton record
  | cons first rest ih =>
    have hrest := ih (List.IsChain.tail hconsecutive) hnext
    cases rest with
    | nil => exact List.isChain_pair.mpr hnext
    | cons second rest =>
      exact List.isChain_cons_cons.mpr ⟨(List.isChain_cons_cons.mp hconsecutive).1, hrest⟩

/-- When opening returns a store, and what it returns then. -/
theorem open_eq_ok {limits : Limits} {opened : DurableStore × Disk × ReplayReport} :
    DurableStore.open limits disk = .ok opened ↔
      limits.validate = .ok () ∧ (replay limits disk.journal).status.isOk = true ∧
        opened =
          ({ limits, nextSequence := (replay limits disk.journal).lastSequence + 1 },
            { disk with
              journal := if (replay limits disk.journal).truncatedTail
                then disk.journal.take
                  (disk.journal.length - (replay limits disk.journal).recoveredBytes)
                else disk.journal },
            replay limits disk.journal) := by
  rw [DurableStore.open, result_bind_eq_ok]
  simp only [result_bind_eq_ok, require_eq_ok, exists_const]
  constructor
  · rintro ⟨_, hlimits, hok, hresult⟩
    cases hresult
    exact ⟨hlimits, hok, rfl⟩
  · rintro ⟨hlimits, hok, rfl⟩
    exact ⟨(), hlimits, hok, rfl⟩

/-- Opening cuts off a torn tail, which is no part of the history. -/
theorem open_completed {limits : Limits}
    (hopen : DurableStore.open limits disk = .ok (store, trimmed, opening)) :
    trimmed.completed = disk.completed := by
  obtain ⟨-, -, hresult⟩ := open_eq_ok.mp hopen
  cases hresult
  rfl

/-- Opening over a file at rest: replay returns the history, and what it cannot
use is cut off. -/
theorem open_resting {limits : Limits} (hresting : disk.Resting)
    (hopen : DurableStore.open limits disk = .ok (store, trimmed, opening)) :
    opening.records = disk.completed ∧ trimmed.completed = disk.completed ∧
      trimmed.Aligned store.nextSequence := by
  obtain ⟨tail, htorn, hjournal⟩ := hresting.journal
  obtain ⟨-, hok, hresult⟩ := open_eq_ok.mp hopen
  cases hresult
  have hcovers : (replay limits disk.journal).Covers {} disk.completed tail := by
    rw [replay, hjournal] at hok ⊢
    apply replayLoop_stream hresting.framed hresting.consecutive htorn _ _ hok
    · have hcount := length_le_stream disk.completed
      rw [List.length_append]
      omega
    · intro record _
      rfl
  refine ⟨by simpa using hcovers.gathered, rfl, ⟨hresting.framed, hresting.consecutive⟩, ?_, ?_⟩
  · by_cases htail : tail = []
    · rw [if_neg (by rw [hcovers.whole htail]; decide), hjournal, htail, List.append_nil]
    · obtain ⟨htruncated, hrecovered⟩ := hcovers.torn htail
      rw [if_pos htruncated, hrecovered, hjournal, List.length_append, Nat.add_sub_cancel,
        List.take_left' rfl]
  · change (replay limits disk.journal).lastSequence + 1 = _
    rw [hcovers.lastSequence]

/-! ## Appending -/

namespace DurableStore

/-- What the checks before an append establish: the bytes to be written are those
of the record, and it is within the bounds. -/
theorem prepare_eq_ok (hprepare : store.prepare kind payload flags = .ok encoded) :
    encoded = (store.recordFor kind payload flags).bytes ∧
      (store.recordFor kind payload flags).Framed := by
  simp only [prepare, result_bind_eq_ok, require_eq_ok, requireWithin_eq_ok,
    exists_const] at hprepare
  obtain ⟨-, -, -, hencode⟩ := hprepare
  obtain ⟨hencoded, hframed, -⟩ := Record.encodeRecord_eq_ok hencode
  exact ⟨hencoded, hframed⟩

theorem bounds_of_prepare (hprepare : store.prepare kind payload flags = .ok encoded) :
    store.recordsWritten < store.limits.maxJournalRecords ∧
      payload.length ≤ RecordHeader.payloadCeiling store.limits := by
  simp only [prepare, result_bind_eq_ok, require_eq_ok, requireWithin_eq_ok,
    exists_const] at hprepare
  obtain ⟨-, hcount, -, hencode⟩ := hprepare
  exact ⟨hcount, (Record.encodeRecord_eq_ok hencode).2.2⟩

end DurableStore

/-- A record of the next number is added to the history. -/
theorem Disk.Recorded.concat (haligned : disk.Aligned next) (hframed : record.Framed)
    (hnumber : record.header.seq = next) :
    (∀ other ∈ disk.completed ++ [record], other.Framed) ∧
      Consecutive (disk.completed ++ [record]) := by
  constructor
  · intro other hother
    rcases List.mem_append.mp hother with hold | hnew
    · exact haligned.framed other hold
    · rw [List.mem_singleton.mp hnew]
      exact hframed
  · exact consecutive_concat haligned.consecutive (hnumber.trans haligned.next)

/-- Bytes that reach the file belong to the next record. -/
theorem Disk.Aligned.receive (haligned : disk.Aligned next) (hframed : record.Framed)
    (hnumber : record.header.seq = next) (reached : ℕ) :
    (disk.receive record record.bytes reached).Resting := by
  obtain ⟨hall, hconsecutive⟩ := Disk.Recorded.concat haligned hframed hnumber
  by_cases hfull : record.bytes.length ≤ reached
  · have hcompleted : (disk.receive record record.bytes reached).completed =
        disk.completed ++ [record] := by
      rw [Disk.receive, if_pos hfull]
    refine ⟨⟨by rwa [hcompleted], by rwa [hcompleted]⟩, [], Or.inl rfl, ?_⟩
    rw [hcompleted, stream_append, ← haligned.journal, List.append_nil]
    simp [Disk.receive, stream, List.take_of_length_le hfull]
  · have hcompleted : (disk.receive record record.bytes reached).completed = disk.completed := by
      rw [Disk.receive, if_neg hfull]
    refine ⟨⟨by rw [hcompleted]; exact haligned.framed,
      by rw [hcompleted]; exact haligned.consecutive⟩, record.bytes.take reached,
      Or.inr ⟨record, hframed, reached, not_le.mp hfull, rfl⟩, ?_⟩
    rw [hcompleted, ← haligned.journal]
    rfl

theorem Disk.Aligned.receive_full (haligned : disk.Aligned next) (hframed : record.Framed)
    (hnumber : record.header.seq = next) :
    (disk.receive record record.bytes record.bytes.length).Aligned (next + 1) := by
  obtain ⟨hall, hconsecutive⟩ := Disk.Recorded.concat haligned hframed hnumber
  have hcompleted := completed_receive_full disk record record.bytes
  refine ⟨⟨by rwa [hcompleted], by rwa [hcompleted]⟩, ?_, ?_⟩
  · rw [hcompleted, stream_append, ← haligned.journal]
    simp [Disk.receive, stream]
  · rw [hcompleted, lastSequenceOf, List.foldl_append, ← hnumber]
    rfl

/-- However an append ends, the file is at rest afterwards. -/
theorem append_resting (haligned : disk.Aligned store.nextSequence) :
    (store.append disk fate kind payload flags).2.2.Resting := by
  rw [DurableStore.append]
  cases hprepare : store.prepare kind payload flags with
  | error status => exact haligned.resting
  | ok encoded =>
    obtain ⟨rfl, hframed⟩ := DurableStore.prepare_eq_ok hprepare
    cases fate with
    | done => exact haligned.receive hframed rfl _
    | fault reached => exact haligned.receive hframed rfl reached
    | crash reached => exact haligned.receive hframed rfl reached

/-- An append that returns leaves a file that can be appended to. -/
theorem append_aligned (haligned : disk.Aligned store.nextSequence) (hfate : fate.Orderly)
    (halive : (store.append disk fate kind payload flags).1 ≠ .crashed) :
    (store.append disk fate kind payload flags).2.2.Aligned
      (store.append disk fate kind payload flags).2.1.nextSequence := by
  rw [DurableStore.append] at halive ⊢
  cases hprepare : store.prepare kind payload flags with
  | error status => exact haligned
  | ok encoded =>
    obtain ⟨rfl, hframed⟩ := DurableStore.prepare_eq_ok hprepare
    cases fate with
    | done => exact haligned.receive_full hframed rfl
    | fault reached =>
      have hnothing : disk.receive (store.recordFor kind payload flags)
          (store.recordFor kind payload flags).bytes reached = disk := by
        have hbytes := (store.recordFor kind payload flags).length_bytes
        rw [show reached = 0 from hfate, Disk.receive, if_neg (by omega), List.take_zero,
          List.append_nil]
      change (disk.receive _ _ reached).Aligned store.nextSequence
      rwa [hnothing]
    | crash reached => simp [hprepare] at halive

end SwitchFailover.Persist
