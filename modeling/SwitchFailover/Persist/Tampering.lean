import SwitchFailover.Codec.Checksum
import SwitchFailover.Persist.Acceptance

/-!
# A changed byte is always detected

Every byte of a record is covered by the checksum of its header or of its payload,
and the header is checked before its declared length is believed.  Replacing one
byte of a journal therefore always ends replay with a failure, and never looks like
a record that was cut off.
-/

namespace SwitchFailover.Persist

open SwitchFailover.Core Codec Library.Codec

variable {body : Bytes} {records : List Record}

variable {limits : Limits} {report : ReplayReport} {record : Record} {index : ℕ} {value : UInt8}

/-- The file after an attempt to open it; only a scan without failure cuts it. -/
def DurableStore.diskAfterOpen (limits : Limits) (disk : Disk) : Disk :=
  match DurableStore.open limits disk with
  | .ok (_, trimmed, _) => trimmed
  | .error _ => disk

/-- A header that is intact carries the checksum of its other fields. -/
theorem Record.Framed.checked_header (hframed : record.Framed) :
    Checked record.header.encode := by
  have hcrc : record.header.headerCrc = record.header.computeCrc := by
    rw [hframed.header]
    rfl
  refine ⟨record.header.checkedBytes, ?_⟩
  rw [RecordHeader.encode, hcrc]
  rfl

/-- A header that passes its check carries its checksum. -/
theorem checked_of_validate {bytes : Bytes} (hlength : bytes.length = recordHeaderBytes)
    (hvalid : (RecordHeader.parse bytes).validate limits = .ok ()) : Checked bytes := by
  obtain ⟨-, -, -, -, hcrc⟩ := RecordHeader.validate_eq_ok.mp hvalid
  refine ⟨(RecordHeader.parse bytes).checkedBytes, ?_⟩
  have hencode := RecordHeader.encode_parse hlength
  rw [RecordHeader.encode, ← hcrc] at hencode
  exact hencode.symm

/-- A body that passes its check carries its checksum. -/
theorem checked_of_decodeBody {header : RecordHeader} {front : Bytes} {decoded : Record}
    {consumed : ℕ} (hfront : front.length = recordHeaderBytes)
    (hbody : body.length = header.payloadLen.toNat + 4)
    (hdecode : decodeBody header (front ++ body) = .complete decoded consumed) : Checked body := by
  simp only [decodeBody, ← List.drop_drop, List.drop_left' hfront] at hdecode
  split at hdecode
  · cases hdecode
  · split at hdecode
    · cases hdecode
    · rename_i hstored
      exact (checked_iff hbody).mpr (not_not.mp hstored)

/-- Scanning a record whose header was changed. -/
theorem scanRecord_header_tampered (hframed : record.Framed) (rest : Bytes)
    (hindex : index < record.header.encode.length)
    (hvalue : record.header.encode[index] ≠ value) :
    ∃ refused, refused.status.isOk = false ∧
      scanRecord limits report (record.header.encode.set index value ++ rest) =
        .finished refused := by
  have hlength : (record.header.encode.set index value).length = recordHeaderBytes := by simp
  have hsome : (record.header.encode.set index value).isEmpty = false := by
    rw [List.isEmpty_eq_false_iff, ← List.length_pos_iff, hlength]
    decide
  rw [scanRecord]
  simp only [List.take_left' hlength, hsome, hlength, lt_irrefl, if_false, Bool.false_eq_true]
  obtain ⟨status, hprobe⟩ | ⟨status, hprobe⟩ | ⟨hvalid, -⟩ := decodeRecord_header hlength
  · rw [hprobe]
    exact ⟨_, decodeRecord_refused (Or.inl hprobe), rfl⟩
  · rw [hprobe]
    exact ⟨_, decodeRecord_refused (Or.inr hprobe), rfl⟩
  · exact absurd (checked_of_validate hlength hvalid) (hframed.checked_header.not_set hindex hvalue)

/-- Scanning a record whose payload or payload checksum was changed. -/
theorem scanRecord_body_tampered (hframed : record.Framed) (rest : Bytes)
    (hlength : body.length = record.payload.length + 4) (hchanged : ¬ Checked body) :
    ∃ refused, refused.status.isOk = false ∧
      scanRecord limits report (record.header.encode ++ body ++ rest) = .finished refused := by
  have hheader : (record.header.encode ++ body ++ rest).take recordHeaderBytes =
      record.header.encode := by
    rw [List.append_assoc, List.take_left' (RecordHeader.length_encode _)]
  have hbody : ((record.header.encode ++ body ++ rest).drop recordHeaderBytes).take
      (record.payload.length + 4) = body := by
    rw [List.append_assoc, List.drop_left' (RecordHeader.length_encode _), List.take_left' hlength]
  rw [scanRecord]
  simp only [hheader, RecordHeader.encode_isEmpty, RecordHeader.length_encode, lt_irrefl, if_false,
    decode_header hframed, Bool.false_eq_true]
  by_cases hfits : record.payload.length ≤ RecordHeader.payloadCeiling limits
  · simp only [hfits, if_true, hframed.payloadLen, hbody, hlength, lt_irrefl, if_false]
    rw [hframed.decode, if_pos hfits]
    cases hdecode : decodeBody record.header (record.header.encode ++ body) with
    | complete decoded consumed =>
      exact absurd (checked_of_decodeBody (RecordHeader.length_encode _)
        (by rw [hlength, hframed.payloadLen]) hdecode) hchanged
    | tornTail header consumed =>
      simp only [decodeBody] at hdecode
      split at hdecode
      · rename_i hshort
        rw [List.length_append, RecordHeader.length_encode, hlength, hframed.payloadLen] at hshort
        omega
      · split at hdecode <;> cases hdecode
    | corrupt status =>
      have hrefused : decodeRecord (record.header.encode ++ body) limits = .corrupt status := by
        rw [hframed.decode, if_pos hfits, hdecode]
      exact ⟨_, decodeRecord_refused (Or.inl hrefused), rfl⟩
    | unsupported status =>
      have hrefused : decodeRecord (record.header.encode ++ body) limits = .unsupported status := by
        rw [hframed.decode, if_pos hfits, hdecode]
      exact ⟨_, decodeRecord_refused (Or.inr hrefused), rfl⟩
  · simp only [hfits, if_false]
    exact ⟨_, Status.failure_not_isOk _ _, rfl⟩

/-- Scanning a record with one changed byte ends with a failure. -/
theorem scanRecord_tampered (hframed : record.Framed) (rest : Bytes)
    (hindex : index < record.bytes.length) (hvalue : record.bytes[index] ≠ value) :
    ∃ refused, refused.status.isOk = false ∧
      scanRecord limits report (record.bytes.set index value ++ rest) = .finished refused := by
  have hbytes : record.bytes = record.header.encode ++
      (record.payload ++ storeLe 4 (crc32Ieee record.payload).toNat) := by
    rw [Record.bytes, List.append_assoc]
  simp only [hbytes] at hindex hvalue ⊢
  by_cases hheader : index < record.header.encode.length
  · rw [List.getElem_append_left hheader] at hvalue
    rw [List.set_append_left _ _ hheader, List.append_assoc]
    exact scanRecord_header_tampered hframed _ hheader hvalue
  · have hoffset := not_lt.mp hheader
    rw [List.getElem_append_right hoffset] at hvalue
    rw [List.set_append_right _ _ hoffset]
    apply scanRecord_body_tampered hframed
    · simp
    · have hchecked : Checked (record.payload ++ storeLe 4 (crc32Ieee record.payload).toNat) :=
        ⟨record.payload, rfl⟩
      rw [List.length_append] at hindex
      exact hchecked.not_set (by omega) hvalue

/-! ## Replay -/

/-- The records before a place where the scan fails do not hide the failure. -/
theorem replayLoop_refused {bad : Bytes} (hframed : ∀ record ∈ records, record.Framed)
    (hbad : ∀ report, ∃ refused, refused.status.isOk = false ∧
      scanRecord limits report bad = .finished refused) {fuel : ℕ} (hfuel : records.length < fuel)
    {expected : Option UInt64} :
    (replayLoop limits fuel (stream records ++ bad) expected report).status.isOk = false := by
  induction records generalizing fuel expected report with
  | nil =>
    cases fuel with
    | zero => exact absurd hfuel (Nat.lt_irrefl 0)
    | succ fuel =>
      obtain ⟨refused, hfailed, hscan⟩ := hbad report
      rw [show stream [] = [] from rfl, List.nil_append, replayLoop, hscan]
      exact hfailed
  | cons record records ih =>
    cases fuel with
    | zero => exact absurd hfuel (Nat.not_lt_zero _)
    | succ fuel =>
      rw [stream_cons, List.append_assoc, replayLoop,
        scanRecord_bytes (hframed record List.mem_cons_self)]
      by_cases hfits : record.payload.length ≤ RecordHeader.payloadCeiling limits
      · rw [if_pos hfits]
        dsimp only
        cases hadmitted : admitRecord limits expected report record with
        | error refused => exact admitRecord_eq_error hadmitted
        | ok next =>
          exact ih (fun other hother => hframed other (List.mem_cons_of_mem _ hother))
            (Nat.lt_of_succ_lt_succ hfuel)
      · rw [if_neg hfits]
        exact Status.failure_not_isOk _ _

/-- A byte of a stream is a byte of one of its records. -/
theorem set_stream (hindex : index < (stream records).length)
    (hvalue : (stream records)[index] ≠ value) :
    ∃ before record after offset, records = before ++ record :: after ∧
      ∃ hoffset : offset < record.bytes.length, record.bytes[offset] ≠ value ∧
        (stream records).set index value =
          stream before ++ (record.bytes.set offset value ++ stream after) := by
  induction records generalizing index with
  | nil => exact absurd hindex (Nat.not_lt_zero _)
  | cons record records ih =>
    simp only [stream_cons] at hindex hvalue ⊢
    by_cases hhere : index < record.bytes.length
    · rw [List.getElem_append_left hhere] at hvalue
      refine ⟨[], record, records, index, rfl, hhere, hvalue, ?_⟩
      rw [List.set_append_left _ _ hhere]
      rfl
    · have hoffset := not_lt.mp hhere
      rw [List.getElem_append_right hoffset] at hvalue
      rw [List.length_append] at hindex
      obtain ⟨before, changed, after, offset, rfl, hwithin, hdiffers, hset⟩ :=
        ih (by omega) hvalue
      refine ⟨record :: before, changed, after, offset, rfl, hwithin, hdiffers, ?_⟩
      rw [List.set_append_right _ _ hoffset, hset, stream_cons, List.append_assoc]

/-- Tamper detection.  One byte of a journal of encoded records is replaced by another
value: the journal is refused and stays as it is, under any limits.  The numbers of the
records do not matter. -/
theorem open_tampered {written : Limits} {records : List Record} {pieces : List Bytes}
    (hencoded : records.mapM (fun record => encodeRecord record written) = .ok pieces)
    (hindex : index < pieces.flatten.length) (hvalue : pieces.flatten[index] ≠ value)
    {disk : Disk} (hjournal : disk.journal = pieces.flatten.set index value) :
    (∃ status, DurableStore.open limits disk = .error status) ∧
      (DurableStore.diskAfterOpen limits disk).journal = disk.journal := by
  obtain ⟨hflatten, hall⟩ := flatten_encodings hencoded
  simp only [hflatten] at hindex hvalue hjournal
  obtain ⟨before, changed, after, offset, hrecords, hoffset, hdiffers, hset⟩ :=
    set_stream hindex hvalue
  have hframed : ∀ record ∈ records.map Record.finished, record.Framed := by
    intro record hrecord
    obtain ⟨source, hsource, rfl⟩ := List.mem_map.mp hrecord
    exact (hall source hsource).1
  rw [hrecords] at hframed
  have hfailed : (replay limits disk.journal).status.isOk = false := by
    rw [hjournal, hset, replay]
    apply replayLoop_refused
    · intro record hrecord
      exact hframed record (List.mem_append_left _ hrecord)
    · intro report
      exact scanRecord_tampered
        (hframed changed (List.mem_append_right _ List.mem_cons_self)) _ hoffset hdiffers
    · have hcount := length_le_stream before
      rw [List.length_append]
      omega
  have hrefused : ∃ status, DurableStore.open limits disk = .error status := by
    cases hopen : DurableStore.open limits disk with
    | error status => exact ⟨status, rfl⟩
    | ok opened =>
        obtain ⟨-, hok, -⟩ := open_eq_ok.mp hopen
        exact absurd (hok.symm.trans hfailed) (by decide)
  obtain ⟨status, hopen⟩ := hrefused
  refine ⟨⟨status, hopen⟩, ?_⟩
  rw [DurableStore.diskAfterOpen, hopen]

/-- The payload of the first of two records is changed. -/
theorem open_tampered_sample :
    (∃ status, DurableStore.open {}
        ⟨(stream [Sample.earlier.finished, Sample.later.finished]).set 28 9, []⟩ =
          .error status) ∧
      (DurableStore.diskAfterOpen {}
        ⟨(stream [Sample.earlier.finished, Sample.later.finished]).set 28 9, []⟩).journal =
          (stream [Sample.earlier.finished, Sample.later.finished]).set 28 9 := by
  have hencoded : [Sample.earlier, Sample.later].mapM (fun record => encodeRecord record {}) =
      .ok [Sample.earlier.finished.bytes, Sample.later.finished.bytes] := by
    rw [List.mapM_cons, List.mapM_cons, Record.encodeRecord_of_fits (by decide) (by decide),
      Record.encodeRecord_of_fits (by decide) (by decide)]
    rfl
  have hflatten : [Sample.earlier.finished.bytes, Sample.later.finished.bytes].flatten =
      stream [Sample.earlier.finished, Sample.later.finished] := rfl
  have hindex : 28 < [Sample.earlier.finished.bytes,
      Sample.later.finished.bytes].flatten.length := by
    decide +kernel
  have hvalue : [Sample.earlier.finished.bytes,
      Sample.later.finished.bytes].flatten[28] ≠ 9 := by
    intro heq
    rw [List.getElem_eq_iff] at heq
    revert heq
    decide +kernel
  exact open_tampered hencoded hindex hvalue (by rw [hflatten])

end SwitchFailover.Persist
