import SwitchFailover.Persist.Records

/-!
# Records as byte strings

A record that the store writes is read back from its bytes, and a beginning of
those bytes is recognised as a torn tail.
-/

namespace SwitchFailover.Persist

open SwitchFailover.Core Codec Library.Codec

/-- The bytes of a record in the file. -/
def Record.bytes (record : Record) : Bytes :=
  record.header.encode ++ record.payload ++ storeLe 4 (crc32Ieee record.payload).toNat

/-- A record as the store writes it: the header is filled in, the kind is defined
and the payload is within the hard bound. -/
structure Record.Framed (record : Record) : Prop where
  header : record.header = finishHeader record
  kind : isValidRecordKind record.header.kind = true
  payload : record.payload.length ≤ maxRecordPayload

namespace RecordHeader

@[simp]
theorem length_encode (header : RecordHeader) : header.encode.length = recordHeaderBytes := by
  simp [encode, checkedBytes, recordHeaderBytes]

theorem encode_isEmpty (header : RecordHeader) : header.encode.isEmpty = false := by
  rw [List.isEmpty_eq_false_iff, ← List.length_pos_iff, length_encode]
  decide

theorem parse_encode (header : RecordHeader) : parse header.encode = header := by
  obtain ⟨magic, formatVersion, kind, flags, seq, payloadLen, headerCrc⟩ := header
  simp only [parse, encode, checkedBytes, List.append_assoc, mk.injEq]
  refine ⟨?_, ?_, ?_, ?_, ?_, ?_, ?_⟩
  · rw [loadLe_take magic.toNat_lt]
    exact UInt32.ofNat_toNat
  · rw [drop_storeLe 4 _ _ 0, List.drop_zero, loadLe_take formatVersion.toNat_lt]
    exact UInt16.ofNat_toNat
  · rw [drop_storeLe 4 _ _ 2, drop_storeLe 2 _ _ 0, List.drop_zero, loadLe_take kind.toNat_lt]
    exact UInt16.ofNat_toNat
  · rw [drop_storeLe 4 _ _ 4, drop_storeLe 2 _ _ 2, drop_storeLe 2 _ _ 0, List.drop_zero,
      loadLe_take flags.toNat_lt]
    exact UInt32.ofNat_toNat
  · rw [drop_storeLe 4 _ _ 8, drop_storeLe 2 _ _ 6, drop_storeLe 2 _ _ 4, drop_storeLe 4 _ _ 0,
      List.drop_zero, loadLe_take seq.toNat_lt]
    exact UInt64.ofNat_toNat
  · rw [drop_storeLe 4 _ _ 16, drop_storeLe 2 _ _ 14, drop_storeLe 2 _ _ 12,
      drop_storeLe 4 _ _ 8, drop_storeLe 8 _ _ 0, List.drop_zero, loadLe_take payloadLen.toNat_lt]
    exact UInt32.ofNat_toNat
  · rw [drop_storeLe 4 _ _ 20, drop_storeLe 2 _ _ 18, drop_storeLe 2 _ _ 16,
      drop_storeLe 4 _ _ 12, drop_storeLe 8 _ _ 4, drop_storeLe 4 _ _ 0, List.drop_zero,
      List.take_of_length_le (by simp), loadLe_storeLe headerCrc.toNat_lt]
    exact UInt32.ofNat_toNat

/-- What a validated header promises. -/
theorem validate_eq_ok {header : RecordHeader} {limits : Limits} :
    header.validate limits = .ok () ↔ header.magic = recordMagic ∧
      header.formatVersion = recordFormatVersion ∧ isValidRecordKind header.kind = true ∧
      header.payloadLen.toNat ≤ payloadCeiling limits ∧
      header.computeCrc = header.headerCrc := by
  simp only [validate, result_bind_eq_ok, require_eq_ok, exists_const, beq_iff_eq,
    decide_eq_true_eq]

end RecordHeader

namespace Record

variable {record : Record} {limits : Limits}

/-- The record as it stands on disk: the header is filled in. -/
def finished (record : Record) : Record := ⟨finishHeader record, record.payload⟩

/-- A record that can be encoded is written as its bytes, header filled in. -/
theorem encodeRecord_eq_ok {encoded : Bytes} (hencode : encodeRecord record limits = .ok encoded) :
    encoded = record.finished.bytes ∧ record.finished.Framed ∧
      record.payload.length ≤ RecordHeader.payloadCeiling limits := by
  simp only [encodeRecord, result_bind_eq_ok, requireWithin_eq_ok, exists_const] at hencode
  obtain ⟨hfits, _, hvalidate, hencoded⟩ := hencode
  obtain ⟨-, -, hkind, -, -⟩ := RecordHeader.validate_eq_ok.mp hvalidate
  refine ⟨?_, ⟨rfl, hkind, le_trans hfits (min_le_right _ _)⟩, hfits⟩
  cases hencoded
  rfl

/-- The refusal of a header that declares more than the limits allow. -/
def oversized : Status :=
  Status.failure .corrupt (text "record declares an impossible payload length")

theorem Framed.payloadLen (hframed : record.Framed) :
    record.header.payloadLen.toNat = record.payload.length := by
  have hlength : record.header.payloadLen = record.payload.length.toUInt32 := by
    rw [hframed.header]
    rfl
  have hsmall : record.payload.length < 2 ^ 32 :=
    lt_of_le_of_lt hframed.payload (by decide)
  rw [hlength]
  exact UInt32.toNat_ofNat_of_lt' hsmall

theorem Framed.validate (hframed : record.Framed) :
    record.header.validate limits =
      if record.payload.length ≤ RecordHeader.payloadCeiling limits then .ok ()
      else .error oversized := by
  have hmagic : record.header.magic = recordMagic := by rw [hframed.header]; rfl
  have hversion : record.header.formatVersion = recordFormatVersion := by
    rw [hframed.header]; rfl
  have hcrc : record.header.computeCrc = record.header.headerCrc := by
    rw [hframed.header]; rfl
  rw [RecordHeader.validate, hmagic, hversion, hframed.kind, hframed.payloadLen, hcrc]
  by_cases hfits : record.payload.length ≤ RecordHeader.payloadCeiling limits
  · simp [hfits, require]
    rfl
  · simp [hfits, require, refuse]
    rfl

/-- A record of a defined kind that fits can be encoded. -/
theorem encodeRecord_of_fits (hkind : isValidRecordKind record.header.kind = true)
    (hfits : record.payload.length ≤ RecordHeader.payloadCeiling limits) :
    encodeRecord record limits = .ok record.finished.bytes := by
  have hframed : record.finished.Framed := ⟨rfl, hkind, le_trans hfits (min_le_right _ _)⟩
  have hvalidate : (finishHeader record).validate limits = .ok () := by
    rw [show finishHeader record = record.finished.header from rfl, hframed.validate]
    exact if_pos hfits
  rw [encodeRecord]
  simp only [(requireWithin_eq_ok _ _ _ ()).mpr hfits, hvalidate]
  rfl

theorem length_bytes (record : Record) :
    record.bytes.length = recordHeaderBytes + record.payload.length + 4 := by
  simp [bytes, add_assoc]

/-- The file holds the magic in front of every record. -/
theorem Framed.take_four (hframed : record.Framed) (rest : Bytes) :
    (record.header.encode ++ rest).take 4 = magicBytes := by
  have hmagic : record.header.magic = recordMagic := by rw [hframed.header]; rfl
  simp only [RecordHeader.encode, RecordHeader.checkedBytes, List.append_assoc]
  rw [List.take_left' (length_storeLe 4 _), hmagic]
  decide

/-- Decoding what begins with the header of a record. -/
theorem Framed.decode (hframed : record.Framed) (body : Bytes) :
    decodeRecord (record.header.encode ++ body) limits =
      if record.payload.length ≤ RecordHeader.payloadCeiling limits
      then decodeBody record.header (record.header.encode ++ body)
      else .corrupt oversized := by
  have hlength : recordHeaderBytes ≤ (record.header.encode ++ body).length := by simp
  have hsome : (record.header.encode ++ body).isEmpty = false := by
    rw [List.isEmpty_eq_false_iff]
    intro hnil
    rw [hnil] at hlength
    exact absurd hlength (by decide)
  have hheader : RecordHeader.parse ((record.header.encode ++ body).take recordHeaderBytes) =
      record.header := by
    rw [List.take_left' (RecordHeader.length_encode _), RecordHeader.parse_encode]
  rw [decodeRecord, hsome, hframed.take_four, hheader, if_neg (not_lt.mpr hlength)]
  dsimp only
  rw [hframed.validate]
  by_cases hfits : record.payload.length ≤ RecordHeader.payloadCeiling limits
  · simp [hfits]
  · simp [hfits, refusedHeader, oversized, Status.failure]

/-- A record that is there in full is decoded. -/
theorem Framed.decodeBody_bytes (hframed : record.Framed) :
    decodeBody record.header record.bytes =
      .complete record (recordHeaderBytes + record.payload.length + 4) := by
  have hbody : record.bytes.drop recordHeaderBytes =
      record.payload ++ storeLe 4 (crc32Ieee record.payload).toNat := by
    rw [bytes, List.append_assoc, List.drop_left' (RecordHeader.length_encode _)]
  have hchecksum : record.bytes.drop (recordHeaderBytes + record.payload.length) =
      storeLe 4 (crc32Ieee record.payload).toNat := by
    rw [← List.drop_drop, hbody, List.drop_left' rfl]
  have hstored : (loadLe ((record.bytes.drop (recordHeaderBytes +
      record.payload.length)).take 4)).toUInt32 = crc32Ieee record.payload := by
    rw [hchecksum, List.take_of_length_le (by simp), loadLe_storeLe (UInt32.toNat_lt _)]
    exact UInt32.ofNat_toNat
  rw [decodeBody]
  simp only [hframed.payloadLen]
  rw [if_neg (by rw [length_bytes]; exact lt_irrefl _), hbody, List.take_left' rfl,
    if_neg (not_not.mpr hstored)]

/-- A record that is cut off after its header is a torn tail. -/
theorem Framed.decodeBody_torn (hframed : record.Framed) {data : Bytes}
    (hshort : data.length < record.bytes.length) :
    decodeBody record.header data = .tornTail (some record.header) data.length := by
  rw [decodeBody]
  simp only [hframed.payloadLen]
  rw [if_pos (by rwa [length_bytes] at hshort)]

end Record
end SwitchFailover.Persist
