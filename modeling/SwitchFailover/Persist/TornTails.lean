import SwitchFailover.Persist.Acceptance

/-!
# Which tails are cut off

A tail with a whole header is cut off when the file ends before the record does.  If
all that is missing is a part of the record, it was the beginning of one.  A tail that
holds the whole payload and a part of its checksum is cut off without a look at
that part, so it is cut off also when no record begins that way.
-/

namespace SwitchFailover.Persist

open SwitchFailover.Core Codec Library.Codec

variable {limits : Limits} {report : ReplayReport} {record : Record} {tail : Bytes}

/-- The payload length that the header of a tail declares. -/
def declaredLength (tail : Bytes) : ℕ :=
  (RecordHeader.parse (tail.take recordHeaderBytes)).payloadLen.toNat

/-- What the tail holds of the payload's checksum, if anything, is right. -/
def ChecksumBegun (tail : Bytes) : Prop :=
  tail.drop (recordHeaderBytes + declaredLength tail) <+:
    storeLe 4 (crc32Ieee ((tail.drop recordHeaderBytes).take (declaredLength tail))).toNat

/-- The tail has a valid header and the whole payload, and ends within a checksum that is
not the payload's. -/
def StrayChecksum (limits : Limits) (tail : Bytes) : Prop :=
  (RecordHeader.parse (tail.take recordHeaderBytes)).validate limits = .ok () ∧
    tail.length < recordHeaderBytes + declaredLength tail + 4 ∧ ¬ChecksumBegun tail

instance (limits : Limits) (tail : Bytes) : Decidable (StrayChecksum limits tail) :=
  inferInstanceAs (Decidable (_ ∧ _ ∧ ¬_ <+: _))

/-- The tail is what a writer that stopped has left of a record. -/
def GenuinelyTorn (limits : Limits) (tail : Bytes) : Prop :=
  ∃ record encoded, encodeRecord record limits = .ok encoded ∧ tail <+: encoded ∧ tail ≠ encoded

/-- The tail begins with a record or is the beginning of one. -/
def Extendable (limits : Limits) (tail : Bytes) : Prop :=
  ∃ record encoded, encodeRecord record limits = .ok encoded ∧
    (tail <+: encoded ∨ encoded <+: tail)

/-! ## Scanning a tail with a whole header -/

section Valid

variable (hvalid : (RecordHeader.parse (tail.take recordHeaderBytes)).validate limits = .ok ())

include hvalid

/-- A valid header and any payload of the length it declares make a record. -/
theorem framed_of_valid {payload : Bytes} (hlength : payload.length = declaredLength tail) :
    Record.Framed ⟨RecordHeader.parse (tail.take recordHeaderBytes), payload⟩ ∧
      payload.length ≤ RecordHeader.payloadCeiling limits := by
  obtain ⟨hmagic, hversion, hkind, hfits, hcrc⟩ := RecordHeader.validate_eq_ok.mp hvalid
  have hdeclared : (RecordHeader.parse (tail.take recordHeaderBytes)).payloadLen =
      payload.length.toUInt32 := by
    rw [hlength]
    exact UInt32.ofNat_toNat.symm
  have hlimit : payload.length ≤ RecordHeader.payloadCeiling limits := hlength.trans_le hfits
  generalize RecordHeader.parse (tail.take recordHeaderBytes) = header at *
  refine ⟨⟨?_, hkind, hlimit.trans (min_le_right _ _)⟩, hlimit⟩
  obtain ⟨magic, version, kind, flags, seq, payloadLen, headerCrc⟩ := header
  dsimp only at hmagic hversion hdeclared
  subst hmagic hversion hdeclared
  rw [finishHeader]
  exact congrArg (RecordHeader.mk recordMagic recordFormatVersion kind flags seq _) hcrc.symm

theorem decodeRecord_valid (hlong : recordHeaderBytes ≤ tail.length) :
    decodeRecord (tail.take recordHeaderBytes) limits =
      .tornTail (some (RecordHeader.parse (tail.take recordHeaderBytes))) recordHeaderBytes := by
  obtain ⟨payload, hlength⟩ : ∃ payload : Bytes, payload.length = declaredLength tail :=
    ⟨List.replicate _ 0, List.length_replicate⟩
  obtain ⟨hframed, hfits⟩ := framed_of_valid hvalid hlength
  have hencode := RecordHeader.encode_parse (List.length_take_of_le hlong)
  generalize RecordHeader.parse (tail.take recordHeaderBytes) = header at hframed hencode ⊢
  rw [← hencode, decode_header hframed, if_pos hfits]

end Valid

/-- A tail with a whole header is torn if it ends before the record of that header does;
otherwise it is refused or begins with a record. -/
theorem scanRecord_whole (limits : Limits) (report : ReplayReport)
    (hlong : recordHeaderBytes ≤ tail.length) :
    (∃ status, status.isOk = false ∧
      ¬((RecordHeader.parse (tail.take recordHeaderBytes)).validate limits = .ok () ∧
        tail.length < recordHeaderBytes + declaredLength tail + 4) ∧
      (scanRecord limits report tail = .finished (report.corrupted status) ∨
        scanRecord limits report tail = .finished (report.unsupportedBy status))) ∨
    ((RecordHeader.parse (tail.take recordHeaderBytes)).validate limits = .ok () ∧
      tail.length < recordHeaderBytes + declaredLength tail + 4 ∧
      scanRecord limits report tail = .finished (report.torn tail.length)) ∨
    ∃ record rest, scanRecord limits report tail = .scanned record rest := by
  have hheader : (tail.take recordHeaderBytes).length = recordHeaderBytes :=
    List.length_take_of_le hlong
  have hsome : (tail.take recordHeaderBytes).isEmpty = false := by
    rw [List.isEmpty_eq_false_iff, ← List.length_pos_iff, hheader]
    decide
  rw [scanRecord]
  dsimp only
  rw [hsome, if_neg (by decide), if_neg (by omega)]
  by_cases hvalid : (RecordHeader.parse (tail.take recordHeaderBytes)).validate limits = .ok ()
  · rw [decodeRecord_valid hvalid hlong]
    dsimp only
    have hdeclared : (RecordHeader.parse (tail.take recordHeaderBytes)).payloadLen.toNat =
        declaredLength tail := rfl
    have hbody : ((tail.drop recordHeaderBytes).take (declaredLength tail + 4)).length =
        min (declaredLength tail + 4) (tail.length - recordHeaderBytes) := by
      rw [List.length_take, List.length_drop]
    split
    · rename_i hshort
      rw [hdeclared, hbody] at hshort
      refine Or.inr (Or.inl ⟨hvalid, by omega, ?_⟩)
      rw [hdeclared, hbody]
      congr 2
      omega
    · rename_i hfull
      rw [hdeclared, hbody] at hfull
      have hwhole : ¬tail.length < recordHeaderBytes + declaredLength tail + 4 := by omega
      split
      · exact Or.inr (Or.inr ⟨_, _, rfl⟩)
      · rename_i status hdecode
        exact Or.inl ⟨status, decodeRecord_refused (Or.inr hdecode), fun hending =>
          hwhole hending.2, Or.inr rfl⟩
      · rename_i status hdecode
        exact Or.inl ⟨status, decodeRecord_refused (Or.inl hdecode), fun hending =>
          hwhole hending.2, Or.inl rfl⟩
      · -- A record of the declared length is never torn.
        rename_i torn consumed hdecode
        exfalso
        rw [decodeRecord_long (by rw [List.length_append, hheader]; exact Nat.le_add_right _ _),
          List.take_left' hheader] at hdecode
        split at hdecode
        · rw [hvalid] at hdecode
          simp only [decodeBody] at hdecode
          split at hdecode
          · rename_i hshort
            rw [List.length_append, hheader, hdeclared, hbody] at hshort
            omega
          · split at hdecode <;> cases hdecode
        · cases hdecode
  · obtain ⟨status, hprobe⟩ | ⟨status, hprobe⟩ | ⟨hright, -⟩ := decodeRecord_header hheader
    · rw [hprobe]
      exact Or.inl ⟨status, decodeRecord_refused (Or.inl hprobe), fun hending =>
        hvalid hending.1, Or.inl rfl⟩
    · rw [hprobe]
      exact Or.inl ⟨status, decodeRecord_refused (Or.inr hprobe), fun hending =>
        hvalid hending.1, Or.inr rfl⟩
    · exact absurd hright hvalid

/-! ## Genuine tails -/

section Genuine

variable (hlong : recordHeaderBytes ≤ tail.length)

include hlong

/-- A record that starts with the bytes of a valid header has that header. -/
theorem encodeRecord_of_header
    (hvalid : (RecordHeader.parse (tail.take recordHeaderBytes)).validate limits = .ok ())
    {payload : Bytes} (hlength : payload.length = declaredLength tail) :
    encodeRecord ⟨RecordHeader.parse (tail.take recordHeaderBytes), payload⟩ limits =
      .ok (tail.take recordHeaderBytes ++ payload ++ storeLe 4 (crc32Ieee payload).toNat) := by
  obtain ⟨hframed, hfits⟩ := framed_of_valid hvalid hlength
  rw [Record.encodeRecord_of_fits hframed.kind hfits, Record.bytes, Record.finished,
    ← hframed.header, RecordHeader.encode_parse (List.length_take_of_le hlong)]

/-- A tail that ends before its record does is genuine if its part of the checksum is
right. -/
theorem genuinelyTorn_of_begun
    (hvalid : (RecordHeader.parse (tail.take recordHeaderBytes)).validate limits = .ok ())
    (hshort : tail.length < recordHeaderBytes + declaredLength tail + 4)
    (hbegun : ChecksumBegun tail) : GenuinelyTorn limits tail := by
  have hheader : (tail.take recordHeaderBytes).length = recordHeaderBytes :=
    List.length_take_of_le hlong
  -- Bytes that are missing from the payload may be any.
  obtain ⟨payload, hlength, hbeginning⟩ : ∃ payload : Bytes, payload.length = declaredLength tail ∧
        tail.drop recordHeaderBytes <+: payload ++ storeLe 4 (crc32Ieee payload).toNat := by
    by_cases hwhole : recordHeaderBytes + declaredLength tail ≤ tail.length
    · refine ⟨(tail.drop recordHeaderBytes).take (declaredLength tail), ?_, ?_⟩
      · rw [List.length_take, List.length_drop]
        omega
      · rw [ChecksumBegun, ← List.drop_drop] at hbegun
        nth_rewrite 1 [← List.take_append_drop (declaredLength tail) (tail.drop recordHeaderBytes)]
        exact (List.prefix_append_right_inj _).mpr hbegun
    · have hsize : (tail.drop recordHeaderBytes).length < declaredLength tail := by
        rw [List.length_drop]
        omega
      refine ⟨tail.drop recordHeaderBytes ++
        List.replicate (declaredLength tail - (tail.drop recordHeaderBytes).length) 0, ?_, ?_⟩
      · rw [List.length_append, List.length_replicate]
        omega
      · rw [List.append_assoc]
        exact List.prefix_append _ _
  refine ⟨_, _, encodeRecord_of_header hlong hvalid hlength, ?_, ?_⟩
  · rw [List.append_assoc]
    nth_rewrite 1 [← List.take_append_drop recordHeaderBytes tail]
    exact (List.prefix_append_right_inj _).mpr hbeginning
  · intro heq
    have hsize := congrArg List.length heq
    rw [List.length_append, List.length_append, hheader, hlength, length_storeLe] at hsize
    omega

theorem begun_of_genuinelyTorn (hgenuine : GenuinelyTorn limits tail) : ChecksumBegun tail := by
  obtain ⟨record, encoded, hencode, hbeginning, -⟩ := hgenuine
  obtain ⟨rfl, hframed, -⟩ := Record.encodeRecord_eq_ok hencode
  generalize record.finished = record at hframed hbeginning
  obtain ⟨rest, hrest⟩ := hbeginning
  have hheader : tail.take recordHeaderBytes = record.header.encode := by
    have hfront := congrArg (List.take recordHeaderBytes) hrest
    rw [List.take_append_of_le_length hlong, Record.bytes, List.append_assoc,
      List.take_left' (RecordHeader.length_encode _)] at hfront
    exact hfront
  have hdeclared : declaredLength tail = record.payload.length := by
    rw [declaredLength, hheader, RecordHeader.parse_encode, hframed.payloadLen]
  have hbody : tail.drop recordHeaderBytes ++ rest =
      record.payload ++ storeLe 4 (crc32Ieee record.payload).toNat := by
    have hback := congrArg (List.drop recordHeaderBytes) hrest
    rw [List.drop_append_of_le_length hlong, Record.bytes, List.append_assoc,
      List.drop_left' (RecordHeader.length_encode _)] at hback
    exact hback
  rw [ChecksumBegun, hdeclared, ← List.drop_drop]
  by_cases hwhole : record.payload.length ≤ (tail.drop recordHeaderBytes).length
  · have hpayload := congrArg (List.take record.payload.length) hbody
    rw [List.take_append_of_le_length hwhole, List.take_left' rfl] at hpayload
    have hchecksum := congrArg (List.drop record.payload.length) hbody
    rw [List.drop_append_of_le_length hwhole, List.drop_left' rfl] at hchecksum
    rw [hpayload, ← hchecksum]
    exact List.prefix_append _ _
  · rw [List.drop_eq_nil_of_le (by omega)]
    exact List.nil_prefix

omit hlong in
theorem declaredLength_bytes (hframed : record.Framed) (rest : Bytes) :
    declaredLength (record.bytes ++ rest) = record.payload.length := by
  rw [declaredLength, Record.bytes, List.append_assoc, List.append_assoc,
    List.take_left' (RecordHeader.length_encode _), RecordHeader.parse_encode, hframed.payloadLen]

theorem not_extendable_of_stray (hwrong : StrayChecksum limits tail) :
    ¬Extendable limits tail := by
  rintro ⟨record, encoded, hencode, hbeginning⟩
  have hlonger : ¬encoded <+: tail := by
    rintro ⟨rest, rfl⟩
    obtain ⟨rfl, hframed, -⟩ := Record.encodeRecord_eq_ok hencode
    have hshort := hwrong.2.1
    rw [declaredLength_bytes hframed, List.length_append, Record.length_bytes] at hshort
    omega
  rcases hbeginning with hbeginning | hbeginning
  · refine hwrong.2.2 (begun_of_genuinelyTorn hlong ⟨record, encoded, hencode, hbeginning, ?_⟩)
    rintro rfl
    exact hlonger (List.prefix_refl _)
  · exact hlonger hbeginning

end Genuine

/-! ## Replay -/

theorem scanRecord_truncated {final : ReplayReport}
    (hscan : scanRecord limits report tail = .finished final)
    (hbefore : report.truncatedTail = false) (htruncated : final.truncatedTail = true) :
    final = report.torn tail.length := by
  by_cases hlong : recordHeaderBytes ≤ tail.length
  · have hwhole := scanRecord_whole limits report hlong
    obtain ⟨status, -, -, hrefused | hrefused⟩ | ⟨-, -, htorn⟩ | ⟨record, rest, hscanned⟩ := hwhole
    · rw [hrefused] at hscan
      cases hscan
      exact absurd (htruncated.symm.trans hbefore) (by decide)
    · rw [hrefused] at hscan
      cases hscan
      exact absurd (htruncated.symm.trans hbefore) (by decide)
    · rw [htorn] at hscan
      cases hscan
      rfl
    · rw [hscanned] at hscan
      cases hscan
  · have hall : tail.take recordHeaderBytes = tail := List.take_of_length_le (by omega)
    rw [scanRecord, hall] at hscan
    dsimp only at hscan
    split at hscan
    · cases hscan
      exact absurd (htruncated.symm.trans hbefore) (by decide)
    rw [if_pos (not_le.mp hlong)] at hscan
    split at hscan <;> cases hscan
    · rfl
    all_goals exact absurd (htruncated.symm.trans hbefore) (by decide)

/-- A loop that reports a torn tail has scanned the tail last. -/
theorem replayLoop_truncated {fuel : ℕ} {bytes : Bytes} {expected : Option UInt64}
    (hbefore : report.truncatedTail = false)
    (htruncated : (replayLoop limits fuel bytes expected report).truncatedTail = true) :
    ∃ front tail last, bytes = front ++ tail ∧
      replayLoop limits fuel bytes expected report = ReplayReport.torn last tail.length ∧
      scanRecord limits last tail = .finished (last.torn tail.length) := by
  induction fuel generalizing bytes expected report with
  | zero => exact absurd (htruncated.symm.trans hbefore) (by decide)
  | succ fuel ih =>
    rw [replayLoop] at htruncated ⊢
    cases hscan : scanRecord limits report bytes with
    | finished final =>
      rw [hscan] at htruncated
      have hfinal := scanRecord_truncated hscan hbefore htruncated
      exact ⟨[], bytes, report, rfl, hfinal, by rw [hscan, hfinal]⟩
    | scanned record rest =>
      obtain ⟨-, -, rfl⟩ := scanRecord_scanned hscan
      rw [hscan] at htruncated
      dsimp only at htruncated ⊢
      cases hadmitted : admitRecord limits expected report record with
      | error refused =>
        rw [hadmitted] at htruncated
        have hkept : refused.truncatedTail = report.truncatedTail := by
          rw [admitRecord] at hadmitted
          dsimp only at hadmitted
          split at hadmitted
          · cases hadmitted
            rfl
          · split at hadmitted <;> cases hadmitted
            rfl
        exact absurd (htruncated.symm.trans (hkept.trans hbefore)) (by decide)
      | ok next =>
        rw [hadmitted] at htruncated
        dsimp only at htruncated ⊢
        obtain ⟨rfl, -, -⟩ := admitRecord_eq_ok hadmitted
        have hgathered : (report.gather record).truncatedTail = false := hbefore
        obtain ⟨front, tail, last, rfl, hresult, hlast⟩ := ih hgathered htruncated
        exact ⟨record.bytes ++ front, tail, last, (List.append_assoc _ _ _).symm, hresult, hlast⟩

/-- The bytes a replay proposes to cut off. -/
def tornTail (limits : Limits) (journal : Bytes) : Bytes :=
  journal.drop (journal.length - (replay limits journal).recoveredBytes)

theorem tornTail_spec {journal : Bytes} (htruncated : (replay limits journal).truncatedTail = true)
    (hheader : recordHeaderBytes ≤ (replay limits journal).recoveredBytes) :
    recordHeaderBytes ≤ (tornTail limits journal).length ∧
      (RecordHeader.parse ((tornTail limits journal).take recordHeaderBytes)).validate limits =
        .ok () ∧
      (tornTail limits journal).length <
        recordHeaderBytes + declaredLength (tornTail limits journal) + 4 := by
  obtain ⟨front, tail, last, hjournal, hresult, hscan⟩ := replayLoop_truncated rfl htruncated
  have hrecovered : (replay limits journal).recoveredBytes = tail.length :=
    congrArg ReplayReport.recoveredBytes hresult
  have htail : tornTail limits journal = tail := by
    rw [tornTail, hrecovered, hjournal, List.length_append, Nat.add_sub_cancel, List.drop_left' rfl]
  rw [hrecovered] at hheader
  rw [htail]
  obtain ⟨status, -, -, hrefused | hrefused⟩ | ⟨hvalid, hshort, -⟩ | ⟨record, rest, hscanned⟩ :=
    scanRecord_whole limits last hheader
  · rw [hrefused] at hscan
    have hcount := congrArg ReplayReport.tornRecords (ScanResult.finished.inj hscan)
    exact absurd hcount (Nat.ne_of_lt (Nat.lt_succ_self _))
  · rw [hrefused] at hscan
    have hcount := congrArg ReplayReport.tornRecords (ScanResult.finished.inj hscan)
    exact absurd hcount (Nat.ne_of_lt (Nat.lt_succ_self _))
  · exact ⟨hheader, hvalid, hshort⟩
  · rw [hscanned] at hscan
    cases hscan

/-- Replay gathers readable records in front of a tail and then scans the tail. -/
theorem replay_through {records : List Record} (hreadable : Readable limits records)
    (hroom : records.length ≤ limits.maxJournalRecords) (tail : Bytes) :
    ∃ fuel following gathered, replay limits (stream records ++ tail) =
        replayLoop limits (fuel + 1) tail following gathered ∧ gathered.truncatedTail = false := by
  have hfuel : records.length ≤ (stream records ++ tail).length := by
    rw [List.length_append]
    exact Nat.le_add_right_of_le (length_le_stream records)
  obtain ⟨more, hmore⟩ := Nat.exists_eq_add_of_le hfuel
  have hempty : ({} : ReplayReport).records.length + records.length ≤
      limits.maxJournalRecords := by simpa using hroom
  have hanchored : ∀ record : Record, records.head? = some record →
      (none : Option UInt64).getD record.header.seq = record.header.seq := fun _ _ => rfl
  obtain ⟨following, hloop⟩ := replayLoop_through hreadable hempty (more + 1) hanchored tail
  obtain ⟨-, -, -, hgathered, -⟩ := foldl_gather records {}
  refine ⟨more, following, _, ?_, hgathered⟩
  rw [replay, hmore, Nat.add_assoc, hloop]

/-- A tail with a whole header is cut off only if it is the beginning of a record, and
refused if it neither is the beginning of a record nor begins with one, in both cases
except for a tail that ends within a wrong checksum. -/
theorem torn_tails_genuine (limits : Limits) (journal : Bytes) :
    ((replay limits journal).truncatedTail = true →
      recordHeaderBytes ≤ (replay limits journal).recoveredBytes →
      (GenuinelyTorn limits (tornTail limits journal) ↔
        ¬StrayChecksum limits (tornTail limits journal))) ∧
    ∀ records tail, Readable limits records → records.length ≤ limits.maxJournalRecords →
      journal = stream records ++ tail → recordHeaderBytes ≤ tail.length →
      ¬Extendable limits tail →
      ((replay limits journal).status.isOk = false ∧
        (replay limits journal).truncatedTail = false ↔ ¬StrayChecksum limits tail) := by
  constructor
  · intro htruncated hheader
    obtain ⟨hlong, hvalid, hshort⟩ := tornTail_spec htruncated hheader
    constructor
    · exact fun hgenuine hwrong => hwrong.2.2 (begun_of_genuinelyTorn hlong hgenuine)
    · exact fun hright => genuinelyTorn_of_begun hlong hvalid hshort
        (not_not.mp fun hwrong => hright ⟨hvalid, hshort, hwrong⟩)
  · rintro records tail hreadable hroom rfl hlong hstray
    obtain ⟨fuel, following, gathered, hreplay, hgathered⟩ :=
      replay_through hreadable hroom tail
    rw [hreplay, replayLoop]
    obtain ⟨status, hstatus, hwhole, hrefused | hrefused⟩ | ⟨hvalid, hshort, htorn⟩ |
      ⟨record, rest, hscan⟩ := scanRecord_whole limits gathered hlong
    · rw [hrefused]
      exact iff_of_true ⟨hstatus, hgathered⟩ fun hwrong => hwhole ⟨hwrong.1, hwrong.2.1⟩
    · rw [hrefused]
      exact iff_of_true ⟨hstatus, hgathered⟩ fun hwrong => hwhole ⟨hwrong.1, hwrong.2.1⟩
    · rw [htorn]
      have hwrong : ¬ChecksumBegun tail := by
        intro hbegun
        obtain ⟨record, encoded, hencode, hbeginning, -⟩ :=
          genuinelyTorn_of_begun hlong hvalid hshort hbegun
        exact hstray ⟨record, encoded, hencode, Or.inl hbeginning⟩
      exact iff_of_false (fun hkept => Bool.noConfusion hkept.2)
        (not_not_intro ⟨hvalid, hshort, hwrong⟩)
    · obtain ⟨hframed, hfits, hbytes⟩ := scanRecord_scanned hscan
      have hfinished : record.finished = record := by
        rw [Record.finished, ← hframed.header]
      have hencode := Record.encodeRecord_of_fits hframed.kind hfits
      rw [hfinished] at hencode
      exact absurd ⟨record, record.bytes, hencode, Or.inr ⟨rest, hbytes.symm⟩⟩ hstray

namespace Sample

/-- A whole record, and what is left of the next one when only its last byte is missing. -/
def interrupted : Bytes := earlier.finished.bytes ++ later.finished.bytes.dropLast

/-- The same, with another byte as the last one. -/
def misled : Bytes := earlier.finished.bytes ++ (later.finished.bytes.dropLast.dropLast ++ [0])

end Sample

/-- A record without its last byte is cut off and is the beginning of a record; one
without its magic is refused. -/
theorem torn_tails_genuine_sample :
    GenuinelyTorn {} (tornTail {} Sample.interrupted) ∧
      (replay {} (stream [] ++ List.replicate 28 0)).status.isOk = false := by
  have htruncated : (replay {} Sample.interrupted).truncatedTail = true := by decide +kernel
  have hheader : recordHeaderBytes ≤ (replay {} Sample.interrupted).recoveredBytes := by
    decide +kernel
  have hright : ¬StrayChecksum {} (tornTail {} Sample.interrupted) := by decide +kernel
  refine ⟨((torn_tails_genuine {} Sample.interrupted).1 htruncated hheader).mpr hright, ?_⟩
  have hreadable : Readable {} [] :=
    ⟨List.forall_mem_nil _, List.forall_mem_nil _, List.IsChain.nil⟩
  have hstray : ¬Extendable {} (List.replicate 28 0) := by
    rintro ⟨record, encoded, hencode, hbeginning⟩
    obtain ⟨rfl, hframed, -⟩ := Record.encodeRecord_eq_ok hencode
    have hmagic := hframed.take_four
      (record.finished.payload ++ storeLe 4 (crc32Ieee record.finished.payload).toNat)
    rw [← List.append_assoc] at hmagic
    have hfour : (List.replicate 28 0).take 4 = record.finished.bytes.take 4 := by
      rcases hbeginning with ⟨rest, hrest⟩ | ⟨rest, hrest⟩
      · rw [← hrest, List.take_append_of_le_length (by decide)]
      · rw [← hrest, List.take_append_of_le_length
          (by rw [Record.length_bytes]; unfold recordHeaderBytes; omega)]
    exact absurd (hfour.trans hmagic) (by decide)
  exact (((torn_tails_genuine {} (stream [] ++ List.replicate 28 0)).2 [] _ hreadable
    (Nat.zero_le _) rfl (by decide) hstray).mpr (by decide +kernel)).1

/-- A record with a wrong byte in its checksum and no last byte is cut off, although no
record begins that way. -/
theorem stray_checksum_truncated :
    (replay {} Sample.misled).status.isOk = true ∧
      (replay {} Sample.misled).truncatedTail = true ∧
      recordHeaderBytes ≤ (replay {} Sample.misled).recoveredBytes ∧
      ¬GenuinelyTorn {} (tornTail {} Sample.misled) ∧
      ¬Extendable {} (tornTail {} Sample.misled) := by
  have hlong : recordHeaderBytes ≤ (tornTail {} Sample.misled).length := by decide +kernel
  have hwrong : StrayChecksum {} (tornTail {} Sample.misled) := by decide +kernel
  exact ⟨by decide +kernel, by decide +kernel, by decide +kernel,
    fun hgenuine => hwrong.2.2 (begun_of_genuinelyTorn hlong hgenuine),
    not_extendable_of_stray hlong hwrong⟩

end SwitchFailover.Persist
