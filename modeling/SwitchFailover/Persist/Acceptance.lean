import SwitchFailover.Persist.Replay

/-!
# What replay accepts

Decoding accepts nothing but the bytes of a framed record.  A file that replays
without failure is therefore the stream of the records it returned, followed by
what was cut off as torn.
-/

namespace SwitchFailover.Persist

open SwitchFailover.Core Codec Library.Codec

variable {bytes : Bytes} {header : RecordHeader} {status : Status} {consumed : ℕ}
  {expected : Option UInt64} {disk trimmed : Disk} {store : DurableStore} {opening : ReplayReport}

variable {limits : Limits} {report : ReplayReport} {record : Record} {data : Bytes}

namespace RecordHeader

theorem take_drop_append (bytes : Bytes) (start count : ℕ) :
    (bytes.drop start).take count ++ bytes.drop (start + count) = bytes.drop start := by
  rw [← List.drop_drop, List.take_append_drop]

/-- A header is its 28 bytes. -/
theorem encode_parse (hlength : bytes.length = recordHeaderBytes) :
    (parse bytes).encode = bytes := by
  have hsize : bytes.length = 28 := hlength
  have hfield : ∀ start width, start + width ≤ 28 →
      ((bytes.drop start).take width).length = width := by
    intro start width hwithin
    rw [List.length_take, List.length_drop]
    omega
  have hsmall : ∀ start width, start + width ≤ 28 →
      loadLe ((bytes.drop start).take width) < 256 ^ width := by
    intro start width hwithin
    have hlt := loadLe_lt ((bytes.drop start).take width)
    rwa [hfield start width hwithin] at hlt
  have hmagic : (loadLe (bytes.take 4)).toUInt32.toNat = loadLe ((bytes.drop 0).take 4) :=
    UInt32.toNat_ofNat_of_lt' (hsmall 0 4 (by decide))
  have hversion := UInt16.toNat_ofNat_of_lt' (hsmall 4 2 (by decide))
  have hkind := UInt16.toNat_ofNat_of_lt' (hsmall 6 2 (by decide))
  have hflags := UInt32.toNat_ofNat_of_lt' (hsmall 8 4 (by decide))
  have hseq := UInt64.toNat_ofNat_of_lt' (hsmall 12 8 (by decide))
  have hpayload := UInt32.toNat_ofNat_of_lt' (hsmall 20 4 (by decide))
  have hcrc := UInt32.toNat_ofNat_of_lt' (hsmall 24 4 (by decide))
  simp only [encode, checkedBytes, parse]
  rw [hmagic]
  erw [hversion, hkind, hflags, hseq, hpayload, hcrc]
  rw [storeLe_field (hfield 0 4 (by decide)), storeLe_field (hfield 4 2 (by decide)),
    storeLe_field (hfield 6 2 (by decide)), storeLe_field (hfield 8 4 (by decide)),
    storeLe_field (hfield 12 8 (by decide)), storeLe_field (hfield 20 4 (by decide)),
    storeLe_field (hfield 24 4 (by decide)), List.append_assoc, List.append_assoc,
    List.append_assoc, List.append_assoc, List.append_assoc]
  have hlast : (bytes.drop 24).take 4 = bytes.drop 24 := by
    apply List.take_of_length_le
    rw [List.length_drop]
    omega
  rw [hlast, take_drop_append bytes 20 4, take_drop_append bytes 12 8,
    take_drop_append bytes 8 4, take_drop_append bytes 6 2, take_drop_append bytes 4 2,
    take_drop_append bytes 0 4, List.drop_zero]

/-- A header is never refused with the affirmative code. -/
theorem validate_eq_error (herror : header.validate limits = .error status) :
    status.isOk = false := by
  unfold validate at herror
  rcases result_bind_eq_error herror with hmagic | ⟨_, -, herror⟩
  · exact require_eq_error hmagic
  rcases result_bind_eq_error herror with hversion | ⟨_, -, herror⟩
  · exact require_eq_error hversion
  rcases result_bind_eq_error herror with hkind | ⟨_, -, herror⟩
  · exact require_eq_error hkind
  rcases result_bind_eq_error herror with hlength | ⟨_, -, hcrc⟩
  · exact require_eq_error hlength
  · exact require_eq_error hcrc

end RecordHeader

/-- Decoding of at least a header. -/
theorem decodeRecord_long (hlength : recordHeaderBytes ≤ data.length) :
    decodeRecord data limits =
      if (data.take 4).isPrefixOf magicBytes then
        match (RecordHeader.parse (data.take recordHeaderBytes)).validate limits with
        | .error status => refusedHeader status
        | .ok () => decodeBody (RecordHeader.parse (data.take recordHeaderBytes)) data
      else .corrupt (Status.failure .corrupt
        (text "record does not begin with the SFF1 magic")) := by
  have hsome : data.isEmpty = false := by
    rw [List.isEmpty_eq_false_iff, ← List.length_pos_iff]
    exact lt_of_lt_of_le (by decide) hlength
  rw [decodeRecord, hsome, if_neg (not_lt.mpr hlength)]
  cases (data.take 4).isPrefixOf magicBytes with
  | false => rfl
  | true => rfl

/-- A body that passes its checks is the rest of a framed record. -/
theorem decodeBody_complete (hvalid : header.validate limits = .ok ())
    (hheader : data.take recordHeaderBytes = header.encode)
    (hdecode : decodeBody header data = .complete record consumed) :
    record.Framed ∧ record.payload.length ≤ RecordHeader.payloadCeiling limits ∧
      consumed = recordHeaderBytes + header.payloadLen.toNat + 4 ∧ consumed ≤ data.length ∧
      data.take consumed = record.bytes := by
  obtain ⟨hmagic, hversion, hkind, hceiling, hcrc⟩ := RecordHeader.validate_eq_ok.mp hvalid
  simp only [decodeBody] at hdecode
  split at hdecode
  · cases hdecode
  · rename_i hlong
    split at hdecode
    · cases hdecode
    · rename_i hstored
      cases hdecode
      have hlength : ((data.drop recordHeaderBytes).take header.payloadLen.toNat).length =
          header.payloadLen.toNat := by
        rw [List.length_take, List.length_drop]
        omega
      have hfinished : header = finishHeader ⟨header,
          (data.drop recordHeaderBytes).take header.payloadLen.toNat⟩ := by
        have hcount : ((data.drop recordHeaderBytes).take header.payloadLen.toNat).length.toUInt32 =
            header.payloadLen := by
          rw [hlength]
          exact UInt32.ofNat_toNat
        obtain ⟨magic, formatVersion, kind, flags, seq, payloadLen, headerCrc⟩ := header
        simp only at hmagic hversion hcount hcrc
        subst hmagic hversion
        simp only [finishHeader, hcount]
        rw [show RecordHeader.computeCrc _ = headerCrc from hcrc]
      refine ⟨⟨hfinished, hkind, ?_⟩, ?_, rfl, not_lt.mp hlong, ?_⟩
      · rw [hlength]
        exact le_trans hceiling (min_le_right _ _)
      · rw [hlength]
        exact hceiling
      · rw [Record.bytes, ← not_not.mp hstored]
        have hchecksum : ((data.drop (recordHeaderBytes + header.payloadLen.toNat)).take 4).length =
            4 := by
          rw [List.length_take, List.length_drop]
          omega
        have hsmall := loadLe_lt ((data.drop (recordHeaderBytes + header.payloadLen.toNat)).take 4)
        rw [hchecksum] at hsmall
        rw [show (loadLe ((data.drop (recordHeaderBytes +
            header.payloadLen.toNat)).take 4)).toUInt32.toNat = _ from
          UInt32.toNat_ofNat_of_lt' hsmall, storeLe_field hchecksum, ← hheader]
        rw [List.take_add, List.take_add]

theorem decodeRecord_complete (hdecode : decodeRecord data limits = .complete record consumed) :
    recordHeaderBytes ≤ data.length ∧ record.Framed ∧
      record.payload.length ≤ RecordHeader.payloadCeiling limits ∧
      consumed = recordHeaderBytes +
        (RecordHeader.parse (data.take recordHeaderBytes)).payloadLen.toNat + 4 ∧
      consumed ≤ data.length ∧ data.take consumed = record.bytes := by
  by_cases hlength : recordHeaderBytes ≤ data.length
  · rw [decodeRecord_long hlength] at hdecode
    split at hdecode
    · split at hdecode
      · rename_i status _
        rw [refusedHeader] at hdecode
        split at hdecode <;> cases hdecode
      · rename_i hvalid
        have hheader : data.take recordHeaderBytes =
            (RecordHeader.parse (data.take recordHeaderBytes)).encode := by
          rw [RecordHeader.encode_parse (by rw [List.length_take, min_eq_left hlength])]
        exact ⟨hlength, decodeBody_complete hvalid hheader hdecode⟩
    · cases hdecode
  · exfalso
    rw [decodeRecord] at hdecode
    split at hdecode
    · cases hdecode
    · split at hdecode
      · cases hdecode
      · rw [if_pos (not_le.mp hlength)] at hdecode
        cases hdecode

/-- Bytes are never refused with the affirmative code. -/
theorem decodeRecord_refused (hdecode : decodeRecord data limits = .corrupt status ∨
      decodeRecord data limits = .unsupported status) : status.isOk = false := by
  by_cases hlength : recordHeaderBytes ≤ data.length
  · rw [decodeRecord_long hlength] at hdecode
    split at hdecode
    · split at hdecode
      · rename_i refused hvalidate
        have hrefused := RecordHeader.validate_eq_error hvalidate
        rw [refusedHeader] at hdecode
        split at hdecode
        · rcases hdecode with hcase | hcase <;> cases hcase
          exact hrefused
        · rcases hdecode with hcase | hcase <;> cases hcase
          exact hrefused
      · simp only [decodeBody] at hdecode
        split at hdecode
        · rcases hdecode with hcase | hcase <;> cases hcase
        · split at hdecode
          · rcases hdecode with hcase | hcase <;> cases hcase
            exact Status.failure_not_isOk _ _
          · rcases hdecode with hcase | hcase <;> cases hcase
    · rcases hdecode with hcase | hcase <;> cases hcase
      exact Status.failure_not_isOk _ _
  · rw [decodeRecord] at hdecode
    split at hdecode
    · rcases hdecode with hcase | hcase <;> cases hcase
    · split at hdecode
      · rcases hdecode with hcase | hcase <;> cases hcase
        exact Status.failure_not_isOk _ _
      · rw [if_pos (not_le.mp hlength)] at hdecode
        rcases hdecode with hcase | hcase <;> cases hcase

/-- A header on its own is refused, or it says how long the record is. -/
theorem decodeRecord_header (hlength : data.length = recordHeaderBytes) :
    (∃ status, decodeRecord data limits = .corrupt status) ∨
      (∃ status, decodeRecord data limits = .unsupported status) ∨
      ((RecordHeader.parse data).validate limits = .ok () ∧ decodeRecord data limits =
          .tornTail (some (RecordHeader.parse data)) recordHeaderBytes) := by
  have htake : data.take recordHeaderBytes = data := List.take_of_length_le hlength.le
  rw [decodeRecord_long hlength.ge, htake]
  split
  · split
    · rename_i status _
      rw [refusedHeader]
      split
      · exact Or.inr (Or.inl ⟨status, rfl⟩)
      · exact Or.inl ⟨status, rfl⟩
    · rename_i hvalid
      refine Or.inr (Or.inr ⟨hvalid, ?_⟩)
      rw [decodeBody]
      dsimp only
      rw [if_pos (by omega), hlength]
  · exact Or.inl ⟨_, rfl⟩

theorem length_header_of_full (hfull : ¬(bytes.take recordHeaderBytes).length < recordHeaderBytes) :
    (bytes.take recordHeaderBytes).length = recordHeaderBytes := by
  apply le_antisymm
  · rw [List.length_take]
    exact min_le_left _ _
  · exact not_lt.mp hfull

/-- A record that is read off the front of the file stands there in full. -/
theorem scanRecord_scanned {rest : Bytes}
    (hscan : scanRecord limits report bytes = .scanned record rest) :
    record.Framed ∧ record.payload.length ≤ RecordHeader.payloadCeiling limits ∧
      bytes = record.bytes ++ rest := by
  rw [scanRecord] at hscan
  dsimp only at hscan
  split at hscan
  · cases hscan
  · split at hscan
    · split at hscan <;> cases hscan
    · rename_i hfull
      have hheader := length_header_of_full hfull
      obtain ⟨status, hprobe⟩ | ⟨status, hprobe⟩ | ⟨-, hprobe⟩ := decodeRecord_header hheader
      · rw [hprobe] at hscan
        cases hscan
      · rw [hprobe] at hscan
        cases hscan
      · rw [hprobe] at hscan
        dsimp only at hscan
        split at hscan
        · cases hscan
        · rename_i hbody
          split at hscan
          · rename_i decoded consumed hdecode
            cases hscan
            obtain ⟨-, hframed, hfits, hconsumed, hwithin, htake⟩ := decodeRecord_complete hdecode
            refine ⟨hframed, hfits, ?_⟩
            rw [List.take_left' hheader] at hconsumed
            rw [← htake, hconsumed, List.take_of_length_le (by
                rw [List.length_append, hheader, List.length_take]
                omega), add_assoc, ← List.drop_drop, List.append_assoc, List.take_append_drop,
              List.take_append_drop]
          · cases hscan
          · cases hscan
          · cases hscan

/-- A scan that ends without a failure is at the end of the file, or everything
that is left was reported as torn. -/
theorem scanRecord_finished {final : ReplayReport}
    (hscan : scanRecord limits report bytes = .finished final) (hok : final.status.isOk = true) :
    final = report.ended bytes := by
  rw [scanRecord] at hscan
  dsimp only at hscan
  split at hscan
  · rename_i hempty
    have hnil : bytes = [] := by
      rw [List.isEmpty_iff, List.take_eq_nil_iff] at hempty
      exact hempty.resolve_left (by decide)
    cases hscan
    rw [ReplayReport.ended, if_pos hnil]
  · rename_i hsome
    have hbytes : bytes ≠ [] := by
      rintro rfl
      exact hsome rfl
    rw [ReplayReport.ended, if_neg hbytes]
    split at hscan
    · rename_i hshort
      have hall : bytes.take recordHeaderBytes = bytes := by
        apply List.take_of_length_le
        rw [List.length_take] at hshort
        omega
      split at hscan
      · cases hscan
        rw [hall]
      · cases hscan
        exact absurd hok (by rw [Bool.not_eq_true]; exact Status.failure_not_isOk _ _)
      · rename_i status hdecode
        cases hscan
        exact absurd (hok.symm.trans (decodeRecord_refused (Or.inl hdecode))) (by decide)
      · rename_i status hdecode
        cases hscan
        exact absurd (hok.symm.trans (decodeRecord_refused (Or.inr hdecode))) (by decide)
    · rename_i hfull
      have hheader := length_header_of_full hfull
      obtain ⟨status, hprobe⟩ | ⟨status, hprobe⟩ | ⟨-, hprobe⟩ := decodeRecord_header hheader
      · rw [hprobe] at hscan
        cases hscan
        exact absurd (hok.symm.trans (decodeRecord_refused (Or.inl hprobe))) (by decide)
      · rw [hprobe] at hscan
        cases hscan
        exact absurd (hok.symm.trans (decodeRecord_refused (Or.inr hprobe))) (by decide)
      · rw [hprobe] at hscan
        dsimp only at hscan
        split at hscan
        · rename_i hbody
          cases hscan
          rw [List.length_take, List.length_drop] at hbody ⊢
          rw [List.length_take] at hheader
          congr 1
          omega
        · rename_i hbody
          split at hscan
          · cases hscan
          · rename_i status hdecode
            cases hscan
            exact absurd (hok.symm.trans (decodeRecord_refused (Or.inr hdecode))) (by decide)
          · rename_i status hdecode
            cases hscan
            exact absurd (hok.symm.trans (decodeRecord_refused (Or.inl hdecode))) (by decide)
          · -- a record of the declared length is never torn
            rename_i torn consumed hdecode
            exfalso
            rw [decodeRecord_long (by rw [List.length_append, hheader]; exact Nat.le_add_right _ _),
              List.take_left' hheader] at hdecode
            split at hdecode
            · split at hdecode
              · rw [refusedHeader] at hdecode
                split at hdecode <;> cases hdecode
              · simp only [decodeBody] at hdecode
                split at hdecode
                · rename_i hshort
                  rw [List.length_append, hheader] at hshort
                  omega
                · split at hdecode <;> cases hdecode
            · cases hdecode

/-- A record is admitted only in its turn and while there is room. -/
theorem admitRecord_eq_ok {next : ReplayReport}
    (hadmitted : admitRecord limits expected report record = .ok next) :
    next = report.gather record ∧ expected.getD record.header.seq = record.header.seq ∧
      report.records.length < limits.maxJournalRecords := by
  rw [admitRecord] at hadmitted
  dsimp only at hadmitted
  split at hadmitted
  · cases hadmitted
  · rename_i hnumber
    split at hadmitted
    · cases hadmitted
    · rename_i hroom
      cases hadmitted
      exact ⟨rfl, (not_not.mp hnumber).symm, not_le.mp hroom⟩

theorem admitRecord_eq_error {refused : ReplayReport}
    (hrefused : admitRecord limits expected report record = .error refused) :
    refused.status.isOk = false := by
  rw [admitRecord] at hrefused
  dsimp only at hrefused
  split at hrefused
  · cases hrefused
    dsimp only [ReplayReport.corrupted]
    split
    · exact Status.failure_not_isOk _ _
    · exact Status.failure_not_isOk _ _
  · split at hrefused
    · cases hrefused
      exact Status.failure_not_isOk _ _
    · cases hrefused

/-- The loop over arbitrary bytes, when it ends without a failure. -/
theorem replayLoop_accepted {fuel : ℕ} (hfuel : bytes.length < fuel)
    (hwithin : report.records.length ≤ limits.maxJournalRecords)
    (hok : (replayLoop limits fuel bytes expected report).status.isOk = true) :
    ∃ records tail, bytes = stream records ++ tail ∧ Readable limits records ∧
      (∀ record, records.head? = some record →
        expected.getD record.header.seq = record.header.seq) ∧
      report.records.length + records.length ≤ limits.maxJournalRecords ∧
      replayLoop limits fuel bytes expected report =
        (records.foldl ReplayReport.gather report).ended tail := by
  induction fuel generalizing bytes expected report with
  | zero => exact absurd hfuel (Nat.not_lt_zero _)
  | succ fuel ih =>
    rw [replayLoop] at hok ⊢
    cases hscan : scanRecord limits report bytes with
    | finished final =>
      rw [hscan] at hok
      refine ⟨[], bytes, rfl, ⟨by simp, by simp, List.IsChain.nil⟩, by simp, by simpa, ?_⟩
      exact scanRecord_finished hscan hok
    | scanned record rest =>
      obtain ⟨hframed, hfits, rfl⟩ := scanRecord_scanned hscan
      rw [hscan] at hok
      dsimp only at hok ⊢
      cases hadmitted : admitRecord limits expected report record with
      | error refused =>
        rw [hadmitted] at hok
        exact absurd (hok.symm.trans (admitRecord_eq_error hadmitted)) (by decide)
      | ok next =>
        rw [hadmitted] at hok
        dsimp only at hok ⊢
        obtain ⟨rfl, hnumber, hroom⟩ := admitRecord_eq_ok hadmitted
        have hgathered : (report.gather record).records.length = report.records.length + 1 := by
          simp [ReplayReport.gather]
        rw [List.length_append, record.length_bytes] at hfuel
        obtain ⟨records, tail, rfl, hreadable, hhead, hcount, hresult⟩ :=
          ih (by omega) (by omega) hok
        refine ⟨record :: records, tail, ?_, ?_, ?_, ?_, ?_⟩
        · rw [stream_cons, List.append_assoc]
        · refine ⟨List.forall_mem_cons.mpr ⟨hframed, hreadable.framed⟩,
            List.forall_mem_cons.mpr ⟨hfits, hreadable.fits⟩, ?_⟩
          cases records with
          | nil => exact List.IsChain.singleton record
          | cons following others =>
            refine List.isChain_cons_cons.mpr ⟨?_, hreadable.consecutive⟩
            have hfollowing := hhead following rfl
            rw [Option.getD_some, hnumber] at hfollowing
            exact hfollowing.symm
        · intro first hfirst
          cases hfirst
          exact hnumber
        · rw [List.length_cons]
          omega
        · rw [hresult, List.foldl_cons]

/-- Opening accepts only a file of framed records in sequence, and it leaves
exactly their bytes. -/
theorem open_accepted (hopen : DurableStore.open limits disk = .ok (store, trimmed, opening)) :
    Readable limits opening.records ∧ trimmed.journal = stream opening.records ∧
      opening.records.length ≤ limits.maxJournalRecords ∧
      store = { limits, nextSequence := lastSequenceOf opening.records 0 + 1 } := by
  obtain ⟨-, hok, hresult⟩ := open_eq_ok.mp hopen
  obtain ⟨records, tail, hjournal, hreadable, -, hcount, hreport⟩ :=
    replayLoop_accepted (Nat.lt_succ_self _) (Nat.zero_le _) hok
  obtain ⟨hrecords, hsequence, -, htruncated, hrecovered⟩ := foldl_gather records {}
  have hopening : replay limits disk.journal =
      (records.foldl ReplayReport.gather {}).ended tail := hreport
  have hgathered : (replay limits disk.journal).records = records := by
    rw [hopening, ReplayReport.ended]
    split
    · exact hrecords.trans (List.nil_append _)
    · exact hrecords.trans (List.nil_append _)
  have hlast : (replay limits disk.journal).lastSequence = lastSequenceOf records 0 := by
    rw [hopening, ReplayReport.ended]
    split
    · exact hsequence
    · exact hsequence
  cases hresult
  rw [hgathered, hlast]
  refine ⟨hreadable, ?_, by simpa using hcount, rfl⟩
  rw [hopening, ReplayReport.ended]
  by_cases hnone : tail = []
  · rw [if_pos hnone, if_neg (by rw [htruncated]; decide), hjournal, hnone, List.append_nil]
  · rw [if_neg hnone, ReplayReport.torn]
    dsimp only
    rw [if_pos rfl, hjournal, List.length_append, Nat.add_sub_cancel, List.take_left' rfl]

/-- The flag of the report says whether the last record it gathered closed the journal. -/
def ReplayReport.Truthful (report : ReplayReport) : Prop :=
  report.cleanShutdown = report.records.getLast?.any fun record =>
    record.header.kind == RecordKind.shutdownClean.raw

theorem ReplayReport.truthful_gather (report : ReplayReport) (record : Record) :
    (report.gather record).Truthful := by
  rw [ReplayReport.Truthful, ReplayReport.gather, List.getLast?_concat]
  rfl

theorem ReplayReport.Truthful.ended (htruthful : report.Truthful) (tail : Bytes) :
    (report.ended tail).Truthful := by
  rw [ReplayReport.ended]
  split
  · exact htruthful
  · exact htruthful

theorem ReplayReport.Truthful.foldl_gather (htruthful : report.Truthful)
    (records : List Record) : (records.foldl ReplayReport.gather report).Truthful := by
  induction records generalizing report with
  | nil => exact htruthful
  | cons record records ih => exact ih (report.truthful_gather record)

theorem open_truthful (hopen : DurableStore.open limits disk = .ok (store, trimmed, opening)) :
    opening.Truthful := by
  obtain ⟨-, hok, hresult⟩ := open_eq_ok.mp hopen
  obtain ⟨records, tail, -, -, -, -, hreport⟩ :=
    replayLoop_accepted (Nat.lt_succ_self _) (Nat.zero_le _) hok
  cases hresult
  have hopening : replay limits disk.journal =
      (records.foldl ReplayReport.gather {}).ended tail := hreport
  have hempty : ReplayReport.Truthful {} := rfl
  rw [hopening]
  exact (hempty.foldl_gather records).ended tail

end SwitchFailover.Persist
