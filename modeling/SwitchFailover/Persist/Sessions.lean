import SwitchFailover.Persist.Acceptance

/-!
# Appending over many sessions

A session opens the store, appends some records and closes it again.  The records
of the appends that returned Ok are kept on the side and compared with what a later
replay returns.
-/

namespace SwitchFailover.Persist

open SwitchFailover.Core Codec Library.Codec

/-- One append: the file operations succeed, or they fail after some bytes of the
encoding reached the file. -/
structure AppendRequest where
  kind : RecordKind
  payload : Bytes
  flags : UInt32 := 0
  failsAfter : Option ℕ := none
  deriving DecidableEq

namespace AppendRequest

def fate (request : AppendRequest) : Fate :=
  match request.failsAfter with
  | none => .done
  | some reached => .fault reached

/-- The append succeeds or leaves the file as it was. -/
def Orderly (request : AppendRequest) : Prop := request.fate.Orderly

end AppendRequest

namespace DurableStore

def appendOne (store : DurableStore) (disk : Disk) (request : AppendRequest) :
    AppendResult × DurableStore × Disk :=
  store.append disk request.fate request.kind request.payload request.flags

def recordOf (store : DurableStore) (request : AppendRequest) : Record :=
  store.recordFor request.kind request.payload request.flags

/-- Appends one after the other; the first component lists the records of those
that returned Ok. -/
def appendAll : DurableStore → Disk → List AppendRequest → List Record × DurableStore × Disk
  | store, disk, [] => ([], store, disk)
  | store, disk, request :: rest =>
      let (result, after) := store.appendOne disk request
      let (accepted, last) := appendAll after.1 after.2 rest
      (match result with
        | .appended => store.recordOf request :: accepted
        | _ => accepted, last)

end DurableStore

/-- Open, append, close.  A refused open appends nothing. -/
def session (limits : Limits) (disk : Disk) (requests : List AppendRequest) :
    List Record × Disk :=
  match DurableStore.open limits disk with
  | .error _ => ([], disk)
  | .ok (store, trimmed, _) =>
      let (accepted, _, last) := store.appendAll trimmed requests
      (accepted, last)

/-- Any number of sessions on one store root. -/
def cycles (limits : Limits) : Disk → List (List AppendRequest) → List Record × Disk
  | disk, [] => ([], disk)
  | disk, requests :: rest =>
      let (accepted, after) := session limits disk requests
      let (later, last) := cycles limits after rest
      (accepted ++ later, last)

variable {limits : Limits} {store : DurableStore} {disk : Disk} {request : AppendRequest}
  {requests : List AppendRequest} {records : List Record}

/-! ## One append -/

/-- The file of an open store: the readable records, and the next number. -/
structure Writing (store : DurableStore) (disk : Disk) (records : List Record) : Prop where
  readable : Readable store.limits records
  journal : disk.journal = stream records
  next : store.nextSequence = lastSequenceOf records 0 + 1

/-- What an append does to the file: nothing when it is refused, all of the record
when it returns Ok, and some beginning of the record when the file operations fail. -/
inductive Appended (store : DurableStore) (disk : Disk) (request : AppendRequest) :
    AppendResult → DurableStore → Disk → Prop
  | refused (status : Status) : Appended store disk request (.failed status) store disk
  | accepted (last : Disk) (hfate : request.failsAfter = none)
      (hframed : (store.recordOf request).Framed)
      (hfits : request.payload.length ≤ RecordHeader.payloadCeiling store.limits)
      (hcount : store.recordsWritten < store.limits.maxJournalRecords)
      (hjournal : last.journal = disk.journal ++ (store.recordOf request).bytes) :
      Appended store disk request .appended store.advanced last
  | failed (status : Status) (last : Disk) (reached : ℕ)
      (hfate : request.failsAfter = some reached)
      (hframed : (store.recordOf request).Framed)
      (hfits : request.payload.length ≤ RecordHeader.payloadCeiling store.limits)
      (hjournal : last.journal = disk.journal ++ (store.recordOf request).bytes.take reached) :
      Appended store disk request (.failed status) store last

theorem appendOne_spec (store : DurableStore) (disk : Disk) (request : AppendRequest) :
    Appended store disk request (store.appendOne disk request).1
      (store.appendOne disk request).2.1 (store.appendOne disk request).2.2 := by
  rw [DurableStore.appendOne, DurableStore.append]
  cases hprepare : store.prepare request.kind request.payload request.flags with
  | error status => exact .refused status
  | ok encoded =>
    obtain ⟨rfl, hframed⟩ := DurableStore.prepare_eq_ok hprepare
    obtain ⟨hcount, hfits⟩ := DurableStore.bounds_of_prepare hprepare
    cases hfails : request.failsAfter with
    | none =>
      rw [AppendRequest.fate, hfails]
      refine .accepted _ hfails hframed hfits hcount ?_
      change disk.journal ++ List.take _ _ = _
      rw [List.take_length]
      rfl
    | some reached =>
      rw [AppendRequest.fate, hfails]
      exact .failed _ _ reached hfails hframed hfits rfl

/-- The next number after one more record. -/
theorem Writing.accepted (hwriting : Writing store disk records)
    (hframed : (store.recordOf request).Framed)
    (hfits : request.payload.length ≤ RecordHeader.payloadCeiling store.limits) {last : Disk}
    (hjournal : last.journal = disk.journal ++ (store.recordOf request).bytes) :
    Writing store.advanced last (records ++ [store.recordOf request]) where
  readable := hwriting.readable.concat hframed hfits hwriting.next
  journal := by
    rw [hjournal, hwriting.journal, stream_append]
    simp [stream]
  next := by
    rw [lastSequenceOf, List.foldl_append]
    rfl

/-! ## A sequence of appends -/

theorem appendAll_limits (requests : List AppendRequest) (store : DurableStore) (disk : Disk) :
    (store.appendAll disk requests).2.1.limits = store.limits := by
  induction requests generalizing store disk with
  | nil => rfl
  | cons request rest ih =>
    have hspec := appendOne_spec store disk request
    rw [DurableStore.appendAll]
    dsimp only
    rw [ih]
    generalize (store.appendOne disk request).1 = result at hspec
    generalize (store.appendOne disk request).2.1 = after at hspec ⊢
    generalize (store.appendOne disk request).2.2 = last at hspec
    cases hspec with
    | refused status => rfl
    | accepted last hfate hframed hfits hcount hjournal => rfl
    | failed status last reached hfate hframed hfits hjournal => rfl

/-- Appends that succeed or leave the file as it was add exactly their records. -/
theorem appendAll_orderly (horderly : ∀ request ∈ requests, request.Orderly)
    (hwriting : Writing store disk records) :
    Writing (store.appendAll disk requests).2.1 (store.appendAll disk requests).2.2
      (records ++ (store.appendAll disk requests).1) := by
  induction requests generalizing store disk records with
  | nil =>
    rw [DurableStore.appendAll, List.append_nil]
    exact hwriting
  | cons request rest ih =>
    have hrest := fun other hother => horderly other (List.mem_cons_of_mem _ hother)
    have hspec := appendOne_spec store disk request
    rw [DurableStore.appendAll]
    dsimp only
    generalize (store.appendOne disk request).1 = result at hspec ⊢
    generalize (store.appendOne disk request).2.1 = after at hspec ⊢
    generalize (store.appendOne disk request).2.2 = last at hspec ⊢
    cases hspec with
    | refused status => exact ih hrest hwriting
    | accepted last hfate hframed hfits hcount hjournal =>
      have hlater := ih hrest (hwriting.accepted hframed hfits hjournal)
      rwa [List.append_assoc] at hlater
    | failed status last reached hfate hframed hfits hjournal =>
      have hnothing : reached = 0 := by
        have hrequest := horderly request List.mem_cons_self
        rw [AppendRequest.Orderly, AppendRequest.fate, hfate] at hrequest
        exact hrequest
      rw [hnothing, List.take_zero, List.append_nil] at hjournal
      exact ih hrest ⟨hwriting.readable, hjournal.trans hwriting.journal, hwriting.next⟩

/-- When only the last append of the sequence may leave something behind, the file
still holds every accepted record in full; what the last one left is its record or a
torn tail. -/
theorem appendAll_faulty (hearlier : ∀ request ∈ requests.dropLast, request.Orderly)
    (hwriting : Writing store disk records) :
    ∃ kept tail, (store.appendAll disk requests).2.2.journal = stream (records ++ kept) ++ tail ∧
      Readable store.limits (records ++ kept) ∧ TornWithin store.limits tail ∧
      (store.appendAll disk requests).1.Sublist kept ∧ kept.length ≤ requests.length := by
  induction requests generalizing store disk records with
  | nil =>
    refine ⟨[], [], ?_, ?_, Or.inl rfl, List.Sublist.refl _, le_rfl⟩
    · rw [List.append_nil, List.append_nil]
      exact hwriting.journal
    · rw [List.append_nil]
      exact hwriting.readable
  | cons request rest ih =>
    have hspec := appendOne_spec store disk request
    have hrest : ∀ other ∈ rest.dropLast, other.Orderly := by
      intro other hother
      apply hearlier
      cases rest with
      | nil => cases hother
      | cons second others => exact List.mem_cons_of_mem _ hother
    rw [DurableStore.appendAll]
    dsimp only
    generalize (store.appendOne disk request).1 = result at hspec ⊢
    generalize (store.appendOne disk request).2.1 = after at hspec ⊢
    generalize (store.appendOne disk request).2.2 = last at hspec ⊢
    cases hspec with
    | refused status =>
      obtain ⟨kept, tail, hjournal, hreadable, htail, hkept, hcount⟩ := ih hrest hwriting
      exact ⟨kept, tail, hjournal, hreadable, htail, hkept, hcount.trans (Nat.le_succ _)⟩
    | accepted last hfate hframed hfits hcount hjournal =>
      obtain ⟨kept, tail, hlater, hreadable, htail, hkept, hlength⟩ :=
        ih hrest (hwriting.accepted hframed hfits hjournal)
      refine ⟨store.recordOf request :: kept, tail, ?_, ?_, htail, hkept.cons_cons _,
        Nat.succ_le_succ hlength⟩
      · rwa [List.append_assoc] at hlater
      · rwa [List.append_assoc] at hreadable
    | failed status last reached hfate hframed hfits hjournal =>
      rw [hwriting.journal] at hjournal
      cases rest with
      | nil =>
        by_cases hfull : (store.recordOf request).bytes.length ≤ reached
        · -- all bytes arrived; only the confirmation failed
          refine ⟨[store.recordOf request], [], ?_,
            hwriting.readable.concat hframed hfits hwriting.next, Or.inl rfl,
            List.nil_sublist _, le_rfl⟩
          rw [List.append_nil, stream_append]
          change last.journal = _
          rw [hjournal, List.take_of_length_le hfull]
          simp [stream]
        · refine ⟨[], (store.recordOf request).bytes.take reached, ?_, ?_,
            Or.inr ⟨_, hframed, hfits, reached, not_le.mp hfull, rfl⟩,
            List.Sublist.refl _, Nat.zero_le _⟩
          · rw [List.append_nil]
            exact hjournal
          · rw [List.append_nil]
            exact hwriting.readable
      | cons second others =>
        have hnothing : reached = 0 := by
          have hrequest := hearlier request List.mem_cons_self
          rw [AppendRequest.Orderly, AppendRequest.fate, hfate] at hrequest
          exact hrequest
        rw [hnothing, List.take_zero, List.append_nil] at hjournal
        obtain ⟨kept, tail, hlater, hreadable, htail, hkept, hcount⟩ :=
          ih hrest ⟨hwriting.readable, hjournal, hwriting.next⟩
        exact ⟨kept, tail, hlater, hreadable, htail, hkept, hcount.trans (Nat.le_succ _)⟩

/-- The file of a store that has just been opened. -/
theorem writing_of_open {trimmed : Disk} {opening : ReplayReport}
    (hopen : DurableStore.open limits disk = .ok (store, trimmed, opening)) :
    Writing store trimmed opening.records ∧ store.limits = limits ∧
      opening.records.length ≤ limits.maxJournalRecords := by
  obtain ⟨hreadable, hjournal, hcount, rfl⟩ := open_accepted hopen
  exact ⟨⟨hreadable, hjournal, rfl⟩, rfl, hcount⟩

/-- Append faults.  Whatever file was opened, if every append but the last one
succeeds or leaves the file as it was and the bound on the number of records is not
reached, then replay succeeds and returns every accepted record in order. -/
theorem replay_after_faults {trimmed : Disk} {opening : ReplayReport}
    (hopen : DurableStore.open limits disk = .ok (store, trimmed, opening))
    (hearlier : ∀ request ∈ requests.dropLast, request.Orderly)
    (hroom : opening.records.length + requests.length ≤ limits.maxJournalRecords) :
    (replay limits (store.appendAll trimmed requests).2.2.journal).status.isOk = true ∧
      (opening.records ++ (store.appendAll trimmed requests).1).Sublist
        (replay limits (store.appendAll trimmed requests).2.2.journal).records := by
  obtain ⟨hwriting, rfl, -⟩ := writing_of_open hopen
  obtain ⟨kept, tail, hjournal, hreadable, htail, hkept, hcount⟩ :=
    appendAll_faulty hearlier hwriting
  have hwithin : (opening.records ++ kept).length ≤ store.limits.maxJournalRecords := by
    rw [List.length_append]
    omega
  have hspec := replay_readable_spec hreadable hwithin htail
  rw [hjournal]
  refine ⟨hspec.1, ?_⟩
  rw [hspec.2.1]
  exact (List.Sublist.refl _).append hkept

namespace Sample

/-- An append of one byte. -/
def append : AppendRequest where
  kind := .bootRegistered
  payload := [7]

/-- The same append, failing after five bytes. -/
def faulty : AppendRequest := { append with failsAfter := some 5 }

end Sample

/-- The store that is opened on an empty file. -/
theorem open_empty : DurableStore.open {} {} = .ok ({ limits := {} }, {}, {}) := rfl

/-- A failing append at the end leaves a torn tail, and the first record is
replayed. -/
theorem replay_after_faults_sample :
    ([] ++ (({ limits := {} } : DurableStore).appendAll {}
        [Sample.append, Sample.faulty]).1).Sublist
      (replay {} (({ limits := {} } : DurableStore).appendAll {}
        [Sample.append, Sample.faulty]).2.2.journal).records := by
  refine (replay_after_faults open_empty ?_ ?_).2
  · intro request hrequest
    cases List.mem_singleton.mp hrequest
    trivial
  · decide

set_option maxRecDepth 4000 in
/-- An append fails after five bytes and the next one returns Ok: the five bytes stay
in front of its record, and replay of the file fails. -/
theorem replay_after_faults_fails :
    DurableStore.open {} {} = .ok ({ limits := {} }, {}, {}) ∧
      (({ limits := {} } : DurableStore).appendAll {}
        [Sample.faulty, Sample.append]).1.length = 1 ∧
      (replay {} (({ limits := {} } : DurableStore).appendAll {}
        [Sample.faulty, Sample.append]).2.2.journal).status.isOk = false ∧
      (replay {} (({ limits := {} } : DurableStore).appendAll {}
        [Sample.faulty, Sample.append]).2.2.journal).records = [] := by
  refine ⟨rfl, ?_, ?_, ?_⟩ <;> decide +kernel

/-! ## Many sessions -/

/-- A file with more records than the bound is refused. -/
theorem open_overfull (hreadable : Readable limits records)
    (hjournal : disk.journal = stream records)
    (hmany : limits.maxJournalRecords < records.length) :
    ∃ status, DurableStore.open limits disk = .error status := by
  cases hopen : DurableStore.open limits disk with
  | error status => exact ⟨status, rfl⟩
  | ok opened =>
    obtain ⟨store, trimmed, opening⟩ := opened
    have hcount := (open_accepted hopen).2.2.1
    obtain ⟨-, hok, hresult⟩ := open_eq_ok.mp hopen
    cases hresult
    have hcovers : (replay limits disk.journal).Covers {} records [] := by
      rw [replay, hjournal, ← List.append_nil (stream records)] at hok ⊢
      apply replayLoop_stream hreadable.framed hreadable.consecutive (Or.inl rfl) _ _ hok
      · have hlength := length_le_stream records
        rw [List.append_nil]
        omega
      · intro record _
        rfl
    rw [hcovers.gathered, List.nil_append] at hcount
    omega

/-- One session adds the records it accepted. -/
theorem session_readable (hlimits : limits.validate = .ok ())
    (horderly : ∀ request ∈ requests, request.Orderly) (hreadable : Readable limits records)
    (hjournal : disk.journal = stream records) :
    Readable limits (records ++ (session limits disk requests).1) ∧
      (session limits disk requests).2.journal =
        stream (records ++ (session limits disk requests).1) := by
  by_cases hmany : limits.maxJournalRecords < records.length
  · obtain ⟨status, hopen⟩ := open_overfull hreadable hjournal hmany
    rw [session, hopen, List.append_nil]
    exact ⟨hreadable, hjournal⟩
  · have hopen := open_readable hlimits hreadable (not_lt.mp hmany) (Or.inl rfl)
      (by rw [List.append_nil]; exact hjournal)
    rw [session, hopen]
    dsimp only
    have hwriting : Writing { limits, nextSequence := lastSequenceOf records 0 + 1 }
        { disk with journal := stream records } records := ⟨hreadable, rfl, rfl⟩
    have hlast := appendAll_orderly horderly hwriting
    have hkept := appendAll_limits requests
      ({ limits, nextSequence := lastSequenceOf records 0 + 1 } : DurableStore)
      { disk with journal := stream records }
    have hsame := hlast.readable
    rw [hkept] at hsame
    exact ⟨hsame, hlast.journal⟩

theorem cycles_readable (hlimits : limits.validate = .ok ()) {sessions : List (List AppendRequest)}
    (horderly : ∀ requests ∈ sessions, ∀ request ∈ requests, request.Orderly)
    (hreadable : Readable limits records) (hjournal : disk.journal = stream records) :
    Readable limits (records ++ (cycles limits disk sessions).1) ∧
      (cycles limits disk sessions).2.journal =
        stream (records ++ (cycles limits disk sessions).1) := by
  induction sessions generalizing disk records with
  | nil =>
    rw [cycles, List.append_nil]
    exact ⟨hreadable, hjournal⟩
  | cons requests rest ih =>
    obtain ⟨hafter, hfile⟩ := session_readable hlimits
      (horderly requests List.mem_cons_self) hreadable hjournal
    have hlater := ih (fun others hothers => horderly others (List.mem_cons_of_mem _ hothers))
      hafter hfile
    rw [cycles]
    rwa [List.append_assoc] at hlater

/-- Reopening.  After any number of sessions whose file operations all succeeded, the
next open succeeds and returns exactly the accepted records if and only if there are
no more of them than the bound on journal records. -/
theorem reopen_iff_within (hlimits : limits.validate = .ok ())
    {sessions : List (List AppendRequest)}
    (hdone : ∀ requests ∈ sessions, ∀ request ∈ requests, request.failsAfter = none) :
    (∃ store trimmed report,
      DurableStore.open limits (cycles limits {} sessions).2 = .ok (store, trimmed, report) ∧
        report.records = (cycles limits {} sessions).1 ∧
        (replay limits trimmed.journal).status.isOk = true ∧
        (replay limits trimmed.journal).records = (cycles limits {} sessions).1) ↔
      (cycles limits {} sessions).1.length ≤ limits.maxJournalRecords := by
  have horderly : ∀ requests ∈ sessions, ∀ request ∈ requests, request.Orderly := by
    intro requests hrequests request hrequest
    rw [AppendRequest.Orderly, AppendRequest.fate, hdone requests hrequests request hrequest]
    trivial
  have hempty : Readable limits [] := ⟨by simp, by simp, List.IsChain.nil⟩
  obtain ⟨hreadable, hjournal⟩ := cycles_readable hlimits horderly hempty
    (show ({} : Disk).journal = stream [] from rfl)
  rw [List.nil_append] at hreadable hjournal
  constructor
  · rintro ⟨store, trimmed, report, hopen, hrecords, -, -⟩
    have hcount := (open_accepted hopen).2.2.1
    rwa [hrecords] at hcount
  · intro hroom
    have hopen := open_readable hlimits hreadable hroom (Or.inl rfl)
      (by rw [List.append_nil]; exact hjournal)
    have hspec := replay_readable_spec hreadable hroom (Or.inl rfl)
    rw [List.append_nil] at hspec
    refine ⟨_, _, _, hopen, ?_, hspec.1, hspec.2.1⟩
    rw [hjournal]
    exact hspec.2.1

namespace Sample

/-- Room for one record. -/
def tight : Limits := { maxJournalRecords := 1 }

/-- Room for three. -/
def ample : Limits := { maxJournalRecords := 3 }

/-- Two sessions, of two appends and of one. -/
def twoSessions : List (List AppendRequest) :=
  [[append, { append with payload := [8, 9] }], [{ append with kind := .shutdownClean }]]

end Sample

set_option maxRecDepth 4000 in
/-- Two sessions with as many records as the bound allows are read back. -/
theorem reopen_iff_within_sample :
    (cycles Sample.ample {} Sample.twoSessions).1.length = 3 ∧
      ∃ store trimmed report, DurableStore.open Sample.ample
          (cycles Sample.ample {} Sample.twoSessions).2 = .ok (store, trimmed, report) ∧
        report.records = (cycles Sample.ample {} Sample.twoSessions).1 := by
  have hlength : (cycles Sample.ample {} Sample.twoSessions).1.length = 3 := by decide +kernel
  have hdone : ∀ requests ∈ Sample.twoSessions, ∀ request ∈ requests,
      request.failsAfter = none := by
    decide
  obtain ⟨store, trimmed, report, hopen, hrecords, -, -⟩ :=
    (reopen_iff_within (show Sample.ample.validate = .ok () from rfl) hdone).mpr hlength.le
  exact ⟨hlength, store, trimmed, report, hopen, hrecords⟩

set_option maxRecDepth 4000 in
/-- Each of two sessions appends the one record its bound allows.  Both appends return
Ok, and the store can no longer be opened. -/
theorem reopen_refuses_accepted :
    Sample.tight.validate = .ok () ∧
      (cycles Sample.tight {} [[Sample.append], [Sample.append]]).1.length = 2 ∧
      ∃ status, DurableStore.open Sample.tight
        (cycles Sample.tight {} [[Sample.append], [Sample.append]]).2 = .error status := by
  have hrefused : (DurableStore.open Sample.tight
      (cycles Sample.tight {} [[Sample.append], [Sample.append]]).2).toBool = false := by
    decide +kernel
  refine ⟨rfl, by decide +kernel, ?_⟩
  cases hopen : DurableStore.open Sample.tight
      (cycles Sample.tight {} [[Sample.append], [Sample.append]]).2 with
  | error status => exact ⟨status, rfl⟩
  | ok opened =>
      rw [hopen] at hrefused
      cases hrefused

end SwitchFailover.Persist
