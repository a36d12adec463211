import SwitchFailover.Runtime.AuthoritySafety
import SwitchFailover.Runtime.Recovery

/-!
# What the journal keeps across incarnations

Over runs in which a failed append leaves the file as it was, the file always
holds the completed records and at most a torn tail, and the records are a
lineage: every fence has a failure behind it, and the identities of successive
incarnations ascend.  Opening therefore gives back what was written.
-/

namespace SwitchFailover.Runtime

open SwitchFailover.Core Codec Model Plan Persist Library.Effects Library.Transitions

variable {operation : Operation} {headers : List (CoordinatorEpoch × BootIncarnation)}
  {next : CoordinatorEpoch × BootIncarnation} {other : RecordKind} {failure : FailureRecord}
  {declaration : FailureDeclaration} {middle : CallState}

variable {fates : Fate → Prop} {scope : Scope} {impl first last : Impl} {records : List Record}
  {fence : FenceRecord} {record : Record} {store : DurableStore} {kind : RecordKind}
  {payload : Bytes} {outcome : Except Stop Unit} {config : CoordinatorConfig} {process : Process}
  {env : Env} {disk : Disk}

/-! ## The file and its history -/

def Env.Orderly (env : Env) : Prop := ∀ index, (env.fate index).Orderly

theorem Env.Orderly.of_deals (horderly : env.Orderly) {fate : Fate} (hdeals : env.deals fate) :
    fate.Orderly := by
  rcases hdeals with rfl | ⟨index, rfl⟩
  · trivial
  · exact horderly index

/-- A failed append leaves the file as it was, unless the process dies. -/
def Event.Orderly : Event → Prop
  | .boot _ _ env | .call _ env => env.Orderly
  | .exit => True

/-- What a coordinator knows about its file: a store can be appended to, and
without a store the file is left at rest. -/
def Impl.Aligned (impl : Impl) : Prop :=
  match impl.store with
  | none => impl.disk.Resting
  | some store => impl.disk.Aligned store.nextSequence

section Aligned

variable {fate : Fate}

theorem Impl.Aligned.of_store (haligned : impl.Aligned) (hstore : impl.store = some store) :
    impl.disk.Aligned store.nextSequence := by
  rw [Impl.Aligned, hstore] at haligned
  exact haligned

theorem Impl.Aligned.resting (haligned : impl.Aligned) : impl.disk.Resting := by
  cases hstore : impl.store with
  | none =>
    rw [Impl.Aligned, hstore] at haligned
    exact haligned
  | some store => exact (haligned.of_store hstore).resting

theorem Impl.Aligned.appended (haligned : impl.Aligned) (hstore : impl.store = some store)
    (hfate : fate.Orderly) (halive : (store.append impl.disk fate kind payload).1 ≠ .crashed) :
    (impl.appended store fate kind payload).Aligned :=
  append_aligned (haligned.of_store hstore) hfate halive

theorem Impl.Aligned.appended_resting (haligned : impl.Aligned) (hstore : impl.store = some store) :
    (impl.appended store fate kind payload).disk.Resting :=
  append_resting (haligned.of_store hstore)

theorem Impl.Aligned.journaled (haligned : impl.Aligned) :
    (impl.journaled kind payload).Aligned := by
  rw [Impl.journaled]
  split
  · exact haligned
  · rename_i store hstore
    exact haligned.appended hstore trivial append_done_alive

end Aligned

theorem Routine.aligned (hfates : ∀ fate, fates fate → fate.Orderly)
    (hroutine : Routine fates scope first last) (haligned : first.Aligned) : last.Aligned := by
  cases hroutine with
  | append store fate kind payload hstore hfate hrecord halive =>
    exact haligned.appended hstore (hfates fate hfate) halive
  | close =>
    obtain ⟨limits, policy, disk, store⟩ := first
    cases store with
    | none => exact haligned
    | some store => exact haligned
  | _ => exact haligned

/-- A call that comes back leaves the file aligned; one that does not leaves it at
rest. -/
theorem Routines.Ending.aligned (hfates : ∀ fate, fates fate → fate.Orderly)
    (hending : Routines.Ending fates scope outcome first last) (haligned : first.Aligned) :
    last.disk.Resting ∧ (outcome ≠ .error .crashed → last.Aligned) := by
  have hstep : ∀ first last, Routine fates scope first last → first.Aligned → last.Aligned :=
    fun _ _ hroutine => hroutine.aligned hfates
  rcases outcome with (status | _) | ⟨⟩
  · have hlast : last.Aligned := Routines.preserve hstep hending haligned
    exact ⟨hlast.resting, fun _ => hlast⟩
  · obtain ⟨middle, hmiddle, hdies⟩ := hending
    refine ⟨?_, fun halive => absurd rfl halive⟩
    cases hdies with
    | append store fate kind payload hstore =>
      exact (hmiddle.preserve hstep haligned).appended_resting hstore
  · have hlast : last.Aligned := Routines.preserve hstep hending haligned
    exact ⟨hlast.resting, fun _ => hlast⟩

theorem FencePart.aligned {subject : SwitchKey} {first : CallState} (horderly : first.env.Orderly)
    (hfence : FencePart subject first outcome last) (haligned : first.impl.Aligned) :
    last.disk.Resting ∧ (outcome ≠ .error .crashed → last.Aligned) := by
  cases hfence with
  | deferred hfenced => exact ⟨haligned.resting, fun _ => haligned⟩
  | refused status hfenced => exact ⟨haligned.resting, fun _ => haligned⟩
  | unwritten fence authority store stop hfenced hstore houtcome =>
    have hgranted : ({ first.impl with authority } : Impl).Aligned := haligned
    refine ⟨hgranted.appended_resting hstore, fun halive => ?_⟩
    apply hgranted.appended hstore (horderly _)
    intro hcrash
    rw [hcrash] at houtcome
    cases houtcome
    exact halive rfl
  | committed fence authority hfenced hwritten =>
    have hgranted : ({ first.impl with authority } : Impl).Aligned := haligned
    have hlast : (({ first.impl with authority } : Impl).journaled .fenceCommitted
        (encodeFenceRecord fence)).Aligned := hgranted.journaled
    exact ⟨hlast.resting, fun _ => hlast⟩

theorem Performed.aligned (horderly : env.Orderly)
    (hperformed : Performed impl env operation outcome last) (haligned : impl.Aligned) :
    last.disk.Resting ∧ (outcome ≠ .error .crashed → last.Aligned) := by
  have hfates : ∀ fate, env.deals fate → fate.Orderly := fun _ => horderly.of_deals
  cases hperformed with
  | routine operation outcome last hroutines => exact hroutines.aligned hfates haligned
  | declared declaration outcome last hdeclared =>
    cases hdeclared with
    | stopped last stop hroutines => exact hroutines.aligned hfates haligned
    | fenced middle record outcome last hroutines hrecorded hfence =>
      have hmiddle : middle.impl.Aligned :=
        hroutines.preserve (fun _ _ hroutine => hroutine.aligned hfates) haligned
      have henv : middle.env = env := hrecorded.env
      exact hfence.aligned (henv ▸ horderly) hmiddle

/-! ## The lineage in the records -/

/-- Both numbers of an incarnation have a successor. -/
def Unsaturated (header : CoordinatorEpoch × BootIncarnation) : Prop :=
  header.1.raw.toNat < 2 ^ 64 - 1 ∧ header.2.bootOrdinal.toNat < 2 ^ 64 - 1

def Precedes (earlier later : CoordinatorEpoch × BootIncarnation) : Prop :=
  earlier.1.raw < later.1.raw ∧ earlier.2.bootOrdinal < later.2.bootOrdinal

/-- As long as no number is exhausted, the identities of incarnations ascend. -/
def Ascending (headers : List (CoordinatorEpoch × BootIncarnation)) : Prop :=
  (∀ header ∈ headers, Unsaturated header) →
    headers.Pairwise Precedes ∧ ∀ header ∈ headers, header.2.bootOrdinal ≠ 0

/-- The identity a restart takes on after the last one. -/
def Succeeds (previous next : CoordinatorEpoch × BootIncarnation) : Prop :=
  if previous.2.bootOrdinal ≠ 0 then
    next.1.raw = previous.1.raw + 1 ∧ next.2.bootOrdinal = previous.2.bootOrdinal + 1
  else next.2.bootOrdinal ≠ 0

structure Lineal (records : List Record) : Prop where
  failures : ∀ record ∈ records, record.header.kind = RecordKind.failureCommitted.raw →
    ∃ failure, failureIn record = some failure ∧ record.payload = encodeFailureRecord failure
  fences : ∀ record ∈ records, record.header.kind = RecordKind.fenceCommitted.raw →
    ∃ fence, fenceIn record = some fence ∧ record.payload = encodeFenceRecord fence ∧
      ∃ cause ∈ records, ∃ failure, failureIn cause = some failure ∧
        failure.subject = fence.subject
  headers : Ascending (records.filterMap headerIn)

/-- What may be added to a lineage. -/
def Admissible (records : List Record) : RecordKind → Bytes → Prop
  | .failureCommitted, payload =>
      ∃ failure, Journalable failure ∧ payload = encodeFailureRecord failure
  | .fenceCommitted, payload =>
      ∃ fence, FenceJournalable fence ∧ payload = encodeFenceRecord fence ∧
        ∃ cause ∈ records, ∃ failure, failureIn cause = some failure ∧
          failure.subject = fence.subject
  | .streamHeader, payload =>
      ∃ epoch boot, payload = encodeStreamHeader epoch boot ∧
        Succeeds (lastHeader records) (epoch, boot)
  | _, _ => True

theorem Recordable.admissible (hrecord : Recordable kind payload) :
    Admissible records kind payload := by
  cases kind with
  | failureCommitted => exact hrecord
  | fenceCommitted | streamHeader => exact hrecord.elim
  | _ => trivial

theorem lt_succ_of_unsaturated {value next : UInt64} (hvalue : value.toNat < 2 ^ 64 - 1)
    (hnext : next = value + 1) : value < next := by
  rw [hnext, UInt64.lt_iff_toNat_lt, UInt64.toNat_add]
  simp only [UInt64.reduceToNat]
  omega

theorem Precedes.trans {first second third : CoordinatorEpoch × BootIncarnation}
    (hfirst : Precedes first second) (hsecond : Precedes second third) : Precedes first third :=
  ⟨UInt64.lt_trans hfirst.1 hsecond.1, UInt64.lt_trans hfirst.2 hsecond.2⟩

/-- A header that succeeds the last one follows all of them. -/
theorem precedes_of_succeeds (hunsaturated : ∀ header ∈ headers, Unsaturated header)
    (hascending : Ascending headers)
    (hnext : Succeeds (headers.foldl (fun _ header => header) default) next) :
    (∀ header ∈ headers, Precedes header next) ∧ next.2.bootOrdinal ≠ 0 := by
  obtain ⟨hpairwise, hnonzero⟩ := hascending hunsaturated
  rcases headers.eq_nil_or_concat with rfl | ⟨front, last, rfl⟩
  · refine ⟨by simp, ?_⟩
    rw [Succeeds, if_neg (by decide)] at hnext
    exact hnext
  · rw [List.concat_eq_append] at *
    rw [List.foldl_append, List.foldl_cons, List.foldl_nil, Succeeds,
      if_pos (hnonzero last (by simp))] at hnext
    have hlast := hunsaturated last (by simp)
    have hprecedes : Precedes last next :=
      ⟨lt_succ_of_unsaturated hlast.1 hnext.1, lt_succ_of_unsaturated hlast.2 hnext.2⟩
    refine ⟨?_, ?_⟩
    · intro header hheader
      rcases List.mem_append.mp hheader with hfront | hsame
      · exact ((List.pairwise_append.mp hpairwise).2.2 header hfront last (by simp)).trans hprecedes
      · rw [List.mem_singleton.mp hsame]
        exact hprecedes
    · intro hzero
      have hlt := hprecedes.2
      rw [hzero] at hlt
      exact absurd hlt (by simp)

theorem Ascending.concat (hascending : Ascending headers)
    (hnext : Succeeds (headers.foldl (fun _ header => header) default) next) :
    Ascending (headers ++ [next]) := by
  intro hunsaturated
  have hbefore : ∀ header ∈ headers, Unsaturated header :=
    fun header hheader => hunsaturated header (List.mem_append_left _ hheader)
  obtain ⟨hpairwise, hnonzero⟩ := hascending hbefore
  obtain ⟨hprecedes, hordinal⟩ := precedes_of_succeeds hbefore hascending hnext
  constructor
  · refine List.pairwise_append.mpr ⟨hpairwise, List.pairwise_singleton _ _, ?_⟩
    intro header hheader other hother
    rw [List.mem_singleton.mp hother]
    exact hprecedes header hheader
  · intro header hheader
    rcases List.mem_append.mp hheader with hold | hnew
    · exact hnonzero header hold
    · rw [List.mem_singleton.mp hnew]
      exact hordinal

theorem contentOf_recordFor {A : Type} {decode : Bytes → Result A} :
    contentOf other decode (store.recordFor kind payload) =
      if kind = other then (decode payload).toOption else none := by
  rw [contentOf, recordFor_kind, recordFor_payload]
  by_cases hkind : kind = other
  · rw [if_pos (by rw [hkind]), if_pos hkind]
  · rw [if_neg, if_neg hkind]
    intro hraw
    have hsame : RecordKind.ofRaw kind.raw = some other := ofRaw_eq_some.mpr hraw
    rw [ofRaw_eq_some.mpr rfl] at hsame
    exact hkind (Option.some.inj hsame)

theorem kind_of_recordFor (hkind : (store.recordFor kind payload).header.kind = other.raw) :
    kind = other := by
  have hsame : RecordKind.ofRaw kind.raw = some other := ofRaw_eq_some.mpr hkind
  rw [ofRaw_eq_some.mpr rfl] at hsame
  exact Option.some.inj hsame

theorem Journalable.decode (hjournalable : Journalable failure) :
    decodeFailureRecord (encodeFailureRecord failure) = .ok failure :=
  decode_encodeFailureRecord hjournalable.subject hjournalable.observed hjournalable.reason

theorem FenceJournalable.decode (hjournalable : FenceJournalable fence) :
    decodeFenceRecord (encodeFenceRecord fence) = .ok fence :=
  decode_encodeFenceRecord hjournalable.subject hjournalable.reason

/-- An admissible record keeps the lineage. -/
theorem Lineal.concat (hlineal : Lineal records) (hadmissible : Admissible records kind payload) :
    Lineal (records ++ [store.recordFor kind payload]) where
  failures := by
    intro record hrecord hkind
    rcases List.mem_append.mp hrecord with hold | hnew
    · exact hlineal.failures record hold hkind
    · rw [List.mem_singleton.mp hnew] at hkind ⊢
      obtain rfl := kind_of_recordFor hkind
      obtain ⟨failure, hjournalable, hpayload⟩ := hadmissible
      refine ⟨failure, ?_, hpayload⟩
      rw [failureIn, contentOf_recordFor, if_pos rfl, hpayload, hjournalable.decode,
        Except.toOption]
  fences := by
    intro record hrecord hkind
    rcases List.mem_append.mp hrecord with hold | hnew
    · obtain ⟨fence, hfence, hpayload, cause, hcause, hfailure⟩ :=
        hlineal.fences record hold hkind
      exact ⟨fence, hfence, hpayload, cause, List.mem_append_left _ hcause, hfailure⟩
    · rw [List.mem_singleton.mp hnew] at hkind ⊢
      obtain rfl := kind_of_recordFor hkind
      obtain ⟨fence, hjournalable, hpayload, cause, hcause, hfailure⟩ := hadmissible
      refine ⟨fence, ?_, hpayload, cause, List.mem_append_left _ hcause, hfailure⟩
      rw [fenceIn, contentOf_recordFor, if_pos rfl, hpayload, hjournalable.decode, Except.toOption]
  headers := by
    rw [List.filterMap_append]
    by_cases hkind : kind = .streamHeader
    · subst hkind
      obtain ⟨epoch, boot, hpayload, hnext⟩ := hadmissible
      have hheader : headerIn (store.recordFor .streamHeader payload) = some (epoch, boot) := by
        rw [headerIn, contentOf_recordFor, if_pos rfl, hpayload, decode_encodeStreamHeader,
          Except.toOption]
      rw [List.filterMap_cons_some hheader, List.filterMap_nil]
      exact hlineal.headers.concat hnext
    · have hnone : headerIn (store.recordFor kind payload) = none := by
        rw [headerIn, contentOf_recordFor, if_neg hkind]
      rw [List.filterMap_cons_none hnone, List.filterMap_nil, List.append_nil]
      exact hlineal.headers

/-- However an append ends, its record is added to the history or it is not. -/
theorem completed_append (store : DurableStore) (disk : Disk) (fate : Fate) (kind : RecordKind)
    (payload : Bytes) :
    (store.append disk fate kind payload).2.2.completed = disk.completed ∨
      (store.append disk fate kind payload).2.2.completed =
        disk.completed ++ [store.recordFor kind payload] := by
  have hreceive : ∀ encoded reached,
      (disk.receive (store.recordFor kind payload) encoded reached).completed = disk.completed ∨
        (disk.receive (store.recordFor kind payload) encoded reached).completed =
          disk.completed ++ [store.recordFor kind payload] := by
    intro encoded reached
    simp only [Disk.receive]
    split
    · exact Or.inr rfl
    · exact Or.inl rfl
  rw [DurableStore.append]
  cases store.prepare kind payload with
  | error status => exact Or.inl rfl
  | ok encoded =>
    cases fate with
    | done => exact hreceive _ _
    | fault reached => exact hreceive _ _
    | crash reached => exact hreceive _ _

/-- The history only grows, and stays a lineage. -/
structure Extends (first last : Disk) : Prop where
  grows : first.completed ⊆ last.completed
  lineal : Lineal first.completed → Lineal last.completed

theorem Extends.refl (disk : Disk) : Extends disk disk := ⟨List.Subset.refl _, id⟩

theorem Extends.trans {first middle last : Disk} (hfirst : Extends first middle)
    (hlast : Extends middle last) : Extends first last :=
  ⟨List.Subset.trans hfirst.grows hlast.grows, fun hlineal => hlast.lineal (hfirst.lineal hlineal)⟩

theorem extends_appended (impl : Impl) {fate : Fate}
    (hadmissible : Admissible impl.disk.completed kind payload) :
    Extends impl.disk (impl.appended store fate kind payload).disk := by
  refine ⟨completed_subset_append, fun hlineal => ?_⟩
  change Lineal (store.append impl.disk fate kind payload).2.2.completed
  rcases completed_append store impl.disk fate kind payload with hsame | hadded
  · rwa [hsame]
  · rw [hadded]
    exact hlineal.concat hadmissible

theorem extends_journaled (impl : Impl)
    (hadmissible : Admissible impl.disk.completed kind payload) :
    Extends impl.disk (impl.journaled kind payload).disk := by
  rw [Impl.journaled]
  split
  · exact Extends.refl impl.disk
  · exact extends_appended impl hadmissible

/-! ## Calls extend the history -/

theorem Routine.extends (hroutine : Routine fates scope first last) :
    Extends first.disk last.disk := by
  cases hroutine with
  | append store fate kind payload hstore hfate hrecord =>
    exact extends_appended first hrecord.admissible
  | _ => exact Extends.refl first.disk

theorem Dies.extends (hdies : Dies fates first last) : Extends first.disk last.disk := by
  cases hdies with
  | append store fate kind payload hstore hfate hrecord =>
    exact extends_appended first hrecord.admissible

theorem Routines.Ending.extends (hending : Routines.Ending fates scope outcome first last) :
    Extends first.disk last.disk :=
  hending.preserve (fun _ _ hroutine hextends => Extends.trans hextends hroutine.extends)
    (fun _ _ hdies hextends => Extends.trans hextends hdies.extends) (Extends.refl first.disk)

theorem failureIn_of_payload (hkind : record.header.kind = RecordKind.failureCommitted.raw)
    (hpayload : record.payload = encodeFailureRecord failure) (hjournalable : Journalable failure) :
    failureIn record = some failure := by
  rw [failureIn, contentOf, if_pos hkind, hpayload, hjournalable.decode, Except.toOption]

theorem fenceIn_of_payload (hkind : record.header.kind = RecordKind.fenceCommitted.raw)
    (hpayload : record.payload = encodeFenceRecord fence) (hjournalable : FenceJournalable fence) :
    fenceIn record = some fence := by
  rw [fenceIn, contentOf, if_pos hkind, hpayload, hjournalable.decode, Except.toOption]

theorem headerIn_of_payload {epoch : CoordinatorEpoch} {boot : BootIncarnation}
    (hkind : record.header.kind = RecordKind.streamHeader.raw)
    (hpayload : record.payload = encodeStreamHeader epoch boot) :
    headerIn record = some (epoch, boot) := by
  rw [headerIn, contentOf, if_pos hkind, hpayload, decode_encodeStreamHeader, Except.toOption]

/-- The failure behind a fence is in the journal before the fence is. -/
theorem Recorded.admissible {first : CallState} {record : FailureRecord}
    (hrecorded : Recorded declaration first middle record)
    (hstored : first.impl.store.isSome = true) {authority : AuthorityRegistry}
    (hfence : Fenced declaration.subject impl fence authority) :
    Admissible middle.impl.disk.completed .fenceCommitted (encodeFenceRecord fence) := by
  obtain ⟨cause, hcause, hkind, hpayload⟩ := hrecorded.written hstored
  refine ⟨fence, hfence.journalable, rfl, cause, hcause, record,
    failureIn_of_payload hkind hpayload hrecorded.journalable, ?_⟩
  rw [hrecorded.subject, hfence.names]

theorem FencePart.extends {first : CallState} {record : FailureRecord}
    (hrecorded : Recorded declaration first middle record)
    (hstored : middle.impl.store.isSome = first.impl.store.isSome)
    (hfence : FencePart declaration.subject middle outcome last) :
    Extends middle.impl.disk last.disk := by
  cases hfence with
  | deferred hfenced => exact Extends.refl middle.impl.disk
  | refused status hfenced => exact Extends.refl middle.impl.disk
  | unwritten fence authority store stop hfenced hstore houtcome =>
    have hopen : first.impl.store.isSome = true := by
      rw [← hstored, hstore]
      rfl
    exact extends_appended { middle.impl with authority } (hrecorded.admissible hopen hfenced)
  | committed fence authority hfenced hwritten =>
    cases hopen : middle.impl.store with
    | none =>
      have hsame : ({ middle.impl with authority } : Impl).journaled .fenceCommitted
          (encodeFenceRecord fence) = { middle.impl with authority } := by
        rw [Impl.journaled, hopen]
      rw [hsame]
      exact Extends.refl middle.impl.disk
    | some store =>
      have hsome : first.impl.store.isSome = true := by
        rw [← hstored, hopen]
        rfl
      exact extends_journaled { middle.impl with authority } (hrecorded.admissible hsome hfenced)

theorem Performed.extends (hperformed : Performed impl env operation outcome last) :
    Extends impl.disk last.disk := by
  cases hperformed with
  | routine operation outcome last hroutines => exact hroutines.extends
  | declared declaration outcome last hdeclared =>
    cases hdeclared with
    | stopped last stop hroutines => exact hroutines.extends
    | fenced middle record outcome last hroutines hrecorded hfence =>
      have hending : Routines.Ending env.deals .nothing (.ok ()) impl middle.impl := hroutines
      have hmiddle : Extends impl.disk middle.impl.disk := hending.extends
      exact hmiddle.trans (hfence.extends hrecorded hroutines.sameFrame.stored)

/-! ## Opening extends the history -/

section Opening

/-- The announcement of an incarnation keeps the file aligned and adds its header. -/
theorem Announced.extends (hannounced : Announced env impl outcome last) (haligned : impl.Aligned)
    (hheader : Admissible impl.disk.completed .streamHeader
      (encodeStreamHeader impl.epoch impl.boot)) :
    last.disk.Resting ∧ (outcome = .ok () → last.Aligned) ∧ Extends impl.disk last.disk := by
  have hheaded : Extends impl.disk impl.headed.disk := extends_journaled impl hheader
  have hkept : impl.headed.Aligned := haligned.journaled
  cases hannounced with
  | headerFailed store stop hstore hstop =>
    exact ⟨haligned.appended_resting hstore, by simp, extends_appended impl hheader⟩
  | first hwritten hepoch => exact ⟨hkept.resting, fun _ => hkept, hheaded⟩
  | advanceFailed store stop hwritten hstore hstop =>
    exact ⟨hkept.appended_resting hstore, by simp,
      hheaded.trans (extends_appended impl.headed trivial)⟩
  | advanced hwritten hepoch =>
    have hlast : (impl.headed.journaled .epochAdvance
        (encodeU64Payload impl.epoch.raw)).Aligned := hkept.journaled
    exact ⟨hlast.resting, fun _ => hlast, hheaded.trans (extends_journaled impl.headed trivial)⟩

/-- The identity a coordinator takes on succeeds the last one in the journal. -/
theorem restored_succeeds (config : CoordinatorConfig) (process : Process) (impl : Impl)
    (store : DurableStore) (trimmed : Disk) (opening : ReplayReport) :
    Succeeds (lastHeader opening.records)
      ((impl.restored config process store trimmed opening).epoch,
        (impl.restored config process store trimmed opening).boot) := by
  have hprevious := replayAll_header config.limits opening.records
  rw [← hprevious, Succeeds]
  dsimp only [Impl.restored, Process.boot]
  split
  · rename_i hordinal
    rw [Lineage.nextEpoch, Lineage.nextOrdinal, if_pos hordinal, if_pos hordinal]
    exact ⟨rfl, rfl⟩
  · rename_i hordinal
    rw [Lineage.nextOrdinal, if_neg hordinal]
    split
    · decide
    · assumption

theorem Opened.extends
    (hopened : Opened config process env disk outcome last) (hresting : disk.Resting) :
    last.disk.Resting ∧ (outcome = .ok () → last.Aligned) ∧ Extends disk last.disk := by
  cases hopened with
  | refused status => exact ⟨hresting, by simp, Extends.refl disk⟩
  | started hlimits hdurable => exact ⟨hresting, fun _ => hresting, Extends.refl disk⟩
  | restored store trimmed opening outcome last hlimits hdurable hopen hannounced =>
    obtain ⟨hrecords, hcompleted, haligned⟩ := open_resting hresting hopen
    have hsucceeds := restored_succeeds config process (Impl.fresh config disk) store trimmed
      opening
    have hannouncement := hannounced.extends haligned
      ⟨_, _, rfl, by rw [hrecords, ← hcompleted] at hsucceeds; exact hsucceeds⟩
    refine ⟨hannouncement.1, hannouncement.2.1, ?_⟩
    have hextends := hannouncement.2.2
    exact ⟨hcompleted ▸ hextends.grows, fun hlineal => hextends.lineal (hcompleted ▸ hlineal)⟩

end Opening

/-! ## Runs -/

theorem run_kept {events : List Event} (horderly : ∀ event ∈ events, event.Orderly) :
    (run World.step (.down {}) events).Satisfies (fun disk => disk.Resting ∧ Lineal disk.completed)
      fun impl => impl.Aligned ∧ Lineal impl.disk.completed := by
  refine satisfies_of_meets ?_ ?_ ?_ (meets_of_forall horderly (World.down {}))
    ⟨Disk.resting_empty, ⟨by simp, by simp, by simp [Ascending]⟩⟩
  · rintro impl ⟨haligned, hlineal⟩
    exact ⟨haligned.resting, hlineal⟩
  · rintro disk config process env outcome last - ⟨hresting, hlineal⟩ hopened
    obtain ⟨hrest, haligned, hextends⟩ := hopened.extends hresting
    exact ⟨⟨hrest, hextends.lineal hlineal⟩, fun hok => ⟨haligned hok, hextends.lineal hlineal⟩⟩
  · rintro impl operation env hcalm ⟨haligned, hlineal⟩
    have hperformed := callOn_spec impl operation env
    obtain ⟨hrest, hkept⟩ := hperformed.aligned hcalm haligned
    have hlast := hperformed.extends.lineal hlineal
    refine ⟨⟨hrest, hlast⟩, fun halive => ⟨hkept ?_, hlast⟩⟩
    intro hcrash
    exact halive _ (Prod.ext hcrash rfl)

theorem grows_journaled (impl : Impl) (kind : RecordKind) (payload : Bytes) :
    impl.disk.completed ⊆ (impl.journaled kind payload).disk.completed := by
  rw [Impl.journaled]
  split
  · exact List.Subset.refl _
  · exact completed_subset_append

/-- Opening never takes a record away, whatever the file holds. -/
theorem Opened.grows (hopened : Opened config process env disk outcome last) :
    disk.completed ⊆ last.disk.completed := by
  cases hopened with
  | refused status => exact List.Subset.refl _
  | started hlimits hdurable => exact List.Subset.refl _
  | restored store trimmed opening outcome last hlimits hdurable hopen hannounced =>
    rw [← open_completed hopen]
    generalize hrestored : (Impl.fresh config disk).restored config process store trimmed
      opening = impl at hannounced
    have hdisk : impl.disk = trimmed := by rw [← hrestored]; rfl
    rw [← hdisk]
    cases hannounced with
    | headerFailed store stop hstore hstop => exact completed_subset_append
    | first hwritten hepoch => exact grows_journaled impl _ _
    | advanceFailed store stop hwritten hstore hstop =>
      exact List.Subset.trans (grows_journaled impl _ _) completed_subset_append
    | advanced hwritten hepoch =>
      exact List.Subset.trans (grows_journaled impl _ _) (grows_journaled impl.headed _ _)

/-- Records are never lost from the history. -/
theorem completed_grows (world : World) (events : List Event) :
    world.disk.completed ⊆ (run World.step world events).disk.completed := by
  have hgrows : (run World.step world events).Satisfies
      (fun disk => world.disk.completed ⊆ disk.completed)
      fun impl => world.disk.completed ⊆ impl.disk.completed := by
    refine satisfies_of_meets ?_ ?_ ?_ (meets_of_forall (fun _ _ => trivial) world) ?_
    · exact fun _ => id
    · intro disk config process env outcome last _ hbefore hopened
      have hlast := List.Subset.trans hbefore hopened.grows
      exact ⟨hlast, fun _ => hlast⟩
    · intro impl operation env _ hbefore
      have hlast := List.Subset.trans hbefore (callOn_spec impl operation env).extends.grows
      exact ⟨hlast, fun _ => hlast⟩
    · cases world with
      | down disk => exact List.Subset.refl _
      | up impl => exact List.Subset.refl _
  cases hrun : run World.step world events with
  | down disk =>
    rw [hrun] at hgrows
    exact hgrows
  | up impl =>
    rw [hrun] at hgrows
    exact hgrows

/-! ## Restart -/

/-- The payloads of the records of one kind, in the order of the journal. -/
def payloadsOf (kind : RecordKind) (records : List Record) : List Bytes :=
  (records.filter fun record => record.header.kind == kind.raw).map (·.payload)

/-- When every record of a kind says what it encodes, the payloads are the
encodings of the contents: none is passed over. -/
theorem payloadsOf_eq {A : Type} {decode : Bytes → Result A} {encode : A → Bytes}
    (hlegible : ∀ record ∈ records, record.header.kind = kind.raw →
      ∃ value, contentOf kind decode record = some value ∧ record.payload = encode value) :
    payloadsOf kind records = (records.filterMap (contentOf kind decode)).map encode := by
  induction records with
  | nil => rfl
  | cons record records ih =>
    have hrest := ih fun other hother => hlegible other (List.mem_cons_of_mem _ hother)
    by_cases hkind : record.header.kind = kind.raw
    · obtain ⟨value, hvalue, hpayload⟩ := hlegible record List.mem_cons_self hkind
      rw [List.filterMap_cons_some hvalue, List.map_cons, ← hrest, ← hpayload]
      simp [payloadsOf, hkind]
    · have hnone : contentOf kind decode record = none := by rw [contentOf, if_neg hkind]
      rw [List.filterMap_cons_none hnone, ← hrest]
      simp [payloadsOf, hkind]

section Restart

/-- A coordinator that opened with a journal took over what replay gathered, and
its header is in the journal. -/
theorem Opened.durable (hopened : Opened config process env disk (.ok ()) impl)
    (hdurable : config.enableDurability = true) :
    ∃ store trimmed opening, DurableStore.open config.limits disk = .ok (store, trimmed, opening) ∧
      (∃ store' disk', impl = { (Impl.fresh config disk).restored config process store trimmed
        opening with store := store', disk := disk' }) ∧
      Written impl.disk .streamHeader (encodeStreamHeader impl.epoch impl.boot) := by
  cases hopened with
  | started hlimits hnone => simp [hdurable] at hnone
  | restored store trimmed opening outcome last hlimits hdurable' hopen hannounced =>
    have hframe := hannounced.frame
    refine ⟨store, trimmed, opening, hopen, hframe, ?_⟩
    obtain ⟨_, _, hlast⟩ := hframe
    have hepoch : impl.epoch = ((Impl.fresh config disk).restored config process store trimmed
        opening).epoch := by rw [hlast]
    have hboot : impl.boot = ((Impl.fresh config disk).restored config process store trimmed
        opening).boot := by rw [hlast]
    rw [hepoch, hboot]
    cases hannounced with
    | first hwritten hepoch => exact hwritten
    | advanced hwritten hepoch =>
      obtain ⟨record, hrecord, hkind, hpayload⟩ := hwritten
      exact ⟨record, grows_journaled (Impl.headed _) _ _ hrecord, hkind, hpayload⟩

theorem restored_failures (impl : Impl) (config : CoordinatorConfig) (process : Process)
    (store : DurableStore) (disk : Disk) (opening : ReplayReport) :
    (impl.restored config process store disk opening).failures.entries =
      (opening.records.filterMap failureIn).foldl enterFailure ∅ :=
  replayAll_failures config.limits opening.records

/-- A journal at rest is opened with the fences and the failures that its completed records
hold. -/
theorem Opened.lineage (hopened : Opened config process env disk (.ok ()) impl)
    (hdurable : config.enableDurability = true) (hresting : disk.Resting) :
    impl.authority.fences = (disk.completed.filterMap fenceIn).foldl enterFence ∅ ∧
      impl.failures.entries = (disk.completed.filterMap failureIn).foldl enterFailure ∅ := by
  obtain ⟨store, trimmed, opening, hstore, ⟨_, _, himpl⟩, -⟩ := hopened.durable hdurable
  obtain ⟨hrecords, -, -⟩ := open_resting hresting hstore
  rw [himpl, ← hrecords]
  exact ⟨restored_fences (Impl.fresh config disk) config process store trimmed opening,
    restored_failures (Impl.fresh config disk) config process store trimmed opening⟩

/-- Every fence that is restored has its failure restored with it. -/
theorem Lineal.failure_of_fenced (hlineal : Lineal records) {key : SwitchKey}
    (hfenced : key ∈ (records.filterMap fenceIn).foldl enterFence ∅) :
    key ∈ (records.filterMap failureIn).foldl enterFailure ∅ := by
  rcases (mem_foldl_enterFence _ _ _).mp hfenced with hnone | ⟨fence, hfence, rfl⟩
  · simp at hnone
  · obtain ⟨record, hrecord, hcontent⟩ := List.mem_filterMap.mp hfence
    have hkind : record.header.kind = RecordKind.fenceCommitted.raw := by
      by_contra hother
      rw [fenceIn, contentOf, if_neg hother] at hcontent
      cases hcontent
    obtain ⟨same, hsame, -, cause, hcause, failure, hfailure, hsubject⟩ :=
      hlineal.fences record hrecord hkind
    rw [hcontent] at hsame
    cases hsame
    exact (mem_foldl_enterFailure _ _ _).mpr
      (Or.inr ⟨failure, List.mem_filterMap.mpr ⟨cause, hcause, hfailure⟩, hsubject⟩)

/-- An incarnation that opened earlier in the run precedes one that opens later. -/
theorem precedes_of_opened {later : Disk} {next : Impl} (hresting : later.Resting)
    (hlineal : Lineal later.completed)
    (hunsaturated : ∀ header ∈ later.completed.filterMap headerIn, Unsaturated header)
    (hwritten : Written later .streamHeader (encodeStreamHeader impl.epoch impl.boot))
    (hopened : Opened config process env later (.ok ()) next)
    (hdurable : config.enableDurability = true) :
    Precedes (impl.epoch, impl.boot) (next.epoch, next.boot) := by
  obtain ⟨store, trimmed, opening, hopen, ⟨_, _, hnext⟩, -⟩ := hopened.durable hdurable
  obtain ⟨hrecords, -, -⟩ := open_resting hresting hopen
  have hsucceeds := restored_succeeds config process (Impl.fresh config later) store trimmed opening
  rw [hrecords] at hsucceeds
  obtain ⟨record, hrecord, hkind, hpayload⟩ := hwritten
  have hheader : (impl.epoch, impl.boot) ∈ later.completed.filterMap headerIn :=
    List.mem_filterMap.mpr ⟨record, hrecord, headerIn_of_payload hkind hpayload⟩
  rw [hnext]
  exact (precedes_of_succeeds hunsaturated hlineal.headers hsucceeds).1 _ hheader

end Restart

/-- Restart lineage.  After any run over a journal that starts empty, in which a
failed append leaves the file as it was and the process may die at any point of
any append, a successful open restores exactly the fences and the failures whose
records were completed; every fenced generation has its failure, no restored
grant is active, and the new identity exceeds that of every incarnation before. -/
theorem restart_lineage {events : List Event} (horderly : ∀ event ∈ events, event.Orderly)
    {disk : Disk} (hdown : run World.step (.down {}) events = .down disk)
    {config : CoordinatorConfig} {process : Process} {env : Env} {state : CallState}
    (hdurable : config.enableDurability = true)
    (hopen : openOver disk config process env = (.ok (), state)) :
    payloadsOf .fenceCommitted disk.completed =
        (disk.completed.filterMap fenceIn).map encodeFenceRecord ∧
      state.impl.authority.fences = (disk.completed.filterMap fenceIn).foldl enterFence ∅ ∧
      payloadsOf .failureCommitted disk.completed =
        (disk.completed.filterMap failureIn).map encodeFailureRecord ∧
      state.impl.failures.entries =
        (disk.completed.filterMap failureIn).foldl enterFailure ∅ ∧
      (∀ key, state.impl.authority.isFenced key = true →
        state.impl.failures.contains key = true) ∧
      (∀ (id : GrantId) (grant : AuthorityGrant),
        state.impl.authority.grants[id]? = some grant → grant.state ≠ .active) ∧
      ((∀ header ∈ disk.completed.filterMap headerIn, Unsaturated header) →
        ∀ before config' process' env' after earlier state',
          events = before ++ .boot config' process' env' :: after →
          run World.step (.down {}) before = .down earlier →
          config'.enableDurability = true →
          openOver earlier config' process' env' = (.ok (), state') →
          state'.impl.epoch.raw < state.impl.epoch.raw ∧
            state'.impl.boot.bootOrdinal < state.impl.boot.bootOrdinal) := by
  have hkept := run_kept horderly
  rw [hdown] at hkept
  obtain ⟨hresting, hlineal⟩ := hkept
  have hopened := Opened.of_openOver hopen
  obtain ⟨hfences, hfailures⟩ := hopened.lineage hdurable hresting
  refine ⟨payloadsOf_eq ?_, hfences, payloadsOf_eq hlineal.failures, hfailures, ?_, ?_, ?_⟩
  · intro record hrecord hkind
    obtain ⟨fence, hfence, hpayload, -⟩ := hlineal.fences record hrecord hkind
    exact ⟨fence, hfence, hpayload⟩
  · intro key hfenced
    rw [AuthorityRegistry.isFenced, hfences, ← Std.TreeMap.mem_iff_contains] at hfenced
    have hfailure := hlineal.failure_of_fenced hfenced
    rw [← hfailures, Std.TreeMap.mem_iff_isSome_getElem?] at hfailure
    exact hfailure
  · intro id grant hstored hactive
    exact (opened_dormant hopened).1.inactive id grant ⟨hstored, hactive⟩
  · intro hunsaturated before config' process' env' after earlier state' hevents hearlier
      hdurable' hopen'
    obtain ⟨_, _, _, -, -, record, hrecord, hkind, hpayload⟩ :=
      (Opened.of_openOver hopen').durable hdurable'
    have hlater : disk.completed = (run World.step (.up state'.impl) after).disk.completed := by
      rw [hevents, run_append, hearlier, run_cons, World.step, hopen'] at hdown
      rw [hdown]
      rfl
    refine precedes_of_opened hresting hlineal hunsaturated ⟨record, ?_, hkind, hpayload⟩
      hopened hdurable
    rw [hlater]
    exact completed_grows _ after hrecord

set_option maxRecDepth 20000 in
/-- The process dies ten bytes into the record of its second fence: the first
fence and both failures come back, under the next epoch. -/
theorem restart_lineage_sample :
    ∃ disk state, run World.step (.down {}) (Sample.failedOver Sample.durable ++
        [.call (.declareFailure (Sample.failureOf Sample.switchB))
          (Sample.calmBut 1 (.crash 10))]) = .down disk ∧
      openOver disk Sample.durable Sample.process Sample.calm = (.ok (), state) ∧
      state.impl.authority.isFenced Sample.switchA = true ∧
      state.impl.failures.contains Sample.switchA = true ∧
      state.impl.authority.isFenced Sample.switchB = false ∧
      state.impl.failures.contains Sample.switchB = true ∧ state.impl.epoch = ⟨2⟩ := by
  have hrun : (run World.step (.down {}) (Sample.failedOver Sample.durable ++
      [.call (.declareFailure (Sample.failureOf Sample.switchB))
        (Sample.calmBut 1 (.crash 10))])).rests (fun disk =>
        answers (fun _ state => state.impl.authority.isFenced Sample.switchA &&
          !state.impl.authority.isFenced Sample.switchB &&
          state.impl.failures.contains Sample.switchB && state.impl.epoch == ⟨2⟩)
          (openOver disk Sample.durable Sample.process Sample.calm)) = true := by
    decide +kernel
  obtain ⟨disk, hdown, hanswers⟩ := World.down_of_rests hrun
  obtain ⟨_, state, hopen, htest⟩ := ok_of_answers hanswers
  simp only [Bool.and_eq_true, Bool.not_eq_true', beq_iff_eq] at htest
  obtain ⟨⟨⟨hfenced, hother⟩, hfailure⟩, hepoch⟩ := htest
  have horderly : ∀ event ∈ Sample.failedOver Sample.durable ++
      [.call (.declareFailure (Sample.failureOf Sample.switchB))
        (Sample.calmBut 1 (.crash 10))], event.Orderly := by
    have hcalm : Sample.calm.Orderly := fun _ => trivial
    have hdying : (Sample.calmBut 1 (.crash 10)).Orderly := by
      intro index
      dsimp only [Sample.calmBut]
      split <;> trivial
    simp [Sample.failedOver, Event.Orderly, hcalm, hdying]
  obtain ⟨-, -, -, -, hlineage, -, -⟩ := restart_lineage horderly hdown rfl hopen
  exact ⟨disk, state, hdown, hopen, hfenced, hlineage _ hfenced, hother, hfailure, hepoch⟩

end SwitchFailover.Runtime
