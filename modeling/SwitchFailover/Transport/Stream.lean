import SwitchFailover.Library.Incremental
import SwitchFailover.Transport.Frame

/-!
# The stream decoder

Bytes arrive in chunks.  The decoder keeps what it has not decoded in a buffer of
twice the longest frame, and a failure is final.  A reader that takes all frames
out before it feeds the next chunk sees the frames and the failure of the whole
stream, however it was cut, as long as no chunk is longer than the longest frame.
-/

namespace SwitchFailover.Transport

open SwitchFailover.Core Library.Incremental

variable {data stream : Bytes} {frame : Frame} {consumed : ℕ}

variable {limits : Limits} {buffer chunk : Bytes}

structure FrameStreamDecoder where
  limits : Limits
  buffer : Bytes := []
  status : Status := .success
  sticky : Bool := false

namespace FrameStreamDecoder

/-- A refused chunk is not appended. -/
def feed (decoder : FrameStreamDecoder) (data : Bytes) : Status × FrameStreamDecoder :=
  if decoder.sticky then (decoder.status, decoder)
  else if data.isEmpty then (.success, decoder)
  else
    let capacity := maxFrameBytes decoder.limits * 2
    if decoder.buffer.length > capacity ∨ data.length > capacity - decoder.buffer.length then
      (Status.failure .exhausted
        (text "stream decoder buffer bound reached; no bytes were appended"), decoder)
    else (.success, { decoder with buffer := decoder.buffer ++ data })

def next (decoder : FrameStreamDecoder) : FrameDecodeResult × FrameStreamDecoder :=
  if decoder.sticky then
    let unsupported := decoder.status.code = .unsupported ∨ decoder.status.code = .versionMismatch
    (makeFailure (if unsupported then .unsupported else .corrupt) decoder.status.code
      decoder.status.message, decoder)
  else
    let result := decodeFrame decoder.buffer decoder.limits
    match result.disposition with
    | .complete =>
        (result, if 0 < result.consumed ∧ result.consumed ≤ decoder.buffer.length then
          { decoder with buffer := decoder.buffer.drop result.consumed } else decoder)
    | .incomplete => (result, decoder)
    | .corrupt | .unsupported => (result, { decoder with status := result.status, sticky := true })

end FrameStreamDecoder

/-! ## Reading a stream -/

/-- What a reader has seen: the frames, and the last result of `next`. -/
structure Reception where
  decoder : FrameStreamDecoder
  frames : List Frame := []
  last : FrameDecodeResult := incomplete

variable {reception : Reception}

/-- `next` is called until its result is not Complete. -/
def drainFor : ℕ → Reception → Reception
  | 0, reception => reception
  | fuel + 1, reception =>
      let (result, decoder) := reception.decoder.next
      if result.disposition = .complete then
        drainFor fuel ⟨decoder, reception.frames ++ [result.frame], result⟩
      else ⟨decoder, reception.frames, result⟩

/-- Every frame takes a byte of the buffer, so its length bounds the calls. -/
def drain (reception : Reception) : Reception :=
  drainFor (reception.decoder.buffer.length + 1) reception

/-- One chunk is fed and all frames are taken out. -/
def receive (reception : Reception) (chunk : Bytes) : Reception :=
  drain { reception with decoder := (reception.decoder.feed chunk).2 }

def received (limits : Limits) (chunks : List Bytes) : Reception :=
  chunks.foldl receive { decoder := { limits } }

def FrameDecodeResult.verdict (result : FrameDecodeResult) : Verdict Frame FrameDecodeResult :=
  match result.disposition with
  | .complete => .complete result.frame result.consumed
  | .incomplete => .incomplete
  | .corrupt | .unsupported => .failed result

def Reception.failure (reception : Reception) : Option FrameDecodeResult :=
  match reception.last.disposition with
  | .corrupt | .unsupported => some reception.last
  | .complete | .incomplete => none

/-- The whole stream, decoded again and again from where the last frame ended. -/
def decodeStream (limits : Limits) (stream : Bytes) : Decoded UInt8 Frame FrameDecodeResult :=
  decodeAll (fun data => (decodeFrame data limits).verdict) stream

/-- Any further use of a decoder. -/
inductive Use
  | feed (data : Bytes)
  | next

/-- The results of `next` in a sequence of uses. -/
def resultsOf (decoder : FrameStreamDecoder) : List Use → List FrameDecodeResult
  | [] => []
  | .feed data :: uses => resultsOf (decoder.feed data).2 uses
  | .next :: uses => decoder.next.1 :: resultsOf decoder.next.2 uses

/-! ## One frame -/

theorem verdict_of_refused {result : FrameDecodeResult} (hrefused : Refused result) :
    result.verdict = .failed result := by
  obtain ⟨code, message, ⟨rfl, -⟩ | ⟨rfl, -⟩⟩ := hrefused
  · rfl
  · rfl

theorem of_verdict_complete
    (hverdict : (decodeFrame data limits).verdict = .complete frame consumed) :
    0 < consumed ∧ consumed ≤ data.length ∧
      ∀ more, (decodeFrame (data ++ more) limits).verdict = .complete frame consumed := by
  have hspec := decodeFrame_spec data limits
  generalize decodeFrame data limits = result at hspec hverdict
  cases hspec with
  | incomplete hshort => cases hverdict
  | refused _ hrefused _ =>
    rw [verdict_of_refused hrefused] at hverdict
    cases hverdict
  | complete _ _ hpositive hwithin hstays =>
    cases hverdict
    refine ⟨hpositive, hwithin, fun more => ?_⟩
    rw [hstays more]
    rfl

theorem decodeFrame_stable (limits : Limits) :
    Stable fun data => (decodeFrame data limits).verdict where
  consumes := by
    intro data frame consumed hverdict
    obtain ⟨hpositive, hwithin, -⟩ := of_verdict_complete hverdict
    exact ⟨hpositive, hwithin⟩
  complete := fun hverdict => (of_verdict_complete hverdict).2.2
  failed := by
    intro data failure hverdict more
    have hspec := decodeFrame_spec data limits
    generalize decodeFrame data limits = result at hspec hverdict
    cases hspec with
    | incomplete hshort => cases hverdict
    | refused _ _ hstays =>
      rw [hstays more]
      exact hverdict
    | complete => cases hverdict

/-- A beginning of a frame is shorter than the longest frame. -/
theorem length_lt_of_incomplete (hverdict : (decodeFrame data limits).verdict = .incomplete) :
    data.length < maxFrameBytes limits := by
  have hspec := decodeFrame_spec data limits
  generalize decodeFrame data limits = result at hspec hverdict
  cases hspec with
  | incomplete hshort => exact hshort
  | refused _ hrefused _ =>
    rw [verdict_of_refused hrefused] at hverdict
    cases hverdict
  | complete => cases hverdict

/-! ## A decoder that has failed -/

/-- The decoder keeps the status of the failure. -/
structure Failed (decoder : FrameStreamDecoder) (failure : FrameDecodeResult) : Prop where
  sticky : decoder.sticky = true
  status : decoder.status = failure.status
  refused : Refused failure

namespace Failed

variable {decoder : FrameStreamDecoder} {failure : FrameDecodeResult}

theorem feed (hfailed : Failed decoder failure) (data : Bytes) :
    decoder.feed data = (failure.status, decoder) := by
  rw [FrameStreamDecoder.feed, if_pos hfailed.sticky, hfailed.status]

/-- The status tells the two sorts of failure apart, so the same result is
reported again. -/
theorem next (hfailed : Failed decoder failure) : decoder.next = (failure, decoder) := by
  rw [FrameStreamDecoder.next, if_pos hfailed.sticky, hfailed.status]
  obtain ⟨code, message, ⟨rfl, rfl⟩ | ⟨rfl, rfl | rfl⟩⟩ := hfailed.refused
  · simp [makeFailure, Status.failure, boundedMessage_boundedMessage]
  · simp [makeFailure, Status.failure, boundedMessage_boundedMessage]
  · simp [makeFailure, Status.failure, boundedMessage_boundedMessage]

theorem not_complete (hfailed : Failed decoder failure) : failure.disposition ≠ .complete := by
  obtain ⟨code, message, ⟨rfl, -⟩ | ⟨rfl, -⟩⟩ := hfailed.refused
  · exact fun heq => by cases heq
  · exact fun heq => by cases heq

/-- Whatever is done with it, it reports the failure. -/
theorem resultsOf_eq (hfailed : Failed decoder failure) (uses : List Use) :
    ∀ result ∈ resultsOf decoder uses, result = failure := by
  induction uses with
  | nil => exact fun result hresult => by cases hresult
  | cons use uses ih =>
    cases use with
    | feed data =>
      rw [resultsOf, hfailed.feed]
      exact ih
    | next =>
      intro result hresult
      rw [resultsOf, hfailed.next] at hresult
      rcases List.mem_cons.mp hresult with rfl | hlater
      · rfl
      · exact ih result hlater

theorem drainFor_eq (hfailed : Failed decoder failure) (fuel : ℕ) (frames : List Frame)
    (last : FrameDecodeResult) :
    drainFor (fuel + 1) ⟨decoder, frames, last⟩ = ⟨decoder, frames, failure⟩ := by
  rw [drainFor, hfailed.next]
  exact if_neg hfailed.not_complete

end Failed

/-! ## Chunks -/

/-- What the reader has seen of a stream. -/
structure Follows (limits : Limits) (stream : Bytes) (reception : Reception) : Prop where
  frames : reception.frames = (decodeStream limits stream).items
  failure : reception.failure = (decodeStream limits stream).failure
  running : (decodeStream limits stream).failure = none →
    reception.decoder = { limits, buffer := (decodeStream limits stream).rest }
  failed : ∀ failure, (decodeStream limits stream).failure = some failure →
    Failed reception.decoder failure
  ended : reception.last.disposition ≠ .complete

theorem next_of_complete
    (hverdict : (decodeFrame buffer limits).verdict = .complete frame consumed) :
    ({ limits, buffer } : FrameStreamDecoder).next.1.disposition = .complete ∧
      ({ limits, buffer } : FrameStreamDecoder).next.1.frame = frame ∧
      ({ limits, buffer } : FrameStreamDecoder).next.2 =
        { limits, buffer := buffer.drop consumed } := by
  have hconsumes := (decodeFrame_stable limits).consumes hverdict
  rw [FrameStreamDecoder.next, if_neg Bool.false_ne_true]
  dsimp only
  rw [FrameDecodeResult.verdict] at hverdict
  generalize decodeFrame buffer limits = result at hverdict
  obtain ⟨disposition, found, count, status⟩ := result
  cases disposition with
  | complete =>
    cases hverdict
    exact ⟨rfl, rfl, if_pos hconsumes⟩
  | incomplete => cases hverdict
  | corrupt => cases hverdict
  | unsupported => cases hverdict

theorem next_of_incomplete (hverdict : (decodeFrame buffer limits).verdict = .incomplete) :
    ({ limits, buffer } : FrameStreamDecoder).next =
        (decodeFrame buffer limits, { limits, buffer }) ∧
      (decodeFrame buffer limits).disposition = .incomplete := by
  rw [FrameStreamDecoder.next, if_neg Bool.false_ne_true]
  dsimp only
  rw [FrameDecodeResult.verdict] at hverdict
  generalize decodeFrame buffer limits = result at hverdict
  obtain ⟨disposition, found, count, status⟩ := result
  cases disposition with
  | complete => cases hverdict
  | incomplete => exact ⟨rfl, rfl⟩
  | corrupt => cases hverdict
  | unsupported => cases hverdict

theorem next_of_failed {failure : FrameDecodeResult}
    (hverdict : (decodeFrame buffer limits).verdict = .failed failure) :
    ({ limits, buffer } : FrameStreamDecoder).next.1 = failure ∧
      Failed ({ limits, buffer } : FrameStreamDecoder).next.2 failure := by
  have hspec := decodeFrame_spec buffer limits
  rw [FrameStreamDecoder.next, if_neg Bool.false_ne_true]
  dsimp only
  generalize decodeFrame buffer limits = result at hspec hverdict
  cases hspec with
  | incomplete hshort => cases hverdict
  | complete => cases hverdict
  | refused _ hrefused _ =>
    rw [verdict_of_refused hrefused] at hverdict
    cases hverdict
    obtain ⟨code, message, ⟨rfl, hcode⟩ | ⟨rfl, hcode⟩⟩ := hrefused
    · exact ⟨rfl, rfl, rfl, code, message, Or.inl ⟨rfl, hcode⟩⟩
    · exact ⟨rfl, rfl, rfl, code, message, Or.inr ⟨rfl, hcode⟩⟩

theorem failure_of_failed {failure : FrameDecodeResult} (hlast : reception.last = failure)
    (hrefused : Refused failure) : reception.failure = some failure := by
  rw [Reception.failure, hlast]
  obtain ⟨code, message, ⟨rfl, -⟩ | ⟨rfl, -⟩⟩ := hrefused
  · rfl
  · rfl

/-- Taking all frames out of a running decoder decodes its buffer. -/
theorem drainFor_follows (buffer : Bytes) {fuel : ℕ} (hfuel : buffer.length < fuel)
    (frames : List Frame) (last : FrameDecodeResult) :
    ∃ reception, Follows limits buffer reception ∧
      drainFor fuel ⟨{ limits, buffer }, frames, last⟩ =
        { reception with frames := frames ++ reception.frames } := by
  have hstable := decodeFrame_stable limits
  obtain ⟨fuel, rfl⟩ : ∃ less, fuel = less + 1 := ⟨fuel - 1, by omega⟩
  induction buffer using hstable.decodeAll_induction generalizing fuel frames last with
  | hcomplete buffer frame consumed hverdict ih =>
    obtain ⟨hpositive, hwithin⟩ := hstable.consumes hverdict
    obtain ⟨hdisposition, hframe, hdecoder⟩ := next_of_complete hverdict
    obtain ⟨fuel, rfl⟩ : ∃ less, fuel = less + 1 := ⟨fuel - 1, by omega⟩
    have hless : (buffer.drop consumed).length < fuel + 1 := by
      rw [List.length_drop]
      omega
    obtain ⟨later, hlater, hdrained⟩ := ih (frames ++ [frame])
      ({ limits, buffer } : FrameStreamDecoder).next.1 fuel hless
    have hall : decodeStream limits buffer =
        (decodeStream limits (buffer.drop consumed)).after [frame] :=
      hstable.decodeAll_of_complete hverdict
    refine ⟨{ later with frames := frame :: later.frames }, ⟨?_, ?_, ?_, ?_, hlater.ended⟩, ?_⟩
    · rw [hall, hlater.frames]
      rfl
    · rw [hall]
      exact hlater.failure
    · rw [hall]
      exact hlater.running
    · rw [hall]
      exact hlater.failed
    · rw [drainFor]
      dsimp only
      rw [if_pos hdisposition, hframe, hdecoder, hdrained]
      simp
  | hincomplete buffer hverdict =>
    have hall : decodeStream limits buffer = ⟨[], none, buffer⟩ :=
      Stable.decodeAll_of_incomplete hverdict
    obtain ⟨hnext, hdisposition⟩ := next_of_incomplete hverdict
    have hended : (decodeFrame buffer limits).disposition ≠ .complete := by
      rw [hdisposition]
      decide
    refine ⟨⟨{ limits, buffer }, [], decodeFrame buffer limits⟩, ⟨?_, ?_, ?_, ?_, hended⟩, ?_⟩
    · rw [hall]
    · rw [hall, Reception.failure, hdisposition]
    · rw [hall]
      exact fun _ => rfl
    · rw [hall]
      exact fun failure hsome => by cases hsome
    · rw [drainFor, hnext]
      dsimp only
      rw [if_neg hended, List.append_nil]
  | hfailed buffer failure hverdict =>
    have hall : decodeStream limits buffer = ⟨[], some failure, buffer⟩ :=
      Stable.decodeAll_of_failed hverdict
    obtain ⟨hnext, hfailed⟩ := next_of_failed hverdict
    refine ⟨⟨({ limits, buffer } : FrameStreamDecoder).next.2, [], failure⟩,
      ⟨?_, ?_, ?_, ?_, hfailed.not_complete⟩, ?_⟩
    · rw [hall]
    · rw [hall]
      exact failure_of_failed rfl hfailed.refused
    · rw [hall]
      exact fun hnone => by cases hnone
    · rw [hall]
      rintro _ ⟨⟩
      exact hfailed
    · rw [drainFor]
      dsimp only
      rw [hnext, if_neg hfailed.not_complete, List.append_nil]

/-- The decoder takes a chunk behind a beginning of a frame. -/
theorem feed_of_incomplete (hverdict : (decodeFrame buffer limits).verdict = .incomplete)
    (hchunk : chunk.length ≤ maxFrameBytes limits) :
    ({ limits, buffer } : FrameStreamDecoder).feed chunk =
      (.success, { limits, buffer := buffer ++ chunk }) := by
  have hshort := length_lt_of_incomplete hverdict
  rw [FrameStreamDecoder.feed, if_neg Bool.false_ne_true]
  by_cases hempty : chunk.isEmpty = true
  · rw [if_pos hempty, List.isEmpty_iff.mp hempty, List.append_nil]
  · rw [if_neg hempty]
    dsimp only
    rw [if_neg (by omega)]

/-- A chunk that is not longer than the longest frame fits behind what is left of
the stream. -/
theorem feed_of_running (hfollows : Follows limits stream reception)
    (hnone : (decodeStream limits stream).failure = none)
    (hchunk : chunk.length ≤ maxFrameBytes limits) :
    reception.decoder.feed chunk =
      (.success, { limits, buffer := (decodeStream limits stream).rest ++ chunk }) := by
  have hrest : (decodeFrame (decodeStream limits stream).rest limits).verdict = .incomplete := by
    have hverdict := (decodeFrame_stable limits).decode_rest stream
    change _ = (decodeStream limits stream).failure.elim _ _ at hverdict
    rw [hnone] at hverdict
    exact hverdict
  rw [hfollows.running hnone, feed_of_incomplete hrest hchunk]

theorem Follows.receive (hfollows : Follows limits stream reception)
    (hchunk : chunk.length ≤ maxFrameBytes limits) :
    Follows limits (stream ++ chunk) (receive reception chunk) := by
  have hstable := decodeFrame_stable limits
  obtain ⟨decoder, frames, last⟩ := reception
  cases hfailure : (decodeStream limits stream).failure with
  | none =>
    have hfed := feed_of_running hfollows hfailure hchunk
    obtain ⟨later, hlater, hdrained⟩ := drainFor_follows
      ((decodeStream limits stream).rest ++ chunk) (Nat.lt_succ_self _) frames last
    have hreceive : Transport.receive ⟨decoder, frames, last⟩ chunk =
        { later with frames := frames ++ later.frames } := by
      rw [Transport.receive, drain]
      dsimp only at hfed ⊢
      rw [hfed]
      exact hdrained
    have hall : decodeStream limits (stream ++ chunk) =
        (decodeStream limits ((decodeStream limits stream).rest ++ chunk)).after
          (decodeStream limits stream).items :=
      hstable.decodeAll_append hfailure chunk
    rw [hreceive]
    refine ⟨?_, ?_, ?_, ?_, hlater.ended⟩
    · rw [hall]
      change frames ++ later.frames = _ ++ _
      rw [hlater.frames, ← hfollows.frames]
    · rw [hall]
      exact hlater.failure
    · rw [hall]
      exact hlater.running
    · rw [hall]
      exact hlater.failed
  | some failure =>
    have hfailed := hfollows.failed failure hfailure
    obtain ⟨hitems, hsame⟩ := hstable.decodeAll_append_of_failed hfailure chunk
    change (decodeStream limits (stream ++ chunk)).items = (decodeStream limits stream).items
      at hitems
    change (decodeStream limits (stream ++ chunk)).failure = some failure at hsame
    have hreceive : Transport.receive ⟨decoder, frames, last⟩ chunk =
        ⟨decoder, frames, failure⟩ := by
      rw [Transport.receive, drain]
      dsimp only
      rw [hfailed.feed]
      exact hfailed.drainFor_eq _ _ _
    rw [hreceive]
    refine ⟨?_, ?_, ?_, ?_, hfailed.not_complete⟩
    · rw [hitems]
      exact hfollows.frames
    · rw [hsame]
      exact failure_of_failed rfl hfailed.refused
    · rw [hsame]
      exact fun hnone => by cases hnone
    · rw [hsame]
      rintro _ ⟨⟩
      exact hfailed

theorem received_follows {chunks : List Bytes}
    (hchunks : ∀ chunk ∈ chunks, chunk.length ≤ maxFrameBytes limits) :
    Follows limits chunks.flatten (received limits chunks) := by
  induction chunks using List.reverseRecOn with
  | nil =>
    have hall : decodeStream limits ([] : List Bytes).flatten = ⟨[], none, []⟩ := rfl
    refine ⟨?_, ?_, fun _ => rfl, ?_, ?_⟩
    · rw [hall]
      rfl
    · rw [hall]
      rfl
    · rw [hall]
      exact fun failure hsome => by cases hsome
    · exact fun hcomplete => by cases hcomplete
  | append_singleton chunks chunk ih =>
    have hearlier := ih fun other hother => hchunks other (List.mem_append_left _ hother)
    have hlast := hchunks chunk (List.mem_append_right _ List.mem_cons_self)
    rw [received, List.foldl_append, List.flatten_append, List.flatten_singleton]
    exact hearlier.receive hlast

/-- A stream that is fed in chunks no longer than the longest frame yields the
frames and the failure of the whole stream, and all frames are taken out.  No chunk
is refused before a failure, and after it nothing but the failure is reported. -/
theorem received_eq_decodeStream {limits : Limits} {chunks : List Bytes}
    (hchunks : ∀ chunk ∈ chunks, chunk.length ≤ maxFrameBytes limits) :
    (received limits chunks).frames = (decodeStream limits chunks.flatten).items ∧
      (received limits chunks).failure = (decodeStream limits chunks.flatten).failure ∧
      (received limits chunks).last.disposition ≠ .complete ∧
      (∀ before chunk after, chunks = before ++ chunk :: after →
        (received limits before).failure = none →
        ((received limits before).decoder.feed chunk).1 = .success) ∧
      ∀ failure, (received limits chunks).failure = some failure →
        ∀ uses, ∀ result ∈ resultsOf (received limits chunks).decoder uses,
          result = failure ∧ result.disposition ≠ .complete := by
  have hfollows := received_follows hchunks
  refine ⟨hfollows.frames, hfollows.failure, hfollows.ended, ?_, ?_⟩
  · rintro before chunk after rfl hnone
    have hearlier : Follows limits before.flatten (received limits before) :=
      received_follows fun other hother => hchunks other (List.mem_append_left _ hother)
    have hchunk := hchunks chunk (List.mem_append_right _ List.mem_cons_self)
    rw [hearlier.failure] at hnone
    rw [feed_of_running hearlier hnone hchunk]
  · intro failure hsome uses result hresult
    rw [hfollows.failure] at hsome
    have hfailed := hfollows.failed failure hsome
    have hsame := hfailed.resultsOf_eq uses result hresult
    exact ⟨hsame, hsame ▸ hfailed.not_complete⟩

namespace Sample

def greeting : Frame := { header := { type := .hello, requestSeq := 7 }, payload := [1, 2] }

/-- A frame in two pieces; the second piece goes on with something else. -/
def chunks : List Bytes :=
  let wire := (encodeFrame greeting {}).toOption.getD []
  [wire.take 20, wire.drop 20 ++ [0, 0, 0, 0]]

end Sample

/-- The frame comes out, and what follows it is corrupt. -/
theorem received_eq_decodeStream_sample :
    (received {} Sample.chunks).frames.map (·.payload) = [[1, 2]] ∧
      (received {} Sample.chunks).failure.map (·.disposition) = some .corrupt := by
  have hchunks : ∀ chunk ∈ Sample.chunks, chunk.length ≤ maxFrameBytes {} := by
    decide +kernel
  obtain ⟨hframes, hfailure, -⟩ := received_eq_decodeStream hchunks
  rw [hframes, hfailure]
  decide +kernel

end SwitchFailover.Transport
