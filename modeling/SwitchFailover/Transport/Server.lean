import SwitchFailover.Transport.Framing
import SwitchFailover.Transport.Payloads
import SwitchFailover.Transport.Stream

/-!
# Serving a connection

A worker reads one frame after the other, hands each to the handler and writes one
response.  The binding of the response is taken from the request, whatever the handler has
put there.  A handler that fails, or leaves the type of its response open, is answered for
with an Error frame; a response that is too long for the transport is replaced by one.  The
replacement has to fit as well: with a small bound on payloads it does not, and the
connection is dropped without a response.

Sends succeed here, and the server is not stopped.
-/

namespace SwitchFailover.Transport

open SwitchFailover.Core Codec Library.Codec Library.Incremental

variable {frame : Frame} {start : ℕ} {frames : List Frame} {limits : Limits}
  {handler : ℕ → Frame → HandlerResult}

def maxChunkBytes : ℕ := 64 * 2 ^ 10

/-- The size of the buffer that bytes are received into. -/
def transportChunkBytes (limits : Limits) : ℕ :=
  max (min (maxFrameBytes limits) maxChunkBytes) (frameHeaderBytes + frameTrailerBytes)

theorem transportChunkBytes_le (limits : Limits) :
    transportChunkBytes limits ≤ maxFrameBytes limits := by
  refine max_le (min_le_left _ _) ?_
  rw [maxFrameBytes]
  omega

/-! ## One response -/

/-- What comes of a call of the handler. -/
inductive HandlerResult
  | returned (outcome : Status) (response : Frame)
  | threw (what : Bytes)
  | threwUnrecognised

/-- The status of the call, and the response the handler has filled in. -/
def HandlerResult.outcome : HandlerResult → Status × Frame
  | .returned outcome response => (outcome, response)
  | .threw what => (Status.failure .invalid what, {})
  | .threwUnrecognised =>
      (Status.failure .unknown (text "handler threw an unrecognised exception"), {})

/-- Only a handler that returned can have succeeded. -/
def HandlerResult.succeeded : HandlerResult → Bool
  | .returned outcome _ => outcome.isOk
  | .threw _ => false
  | .threwUnrecognised => false

/-- The response before its binding is filled in. -/
def HandlerResult.response (result : HandlerResult) : Frame :=
  let (outcome, response) := result.outcome
  if !result.succeeded || !isValidMessageType response.header.type.raw then
    let code := if result.succeeded then .invalid else outcome.code
    let detail := if result.succeeded then text "handler produced no response message type"
      else outcome.message
    { header := { type := .error }, payload := encodeErrorPayload code detail }
  else response

/-- The binding always comes from the request. -/
def bindTo (request : FrameHeader) (response : Frame) : Frame :=
  { response with header := { response.header with
      magic := frameMagic
      formatVersion := frameFormatVersion
      session := request.session
      epoch := request.epoch
      bootDigest := request.bootDigest
      requestSeq := request.requestSeq } }

/-- The frame that stands in for a response the transport refuses to carry. -/
def fallback (status : Status) : Frame :=
  { header := { type := .error }, payload := encodeErrorPayload status.code status.message }

/-- The bytes that are written in answer to a request, if there are any. -/
def answer (limits : Limits) (request : FrameHeader) (result : HandlerResult) : Option Bytes :=
  match encodeFrame (bindTo request result.response) limits with
  | .ok encoded => some encoded
  | .error status =>
      match encodeFrame (bindTo request (fallback status)) limits with
      | .ok encoded => some encoded
      | .error _ => none

/-! ## The loop -/

inductive ServeStop
  | peerClosed
  | boundPassed
  | undecodable (result : FrameDecodeResult)
  | unanswered
  deriving DecidableEq

structure Serving where
  decoder : FrameStreamDecoder
  framesProcessed : ℕ := 0
  framesRejected : ℕ := 0
  written : List Bytes := []
  stop : Option ServeStop := none

/-- The loop of `serve` over what is received; nothing more to receive is a peer that has
closed the connection.  The handler may depend on how often it was called. -/
def serveFor (limits : Limits) (handler : ℕ → Frame → HandlerResult) :
    ℕ → Serving → List Bytes → Serving
  | 0, serving, _ => serving
  | fuel + 1, serving, chunks =>
      let (decoded, decoder) := serving.decoder.next
      match decoded.disposition with
      | .incomplete =>
          match chunks with
          | [] => { serving with decoder, stop := some .peerClosed }
          | chunk :: rest =>
              if chunk.isEmpty then { serving with decoder, stop := some .peerClosed }
              else
                let (fed, decoder) := decoder.feed chunk
                if !fed.isOk then
                  { serving with
                    decoder, stop := some .boundPassed
                    framesRejected := serving.framesRejected + 1 }
                else serveFor limits handler fuel { serving with decoder } rest
      | .complete =>
          let serving := { serving with
            decoder, framesProcessed := serving.framesProcessed + 1 }
          match answer limits decoded.frame.header
              (handler (serving.framesProcessed - 1) decoded.frame) with
          | some bytes =>
              serveFor limits handler fuel
                { serving with written := serving.written ++ [bytes] } chunks
          | none =>
              { serving with
                stop := some .unanswered, framesRejected := serving.framesRejected + 1 }
      | .corrupt | .unsupported =>
          { serving with
            decoder, stop := some (.undecodable decoded)
            framesRejected := serving.framesRejected + 1 }

/-- Every turn takes a chunk or a byte that was received. -/
def serve (limits : Limits) (handler : ℕ → Frame → HandlerResult) (chunks : List Bytes) :
    Serving :=
  serveFor limits handler (chunks.flatten.length + chunks.length + 1)
    { decoder := { limits } } chunks

/-! ## What can be answered -/

/-- The length of the payload of a response: of the one the handler has filled in, or of an
error's code and text. -/
def HandlerResult.payloadLength : HandlerResult → ℕ
  | .returned outcome response =>
      if !outcome.isOk then 6 + (boundedMessage outcome.message).length
      else if isValidMessageType response.header.type.raw then response.payload.length
      else 6 + (text "handler produced no response message type").length
  | .threw what => 6 + (boundedMessage what).length
  | .threwUnrecognised => 6 + (text "handler threw an unrecognised exception").length

/-- The response fits, or the refusal that stands in for it does. -/
def Answerable (limits : Limits) (result : HandlerResult) : Prop :=
  result.payloadLength ≤ payloadCeiling limits ∨
    6 + (refuseExhausted (text "frame payload") result.payloadLength
      (payloadCeiling limits)).message.length ≤ payloadCeiling limits

/-- The bytes are one frame, and it carries the binding of the request. -/
def Answers (limits : Limits) (request : Frame) (bytes : Bytes) : Prop :=
  ∃ response : Frame,
    decodeFrame bytes limits =
        { disposition := .complete, frame := response, consumed := bytes.length } ∧
      response.header.session = request.header.session ∧
      response.header.epoch = request.header.epoch ∧
      response.header.bootDigest = request.header.bootDigest ∧
      response.header.requestSeq = request.header.requestSeq

/-- A tag and a bounded text always fit the budget for them. -/
theorem length_tagged (tag : UInt16) (message : Bytes) :
    (written textBudget ((Wire.u16.pair Wire.string).write
      (tag, boundedMessage message))).length = 6 + (boundedMessage message).length := by
  have hbounded : (boundedMessage message).length ≤ maxMessageBytes := List.length_take_le _ _
  have hsize : byteCount ((Wire.u16.pair Wire.string).write (tag, boundedMessage message)) =
      6 + (boundedMessage message).length := by
    change byteCount (writeU16 tag ++ writeString (boundedMessage message)) = _
    rw [byteCount_append, byteCount_u16, byteCount_string, ← Nat.add_assoc]
  have hfits : byteCount ((Wire.u16.pair Wire.string).write (tag, boundedMessage message)) ≤
      textBudget := by
    rw [hsize, textBudget]
    omega
  rw [written_eq_flatten hfits]
  exact hsize

theorem length_encodeErrorPayload (code : Code) (detail : Bytes) :
    (encodeErrorPayload code detail).length = 6 + (boundedMessage detail).length :=
  length_tagged code.raw detail

theorem HandlerResult.length_response (result : HandlerResult) :
    result.response.payload.length = result.payloadLength := by
  cases result with
  | threw what =>
    change (encodeErrorPayload _ (boundedMessage what)).length = _
    rw [length_encodeErrorPayload, boundedMessage_boundedMessage]
    rfl
  | threwUnrecognised => exact (length_encodeErrorPayload _ _).trans (by decide +kernel)
  | returned outcome response =>
    simp only [HandlerResult.response, HandlerResult.outcome, HandlerResult.succeeded,
      payloadLength]
    by_cases hok : outcome.isOk = true
    · by_cases htype : isValidMessageType response.header.type.raw = true
      · simp [hok, htype]
      · have hmessage : boundedMessage (text "handler produced no response message type") =
            text "handler produced no response message type" := by
          decide +kernel
        simp [hok, htype, length_encodeErrorPayload, hmessage]
    · simp only [hok]
      exact length_encodeErrorPayload _ _

/-- The response has a known type, whatever the handler has done. -/
theorem HandlerResult.type_response (result : HandlerResult) :
    isValidMessageType result.response.header.type.raw = true := by
  rw [HandlerResult.response]
  dsimp only
  split
  · rfl
  · rename_i hkept
    rw [Bool.or_eq_true, not_or, Bool.not_eq_true', Bool.not_eq_false] at hkept
    simpa using hkept.2

theorem answers_of_encodeFrame {request response : Frame} {bytes : Bytes}
    (htype : isValidMessageType response.header.type.raw = true)
    (hencoded : encodeFrame (bindTo request.header response) limits = .ok bytes) :
    Answers limits request bytes := by
  obtain ⟨hfits, rfl⟩ := encodeFrame_eq_ok.mp hencoded
  have hsupported : (bindTo request.header response).header.Supported := ⟨rfl, htype⟩
  have hdecoded := decodeFrame_encoded hsupported hfits []
  rw [List.append_nil] at hdecoded
  exact ⟨_, hdecoded, rfl, rfl, rfl, rfl⟩

theorem of_encodeFrame_eq_error {status : Status}
    (herror : encodeFrame frame limits = .error status) :
    payloadCeiling limits < frame.payload.length ∧
      status = refuseExhausted (text "frame payload") frame.payload.length
        (payloadCeiling limits) := by
  rw [encodeFrame, requireWithin] at herror
  by_cases hlong : frame.payload.length > payloadCeiling limits
  · rw [if_pos hlong] at herror
    cases herror
    exact ⟨hlong, rfl⟩
  · rw [if_neg hlong] at herror
    cases herror

theorem length_fallback (status : Status) (hbounded : status.message.length ≤ maxMessageBytes) :
    (fallback status).payload.length = 6 + status.message.length := by
  change (encodeErrorPayload _ _).length = _
  rw [length_encodeErrorPayload, boundedMessage_of_le hbounded]

/-- A request is answered if its response or the refusal fits, and then by one frame with
its binding. -/
theorem answer_spec (limits : Limits) (request : Frame) (result : HandlerResult) :
    ((answer limits request.header result).isSome = true ↔ Answerable limits result) ∧
      ∀ bytes, answer limits request.header result = some bytes → Answers limits request bytes := by
  have hlength : (bindTo request.header result.response).payload.length = result.payloadLength :=
    result.length_response
  rw [answer]
  cases hencoded : encodeFrame (bindTo request.header result.response) limits with
  | ok encoded =>
    have hfits := (encodeFrame_eq_ok.mp hencoded).1
    rw [hlength] at hfits
    refine ⟨iff_of_true rfl (Or.inl hfits), ?_⟩
    rintro _ ⟨⟩
    exact answers_of_encodeFrame result.type_response hencoded
  | error status =>
    obtain ⟨hlong, rfl⟩ := of_encodeFrame_eq_error hencoded
    rw [hlength] at hlong ⊢
    have hrefusal := length_fallback (refuseExhausted (text "frame payload")
      result.payloadLength (payloadCeiling limits)) (List.length_take_le _ _)
    rw [Answerable, or_iff_right (not_le.mpr hlong), ← hrefusal]
    generalize refuseExhausted (text "frame payload") result.payloadLength
      (payloadCeiling limits) = refusal
    dsimp only
    cases hsecond : encodeFrame (bindTo request.header (fallback refusal)) limits with
    | ok encoded =>
      refine ⟨iff_of_true rfl (encodeFrame_eq_ok.mp hsecond).1, ?_⟩
      rintro _ ⟨⟩
      exact answers_of_encodeFrame rfl hsecond
    | error status =>
      have hlonger := (of_encodeFrame_eq_error hsecond).1
      exact ⟨iff_of_false Bool.false_ne_true (not_le.mpr hlonger), fun bytes hnone =>
        nomatch hnone⟩

/-! ## What is written -/

/-- The answers to a list of frames, up to the first that cannot be given. -/
def answersFrom (limits : Limits) (handler : ℕ → Frame → HandlerResult) :
    ℕ → List Frame → List Bytes
  | _, [] => []
  | index, frame :: frames =>
      match answer limits frame.header (handler index frame) with
      | some bytes => bytes :: answersFrom limits handler (index + 1) frames
      | none => []

/-- All frames of the list can be answered. -/
def AllAnswered (limits : Limits) (handler : ℕ → Frame → HandlerResult) :
    ℕ → List Frame → Prop
  | _, [] => True
  | index, frame :: frames =>
      (answer limits frame.header (handler index frame)).isSome = true ∧
        AllAnswered limits handler (index + 1) frames

def stopOf : Option FrameDecodeResult → ServeStop
  | none => .peerClosed
  | some failure => .undecodable failure

section Loop

variable {fuel : ℕ} {serving : Serving} {buffer : Bytes} {chunks : List Bytes}
  (hdecoder : serving.decoder = { limits, buffer })

include hdecoder

theorem serveFor_of_complete {consumed : ℕ}
    (hverdict : (decodeFrame buffer limits).verdict = .complete frame consumed) :
    serveFor limits handler (fuel + 1) serving chunks =
      match answer limits frame.header (handler serving.framesProcessed frame) with
      | some bytes =>
        serveFor limits handler fuel { serving with
            decoder := { limits, buffer := buffer.drop consumed }
            framesProcessed := serving.framesProcessed + 1
            written := serving.written ++ [bytes] } chunks
      | none =>
        { serving with
          decoder := { limits, buffer := buffer.drop consumed }
          framesProcessed := serving.framesProcessed + 1
          framesRejected := serving.framesRejected + 1
          stop := some .unanswered } := by
  obtain ⟨hdisposition, hframe, hnext⟩ := next_of_complete hverdict
  rw [serveFor, hdecoder]
  dsimp only
  rw [hdisposition]
  dsimp only
  rw [hframe, hnext, Nat.add_sub_cancel]

theorem serveFor_of_failed {failure : FrameDecodeResult}
    (hverdict : (decodeFrame buffer limits).verdict = .failed failure) :
    (serveFor limits handler (fuel + 1) serving chunks).written = serving.written ∧
      (serveFor limits handler (fuel + 1) serving chunks).stop = some (.undecodable failure) := by
  obtain ⟨hnext, hfailed⟩ := next_of_failed hverdict
  rw [serveFor, hdecoder]
  dsimp only
  rw [hnext]
  obtain ⟨code, message, ⟨rfl, -⟩ | ⟨rfl, -⟩⟩ := hfailed.refused
  · exact ⟨rfl, rfl⟩
  · exact ⟨rfl, rfl⟩

theorem serveFor_of_ended (hverdict : (decodeFrame buffer limits).verdict = .incomplete) :
    (serveFor limits handler (fuel + 1) serving []).written = serving.written ∧
      (serveFor limits handler (fuel + 1) serving []).stop = some .peerClosed := by
  obtain ⟨hnext, hdisposition⟩ := next_of_incomplete hverdict
  rw [serveFor, hdecoder, hnext]
  dsimp only
  rw [hdisposition]
  exact ⟨rfl, rfl⟩

theorem serveFor_of_chunk {chunk : Bytes}
    (hverdict : (decodeFrame buffer limits).verdict = .incomplete) (hsome : chunk ≠ [])
    (hchunk : chunk.length ≤ maxFrameBytes limits) :
    serveFor limits handler (fuel + 1) serving (chunk :: chunks) = serveFor limits handler fuel
        { serving with decoder := { limits, buffer := buffer ++ chunk } } chunks := by
  obtain ⟨hnext, hdisposition⟩ := next_of_incomplete hverdict
  rw [serveFor, hdecoder, hnext]
  dsimp only
  rw [hdisposition]
  dsimp only
  rw [if_neg (by rwa [List.isEmpty_iff]), feed_of_incomplete hverdict hchunk]
  rfl

end Loop

/-- The loop answers the frames of the whole stream in order, and comes to the end of the
stream or to its failure if it can answer all of them. -/
theorem serveFor_spec {fuel : ℕ} {serving : Serving} {buffer : Bytes} {chunks : List Bytes}
    (hdecoder : serving.decoder = { limits, buffer })
    (hfuel : buffer.length + chunks.flatten.length + chunks.length < fuel)
    (hchunks : ∀ chunk ∈ chunks, chunk ≠ [] ∧ chunk.length ≤ maxFrameBytes limits) :
    (serveFor limits handler fuel serving chunks).written = serving.written ++
        answersFrom limits handler serving.framesProcessed
          (decodeStream limits (buffer ++ chunks.flatten)).items ∧
      (AllAnswered limits handler serving.framesProcessed
          (decodeStream limits (buffer ++ chunks.flatten)).items →
        (serveFor limits handler fuel serving chunks).stop =
          some (stopOf (decodeStream limits (buffer ++ chunks.flatten)).failure)) := by
  have hstable := decodeFrame_stable limits
  induction fuel generalizing serving buffer chunks with
  | zero => exact absurd hfuel (Nat.not_lt_zero _)
  | succ fuel ih =>
    cases hverdict : (decodeFrame buffer limits).verdict with
    | complete frame consumed =>
      obtain ⟨hpositive, hwithin⟩ := hstable.consumes hverdict
      have hall : decodeStream limits (buffer ++ chunks.flatten) =
          (decodeStream limits (buffer.drop consumed ++ chunks.flatten)).after [frame] := by
        rw [← List.drop_append_of_le_length hwithin]
        exact hstable.decodeAll_of_complete (hstable.complete hverdict _)
      have hless : (buffer.drop consumed).length + chunks.flatten.length + chunks.length <
          fuel := by
        rw [List.length_drop]
        omega
      rw [serveFor_of_complete hdecoder hverdict, hall]
      simp only [Decoded.after, List.singleton_append, answersFrom, AllAnswered]
      cases hanswer : answer limits frame.header (handler serving.framesProcessed frame) with
      | none => exact ⟨(List.append_nil _).symm, fun hanswered => nomatch hanswered.1⟩
      | some bytes =>
        let later : Serving := { serving with
          decoder := { limits, buffer := buffer.drop consumed }
          framesProcessed := serving.framesProcessed + 1
          written := serving.written ++ [bytes] }
        have hlater : later.decoder = { limits, buffer := buffer.drop consumed } := rfl
        obtain ⟨hwritten, hstop⟩ := ih hlater hless hchunks
        refine ⟨hwritten.trans ?_, fun hanswered => hstop hanswered.2⟩
        rw [List.append_assoc]
        rfl
    | incomplete =>
      cases chunks with
      | nil =>
        have hall : decodeStream limits (buffer ++ [].flatten) = ⟨[], none, buffer⟩ := by
          rw [List.flatten_nil, List.append_nil]
          exact Stable.decodeAll_of_incomplete hverdict
        obtain ⟨hwritten, hstop⟩ := serveFor_of_ended hdecoder hverdict
        rw [hall]
        exact ⟨hwritten.trans (List.append_nil _).symm, fun _ => hstop⟩
      | cons chunk rest =>
        obtain ⟨⟨hsome, hsmall⟩, hrest⟩ := List.forall_mem_cons.mp hchunks
        have hless : (buffer ++ chunk).length + rest.flatten.length + rest.length < fuel := by
          rw [List.flatten_cons, List.length_append, List.length_cons] at hfuel
          rw [List.length_append]
          omega
        rw [serveFor_of_chunk hdecoder hverdict hsome hsmall, List.flatten_cons,
          ← List.append_assoc]
        let later : Serving := { serving with
          decoder := { limits, buffer := buffer ++ chunk } }
        have hlater : later.decoder = { limits, buffer := buffer ++ chunk } := rfl
        exact ih hlater hless hrest
    | failed failure =>
      have hall : decodeStream limits (buffer ++ chunks.flatten) =
          ⟨[], some failure, buffer ++ chunks.flatten⟩ :=
        Stable.decodeAll_of_failed (hstable.failed hverdict chunks.flatten)
      obtain ⟨hwritten, hstop⟩ := serveFor_of_failed hdecoder hverdict
      rw [hall]
      exact ⟨hwritten.trans (List.append_nil _).symm, fun _ => hstop⟩

theorem allAnswered_iff :
    AllAnswered limits handler start frames ↔ ∀ index frame, frames[index]? = some frame →
        Answerable limits (handler (start + index) frame) := by
  induction frames generalizing start with
  | nil => exact iff_of_true trivial fun index frame hframe => nomatch hframe
  | cons first frames ih =>
    rw [AllAnswered, ih, (answer_spec limits first _).1]
    constructor
    · rintro ⟨hfirst, hlater⟩ index frame hframe
      cases index with
      | zero =>
        cases hframe
        exact hfirst
      | succ index =>
        rw [← Nat.add_assoc, Nat.add_right_comm]
        exact hlater index frame hframe
    · intro hall
      refine ⟨hall 0 first rfl, fun index frame hframe => ?_⟩
      rw [Nat.add_right_comm]
      exact hall (index + 1) frame hframe

/-- There is one answer for each frame exactly if all frames are answered. -/
theorem answersFrom_forall :
    List.Forall₂ (Answers limits) frames (answersFrom limits handler start frames) ↔
      AllAnswered limits handler start frames := by
  induction frames generalizing start with
  | nil => exact iff_of_true List.Forall₂.nil trivial
  | cons frame frames ih =>
    rw [answersFrom, AllAnswered]
    cases hanswer : answer limits frame.header (handler start frame) with
    | none => exact iff_of_false (fun hforall => nomatch hforall) fun hall => nomatch hall.1
    | some bytes =>
      have hbytes := (answer_spec limits frame _).2 bytes hanswer
      rw [List.forall₂_cons, ih]
      exact and_congr_left fun _ => iff_of_true hbytes rfl

/-- The peer's stream arrives in chunks of the size of the receive buffer at most.  Every
frame of the stream has one response with its binding, in order, and the loop ends with the
stream or at its first failure, exactly if every call of the handler can be answered under
the bound on payloads. -/
theorem serve_responses_iff (limits : Limits) (handler : ℕ → Frame → HandlerResult)
    (chunks : List Bytes)
    (hchunks : ∀ chunk ∈ chunks, chunk ≠ [] ∧ chunk.length ≤ transportChunkBytes limits) :
    (List.Forall₂ (Answers limits) (decodeStream limits chunks.flatten).items
          (serve limits handler chunks).written ∧
        (serve limits handler chunks).stop =
          some (stopOf (decodeStream limits chunks.flatten).failure)) ↔
      ∀ index frame, (decodeStream limits chunks.flatten).items[index]? = some frame →
        Answerable limits (handler index frame) := by
  have hsmall : ∀ chunk ∈ chunks, chunk ≠ [] ∧ chunk.length ≤ maxFrameBytes limits :=
    fun chunk hchunk => ⟨(hchunks chunk hchunk).1,
      (hchunks chunk hchunk).2.trans (transportChunkBytes_le limits)⟩
  let fresh : Serving := { decoder := { limits } }
  have hfresh : fresh.decoder = { limits, buffer := [] } := rfl
  have hfuel : ([] : Bytes).length + chunks.flatten.length + chunks.length <
      chunks.flatten.length + chunks.length + 1 := by
    rw [List.length_nil]
    omega
  obtain ⟨hwritten, hstop⟩ := serveFor_spec hfresh hfuel hsmall
  change (serve limits handler chunks).written = answersFrom limits handler 0
    (decodeStream limits chunks.flatten).items at hwritten
  have hanswered : AllAnswered limits handler 0 (decodeStream limits chunks.flatten).items ↔
      ∀ index frame, (decodeStream limits chunks.flatten).items[index]? = some frame →
        Answerable limits (handler index frame) := by
    rw [allAnswered_iff]
    simp only [Nat.zero_add]
  rw [hwritten, answersFrom_forall, ← hanswered]
  exact and_iff_left_of_imp hstop

namespace Sample

/-- A greeting without a payload. -/
def greetingBytes : Bytes :=
  (encodeFrame { header := { type := .hello, requestSeq := 7 } } {}).toOption.getD []

/-- A handler that always fails. -/
def refuse : ℕ → Frame → HandlerResult := fun _ _ => .returned (Status.failure .invalid []) {}

/-- A bound that leaves no room for an error. -/
def narrow : Limits := { maxFramePayload := 1 }

end Sample

/-- Two greetings in three chunks have two responses. -/
theorem serve_responses_two_greetings :
    List.Forall₂ (Answers {})
        (decodeStream {} (Sample.greetingBytes ++ Sample.greetingBytes)).items
        (serve {} Sample.refuse [Sample.greetingBytes.take 9,
          Sample.greetingBytes.drop 9 ++ Sample.greetingBytes.take 4,
          Sample.greetingBytes.drop 4]).written ∧
      (decodeStream {} (Sample.greetingBytes ++ Sample.greetingBytes)).items.length = 2 := by
  have hchunks : ∀ chunk ∈ [Sample.greetingBytes.take 9,
      Sample.greetingBytes.drop 9 ++ Sample.greetingBytes.take 4, Sample.greetingBytes.drop 4],
      chunk ≠ [] ∧ chunk.length ≤ transportChunkBytes {} := by
    decide +kernel
  have hfits : (Sample.refuse 0 {}).payloadLength ≤ payloadCeiling {} := by decide +kernel
  have hserved := (serve_responses_iff {} Sample.refuse _ hchunks).mpr
    fun index frame _ => Or.inl hfits
  have hflatten : [Sample.greetingBytes.take 9,
      Sample.greetingBytes.drop 9 ++ Sample.greetingBytes.take 4,
      Sample.greetingBytes.drop 4].flatten = Sample.greetingBytes ++ Sample.greetingBytes := by
    decide +kernel
  rw [hflatten] at hserved
  exact ⟨hserved.1, by decide +kernel⟩

/-- With a bound of one byte, which validates, a failing handler leaves the request without
a response: six bytes do not fit, and neither does the refusal. -/
theorem request_unanswered :
    Sample.narrow.validate = .ok () ∧
      ((decodeStream Sample.narrow Sample.greetingBytes).items.map (·.header.requestSeq)) = [7] ∧
      (decodeStream Sample.narrow Sample.greetingBytes).failure = none ∧
      (serve Sample.narrow Sample.refuse [Sample.greetingBytes]).written = [] ∧
      (serve Sample.narrow Sample.refuse [Sample.greetingBytes]).stop = some .unanswered := by
  decide +kernel

end SwitchFailover.Transport
