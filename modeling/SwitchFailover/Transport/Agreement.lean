import SwitchFailover.Transport.Client
import SwitchFailover.Transport.Server

/-!
# Limits at the two ends of a connection

The server encodes within its limits, and the decoder of a client has the default ones.
So a client and a server with the same limits agree on what a frame may carry only if
their bound on payloads is the default: under a larger one the client drops the
connection at a long response, under a smaller one it takes frames that are too long.
The exception is a bound so small that not even the handshake can be sent.
-/

namespace SwitchFailover.Transport

open SwitchFailover.Core Codec Library.Codec Library.Incremental

variable {buffer more principal : Bytes}

variable {limits : Limits} {incoming : List (Result Bytes)} {client : FrameClient} {frame : Frame}
  {type : MessageType} {payload : Bytes}

/-! ## The two sides of the agreement -/

/-- The call gets as far as sending its request. -/
structure Ready (client : FrameClient) (type : MessageType) (payload : Bytes) : Prop where
  type : isValidMessageType type.raw = true
  connected : client.connected = true
  handshaken : client.handshaken = true
  sequence : client.sequenceExhausted = false
  fits : payload.length ≤ payloadCeiling client.limits

/-- What is received comes in pieces that fit the buffer for it. -/
def InChunks (limits : Limits) (incoming : List (Result Bytes)) : Prop :=
  ∀ chunk, .ok chunk ∈ incoming → chunk.length ≤ transportChunkBytes limits

/-- Every response that a server can encode is returned by the call it comes for. -/
def Receptive (limits : Limits) : Prop :=
  ∀ incoming client, Reached limits incoming client → InChunks limits client.incoming →
    ∀ type payload flags, Ready client type payload →
    ∀ (request : FrameHeader) (result : HandlerResult) encoded more,
      encodeFrame (bindTo request result.response) limits = .ok encoded →
      client.decoder.buffer ++ arriving client.incoming = encoded ++ more →
      (client.call type payload flags (.ok ())).1 = .ok (bindTo request result.response).received

/-- No call returns a frame with a longer payload than the bound. -/
def Guarded (limits : Limits) : Prop :=
  ∀ incoming client, Reached limits incoming client → InChunks limits incoming →
    ∀ type payload flags sent frame, (client.call type payload flags sent).1 = .ok frame →
      frame.payload.length ≤ limits.maxFramePayload

/-! ## Receiving one frame -/

theorem payloadCeiling_of_validate (hvalid : limits.validate = .ok ()) :
    payloadCeiling limits = limits.maxFramePayload := by
  have hentry : (limits.maxFramePayload, hardMaxFramePayload, text "max_frame_payload") ∈
      limits.bounded := by
    simp [Limits.bounded]
  exact min_eq_left (Limits.bounded_of_validate hvalid hentry).2

/-- Receiving stops at an arrival that is not a piece of the stream. -/
theorem exists_chunk (hmore : arriving incoming ≠ []) :
    ∃ chunk rest, incoming = .ok chunk :: rest ∧ chunk.isEmpty = false ∧
      arriving incoming = chunk ++ arriving rest := by
  cases incoming with
  | nil => exact absurd rfl hmore
  | cons arrival rest =>
    cases arrival with
    | error status => exact absurd rfl hmore
    | ok chunk =>
      rw [arriving] at hmore ⊢
      by_cases hempty : chunk.isEmpty = true
      · rw [if_pos hempty] at hmore
        exact absurd rfl hmore
      · rw [if_neg hempty]
        exact ⟨chunk, rest, rfl, Bool.eq_false_of_not_eq_true hempty, rfl⟩

section Receiving

variable (hsupported : frame.header.Supported)
  (hfits : frame.payload.length ≤ payloadCeiling {})

include hsupported hfits

theorem verdict_encoded (suffix : Bytes) :
    (decodeFrame (frame.finishedHeader.encode ++ frame.body ++ suffix) {}).verdict =
      .complete frame.received (frame.finishedHeader.encode ++ frame.body).length := by
  rw [decodeFrame_encoded hsupported hfits]
  rfl

theorem verdict_beginning {missing : Bytes}
    (hbuffer : frame.finishedHeader.encode ++ frame.body = buffer ++ missing)
    (hmissing : missing ≠ []) : (decodeFrame buffer {}).verdict = .incomplete := by
  have hcut : buffer.length < (frame.finishedHeader.encode ++ frame.body).length := by
    rw [hbuffer, List.length_append]
    exact Nat.lt_add_of_pos_right (List.length_pos_iff.mpr hmissing)
  have htake : buffer = (frame.finishedHeader.encode ++ frame.body).take buffer.length := by
    rw [hbuffer, List.take_left]
  rw [htake, decodeFrame_take hsupported hfits hcut]
  rfl

theorem awaitFrame_of_whole {extra : Bytes} (hdecoder : client.decoder =
      { limits := {}, buffer := frame.finishedHeader.encode ++ frame.body ++ extra })
    (incoming : List (Result Bytes)) :
    client.awaitFrame incoming = (.ok frame.received,
      { client with decoder := { limits := {}, buffer := extra }, incoming }) := by
  obtain ⟨hdisposition, hframe, hnext⟩ :=
    next_of_complete (verdict_encoded hsupported hfits extra)
  have hpoll : client.poll = (some (.ok frame.received),
      { client with decoder := { limits := {}, buffer := extra } }) := by
    rw [FrameClient.poll, hdecoder]
    dsimp only
    rw [hdisposition, hframe, hnext, List.drop_left]
  exact awaitFrame_of_polled hpoll incoming

/-- The client is given a whole frame, in whatever pieces, and returns it. -/
theorem awaitFrame_of_front
    (hchunks : ∀ chunk, .ok chunk ∈ incoming → chunk.length ≤ maxFrameBytes {})
    (hdecoder : client.decoder = { limits := {}, buffer })
    (hstream : buffer ++ arriving incoming = frame.finishedHeader.encode ++ frame.body ++ more) :
    ∃ later rest, client.awaitFrame incoming = (.ok frame.received,
        { client with decoder := { limits := {}, buffer := later }, incoming := rest }) ∧
      later ++ arriving rest = more ∧ rest <:+ incoming := by
  induction incoming generalizing client buffer with
  | nil =>
    rw [arriving, List.append_nil] at hstream
    rw [hstream] at hdecoder
    exact ⟨more, [], awaitFrame_of_whole hsupported hfits hdecoder [],
      List.append_nil _, List.suffix_refl _⟩
  | cons arrival rest ih =>
    rcases List.append_eq_append_iff.mp hstream with
      ⟨missing, hencoded, harriving⟩ | ⟨extra, hbuffer, hmore⟩
    · by_cases hmissing : missing = []
      · rw [hmissing, List.append_nil] at hencoded
        rw [hmissing, List.nil_append] at harriving
        have hwhole : client.decoder = { limits := {}, buffer :=
            frame.finishedHeader.encode ++ frame.body ++ [] } := by
          rw [List.append_nil, hencoded, hdecoder]
        exact ⟨[], _, awaitFrame_of_whole hsupported hfits hwhole _, harriving, List.suffix_refl _⟩
      · -- a beginning of the frame: the next piece is read
        have hverdict := verdict_beginning hsupported hfits hencoded hmissing
        have harrives : arriving (arrival :: rest) ≠ [] := by
          rw [harriving]
          exact fun hnil => hmissing (List.append_eq_nil_iff.mp hnil).1
        obtain ⟨chunk, others, hincoming, hnonempty, hpieces⟩ := exists_chunk harrives
        cases hincoming
        have hfed := feed_of_incomplete hverdict (hchunks chunk List.mem_cons_self)
        let fed : FrameClient := { client with
          decoder := { limits := {}, buffer := buffer ++ chunk } }
        have hlonger : buffer ++ chunk ++ arriving rest =
            frame.finishedHeader.encode ++ frame.body ++ more := by
          rw [List.append_assoc, ← hpieces, hstream]
        have hbuffer : fed.decoder = { limits := {}, buffer := buffer ++ chunk } := rfl
        obtain ⟨later, final, hawait, hrest, hsuffix⟩ := ih
          (fun piece hpiece => hchunks piece (List.mem_cons_of_mem _ hpiece)) hbuffer hlonger
        refine ⟨later, final, ?_, hrest, hsuffix.trans (List.suffix_cons _ _)⟩
        unfold FrameClient.awaitFrame
        rw [poll_of_incomplete hdecoder hverdict]
        dsimp only
        rw [hnonempty, if_neg Bool.false_ne_true, hdecoder, hfed]
        exact hawait
    · rw [hbuffer] at hdecoder
      exact ⟨extra, _, awaitFrame_of_whole hsupported hfits hdecoder _, hmore.symm,
        List.suffix_refl _⟩

end Receiving

/-! ## Round trips -/

theorem roundTrip_eq_awaitFrame {request : Frame}
    (hrequest : request.payload.length ≤ payloadCeiling client.limits)
    (hconnected : client.connected = true) :
    client.roundTrip request (.ok ()) =
      ({ client with outgoing := client.outgoing ++ [request] } : FrameClient).awaitFrame
        client.incoming := by
  rw [FrameClient.roundTrip, encodeFrame_eq_ok.mpr ⟨hrequest, rfl⟩]
  dsimp only
  rw [if_neg (by rw [hconnected]; exact Bool.false_ne_true)]

theorem takeSequence_of_open (hopen : client.sequenceExhausted = false) :
    ∃ nextSeq exhausted, client.takeSequence = (some client.nextSeq,
      { client with nextSeq, sequenceExhausted := exhausted }) := by
  rw [FrameClient.takeSequence, hopen, if_neg Bool.false_ne_true]
  split
  · exact ⟨client.nextSeq, true, rfl⟩
  · exact ⟨client.nextSeq + 1, false, rfl⟩

/-- The call sends its request and waits for a frame. -/
theorem call_eq_awaitFrame (hready : Ready client type payload) (flags : UInt32) :
    ∃ nextSeq exhausted request, client.call type payload flags (.ok ()) = ({ client with
          nextSeq
          sequenceExhausted := exhausted
          outgoing := client.outgoing ++ [request] } : FrameClient).awaitFrame
        client.incoming := by
  obtain ⟨nextSeq, exhausted, htaken⟩ := takeSequence_of_open hready.sequence
  have hwithin : ¬payload.length > client.limits.maxFramePayload :=
    not_lt.mpr (hready.fits.trans (min_le_left _ _))
  let numbered : FrameClient := { client with nextSeq, sequenceExhausted := exhausted }
  let request : Frame :=
    { header := { type, flags, session := client.session, epoch := client.epoch
                  bootDigest := client.bootDigest, requestSeq := client.nextSeq }
      payload }
  have hfits : request.payload.length ≤ payloadCeiling numbered.limits := hready.fits
  refine ⟨nextSeq, exhausted, request, ?_⟩
  rw [FrameClient.call, if_neg (by rw [hready.type]; exact Bool.false_ne_true),
    if_neg (by rw [hready.connected]; exact Bool.false_ne_true),
    if_neg (by rw [hready.handshaken]; exact Bool.false_ne_true), if_neg hwithin, htaken]
  exact roundTrip_eq_awaitFrame hfits hready.connected

/-! ## Where the ceilings agree -/

theorem transportChunkBytes_le_default (limits : Limits) :
    transportChunkBytes limits ≤ maxFrameBytes {} := by
  refine max_le ((min_le_right _ _).trans ?_) ?_
  · decide
  · decide

theorem reached_decoder (hreached : Reached limits incoming client)
    (hconnected : client.connected = true) :
    ∃ buffer, client.decoder = { limits := {}, buffer } := by
  obtain ⟨operations, rfl⟩ := hreached
  obtain ⟨buffer, -, hdecoder, -, -⟩ :=
    inStep_performAll (inStep_connect limits incoming) operations hconnected
  exact ⟨buffer, hdecoder⟩

/-- A call that gets as far as sending waits for a frame, with the default limits. -/
theorem exists_waiting (hreached : Reached limits incoming client)
    (hready : Ready client type payload) (flags : UInt32) :
    ∃ waiting : FrameClient, waiting.decoder = { limits := {}, buffer := client.decoder.buffer } ∧
        client.call type payload flags (.ok ()) = waiting.awaitFrame client.incoming := by
  obtain ⟨buffer, hdecoder⟩ := reached_decoder hreached hready.connected
  obtain ⟨nextSeq, exhausted, request, hcall⟩ := call_eq_awaitFrame hready flags
  refine ⟨_, ?_, hcall⟩
  rw [hdecoder]

/-- A call returns the frame its stream starts with, if the default ceiling lets it in. -/
theorem call_of_front (hreached : Reached limits incoming client)
    (hchunks : InChunks limits client.incoming) (hready : Ready client type payload)
    (flags : UInt32) (hsupported : frame.header.Supported)
    (hfits : frame.payload.length ≤ payloadCeiling {})
    (hstream : client.decoder.buffer ++ arriving client.incoming =
      frame.finishedHeader.encode ++ frame.body ++ more) :
    (client.call type payload flags (.ok ())).1 = .ok frame.received := by
  obtain ⟨waiting, hdecoder, hcall⟩ := exists_waiting hreached hready flags
  have hpieces : ∀ chunk, .ok chunk ∈ client.incoming → chunk.length ≤ maxFrameBytes {} :=
    fun chunk hchunk => (hchunks chunk hchunk).trans (transportChunkBytes_le_default limits)
  obtain ⟨later, rest, hawait, -, -⟩ :=
    awaitFrame_of_front hsupported hfits hpieces hdecoder hstream
  rw [hcall]
  exact congrArg Prod.fst hawait

/-- A call fails if the decoder refuses what its stream starts with. -/
theorem call_of_failed (hreached : Reached limits incoming client)
    (hready : Ready client type payload) (flags : UInt32) {failure : FrameDecodeResult}
    (hfailed : (decodeFrame (client.decoder.buffer ++ arriving client.incoming) {}).verdict =
      .failed failure) : ∃ status, (client.call type payload flags (.ok ())).1 = .error status := by
  obtain ⟨waiting, hdecoder, hcall⟩ := exists_waiting hreached hready flags
  have hnothing : decodeStream {} (client.decoder.buffer ++ arriving client.incoming) =
      ⟨[], some failure, client.decoder.buffer ++ arriving client.incoming⟩ :=
    Stable.decodeAll_of_failed hfailed
  rw [hcall]
  obtain ⟨-, ⟨status, herror, -⟩ | ⟨first, later, -, -, hitems⟩⟩ :=
    awaitFrame_spec hdecoder client.incoming
  · exact ⟨status, herror⟩
  · rw [hnothing] at hitems
    cases congrArg Decoded.items hitems

theorem receptive_of_le (hle : payloadCeiling limits ≤ payloadCeiling {}) : Receptive limits := by
  intro incoming client hreached hchunks type payload flags hready request result encoded more
    hencoded hstream
  obtain ⟨hfits, rfl⟩ := encodeFrame_eq_ok.mp hencoded
  exact call_of_front hreached hchunks hready flags ⟨rfl, result.type_response⟩
    (hfits.trans hle) hstream

theorem payload_within {data : Bytes} {consumed : ℕ}
    (hverdict : (decodeFrame data limits).verdict = .complete frame consumed) :
    frame.payload.length ≤ payloadCeiling limits := by
  rw [decodeFrame] at hverdict
  split_ifs at hverdict with hshort hmagic hheader
  · cases hverdict
  · cases hverdict
  · cases hverdict
  cases hcheck : checkHeader (data.take frameHeaderBytes) limits with
  | error refused =>
    rw [hcheck] at hverdict
    dsimp only at hverdict
    rw [verdict_of_refused (checkHeader_refused hcheck)] at hverdict
    cases hverdict
  | ok header =>
    rw [hcheck] at hverdict
    dsimp only [decodePayload] at hverdict
    split_ifs at hverdict with hbody hchecksum
    · cases hverdict
    · cases hverdict
    · cases hverdict
      exact (List.length_take_le _ _).trans (checkHeader_payloadLen hcheck)

/-- No frame of a stream is longer than the ceiling of its decoder. -/
theorem items_within (limits : Limits) (stream : Bytes) :
    ∀ frame ∈ (decodeStream limits stream).items, frame.payload.length ≤ payloadCeiling limits := by
  have hstable := decodeFrame_stable limits
  induction stream using hstable.decodeAll_induction with
  | hcomplete buffer frame consumed hverdict ih =>
    have hall : decodeStream limits buffer =
        (decodeStream limits (buffer.drop consumed)).after [frame] :=
      hstable.decodeAll_of_complete hverdict
    rw [hall]
    intro other hother
    rcases List.mem_cons.mp hother with rfl | hlater
    · exact payload_within hverdict
    · exact ih other hlater
  | hincomplete buffer hverdict =>
    have hall : decodeStream limits buffer = ⟨[], none, buffer⟩ :=
      Stable.decodeAll_of_incomplete hverdict
    rw [hall]
    intro other hother
    cases hother
  | hfailed buffer failure hverdict =>
    have hall : decodeStream limits buffer = ⟨[], some failure, buffer⟩ :=
      Stable.decodeAll_of_failed hverdict
    rw [hall]
    intro other hother
    cases hother

theorem guarded_of_le (hle : payloadCeiling {} ≤ limits.maxFramePayload) : Guarded limits := by
  rintro incoming client ⟨operations, rfl⟩ - type payload flags sent frame hframe
  have hinStep := inStep_performAll (inStep_connect limits incoming) operations
  obtain ⟨request, -, hitem⟩ := (call_spec hinStep type payload flags sent).2 frame hframe
  exact (items_within {} _ frame (List.mem_of_getElem? hitem)).trans hle

/-! ## Where they differ -/

/-- A frame that is too long for a decoder is refused at its header. -/
theorem verdict_too_long (hsupported : frame.header.Supported)
    (hfits : frame.payload.length ≤ payloadCeiling limits)
    (hlong : payloadCeiling {} < frame.payload.length) (suffix : Bytes) :
    ∃ failure, (decodeFrame (frame.finishedHeader.encode ++ suffix) {}).verdict =
      .failed failure := by
  have hlength := payloadLen_finishedHeader hfits
  have hstored : (FrameHeader.parse frame.finishedHeader.encode).headerCrc =
      crc32Ieee (frame.finishedHeader.encode.take headerCrcOffset) :=
    (checked_iff frame.finishedHeader.length_encode).mp frame.finishedHeader.checked_encode
  have hversion : frame.finishedHeader.formatVersion = frameFormatVersion := hsupported.1
  have htype : isValidMessageType frame.finishedHeader.type.raw = true := hsupported.2
  have hcheck : checkHeader frame.finishedHeader.encode {} = .error (makeFailure .corrupt .corrupt
      (text "frame payload length exceeds the configured bound")) := by
    rw [checkHeader]
    rw [if_neg (not_not.mpr hstored), FrameHeader.parse_encode, FrameHeader.rawType_encode,
      if_neg (not_not.mpr hversion), htype, if_neg (by decide),
      if_pos (hlong.trans_eq hlength.symm)]
  refine ⟨makeFailure .corrupt .corrupt
    (text "frame payload length exceeds the configured bound"), ?_⟩
  rw [decodeFrame_front (FrameHeader.length_encode _) (magic_encode _), hcheck]
  rfl

namespace Sample

/-- A server's acceptance of the handshake. -/
def ack : Frame where
  header := { type := .helloAck, requestSeq := 1 }
  payload := encodeHelloResponse { session := ⟨4⟩, epoch := ⟨2⟩, bootDigest := 5, outcome := .ok }

/-- A result with a payload of the given length. -/
def longResult (length : ℕ) : HandlerResult :=
  .returned .success
    { header := { type := .authorityResult }, payload := List.replicate length 0 }

/-- A stream that arrives byte by byte. -/
def dripping (stream : Bytes) : List (Result Bytes) := stream.map fun byte => .ok [byte]

theorem arriving_dripping (stream : Bytes) : arriving (dripping stream) = stream := by
  induction stream with
  | nil => rfl
  | cons byte stream ih =>
    change [byte] ++ arriving (dripping stream) = byte :: stream
    rw [ih]
    rfl

theorem inChunks_dripping {stream : Bytes} (hsuffix : incoming <:+ dripping stream) :
    InChunks limits incoming := by
  intro chunk hchunk
  obtain ⟨byte, -, hbyte⟩ := List.mem_map.mp (hsuffix.subset hchunk)
  cases hbyte
  have hone : 1 ≤ frameHeaderBytes + frameTrailerBytes := by decide
  exact hone.trans (le_max_right _ _)

theorem acknowledged_ack :
    ∃ hello, FrameClient.acknowledged ack.received = .ok hello ∧ hello.maxPayload = 0 := by
  have haccepted : (FrameClient.acknowledged ack.received).toOption.map (·.maxPayload) =
      some 0 := by
    decide +kernel
  cases hresult : FrameClient.acknowledged ack.received with
  | error status =>
    rw [hresult] at haccepted
    cases haccepted
  | ok hello =>
    rw [hresult] at haccepted
    exact ⟨hello, rfl, Option.some.inj haccepted⟩

end Sample

theorem handshake_of_roundTrip {numbered answered : FrameClient} {sent : Result Unit}
    {sequence : UInt64} {ack : HelloResponse} (hprincipal : principal ≠ [])
    (hconnected : client.connected = true) (hfresh : client.handshaken = false)
    (htaken : client.takeSequence = (some sequence, numbered)) (htrip : numbered.roundTrip
      { header := { type := .hello, requestSeq := sequence }
        payload := encodeHelloRequest { principal } } sent = (.ok frame, answered))
    (hack : FrameClient.acknowledged frame = .ok ack) :
    client.handshake principal sent = (.success, answered.adopt ack) := by
  have hnonempty : ¬principal.isEmpty = true := fun hempty =>
    hprincipal (List.isEmpty_iff.mp hempty)
  rw [FrameClient.handshake, if_neg hnonempty,
    if_neg (by rw [hconnected]; exact Bool.false_ne_true),
    if_neg (by rw [hfresh]; exact Bool.false_ne_true), htaken]
  dsimp only
  rw [htrip]
  dsimp only
  rw [hack]

/-- A client whose handshake fits is led to its first call, with any bytes to come. -/
theorem exists_greeted (hroom : 7 ≤ payloadCeiling limits) (tail : Bytes) :
    ∃ incoming client, Reached limits incoming client ∧ InChunks limits incoming ∧
      InChunks limits client.incoming ∧ Ready client .queryAuthority [] ∧
      client.decoder.buffer ++ arriving client.incoming = tail := by
  let stream := Sample.ack.finishedHeader.encode ++ Sample.ack.body ++ tail
  let start := FrameClient.connect limits (Sample.dripping stream)
  let numbered : FrameClient := { start with nextSeq := 2 }
  let hello : Frame :=
    { header := { type := .hello, requestSeq := 1 }
      payload := encodeHelloRequest { principal := [0] } }
  let waiting : FrameClient := { numbered with outgoing := [hello] }
  have hsupported : Sample.ack.header.Supported := ⟨rfl, rfl⟩
  have hfits : Sample.ack.payload.length ≤ payloadCeiling {} := by decide +kernel
  have hhello : hello.payload.length ≤ payloadCeiling numbered.limits :=
    (show hello.payload.length = 7 by decide +kernel).trans_le hroom
  have hdecoder : waiting.decoder = { limits := {}, buffer := [] } := rfl
  have hdrips : InChunks limits (Sample.dripping stream) :=
    Sample.inChunks_dripping (List.suffix_refl _)
  have hchunks : ∀ chunk, .ok chunk ∈ Sample.dripping stream → chunk.length ≤ maxFrameBytes {} :=
    fun chunk hchunk => (hdrips chunk hchunk).trans (transportChunkBytes_le_default limits)
  have hstream : [] ++ arriving (Sample.dripping stream) = stream :=
    Sample.arriving_dripping stream
  obtain ⟨later, rest, hawait, hmore, hsuffix⟩ :=
    awaitFrame_of_front hsupported hfits hchunks hdecoder hstream
  obtain ⟨accepted, haccepted, hpayload⟩ := Sample.acknowledged_ack
  let answered : FrameClient := { waiting with
    decoder := { limits := {}, buffer := later }, incoming := rest }
  have hopen : start.sequenceExhausted = false := rfl
  have hfirst : start.nextSeq ≠ UInt64.ofNat (2 ^ 64 - 1) := by
    change (1 : UInt64) ≠ UInt64.ofNat (2 ^ 64 - 1)
    decide
  have htaken : start.takeSequence = (some 1, numbered) := by
    rw [FrameClient.takeSequence, hopen, if_neg Bool.false_ne_true, if_neg hfirst]
    rfl
  have htrip : numbered.roundTrip hello (.ok ()) = (.ok Sample.ack.received, answered) :=
    (roundTrip_eq_awaitFrame hhello rfl).trans hawait
  have hshaken : (start.handshake [0] (.ok ())).2 = answered.adopt accepted :=
    congrArg Prod.snd (handshake_of_roundTrip (List.cons_ne_nil _ _) rfl rfl htaken htrip haccepted)
  refine ⟨Sample.dripping stream, answered.adopt accepted, ⟨[.handshake [0] (.ok ())], ?_⟩,
    hdrips, Sample.inChunks_dripping hsuffix, ⟨rfl, rfl, rfl, rfl, Nat.zero_le _⟩, hmore⟩
  exact hshaken

theorem not_guarded (hroom : 7 ≤ payloadCeiling limits)
    (hless : limits.maxFramePayload < payloadCeiling {}) : ¬Guarded limits := by
  intro hguarded
  let frame := bindTo {} (Sample.longResult (limits.maxFramePayload + 1)).response
  have hlength : frame.payload.length = limits.maxFramePayload + 1 := List.length_replicate
  obtain ⟨incoming, client, hreached, hchunks, hleft, hready, hstream⟩ :=
    exists_greeted hroom (frame.finishedHeader.encode ++ frame.body)
  have hcall := call_of_front hreached hleft hready 0 ⟨rfl, rfl⟩ (hlength.trans_le hless)
    (hstream.trans (List.append_nil _).symm)
  have hbound := hguarded incoming client hreached hchunks .queryAuthority [] 0 (.ok ()) _ hcall
  have hlonger : frame.payload.length ≤ limits.maxFramePayload := hbound
  omega

theorem not_receptive (hmore : payloadCeiling {} < payloadCeiling limits) : ¬Receptive limits := by
  intro hreceptive
  have hroom : 7 ≤ payloadCeiling limits := le_trans (by decide) hmore.le
  let result := Sample.longResult (payloadCeiling {} + 1)
  let frame := bindTo {} result.response
  have hlength : frame.payload.length = payloadCeiling {} + 1 := List.length_replicate
  have hfits : frame.payload.length ≤ payloadCeiling limits := hlength.trans_le hmore
  have hencoded : encodeFrame frame limits = .ok (frame.finishedHeader.encode ++ frame.body) :=
    encodeFrame_eq_ok.mpr ⟨hfits, rfl⟩
  obtain ⟨incoming, client, hreached, -, hleft, hready, hstream⟩ :=
    exists_greeted hroom (frame.finishedHeader.encode ++ frame.body)
  have hreturned := hreceptive incoming client hreached hleft .queryAuthority [] 0 hready {}
    result _ [] hencoded (hstream.trans (List.append_nil _).symm)
  obtain ⟨failure, hverdict⟩ := verdict_too_long ⟨rfl, rfl⟩ hfits
    ((Nat.lt_succ_self _).trans_eq hlength.symm) frame.body
  rw [← hstream] at hverdict
  obtain ⟨status, herror⟩ := call_of_failed hreached hready 0 hverdict
  cases herror.symm.trans hreturned

/-! ## Where no handshake can be sent -/

theorem length_encodeHelloRequest (hprincipal : principal ≠ []) :
    7 ≤ (encodeHelloRequest { principal }).length := by
  have hlength : (encodeHelloRequest { principal }).length =
      6 + (boundedMessage principal).length := length_tagged frameFormatVersion principal
  have hsome : 0 < (boundedMessage principal).length := by
    rw [boundedMessage, List.length_take]
    exact lt_min (by decide) (List.length_pos_iff.mpr hprincipal)
  omega

/-- The client has not got through a handshake, and its limits are still those it was given. -/
def Unshaken (limits : Limits) (client : FrameClient) : Prop :=
  client.handshaken = false ∧ client.limits = limits

theorem call_of_unshaken (hunshaken : Unshaken limits client) (type : MessageType)
    (payload : Bytes) (flags : UInt32) (sent : Result Unit) :
    ∃ status, client.call type payload flags sent = (.error status, client) := by
  rw [FrameClient.call]
  by_cases htype : (!isValidMessageType type.raw) = true
  · exact ⟨_, if_pos htype⟩
  · rw [if_neg htype]
    by_cases hconnected : (!client.connected) = true
    · exact ⟨_, if_pos hconnected⟩
    · rw [if_neg hconnected, hunshaken.1]
      exact ⟨_, if_pos rfl⟩

theorem takeSequence_fields (client : FrameClient) :
    client.takeSequence.2.handshaken = client.handshaken ∧
      client.takeSequence.2.limits = client.limits := by
  rw [FrameClient.takeSequence]
  split_ifs
  · exact ⟨rfl, rfl⟩
  · exact ⟨rfl, rfl⟩
  · exact ⟨rfl, rfl⟩

theorem handshake_unshaken (hsmall : payloadCeiling limits < 7)
    (hunshaken : Unshaken limits client) (principal : Bytes) (sent : Result Unit) :
    Unshaken limits (client.handshake principal sent).2 := by
  rw [FrameClient.handshake]
  by_cases hempty : principal.isEmpty = true
  · rw [if_pos hempty]
    exact hunshaken
  rw [if_neg hempty]
  by_cases hconnected : (!client.connected) = true
  · rw [if_pos hconnected]
    exact hunshaken
  rw [if_neg hconnected, if_neg (by rw [hunshaken.1]; exact Bool.false_ne_true)]
  obtain ⟨hfresh, hlimits⟩ := takeSequence_fields client
  rw [hunshaken.1] at hfresh
  rw [hunshaken.2] at hlimits
  rcases htaken : client.takeSequence with ⟨_ | sequence, numbered⟩
  · rw [htaken] at hfresh hlimits
    exact ⟨hfresh, hlimits⟩
  · rw [htaken] at hfresh hlimits
    dsimp only at hfresh hlimits ⊢
    -- the request is too long to be encoded
    let hello : Frame :=
      { header := { type := .hello, requestSeq := sequence }
        payload := encodeHelloRequest { principal } }
    cases hencoded : encodeFrame hello numbered.limits with
    | ok encoded =>
      have hfits := (encodeFrame_eq_ok.mp hencoded).1
      have hlong := length_encodeHelloRequest fun hnil => hempty (List.isEmpty_iff.mpr hnil)
      rw [hlimits] at hfits
      exact absurd (hlong.trans hfits) (not_le.mpr hsmall)
    | error status =>
      have hrefused : numbered.roundTrip hello sent = (.error status, numbered) := by
        unfold FrameClient.roundTrip
        rw [hencoded]
      rw [show numbered.roundTrip _ sent = _ from hrefused]
      exact ⟨hfresh, hlimits⟩

theorem reached_unshaken (hsmall : payloadCeiling limits < 7)
    (hreached : Reached limits incoming client) : Unshaken limits client := by
  obtain ⟨operations, rfl⟩ := hreached
  have hstart : Unshaken limits (FrameClient.connect limits incoming) := ⟨rfl, rfl⟩
  generalize FrameClient.connect limits incoming = start at hstart
  induction operations generalizing start with
  | nil => exact hstart
  | cons operation operations ih =>
    refine ih _ ?_
    cases operation with
    | handshake principal sent => exact handshake_unshaken hsmall hstart principal sent
    | call type payload flags sent =>
      obtain ⟨status, hcall⟩ := call_of_unshaken hstart type payload flags sent
      rw [ClientOperation.perform, hcall]
      exact hstart

theorem receptive_of_small (hsmall : payloadCeiling limits < 7) : Receptive limits := by
  intro incoming client hreached _ type payload flags hready
  have hshaken := hready.handshaken
  rw [(reached_unshaken hsmall hreached).1] at hshaken
  exact absurd hshaken Bool.false_ne_true

theorem guarded_of_small (hsmall : payloadCeiling limits < 7) : Guarded limits := by
  intro incoming client hreached _ type payload flags sent frame hframe
  obtain ⟨status, hcall⟩ :=
    call_of_unshaken (reached_unshaken hsmall hreached) type payload flags sent
  rw [hcall] at hframe
  cases hframe

/-! ## The agreement -/

/-- A client and a server with the same limits agree on the frames between them exactly if
the bound on payloads is the default one, or leaves no room for the handshake. -/
theorem limits_agree_iff {limits : Limits} (hvalid : limits.validate = .ok ()) :
    Receptive limits ∧ Guarded limits ↔
      limits.maxFramePayload = ({} : Limits).maxFramePayload ∨ limits.maxFramePayload < 7 := by
  have hceiling := payloadCeiling_of_validate hvalid
  have hdefault : payloadCeiling {} = ({} : Limits).maxFramePayload := by decide
  constructor
  · rintro ⟨hreceptive, hguarded⟩
    by_contra hother
    rw [not_or, not_lt] at hother
    have hroom : 7 ≤ payloadCeiling limits := hother.2.trans_eq hceiling.symm
    rcases lt_or_gt_of_ne hother.1 with hless | hmore
    · exact not_guarded hroom (hless.trans_eq hdefault.symm) hguarded
    · refine not_receptive ?_ hreceptive
      rw [hceiling, hdefault]
      exact hmore
  · rintro (hequal | hsmall)
    · exact ⟨receptive_of_le (by rw [hceiling, hdefault, hequal]),
        guarded_of_le (by rw [hdefault, hequal])⟩
    · exact ⟨receptive_of_small (hceiling.trans_lt hsmall),
        guarded_of_small (hceiling.trans_lt hsmall)⟩

/-- Under the default limits they agree. -/
theorem limits_agree_default : Receptive {} ∧ Guarded {} :=
  (limits_agree_iff (by decide)).mpr (Or.inl rfl)

/-- Under twice the default bound a response is not returned, and under half of it a frame
is that is too long. -/
theorem limits_disagree :
    (({ maxFramePayload := 2 ^ 21 } : Limits).validate = .ok () ∧
        ¬Receptive { maxFramePayload := 2 ^ 21 }) ∧
      ({ maxFramePayload := 2 ^ 19 } : Limits).validate = .ok () ∧
        ¬Guarded { maxFramePayload := 2 ^ 19 } :=
  ⟨⟨by decide, not_receptive (by decide)⟩, by decide, not_guarded (by decide) (by decide)⟩

end SwitchFailover.Transport
