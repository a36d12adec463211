import SwitchFailover.Transport.Framing
import SwitchFailover.Transport.Payloads
import SwitchFailover.Transport.Stream

/-!
# The client of a connection

A client has one request outstanding at a time and takes the next frame of the connection
for its response.  It does not compare the two.  So the frames of the peer's stream are
handed out one for each request that was sent, in order, none lost and none twice, however
the stream is cut and whatever was left in the decoder; whether a response belongs to its
request is for the peer to keep.
-/

namespace SwitchFailover.Transport

open SwitchFailover.Core Codec Library.Codec Library.Incremental

variable {stream : Bytes} {client : FrameClient}

/-- A client and its connection: what is still to be received, where an error is a read that
fails, and the requests that were written.  The decoder has the default limits, whatever
those of the client are. -/
structure FrameClient where
  limits : Limits
  handshaken : Bool := false
  session : SessionId := default
  epoch : CoordinatorEpoch := default
  bootDigest : UInt64 := 0
  nextSeq : UInt64 := 1
  sequenceExhausted : Bool := false
  decoder : FrameStreamDecoder := { limits := {} }
  connected : Bool := true
  incoming : List (Result Bytes)
  outgoing : List Frame := []

namespace FrameClient

/-- The last sequence is handed out once, and then the space is closed. -/
def takeSequence (client : FrameClient) : Option UInt64 × FrameClient :=
  if client.sequenceExhausted then (none, client)
  else if client.nextSeq = UInt64.ofNat (2 ^ 64 - 1) then
    (some client.nextSeq, { client with sequenceExhausted := true })
  else (some client.nextSeq, { client with nextSeq := client.nextSeq + 1 })

def close (client : FrameClient) : FrameClient := { client with connected := false }

/-- What the decoder has without more bytes: a frame, a failure that drops the connection, or
nothing yet. -/
def poll (client : FrameClient) : Option (Result Frame) × FrameClient :=
  let (decoded, decoder) := client.decoder.next
  match decoded.disposition with
  | .complete => (some (.ok decoded.frame), { client with decoder })
  | .incomplete => (none, { client with decoder })
  | .corrupt | .unsupported => (some (.error decoded.status), { client with decoder }.close)

/-- The loop of `round_trip`: bytes are received until the decoder has a frame. -/
def awaitFrame (client : FrameClient) (incoming : List (Result Bytes)) :
    Result Frame × FrameClient :=
  match incoming, client.poll with
  | incoming, (some result, client) => (result, { client with incoming })
  | [], (none, client) =>
      (.error (Status.failure .closed (text "peer closed the connection")),
        { client with incoming := [] }.close)
  | .error status :: rest, (none, client) =>
      (.error status, { client with incoming := rest }.close)
  | .ok chunk :: rest, (none, client) =>
      if chunk.isEmpty then
        (.error (Status.failure .closed (text "peer closed the connection")),
          { client with incoming := rest }.close)
      else
        let (fed, decoder) := client.decoder.feed chunk
        if !fed.isOk then (.error fed, { client with decoder, incoming := rest }.close)
        else awaitFrame { client with decoder } rest

/-- `sent` is what comes of writing the request. -/
def roundTrip (client : FrameClient) (request : Frame) (sent : Result Unit) :
    Result Frame × FrameClient :=
  match encodeFrame request client.limits with
  | .error status => (.error status, client)
  | .ok _ =>
      if !client.connected then
        (.error (Status.failure .closed (text "client is not connected")), client)
      else
        match sent with
        | .error status => (.error status, client.close)
        | .ok _ =>
            awaitFrame { client with outgoing := client.outgoing ++ [request] } client.incoming

/-- The checks of a handshake's response. -/
def acknowledged (frame : Frame) : Result HelloResponse :=
  if frame.header.type = .error then
    match decodeErrorPayload frame.payload with
    | .ok (code, detail) => .error (Status.failure code detail)
    | .error _ =>
        .error (Status.failure .invalid (text "server answered with an undecodable error frame"))
  else do
    require (frame.header.type == .helloAck) .invalid
      (text "unexpected handshake response type")
    let ack ← decodeHelloResponse frame.payload
    require (ack.formatVersion == frameFormatVersion.toUInt32) .versionMismatch
      (text "server frame format version mismatch")
    require (ack.outcome == .ok) ack.outcome (text "handshake refused by server")
    require (ack.session.valid && ack.epoch.valid) .invalid
      (text "handshake accepted without a session authority")
    pure ack

/-- The bound on payloads is lowered to the server's, never raised. -/
def adopt (client : FrameClient) (ack : HelloResponse) : FrameClient :=
  { client with
    session := ack.session
    epoch := ack.epoch
    bootDigest := ack.bootDigest
    handshaken := true
    limits := if ack.maxPayload = 0 then client.limits else
      { client.limits with
        maxFramePayload := min client.limits.maxFramePayload ack.maxPayload.toNat } }

def handshake (client : FrameClient) (principal : Bytes) (sent : Result Unit) :
    Status × FrameClient :=
  if principal.isEmpty then
    (Status.failure .invalid (text "handshake requires a principal"), client)
  else if !client.connected then
    (Status.failure .closed (text "client is not connected"), client)
  else if client.handshaken then
    (Status.failure .alreadyExists (text "handshake already completed"), client)
  else
    match client.takeSequence with
    | (none, client) =>
        (Status.failure .exhausted (text "request sequence space exhausted"), client)
    | (some sequence, client) =>
        let request : Frame :=
          { header := { type := .hello, requestSeq := sequence }
            payload := encodeHelloRequest { principal } }
        match client.roundTrip request sent with
        | (.error status, client) => (status, client)
        | (.ok frame, client) =>
            match acknowledged frame with
            | .error status => (status, client)
            | .ok ack => (.success, client.adopt ack)

def call (client : FrameClient) (type : MessageType) (payload : Bytes) (flags : UInt32)
    (sent : Result Unit) : Result Frame × FrameClient :=
  if !isValidMessageType type.raw then
    (.error (Status.failure .unsupported (text "unassigned message type")), client)
  else if !client.connected then
    (.error (Status.failure .closed (text "client is not connected")), client)
  else if !client.handshaken then
    (.error (Status.failure .unauthorized (text "handshake required before call")), client)
  else if payload.length > client.limits.maxFramePayload then
    (.error (refuseExhausted (text "frame payload") payload.length
      client.limits.maxFramePayload), client)
  else
    match client.takeSequence with
    | (none, client) =>
        (.error (Status.failure .exhausted (text "request sequence space exhausted")), client)
    | (some sequence, client) =>
        client.roundTrip
          { header := { type, flags, session := client.session, epoch := client.epoch
                        bootDigest := client.bootDigest, requestSeq := sequence }
            payload } sent

/-- A client that was just connected. -/
def connect (limits : Limits) (incoming : List (Result Bytes)) : FrameClient :=
  { limits, incoming }

end FrameClient

inductive ClientOperation
  | handshake (principal : Bytes) (sent : Result Unit)
  | call (type : MessageType) (payload : Bytes) (flags : UInt32) (sent : Result Unit)

def ClientOperation.perform (client : FrameClient) : ClientOperation → FrameClient
  | .handshake principal sent => (client.handshake principal sent).2
  | .call type payload flags sent => (client.call type payload flags sent).2

def performAll (client : FrameClient) (operations : List ClientOperation) : FrameClient :=
  operations.foldl ClientOperation.perform client

/-- The bytes that can be received, up to a read that fails or the end. -/
def arriving : List (Result Bytes) → Bytes
  | .ok chunk :: rest => if chunk.isEmpty then [] else chunk ++ arriving rest
  | .error _ :: _ => []
  | [] => []

/-- A response carries the binding of a request. -/
def Frame.Answered (request response : Frame) : Prop :=
  response.header.requestSeq = request.header.requestSeq ∧
    response.header.session = request.header.session ∧
    response.header.epoch = request.header.epoch ∧
    response.header.bootDigest = request.header.bootDigest

instance (request response : Frame) : Decidable (request.Answered response) :=
  inferInstanceAs (Decidable (_ ∧ _ ∧ _ ∧ _))

/-- While it is connected, the frames a client has taken and those it has not read make up
the peer's stream, and it has taken one for each request. -/
def InStep (stream : Bytes) (client : FrameClient) : Prop :=
  client.connected = true → ∃ buffer taken,
    client.decoder = { limits := {}, buffer } ∧
      taken.length = client.outgoing.length ∧
      decodeStream {} stream =
        (decodeStream {} (buffer ++ arriving client.incoming)).after taken

/-- What a round trip keeps: the client stays in step, and a frame that is returned stands in
the stream where the request stands among those that were sent. -/
structure Trip (stream : Bytes) (before after : FrameClient) (request : Frame)
    (result : Result Frame) : Prop where
  inStep : InStep stream after
  returned : ∀ frame, result = .ok frame →
    after.outgoing = before.outgoing ++ [request] ∧
      (decodeStream {} stream).items[before.outgoing.length]? = some frame

theorem inStep_close (stream : Bytes) (client : FrameClient) : InStep stream client.close :=
  fun hconnected => nomatch hconnected

theorem feed_of_isOk {limits : Limits} {buffer chunk : Bytes}
    (hfed : (({ limits, buffer } : FrameStreamDecoder).feed chunk).1.isOk = true) :
    (({ limits, buffer } : FrameStreamDecoder).feed chunk).2 =
      { limits, buffer := buffer ++ chunk } := by
  unfold FrameStreamDecoder.feed at hfed ⊢
  rw [if_neg Bool.false_ne_true] at hfed ⊢
  by_cases hempty : chunk.isEmpty = true
  · rw [if_pos hempty, List.isEmpty_iff.mp hempty, List.append_nil]
  · rw [if_neg hempty] at hfed ⊢
    dsimp only at hfed ⊢
    split at hfed
    · cases hfed
    · rw [if_neg ‹_›]

/-! ## The loop -/

/-- The loop has failed and dropped the connection, or has taken the first frame of what was
left of the stream. -/
def Awaited (buffer : Bytes) (incoming : List (Result Bytes)) (client : FrameClient)
    (outcome : Result Frame × FrameClient) : Prop :=
  outcome.2.outgoing = client.outgoing ∧
    ((∃ status, outcome.1 = .error status ∧ outcome.2.connected = false) ∨
      ∃ frame later, outcome.1 = .ok frame ∧
        outcome.2.decoder = { limits := {}, buffer := later } ∧
        decodeStream {} (buffer ++ arriving incoming) =
          (decodeStream {} (later ++ arriving outcome.2.incoming)).after [frame])

section Loop

variable {buffer : Bytes}
  (hdecoder : client.decoder = { limits := {}, buffer })

theorem awaitFrame_of_polled {result : Result Frame} {other : FrameClient}
    (hpoll : client.poll = (some result, other)) (incoming : List (Result Bytes)) :
    client.awaitFrame incoming = (result, { other with incoming }) := by
  unfold FrameClient.awaitFrame
  rw [hpoll]

include hdecoder

theorem awaited_of_complete {frame : Frame} {consumed : ℕ}
    (hverdict : (decodeFrame buffer {}).verdict = .complete frame consumed)
    (incoming : List (Result Bytes)) :
    Awaited buffer incoming client (client.awaitFrame incoming) := by
  have hstable := decodeFrame_stable {}
  obtain ⟨hdisposition, hframe, hnext⟩ := next_of_complete hverdict
  have hpoll : client.poll = (some (.ok frame),
      { client with decoder := { limits := {}, buffer := buffer.drop consumed } }) := by
    rw [FrameClient.poll, hdecoder]
    dsimp only
    rw [hdisposition, hframe, hnext]
  rw [awaitFrame_of_polled hpoll]
  refine ⟨rfl, Or.inr ⟨frame, _, rfl, rfl, ?_⟩⟩
  rw [← List.drop_append_of_le_length (hstable.consumes hverdict).2]
  exact hstable.decodeAll_of_complete (hstable.complete hverdict _)

theorem awaited_of_failed {failure : FrameDecodeResult}
    (hverdict : (decodeFrame buffer {}).verdict = .failed failure)
    (incoming : List (Result Bytes)) :
    Awaited buffer incoming client (client.awaitFrame incoming) := by
  obtain ⟨hnext, hfailed⟩ := next_of_failed hverdict
  have hpoll : client.poll = (some (.error failure.status), { client with
        decoder := ({ limits := {}, buffer } : FrameStreamDecoder).next.2 }.close) := by
    rw [FrameClient.poll, hdecoder]
    dsimp only
    rw [hnext]
    obtain ⟨code, message, ⟨rfl, -⟩ | ⟨rfl, -⟩⟩ := hfailed.refused
    · rfl
    · rfl
  rw [awaitFrame_of_polled hpoll]
  exact ⟨rfl, Or.inl ⟨_, rfl, rfl⟩⟩

theorem poll_of_incomplete (hverdict : (decodeFrame buffer {}).verdict = .incomplete) :
    client.poll = (none, client) := by
  obtain ⟨hnext, hdisposition⟩ := next_of_incomplete hverdict
  rw [FrameClient.poll, hdecoder, hnext]
  dsimp only
  rw [hdisposition, ← hdecoder]

theorem awaitFrame_spec (incoming : List (Result Bytes)) :
    Awaited buffer incoming client (client.awaitFrame incoming) := by
  induction incoming generalizing client buffer with
  | nil =>
    cases hverdict : (decodeFrame buffer {}).verdict with
    | complete frame consumed => exact awaited_of_complete hdecoder hverdict []
    | failed failure => exact awaited_of_failed hdecoder hverdict []
    | incomplete =>
      unfold FrameClient.awaitFrame
      rw [poll_of_incomplete hdecoder hverdict]
      exact ⟨rfl, Or.inl ⟨_, rfl, rfl⟩⟩
  | cons arrival rest ih =>
    cases hverdict : (decodeFrame buffer {}).verdict with
    | complete frame consumed => exact awaited_of_complete hdecoder hverdict _
    | failed failure => exact awaited_of_failed hdecoder hverdict _
    | incomplete =>
      unfold FrameClient.awaitFrame
      rw [poll_of_incomplete hdecoder hverdict]
      cases arrival with
      | error status => exact ⟨rfl, Or.inl ⟨_, rfl, rfl⟩⟩
      | ok chunk =>
        dsimp only
        by_cases hempty : chunk.isEmpty = true
        · rw [if_pos hempty]
          exact ⟨rfl, Or.inl ⟨_, rfl, rfl⟩⟩
        · rw [if_neg hempty, hdecoder]
          by_cases hfed : (({ limits := {}, buffer } : FrameStreamDecoder).feed chunk).1.isOk = true
          · rw [hfed, Bool.not_true, if_neg Bool.false_ne_true, feed_of_isOk hfed]
            let fed : FrameClient := { client with
              decoder := { limits := {}, buffer := buffer ++ chunk } }
            have hbuffer : fed.decoder = { limits := {}, buffer := buffer ++ chunk } := rfl
            have harriving : buffer ++ arriving (.ok chunk :: rest) =
                buffer ++ chunk ++ arriving rest := by
              rw [arriving, if_neg hempty, List.append_assoc]
            rw [Awaited, harriving]
            exact ih hbuffer
          · rw [Bool.not_eq_true] at hfed
            rw [hfed]
            exact ⟨rfl, Or.inl ⟨_, rfl, rfl⟩⟩

end Loop

/-! ## Round trips -/

theorem roundTrip_spec (hinStep : InStep stream client) (request : Frame) (sent : Result Unit) :
    Trip stream client (client.roundTrip request sent).2 request
      (client.roundTrip request sent).1 := by
  unfold FrameClient.roundTrip
  cases encodeFrame request client.limits with
  | error status => exact ⟨hinStep, fun frame hframe => nomatch hframe⟩
  | ok encoded =>
    dsimp only
    by_cases hconnected : client.connected = true
    · rw [if_neg (by rw [hconnected]; exact Bool.false_ne_true)]
      cases sent with
      | error status => exact ⟨inStep_close stream client, fun frame hframe => nomatch hframe⟩
      | ok _ =>
        obtain ⟨buffer, taken, hdecoder, hcount, hall⟩ := hinStep hconnected
        let waiting : FrameClient := { client with outgoing := client.outgoing ++ [request] }
        have hwaiting : waiting.decoder = { limits := {}, buffer } := hdecoder
        have hawaited := awaitFrame_spec hwaiting client.incoming
        change Trip stream client (waiting.awaitFrame _).2 request (waiting.awaitFrame _).1
        generalize waiting.awaitFrame client.incoming = outcome at hawaited
        obtain ⟨houtgoing, ⟨status, hfailed, hclosed⟩ | ⟨frame, later, hok, hlater, hnext⟩⟩ :=
          hawaited
        · refine ⟨fun hopen => ?_, fun frame hframe => ?_⟩
          · rw [hclosed] at hopen
            cases hopen
          · rw [hfailed] at hframe
            cases hframe
        · rw [hnext] at hall
          refine ⟨fun _ => ⟨later, taken ++ [frame], hlater, ?_, ?_⟩, fun found hfound => ?_⟩
          · rw [houtgoing, List.length_append, hcount, List.length_append]
            rfl
          · rw [hall]
            simp only [Decoded.after, List.append_assoc]
          · rw [hok] at hfound
            cases hfound
            refine ⟨houtgoing, ?_⟩
            rw [hall, ← hcount]
            simp [Decoded.after]
    · rw [if_pos (by rw [Bool.not_eq_true] at hconnected; rw [hconnected]; rfl)]
      exact ⟨hinStep, fun frame hframe => nomatch hframe⟩

theorem takeSequence_spec (hinStep : InStep stream client) :
    InStep stream client.takeSequence.2 ∧ client.takeSequence.2.outgoing = client.outgoing := by
  unfold FrameClient.takeSequence
  split
  · exact ⟨hinStep, rfl⟩
  · split
    · exact ⟨hinStep, rfl⟩
    · exact ⟨hinStep, rfl⟩

theorem handshake_inStep (hinStep : InStep stream client) (principal : Bytes) (sent : Result Unit) :
    InStep stream (client.handshake principal sent).2 := by
  have htaken := (takeSequence_spec hinStep).1
  unfold FrameClient.handshake
  split
  · exact hinStep
  split
  · exact hinStep
  split
  · exact hinStep
  generalize client.takeSequence = sequenced at htaken
  obtain ⟨sequence, next⟩ := sequenced
  cases sequence with
  | none => exact htaken
  | some sequence =>
    dsimp only
    have htrip := roundTrip_spec htaken { header := { type := .hello, requestSeq := sequence }
                                          payload := encodeHelloRequest { principal } } sent
    generalize next.roundTrip _ sent = outcome at htrip
    obtain ⟨result, after⟩ := outcome
    cases result with
    | error status => exact htrip.inStep
    | ok frame =>
      dsimp only
      cases FrameClient.acknowledged frame with
      | error status => exact htrip.inStep
      | ok ack => exact htrip.inStep

/-- A call that returns a frame has sent a request, and the frame stands in the stream where
the request stands among those that were sent. -/
theorem call_spec (hinStep : InStep stream client) (type : MessageType) (payload : Bytes)
    (flags : UInt32) (sent : Result Unit) :
    InStep stream (client.call type payload flags sent).2 ∧
      ∀ frame, (client.call type payload flags sent).1 = .ok frame →
        ∃ request, (client.call type payload flags sent).2.outgoing = client.outgoing ++ [request] ∧
          (decodeStream {} stream).items[client.outgoing.length]? = some frame := by
  obtain ⟨htaken, hsame⟩ := takeSequence_spec hinStep
  unfold FrameClient.call
  split
  · exact ⟨hinStep, fun frame hframe => nomatch hframe⟩
  split
  · exact ⟨hinStep, fun frame hframe => nomatch hframe⟩
  split
  · exact ⟨hinStep, fun frame hframe => nomatch hframe⟩
  split
  · exact ⟨hinStep, fun frame hframe => nomatch hframe⟩
  generalize client.takeSequence = sequenced at htaken hsame
  obtain ⟨sequence, next⟩ := sequenced
  cases sequence with
  | none => exact ⟨htaken, fun frame hframe => nomatch hframe⟩
  | some sequence =>
    have htrip := roundTrip_spec htaken
      { header := { type, flags, session := next.session, epoch := next.epoch
                    bootDigest := next.bootDigest, requestSeq := sequence }, payload } sent
    refine ⟨htrip.inStep, fun frame hframe => ?_⟩
    obtain ⟨houtgoing, hitem⟩ := htrip.returned frame hframe
    change next.outgoing = client.outgoing at hsame
    rw [hsame] at houtgoing hitem
    exact ⟨_, houtgoing, hitem⟩

theorem inStep_connect (limits : Limits) (incoming : List (Result Bytes)) :
    InStep (arriving incoming) (FrameClient.connect limits incoming) :=
  fun _ => ⟨[], [], rfl, rfl, rfl⟩

theorem inStep_performAll (hinStep : InStep stream client) (operations : List ClientOperation) :
    InStep stream (performAll client operations) := by
  induction operations generalizing client with
  | nil => exact hinStep
  | cons operation operations ih =>
    refine ih ?_
    cases operation with
    | handshake principal sent => exact handshake_inStep hinStep principal sent
    | call type payload flags sent => exact (call_spec hinStep type payload flags sent).1

/-- The clients of a connection after any handshakes and calls. -/
def Reached (limits : Limits) (incoming : List (Result Bytes)) (client : FrameClient) : Prop :=
  ∃ operations, performAll (FrameClient.connect limits incoming) operations = client

/-- A call that returns a frame has sent one more request.  The frame carries the binding of
that request exactly if the peer's stream has a frame with this binding at the request's
place among all requests of the connection. -/
theorem response_attribution_iff {limits : Limits} {incoming : List (Result Bytes)}
    {client : FrameClient} (hreached : Reached limits incoming client) (type : MessageType)
    (payload : Bytes) (flags : UInt32) (sent : Result Unit) {response : Frame}
    (hreturned : (client.call type payload flags sent).1 = .ok response) :
    ∃ request,
      (client.call type payload flags sent).2.outgoing = client.outgoing ++ [request] ∧
        (request.Answered response ↔
          ∃ frame, (decodeStream {} (arriving incoming)).items[client.outgoing.length]? =
              some frame ∧
            request.Answered frame) := by
  obtain ⟨operations, rfl⟩ := hreached
  have hinStep := inStep_performAll (inStep_connect limits incoming) operations
  obtain ⟨request, houtgoing, hitem⟩ :=
    (call_spec hinStep type payload flags sent).2 response hreturned
  refine ⟨request, houtgoing, ?_⟩
  rw [hitem]
  constructor
  · exact fun hanswered => ⟨response, rfl, hanswered⟩
  · rintro ⟨frame, hframe, hanswered⟩
    cases hframe
    exact hanswered

namespace Sample

/-- A server that accepts the handshake. -/
def accepting : Bytes :=
  (encodeFrame
    { header := { type := .helloAck, requestSeq := 1 }
      payload := encodeHelloResponse
        { session := ⟨4⟩, epoch := ⟨2⟩, bootDigest := 5, outcome := .ok } } {}).toOption.getD []

/-- A result under the sequence number of some request. -/
def resultBytes (requestSeq : UInt64) : Bytes :=
  (encodeFrame
    { header := { type := .authorityResult, session := ⟨4⟩, epoch := ⟨2⟩, bootDigest := 5
                  requestSeq } } {}).toOption.getD []

/-- The client after its handshake. -/
def greeted (requestSeq : UInt64) : FrameClient :=
  performAll (FrameClient.connect {} [.ok (accepting ++ resultBytes requestSeq)])
    [.handshake (text "operator") (.ok ())]

def asked (requestSeq : UInt64) : Result Frame × FrameClient :=
  (greeted requestSeq).call .queryAuthority [] 0 (.ok ())

end Sample

/-- The second frame answers the second request, and so does what the call returns. -/
theorem response_attribution_second :
    ∃ request response, (Sample.asked 2).1 = .ok response ∧
      (Sample.asked 2).2.outgoing = (Sample.greeted 2).outgoing ++ [request] ∧
      request.Answered response := by
  have hok : (Sample.asked 2).1.toOption.isSome = true := by decide +kernel
  cases hreturned : (Sample.asked 2).1 with
  | error status =>
      rw [hreturned] at hok
      cases hok
  | ok response =>
      have hreached : Reached {} [.ok (Sample.accepting ++ Sample.resultBytes 2)]
          (Sample.greeted 2) := ⟨_, rfl⟩
      obtain ⟨request, houtgoing, hiff⟩ :=
        response_attribution_iff hreached .queryAuthority [] 0 (.ok ()) hreturned
      refine ⟨request, response, rfl, houtgoing, hiff.mpr ?_⟩
      have hplaced : ∃ frame, (decodeStream {}
          (arriving [.ok (Sample.accepting ++ Sample.resultBytes 2)])).items[
            (Sample.greeted 2).outgoing.length]? = some frame ∧
          ((Sample.asked 2).2.outgoing.getLast?.any fun sent => sent.Answered frame) = true := by
        decide +kernel
      obtain ⟨frame, hframe, hlast⟩ := hplaced
      rw [show (Sample.asked 2).2.outgoing = _ from houtgoing, List.getLast?_concat] at hlast
      exact ⟨frame, hframe, of_decide_eq_true hlast⟩

/-- The peer answers under another sequence number, and the call returns its frame. -/
theorem foreign_response_returned :
    ((Sample.asked 9).1.toOption.map (·.header.requestSeq)) = some 9 ∧
      ((Sample.asked 9).2.outgoing.map (·.header.requestSeq)) = [1, 2] := by
  decide +kernel

end SwitchFailover.Transport
