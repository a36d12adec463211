import SwitchFailover.Codec.Bytes
import SwitchFailover.Core.Limits

/-!
# Frames

A frame is a 52-byte header with its own checksum, a payload, and the payload's
checksum.  The decoder is total: it looks at the head of a byte range, says
whether a whole frame, a beginning of one or neither stands there, and never
depends on what follows a frame.

Lengths are bounded by the ceiling on payloads before they are added, so the
checked additions of the source never fail.
-/

namespace SwitchFailover.Transport

open SwitchFailover.Core Codec Library.Codec

variable {bytes : Bytes} {limits : Limits}

def frameMagic : UInt32 := 0x31464653

def frameFormatVersion : UInt16 := 1

def frameHeaderBytes : ℕ := 52

def frameTrailerBytes : ℕ := 4

/-- The number of header bytes the header checksum covers. -/
def headerCrcOffset : ℕ := frameHeaderBytes - frameTrailerBytes

inductive MessageType
  | unknown | hello | helloAck | queryAuthority | authorityResult | declareFailure
  | failoverResult | proposePlan | planResult | applyPlan | applyResult | queryRestore
  | restoreResult | snapshotRequest | snapshotResult | error | goodbye
  deriving DecidableEq

def MessageType.raw (type : MessageType) : UInt16 := type.ctorIdx.toUInt16

def isValidMessageType (raw : UInt16) : Bool :=
  MessageType.hello.raw ≤ raw && raw ≤ MessageType.goodbye.raw

/-- The cast of a number to a message type. -/
def MessageType.ofRaw (raw : UInt16) : MessageType :=
  [.unknown, .hello, .helloAck, .queryAuthority, .authorityResult, .declareFailure,
    .failoverResult, .proposePlan, .planResult, .applyPlan, .applyResult, .queryRestore,
    .restoreResult, .snapshotRequest, .snapshotResult, .error, .goodbye].getD raw.toNat .unknown

structure FrameHeader where
  magic : UInt32 := frameMagic
  formatVersion : UInt16 := frameFormatVersion
  type : MessageType := .unknown
  flags : UInt32 := 0
  session : SessionId := default
  epoch : CoordinatorEpoch := default
  bootDigest : UInt64 := 0
  requestSeq : UInt64 := 0
  payloadLen : UInt32 := 0
  headerCrc : UInt32 := 0
  deriving DecidableEq

variable {header : FrameHeader}

structure Frame where
  header : FrameHeader := {}
  payload : Bytes := []
  payloadCrc : UInt32 := 0
  deriving DecidableEq

/-- The caller's bound on payloads, clamped by the hard ceiling. -/
def payloadCeiling (limits : Limits) : ℕ := min limits.maxFramePayload hardMaxFramePayload

/-- The length of the longest frame. -/
def maxFrameBytes (limits : Limits) : ℕ :=
  frameHeaderBytes + payloadCeiling limits + frameTrailerBytes

namespace FrameHeader

/-- The 48 bytes the header checksum covers; the magic is always the same. -/
def checkedBytes (header : FrameHeader) : Bytes :=
  storeLe 4 frameMagic.toNat ++ storeLe 2 header.formatVersion.toNat ++
    storeLe 2 header.type.raw.toNat ++ storeLe 4 header.flags.toNat ++
    storeLe 8 header.session.raw.toNat ++ storeLe 8 header.epoch.raw.toNat ++
    storeLe 8 header.bootDigest.toNat ++ storeLe 8 header.requestSeq.toNat ++
    storeLe 4 header.payloadLen.toNat

def computeCrc (header : FrameHeader) : UInt32 := crc32Ieee header.checkedBytes

def encode (header : FrameHeader) : Bytes :=
  header.checkedBytes ++ storeLe 4 header.computeCrc.toNat

/-- The type field of a header, before it is known to be assigned. -/
def rawType (bytes : Bytes) : UInt16 := (loadLe ((bytes.drop 6).take 2)).toUInt16

/-- The fields of a 52-byte header. -/
def parse (bytes : Bytes) : FrameHeader where
  magic := frameMagic
  formatVersion := (loadLe ((bytes.drop 4).take 2)).toUInt16
  type := .ofRaw (rawType bytes)
  flags := (loadLe ((bytes.drop 8).take 4)).toUInt32
  session := ⟨(loadLe ((bytes.drop 12).take 8)).toUInt64⟩
  epoch := ⟨(loadLe ((bytes.drop 20).take 8)).toUInt64⟩
  bootDigest := (loadLe ((bytes.drop 28).take 8)).toUInt64
  requestSeq := (loadLe ((bytes.drop 36).take 8)).toUInt64
  payloadLen := (loadLe ((bytes.drop 44).take 4)).toUInt32
  headerCrc := (loadLe ((bytes.drop 48).take 4)).toUInt32

end FrameHeader

def encodeFrame (frame : Frame) (limits : Limits) : Result Bytes := do
  requireWithin (text "frame payload") frame.payload.length (payloadCeiling limits)
  let header := { frame.header with
    magic := frameMagic, payloadLen := frame.payload.length.toUInt32 }
  pure (header.encode ++ frame.payload ++ storeLe 4 (crc32Ieee frame.payload).toNat)

/-! ## Decoding -/

inductive FrameDisposition
  | complete | incomplete | corrupt | unsupported
  deriving DecidableEq

structure FrameDecodeResult where
  disposition : FrameDisposition := .incomplete
  frame : Frame := {}
  consumed : ℕ := 0
  status : Status := .success
  deriving DecidableEq

def makeFailure (disposition : FrameDisposition) (code : Code) (message : Bytes) :
    FrameDecodeResult where
  disposition := disposition
  status := Status.failure code message

def incomplete : FrameDecodeResult :=
  makeFailure .incomplete .truncated (text "incomplete frame")

/-- The checks of a whole header, in the order of the source. -/
def checkHeader (bytes : Bytes) (limits : Limits) : Except FrameDecodeResult FrameHeader :=
  let header := FrameHeader.parse bytes
  if header.headerCrc ≠ crc32Ieee (bytes.take headerCrcOffset) then
    .error (makeFailure .corrupt .corrupt (text "frame header CRC mismatch"))
  else if header.formatVersion ≠ frameFormatVersion then
    .error (makeFailure .unsupported .versionMismatch (text "unsupported frame format version"))
  else if !isValidMessageType (FrameHeader.rawType bytes) then
    .error (makeFailure .unsupported .unsupported (text "unassigned message type"))
  else if header.payloadLen.toNat > payloadCeiling limits then
    .error (makeFailure .corrupt .corrupt
      (text "frame payload length exceeds the configured bound"))
  else .ok header

/-- The part of decoding that follows an accepted header. -/
def decodePayload (header : FrameHeader) (data : Bytes) : FrameDecodeResult :=
  let length := header.payloadLen.toNat
  let total := frameHeaderBytes + length + frameTrailerBytes
  if data.length < total then incomplete
  else
    let payload := (data.drop frameHeaderBytes).take length
    let stored := (loadLe ((data.drop (frameHeaderBytes + length)).take frameTrailerBytes)).toUInt32
    if stored ≠ crc32Ieee payload then
      makeFailure .corrupt .corrupt (text "frame payload CRC mismatch")
    else
      { disposition := .complete
        frame := ⟨header, payload, stored⟩
        consumed := total }

def decodeFrame (data : Bytes) (limits : Limits) : FrameDecodeResult :=
  if data.length < 4 then incomplete
  else if (loadLe (data.take 4)).toUInt32 ≠ frameMagic then
    makeFailure .corrupt .corrupt (text "frame magic mismatch")
  else if data.length < frameHeaderBytes then incomplete
  else
    match checkHeader (data.take frameHeaderBytes) limits with
    | .error refused => refused
    | .ok header => decodePayload header data

/-! ## More bytes do not change a verdict -/

/-- The two sorts of failure, with the codes that tell them apart. -/
def Refused (result : FrameDecodeResult) : Prop :=
  ∃ code message,
    result = makeFailure .corrupt code message ∧ code = .corrupt ∨
    result = makeFailure .unsupported code message ∧
      (code = .unsupported ∨ code = .versionMismatch)

theorem refused_corrupt (message : Bytes) : Refused (makeFailure .corrupt .corrupt message) :=
  ⟨.corrupt, message, Or.inl ⟨rfl, rfl⟩⟩

theorem checkHeader_refused {result : FrameDecodeResult}
    (hcheck : checkHeader bytes limits = .error result) : Refused result := by
  rw [checkHeader] at hcheck
  split_ifs at hcheck with hcrc hversion htype hlength
  · cases hcheck
    exact refused_corrupt _
  · cases hcheck
    exact ⟨_, _, Or.inr ⟨rfl, Or.inr rfl⟩⟩
  · cases hcheck
    exact ⟨_, _, Or.inr ⟨rfl, Or.inl rfl⟩⟩
  · cases hcheck
    exact refused_corrupt _

theorem checkHeader_payloadLen (hcheck : checkHeader bytes limits = .ok header) :
    header.payloadLen.toNat ≤ payloadCeiling limits := by
  rw [checkHeader] at hcheck
  split_ifs at hcheck with hcrc hversion htype hlength
  cases hcheck
  exact not_lt.mp hlength

/-- What decoding says of a byte range. -/
inductive Decodes (limits : Limits) (data : Bytes) : FrameDecodeResult → Prop
  | incomplete (hshort : data.length < maxFrameBytes limits) : Decodes limits data incomplete
  | refused (result : FrameDecodeResult) (hrefused : Refused result)
      (hstays : ∀ more, decodeFrame (data ++ more) limits = result) : Decodes limits data result
  | complete (frame : Frame) (consumed : ℕ) (hpositive : 0 < consumed)
      (hwithin : consumed ≤ data.length)
      (hstays : ∀ more, decodeFrame (data ++ more) limits =
        { disposition := .complete, frame, consumed }) :
      Decodes limits data { disposition := .complete, frame, consumed }

theorem decodePayload_append {data : Bytes}
    (hlength : frameHeaderBytes + header.payloadLen.toNat + frameTrailerBytes ≤ data.length)
    (more : Bytes) : decodePayload header (data ++ more) = decodePayload header data := by
  have hpayload : ((data ++ more).drop frameHeaderBytes).take header.payloadLen.toNat =
      (data.drop frameHeaderBytes).take header.payloadLen.toNat := by
    rw [List.drop_append_of_le_length (by omega),
      List.take_append_of_le_length (by rw [List.length_drop]; omega)]
  have htrailer : ((data ++ more).drop (frameHeaderBytes + header.payloadLen.toNat)).take
      frameTrailerBytes =
      (data.drop (frameHeaderBytes + header.payloadLen.toNat)).take frameTrailerBytes := by
    rw [List.drop_append_of_le_length (by omega),
      List.take_append_of_le_length (by rw [List.length_drop]; omega)]
  have hmore : ¬(data ++ more).length <
      frameHeaderBytes + header.payloadLen.toNat + frameTrailerBytes := by
    rw [List.length_append]
    omega
  rw [decodePayload, decodePayload, if_neg hmore, if_neg (not_lt.mpr hlength), hpayload, htrailer]

theorem decodeFrame_spec (data : Bytes) (limits : Limits) :
    Decodes limits data (decodeFrame data limits) := by
  have hheader : frameHeaderBytes < maxFrameBytes limits := by
    rw [maxFrameBytes, frameTrailerBytes]
    omega
  by_cases hshort : data.length < 4
  · rw [decodeFrame, if_pos hshort]
    exact .incomplete (by rw [frameHeaderBytes] at hheader; omega)
  have hmagic : ∀ more : Bytes, (data ++ more).take 4 = data.take 4 :=
    fun more => List.take_append_of_le_length (not_lt.mp hshort)
  have hlong : ∀ more : Bytes, ¬(data ++ more).length < 4 := by
    intro more
    rw [List.length_append]
    omega
  by_cases hmismatch : (loadLe (data.take 4)).toUInt32 ≠ frameMagic
  · have hstays : ∀ more, decodeFrame (data ++ more) limits =
        makeFailure .corrupt .corrupt (text "frame magic mismatch") := by
      intro more
      rw [decodeFrame, if_neg (hlong more), hmagic, if_pos hmismatch]
    rw [decodeFrame, if_neg hshort, if_pos hmismatch]
    exact .refused _ (refused_corrupt _) hstays
  by_cases hpartial : data.length < frameHeaderBytes
  · rw [decodeFrame, if_neg hshort, if_neg hmismatch, if_pos hpartial]
    exact .incomplete (by omega)
  have hwhole : ∀ more, decodeFrame (data ++ more) limits =
      match checkHeader (data.take frameHeaderBytes) limits with
      | .error refused => refused
      | .ok header => decodePayload header (data ++ more) := by
    intro more
    rw [decodeFrame, if_neg (hlong more), hmagic, if_neg hmismatch,
      if_neg (by rw [List.length_append]; omega),
      List.take_append_of_le_length (not_lt.mp hpartial)]
  have hhere := hwhole []
  rw [List.append_nil] at hhere
  rw [hhere]
  cases hcheck : checkHeader (data.take frameHeaderBytes) limits with
  | error result =>
    simp only [hcheck] at hwhole
    exact .refused result (checkHeader_refused hcheck) hwhole
  | ok header =>
    simp only [hcheck] at hwhole ⊢
    have hceiling := checkHeader_payloadLen hcheck
    by_cases hbody : data.length < frameHeaderBytes + header.payloadLen.toNat + frameTrailerBytes
    · simp only [decodePayload]
      rw [if_pos hbody]
      exact .incomplete (by rw [maxFrameBytes]; omega)
    have hstays : ∀ more, decodeFrame (data ++ more) limits = decodePayload header data := by
      intro more
      rw [hwhole more, decodePayload_append (not_lt.mp hbody)]
    simp only [decodePayload] at hstays ⊢
    rw [if_neg hbody] at hstays ⊢
    split_ifs at hstays ⊢ with hchecksum
    · exact .refused _ (refused_corrupt _) hstays
    · exact .complete _ _ (by rw [frameHeaderBytes]; omega) (not_lt.mp hbody) hstays

end SwitchFailover.Transport
