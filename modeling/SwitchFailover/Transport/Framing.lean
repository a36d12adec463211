import SwitchFailover.Codec.Checksum
import SwitchFailover.Transport.Frame

/-!
# The frame codec

A frame that can be encoded is read back from its bytes whatever follows them, every
proper beginning of those bytes is incomplete, and a change of one byte is detected:
the header and the payload each carry a checksum, and the header's is looked at before
anything the header says is used.
-/

namespace SwitchFailover.Transport

open SwitchFailover.Core Codec Library.Codec

variable {header : FrameHeader}

/-! ## Headers -/

theorem MessageType.ofRaw_raw (type : MessageType) : MessageType.ofRaw type.raw = type := by
  cases type <;> rfl

namespace FrameHeader

theorem length_checkedBytes (header : FrameHeader) :
    header.checkedBytes.length = headerCrcOffset := by
  simp [checkedBytes, headerCrcOffset, frameHeaderBytes, frameTrailerBytes]

theorem length_encode (header : FrameHeader) : header.encode.length = frameHeaderBytes := by
  rw [encode, List.length_append, length_checkedBytes, length_storeLe]
  rfl

theorem take_four_encode (header : FrameHeader) (rest : Bytes) :
    (loadLe ((header.encode ++ rest).take 4)).toUInt32 = frameMagic := by
  simp only [encode, checkedBytes, List.append_assoc]
  rw [loadLe_take frameMagic.toNat_lt]
  exact UInt32.ofNat_toNat

theorem rawType_encode (header : FrameHeader) : rawType header.encode = header.type.raw := by
  simp only [rawType, encode, checkedBytes, List.append_assoc]
  rw [drop_storeLe 4 _ _ 2, drop_storeLe 2 _ _ 0, List.drop_zero,
    loadLe_take header.type.raw.toNat_lt]
  exact UInt16.ofNat_toNat

/-- A header is read back with the magic and the checksum filled in. -/
theorem parse_encode (header : FrameHeader) :
    parse header.encode = { header with magic := frameMagic, headerCrc := header.computeCrc } := by
  obtain ⟨magic, version, type, flags, session, epoch, digest, seq, length, crc⟩ := header
  simp only [parse, rawType_encode, MessageType.ofRaw_raw, mk.injEq, true_and]
  simp only [encode, checkedBytes, List.append_assoc]
  refine ⟨?_, ?_, ?_, ?_, ?_, ?_, ?_, ?_⟩
  · rw [drop_storeLe 4 _ _ 0, List.drop_zero, loadLe_take version.toNat_lt]
    exact UInt16.ofNat_toNat
  · rw [drop_storeLe 4 _ _ 4, drop_storeLe 2 _ _ 2, drop_storeLe 2 _ _ 0, List.drop_zero,
      loadLe_take flags.toNat_lt]
    exact UInt32.ofNat_toNat
  · rw [drop_storeLe 4 _ _ 8, drop_storeLe 2 _ _ 6, drop_storeLe 2 _ _ 4, drop_storeLe 4 _ _ 0,
      List.drop_zero, loadLe_take session.raw.toNat_lt]
    exact congrArg StrongId.mk UInt64.ofNat_toNat
  · rw [drop_storeLe 4 _ _ 16, drop_storeLe 2 _ _ 14, drop_storeLe 2 _ _ 12,
      drop_storeLe 4 _ _ 8, drop_storeLe 8 _ _ 0, List.drop_zero, loadLe_take epoch.raw.toNat_lt]
    exact congrArg StrongId.mk UInt64.ofNat_toNat
  · rw [drop_storeLe 4 _ _ 24, drop_storeLe 2 _ _ 22, drop_storeLe 2 _ _ 20,
      drop_storeLe 4 _ _ 16, drop_storeLe 8 _ _ 8, drop_storeLe 8 _ _ 0, List.drop_zero,
      loadLe_take digest.toNat_lt]
    exact UInt64.ofNat_toNat
  · rw [drop_storeLe 4 _ _ 32, drop_storeLe 2 _ _ 30, drop_storeLe 2 _ _ 28,
      drop_storeLe 4 _ _ 24, drop_storeLe 8 _ _ 16, drop_storeLe 8 _ _ 8, drop_storeLe 8 _ _ 0,
      List.drop_zero, loadLe_take seq.toNat_lt]
    exact UInt64.ofNat_toNat
  · rw [drop_storeLe 4 _ _ 40, drop_storeLe 2 _ _ 38, drop_storeLe 2 _ _ 36,
      drop_storeLe 4 _ _ 32, drop_storeLe 8 _ _ 24, drop_storeLe 8 _ _ 16, drop_storeLe 8 _ _ 8,
      drop_storeLe 8 _ _ 0, List.drop_zero, loadLe_take length.toNat_lt]
    exact UInt32.ofNat_toNat
  · rw [drop_storeLe 4 _ _ 44, drop_storeLe 2 _ _ 42, drop_storeLe 2 _ _ 40,
      drop_storeLe 4 _ _ 36, drop_storeLe 8 _ _ 28, drop_storeLe 8 _ _ 20, drop_storeLe 8 _ _ 12,
      drop_storeLe 8 _ _ 4, drop_storeLe 4 _ _ 0, List.drop_zero,
      List.take_of_length_le (by simp), loadLe_storeLe (UInt32.toNat_lt _)]
    exact UInt32.ofNat_toNat

theorem checked_encode (header : FrameHeader) : Checked header.encode :=
  ⟨header.checkedBytes, rfl⟩

end FrameHeader

/-- A header without its checksum is refused first of all. -/
theorem checkHeader_of_not_checked {bytes : Bytes} (hlength : bytes.length = frameHeaderBytes)
    (hchanged : ¬Checked bytes) (limits : Limits) :
    checkHeader bytes limits =
      .error (makeFailure .corrupt .corrupt (text "frame header CRC mismatch")) := by
  have hsize : bytes.length = headerCrcOffset + 4 := hlength
  rw [checkHeader]
  exact if_pos fun hstored => hchanged ((checked_iff hsize).mpr hstored)

/-- The version and the type of a header are ones this build knows. -/
def FrameHeader.Supported (header : FrameHeader) : Prop :=
  header.formatVersion = frameFormatVersion ∧ isValidMessageType header.type.raw = true

theorem checkHeader_encode {limits : Limits} (hsupported : header.Supported)
    (hlength : header.payloadLen.toNat ≤ payloadCeiling limits) :
    checkHeader header.encode limits =
      .ok { header with magic := frameMagic, headerCrc := header.computeCrc } := by
  have hstored : (FrameHeader.parse header.encode).headerCrc =
      crc32Ieee (header.encode.take headerCrcOffset) :=
    (checked_iff header.length_encode).mp header.checked_encode
  rw [checkHeader]
  rw [if_neg (not_not.mpr hstored), FrameHeader.parse_encode, FrameHeader.rawType_encode,
    if_neg (not_not.mpr hsupported.1), hsupported.2, if_neg (by decide),
    if_neg (not_lt.mpr hlength)]

theorem checkHeader_unsupported (hsupported : ¬header.Supported) (limits : Limits) :
    ∃ code message, checkHeader header.encode limits =
      .error (makeFailure .unsupported code message) := by
  have hstored : (FrameHeader.parse header.encode).headerCrc =
      crc32Ieee (header.encode.take headerCrcOffset) :=
    (checked_iff header.length_encode).mp header.checked_encode
  rw [checkHeader]
  rw [if_neg (not_not.mpr hstored), FrameHeader.parse_encode, FrameHeader.rawType_encode]
  by_cases hversion : header.formatVersion = frameFormatVersion
  · have htype : isValidMessageType header.type.raw = false :=
      Bool.eq_false_of_not_eq_true fun hvalid => hsupported ⟨hversion, hvalid⟩
    rw [if_neg (not_not.mpr hversion), htype]
    exact ⟨_, _, if_pos rfl⟩
  · exact ⟨_, _, if_pos hversion⟩

/-! ## Whole frames -/

section Parts

variable {front body : Bytes} {limits : Limits}

/-- Decoding a byte range that starts with a whole header. -/
theorem decodeFrame_front (hfront : front.length = frameHeaderBytes)
    (hmagic : (loadLe (front.take 4)).toUInt32 = frameMagic) (limits : Limits) (rest : Bytes) :
    decodeFrame (front ++ rest) limits = match checkHeader front limits with
      | .error refused => refused
      | .ok header => decodePayload header (front ++ rest) := by
  have hsize : front.length = 52 := hfront
  have hlong : (front ++ rest).length = 52 + rest.length := by rw [List.length_append, hsize]
  rewrite [decodeFrame, if_neg (by omega), List.take_append_of_le_length (by omega),
    if_neg (not_not.mpr hmagic), if_neg (by rw [frameHeaderBytes]; omega),
    List.take_left' hfront]
  cases checkHeader front limits with
  | error refused => rfl
  | ok header => rfl

/-- The body of a frame is accepted exactly if it carries its checksum. -/
theorem decodePayload_front (hfront : front.length = frameHeaderBytes)
    (hbody : body.length = header.payloadLen.toNat + frameTrailerBytes) (rest : Bytes) :
    decodePayload header (front ++ (body ++ rest)) =
      if (loadLe ((body.drop header.payloadLen.toNat).take 4)).toUInt32 =
          crc32Ieee (body.take header.payloadLen.toNat) then
        { disposition := .complete
          frame := ⟨header, body.take header.payloadLen.toNat,
            (loadLe ((body.drop header.payloadLen.toNat).take 4)).toUInt32⟩
          consumed := frameHeaderBytes + header.payloadLen.toNat + frameTrailerBytes }
      else makeFailure .corrupt .corrupt (text "frame payload CRC mismatch") := by
  have htotal : (front ++ body).length =
      frameHeaderBytes + header.payloadLen.toNat + frameTrailerBytes := by
    rw [List.length_append, hfront, hbody, Nat.add_assoc]
  rw [← List.append_assoc, decodePayload_append htotal.ge]
  simp only [decodePayload, ← List.drop_drop, List.drop_left' hfront]
  rw [if_neg (by omega), ite_not]
  rfl

end Parts

/-- The header of a frame as it is written. -/
def Frame.finishedHeader (frame : Frame) : FrameHeader :=
  { frame.header with magic := frameMagic, payloadLen := frame.payload.length.toUInt32 }

/-- The payload of a frame and its checksum. -/
def Frame.body (frame : Frame) : Bytes :=
  frame.payload ++ storeLe 4 (crc32Ieee frame.payload).toNat

theorem encodeFrame_eq_ok {frame : Frame} {limits : Limits} {encoded : Bytes} :
    encodeFrame frame limits = .ok encoded ↔ frame.payload.length ≤ payloadCeiling limits ∧
        encoded = frame.finishedHeader.encode ++ frame.body := by
  simp only [encodeFrame, result_bind_eq_ok, requireWithin_eq_ok, exists_const]
  rw [List.append_assoc]
  exact and_congr_right fun _ =>
    ⟨fun hpure => (Except.ok.inj hpure).symm, fun heq => by rw [heq]; rfl⟩

theorem length_body (frame : Frame) :
    frame.body.length = frame.payload.length + frameTrailerBytes := by
  simp [Frame.body, frameTrailerBytes]

theorem payloadLen_finishedHeader {frame : Frame} {limits : Limits}
    (hfits : frame.payload.length ≤ payloadCeiling limits) :
    frame.finishedHeader.payloadLen.toNat = frame.payload.length := by
  have hsmall : frame.payload.length < 2 ^ 32 :=
    lt_of_le_of_lt (hfits.trans (min_le_right _ _)) (by decide)
  exact UInt32.toNat_ofNat_of_lt' hsmall

/-- The frame as it is read back. -/
def Frame.received (frame : Frame) : Frame :=
  ⟨{ frame.finishedHeader with headerCrc := frame.finishedHeader.computeCrc }, frame.payload,
    crc32Ieee frame.payload⟩

section Codec

variable {frame : Frame} {limits : Limits}

theorem magic_encode (header : FrameHeader) :
    (loadLe (header.encode.take 4)).toUInt32 = frameMagic := by
  have hmagic := header.take_four_encode []
  rwa [List.append_nil] at hmagic

theorem decodeFrame_of_supported (hsupported : frame.header.Supported)
    (hfits : frame.payload.length ≤ payloadCeiling limits) (rest : Bytes) :
    decodeFrame (frame.finishedHeader.encode ++ rest) limits =
      decodePayload frame.received.header (frame.finishedHeader.encode ++ rest) := by
  have hlength := payloadLen_finishedHeader hfits
  have hcheck : checkHeader frame.finishedHeader.encode limits = .ok frame.received.header :=
    checkHeader_encode hsupported (hlength.trans_le hfits)
  rw [decodeFrame_front (FrameHeader.length_encode _) (magic_encode _), hcheck]

theorem decodeFrame_encoded (hsupported : frame.header.Supported)
    (hfits : frame.payload.length ≤ payloadCeiling limits) (suffix : Bytes) :
    decodeFrame (frame.finishedHeader.encode ++ frame.body ++ suffix) limits =
      { disposition := .complete, frame := frame.received
        consumed := (frame.finishedHeader.encode ++ frame.body).length } := by
  have hlength : frame.received.header.payloadLen.toNat = frame.payload.length :=
    payloadLen_finishedHeader hfits
  have hbody : frame.body.length = frame.received.header.payloadLen.toNat + frameTrailerBytes := by
    rw [hlength, length_body]
  have hchecked := (checked_iff (length_body frame)).mp ⟨frame.payload, rfl⟩
  have hpayload : frame.body.take frame.payload.length = frame.payload :=
    List.take_left' rfl
  rw [List.append_assoc, decodeFrame_of_supported hsupported hfits,
    decodePayload_front (FrameHeader.length_encode _) hbody, hlength, if_pos hchecked, hchecked,
    hpayload, List.length_append, FrameHeader.length_encode, length_body, Nat.add_assoc]
  rfl

theorem decodeFrame_take (hsupported : frame.header.Supported)
    (hfits : frame.payload.length ≤ payloadCeiling limits) {cut : ℕ}
    (hcut : cut < (frame.finishedHeader.encode ++ frame.body).length) :
    decodeFrame ((frame.finishedHeader.encode ++ frame.body).take cut) limits = incomplete := by
  have hfront : frame.finishedHeader.encode.length = 52 := FrameHeader.length_encode _
  have hsize : ((frame.finishedHeader.encode ++ frame.body).take cut).length = cut :=
    List.length_take_of_le hcut.le
  by_cases hfour : cut < 4
  · rw [decodeFrame, if_pos (by omega)]
  by_cases hheader : cut < frameHeaderBytes
  · have hmagic : ((frame.finishedHeader.encode ++ frame.body).take cut).take 4 =
        (frame.finishedHeader.encode ++ frame.body).take 4 := by
      rw [List.take_take, min_eq_left (not_lt.mp hfour)]
    rw [decodeFrame, if_neg (by omega), hmagic, FrameHeader.take_four_encode,
      if_neg (not_not.mpr rfl), if_pos (by omega)]
  · -- The header is whole and says how much is missing.
    have hlong : 52 ≤ cut := not_lt.mp hheader
    have hlength : frame.received.header.payloadLen.toNat = frame.payload.length :=
      payloadLen_finishedHeader hfits
    rw [List.length_append, hfront, length_body] at hcut
    have hpart : (frame.finishedHeader.encode ++ frame.body).take cut =
        frame.finishedHeader.encode ++ frame.body.take (cut - 52) := by
      rw [List.take_append, List.take_of_length_le (by omega), hfront]
    rw [hpart, decodeFrame_of_supported hsupported hfits, decodePayload]
    refine if_pos ?_
    rw [List.length_append, hfront, List.length_take, hlength, frameHeaderBytes]
    omega

/-- A verdict other than that bytes are missing does not depend on the bytes that follow. -/
theorem decodeFrame_append {data : Bytes}
    (hdecided : (decodeFrame data limits).disposition ≠ .incomplete) (more : Bytes) :
    decodeFrame (data ++ more) limits = decodeFrame data limits := by
  have hdecodes := decodeFrame_spec data limits
  generalize decodeFrame data limits = result at hdecided hdecodes
  cases hdecodes with
  | incomplete => exact absurd rfl hdecided
  | refused _ _ hstays => exact hstays more
  | complete _ _ _ _ hstays => exact hstays more

end Codec

/-- What the two ends of a connection agree on. -/
structure SameMessage (sent received : Frame) : Prop where
  type : received.header.type = sent.header.type
  flags : received.header.flags = sent.header.flags
  session : received.header.session = sent.header.session
  epoch : received.header.epoch = sent.header.epoch
  bootDigest : received.header.bootDigest = sent.header.bootDigest
  requestSeq : received.header.requestSeq = sent.header.requestSeq
  payload : received.payload = sent.payload

/-- The frame codec: a supported frame whose payload is within the ceiling is encoded, and
read back from its encoding whatever follows; every proper beginning of the encoding is
incomplete; and no other verdict changes when bytes follow. -/
theorem frame_codec (limits : Limits) :
    (∀ frame : Frame, frame.header.formatVersion = frameFormatVersion →
      isValidMessageType frame.header.type.raw = true →
      frame.payload.length ≤ payloadCeiling limits →
      ∃ encoded, encodeFrame frame limits = .ok encoded ∧
        (∀ suffix, (decodeFrame (encoded ++ suffix) limits).disposition = .complete ∧
          SameMessage frame (decodeFrame (encoded ++ suffix) limits).frame ∧
          (decodeFrame (encoded ++ suffix) limits).consumed = encoded.length) ∧
        ∀ cut < encoded.length,
          (decodeFrame (encoded.take cut) limits).disposition = .incomplete) ∧
      ∀ data more, (decodeFrame data limits).disposition ≠ .incomplete →
        decodeFrame (data ++ more) limits = decodeFrame data limits := by
  constructor
  · intro frame hversion htype hfits
    have hsupported : frame.header.Supported := ⟨hversion, htype⟩
    refine ⟨_, encodeFrame_eq_ok.mpr ⟨hfits, rfl⟩, fun suffix => ?_, fun cut hcut => ?_⟩
    · rw [decodeFrame_encoded hsupported hfits]
      exact ⟨rfl, ⟨rfl, rfl, rfl, rfl, rfl, rfl, rfl⟩, rfl⟩
    · rw [decodeFrame_take hsupported hfits hcut]
      rfl
  · intro data more hdecided
    exact decodeFrame_append hdecided more

namespace Sample

/-- A greeting with two bytes of payload. -/
def hail : Frame := { header := { type := .hello, requestSeq := 3 }, payload := [4, 5] }

/-- The same under a version this build does not know. -/
def foreign : Frame := { hail with header := { hail.header with formatVersion := 2 } }

end Sample

theorem frame_codec_sample :
    ∃ encoded, encodeFrame Sample.hail {} = .ok encoded ∧ encoded.length = 58 ∧
      (decodeFrame (encoded ++ [7]) {}).disposition = .complete ∧
      (decodeFrame (encoded ++ [7]) {}).consumed = 58 ∧
      (decodeFrame (encoded.take 57) {}).disposition = .incomplete := by
  obtain ⟨encoded, hencoded, hreads, hcuts⟩ :=
    (frame_codec {}).1 Sample.hail rfl (by decide) (by decide)
  have hlength : encoded.length = 58 := by
    rw [(encodeFrame_eq_ok.mp hencoded).2, List.length_append, FrameHeader.length_encode,
      length_body]
    rfl
  exact ⟨encoded, hencoded, hlength, (hreads [7]).1, (hreads [7]).2.2.trans hlength,
    hcuts 57 (by omega)⟩

/-! ## Changed bytes -/

section Tampering

variable {frame : Frame} {limits : Limits} {index : ℕ} {value : UInt8}

theorem decodeFrame_header_changed (hindex : index < frame.finishedHeader.encode.length)
    (hvalue : frame.finishedHeader.encode[index] ≠ value) (rest : Bytes) :
    (decodeFrame (frame.finishedHeader.encode.set index value ++ rest) limits).disposition =
      .corrupt := by
  have hlength : (frame.finishedHeader.encode.set index value).length = frameHeaderBytes := by
    rw [List.length_set, FrameHeader.length_encode]
  have hchanged := (FrameHeader.checked_encode frame.finishedHeader).not_set hindex hvalue
  by_cases hmagic :
      (loadLe ((frame.finishedHeader.encode.set index value).take 4)).toUInt32 = frameMagic
  · rw [decodeFrame_front hlength hmagic, checkHeader_of_not_checked hlength hchanged]
    rfl
  · have hsize : (frame.finishedHeader.encode.set index value).length = 52 := hlength
    rw [decodeFrame, if_neg (by rw [List.length_append]; omega),
      List.take_append_of_le_length (by omega), if_pos hmagic]
    rfl

theorem decodeFrame_body_changed (hfits : frame.payload.length ≤ payloadCeiling limits)
    (hindex : index < frame.body.length) (hvalue : frame.body[index] ≠ value) :
    (decodeFrame (frame.finishedHeader.encode ++ frame.body.set index value) limits).disposition =
      .corrupt ∧ frame.header.Supported ∨
    (decodeFrame (frame.finishedHeader.encode ++ frame.body.set index value) limits).disposition =
      .unsupported ∧ ¬frame.header.Supported := by
  by_cases hsupported : frame.header.Supported
  · left
    refine ⟨?_, hsupported⟩
    have hlength : frame.received.header.payloadLen.toNat = frame.payload.length :=
      payloadLen_finishedHeader hfits
    have hbody : (frame.body.set index value).length = frame.payload.length + 4 := by
      rw [List.length_set, length_body]
      rfl
    have hchecked : Checked frame.body := ⟨frame.payload, rfl⟩
    have hchanged := fun hstored =>
      hchecked.not_set hindex hvalue ((checked_iff hbody).mpr hstored)
    have htotal : (frame.body.set index value).length =
        frame.received.header.payloadLen.toNat + frameTrailerBytes := by
      rw [hbody, hlength]
      rfl
    have hpayload := decodePayload_front (FrameHeader.length_encode frame.finishedHeader) htotal []
    rw [List.append_nil, hlength, if_neg hchanged] at hpayload
    rw [decodeFrame_of_supported hsupported hfits, hpayload]
    rfl
  · right
    refine ⟨?_, hsupported⟩
    have hforeign : ¬frame.finishedHeader.Supported := hsupported
    obtain ⟨code, message, hcheck⟩ := checkHeader_unsupported hforeign limits
    rw [decodeFrame_front (FrameHeader.length_encode _) (magic_encode _), hcheck]
    rfl

end Tampering

/-- Every change of one byte of an encoded frame is detected, and no beginning of the
changed bytes passes as a frame.  The verdict is that the frame is corrupt, unless the
frame itself was of an unknown version or type and the header is intact. -/
theorem frame_tampered {frame : Frame} {limits : Limits} {encoded : Bytes}
    (hencoded : encodeFrame frame limits = .ok encoded) {index : ℕ} {value : UInt8}
    (hindex : index < encoded.length) (hvalue : encoded[index] ≠ value) :
    ((frame.header.Supported ∨ index < frameHeaderBytes) →
      (decodeFrame (encoded.set index value) limits).disposition = .corrupt) ∧
    (¬frame.header.Supported → frameHeaderBytes ≤ index →
      (decodeFrame (encoded.set index value) limits).disposition = .unsupported) ∧
    ∀ cut, (decodeFrame ((encoded.set index value).take cut) limits).disposition ≠ .complete := by
  obtain ⟨hfits, rfl⟩ := encodeFrame_eq_ok.mp hencoded
  have hfront : frame.finishedHeader.encode.length = frameHeaderBytes :=
    FrameHeader.length_encode _
  have hverdict :
      ((frame.header.Supported ∨ index < frameHeaderBytes) →
        (decodeFrame ((frame.finishedHeader.encode ++ frame.body).set index value)
          limits).disposition = .corrupt) ∧
      (¬frame.header.Supported → frameHeaderBytes ≤ index →
        (decodeFrame ((frame.finishedHeader.encode ++ frame.body).set index value)
          limits).disposition = .unsupported) := by
    by_cases hheader : index < frameHeaderBytes
    · rw [← hfront] at hheader
      rw [List.getElem_append_left hheader] at hvalue
      rw [List.set_append_left _ _ hheader]
      exact ⟨fun _ => decodeFrame_header_changed hheader hvalue _,
        fun _ hlate => absurd (hfront ▸ hheader) (not_lt.mpr hlate)⟩
    · have hoffset : frame.finishedHeader.encode.length ≤ index := hfront ▸ not_lt.mp hheader
      rw [List.getElem_append_right hoffset] at hvalue
      rw [List.length_append] at hindex
      rw [List.set_append_right _ _ hoffset]
      rcases decodeFrame_body_changed hfits (by omega) hvalue with
        ⟨hcorrupt, hsupported⟩ | ⟨hunsupported, hforeign⟩
      · exact ⟨fun _ => hcorrupt, fun hforeign => absurd hsupported hforeign⟩
      · exact ⟨fun hor => absurd (hor.resolve_right hheader) hforeign, fun _ _ => hunsupported⟩
  refine ⟨hverdict.1, hverdict.2, fun cut hcomplete => ?_⟩
  -- A frame in a beginning of the bytes would be there in all of them.
  have hdecided : (decodeFrame (((frame.finishedHeader.encode ++ frame.body).set index
      value).take cut) limits).disposition ≠ .incomplete := by
    rw [hcomplete]
    decide
  have hstays := decodeFrame_append hdecided
    (((frame.finishedHeader.encode ++ frame.body).set index value).drop cut)
  rw [List.take_append_drop] at hstays
  rw [← hstays] at hcomplete
  by_cases hcorrupt : frame.header.Supported ∨ index < frameHeaderBytes
  · rw [hverdict.1 hcorrupt] at hcomplete
    cases hcomplete
  · obtain ⟨hforeign, hlate⟩ := not_or.mp hcorrupt
    rw [hverdict.2 hforeign (not_lt.mp hlate)] at hcomplete
    cases hcomplete

theorem frame_tampered_sample :
    ∃ encoded, encodeFrame Sample.hail {} = .ok encoded ∧
      (decodeFrame (encoded.set 52 9) {}).disposition = .corrupt ∧
      (decodeFrame ((encoded.set 52 9).take 58) {}).disposition ≠ .complete := by
  have hencoded := encodeFrame_eq_ok.mpr
    (And.intro (show Sample.hail.payload.length ≤ payloadCeiling {} by decide) rfl)
  have hvalue : (Sample.hail.finishedHeader.encode ++ Sample.hail.body)[52]? = some 4 := by
    have hfront : Sample.hail.finishedHeader.encode.length = 52 := FrameHeader.length_encode _
    rw [List.getElem?_append_right hfront.le, hfront]
    rfl
  obtain ⟨hindex, hbyte⟩ := List.getElem?_eq_some_iff.mp hvalue
  have hchanged : (Sample.hail.finishedHeader.encode ++ Sample.hail.body)[52] ≠ 9 := by
    rw [hbyte]
    decide
  have htampered := frame_tampered hencoded hindex hchanged
  exact ⟨_, hencoded, htampered.1 (Or.inl ⟨rfl, by decide⟩), htampered.2.2 58⟩

/-- A frame of an unknown version is encoded, and a change of its payload is reported as
an unsupported version and not as corruption. -/
theorem foreign_frame_tampered :
    ∃ encoded, encodeFrame Sample.foreign {} = .ok encoded ∧ encoded[52]? = some 4 ∧
      (decodeFrame (encoded.set 52 9) {}).disposition = .unsupported := by
  have hencoded : (encodeFrame Sample.foreign {}).toOption.any (fun encoded =>
      encoded[52]? == some 4 &&
        (decodeFrame (encoded.set 52 9) {}).disposition == .unsupported) = true := by
    decide +kernel
  cases hresult : encodeFrame Sample.foreign {} with
  | error status =>
      rw [hresult] at hencoded
      cases hencoded
  | ok encoded =>
      rw [hresult] at hencoded
      have htest := Bool.and_eq_true_iff.mp hencoded
      exact ⟨encoded, rfl, by simpa using htest.1, by simpa using htest.2⟩

end SwitchFailover.Transport
