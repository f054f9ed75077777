import Mathlib.Data.Nat.Bitwise
import LivestreamRs.Media.NalFraming

/-! # From an RTMP publisher to an FLV subscriber

The composition `FlvMux ∘ convert_frame` on H.264 messages. The bytes after the 5-byte header come out
as they went in once a configuration record has been seen (`relay_avc_payload`). The timing does not:
the source reads the message timestamp as the presentation time and subtracts the composition time,
the muxer stamps the tag with the resulting decode time, so timestamp and composition time survive
exactly when the composition time is zero (`relay_timing_iff`). An audio message comes out as it went in
exactly when it is AAC (`relay_audio_iff`).
-/
namespace LivestreamRs.Media
open BigEndian
set_option autoImplicit false

/-- Feeding packets to the muxer one after the other: its last state and all tags, in order. -/
def FlvMux.processAll (mux : FlvMux) : List EncodedPacket → FlvMux × List FlvTag
  | [] => (mux, [])
  | pkt :: pkts =>
    let (mux', tags) := mux.process pkt
    let (mux'', tags') := mux'.processAll pkts
    (mux'', tags ++ tags')

/-- Frames of a publisher through the source and the muxer. -/
def relay (mux : FlvMux) (frames : List RtmpRawFrame) : FlvMux × List FlvTag :=
  mux.processAll (frames.filterMap convertFrame)

/-- The 5-byte FLV header of an H.264 message: codec id 7 under the frame type, the `AVCPacketType` and
the composition time. -/
def avcHeader (frameType : Fin 16) (avcPacketType : UInt8) (compositionTime : BitVec 24) : Bytes :=
  UInt8.ofNat (frameType.val * 16 + 7) :: avcPacketType :: toBe 3 compositionTime.toNat

structure AvcMessage where
  frameType : Fin 16
  timestamp : UInt32
  -- signed, in two's complement
  compositionTime : BitVec 24
  body : Bytes

def AvcMessage.frame (msg : AvcMessage) (avcPacketType : UInt8) : RtmpRawFrame where
  data := avcHeader msg.frameType avcPacketType msg.compositionTime ++ msg.body
  timestamp := msg.timestamp
  isVideo := true
  isAudio := false
  isScriptData := false

/-- A message with `AVCPacketType = 1`. -/
def AvcMessage.naluFrame (msg : AvcMessage) : RtmpRawFrame := msg.frame 1

/-- A message with `AVCPacketType = 0`; the body is the configuration record. -/
def AvcMessage.seqHeaderFrame (msg : AvcMessage) : RtmpRawFrame := msg.frame 0

/-! ## The source on an H.264 message -/

theorem firstByte_codecId (frameType : Fin 16) : UInt8.ofNat (frameType.val * 16 + 7) &&& 0x0F = 7 := by
  revert frameType
  decide

theorem firstByte_keyframe (frameType : Fin 16) :
    ((UInt8.ofNat (frameType.val * 16 + 7) >>> 4) &&& 0x0F == 1) = decide (frameType = 1) := by
  revert frameType
  decide

/-- Three bytes put together with shifts are their big-endian value. -/
theorem shiftOr_toBe (n : ℕ) (h : n < 2 ^ 24) :
    ((UInt8.ofNat (n / 256 ^ 2)).toNat <<< 16 ||| (UInt8.ofNat (n / 256)).toNat <<< 8)
      ||| (UInt8.ofNat n).toNat = n := by
  have hbytes : [UInt8.ofNat (n / 256 ^ 2), UInt8.ofNat (n / 256), UInt8.ofNat n] = toBe 3 n := by simp [toBe]
  rw [shiftOr_eq_fromBe, hbytes, fromBe_toBe h]

theorem and_signBit (n : ℕ) (h : n < 2 ^ 24) : n &&& 0x800000 ≠ 0 ↔ 2 ^ 23 ≤ n := by
  have hand : n &&& 2 ^ 23 = (n.testBit 23).toNat * 2 ^ 23 := Nat.and_two_pow n 23
  have hbit : n.testBit 23 = decide (n / 2 ^ 23 % 2 = 1) := Nat.testBit_eq_decide_div_mod_eq
  rw [show (0x800000 : ℕ) = 2 ^ 23 from rfl, hand, hbit]
  simp
  omega

theorem extractCts_avcHeader (frameType : Fin 16) (t : UInt8) (c : BitVec 24) (body : Bytes) :
    extractCts (avcHeader frameType t c ++ body) = some c.toInt := by
  have hlt : c.toNat < 2 ^ 24 := c.isLt
  have hmsb : c.msb = decide (2 ^ 23 ≤ c.toNat) := BitVec.msb_eq_decide c
  simp only [avcHeader, toBe, List.cons_append, List.nil_append, extractCts]
  simp only [pow_one, pow_zero, Nat.div_one]
  rw [shiftOr_toBe c.toNat hlt, BitVec.toInt_eq_msb_cond, hmsb]
  by_cases hs : 2 ^ 23 ≤ c.toNat
  · rw [if_pos ((and_signBit _ hlt).mpr hs), if_pos (by simpa using hs)]
    rfl
  · rw [if_neg (fun h => hs ((and_signBit _ hlt).mp h)), if_neg (by simpa using hs)]

/-- What the source makes of an H.264 message: a configuration record is kept, as data and as extradata;
any other body is rewritten to Annex B. -/
theorem convertFrame_frame (msg : AvcMessage) (t : UInt8) :
    convertFrame (msg.frame t) = some
      { codec := .h264
        streamIndex := 0
        data := .annexB (if t = 0 then msg.body else avccToAnnexB msg.body)
        ptsMs := some msg.timestamp.toNat
        dtsMs := some (msg.timestamp.toNat - msg.compositionTime.toInt)
        isKeyframe := decide (msg.frameType = 1)
        isSequenceHeader := t == 0
        isScriptData := false
        extradata := if t = 0 ∧ msg.body ≠ [] then some msg.body else none } := by
  obtain ⟨f, ts, c, body⟩ := msg
  have hcts := extractCts_avcHeader f t c body
  simp only [AvcMessage.frame, convertFrame, avcHeader, List.cons_append, toBe, convertVideoFrame] at hcts ⊢
  simp only [hcts, firstByte_codecId, firstByte_keyframe]
  by_cases ht : t = 0
  · cases body with
    | nil => simp [ht]
    | cons b body => simp [ht]
  · cases body with
    | nil => simp [ht, avccToAnnexB]
    | cons b body => simp [ht]

/-! ## The muxer on the converted packet -/

/-- The decode time the source derives for a message, clamped as the muxer clamps it. -/
def AvcMessage.tagDts (msg : AvcMessage) : ℕ :=
  (max ((msg.timestamp.toNat : ℤ) - msg.compositionTime.toInt) 0).toNat

def AvcMessage.tagCompositionTime (msg : AvcMessage) : ℕ :=
  min (msg.timestamp.toNat - msg.tagDts) 0xFFFFFF

/-- Frame type and codec id as the muxer writes them. -/
def AvcMessage.tagFirstByte (msg : AvcMessage) : UInt8 :=
  let frameType : UInt8 := if msg.frameType = 1 then 1 else 2
  (frameType <<< 4) ||| 7

/-- The tag that leaves the muxer for a NAL unit message. -/
def FlvMux.naluTag (mux : FlvMux) (msg : AvcMessage) : FlvTag :=
  FlvTag.ofVideo (UInt32.ofNat (min msg.tagDts (2 ^ 32 - 1)))
    (msg.tagFirstByte :: 1 :: putU24 msg.tagCompositionTime
      ++ mux.annexBToAvcc (avccToAnnexB msg.body))

theorem process_naluFrame (mux : FlvMux) (msg : AvcMessage) (pkt : EncodedPacket)
    (h : convertFrame msg.naluFrame = some pkt) : mux.process pkt = (mux, [mux.naluTag msg]) := by
  rw [AvcMessage.naluFrame, convertFrame_frame] at h
  obtain rfl := Option.some.inj h
  simp [FlvMux.process, FlvMux.muxVideo, FlvMux.naluTag, AvcMessage.tagFirstByte,
    AvcMessage.tagCompositionTime, AvcMessage.tagDts, NalData.asBytes]

theorem relay_naluFrames (mux : FlvMux) (msgs : List AvcMessage) :
    relay mux (msgs.map AvcMessage.naluFrame) = (mux, msgs.map mux.naluTag) := by
  induction msgs with
  | nil => rfl
  | cons msg msgs ih =>
    obtain ⟨pkt, hpkt⟩ : ∃ pkt, convertFrame msg.naluFrame = some pkt := ⟨_, convertFrame_frame msg 1⟩
    rw [relay] at ih
    rw [relay, List.map_cons, List.filterMap_cons_some hpkt, FlvMux.processAll,
      process_naluFrame mux msg _ hpkt]
    simp only [ih, List.singleton_append, List.map_cons]

theorem tagFirstByte_codecId (msg : AvcMessage) : msg.tagFirstByte &&& 0x0F = 7 := by
  by_cases h : msg.frameType = 1
  · simp only [AvcMessage.tagFirstByte, h]; decide
  · simp only [AvcMessage.tagFirstByte, h]; decide

theorem tagFirstByte_keyframe (msg : AvcMessage) : msg.tagFirstByte >>> 4 = 1 ↔ msg.frameType = 1 := by
  by_cases h : msg.frameType = 1
  · simp only [AvcMessage.tagFirstByte, h]; decide
  · simp only [AvcMessage.tagFirstByte, h]; decide

/-! ## Timing -/

def FlvTag.timing : FlvTag → Option (UInt32 × Bytes)
  | .video timestamp payload _ => some (timestamp, (payload.drop 2).take 3)
  | _ => none

def AvcMessage.timing (msg : AvcMessage) : UInt32 × Bytes :=
  (msg.timestamp, toBe 3 msg.compositionTime.toNat)

theorem timing_naluTag (mux : FlvMux) (msg : AvcMessage) :
    (mux.naluTag msg).timing
      = some (UInt32.ofNat (min msg.tagDts (2 ^ 32 - 1)), toBe 3 msg.tagCompositionTime) := by
  simp only [FlvMux.naluTag, FlvTag.ofVideo, FlvTag.timing, putU24_eq]
  rw [List.cons_append, List.cons_append, List.drop_succ_cons, List.drop_succ_cons, List.drop_zero,
    List.take_left' (toBe_length _ _)]

/-- A positive composition time moves the timestamp back, or is lost at the start of the stream; a
negative one is replaced by zero. -/
theorem timing_naluTag_iff (mux : FlvMux) (msg : AvcMessage) :
    (mux.naluTag msg).timing = some msg.timing ↔ msg.compositionTime = 0 := by
  have hts : msg.timestamp.toNat < 2 ^ 32 := msg.timestamp.toNat_lt
  have hc : msg.compositionTime.toNat < 2 ^ 24 := msg.compositionTime.isLt
  have hzero : msg.compositionTime = 0 ↔ msg.compositionTime.toNat = 0 := by
    rw [← BitVec.toNat_inj]
    rfl
  have hint := BitVec.toInt_eq_toNat_cond msg.compositionTime
  rw [timing_naluTag, AvcMessage.timing, Option.some_inj, Prod.mk.injEq, ← UInt32.toNat_inj, hzero,
    toBe_inj (by simp only [AvcMessage.tagCompositionTime]; omega) (by omega)]
  simp only [UInt32.toNat_ofNat', AvcMessage.tagCompositionTime, AvcMessage.tagDts]
  split at hint <;> omega

/-- Timestamps and composition times of a publisher's messages reach the subscribers unchanged exactly
when every composition time is zero. -/
theorem relay_timing_iff (mux : FlvMux) (msgs : List AvcMessage) :
    (relay mux (msgs.map AvcMessage.naluFrame)).2.map FlvTag.timing = msgs.map (fun msg => some msg.timing)
      ↔ ∀ msg ∈ msgs, msg.compositionTime = 0 := by
  rw [relay_naluFrames, List.map_map]
  simp only [List.map_inj_left, Function.comp_apply, timing_naluTag_iff]

/-- Two messages 10 ms apart, the second with a composition time of 33 ms: its tag is stamped before
the first one's. -/
theorem relay_timing_reorders :
    (relay {} [AvcMessage.naluFrame ⟨1, 1000, 0, []⟩, AvcMessage.naluFrame ⟨2, 1010, 33, []⟩]).2.map
        FlvTag.timing = [some (1000, [0, 0, 0]), some (977, [0, 0, 33])]
      ∧ AvcMessage.timing ⟨2, 1010, 33, []⟩ = (1010, [0, 0, 33]) := by
  refine ⟨?_, by decide⟩
  rw [show [AvcMessage.naluFrame ⟨1, 1000, 0, []⟩, AvcMessage.naluFrame ⟨2, 1010, 33, []⟩]
      = List.map AvcMessage.naluFrame [⟨1, 1000, 0, []⟩, ⟨2, 1010, 33, []⟩] from rfl, relay_naluFrames]
  simp only [List.map_cons, List.map_nil, timing_naluTag]
  decide

/-! ## Payload -/

/-- A video tag for the message: codec id 7, the given `AVCPacketType`, a key frame iff the message is
one, and `data` from offset 5 on. -/
def IsAvcTag (tag : FlvTag) (msg : AvcMessage) (avcPacketType : UInt8) (data : Bytes) : Prop :=
  ∃ timestamp firstByte b2 b3 b4 key,
    tag = .video timestamp (firstByte :: avcPacketType :: b2 :: b3 :: b4 :: data) key
      ∧ firstByte &&& 0x0F = 7 ∧ (firstByte >>> 4 = 1 ↔ msg.frameType = 1)

theorem isAvcTag_naluTag (mux : FlvMux) (msg : AvcMessage) :
    IsAvcTag (mux.naluTag msg) msg 1 (mux.annexBToAvcc (avccToAnnexB msg.body)) :=
  ⟨_, _, _, _, _, _, rfl, tagFirstByte_codecId msg, tagFirstByte_keyframe msg⟩

/-- The muxer after a configuration record, and the header's tag. -/
theorem relay_seqHeaderFrame (mux : FlvMux) (msg : AvcMessage) (record : Bytes)
    (hrec : msg.body = 0x01 :: record) :
    ∃ tag, relay mux [msg.seqHeaderFrame] = ({ avccFraming := true }, [tag]) ∧ IsAvcTag tag msg 0 msg.body := by
  have hpkt := convertFrame_frame msg 0
  rw [relay, AvcMessage.seqHeaderFrame, List.filterMap_cons_some hpkt]
  refine ⟨FlvTag.ofVideo (UInt32.ofNat (min msg.tagDts (2 ^ 32 - 1)))
    (msg.tagFirstByte :: 0 :: putU24 0 ++ msg.body), ?_, ⟨_, _, _, _, _, _, rfl, ?_, ?_⟩⟩
  · simp [FlvMux.processAll, FlvMux.process, FlvMux.muxVideo, isAvcConfigurationRecord, hrec,
      buildAvcSequenceHeader, AvcMessage.tagFirstByte, AvcMessage.tagDts]
  · exact tagFirstByte_codecId msg
  · exact tagFirstByte_keyframe msg

theorem process_avccFraming (mux : FlvMux) (pkt : EncodedPacket) (h : mux.avccFraming = true) :
    (mux.process pkt).1.avccFraming = true := by
  unfold FlvMux.process
  split
  · simp only [FlvMux.muxVideo]; split <;> simp [h]
  · simp only [FlvMux.muxVideo]; split <;> simp [h]
  · exact h
  · exact h

/-- Length-prefixed framing is never switched off. -/
theorem processAll_avccFraming (mux : FlvMux) (pkts : List EncodedPacket) (h : mux.avccFraming = true) :
    (mux.processAll pkts).1.avccFraming = true := by
  induction pkts generalizing mux with
  | nil => exact h
  | cons pkt pkts ih => exact ih (mux.process pkt).1 (process_avccFraming mux pkt h)

/-- After a sequence header with a configuration record, and whatever packets were muxed since, an
access unit is relayed as exactly one tag with the bytes it was published with; the header's own tag
carries the record. -/
theorem relay_avc_payload (mux : FlvMux) (hdr : AvcMessage) (record : Bytes)
    (hrec : hdr.body = 0x01 :: record) (between : List EncodedPacket) (msg : AvcMessage)
    (units : List Bytes) (hbody : msg.body = lengthPrefixed units)
    (hlen : ∀ nal ∈ units, nal.length < 2 ^ 32) (hclean : ∀ nal ∈ units, NoStartCode nal) :
    (∃ tag, (relay mux [hdr.seqHeaderFrame]).2 = [tag] ∧ IsAvcTag tag hdr 0 hdr.body) ∧
    ∃ tag, (relay ((relay mux [hdr.seqHeaderFrame]).1.processAll between).1 [msg.naluFrame]).2 = [tag]
      ∧ IsAvcTag tag msg 1 (lengthPrefixed units) := by
  obtain ⟨hdrTag, hrelay, htag⟩ := relay_seqHeaderFrame mux hdr record hrec
  rw [hrelay]
  refine ⟨⟨hdrTag, rfl, htag⟩, ?_⟩
  have hframing := processAll_avccFraming { avccFraming := true } between rfl
  generalize (FlvMux.processAll { avccFraming := true } between).1 = mux' at hframing
  refine ⟨mux'.naluTag msg, by rw [← List.map_singleton, relay_naluFrames]; rfl, ?_⟩
  have h := isAvcTag_naluTag mux' msg
  rw [hbody, annexBToAvcc_avccToAnnexB mux' hframing units hlen hclean] at h
  exact h

/-- Units that end in zeros, an empty unit, and an audio packet between header and access unit. -/
theorem relay_avc_payload_zeros :
    ∃ tag, (relay ((relay {} [AvcMessage.seqHeaderFrame ⟨1, 0, 0, [0x01, 0x64]⟩]).1.processAll
        [⟨.aac, 0, .annexB [0x21], some 0, none, false, false, false, none⟩]).1
        [AvcMessage.naluFrame ⟨1, 40, 0, lengthPrefixed [[0x65, 0, 0], [], [0, 0x41]]⟩]).2 = [tag]
      ∧ IsAvcTag tag ⟨1, 40, 0, lengthPrefixed [[0x65, 0, 0], [], [0, 0x41]]⟩ 1
          [0, 0, 0, 3, 0x65, 0, 0, 0, 0, 0, 0, 0, 0, 0, 2, 0, 0x41] :=
  (relay_avc_payload {} ⟨1, 0, 0, [0x01, 0x64]⟩ [0x64] rfl _ ⟨1, 40, 0, _⟩ [[0x65, 0, 0], [], [0, 0x41]]
    rfl (by decide) (by decide)).2

/-! ## Audio -/

/-- An audio message with a body of at least two bytes. The second one is an `AACPacketType` only if the sound
format, the high half of the first, is 10. -/
structure AudioMessage where
  timestamp : UInt32
  soundByte : UInt8
  second : UInt8
  tail : Bytes

def AudioMessage.soundFormat (msg : AudioMessage) : UInt8 := msg.soundByte >>> 4

def AudioMessage.frame (msg : AudioMessage) : RtmpRawFrame where
  data := msg.soundByte :: msg.second :: msg.tail
  timestamp := msg.timestamp
  isVideo := false
  isAudio := true
  isScriptData := false

/-- No tag, or one with the timestamp, the sound format and the bytes after the first of the message. -/
def AudioMessage.RelayedAs (msg : AudioMessage) (tags : List FlvTag) : Prop :=
  tags = [] ∨ ∃ soundByte : UInt8, soundByte >>> 4 = msg.soundFormat ∧
    tags = [.audio msg.timestamp (soundByte :: msg.second :: msg.tail)]

/-- The muxer writes the sound byte of stereo AAC and takes every message that is not an AAC sequence header for
AAC data. -/
theorem relay_audioFrame (mux : FlvMux) (msg : AudioMessage) :
    relay mux [msg.frame] = (mux, [.audio msg.timestamp
      (0xAF :: (if msg.soundFormat = 10 ∧ msg.second = 0 then 0 else 1) :: msg.tail)]) := by
  obtain ⟨timestamp, soundByte, second, tail⟩ := msg
  have htail : (if (soundByte :: second :: tail).length > 2 then (soundByte :: second :: tail).drop 2 else []) = tail := by
    cases tail <;> simp
  have htime : UInt32.ofNat (min (max (timestamp.toNat : ℤ) 0).toNat (2 ^ 32 - 1)) = timestamp := by
    have hlt := timestamp.toNat_lt
    rw [← UInt32.toNat_inj, UInt32.toNat_ofNat']
    omega
  have hconvert : convertFrame (AudioMessage.frame ⟨timestamp, soundByte, second, tail⟩) =
      convertAudioFrame (soundByte :: second :: tail) timestamp.toNat := rfl
  rw [relay, List.filterMap_cons, hconvert, convertAudioFrame, htail]
  simp only [List.filterMap_nil, FlvMux.processAll, FlvMux.process, FlvMux.muxAudio, NalData.asBytes,
    Option.getD_some, htime, AudioMessage.soundFormat, Bool.and_eq_true, beq_iff_eq]
  rfl

/-- A message reaches the subscribers unchanged exactly when it is AAC, header or data. -/
theorem relay_audio_iff (mux : FlvMux) (msg : AudioMessage) :
    msg.RelayedAs (relay mux [msg.frame]).2 ↔ msg.soundFormat = 10 ∧ (msg.second = 0 ∨ msg.second = 1) := by
  rw [relay_audioFrame, AudioMessage.RelayedAs]
  constructor
  · rintro (h | ⟨soundByte, hformat, htag⟩)
    · cases h
    · simp only [List.cons.injEq, FlvTag.audio.injEq, and_true, true_and] at htag
      obtain ⟨rfl, hsecond⟩ := htag
      refine ⟨hformat.symm, ?_⟩
      split at hsecond
      · exact .inl hsecond.symm
      · exact .inr hsecond.symm
  · rintro ⟨hformat, hsecond⟩
    refine .inr ⟨0xAF, hformat.symm, ?_⟩
    rcases hsecond with hsecond | hsecond <;> simp [hformat, hsecond]

/-- The first bytes of an MP3 message: the tag says AAC, and the byte after the first is lost. -/
theorem relay_audio_mp3 :
    (relay {} [AudioMessage.frame ⟨40, 0x2F, 0xFF, [0xFB, 0x90]⟩]).2 = [.audio 40 [0xAF, 0x01, 0xFB, 0x90]] ∧
    ¬ AudioMessage.RelayedAs ⟨40, 0x2F, 0xFF, [0xFB, 0x90]⟩
      (relay {} [AudioMessage.frame ⟨40, 0x2F, 0xFF, [0xFB, 0x90]⟩]).2 := by
  have htags : (relay {} [AudioMessage.frame ⟨40, 0x2F, 0xFF, [0xFB, 0x90]⟩]).2 =
      [.audio 40 [0xAF, 0x01, 0xFB, 0x90]] := by decide
  refine ⟨htags, ?_⟩
  rw [htags]
  rintro (h | ⟨soundByte, -, htag⟩)
  · cases h
  · simp only [List.cons.injEq, FlvTag.audio.injEq] at htag
    exact absurd htag.1.2.2.1 (by decide)

end LivestreamRs.Media
