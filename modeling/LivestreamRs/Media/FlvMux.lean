import LivestreamRs.Media.FlvTag

/-! # FLV muxer: pipeline packets to FLV tags

`livestream-pipeline/src/processor/flv_mux.rs`. The only state is the framing flag: once an H.264
sequence header with an `AVCDecoderConfigurationRecord` was muxed, NAL units are written
length-prefixed; before, the Annex B bytes pass through.
-/
namespace LivestreamRs.Media
open BigEndian
set_option autoImplicit false

structure FlvMux where
  avccFraming : Bool := false
  deriving DecidableEq, Repr

/-- The `while` loop of `split_annexb`: the list is `data[i..]`, and `start` holds the bytes
`data[s..i]` of the open NAL unit once a start code has been seen. -/
def splitAnnexbLoop : Bytes → Option Bytes → List Bytes
  | b0 :: b1 :: b2 :: rest, start =>
    if b0 = 0 ∧ b1 = 0 ∧ b2 = 1 then start.toList ++ splitAnnexbLoop rest (some [])
    else
      match rest with
      | b3 :: rest' =>
        if b0 = 0 ∧ b1 = 0 ∧ b2 = 0 ∧ b3 = 1 then start.toList ++ splitAnnexbLoop rest' (some [])
        else splitAnnexbLoop (b1 :: b2 :: b3 :: rest') (start.map (· ++ [b0]))
      | [] => splitAnnexbLoop [b1, b2] (start.map (· ++ [b0]))
  | tail, start => (start.map (· ++ tail)).toList

def splitAnnexb (data : Bytes) : List Bytes := splitAnnexbLoop data none

def FlvMux.annexBToAvcc (mux : FlvMux) (data : Bytes) : Bytes :=
  if !mux.avccFraming then data
  else (splitAnnexb data).flatMap fun nal => putU32 (nal.length % 2 ^ 32) ++ nal

def buildAvcSequenceHeader (extradata : Option Bytes) : Bytes := extradata.getD []

/-- `ext.is_some_and(|e| !e.is_empty() && e[0] == 0x01)` -/
def isAvcConfigurationRecord (extradata : Option Bytes) : Bool :=
  match extradata with
  | some (b :: _) => b == 0x01
  | _ => false

def FlvMux.muxVideo (mux : FlvMux) (pkt : EncodedPacket) : FlvMux × List FlvTag :=
  let ptsMs : ℕ := (max (pkt.ptsMs.getD 0) 0).toNat
  let dtsMs : ℕ := (max (pkt.dtsMs.getD ptsMs) 0).toNat
  let timestamp := UInt32.ofNat (min dtsMs (2 ^ 32 - 1))
  let compositionTime := min (ptsMs - dtsMs) 0xFFFFFF
  let mux' : FlvMux :=
    if pkt.isSequenceHeader && (pkt.codec == .h264 && isAvcConfigurationRecord pkt.extradata)
    then { avccFraming := true } else mux
  let payload :=
    if pkt.isSequenceHeader then buildAvcSequenceHeader pkt.extradata
    else mux.annexBToAvcc pkt.data.asBytes
  let frameType : UInt8 := if pkt.isKeyframe then 1 else 2
  let codecId : UInt8 :=
    match pkt.codec with
    | .h264 => 7
    | .h265 => 12
    | _ => 7
  let header : Bytes :=
    if pkt.isSequenceHeader then 0 :: putU24 0 else 1 :: putU24 compositionTime
  (mux', [FlvTag.ofVideo timestamp (((frameType <<< 4) ||| codecId) :: header ++ payload)])

def FlvMux.muxAudio (pkt : EncodedPacket) : List FlvTag :=
  let timestamp := UInt32.ofNat (min (max (pkt.ptsMs.getD 0) 0).toNat (2 ^ 32 - 1))
  let soundFormat : UInt8 := 10
  let soundByte := (soundFormat <<< 4) ||| 0x0F
  let aacPacketType : UInt8 := if pkt.isSequenceHeader then 0 else 1
  [.audio timestamp (soundByte :: aacPacketType :: pkt.data.asBytes)]

def FlvMux.process (mux : FlvMux) (pkt : EncodedPacket) : FlvMux × List FlvTag :=
  match pkt.codec with
  | .h264 | .h265 => mux.muxVideo pkt
  | .aac => (mux, FlvMux.muxAudio pkt)
  | _ => (mux, [])

/-! ## The muxer on a video packet -/

/-- The packets `process` gives to `mux_video`. -/
def EncodedPacket.isFlvVideo (pkt : EncodedPacket) : Bool := pkt.codec == .h264 || pkt.codec == .h265

/-- A sequence header that sets the muxer's flag. -/
def EncodedPacket.setsFraming (pkt : EncodedPacket) : Bool :=
  pkt.isSequenceHeader && (pkt.codec == .h264 && isAvcConfigurationRecord pkt.extradata)

/-- The packet type of a video tag and what stands after the 5-byte header. -/
def FlvTag.videoPacket : FlvTag → Option (UInt8 × Bytes)
  | .video _ (_ :: packetType :: _ :: _ :: _ :: body) _ => some (packetType, body)
  | _ => none

theorem process_flvVideo (mux : FlvMux) (pkt : EncodedPacket) (h : pkt.isFlvVideo = true) :
    ∃ tag, mux.process pkt = ({ avccFraming := mux.avccFraming || pkt.setsFraming }, [tag]) ∧
      tag.videoPacket = some (if pkt.isSequenceHeader then (0, buildAvcSequenceHeader pkt.extradata)
        else (1, mux.annexBToAvcc pkt.data.asBytes)) := by
  have hprocess : mux.process pkt = mux.muxVideo pkt := by
    unfold FlvMux.process
    simp only [EncodedPacket.isFlvVideo, Bool.or_eq_true, beq_iff_eq] at h
    rcases h with h | h <;> rw [h]
  rw [hprocess, FlvMux.muxVideo]
  refine ⟨_, Prod.ext ?_ rfl, ?_⟩
  · simp only [EncodedPacket.setsFraming]
    split
    · next hset => rw [hset, Bool.or_true]
    · next hset => rw [Bool.not_eq_true] at hset; rw [hset, Bool.or_false]
  · cases pkt.isSequenceHeader <;> rfl

theorem process_not_flvVideo (mux : FlvMux) (pkt : EncodedPacket) (h : pkt.isFlvVideo = false) :
    (mux.process pkt).1 = mux ∧ ∀ tag ∈ (mux.process pkt).2, tag.videoPacket = none := by
  obtain ⟨codec, streamIndex, data, ptsMs, dtsMs, isKeyframe, isSequenceHeader, isScriptData, extradata⟩ := pkt
  cases codec
  case h264 => cases h
  case h265 => cases h
  case aac => exact ⟨rfl, fun tag htag => by rw [List.mem_singleton.mp htag]; rfl⟩
  all_goals exact ⟨rfl, fun tag htag => absurd htag List.not_mem_nil⟩

end LivestreamRs.Media
