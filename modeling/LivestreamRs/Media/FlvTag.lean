import LivestreamRs.Foundations.BigEndian
import LivestreamRs.Media.Packet

/-! # FLV tags

`FlvTag` (`livestream-media/src/flv/tag.rs`) and the 24-bit writer of `flv/encode.rs`. The payload of a
video tag starts with five bytes: frame type and codec id, `AVCPacketType`, and a 24-bit composition
time.
-/
namespace LivestreamRs.Media
open BigEndian
set_option autoImplicit false

/-- The `onMetaData` record of the RTMP library. -/
structure StreamMetadata where
  videoWidth : Option ℕ := none
  videoHeight : Option ℕ := none
  videoCodecId : Option ℕ := none
  videoFrameRate : Option ℚ := none
  videoBitrateKbps : Option ℕ := none
  audioCodecId : Option ℕ := none
  audioBitrateKbps : Option ℕ := none
  audioSampleRate : Option ℕ := none
  audioChannels : Option ℕ := none
  audioIsStereo : Option Bool := none
  encoder : Option String := none
  deriving DecidableEq

inductive FlvTag
  | audio (timestamp : UInt32) (payload : Bytes)
  | video (timestamp : UInt32) (payload : Bytes) (isKeyframe : Bool)
  | scriptData (metadata : StreamMetadata)
  deriving DecidableEq

/-- The frame type is bits 4 to 6 of the first byte, for classic and for enhanced headers. -/
def isVideoKeyframe (payload : Bytes) : Bool :=
  match payload with
  | [] => false
  | firstByte :: _ => ((firstByte &&& 0x70) >>> 4) == 1

def flvAudioCodecAac : UInt8 := 10
def flvVideoCodecAvc : UInt8 := 7
def flvVideoCodecHevc : UInt8 := 12
def flvPacketTypeSeqHeader : UInt8 := 0

def isAudioSeqHeader (payload : Bytes) : Bool :=
  match payload with
  | b0 :: b1 :: _ => b0 >>> 4 == flvAudioCodecAac && b1 == flvPacketTypeSeqHeader
  | _ => false

/-- A payload of less than two bytes is no header, in the classic and in the enhanced form. -/
def isVideoSeqHeader (payload : Bytes) : Bool :=
  match payload with
  | firstByte :: b1 :: _ =>
    let isExHeader := firstByte &&& 0x80 != 0
    if isExHeader then firstByte &&& 0x0f == flvPacketTypeSeqHeader
    else
      let codecId := firstByte &&& 0x0f
      (codecId == flvVideoCodecAvc || codecId == flvVideoCodecHevc) && b1 == flvPacketTypeSeqHeader
  | _ => false

def FlvTag.isSequenceHeader : FlvTag → Bool
  | .audio _ payload => isAudioSeqHeader payload
  | .video _ payload _ => isVideoSeqHeader payload
  | .scriptData _ => true

def FlvTag.isVideo : FlvTag → Bool
  | .video .. => true
  | _ => false

def FlvTag.isKeyframe : FlvTag → Bool
  | .video _ _ isKeyframe => isKeyframe
  | _ => false

/-- A video tag that is not a sequence header. -/
def FlvTag.isCodedVideo : FlvTag → Bool
  | .video _ payload _ => !isVideoSeqHeader payload
  | _ => false

/-- `FlvTag::video`. -/
def FlvTag.ofVideo (timestamp : UInt32) (payload : Bytes) : FlvTag :=
  .video timestamp payload (isVideoKeyframe payload)

def putU24 (value : ℕ) : Bytes :=
  [UInt8.ofNat ((value >>> 16) &&& 0xff), UInt8.ofNat ((value >>> 8) &&& 0xff), UInt8.ofNat (value &&& 0xff)]

def putU32 (value : ℕ) : Bytes := toBe 4 value

theorem uint8_ofNat_and_ff (n : ℕ) : UInt8.ofNat (n &&& 0xff) = UInt8.ofNat n := by
  apply UInt8.toNat_inj.mp
  have h : n &&& 0xff = n % 2 ^ 8 := Nat.and_two_pow_sub_one_eq_mod n 8
  simp [h]

theorem putU24_eq (value : ℕ) : putU24 value = toBe 3 value := by
  simp only [putU24, uint8_ofNat_and_ff, toBe]
  simp [Nat.shiftRight_eq_div_pow]

end LivestreamRs.Media
