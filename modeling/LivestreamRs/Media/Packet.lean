import Mathlib.Tactic

/-! # Packets of the pipeline

`Codec` and `CodecParams` (`livestream-core`), `NalData` and `EncodedPacket` (`livestream-codec`), and the FFmpeg
packet an `EncodedPacket` is exchanged with (`livestream-media/src/convert.rs`). Timestamps are `i64` milliseconds in
the source; they are integers here. `AV_NOPTS_VALUE` is `none`.
-/
namespace LivestreamRs.Media
set_option autoImplicit false

abbrev Bytes := List UInt8

inductive Codec
  | h264 | h265 | aac | mp3 | opus | av1 | mjpeg
  deriving DecidableEq, Repr

inductive NalData
  | avcc (bytes : Bytes)
  | annexB (bytes : Bytes)
  deriving DecidableEq, Repr

def NalData.asBytes : NalData → Bytes
  | .avcc b => b
  | .annexB b => b

structure EncodedPacket where
  codec : Codec
  streamIndex : ℕ
  data : NalData
  ptsMs : Option ℤ
  dtsMs : Option ℤ
  isKeyframe : Bool
  isSequenceHeader : Bool
  isScriptData : Bool
  extradata : Option Bytes
  deriving DecidableEq, Repr

def EncodedPacket.isVideo (pkt : EncodedPacket) : Bool :=
  match pkt.codec with
  | .h264 | .h265 | .av1 | .mjpeg => true
  | .aac | .mp3 | .opus => false

/-! ## Codec parameters -/

inductive MediaType
  | video
  | audio
  deriving DecidableEq, Repr

structure CodecParams where
  codec : Codec
  mediaType : MediaType
  clockRate : ℕ
  extradata : Option Bytes
  deriving DecidableEq, Repr

def Codec.mediaType : Codec → MediaType
  | .h264 | .h265 | .av1 | .mjpeg => .video
  | .aac | .mp3 | .opus => .audio

/-! ## The FFmpeg packet -/

structure AVRational where
  num : ℕ
  den : ℕ
  deriving DecidableEq, Repr

/-- FFmpeg's `av_rescale_q` (round to nearest, halves away from zero), for results that fit `i64`. -/
def avRescaleQ (a : ℤ) (bq cq : AVRational) : ℤ :=
  a.sign * (((a.natAbs * (bq.num * cq.den) + bq.den * cq.num / 2) / (bq.den * cq.num) : ℕ) : ℤ)

structure AvPacket where
  data : Bytes
  pts : Option ℤ
  dts : Option ℤ
  streamIdx : ℕ
  isKeyFrame : Bool
  deriving DecidableEq, Repr

/-- `av_packet_rescale_ts`: unset timestamps stay unset. -/
def AvPacket.rescaleTs (pkt : AvPacket) (tbFrom tbTo : AVRational) : AvPacket :=
  { pkt with
    pts := pkt.pts.map fun t => avRescaleQ t tbFrom tbTo
    dts := pkt.dts.map fun t => avRescaleQ t tbFrom tbTo }

def EncodedPacket.toAvPacket (pkt : EncodedPacket) : AvPacket where
  data := pkt.data.asBytes
  pts := pkt.ptsMs
  dts := pkt.dtsMs
  streamIdx := pkt.streamIndex
  isKeyFrame := pkt.isKeyframe

def fromAvPacket (pkt : AvPacket) (timeBase : AVRational) (codec : Codec) : EncodedPacket :=
  let pkt := pkt.rescaleTs timeBase ⟨1, 1000⟩
  { codec := codec
    streamIndex := pkt.streamIdx
    data := .annexB pkt.data
    ptsMs := pkt.pts
    -- when DTS is missing the code falls back to PTS, and to 0 when both are
    dtsMs := (pkt.dts.or pkt.pts).or (some 0)
    isKeyframe := pkt.isKeyFrame
    isSequenceHeader := false
    isScriptData := false
    extradata := none }

end LivestreamRs.Media
