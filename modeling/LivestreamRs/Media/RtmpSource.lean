import LivestreamRs.Media.FlvTag

/-! # RTMP ingest: FLV message bodies to pipeline packets

`livestream-transport/src/source/rtmp.rs`. A video message body is a 5-byte FLV header followed by
length-prefixed (AVCC) NAL units; the source strips the header and rewrites the units to Annex B.
-/
namespace LivestreamRs.Media
open BigEndian
set_option autoImplicit false

structure RtmpRawFrame where
  data : Bytes
  timestamp : UInt32
  isVideo : Bool
  isAudio : Bool
  isScriptData : Bool
  deriving DecidableEq, Repr

def startCode : Bytes := [0x00, 0x00, 0x00, 0x01]

/-- The `while` loop of `avcc_to_annex_b`, on the bytes `data[pos..]` still to be read. -/
def avccToAnnexB : Bytes → Bytes
  | b0 :: b1 :: b2 :: b3 :: rest =>
    let nalLen := fromBe [b0, b1, b2, b3]
    if rest.length < nalLen then []
    else startCode ++ rest.take nalLen ++ avccToAnnexB (rest.drop nalLen)
  | _ => []
termination_by data => data.length
decreasing_by simp only [List.length_drop, List.length_cons]; omega

/-- Bytes 2 to 4 of the body as a signed 24-bit number (`cts_raw | !0xFFFFFF` on `i32` is
`cts_raw - 2^24`). -/
def extractCts (data : Bytes) : Option ℤ :=
  match data with
  | _ :: _ :: b2 :: b3 :: b4 :: _ =>
    let ctsRaw := (b2.toNat <<< 16) ||| (b3.toNat <<< 8) ||| b4.toNat
    some (if ctsRaw &&& 0x800000 ≠ 0 then (ctsRaw : ℤ) - 0x1000000 else ctsRaw)
  | _ => none

def convertVideoFrame (data : Bytes) (ptsMs : ℤ) : Option EncodedPacket :=
  match data with
  | firstByte :: avcPacketType :: _ =>
    let frameType := (firstByte >>> 4) &&& 0x0F
    let codecId := firstByte &&& 0x0F
    let codec? : Option Codec :=
      if codecId = 7 then some .h264 else if codecId = 12 then some .h265 else none
    match codec? with
    | none => none
    | some codec =>
      let isKeyframe := frameType == 1
      let isSeqHeader := avcPacketType == 0
      let rawCodecData := if data.length > 5 then data.drop 5 else []
      -- sequence headers carry a configuration record, not NAL units
      let codecData :=
        if !isSeqHeader && !rawCodecData.isEmpty then avccToAnnexB rawCodecData else rawCodecData
      let extradata := if isSeqHeader && !codecData.isEmpty then some codecData else none
      let ctsMs := (extractCts data).getD 0
      let dtsMs := ptsMs - ctsMs
      some
        { codec := codec
          streamIndex := 0
          data := .annexB codecData
          ptsMs := some ptsMs
          dtsMs := some dtsMs
          isKeyframe := isKeyframe
          isSequenceHeader := isSeqHeader
          isScriptData := false
          extradata := extradata }
  -- callers have checked `data.len() >= 2`
  | _ => none

def convertAudioFrame (data : Bytes) (ptsMs : ℤ) : Option EncodedPacket :=
  let isAacSeq :=
    match data with
    | b0 :: b1 :: _ => b0 >>> 4 == 10 && b1 == 0
    | _ => false
  let codecData := if data.length > 2 then data.drop 2 else []
  some
    { codec := .aac
      streamIndex := 0
      data := .annexB codecData
      ptsMs := some ptsMs
      dtsMs := none
      isKeyframe := false
      isSequenceHeader := isAacSeq
      isScriptData := false
      extradata := none }

def convertFrame (frame : RtmpRawFrame) : Option EncodedPacket :=
  if frame.isScriptData || frame.data.isEmpty then none
  else
    let ptsMs : ℤ := frame.timestamp.toNat
    if frame.isVideo && decide (frame.data.length ≥ 2) then convertVideoFrame frame.data ptsMs
    else if frame.isAudio then convertAudioFrame frame.data ptsMs
    else none

end LivestreamRs.Media
