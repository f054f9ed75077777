import LivestreamRs.Rtsp.Headers

/-! # The SDP of an ANNOUNCE

`livestream-transport/src/rtsp/sdp.rs`. Texts are lists of characters; where the source slices a string at a byte
position that may fall inside a character, and so may panic, the failure says so. The engine of the crate `base64` is a
parameter.
-/
namespace LivestreamRs.Rtsp
open Media
set_option autoImplicit false

/-! ## Decoders -/

/-- `str::split_whitespace` -/
def splitWhitespace (text : List Char) : List (List Char) :=
  (text.splitOnP isWhitespace).filter fun part => !part.isEmpty

/-- `str::parse::<u32>` -/
def parseU32 (text : List Char) : Option ℕ := (parseUsize text).filter (· < 2 ^ 32)

/-- The engine `STANDARD`. -/
abbrev Base64 := List Char → Option Bytes

def hexDigit (c : Char) : Option ℕ :=
  if '0' ≤ c ∧ c ≤ '9' then some (c.toNat - '0'.toNat)
  else if 'a' ≤ c ∧ c ≤ 'f' then some (c.toNat - 'a'.toNat + 10)
  else if 'A' ≤ c ∧ c ≤ 'F' then some (c.toNat - 'A'.toNat + 10)
  else none

/-- `u8::from_str_radix(_, 16)` on two characters; a sign is allowed. -/
def fromStrRadix16 (c d : Char) : Option UInt8 :=
  if c = '+' then (hexDigit d).map UInt8.ofNat
  else do
    let c ← hexDigit c
    let d ← hexDigit d
    some (UInt8.ofNat (c * 16 + d))

inductive HexFailure
  -- "Hex string has odd length"
  | oddLength
  | invalidDigit
  -- the end of a slice is inside a character: the source panics
  | notCharBoundary
  deriving DecidableEq

/-- `str::len` -/
def utf8Len (text : List Char) : ℕ := (text.map Char.utf8Size).sum

/-- The `for` loop: each slice is two bytes. -/
def hexDecodeLoop : List Char → Except HexFailure Bytes
  | [] => .ok []
  | [c] => if c.utf8Size = 2 then .error .invalidDigit else .error .notCharBoundary
  | c :: d :: rest =>
    if c.utf8Size = 2 then .error .invalidDigit
    else if c.utf8Size ≠ 1 ∨ d.utf8Size ≠ 1 then .error .notCharBoundary
    else
      match fromStrRadix16 c d with
      | none => .error .invalidDigit
      | some byte => (hexDecodeLoop rest).map (byte :: ·)

def hexDecode (input : List Char) : Except HexFailure Bytes :=
  let input := trim input
  if utf8Len input % 2 ≠ 0 then .error .oddLength else hexDecodeLoop input

example : hexDecode "1210".toList = .ok [0x12, 0x10] ∧ hexDecode "121".toList = .error .oddLength := by decide

/-! ## Attributes -/

/-- The value of the first attribute line with the prefix, which has to end there or before a blank. -/
def findAttr (sdp attr : List Char) : Option (List Char) :=
  (lines sdp).findSome? fun line =>
    let line := trim line
    if attr.isPrefixOf line then
      let rest := line.drop attr.length
      if rest.isEmpty || rest.head? == some ' ' || rest.head? == some '\t' then some (trim rest) else none
    else none

def extractParam (fmtp key : List Char) : Option (List Char) :=
  (fmtp.splitOn ';').findSome? fun part =>
    match (trim part).span (· ≠ '=') with
    | (name, _ :: value) => if trim name = key then some (trim value) else none
    | (_, []) => none

inductive SdpFailure
  -- "No valid media descriptions found in SDP"
  | noMedia
  -- "Invalid codec/clock-rate: {}"
  | invalidRtpmap
  -- the clock rate is not a `u32`
  | invalidClockRate
  -- "Unsupported codec: {}"
  | unsupportedCodec
  -- not an error but a panic, in `hex_decode`
  | panicked
  deriving DecidableEq

/-- The codec of an encoding name. Only ASCII letters have a lower case that occurs in these names. -/
def codecOfName (name : List Char) : Option Codec :=
  let name := String.ofList (name.map Char.toLower)
  if name = "h264" ∨ name = "h264-rs" then some .h264
  else if name = "h265" ∨ name = "hevc" then some .h265
  else if name = "mpeg4-generic" ∨ name = "aac" ∨ name = "mpeg4" then some .aac
  else if name = "opus" then some .opus
  else if name = "mp3" ∨ name = "mpa" ∨ name = "mpeg" then some .mp3
  else if name = "jpeg" ∨ name = "mjpeg" then some .mjpeg
  else none

def parseRtpmap (rtpmap : List Char) : Except SdpFailure (Codec × ℕ) :=
  let codecPart := ((splitWhitespace rtpmap).getLast?).getD rtpmap
  match codecPart.splitOn '/' with
  | name :: rate :: _ =>
    match parseU32 rate with
    | none => .error .invalidClockRate
    | some clockRate =>
      match codecOfName name with
      | none => .error .unsupportedCodec
      | some codec => .ok (codec, clockRate)
  | _ => .error .invalidRtpmap

def parseFmtpConfig (base64 : Base64) (fmtp : List Char) (codec : Codec) : Except SdpFailure (Option Bytes) :=
  match codec with
  | .h264 =>
    match extractParam fmtp "sprop-parameter-sets".toList with
    | none => .ok none
    | some sets =>
      let buf := ((sets.splitOn ',').filterMap fun part => base64 (trim part)).flatten
      .ok (if buf.isEmpty then none else some buf)
  | .aac =>
    match extractParam fmtp "config".toList with
    | none => .ok none
    | some config =>
      match hexDecode config with
      | .ok bytes => .ok (some bytes)
      | .error .notCharBoundary => .error .panicked
      | .error _ => .ok none
  | _ => .ok none

/-! ## `parse_sdp` -/

/-- The parameters always describe some media. -/
structure ParsedSdp where
  codecParams : List CodecParams
  rawSdp : List Char
  nonempty : codecParams ≠ []
  deriving DecidableEq

/-- An iteration of the loop over the lines; `none` where it continues without a result. -/
def parseMediaLine (base64 : Base64) (sdp line : List Char) : Except SdpFailure (Option CodecParams) :=
  let line := trim line
  if !"m=".toList.isPrefixOf line then .ok none
  else
    match splitWhitespace line with
    | mediaStr :: _ :: _ :: payloadType :: _ =>
      let mediaType? : Option MediaType :=
        if mediaStr = "m=video".toList then some .video
        else if mediaStr = "m=audio".toList then some .audio
        else none
      match mediaType? with
      | none => .ok none
      | some mediaType => do
        let format : Option (Codec × ℕ) ←
          match findAttr sdp ("a=rtpmap:".toList ++ payloadType) with
          | some map => (parseRtpmap map).map some
          | none =>
            -- the static payload type of JPEG needs no `rtpmap`
            if mediaType = .video ∧ payloadType = "26".toList then .ok (some (.mjpeg, 90000)) else .ok none
        match format with
        | none => .ok none
        | some (codec, clockRate) =>
          let fmtp := (findAttr sdp ("a=fmtp:".toList ++ payloadType)).getD []
          let extradata ← parseFmtpConfig base64 fmtp codec
          .ok (some { codec := codec, mediaType := mediaType, clockRate := clockRate, extradata := extradata })
    | _ => .ok none

/-- The loop, over the lines that are left. -/
def parseMediaLines (base64 : Base64) (sdp : List Char) : List (List Char) → Except SdpFailure (List CodecParams)
  | [] => .ok []
  | line :: rest => do
    let params ← parseMediaLine base64 sdp line
    let others ← parseMediaLines base64 sdp rest
    .ok (params.toList ++ others)

def parseSdp (base64 : Base64) (sdpBody : List Char) : Except SdpFailure ParsedSdp :=
  match parseMediaLines base64 sdpBody (lines sdpBody) with
  | .error e => .error e
  | .ok codecParams =>
    if h : codecParams = [] then .error .noMedia
    else .ok { codecParams := codecParams, rawSdp := sdpBody, nonempty := h }

/-- Enough for a body without parameter sets. -/
def noBase64 : Base64 := fun _ => none

example :
    (parseSdp noBase64 "m=video 0 RTP/AVP 96\r\na=rtpmap:96 H264/90000\r\n".toList).toOption.map ParsedSdp.codecParams =
    some [{ codec := .h264, mediaType := .video, clockRate := 90000, extradata := none }] := by
  decide +kernel

end LivestreamRs.Rtsp
