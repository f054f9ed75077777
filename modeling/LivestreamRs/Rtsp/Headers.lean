import LivestreamRs.Media.Packet

/-! # Request lines and the `Content-Length` header

The text handling both RTSP readers share: `is_rtsp_request_line` and `content_length` of
`livestream-transport/src/rtsp/rtp.rs`, and `extract_content_length` of `rtsp/server.rs`, with the functions of
the standard library they call.
-/
namespace LivestreamRs.Rtsp
open Media
set_option autoImplicit false

/-! ## `String::from_utf8_lossy` -/

/-- A character of which the first bytes have been read. -/
structure PendingChar where
  value : ℕ
  -- the continuation bytes still missing, and the range of the next one
  missing : ℕ
  low : UInt8 := 0x80
  high : UInt8 := 0xBF

def replacementChar : Char := Char.ofNat 0xFFFD

def startChar (b : UInt8) : List Char × Option PendingChar :=
  if b ≤ 0x7F then ([Char.ofNat b.toNat], none)
  else if 0xC2 ≤ b ∧ b ≤ 0xDF then ([], some { value := b.toNat - 0xC0, missing := 1 })
  else if b = 0xE0 then ([], some { value := 0, missing := 2, low := 0xA0 })
  else if b = 0xED then ([], some { value := 0xD, missing := 2, high := 0x9F })
  else if 0xE1 ≤ b ∧ b ≤ 0xEF then ([], some { value := b.toNat - 0xE0, missing := 2 })
  else if b = 0xF0 then ([], some { value := 0, missing := 3, low := 0x90 })
  else if 0xF1 ≤ b ∧ b ≤ 0xF3 then ([], some { value := b.toNat - 0xF0, missing := 3 })
  else if b = 0xF4 then ([], some { value := 4, missing := 3, high := 0x8F })
  else ([replacementChar], none)

/-- One byte: a byte that cannot continue the pending character replaces it and is read anew. -/
def decodeByte : Option PendingChar → UInt8 → List Char × Option PendingChar
  | none, b => startChar b
  | some p, b =>
    if p.low ≤ b ∧ b ≤ p.high then
      let value := p.value * 64 + (b.toNat - 0x80)
      if p.missing = 1 then ([Char.ofNat value], none) else ([], some { value := value, missing := p.missing - 1 })
    else
      let (chars, pending) := startChar b
      (replacementChar :: chars, pending)

def decodeBytes : Option PendingChar → Bytes → List Char
  | none, [] => []
  | some _, [] => [replacementChar]
  | pending, b :: bytes => (decodeByte pending b).1 ++ decodeBytes (decodeByte pending b).2 bytes

def fromUtf8Lossy (bytes : Bytes) : List Char := decodeBytes none bytes

/-! ## Lines of text -/

/-- The loop of `str::lines`; a line that ends the text without a line feed keeps its carriage return. -/
def linesFrom : List Char → List Char → List (List Char)
  | [], [] => []
  | line, [] => [line]
  | line, c :: text =>
    if c = '\n' then (if line.getLast? = some '\r' then line.dropLast else line) :: linesFrom [] text
    else linesFrom (line ++ [c]) text

def lines (text : List Char) : List (List Char) := linesFrom [] text

/-- `char::is_whitespace` -/
def isWhitespace (c : Char) : Bool :=
  let n := c.toNat
  (0x09 ≤ n && n ≤ 0x0D) || n == 0x20 || n == 0x85 || n == 0xA0 || n == 0x1680 || (0x2000 ≤ n && n ≤ 0x200A) ||
    n == 0x2028 || n == 0x2029 || n == 0x202F || n == 0x205F || n == 0x3000

def trim (text : List Char) : List Char :=
  ((text.dropWhile isWhitespace).reverse.dropWhile isWhitespace).reverse

/-- `str::parse::<usize>` on a 64-bit target. -/
def parseUsize (text : List Char) : Option ℕ :=
  let digits := if text.head? = some '+' then text.tail else text
  if digits.isEmpty || !digits.all Char.isDigit then none
  else
    let value := digits.foldl (fun n c => 10 * n + (c.toNat - '0'.toNat)) 0
    if value < 2 ^ 64 then some value else none

/-! ## The functions of the readers -/

/-- Both readers look for the first `content-length` line with a number. Only ASCII letters have a lower case
that occurs in this name. -/
def findContentLength (headers : Bytes) : Option ℕ :=
  (lines (fromUtf8Lossy headers)).findSome? fun line =>
    if "content-length:".toList.isPrefixOf ((trim line).map Char.toLower) then
      ((line.splitOn ':')[1]?).bind fun v => parseUsize (trim v)
    else none

def contentLength (headers : Bytes) : Option ℕ := findContentLength headers

def maxRtspMessageSize : ℕ := 64 * 1024

/-- `none`: "RTSP Content-Length exceeds maximum" -/
def extractContentLength (buf : Bytes) : Option ℕ :=
  let raw := (findContentLength buf).getD 0
  if maxRtspMessageSize < raw then none else some raw

def isMethodByte (b : UInt8) : Bool :=
  ('A'.toUInt8 ≤ b && b ≤ 'Z'.toUInt8) || ('0'.toUInt8 ≤ b && b ≤ '9'.toUInt8) || b == '_'.toUInt8

def stripSuffix (line : Bytes) (b : UInt8) : Bytes :=
  if line.getLast? = some b then line.dropLast else line

/-- The bytes of `RTSP/`. -/
def rtspVersion : Bytes := [0x52, 0x54, 0x53, 0x50, 0x2F]

def isRtspRequestLine (line : Bytes) : Bool :=
  let line := stripSuffix line 0x0A
  let line := stripSuffix line 0x0D
  match line.splitOn 0x20 with
  | [method, uri, version] =>
    !method.isEmpty && !uri.isEmpty && method.all isMethodByte && rtspVersion.isPrefixOf version
  | _ => false

example : isRtspRequestLine "TEARDOWN rtsp://example.com/live/abc RTSP/1.0\r\n".toUTF8.toList = true := by
  decide +kernel

example : contentLength "GET_PARAMETER * RTSP/1.0\r\nCSeq: 6\r\nContent-Length: 4\r\n\r\n".toUTF8.toList = some 4 := by
  decide +kernel

end LivestreamRs.Rtsp
