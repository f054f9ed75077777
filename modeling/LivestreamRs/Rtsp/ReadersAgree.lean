import LivestreamRs.Rtsp.Segmentation

/-! # One request, two readers

A request can reach the server in the handshake, where `read_message` reads it, or in the record phase, where
`next_item` does. The first looks for `Content-Length` in the text before the blank line, the second in the text with
it; on a stream that holds one request both find the same length and return the request.
-/
namespace LivestreamRs.Rtsp
open Foundations Media
set_option autoImplicit false

/-! ## The blank line does not change the declared length -/

/-- Every continuation byte is above the ASCII range. -/
def AboveAscii (pending : Option PendingChar) : Prop := ∀ p ∈ pending, 0x80 ≤ p.low

theorem aboveAscii_startChar (b : UInt8) : AboveAscii (startChar b).2 := by
  unfold startChar
  repeat' split
  all_goals simp [AboveAscii]

theorem aboveAscii_decodeByte (pending : Option PendingChar) (b : UInt8) : AboveAscii (decodeByte pending b).2 := by
  cases pending with
  | none => exact aboveAscii_startChar b
  | some p =>
    unfold decodeByte
    dsimp only
    split
    · split <;> simp [AboveAscii]
    · exact aboveAscii_startChar b

theorem decodeByte_ascii {pending : Option PendingChar} (h : AboveAscii pending) {b : UInt8} (hb : b ≤ 0x7F) :
    decodeByte pending b = (decodeBytes pending [] ++ [Char.ofNat b.toNat], none) := by
  have hstart : startChar b = ([Char.ofNat b.toNat], none) := if_pos hb
  cases pending with
  | none => exact hstart
  | some p =>
    have hlow : 0x80 ≤ p.low := h p rfl
    have hnot : ¬ (p.low ≤ b ∧ b ≤ p.high) := fun hin =>
      absurd (UInt8.le_trans hlow (UInt8.le_trans hin.1 hb)) (by decide)
    simp only [decodeByte, if_neg hnot, hstart]
    rfl

/-- A character cut off by an ASCII byte reads as one cut off by the end of the text. -/
theorem decodeBytes_append_ascii {pending : Option PendingChar} (h : AboveAscii pending) (bytes more : Bytes)
    {b : UInt8} (hb : b ≤ 0x7F) :
    decodeBytes pending (bytes ++ b :: more) = decodeBytes pending bytes ++ Char.ofNat b.toNat :: decodeBytes none more := by
  induction bytes generalizing pending with
  | nil =>
    rw [List.nil_append, decodeBytes, decodeByte_ascii h hb]
    simp
  | cons first bytes ih =>
    rw [List.cons_append, decodeBytes, decodeBytes, ih (aboveAscii_decodeByte pending first), List.append_assoc]

theorem fromUtf8Lossy_append_crlfCrlf (bytes : Bytes) :
    fromUtf8Lossy (bytes ++ crlfCrlf) = fromUtf8Lossy bytes ++ ['\r', '\n', '\r', '\n'] :=
  decodeBytes_append_ascii (fun _ hp => by cases hp) bytes _ (by decide)

theorem linesFrom_append_crlfCrlf (line text : List Char) :
    ∃ blanks, linesFrom line (text ++ ['\r', '\n', '\r', '\n']) = linesFrom line text ++ blanks ∧ ∀ l ∈ blanks, l = [] := by
  induction text generalizing line with
  | nil =>
    cases line with
    | nil => exact ⟨[[], []], rfl, by simp⟩
    | cons c line =>
      have hline : linesFrom (c :: line) ['\r', '\n', '\r', '\n'] =
          (if (c :: line ++ ['\r']).getLast? = some '\r' then (c :: line ++ ['\r']).dropLast else c :: line ++ ['\r']) ::
            [[]] := rfl
      rw [List.getLast?_concat, if_pos rfl, List.dropLast_concat] at hline
      exact ⟨[[]], hline, by simp⟩
  | cons c text ih =>
    rw [List.cons_append]
    simp only [linesFrom]
    split
    · obtain ⟨blanks, heq, hblanks⟩ := ih []
      exact ⟨blanks, by rw [heq, List.cons_append], hblanks⟩
    · exact ih (line ++ [c])

theorem findContentLength_append_crlfCrlf (headers : Bytes) :
    findContentLength (headers ++ crlfCrlf) = findContentLength headers := by
  obtain ⟨blanks, hlines, hblanks⟩ := linesFrom_append_crlfCrlf [] (fromUtf8Lossy headers)
  have hnone : ∀ l ∈ blanks, (if "content-length:".toList.isPrefixOf ((trim l).map Char.toLower) then
      ((l.splitOn ':')[1]?).bind fun v => parseUsize (trim v) else none) = none := by
    intro l hl
    rw [hblanks l hl]
    rfl
  simp only [findContentLength, lines, fromUtf8Lossy_append_crlfCrlf, hlines, List.findSome?_append,
    List.findSome?_eq_none_iff.mpr hnone, Option.or_none]

/-! ## The blank line is where both readers see it -/

theorem findHeaderEnd_of_first (headers : Bytes)
    (hfirst : ∀ part, part <+: headers ++ crlfCrlf → crlfCrlf <:+ part → part = headers ++ crlfCrlf) :
    findHeaderEnd (headers ++ crlfCrlf) = some headers.length := by
  induction headers with
  | nil => rfl
  | cons b headers ih =>
    have hlater : ¬ crlfCrlf.isPrefixOf (b :: (headers ++ crlfCrlf)) = true := by
      intro hmatch
      have hall := hfirst crlfCrlf (List.isPrefixOf_iff_prefix.mp hmatch) List.suffix_rfl
      have hlength := congrArg List.length hall
      rw [List.length_append, List.length_cons] at hlength
      omega
    have hrest := ih fun part hpart hend =>
      (List.cons.inj (hfirst (b :: part) ((List.cons_prefix_cons).mpr ⟨rfl, hpart⟩) (hend.trans (List.suffix_cons b part)))).2
    rw [List.cons_append, findHeaderEnd, if_neg hlater, hrest]
    rfl

theorem completeMessage_of_request {request : Bytes} (h : WellFormedRequest request) : CompleteMessage request := by
  obtain ⟨⟨line, rest, body, rfl, -, -, -, ⟨headers, hheaders⟩, hfirst, hbody⟩, hsize⟩ := h
  rw [← hheaders] at hfirst hbody hsize ⊢
  have hlong : crlfCrlf.length = 4 := rfl
  have hdeclared : (findContentLength headers).getD 0 = body.length := by
    rw [hbody, contentLength, findContentLength_append_crlfCrlf]
  have hbound : ¬ maxRtspMessageSize < body.length := by
    rw [List.length_append] at hsize
    exact Nat.not_lt.mpr ((Nat.le_add_left _ _).trans hsize)
  refine ⟨⟨headers.length, body.length, findHeaderEnd_append body (findHeaderEnd_of_first headers hfirst), ?_, ?_⟩, hsize⟩
  · rw [List.append_assoc, List.take_left, extractContentLength, hdeclared, if_neg hbound]
  · rw [List.length_append, List.length_append, hlong]

/-- On a stream that holds one request, whatever its reads return, both readers return this request. -/
theorem both_readers_return_request {R : Type} [InputStream R UInt8] (reader : R)
    (hrequest : WellFormedRequest (contents reader)) :
    (∃ rest, readMessage (newBufReader reader) = .ok (contents reader, rest)) ∧
      ∃ rest, nextItem (RtpInterleavedReader.new reader) = .ok (.rtspRequest (contents reader), rest) := by
  refine ⟨readMessage_complete (newBufReader reader) (completeMessage_of_request hrequest), ?_⟩
  have hitem := nextItem_complete (.rtspRequest (contents reader)) hrequest []
  rw [List.append_nil] at hitem
  obtain ⟨rest, hread, -⟩ := simulates_nextItem.eq_ok (s := RtpInterleavedReader.new reader) hitem
  exact ⟨rest, hread⟩

def pingLine : Bytes := "GET_PARAMETER * RTSP/1.0\r\n".toUTF8.toList

def pingHeaders : Bytes := "Content-Length: 4\r\n\r\n".toUTF8.toList

def pingBody : Bytes := "ping".toUTF8.toList

/-- A request with a body, in reads that end within a line, within the blank line and within the body. -/
def pingReads : List Bytes :=
  let request := pingLine ++ pingHeaders ++ pingBody
  [request.take 20, (request.drop 20).take 25, (request.drop 45).take 3, request.drop 48]

theorem both_readers_return_ping :
    (∃ rest, readMessage (newBufReader (⟨pingReads, by decide +kernel⟩ : Socket UInt8)) =
      .ok (pingLine ++ pingHeaders ++ pingBody, rest)) ∧
    ∃ rest, nextItem (RtpInterleavedReader.new (⟨pingReads, by decide +kernel⟩ : Socket UInt8)) =
      .ok (.rtspRequest (pingLine ++ pingHeaders ++ pingBody), rest) := by
  have hparts : ∀ part ∈ (pingLine ++ pingHeaders).inits, crlfCrlf <:+ part → part = pingLine ++ pingHeaders := by
    decide +kernel
  have hrequest : WellFormedRequest (pingLine ++ pingHeaders ++ pingBody) :=
    ⟨⟨pingLine, pingHeaders, pingBody, rfl, by decide +kernel, by decide +kernel,
      ⟨pingLine.dropLast, by decide +kernel, by decide +kernel⟩, by decide +kernel,
      fun part hpart => hparts part ((List.mem_inits _ _).mpr hpart), by decide +kernel⟩, by decide +kernel⟩
  have hcontents : contents (⟨pingReads, by decide +kernel⟩ : Socket UInt8) = pingLine ++ pingHeaders ++ pingBody := by
    decide +kernel
  have h := both_readers_return_request (⟨pingReads, by decide +kernel⟩ : Socket UInt8) (hcontents ▸ hrequest)
  rwa [hcontents] at h

end LivestreamRs.Rtsp
