import LivestreamRs.Rtsp.InterleavedReader

/-! # The handshake of an RTSP connection

`read_message`, `run_rtsp_handshake` and the hand-over to the record phase in `livestream-transport/src/rtsp/server.rs`.
The idle timeout is left out: every read finds something or the end of the stream. What the session makes of a
message (`parse_message`, `handle_request`, and writing the response) is a parameter.
-/
namespace LivestreamRs.Rtsp
open Foundations Media
set_option autoImplicit false

inductive ReadMessageFailure
  -- "RTSP connection closed by client before complete request"
  | closedBeforeRequest
  -- "RTSP message header exceeds maximum size 65536 bytes"
  | headerTooLarge
  -- "RTSP Content-Length exceeds maximum 65536"
  | contentLengthTooLarge
  -- "RTSP connection closed before complete body"
  | closedBeforeBody
  deriving DecidableEq

/-- `buf.windows(4).position(|w| w == b"\r\n\r\n")` -/
def findHeaderEnd : Bytes → Option ℕ
  | [] => none
  | b :: bytes => if crlfCrlf.isPrefixOf (b :: bytes) then some 0 else (findHeaderEnd bytes).map (· + 1)

section Reader
variable {σ : Type} [InputStream σ UInt8]

/-- One read into `tmp`. -/
def readPiece : Reader ReadMessageFailure σ Bytes := modifyGet (read 4096)

/-- The `while` loop, run at most as often as bytes are missing. -/
def readBodyUntil : ℕ → Bytes → ℕ → Reader ReadMessageFailure σ Bytes
  | 0, buf, _ => pure buf
  | fuel + 1, buf, total =>
    if buf.length < total then do
      let piece ← readPiece
      if piece.isEmpty then throw (.failed .closedBeforeBody)
      else readBodyUntil fuel (buf ++ piece) total
    else pure buf

/-- The loop of `read_message`: every round adds a byte to `buf`, so that the bound on its size ends it. -/
def readMessageLoop : ℕ → Bytes → Reader ReadMessageFailure σ Bytes
  | 0, _ => throw (.failed .headerTooLarge)
  | fuel + 1, buf => do
    let piece ← readPiece
    if piece.isEmpty then throw (.failed .closedBeforeRequest)
    else if maxRtspMessageSize < buf.length + piece.length then throw (.failed .headerTooLarge)
    else
      match findHeaderEnd (buf ++ piece) with
      | some pos =>
        match extractContentLength ((buf ++ piece).take pos) with
        | some contentLength =>
          let total := pos + 4 + contentLength
          let whole ← readBodyUntil (total - (buf ++ piece).length) (buf ++ piece) total
          pure (whole.take total)
        | none => throw (.failed .contentLengthTooLarge)
      | none => readMessageLoop fuel (buf ++ piece)

def readMessage : Reader ReadMessageFailure σ Bytes := readMessageLoop (maxRtspMessageSize + 1) []

/-! ## One round of each loop -/

/-- A body that is read is complete already, or another piece is added to it. -/
theorem readBodyUntil_cases {fuel total : ℕ} {buf whole : Bytes} {reader reader' : σ}
    (h : readBodyUntil (fuel + 1) buf total reader = .ok (whole, reader')) :
    (total ≤ buf.length ∧ whole = buf ∧ reader' = reader) ∨
      ∃ piece r, readPiece reader = .ok (piece, r) ∧ piece ≠ [] ∧
        readBodyUntil fuel (buf ++ piece) total r = .ok (whole, reader') := by
  unfold readBodyUntil at h
  split at h
  · obtain ⟨piece, r, hpiece, hrest⟩ := bind_eq_ok.mp h
    split at hrest
    · cases hrest
    · next hne => exact .inr ⟨piece, r, hpiece, by simpa using hne, hrest⟩
  · next hdone =>
    obtain ⟨rfl, rfl⟩ := Prod.mk.inj (Except.ok.inj h)
    exact .inl ⟨Nat.not_lt.mp hdone, rfl, rfl⟩

/-- A message that is read has its headers in what this round has, or is read by the rounds after it. -/
theorem readMessageLoop_cases {fuel : ℕ} {buf message : Bytes} {reader reader' : σ}
    (h : readMessageLoop (fuel + 1) buf reader = .ok (message, reader')) :
    ∃ piece r, readPiece reader = .ok (piece, r) ∧ piece ≠ [] ∧ (buf ++ piece).length ≤ maxRtspMessageSize ∧
      (readMessageLoop fuel (buf ++ piece) r = .ok (message, reader') ∨
        ∃ pos len whole, findHeaderEnd (buf ++ piece) = some pos ∧
          extractContentLength ((buf ++ piece).take pos) = some len ∧
          readBodyUntil (pos + 4 + len - (buf ++ piece).length) (buf ++ piece) (pos + 4 + len) r = .ok (whole, reader') ∧
          message = whole.take (pos + 4 + len)) := by
  obtain ⟨piece, r, hpiece, hrest⟩ := bind_eq_ok.mp h
  split at hrest
  · cases hrest
  next hne =>
  split at hrest
  · cases hrest
  next hsize =>
  refine ⟨piece, r, hpiece, by simpa using hne, by rw [List.length_append]; exact Nat.not_lt.mp hsize, ?_⟩
  cases hfound : findHeaderEnd (buf ++ piece) with
  | none =>
    rw [hfound] at hrest
    exact .inl hrest
  | some pos =>
    rw [hfound] at hrest
    cases hdeclared : extractContentLength ((buf ++ piece).take pos) with
    | none =>
      simp only [hdeclared] at hrest
      cases hrest
    | some len =>
      simp only [hdeclared] at hrest
      obtain ⟨whole, r', hbody, hpure⟩ := bind_eq_ok.mp hrest
      obtain ⟨rfl, rfl⟩ := Prod.mk.inj (Except.ok.inj hpure)
      exact .inr ⟨pos, len, whole, rfl, hdeclared, hbody, rfl⟩

/-! ## The handshake -/

/-- What the session makes of a message: it waits for another, cannot go on, is torn down, or records. -/
inductive HandshakeStep
  | next
  | aborted
  | teardown
  | recording
  deriving DecidableEq

variable {S : Type} (handle : S → Bytes → S × HandshakeStep)

/-- The messages read, and the reader if the session records; at most `fuel` messages. -/
def runRtspHandshake : ℕ → S → σ → List Bytes × Option σ
  | 0, _, _ => ([], none)
  | fuel + 1, session, reader =>
    match readMessage reader with
    | .error _ => ([], none)
    | .ok (data, reader) =>
      match handle session data with
      | (session, .next) =>
        let (messages, outcome) := runRtspHandshake fuel session reader
        (data :: messages, outcome)
      | (_, .recording) => ([data], some reader)
      | (_, .aborted) | (_, .teardown) => ([data], none)

end Reader

/-- The input side of `handle_connection`: the handshake, then `next_item` on a reader made of the unwrapped
socket; at most `n` items. -/
def ingest {S : Type} (handle : S → Bytes → S × HandshakeStep) (fuel n : ℕ) (session : S) (socket : Socket UInt8) :
    List Bytes × Option (List RtpReadItem) :=
  let (messages, outcome) := runRtspHandshake handle fuel session (newBufReader socket)
  (messages, outcome.map fun reader => (readItems n (RtpInterleavedReader.new reader.inner)).1)

end LivestreamRs.Rtsp
