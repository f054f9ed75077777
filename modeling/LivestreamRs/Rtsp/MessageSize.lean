import LivestreamRs.Rtsp.Segmentation

/-! # How long an RTSP message can be

`MAX_RTSP_MESSAGE_SIZE` is documented as a bound on headers and body together. `read_message` holds against it what was
read up to the end of the headers, and on its own the length declared for the body, but never their sum.
-/
namespace LivestreamRs.Rtsp
open Foundations Media
set_option autoImplicit false

theorem extractContentLength_le {headers : Bytes} {len : ℕ} (h : extractContentLength headers = some len) :
    len ≤ maxRtspMessageSize := by
  simp only [extractContentLength] at h
  split at h
  · cases h
  · next hle =>
    obtain rfl := Option.some.inj h
    exact Nat.not_lt.mp hle

section Reader
variable {σ : Type} [InputStream σ UInt8]

theorem readBodyUntil_covers {fuel total : ℕ} {buf whole : Bytes} {reader reader' : σ}
    (hfuel : total ≤ buf.length + fuel) (hread : readBodyUntil fuel buf total reader = .ok (whole, reader')) :
    buf <+: whole ∧ total ≤ whole.length := by
  induction fuel generalizing buf reader with
  | zero =>
    obtain ⟨rfl, rfl⟩ := Prod.mk.inj (Except.ok.inj hread)
    exact ⟨List.prefix_rfl, hfuel⟩
  | succ fuel ih =>
    obtain ⟨hdone, rfl, -⟩ | ⟨piece, r, -, hne, hrest⟩ := readBodyUntil_cases hread
    · exact ⟨List.prefix_rfl, hdone⟩
    · have hpos := List.length_pos_iff.mpr hne
      obtain ⟨hbuf, htotal⟩ := ih (by rw [List.length_append]; omega) hrest
      exact ⟨(List.prefix_append buf piece).trans hbuf, htotal⟩

/-- The first message of the bytes a client sends: where its headers end, and the length they declare for the body. -/
structure DeclaredMessage (bytes : Bytes) (pos len : ℕ) : Prop where
  headers : findHeaderEnd bytes = some pos
  declared : extractContentLength (bytes.take pos) = some len

theorem DeclaredMessage.append {buf : Bytes} {pos len : ℕ} (h : DeclaredMessage buf pos len) (more : Bytes) :
    DeclaredMessage (buf ++ more) pos len := by
  have hlong := findHeaderEnd_length h.headers
  refine ⟨findHeaderEnd_append more h.headers, ?_⟩
  rw [List.take_append_of_le_length (by omega)]
  exact h.declared

theorem DeclaredMessage.unique {bytes : Bytes} {pos len pos' len' : ℕ} (h : DeclaredMessage bytes pos len)
    (h' : DeclaredMessage bytes pos' len') : pos = pos' ∧ len = len' := by
  obtain rfl := Option.some.inj (h.headers.symm.trans h'.headers)
  exact ⟨rfl, Option.some.inj (h.declared.symm.trans h'.declared)⟩

/-- What is returned is the first message of the bytes that were read and are to come. -/
theorem readMessageLoop_declared {fuel : ℕ} {buf message : Bytes} {reader reader' : σ}
    (hread : readMessageLoop fuel buf reader = .ok (message, reader')) :
    ∃ pos len, DeclaredMessage (buf ++ contents reader) pos len ∧ message.length = pos + 4 + len ∧
      pos + 4 ≤ maxRtspMessageSize := by
  induction fuel generalizing buf reader with
  | zero => cases hread
  | succ fuel ih =>
    obtain ⟨piece, r, hpiece, -, hsize, hrest⟩ := readMessageLoop_cases hread
    obtain ⟨rfl, rfl⟩ : (read 4096 reader).1 = piece ∧ (read 4096 reader).2 = r := Prod.mk.inj (Except.ok.inj hpiece)
    have hbytes : buf ++ contents reader = buf ++ (read 4096 reader).1 ++ contents (read 4096 reader).2 := by
      rw [List.append_assoc, InputStream.read_append]
    rw [hbytes]
    obtain hrest | ⟨pos, len, whole, hfound, hdeclared, hbody, rfl⟩ := hrest
    · exact ih hrest
    · obtain ⟨-, htotal⟩ := readBodyUntil_covers (by omega) hbody
      refine ⟨pos, len, DeclaredMessage.append ⟨hfound, hdeclared⟩ _, ?_, (findHeaderEnd_length hfound).trans hsize⟩
      rw [List.length_take]
      omega

end Reader

/-- Headers in one read and their body in the reads that follow. -/
theorem readMessage_of_head {reader : BufReader (Socket UInt8) UInt8} {head : Bytes} {body : List Bytes} {pos len : ℕ}
    (h : Aligned reader (head :: body)) (hfound : findHeaderEnd head = some pos)
    (hdeclared : extractContentLength (head.take pos) = some len) (hhead : head.length = pos + 4)
    (hbody : body.flatten.length = len) :
    ∃ reader', readMessage reader = .ok (head ++ body.flatten, reader') := by
  have hne : head ≠ [] := h.ne_nil head List.mem_cons_self
  have hsize : head.length ≤ maxRtspMessageSize :=
    (h.length_le head List.mem_cons_self).trans (by decide)
  obtain ⟨r, hpiece, hr⟩ := h.readPiece_cons
  rw [← List.append_nil body] at hr
  obtain ⟨reader', hreads, -⟩ := hr.reads
  have hrest := readBodyUntil_complete hreads (pos + 4 + len - head.length) head (by omega)
  have htotal : (head ++ body.flatten).length = pos + 4 + len := by rw [List.length_append, hhead, hbody]
  rw [htotal] at hrest
  refine ⟨reader', ?_⟩
  rw [readMessage, readMessageLoop, bind_of_ok hpiece, if_neg (by simpa using hne),
    if_neg (by rw [List.length_nil]; omega), List.nil_append, hfound]
  simp only [hdeclared]
  rw [bind_of_ok hrest, ← htotal, List.take_length]
  rfl

/-- A message keeps the documented bound exactly when, in the bytes the client sends, the headers and the body they declare
do together, and otherwise it has at most twice as many bytes. -/
theorem readMessage_length_le_iff {σ : Type} [InputStream σ UInt8] {reader reader' : σ} {message : Bytes}
    (hread : readMessage reader = .ok (message, reader')) :
    (message.length ≤ maxRtspMessageSize ↔
      ∃ pos len, DeclaredMessage (contents reader) pos len ∧ pos + 4 + len ≤ maxRtspMessageSize) ∧
    message.length ≤ 2 * maxRtspMessageSize := by
  obtain ⟨pos, len, hparts, hlength, hheaders⟩ := readMessageLoop_declared hread
  have hlen := extractContentLength_le hparts.declared
  refine ⟨⟨fun hle => ⟨pos, len, hparts, hlength ▸ hle⟩, ?_⟩, by omega⟩
  rintro ⟨pos', len', hparts', hle⟩
  obtain ⟨rfl, rfl⟩ := hparts.unique hparts'
  exact hlength ▸ hle

theorem readMessage_length_le_of_record :
    ∃ reader', readMessage (newBufReader (⟨[recordRequest], by decide⟩ : Socket UInt8)) =
      .ok (recordRequest, reader') ∧ recordRequest.length ≤ maxRtspMessageSize := by
  have haligned : Aligned (newBufReader (⟨[recordRequest], by decide⟩ : Socket UInt8)) [recordRequest] :=
    ⟨rfl, rfl, rfl, by decide⟩
  have hheaders : findHeaderEnd recordRequest = some 17 := by decide
  have hdeclared : extractContentLength (recordRequest.take 17) = some 0 := by decide +kernel
  obtain ⟨reader', hread⟩ := readMessage_of_head haligned hheaders hdeclared (by decide) rfl
  rw [List.flatten_nil, List.append_nil] at hread
  exact ⟨reader', hread, (readMessage_length_le_iff hread).1.mpr ⟨17, 0, ⟨hheaders, hdeclared⟩, by decide⟩⟩

/-! ## A body as long as the bound -/

def announceHead : Bytes := "ANNOUNCE * RTSP/1.0\r\nContent-Length: 65536\r\n\r\n".toUTF8.toList

/-- The headers in one read and a body of 64 KiB in sixteen. -/
def announceReads : List Bytes := announceHead :: List.replicate 16 (List.replicate 4096 0)

theorem announceReads_ne_nil : ∀ c ∈ announceReads, c ≠ [] := by
  intro c hc
  obtain rfl | hc := List.mem_cons.mp hc
  · decide +kernel
  · rw [List.eq_of_mem_replicate hc, ne_eq, List.replicate_eq_nil_iff]
    decide

theorem readMessage_exceeds_bound :
    ∃ message reader', readMessage (newBufReader (⟨announceReads, announceReads_ne_nil⟩ : Socket UInt8)) =
      .ok (message, reader') ∧ maxRtspMessageSize < message.length := by
  have hlength : (List.replicate 16 (List.replicate 4096 (0 : UInt8))).flatten.length = 65536 := by
    rw [List.length_flatten, List.map_replicate, List.sum_replicate, List.length_replicate]
    rfl
  have haligned : Aligned (newBufReader (⟨announceReads, announceReads_ne_nil⟩ : Socket UInt8)) announceReads := by
    refine ⟨rfl, rfl, rfl, fun c hc => ?_⟩
    obtain rfl | hc := List.mem_cons.mp hc
    · decide +kernel
    · rw [List.eq_of_mem_replicate hc, List.length_replicate]
  obtain ⟨reader', hread⟩ := readMessage_of_head haligned (by decide +kernel : _ = some 42)
    (by decide +kernel : _ = some 65536) (by decide +kernel) hlength
  refine ⟨_, reader', hread, ?_⟩
  rw [List.length_append, hlength]
  decide +kernel

end LivestreamRs.Rtsp
