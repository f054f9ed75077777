import LivestreamRs.Foundations.BigEndian
import LivestreamRs.Foundations.InputStream
import LivestreamRs.Rtsp.Headers

/-! # The reader of the record phase

`RtpInterleavedReader` of `livestream-transport/src/rtsp/rtp.rs`. Interleaved frames, in-band requests and stray
bytes share one stream; the first byte and a bounded scan for a request line tell them apart.
-/
namespace LivestreamRs.Rtsp
open Foundations Media BigEndian
set_option autoImplicit false

def maxInbandRequestSize : ℕ := 64 * 1024

def maxRequestLineSize : ℕ := 4096

inductive RtpReadItem
  | interleaved (channel : UInt8) (payload : Bytes)
  | rtspRequest (request : Bytes)
  | stray (bytes : Bytes)
  deriving DecidableEq

inductive LineRead
  | request (line : Bytes)
  | stray (bytes : Bytes)

inductive RtpReadFailure
  -- "RTSP in-band request exceeds 65536 bytes"
  | requestTooLarge
  -- "RTSP in-band request body exceeds 65536 bytes"
  | bodyTooLarge
  deriving DecidableEq

/-- `b"\r\n\r\n"` -/
def crlfCrlf : Bytes := [0x0D, 0x0A, 0x0D, 0x0A]

section Reader
variable {σ : Type} [InputStream σ UInt8]

/-- The `while` loop of `read_request_line`, with the room `bytes` has left. -/
def readRequestLineFrom : ℕ → Bytes → Reader RtpReadFailure σ LineRead
  | 0, bytes => pure (.stray bytes)
  | room + 1, bytes => do
    let b ← readOne
    if b ≠ 0x0A then readRequestLineFrom room (bytes ++ [b])
    else if isRtspRequestLine (bytes ++ [b]) then pure (.request (bytes ++ [b]))
    else pure (.stray (bytes ++ [b]))

def readRequestLine (first : UInt8) : Reader RtpReadFailure σ LineRead :=
  readRequestLineFrom (maxRequestLineSize - 1) [first]

def readFramePayload : Reader RtpReadFailure σ Bytes := do
  let len ← readExact 2
  readExact (fromBe len)

/-- The `while` loop of `read_request`, with the room `request` has left. -/
def readHeadersFrom : ℕ → Bytes → Reader RtpReadFailure σ Bytes
  | 0, request => if crlfCrlf.isSuffixOf request then pure request else throw (.failed .requestTooLarge)
  | room + 1, request =>
    if crlfCrlf.isSuffixOf request then pure request
    else do
      let b ← readOne
      readHeadersFrom room (request ++ [b])

def readRequest (line : Bytes) : Reader RtpReadFailure σ Bytes := do
  let request ← readHeadersFrom (maxInbandRequestSize - line.length) line
  match contentLength request with
  | some len =>
    if maxInbandRequestSize < request.length + len then throw (.failed .bodyTooLarge)
    else
      let body ← readExact len
      pure (request ++ body)
  | none => pure request

def nextItem : Reader RtpReadFailure σ RtpReadItem := do
  let first ← readOne
  if first = 0x24 then
    let channel ← readOne
    let payload ← readFramePayload
    pure (.interleaved channel payload)
  else
    match ← readRequestLine first with
    | .request line =>
      let request ← readRequest line
      pure (.rtspRequest request)
    | .stray bytes => pure (.stray bytes)

/-- Successive calls of `next_item`, up to the first error. -/
def readItems : ℕ → σ → List RtpReadItem × Option (ReadError RtpReadFailure)
  | 0, _ => ([], none)
  | n + 1, s =>
    match nextItem s with
    | .error e => ([], some e)
    | .ok (item, s) => (item :: (readItems n s).1, (readItems n s).2)

end Reader

/-- `BufReader::new`, with tokio's default capacity. -/
def newBufReader {R : Type} (reader : R) : BufReader R UInt8 where
  capacity := 8 * 1024
  capacity_pos := by decide
  buffer := []
  inner := reader

abbrev RtpInterleavedReader (R : Type) := BufReader R UInt8

def RtpInterleavedReader.new {R : Type} (reader : R) : RtpInterleavedReader R := newBufReader reader

/-! ## The bytes of the stream are all that matters -/

section Simulation
variable {σ : Type} [InputStream σ UInt8]

theorem simulates_readRequestLineFrom (room : ℕ) (bytes : Bytes) :
    Simulates (readRequestLineFrom room bytes : Reader RtpReadFailure σ LineRead) (readRequestLineFrom room bytes) := by
  induction room generalizing bytes with
  | zero => exact simulates_pure _
  | succ room ih =>
    refine simulates_readOne.bind fun b => ?_
    split
    · exact ih _
    · split <;> exact simulates_pure _

theorem simulates_readHeadersFrom (room : ℕ) (request : Bytes) :
    Simulates (readHeadersFrom room request : Reader RtpReadFailure σ Bytes) (readHeadersFrom room request) := by
  induction room generalizing request with
  | zero =>
    unfold readHeadersFrom
    split
    · exact simulates_pure _
    · exact simulates_throw _
  | succ room ih =>
    unfold readHeadersFrom
    split
    · exact simulates_pure _
    · exact simulates_readOne.bind fun b => ih _

theorem simulates_readRequest (line : Bytes) :
    Simulates (readRequest line : Reader RtpReadFailure σ Bytes) (readRequest line) := by
  refine (simulates_readHeadersFrom _ _).bind fun request => ?_
  split
  · split
    · exact simulates_throw _
    · exact (simulates_readExact _).bind fun body => simulates_pure _
  · exact simulates_pure _

theorem simulates_nextItem : Simulates (nextItem : Reader RtpReadFailure σ RtpReadItem) nextItem := by
  refine simulates_readOne.bind fun first => ?_
  split
  · refine simulates_readOne.bind fun channel => ?_
    refine ((simulates_readExact 2).bind fun len => simulates_readExact _).bind fun payload => ?_
    exact simulates_pure _
  · refine (simulates_readRequestLineFrom _ _).bind fun line => ?_
    cases line with
    | request line => exact (simulates_readRequest line).bind fun request => simulates_pure _
    | stray bytes => exact simulates_pure _

theorem readItems_eq (n : ℕ) (s : σ) : readItems n s = readItems n (contents s) := by
  induction n generalizing s with
  | zero => rfl
  | succ n ih =>
    have h := simulates_nextItem s
    cases hs : nextItem s with
    | error e =>
      rw [hs] at h
      simp only [readItems, hs, ← h, observed, Except.map]
    | ok r =>
      rw [hs] at h
      simp only [readItems, hs, ← h, observed, Except.map, ih]

end Simulation

/-! ## What is read is taken off the stream -/

def RtpReadItem.serialize : RtpReadItem → Bytes
  | .interleaved channel payload => 0x24 :: channel :: toBe 2 payload.length ++ payload
  | .rtspRequest bytes | .stray bytes => bytes

def RtpReadItem.bounded : RtpReadItem → Prop
  | .interleaved _ payload => payload.length ≤ 65535
  | .rtspRequest request => request.length ≤ maxInbandRequestSize
  | .stray bytes => bytes.length ≤ maxRequestLineSize

def LineRead.bytes : LineRead → Bytes
  | .request bytes | .stray bytes => bytes

/-- Only a request line is taken for one. -/
def LineRead.recognized : LineRead → Prop
  | .request line => isRtspRequestLine line = true
  | .stray _ => True

/-- A request starts with a request line, and stray bytes do not start as a frame does. -/
def RtpReadItem.recognized : RtpReadItem → Prop
  | .interleaved _ _ => True
  | .rtspRequest request => ∃ line, line <+: request ∧ isRtspRequestLine line = true
  | .stray bytes => bytes.head? ≠ some 0x24

theorem readRequestLineFrom_eq_ok {room : ℕ} {bytes input rest : Bytes} {line : LineRead}
    (h : (readRequestLineFrom room bytes : Reader RtpReadFailure Bytes LineRead) input = .ok (line, rest)) :
    ∃ used, input = used ++ rest ∧ line.bytes = bytes ++ used ∧ used.length ≤ room ∧ line.recognized := by
  induction room generalizing bytes input with
  | zero =>
    obtain ⟨rfl, rfl⟩ := Prod.mk.inj (Except.ok.inj h)
    exact ⟨[], rfl, by simp [LineRead.bytes], le_rfl, trivial⟩
  | succ room ih =>
    obtain ⟨b, more, hb, hline⟩ := bind_eq_ok.mp h
    obtain rfl := readOne_eq_ok hb
    split at hline
    · obtain ⟨used, rfl, hbytes, hlength, hrecognized⟩ := ih hline
      exact ⟨b :: used, rfl, by simpa using hbytes, by simpa using hlength, hrecognized⟩
    · refine ⟨[b], ?_⟩
      split at hline
      · next haccepted =>
        obtain ⟨rfl, rfl⟩ := Prod.mk.inj (Except.ok.inj hline)
        exact ⟨rfl, rfl, by simp, haccepted⟩
      · obtain ⟨rfl, rfl⟩ := Prod.mk.inj (Except.ok.inj hline)
        exact ⟨rfl, rfl, by simp, trivial⟩

theorem readHeadersFrom_eq_ok {room : ℕ} {request head input rest : Bytes}
    (h : (readHeadersFrom room request : Reader RtpReadFailure Bytes Bytes) input = .ok (head, rest)) :
    ∃ used, input = used ++ rest ∧ head = request ++ used ∧ used.length ≤ room := by
  induction room generalizing request input with
  | zero =>
    unfold readHeadersFrom at h
    split at h
    · obtain ⟨rfl, rfl⟩ := Prod.mk.inj (Except.ok.inj h)
      exact ⟨[], rfl, by simp, le_rfl⟩
    · cases h
  | succ room ih =>
    unfold readHeadersFrom at h
    split at h
    · obtain ⟨rfl, rfl⟩ := Prod.mk.inj (Except.ok.inj h)
      exact ⟨[], rfl, by simp, Nat.zero_le _⟩
    · obtain ⟨b, more, hb, hhead⟩ := bind_eq_ok.mp h
      obtain rfl := readOne_eq_ok hb
      obtain ⟨used, rfl, hbytes, hlength⟩ := ih hhead
      exact ⟨b :: used, rfl, by simpa using hbytes, by simpa using hlength⟩

theorem readRequest_eq_ok {line request input rest : Bytes} (hline : line.length ≤ maxInbandRequestSize)
    (h : (readRequest line : Reader RtpReadFailure Bytes Bytes) input = .ok (request, rest)) :
    ∃ used, input = used ++ rest ∧ request = line ++ used ∧ request.length ≤ maxInbandRequestSize := by
  obtain ⟨head, more, hhead, hbody⟩ := bind_eq_ok.mp h
  obtain ⟨used, rfl, rfl, hlength⟩ := readHeadersFrom_eq_ok hhead
  have hhead : (line ++ used).length ≤ maxInbandRequestSize := by
    rw [List.length_append]
    omega
  cases hlen : contentLength (line ++ used) with
  | none =>
    rw [hlen] at hbody
    obtain ⟨rfl, rfl⟩ := Prod.mk.inj (Except.ok.inj hbody)
    exact ⟨used, rfl, rfl, hhead⟩
  | some len =>
    simp only [hlen] at hbody
    split at hbody
    · cases hbody
    · next hfits =>
      obtain ⟨body, more', hread, hpure⟩ := bind_eq_ok.mp hbody
      obtain ⟨rfl, rfl⟩ := Prod.mk.inj (Except.ok.inj hpure)
      obtain ⟨rfl, rfl⟩ := readExact_eq_ok hread
      refine ⟨used ++ body, by simp, by simp, ?_⟩
      rw [List.length_append]
      exact Nat.not_lt.mp hfits

theorem readFramePayload_eq_ok {input rest payload : Bytes}
    (h : (readFramePayload : Reader RtpReadFailure Bytes Bytes) input = .ok (payload, rest)) :
    input = toBe 2 payload.length ++ payload ++ rest ∧ payload.length ≤ 65535 := by
  obtain ⟨len, more, hlen, hpayload⟩ := bind_eq_ok.mp h
  obtain ⟨rfl, hwidth⟩ := readExact_eq_ok hlen
  obtain ⟨rfl, hlength⟩ := readExact_eq_ok hpayload
  have hlt := fromBe_lt len
  have hword := toBe_fromBe len
  rw [hwidth] at hlt hword
  rw [hlength, hword]
  exact ⟨by simp, by omega⟩

theorem nextItem_eq_ok {input rest : Bytes} {item : RtpReadItem}
    (h : (nextItem : Reader RtpReadFailure Bytes RtpReadItem) input = .ok (item, rest)) :
    item.serialize ++ rest = input ∧ item.serialize ≠ [] ∧ item.bounded ∧ item.recognized := by
  obtain ⟨first, more, hfirst, hitem⟩ := bind_eq_ok.mp h
  obtain rfl := readOne_eq_ok hfirst
  split at hitem
  · next hdollar =>
    obtain ⟨channel, more', hchannel, hframe⟩ := bind_eq_ok.mp hitem
    obtain rfl := readOne_eq_ok hchannel
    obtain ⟨payload, more'', hpayload, hpure⟩ := bind_eq_ok.mp hframe
    obtain ⟨rfl, rfl⟩ := Prod.mk.inj (Except.ok.inj hpure)
    obtain ⟨rfl, hbound⟩ := readFramePayload_eq_ok hpayload
    exact ⟨by simp [RtpReadItem.serialize, hdollar], by simp [RtpReadItem.serialize], hbound, trivial⟩
  · next hdollar =>
    obtain ⟨line, more', hline, hkind⟩ := bind_eq_ok.mp hitem
    obtain ⟨used, rfl, hbytes, hlength, hrecognized⟩ := readRequestLineFrom_eq_ok hline
    have hbound : line.bytes.length ≤ maxRequestLineSize := by
      rw [hbytes, List.length_append, List.length_singleton]
      unfold maxRequestLineSize at hlength ⊢
      omega
    cases line with
    | request line =>
      obtain rfl : line = [first] ++ used := hbytes
      obtain ⟨request, more'', hrequest, hpure⟩ := bind_eq_ok.mp hkind
      obtain ⟨rfl, rfl⟩ := Prod.mk.inj (Except.ok.inj hpure)
      obtain ⟨body, rfl, rfl, hsize⟩ := readRequest_eq_ok (hbound.trans (by decide)) hrequest
      exact ⟨by simp [RtpReadItem.serialize, LineRead.bytes], by simp [RtpReadItem.serialize, LineRead.bytes], hsize,
        _, List.prefix_append _ _, hrecognized⟩
    | stray bytes =>
      obtain rfl : bytes = [first] ++ used := hbytes
      obtain ⟨rfl, rfl⟩ := Prod.mk.inj (Except.ok.inj hkind)
      exact ⟨by simp [RtpReadItem.serialize], by simp [RtpReadItem.serialize], hbound, by
        simpa [RtpReadItem.recognized] using hdollar⟩

theorem readItems_serialize (n : ℕ) (input : Bytes) :
    (readItems n input).1.flatMap RtpReadItem.serialize <+: input ∧
      ∀ item ∈ (readItems n input).1, item.serialize ≠ [] ∧ item.bounded ∧ item.recognized := by
  induction n generalizing input with
  | zero => simp [readItems]
  | succ n ih =>
    simp only [readItems]
    split
    · simp
    · next item rest hnext =>
      obtain ⟨rfl, hitem⟩ := nextItem_eq_ok hnext
      obtain ⟨hserialize, hitems⟩ := ih rest
      refine ⟨?_, List.forall_mem_cons.mpr ⟨hitem, hitems⟩⟩
      rw [List.flatMap_cons]
      exact (List.prefix_append_right_inj _).mpr hserialize

/-! ## What is written is read back -/

/-- A request as the record phase takes it: a request line up to the first line feed, a head that ends with
the first empty line, and a body of the declared length. -/
structure WellFormedRequest (request : Bytes) : Prop where
  parts : ∃ line headers body, request = line ++ headers ++ body ∧ isRtspRequestLine line = true ∧
    line.length ≤ maxRequestLineSize ∧ (∃ text, line = text ++ [0x0A] ∧ 0x0A ∉ text) ∧
    crlfCrlf <:+ line ++ headers ∧ (∀ part, part <+: line ++ headers → crlfCrlf <:+ part → part = line ++ headers) ∧
    body.length = (contentLength (line ++ headers)).getD 0
  size : request.length ≤ maxInbandRequestSize

def RtpReadItem.wellFormed : RtpReadItem → Prop
  | .interleaved _ payload => payload.length ≤ 65535
  | .rtspRequest request => WellFormedRequest request
  | .stray _ => False

theorem readRequestLineFrom_complete (room : ℕ) (bytes text rest : Bytes) (htext : 0x0A ∉ text)
    (hline : isRtspRequestLine (bytes ++ text ++ [0x0A]) = true) (hroom : text.length < room) :
    (readRequestLineFrom room bytes : Reader RtpReadFailure Bytes LineRead) (text ++ 0x0A :: rest) =
      .ok (.request (bytes ++ text ++ [0x0A]), rest) := by
  induction text generalizing room bytes with
  | nil =>
    obtain ⟨room, rfl⟩ := Nat.exists_eq_succ_of_ne_zero hroom.ne'
    rw [List.append_nil] at hline ⊢
    rw [List.nil_append, readRequestLineFrom, bind_of_ok (readOne_cons _ _), if_neg (by simp), if_pos hline]
    rfl
  | cons b text ih =>
    obtain ⟨room, rfl⟩ := Nat.exists_eq_succ_of_ne_zero (Nat.ne_zero_of_lt hroom)
    rw [List.mem_cons, not_or] at htext
    have hmore := ih room (bytes ++ [b]) htext.2 (by simpa using hline) (Nat.lt_of_succ_lt_succ hroom)
    rw [List.cons_append, readRequestLineFrom, bind_of_ok (readOne_cons _ _), if_pos (Ne.symm htext.1), hmore]
    simp

theorem readHeadersFrom_complete (room : ℕ) (request more rest : Bytes) (hend : crlfCrlf <:+ request ++ more)
    (hfirst : ∀ part, part <+: request ++ more → crlfCrlf <:+ part → part = request ++ more)
    (hroom : more.length ≤ room) :
    (readHeadersFrom room request : Reader RtpReadFailure Bytes Bytes) (more ++ rest) = .ok (request ++ more, rest) := by
  induction more generalizing room request with
  | nil =>
    rw [List.append_nil] at hend ⊢
    have hsuffix : crlfCrlf.isSuffixOf request = true := List.isSuffixOf_iff_suffix.mpr hend
    cases room <;> rw [readHeadersFrom, if_pos hsuffix] <;> rfl
  | cons b more ih =>
    obtain ⟨room, rfl⟩ := Nat.exists_eq_succ_of_ne_zero (Nat.ne_zero_of_lt hroom)
    have hopen : ¬ crlfCrlf.isSuffixOf request = true := by
      intro h
      have := hfirst request (List.prefix_append _ _) (List.isSuffixOf_iff_suffix.mp h)
      simp at this
    have hassoc : request ++ [b] ++ more = request ++ b :: more := by simp
    have hmore := ih room (request ++ [b]) (by rwa [hassoc]) (by rwa [hassoc]) (Nat.le_of_succ_le_succ hroom)
    rw [List.cons_append, readHeadersFrom, if_neg hopen, bind_of_ok (readOne_cons _ _), hmore, hassoc]

theorem readRequest_complete (line headers body rest : Bytes) (hend : crlfCrlf <:+ line ++ headers)
    (hfirst : ∀ part, part <+: line ++ headers → crlfCrlf <:+ part → part = line ++ headers)
    (hbody : body.length = (contentLength (line ++ headers)).getD 0)
    (hsize : (line ++ headers ++ body).length ≤ maxInbandRequestSize) :
    (readRequest line : Reader RtpReadFailure Bytes Bytes) (headers ++ (body ++ rest)) =
      .ok (line ++ headers ++ body, rest) := by
  rw [List.length_append] at hsize
  have hroom : headers.length ≤ maxInbandRequestSize - line.length := by
    rw [List.length_append] at hsize
    omega
  rw [readRequest, bind_of_ok (readHeadersFrom_complete _ line headers _ hend hfirst hroom)]
  cases hlen : contentLength (line ++ headers) with
  | none =>
    rw [hlen] at hbody
    obtain rfl := List.length_eq_zero_iff.mp hbody
    rw [List.append_nil]
    rfl
  | some len =>
    rw [hlen] at hbody
    obtain rfl : body.length = len := hbody
    simp only [Nat.not_lt.mpr hsize, if_false]
    rw [bind_of_ok (readExact_append body rest)]
    rfl

theorem stripSuffix_initial (line : Bytes) (b : UInt8) : stripSuffix line b <+: line := by
  unfold stripSuffix
  split
  · exact List.dropLast_prefix line
  · exact List.prefix_refl line

/-- A request line starts with a byte of its method. -/
theorem isRtspRequestLine_head {line : Bytes} (h : isRtspRequestLine line = true) :
    ∃ first rest, line = first :: rest ∧ isMethodByte first = true := by
  simp only [isRtspRequestLine] at h
  split at h
  · next method uri version hparts =>
    simp only [Bool.and_eq_true, List.all_eq_true] at h
    obtain ⟨⟨⟨hne, -⟩, hmethod⟩, -⟩ := h
    cases method with
    | nil => cases hne
    | cons first method =>
      have hjoin := congrArg (List.intercalate [0x20]) hparts
      rw [List.intercalate_splitOn] at hjoin
      have hprefix := (stripSuffix_initial (stripSuffix line 0x0A) 0x0D).trans (stripSuffix_initial line 0x0A)
      rw [hjoin] at hprefix
      obtain ⟨rest, hrest⟩ := hprefix
      exact ⟨first, _, hrest.symm, hmethod first List.mem_cons_self⟩
  · cases h

theorem nextItem_complete (item : RtpReadItem) (h : item.wellFormed) (rest : Bytes) :
    (nextItem : Reader RtpReadFailure Bytes RtpReadItem) (item.serialize ++ rest) = .ok (item, rest) := by
  cases item with
  | stray bytes => exact h.elim
  | interleaved channel payload =>
    have hlen : fromBe (toBe 2 payload.length) = payload.length := fromBe_toBe (by
      simp only [RtpReadItem.wellFormed] at h
      omega)
    have hpayload : (readFramePayload : Reader RtpReadFailure Bytes Bytes)
        (toBe 2 payload.length ++ (payload ++ rest)) = .ok (payload, rest) := by
      have hread : (readExact (toBe 2 payload.length).length : Reader RtpReadFailure Bytes Bytes) _ = _ :=
        readExact_append (toBe 2 payload.length) (payload ++ rest)
      rw [toBe_length] at hread
      rw [readFramePayload, bind_of_ok hread, hlen, readExact_append]
    simp only [RtpReadItem.serialize, List.cons_append, List.append_assoc]
    rw [nextItem, bind_of_ok (readOne_cons _ _), if_pos rfl, bind_of_ok (readOne_cons _ _), bind_of_ok hpayload]
    rfl
  | rtspRequest request =>
    obtain ⟨⟨line, headers, body, rfl, hline, hshort, ⟨text, rfl, htext⟩, hend, hfirst, hbody⟩, hsize⟩ := h
    obtain ⟨first, more, hhead, hmethod⟩ := isRtspRequestLine_head hline
    have hdollar : first ≠ 0x24 := by
      rintro rfl
      exact absurd hmethod (by decide)
    cases text with
    | nil => exact absurd hline (by decide)
    | cons b text =>
      obtain rfl : b = first := (List.cons.inj hhead).1
      rw [List.mem_cons, not_or] at htext
      have hread : (readRequestLine b : Reader RtpReadFailure Bytes LineRead)
          (text ++ 0x0A :: (headers ++ (body ++ rest))) = .ok (.request (b :: text ++ [0x0A]), _) :=
        readRequestLineFrom_complete _ [b] text _ htext.2 hline (by
          simp only [List.length_append, List.length_cons, List.length_nil] at hshort
          omega)
      have hrequest := readRequest_complete (b :: text ++ [0x0A]) headers body rest hend hfirst hbody hsize
      simp only [RtpReadItem.serialize, List.cons_append, List.append_assoc, List.nil_append] at hrequest hread ⊢
      rw [nextItem, bind_of_ok (readOne_cons _ _), if_neg hdollar, bind_of_ok hread]
      simp only
      rw [bind_of_ok hrequest]
      rfl

theorem readItems_complete (items : List RtpReadItem) (hitems : ∀ item ∈ items, item.wellFormed) (n : ℕ)
    (hn : items.length < n) : readItems n (items.flatMap RtpReadItem.serialize) = (items, some .eof) := by
  induction items generalizing n with
  | nil =>
    obtain ⟨n, rfl⟩ := Nat.exists_eq_succ_of_ne_zero hn.ne'
    have heof : (nextItem : Reader RtpReadFailure Bytes RtpReadItem) [] = .error .eof := by
      rw [nextItem, bind_apply, readOne_nil]
      rfl
    simp only [List.flatMap_nil, readItems, heof]
  | cons item items ih =>
    obtain ⟨n, rfl⟩ := Nat.exists_eq_succ_of_ne_zero (Nat.ne_zero_of_lt hn)
    rw [List.forall_mem_cons] at hitems
    have hrest := ih hitems.2 n (Nat.lt_of_succ_lt_succ hn)
    simp only [List.flatMap_cons, readItems, nextItem_complete item hitems.1, hrest]

/-- Well-formed items are read back from their serialization, and what is read from any stream serializes to a
prefix of it, in items that are not empty and within their bounds. -/
theorem record_phase_exact {R : Type} [InputStream R UInt8] (reader : RtpInterleavedReader R) :
    (∀ items : List RtpReadItem, (∀ item ∈ items, item.wellFormed) →
      contents reader = items.flatMap RtpReadItem.serialize →
      ∀ n, items.length < n → readItems n reader = (items, some .eof)) ∧
    ∀ n, (readItems n reader).1.flatMap RtpReadItem.serialize <+: contents reader ∧
      ∀ item ∈ (readItems n reader).1, item.serialize ≠ [] ∧ item.bounded := by
  refine ⟨fun items hitems hcontents n hn => ?_, fun n => ?_⟩
  · rw [readItems_eq, hcontents]
    exact readItems_complete items hitems n hn
  · obtain ⟨hserialize, hitems⟩ := readItems_serialize n (contents reader)
    rw [readItems_eq]
    exact ⟨hserialize, fun item hitem => ⟨(hitems item hitem).1, (hitems item hitem).2.1⟩⟩

/-- `OPTIONS * RTSP/1.0` -/
def optionsLine : Bytes :=
  [0x4F, 0x50, 0x54, 0x49, 0x4F, 0x4E, 0x53, 0x20, 0x2A, 0x20, 0x52, 0x54, 0x53, 0x50, 0x2F, 0x31, 0x2E, 0x30, 0x0D,
    0x0A]

/-- An in-band request without headers, then a frame. -/
def sampleItems : List RtpReadItem := [.rtspRequest (optionsLine ++ [0x0D, 0x0A] ++ []), .interleaved 1 [0xAA, 0xBB]]

theorem record_phase_exact_sample :
    readItems 3 (RtpInterleavedReader.new (sampleItems.flatMap RtpReadItem.serialize)) = (sampleItems, some .eof) := by
  have hparts : ∀ part ∈ (optionsLine ++ [0x0D, 0x0A]).inits, crlfCrlf <:+ part →
      part = optionsLine ++ [0x0D, 0x0A] := by
    decide
  have hrequest : WellFormedRequest (optionsLine ++ [0x0D, 0x0A] ++ []) :=
    ⟨⟨optionsLine, [0x0D, 0x0A], [], rfl, by decide, by decide, ⟨optionsLine.dropLast, by decide, by decide⟩,
      by decide, fun part hpart => hparts part ((List.mem_inits _ _).mpr hpart), by decide +kernel⟩, by decide⟩
  have hframe : (RtpReadItem.interleaved 1 [0xAA, 0xBB]).wellFormed := Nat.le_of_ble_eq_true rfl
  refine (record_phase_exact _).1 sampleItems ?_ rfl 3 (by decide)
  rw [sampleItems, List.forall_mem_cons, List.forall_mem_singleton]
  exact ⟨hrequest, hframe⟩

end LivestreamRs.Rtsp
