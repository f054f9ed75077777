import LivestreamRs.Rtsp.MessageReader

/-! # RTSP input and the reads it arrives in

`read_message` starts with an empty buffer and drops what a read returned beyond the message. So the handshake
and the record phase see the whole stream exactly when every message ends where a read ends.
-/
namespace LivestreamRs.Rtsp
open Foundations Media
set_option autoImplicit false

/-! ## Reads of the handshake -/

/-- A reader with nothing in its buffer, whose socket holds these chunks, each no longer than a read. -/
structure Aligned (reader : BufReader (Socket UInt8) UInt8) (chunks : List Bytes) : Prop where
  capacity : reader.capacity = 8 * 1024
  buffer : reader.buffer = []
  inner : reader.inner.chunks = chunks
  length_le : ∀ c ∈ chunks, c.length ≤ 4096

theorem readPiece_eq (reader : BufReader (Socket UInt8) UInt8) :
    readPiece reader = .ok (BufReader.read 4096 reader) := rfl

namespace Aligned
variable {reader : BufReader (Socket UInt8) UInt8} {c : Bytes} {chunks : List Bytes}

theorem read_eq (h : Aligned reader chunks) :
    BufReader.read 4096 reader = (((reader.inner.read (8 * 1024)).1.take 4096),
      { reader with
        buffer := (reader.inner.read (8 * 1024)).1.drop 4096
        inner := (reader.inner.read (8 * 1024)).2 }) := by
  simp only [BufReader.read, h.buffer, h.capacity]
  rfl

theorem ne_nil (h : Aligned reader chunks) : ∀ c ∈ chunks, c ≠ [] := h.inner ▸ reader.inner.ne_nil

theorem readPiece_nil (h : Aligned reader []) : ∃ reader', readPiece reader = .ok ([], reader') := by
  rw [readPiece_eq, h.read_eq, Socket.read_nil h.inner]
  exact ⟨_, rfl⟩

/-- A read takes the next chunk. -/
theorem readPiece_cons (h : Aligned reader (c :: chunks)) :
    ∃ reader', readPiece reader = .ok (c, reader') ∧ Aligned reader' chunks := by
  have hlength := h.length_le c List.mem_cons_self
  obtain ⟨hpiece, hrest⟩ := Socket.read_cons h.inner (hlength.trans (by decide : 4096 ≤ 8 * 1024))
  rw [readPiece_eq, h.read_eq, hpiece, List.take_of_length_le hlength, List.drop_of_length_le hlength]
  exact ⟨_, rfl, h.capacity, rfl, hrest, (List.forall_mem_cons.mp h.length_le).2⟩

theorem contents_new (h : Aligned reader chunks) :
    contents (RtpInterleavedReader.new reader.inner) = chunks.flatten := by
  rw [← h.inner]
  rfl

end Aligned

/-- A read that succeeds with something takes the next chunk. -/
theorem readPiece_eq_ok {reader reader' : BufReader (Socket UInt8) UInt8} {chunks : List Bytes} {piece : Bytes}
    (h : Aligned reader chunks) (hread : readPiece reader = .ok (piece, reader')) (hne : piece ≠ []) :
    ∃ rest, chunks = piece :: rest ∧ Aligned reader' rest := by
  cases chunks with
  | nil =>
    obtain ⟨_, heq⟩ := h.readPiece_nil
    rw [heq] at hread
    exact absurd (Prod.mk.inj (Except.ok.inj hread)).1.symm hne
  | cons c chunks =>
    obtain ⟨r, heq, hr⟩ := h.readPiece_cons
    rw [heq] at hread
    obtain ⟨rfl, rfl⟩ := Prod.mk.inj (Except.ok.inj hread)
    exact ⟨chunks, rfl, hr⟩

/-! ## What `read_message` returns -/

theorem readBodyUntil_eq_ok {fuel total : ℕ} {buf whole : Bytes} {chunks : List Bytes}
    {reader reader' : BufReader (Socket UInt8) UInt8} (h : Aligned reader chunks)
    (hread : readBodyUntil fuel buf total reader = .ok (whole, reader')) :
    ∃ j, Aligned reader' (chunks.drop j) ∧ whole = buf ++ (chunks.take j).flatten := by
  induction fuel generalizing buf reader chunks with
  | zero =>
    obtain ⟨rfl, rfl⟩ := Prod.mk.inj (Except.ok.inj hread)
    exact ⟨0, h, by simp⟩
  | succ fuel ih =>
    obtain ⟨-, rfl, rfl⟩ | ⟨piece, r, hpiece, hne, hrest⟩ := readBodyUntil_cases hread
    · exact ⟨0, h, by simp⟩
    · obtain ⟨rest, rfl, hr⟩ := readPiece_eq_ok h hpiece hne
      obtain ⟨j, haligned, rfl⟩ := ih hr hrest
      exact ⟨j + 1, haligned, by simp⟩

/-- A message is the beginning of the chunks that were read for it. -/
theorem readMessageLoop_eq_ok {fuel : ℕ} {buf message : Bytes} {chunks : List Bytes}
    {reader reader' : BufReader (Socket UInt8) UInt8} (h : Aligned reader chunks)
    (hread : readMessageLoop fuel buf reader = .ok (message, reader')) :
    ∃ j, Aligned reader' (chunks.drop j) ∧ message <+: buf ++ (chunks.take j).flatten := by
  induction fuel generalizing buf reader chunks with
  | zero => cases hread
  | succ fuel ih =>
    obtain ⟨piece, r, hpiece, hne, -, hrest⟩ := readMessageLoop_cases hread
    obtain ⟨rest, rfl, hr⟩ := readPiece_eq_ok h hpiece hne
    obtain hrest | ⟨pos, len, whole, -, -, hbody, rfl⟩ := hrest
    · obtain ⟨j, haligned, hmessage⟩ := ih hr hrest
      exact ⟨j + 1, haligned, by simpa using hmessage⟩
    · obtain ⟨j, haligned, rfl⟩ := readBodyUntil_eq_ok hr hbody
      refine ⟨j + 1, haligned, (List.take_prefix _ _).trans ?_⟩
      simp

/-! ## Messages that end where a read ends -/

/-- A message with a body of the declared length, within the size limit. -/
structure CompleteMessage (message : Bytes) : Prop where
  parts : ∃ pos len, findHeaderEnd message = some pos ∧ extractContentLength (message.take pos) = some len ∧
    message.length = pos + 4 + len
  size : message.length ≤ maxRtspMessageSize

theorem findHeaderEnd_length {bytes : Bytes} {pos : ℕ} (h : findHeaderEnd bytes = some pos) :
    pos + 4 ≤ bytes.length := by
  induction bytes generalizing pos with
  | nil => cases h
  | cons b bytes ih =>
    unfold findHeaderEnd at h
    split at h
    · next hprefix =>
      obtain rfl := Option.some.inj h
      exact (List.isPrefixOf_iff_prefix.mp hprefix).length_le
    · obtain ⟨p, hp, rfl⟩ := Option.map_eq_some_iff.mp h
      have := ih hp
      simp only [List.length_cons]
      omega

/-- The header end stays where it is when more bytes arrive. -/
theorem findHeaderEnd_append {bytes : Bytes} {pos : ℕ} (more : Bytes) (h : findHeaderEnd bytes = some pos) :
    findHeaderEnd (bytes ++ more) = some pos := by
  induction bytes generalizing pos with
  | nil => cases h
  | cons b bytes ih =>
    unfold findHeaderEnd at h
    rw [List.cons_append]
    unfold findHeaderEnd
    split at h
    · next hprefix =>
      have hmore : crlfCrlf.isPrefixOf (b :: (bytes ++ more)) = true :=
        List.isPrefixOf_iff_prefix.mpr ((List.isPrefixOf_iff_prefix.mp hprefix).trans (List.prefix_append _ _))
      rw [if_pos hmore]
      exact h
    · next hprefix =>
      obtain ⟨p, hp, rfl⟩ := Option.map_eq_some_iff.mp h
      have hlong := findHeaderEnd_length hp
      have hmore : ¬ crlfCrlf.isPrefixOf (b :: (bytes ++ more)) = true := by
        intro hmore
        apply hprefix
        rw [List.isPrefixOf_iff_prefix] at hmore ⊢
        refine List.prefix_of_prefix_length_le hmore (List.prefix_append (b :: bytes) more) ?_
        simp only [crlfCrlf, List.length_cons, List.length_nil]
        omega
      rw [if_neg hmore, ih hp]
      rfl

section Complete
variable {σ : Type} [InputStream σ UInt8]

theorem readPiece_bind {α : Type} (k : Bytes → Reader ReadMessageFailure σ α) (reader : σ) :
    (readPiece >>= k) reader = k (read 4096 reader).1 (read 4096 reader).2 := rfl

theorem readBodyUntil_complete {reader reader' : σ} {pieces : List Bytes} (h : ReadsInto 4096 reader pieces reader')
    (fuel : ℕ) (buf : Bytes) (hfuel : pieces.flatten.length ≤ fuel) :
    readBodyUntil fuel buf (buf ++ pieces.flatten).length reader = .ok (buf ++ pieces.flatten, reader') := by
  induction h generalizing fuel buf with
  | done reader =>
    rw [List.flatten_nil, List.append_nil]
    cases fuel with
    | zero => rfl
    | succ fuel => rw [readBodyUntil, if_neg (lt_irrefl _)]; rfl
  | next reader reader' pieces hne _ ih =>
    have hpos := List.length_pos_iff.mpr hne
    rw [List.flatten_cons, List.length_append] at hfuel
    obtain ⟨fuel, rfl⟩ := Nat.exists_eq_succ_of_ne_zero (by omega : fuel ≠ 0)
    have hrest := ih fuel (buf ++ (read 4096 reader).1) (by omega)
    rw [List.append_assoc, ← List.flatten_cons] at hrest
    rw [readBodyUntil, if_pos (by simp; omega), readPiece_bind, if_neg (by simpa using hne), hrest]

theorem readMessageLoop_complete {reader reader' : σ} {pieces : List Bytes} (h : ReadsInto 4096 reader pieces reader')
    (fuel : ℕ) (buf : Bytes) (hmessage : CompleteMessage (buf ++ pieces.flatten)) (hopen : findHeaderEnd buf = none)
    (hfuel : maxRtspMessageSize < fuel + buf.length) :
    readMessageLoop fuel buf reader = .ok (buf ++ pieces.flatten, reader') := by
  obtain ⟨⟨pos, len, hend, hlen, hlength⟩, hsize⟩ := hmessage
  induction h generalizing fuel buf with
  | done reader =>
    rw [List.flatten_nil, List.append_nil, hopen] at hend
    cases hend
  | next reader reader' pieces hne hreads ih =>
    generalize hpiece : (read 4096 reader).1 = piece at *
    have hassoc : buf ++ piece ++ pieces.flatten = buf ++ (piece :: pieces).flatten := by simp
    have hpos := List.length_pos_iff.mpr hne
    have hfits : buf.length + piece.length ≤ maxRtspMessageSize := by
      rw [← hassoc] at hsize
      simp only [List.length_append] at hsize
      omega
    obtain ⟨fuel, rfl⟩ := Nat.exists_eq_succ_of_ne_zero (by omega : fuel ≠ 0)
    rw [readMessageLoop, readPiece_bind, hpiece, if_neg (by simpa using hne), if_neg (Nat.not_lt.mpr hfits)]
    cases hfound : findHeaderEnd (buf ++ piece) with
    | none =>
      rw [← hassoc] at hend hlen hlength hsize ⊢
      refine ih fuel (buf ++ piece) hfound ?_ hsize hend hlen hlength
      rw [List.length_append]
      omega
    | some found =>
      have hfound' := findHeaderEnd_append pieces.flatten hfound
      rw [hassoc, hend] at hfound'
      obtain rfl := Option.some.inj hfound'
      have htake : (buf ++ piece).take pos = (buf ++ (piece :: pieces).flatten).take pos := by
        have hlong := findHeaderEnd_length hfound
        rw [← hassoc]
        exact (List.take_append_of_le_length (by omega)).symm
      have hbody := readBodyUntil_complete hreads (pos + 4 + len - (buf ++ piece).length) (buf ++ piece) (by
        rw [← hlength, ← hassoc, List.length_append, Nat.add_sub_cancel_left])
      rw [hassoc, hlength] at hbody
      simp only [htake, hlen]
      rw [bind_of_ok hbody, ← hlength, List.take_length]
      rfl

/-- A stream that holds one message and no more is read as this message, whatever its reads return. -/
theorem readMessage_complete (reader : σ) (hmessage : CompleteMessage (contents reader)) :
    ∃ reader', readMessage reader = .ok (contents reader, reader') := by
  obtain ⟨pieces, reader', hreads, hflatten⟩ := exists_readsInto (by decide : 0 < 4096) reader
  rw [← hflatten] at hmessage ⊢
  exact ⟨reader', readMessageLoop_complete hreads (maxRtspMessageSize + 1) [] hmessage rfl (Nat.lt_succ_self _)⟩

end Complete

theorem Aligned.reads {reader : BufReader (Socket UInt8) UInt8} {pieces chunks : List Bytes}
    (h : Aligned reader (pieces ++ chunks)) : ∃ reader', ReadsInto 4096 reader pieces reader' ∧ Aligned reader' chunks := by
  induction pieces generalizing reader with
  | nil => exact ⟨reader, .done reader, h⟩
  | cons piece pieces ih =>
    obtain ⟨r, hpiece, hr⟩ := h.readPiece_cons
    obtain ⟨reader', hreads, haligned⟩ := ih hr
    obtain ⟨rfl, rfl⟩ := Prod.mk.inj (Except.ok.inj hpiece)
    exact ⟨reader', .next reader reader' pieces (h.ne_nil _ List.mem_cons_self) hreads, haligned⟩

/-! ## The whole connection -/

/-- These bytes of the stream are exactly its first reads. -/
def EndsAtRead (chunks : List Bytes) (bytes : Bytes) : Prop := ∃ j, (chunks.take j).flatten = bytes

theorem EndsAtRead.append {chunks : List Bytes} {bytes : Bytes} (j : ℕ) (h : EndsAtRead (chunks.drop j) bytes) :
    EndsAtRead chunks ((chunks.take j).flatten ++ bytes) := by
  obtain ⟨i, rfl⟩ := h
  exact ⟨j + i, by rw [List.take_add, List.flatten_append]⟩

theorem EndsAtRead.of_append {chunks : List Bytes} {bytes : Bytes} (j : ℕ)
    (h : EndsAtRead chunks ((chunks.take j).flatten ++ bytes)) : EndsAtRead (chunks.drop j) bytes := by
  obtain ⟨i, hi⟩ := h
  obtain hle | hlt := Nat.le_total i j
  · -- the second boundary is not after the first, so nothing lies between them
    have hprefix : (chunks.take i).flatten <+: (chunks.take j).flatten := by
      rw [← Nat.add_sub_cancel' hle, List.take_add, List.flatten_append]
      exact List.prefix_append _ _
    have hshort := hprefix.length_le
    rw [hi, List.length_append] at hshort
    obtain rfl : bytes = [] := List.length_eq_zero_iff.mp (by omega)
    exact ⟨0, rfl⟩
  · rw [← Nat.add_sub_cancel' hlt, List.take_add, List.flatten_append] at hi
    exact ⟨i - j, List.append_cancel_left hi⟩

section Connection
variable {S : Type} (handle : S → Bytes → S × HandshakeStep)

/-- The session goes on after each request but the last, which makes it record. -/
def Accepted : S → List Bytes → Prop
  | _, [] => False
  | session, [request] => (handle session request).2 = .recording
  | session, request :: requests => (handle session request).2 = .next ∧ Accepted (handle session request).1 requests

variable {handle}

/-- The messages are no longer than the reads made for them, and as long only if each ends with a read. -/
theorem runRtspHandshake_length {fuel : ℕ} {session : S} {reader reader' : BufReader (Socket UInt8) UInt8}
    {chunks messages : List Bytes} (h : Aligned reader chunks)
    (hrun : runRtspHandshake handle fuel session reader = (messages, some reader')) :
    ∃ j, Aligned reader' (chunks.drop j) ∧ messages.flatten.length ≤ (chunks.take j).flatten.length ∧
      (messages.flatten.length = (chunks.take j).flatten.length →
        ∀ k ≤ messages.length, EndsAtRead chunks (messages.take k).flatten) := by
  induction fuel generalizing session reader chunks messages with
  | zero => cases hrun
  | succ fuel ih =>
    unfold runRtspHandshake at hrun
    split at hrun
    · cases hrun
    next message r hread =>
    obtain ⟨j, haligned, hmessage⟩ := readMessageLoop_eq_ok h hread
    rw [List.nil_append] at hmessage
    have hlength := hmessage.length_le
    split at hrun
    · next session' hstep =>
      generalize hrest : runRtspHandshake handle fuel session' r = rest at hrun
      obtain ⟨messages', outcome⟩ := rest
      obtain ⟨rfl, rfl⟩ := Prod.mk.inj hrun
      obtain ⟨i, haligned', hle, hexact⟩ := ih haligned hrest
      refine ⟨j + i, ?_, ?_, ?_⟩
      · rwa [← List.drop_drop]
      · rw [List.take_add, List.flatten_append, List.flatten_cons, List.length_append, List.length_append]
        omega
      · rw [List.take_add, List.flatten_append, List.flatten_cons, List.length_append, List.length_append]
        intro heq k hk
        cases k with
        | zero => exact ⟨0, rfl⟩
        | succ k =>
          obtain rfl := hmessage.eq_of_length (by omega)
          exact (hexact (by omega) k (Nat.le_of_succ_le_succ hk)).append j
    · obtain ⟨rfl, hreader⟩ := Prod.mk.inj hrun
      obtain rfl := Option.some.inj hreader
      refine ⟨j, haligned, by simpa using hlength, fun heq k hk => ?_⟩
      cases k with
      | zero => exact ⟨0, rfl⟩
      | succ k =>
        rw [List.flatten_singleton] at heq
        obtain rfl := hmessage.eq_of_length heq
        exact ⟨j, by simp⟩
    · cases hrun
    · cases hrun

theorem runRtspHandshake_complete (fuel : ℕ) (session : S) (requests chunks : List Bytes)
    (reader : BufReader (Socket UInt8) UInt8) (h : Aligned reader chunks)
    (hrequests : ∀ request ∈ requests, CompleteMessage request) (haccepted : Accepted handle session requests)
    (hreads : ∀ k ≤ requests.length, EndsAtRead chunks (requests.take k).flatten) (hfuel : requests.length ≤ fuel) :
    ∃ j reader', runRtspHandshake handle fuel session reader = (requests, some reader') ∧
      Aligned reader' (chunks.drop j) ∧ (chunks.take j).flatten = requests.flatten := by
  induction requests generalizing fuel session chunks reader with
  | nil => exact haccepted.elim
  | cons request requests ih =>
    obtain ⟨fuel, rfl⟩ := Nat.exists_eq_succ_of_ne_zero (Nat.ne_zero_of_lt hfuel)
    rw [List.forall_mem_cons] at hrequests
    obtain ⟨j, hj⟩ := hreads 1 (Nat.le_add_left _ _)
    obtain rfl : (chunks.take j).flatten = request := by simpa using hj
    rw [← List.take_append_drop j chunks] at h
    obtain ⟨r, hread, haligned⟩ := h.reads
    have hmessage : readMessage reader = .ok ((chunks.take j).flatten, r) :=
      readMessageLoop_complete hread (maxRtspMessageSize + 1) [] hrequests.1 rfl (Nat.lt_succ_self _)
    unfold runRtspHandshake
    simp only [hmessage]
    generalize hstep : handle session (chunks.take j).flatten = step at haccepted ⊢
    obtain ⟨session', verdict⟩ := step
    cases requests with
    | nil =>
      have hverdict : verdict = .recording := by simpa [Accepted, hstep] using haccepted
      rw [hverdict]
      exact ⟨j, r, rfl, haligned, by simp⟩
    | cons request' requests =>
      simp only [Accepted, hstep] at haccepted
      obtain ⟨rfl, hrest⟩ := haccepted
      have hreads' : ∀ k ≤ (request' :: requests).length,
          EndsAtRead (chunks.drop j) ((request' :: requests).take k).flatten :=
        fun k hk => EndsAtRead.of_append j (hreads (k + 1) (Nat.succ_le_succ hk))
      obtain ⟨i, reader', hrun, haligned', hi⟩ :=
        ih fuel session' (chunks.drop j) r haligned hrequests.2 hrest hreads' (Nat.le_of_succ_le_succ hfuel)
      refine ⟨j + i, reader', by simp only [hrun], ?_, ?_⟩
      · rwa [← List.drop_drop]
      · rw [List.take_add, List.flatten_append, hi]
        rfl

variable (handle)

/-- For a stream of complete requests, accepted up to a RECORD, and well-formed items, in reads of at most 4096
bytes: the connection sees exactly these requests and items if and only if every request ends with a read. -/
theorem ingest_exact_iff (session : S) (requests : List Bytes) (items : List RtpReadItem) (socket : Socket UInt8)
    (fuel n : ℕ) (hchunks : ∀ c ∈ socket.chunks, c.length ≤ 4096)
    (hstream : socket.chunks.flatten = requests.flatten ++ items.flatMap RtpReadItem.serialize)
    (hrequests : ∀ request ∈ requests, CompleteMessage request) (haccepted : Accepted handle session requests)
    (hitems : ∀ item ∈ items, item.wellFormed) (hfuel : requests.length ≤ fuel) (hn : items.length < n) :
    ingest handle fuel n session socket = (requests, some items) ↔
      ∀ k ≤ requests.length, EndsAtRead socket.chunks (requests.take k).flatten := by
  have haligned : Aligned (newBufReader socket) socket.chunks := ⟨rfl, rfl, rfl, hchunks⟩
  constructor
  · intro hingest
    obtain ⟨hmessages, houtcome⟩ := Prod.mk.inj hingest
    obtain ⟨reader, hreader, hread⟩ := Option.map_eq_some_iff.mp houtcome
    have hrun : runRtspHandshake handle fuel session (newBufReader socket) = (requests, some reader) :=
      Prod.ext hmessages hreader
    obtain ⟨j, hrest, hle, hexact⟩ := runRtspHandshake_length haligned hrun
    -- the items are no longer than what is left, so the requests are no shorter than what was read
    have hitemsLe : (items.flatMap RtpReadItem.serialize).length ≤ (socket.chunks.drop j).flatten.length := by
      have hprefix := (readItems_serialize n (contents (RtpInterleavedReader.new reader.inner))).1
      rw [← readItems_eq, hread, hrest.contents_new] at hprefix
      exact hprefix.length_le
    have htotal := congrArg List.length hstream
    rw [← List.take_append_drop j socket.chunks, List.flatten_append, List.length_append, List.length_append] at htotal
    exact hexact (by omega)
  · intro hreads
    obtain ⟨j, reader, hrun, hreader, hj⟩ :=
      runRtspHandshake_complete fuel session requests socket.chunks _ haligned hrequests haccepted hreads hfuel
    have hrest : contents (RtpInterleavedReader.new reader.inner) = items.flatMap RtpReadItem.serialize := by
      rw [hreader.contents_new]
      rw [← List.take_append_drop j socket.chunks, List.flatten_append, hj] at hstream
      exact List.append_cancel_left hstream
    simp only [ingest, hrun, Option.map_some]
    rw [readItems_eq, hrest, readItems_complete items hitems n hn]

end Connection

/-- `RECORD * RTSP/1.0`, and a frame of one byte. -/
def recordRequest : Bytes :=
  [0x52, 0x45, 0x43, 0x4F, 0x52, 0x44, 0x20, 0x2A, 0x20, 0x52, 0x54, 0x53, 0x50, 0x2F, 0x31, 0x2E, 0x30] ++ crlfCrlf

def oneFrame : List RtpReadItem := [.interleaved 0 [0xAA]]

/-- A session that records on its first message. -/
def recordAtOnce (_ : Unit) (_ : Bytes) : Unit × HandshakeStep := ((), .recording)

/-- The frame arrives in a read of its own. -/
theorem ingest_exact_in_two_reads :
    ingest recordAtOnce 1 2 () ⟨[recordRequest, oneFrame.flatMap RtpReadItem.serialize], by decide⟩ =
      ([recordRequest], some oneFrame) := by
  refine (ingest_exact_iff recordAtOnce () [recordRequest] oneFrame _ 1 2 (by decide) (by decide) ?_ rfl ?_ (by decide)
    (by decide)).mpr ?_
  · rw [List.forall_mem_singleton]
    exact ⟨⟨17, 0, by decide, by decide +kernel, by decide⟩, by decide⟩
  · rw [oneFrame, List.forall_mem_singleton]
    exact Nat.le_of_ble_eq_true rfl
  · have hreads : ∀ k ≤ 1, ([recordRequest, oneFrame.flatMap RtpReadItem.serialize].take k).flatten =
        ([recordRequest].take k).flatten := by
      decide
    exact fun k hk => ⟨k, hreads k hk⟩

/-- The same bytes in one read: the frame is dropped with the rest of the buffer. -/
theorem frame_dropped_in_one_read :
    ingest recordAtOnce 1 2 () ⟨[recordRequest ++ oneFrame.flatMap RtpReadItem.serialize], by decide⟩ =
      ([recordRequest], some []) ∧ oneFrame ≠ [] := by
  decide +kernel

end LivestreamRs.Rtsp
