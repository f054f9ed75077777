import LivestreamRs.Foundations.Transitions
import LivestreamRs.Media.Packet

/-! # The RTP packet buffer

`RtpBuf`, `RtpDemuxContext::feed` and `rtp_read` (`livestream-media/src/rtp.rs`): the packets given to `feed` wait in a
queue of bounded size until FFmpeg's demuxer takes them, in pieces, through `rtp_read`. Both take the buffer's lock, so
a run is a sequence of whole calls. The first call of `feed` that finds a packet in the queue puts a copy of it in
front, for the demuxer drops the first two packets of a source.
-/
namespace LivestreamRs.Media
open Foundations
set_option autoImplicit false

/-! ## The buffer -/

/-- The bytes of an RTP packet. -/
structure RtpData where
  bytes : Bytes
  header_le : 12 ≤ bytes.length
  le_max : bytes.length ≤ 65535
  deriving DecidableEq

structure FedPacket where
  -- history: which call of `feed` it came with
  call : ℕ
  data : RtpData
  deriving DecidableEq

def FedPacket.len (pkt : FedPacket) : ℕ := pkt.data.bytes.length

structure RtpBuf where
  packets : List FedPacket := []
  -- the packet being read, and how much of it was read
  current : Option (FedPacket × ℕ) := none
  maxBytes : ℕ := 1024 * 1024
  probationSatisfied : Bool := false
  deriving DecidableEq

/-- `AVERROR(EAGAIN)` and `AVERROR(EINVAL)`. -/
inductive AvError
  | eagain
  | einval
  deriving DecidableEq

def totalBytes (packets : List FedPacket) : ℕ := (packets.map FedPacket.len).sum

/-- How often the loop of `feed` pops the front of the queue, when it has to make room for `other` bytes. -/
def evictions (maxBytes other : ℕ) : List FedPacket → ℕ
  | [] => 0
  | pkt :: packets =>
    if totalBytes (pkt :: packets) + other ≤ maxBytes then 0 else evictions maxBytes other packets + 1

namespace RtpBuf
variable (b : RtpBuf)

def currentLen : ℕ := b.current.elim 0 fun c => c.1.len

def currentBytes : ℕ := totalBytes b.packets + b.currentLen

/-- The next `feed` puts a copy of the front packet in front. -/
def duplicates : Bool := !b.probationSatisfied && !b.packets.isEmpty

def satisfyProbation : RtpBuf :=
  if b.duplicates then { b with packets := b.packets.head?.toList ++ b.packets, probationSatisfied := true } else b

/-- The number of packets a call of `feed` removes. -/
def evictionsFor (data : RtpData) : ℕ :=
  evictions b.maxBytes (b.currentLen + data.bytes.length) b.satisfyProbation.packets

def feed (pkt : FedPacket) : RtpBuf :=
  { b.satisfyProbation with
    packets := b.satisfyProbation.packets.drop (b.evictionsFor pkt.data) ++ [pkt] }

def rtpRead (bufSize : ℤ) : RtpBuf × Except AvError Bytes :=
  if bufSize ≤ 0 then (b, .error .einval)
  else
    match b.current with
    | some (pkt, offset) =>
      let remaining := pkt.len - offset
      let n := min bufSize.toNat remaining
      ({ b with current := if offset + n ≥ pkt.len then none else some (pkt, offset + n) },
        .ok ((pkt.data.bytes.drop offset).take n))
    | none =>
      match b.packets with
      | pkt :: packets =>
        let n := min bufSize.toNat pkt.len
        ({ b with packets := packets, current := if n < pkt.len then some (pkt, n) else none },
          .ok (pkt.data.bytes.take n))
      | [] => (b, .error .eagain)

/-- The packet the next read takes a piece of, how much of it was read, and what stays queued. -/
def next : Option (FedPacket × ℕ × List FedPacket) :=
  match b.current, b.packets with
  | some (pkt, offset), packets => some (pkt, offset, packets)
  | none, pkt :: packets => some (pkt, 0, packets)
  | none, [] => none

theorem next_cases {b : RtpBuf} {pkt : FedPacket} {offset : ℕ} {packets : List FedPacket}
    (h : b.next = some (pkt, offset, packets)) :
    (b.current = some (pkt, offset) ∧ b.packets = packets) ∨
      (b.current = none ∧ offset = 0 ∧ b.packets = pkt :: packets) := by
  unfold next at h
  split at h
  · next hcurrent =>
    cases h
    exact .inl ⟨hcurrent, rfl⟩
  · next hcurrent hpackets =>
    cases h
    exact .inr ⟨hcurrent, rfl, hpackets⟩
  · cases h

theorem next_eq_none {b : RtpBuf} (h : b.next = none) : b.current = none ∧ b.packets = [] := by
  unfold next at h
  split at h
  · cases h
  · cases h
  · next hcurrent hpackets => exact ⟨hcurrent, hpackets⟩

/-- The buffer after a piece of a packet was read. -/
def afterPiece (pkt : FedPacket) (read : ℕ) (packets : List FedPacket) : RtpBuf :=
  { b with packets := packets, current := if read < pkt.len then some (pkt, read) else none }

/-- Both branches of `rtp_read` are one: a packet is started as one of which nothing was read. -/
theorem rtpRead_eq {bufSize : ℤ} (hpos : 0 < bufSize) :
    b.rtpRead bufSize =
      match b.next with
      | none => (b, .error .eagain)
      | some (pkt, offset, packets) =>
        let n := min bufSize.toNat (pkt.len - offset)
        (b.afterPiece pkt (offset + n) packets, .ok ((pkt.data.bytes.drop offset).take n)) := by
  obtain ⟨packets, current, maxBytes, probationSatisfied⟩ := b
  rw [rtpRead, if_neg (not_le.mpr hpos)]
  cases current with
  | some c =>
    obtain ⟨pkt, offset⟩ := c
    simp only [next, afterPiece, ge_iff_le, ← not_lt, ite_not]
  | none =>
    cases packets with
    | nil => rfl
    | cons pkt packets => simp [next, afterPiece]

end RtpBuf

/-! ## Calls of `feed` and `rtp_read` -/

/-- A packet and what the reads returned of it. -/
structure Delivery where
  packet : FedPacket
  pieces : List Bytes

structure RtpDemux where
  buf : RtpBuf := {}
  -- history, read by no one: the packets of all calls of `feed`, those removed, and the call whose packet was copied
  fed : List FedPacket := []
  evicted : List FedPacket := []
  duplicated : Option ℕ := none
  -- history: the packets read to their end, and the pieces of the one being read
  finished : List Delivery := []
  pieces : List Bytes := []

inductive RtpAction
  | feed (data : RtpData)
  | read (bufSize : ℤ)
  deriving DecidableEq

namespace RtpDemux
variable (s : RtpDemux)

def feed (data : RtpData) : RtpDemux :=
  let pkt : FedPacket := ⟨s.fed.length, data⟩
  { s with
    buf := s.buf.feed pkt
    fed := s.fed ++ [pkt]
    evicted := s.evicted ++ s.buf.satisfyProbation.packets.take (s.buf.evictionsFor data)
    duplicated := if s.buf.duplicates then s.buf.packets.head?.map FedPacket.call else s.duplicated }

/-- A read that returned `piece`, of the packet at hand. -/
def afterRead (buf : RtpBuf) (pkt : FedPacket) (piece : Bytes) : RtpDemux :=
  match buf.current with
  | some _ => { s with buf := buf, pieces := s.pieces ++ [piece] }
  | none => { s with buf := buf, finished := s.finished ++ [⟨pkt, s.pieces ++ [piece]⟩], pieces := [] }

def step : RtpAction → Option RtpDemux
  | .feed data => some (s.feed data)
  | .read bufSize =>
    match s.buf.rtpRead bufSize, s.buf.next with
    | (buf, .ok piece), some (pkt, _, _) => some (s.afterRead buf pkt piece)
    | (buf, _), _ => some { s with buf := buf }

/-- The packets whose delivery has begun. -/
def started : List FedPacket := s.finished.map Delivery.packet ++ (s.buf.current.map Prod.fst).toList

/-- What the reads returned, in order. -/
def log : List Bytes := s.finished.flatMap Delivery.pieces ++ s.pieces

theorem step_cases {s t : RtpDemux} {a : RtpAction} (h : s.step a = some t) :
    (∃ data, a = .feed data ∧ t = s.feed data) ∨
    (∃ bufSize, a = .read bufSize ∧ t = s ∧ (0 < bufSize → s.buf.next = none)) ∨
    ∃ bufSize pkt offset packets, a = .read bufSize ∧ 0 < bufSize ∧ s.buf.next = some (pkt, offset, packets) ∧
      t = s.afterRead (s.buf.afterPiece pkt (offset + min bufSize.toNat (pkt.len - offset)) packets) pkt
        ((pkt.data.bytes.drop offset).take (min bufSize.toNat (pkt.len - offset))) := by
  cases a with
  | feed data => exact .inl ⟨data, rfl, (Option.some.inj h).symm⟩
  | read bufSize =>
    by_cases hpos : 0 < bufSize
    · cases hnext : s.buf.next with
      | none =>
        rw [step, s.buf.rtpRead_eq hpos, hnext] at h
        exact .inr (.inl ⟨bufSize, rfl, (Option.some.inj h).symm, fun _ => rfl⟩)
      | some next =>
        obtain ⟨pkt, offset, packets⟩ := next
        rw [step, s.buf.rtpRead_eq hpos, hnext] at h
        exact .inr (.inr ⟨bufSize, pkt, offset, packets, rfl, hpos, rfl, (Option.some.inj h).symm⟩)
    · rw [step, RtpBuf.rtpRead, if_pos (not_lt.mp hpos)] at h
      exact .inr (.inl ⟨bufSize, rfl, (Option.some.inj h).symm, fun h' => absurd h' hpos⟩)

/-! ## Bound and framing -/

theorem evictions_spec (maxBytes other : ℕ) (packets : List FedPacket) :
    packets.drop (evictions maxBytes other packets) = [] ∨
      totalBytes (packets.drop (evictions maxBytes other packets)) + other ≤ maxBytes := by
  induction packets with
  | nil => exact .inl rfl
  | cons pkt packets ih =>
    rw [evictions]
    split
    · next hfits => exact .inr hfits
    · exact ih

theorem totalBytes_append (packets packets' : List FedPacket) :
    totalBytes (packets ++ packets') = totalBytes packets + totalBytes packets' := by
  rw [totalBytes, List.map_append, List.sum_append, ← totalBytes, ← totalBytes]

@[simp]
theorem satisfyProbation_current (b : RtpBuf) : b.satisfyProbation.current = b.current := by
  unfold RtpBuf.satisfyProbation
  split <;> rfl

@[simp]
theorem satisfyProbation_maxBytes (b : RtpBuf) : b.satisfyProbation.maxBytes = b.maxBytes := by
  unfold RtpBuf.satisfyProbation
  split <;> rfl

/-- The packet at hand counts with all its bytes, also when it is being read. -/
theorem next_bytes {b : RtpBuf} {pkt : FedPacket} {offset : ℕ} {packets : List FedPacket}
    (h : b.next = some (pkt, offset, packets)) : totalBytes packets + pkt.len = b.currentBytes := by
  rcases RtpBuf.next_cases h with ⟨hcurrent, hpackets⟩ | ⟨hcurrent, -, hpackets⟩
  · simp [RtpBuf.currentBytes, RtpBuf.currentLen, hcurrent, hpackets]
  · simp [RtpBuf.currentBytes, RtpBuf.currentLen, totalBytes, hcurrent, hpackets, Nat.add_comm]

theorem afterPiece_bytes (b : RtpBuf) (pkt : FedPacket) (read : ℕ) (packets : List FedPacket) :
    (b.afterPiece pkt read packets).currentBytes ≤ totalBytes packets + pkt.len := by
  unfold RtpBuf.afterPiece RtpBuf.currentBytes RtpBuf.currentLen
  split <;> simp

/-- A packet that fits by itself fits after the evictions. -/
theorem feed_bytes (b : RtpBuf) (pkt : FedPacket) (h : b.currentLen + pkt.len ≤ b.maxBytes) :
    (b.feed pkt).currentBytes ≤ b.maxBytes := by
  have hcurrent : (b.feed pkt).currentLen = b.currentLen := by
    rw [RtpBuf.currentLen, RtpBuf.feed, satisfyProbation_current, ← RtpBuf.currentLen]
  have hqueue : totalBytes (b.feed pkt).packets =
      totalBytes (b.satisfyProbation.packets.drop (b.evictionsFor pkt.data)) + pkt.len := by
    rw [RtpBuf.feed, totalBytes_append]
    simp [totalBytes]
  rw [RtpBuf.currentBytes, hcurrent, hqueue]
  rcases evictions_spec b.maxBytes (b.currentLen + pkt.data.bytes.length) b.satisfyProbation.packets with hnil | hfits
  · rw [RtpBuf.evictionsFor, hnil]
    simp only [totalBytes, List.map_nil, List.sum_nil]
    omega
  · rw [RtpBuf.evictionsFor, FedPacket.len]
    omega

/-- The buffer keeps its bound, and what was read of each packet, piece by piece, is the packet. -/
structure Framed : Prop where
  maxBytes : s.buf.maxBytes = 1024 * 1024
  bounded : s.buf.currentBytes ≤ 1024 * 1024
  finished : ∀ d ∈ s.finished, d.pieces.flatten = d.packet.data.bytes
  reading : ∀ (pkt : FedPacket) (offset : ℕ), s.buf.current = some (pkt, offset) →
    offset < pkt.len ∧ s.pieces.flatten = pkt.data.bytes.take offset
  idle : s.buf.current = none → s.pieces = []
  pieces : ∀ piece ∈ s.log, piece ≠ []

theorem framed_init : Framed {} where
  maxBytes := rfl
  bounded := Nat.zero_le _
  finished _ h := absurd h List.not_mem_nil
  reading _ _ h := nomatch h
  idle _ := rfl
  pieces _ h := absurd h List.not_mem_nil

/-- What was read of the packet at hand. -/
theorem Framed.next {s : RtpDemux} (hs : s.Framed) {pkt : FedPacket} {offset : ℕ} {packets : List FedPacket}
    (h : s.buf.next = some (pkt, offset, packets)) :
    offset < pkt.len ∧ s.pieces.flatten = pkt.data.bytes.take offset := by
  rcases RtpBuf.next_cases h with ⟨hcurrent, -⟩ | ⟨hcurrent, rfl, -⟩
  · exact hs.reading _ _ hcurrent
  · refine ⟨lt_of_lt_of_le (by norm_num) pkt.data.header_le, ?_⟩
    rw [hs.idle hcurrent, List.take_zero, List.flatten_nil]

theorem log_afterRead (buf : RtpBuf) (pkt : FedPacket) (piece : Bytes) :
    (s.afterRead buf pkt piece).log = s.log ++ [piece] := by
  unfold afterRead
  split <;> simp [log]

theorem framed_read {s : RtpDemux} (hs : s.Framed) {bufSize : ℤ} (hpos : 0 < bufSize) {pkt : FedPacket} {offset : ℕ}
    {packets : List FedPacket} (hnext : s.buf.next = some (pkt, offset, packets)) :
    (s.afterRead (s.buf.afterPiece pkt (offset + min bufSize.toNat (pkt.len - offset)) packets) pkt
      ((pkt.data.bytes.drop offset).take (min bufSize.toNat (pkt.len - offset)))).Framed := by
  obtain ⟨hlt, hpieces⟩ := hs.next hnext
  obtain ⟨n, hn⟩ : ∃ n, n = min bufSize.toNat (pkt.len - offset) := ⟨_, rfl⟩
  have hpos' : 0 < n := by omega
  have hpiece : (pkt.data.bytes.drop offset).take n ≠ [] := by
    rw [Ne, ← List.length_eq_zero_iff, List.length_take, List.length_drop]
    simp only [FedPacket.len] at hlt
    omega
  have htake : (s.pieces ++ [(pkt.data.bytes.drop offset).take n]).flatten = pkt.data.bytes.take (offset + n) := by
    rw [List.flatten_append, hpieces, List.flatten_singleton, List.take_add]
  have hbytes := (afterPiece_bytes s.buf pkt (offset + n) packets).trans ((next_bytes hnext).le.trans hs.bounded)
  have hlog : ∀ piece ∈ s.log ++ [(pkt.data.bytes.drop offset).take n], piece ≠ [] := by
    intro piece hmem
    rcases List.mem_append.mp hmem with hmem | hmem
    · exact hs.pieces piece hmem
    · rw [List.mem_singleton.mp hmem]
      exact hpiece
  rw [← hn]
  have hlogs := s.log_afterRead (s.buf.afterPiece pkt (offset + n) packets) pkt ((pkt.data.bytes.drop offset).take n)
  by_cases hmore : offset + n < pkt.len
  · have hcurrent : (s.buf.afterPiece pkt (offset + n) packets).current = some (pkt, offset + n) := if_pos hmore
    simp only [afterRead, hcurrent] at hlogs ⊢
    exact {
      maxBytes := hs.maxBytes
      bounded := hbytes
      finished := hs.finished
      reading := fun pkt' offset' h => by
        cases hcurrent.symm.trans h
        exact ⟨hmore, htake⟩
      idle := fun h => nomatch hcurrent.symm.trans h
      pieces := fun piece hmem => hlog piece (hlogs ▸ hmem) }
  · have hcurrent : (s.buf.afterPiece pkt (offset + n) packets).current = none := if_neg hmore
    simp only [afterRead, hcurrent] at hlogs ⊢
    exact {
      maxBytes := hs.maxBytes
      bounded := hbytes
      finished := fun d hmem => by
        rcases List.mem_append.mp hmem with hmem | hmem
        · exact hs.finished d hmem
        · rw [List.mem_singleton.mp hmem, htake]
          exact List.take_of_length_le (not_lt.mp hmore)
      reading := fun pkt' offset' h => nomatch hcurrent.symm.trans h
      idle := fun _ => rfl
      pieces := fun piece hmem => hlog piece (hlogs ▸ hmem) }

theorem framed_feed {s : RtpDemux} (hs : s.Framed) (data : RtpData) : (s.feed data).Framed where
  maxBytes := by
    change s.buf.satisfyProbation.maxBytes = _
    rw [satisfyProbation_maxBytes, hs.maxBytes]
  bounded := by
    have hdata := data.le_max
    have hcurrent : s.buf.currentLen ≤ 65535 := by
      unfold RtpBuf.currentLen
      cases s.buf.current with
      | none => exact Nat.zero_le _
      | some c => exact c.1.data.le_max
    rw [← hs.maxBytes]
    refine feed_bytes s.buf ⟨s.fed.length, data⟩ ?_
    change s.buf.currentLen + data.bytes.length ≤ s.buf.maxBytes
    rw [hs.maxBytes]
    omega
  finished := hs.finished
  reading pkt offset h := hs.reading pkt offset (by rwa [feed, RtpBuf.feed, satisfyProbation_current] at h)
  idle h := hs.idle (by rwa [feed, RtpBuf.feed, satisfyProbation_current] at h)
  pieces := hs.pieces

theorem framed_step {s t : RtpDemux} {a : RtpAction} (hs : s.Framed) (h : s.step a = some t) : t.Framed := by
  obtain ⟨data, rfl, rfl⟩ | ⟨bufSize, rfl, rfl, -⟩ | ⟨bufSize, pkt, offset, packets, rfl, hpos, hnext, rfl⟩ :=
    step_cases h
  · exact framed_feed hs data
  · exact hs
  · exact framed_read hs hpos hnext

/-! ## Order -/

/-- The packets whose delivery has begun, and those that are next. -/
def sequence : List FedPacket := s.started ++ s.buf.packets

/-- The packets fed, the copied one twice. -/
def expected : List FedPacket :=
  match s.duplicated with
  | none => s.fed
  | some k => s.fed.take (k + 1) ++ s.fed.drop k

/-- Packets are delivered in the order of `feed`. Those that are not were evicted; before the copy was made there was
nothing to evict. -/
structure Ordered : Prop where
  calls : s.fed.map FedPacket.call = List.range s.fed.length
  probation : s.buf.probationSatisfied = false → s.duplicated = none ∧ s.evicted = [] ∧ s.buf.packets.length ≤ 1
  duplicated : ∀ k, s.duplicated = some k → k < s.fed.length
  sublist : s.sequence.Sublist s.expected
  complete : s.evicted = [] → s.sequence = s.expected

theorem ordered_init : Ordered {} where
  calls := rfl
  probation _ := ⟨rfl, rfl, Nat.zero_le _⟩
  duplicated _ h := nomatch h
  sublist := .slnil
  complete _ := rfl

@[simp]
theorem afterRead_buf (buf : RtpBuf) (pkt : FedPacket) (piece : Bytes) : (s.afterRead buf pkt piece).buf = buf := by
  unfold afterRead
  split <;> rfl

@[simp]
theorem afterRead_fed (buf : RtpBuf) (pkt : FedPacket) (piece : Bytes) : (s.afterRead buf pkt piece).fed = s.fed := by
  unfold afterRead
  split <;> rfl

@[simp]
theorem afterRead_evicted (buf : RtpBuf) (pkt : FedPacket) (piece : Bytes) :
    (s.afterRead buf pkt piece).evicted = s.evicted := by
  unfold afterRead
  split <;> rfl

@[simp]
theorem afterRead_duplicated (buf : RtpBuf) (pkt : FedPacket) (piece : Bytes) :
    (s.afterRead buf pkt piece).duplicated = s.duplicated := by
  unfold afterRead
  split <;> rfl

theorem sequence_afterRead {s : RtpDemux} {pkt : FedPacket} {offset : ℕ} {packets : List FedPacket}
    (hnext : s.buf.next = some (pkt, offset, packets)) (read : ℕ) (piece : Bytes) :
    (s.afterRead (s.buf.afterPiece pkt read packets) pkt piece).sequence = s.sequence := by
  have hafter : (s.afterRead (s.buf.afterPiece pkt read packets) pkt piece).sequence =
      s.finished.map Delivery.packet ++ (pkt :: packets) := by
    by_cases hmore : read < pkt.len <;> simp [afterRead, RtpBuf.afterPiece, hmore, sequence, started]
  rw [hafter]
  rcases RtpBuf.next_cases hnext with ⟨hcurrent, hpackets⟩ | ⟨hcurrent, -, hpackets⟩
  · simp [sequence, started, hcurrent, hpackets]
  · simp [sequence, started, hcurrent, hpackets]

/-- The packet at hand is one of those queued or being read. -/
theorem next_length {b : RtpBuf} {pkt : FedPacket} {offset : ℕ} {packets : List FedPacket}
    (h : b.next = some (pkt, offset, packets)) : packets.length + 1 = b.packets.length + b.current.toList.length := by
  rcases RtpBuf.next_cases h with ⟨hcurrent, hpackets⟩ | ⟨hcurrent, -, hpackets⟩
  · simp [hcurrent, hpackets]
  · simp [hcurrent, hpackets]

theorem ordered_read {s : RtpDemux} (hs : s.Ordered) {pkt : FedPacket} {offset : ℕ} {packets : List FedPacket}
    (hnext : s.buf.next = some (pkt, offset, packets)) (read : ℕ) (piece : Bytes) :
    (s.afterRead (s.buf.afterPiece pkt read packets) pkt piece).Ordered := by
  have hexpected : (s.afterRead (s.buf.afterPiece pkt read packets) pkt piece).expected = s.expected := by
    rw [expected, expected, afterRead_fed, afterRead_duplicated]
  exact {
    calls := by
      rw [afterRead_fed]
      exact hs.calls
    probation := fun h => by
      rw [afterRead_buf] at h ⊢
      obtain ⟨hduplicated, hevicted, hlen⟩ := hs.probation h
      rw [afterRead_duplicated, afterRead_evicted]
      have hnextLen := next_length hnext
      have hcurrent := Option.length_toList_le (o := s.buf.current)
      exact ⟨hduplicated, hevicted, show packets.length ≤ 1 by omega⟩
    duplicated := fun k h => by
      rw [afterRead_duplicated] at h
      rw [afterRead_fed]
      exact hs.duplicated k h
    sublist := by
      rw [sequence_afterRead hnext, hexpected]
      exact hs.sublist
    complete := fun h => by
      rw [afterRead_evicted] at h
      rw [sequence_afterRead hnext, hexpected]
      exact hs.complete h }

theorem satisfyProbation_of_not {b : RtpBuf} (h : b.duplicates = false) : b.satisfyProbation = b := by
  rw [RtpBuf.satisfyProbation, h, if_neg Bool.false_ne_true]

/-- The copy is made of the packet fed last, which is the only one in the queue. -/
theorem Ordered.duplicates {s : RtpDemux} (hs : s.Ordered) (h : s.buf.duplicates = true) :
    ∃ pkt, s.buf.packets = [pkt] ∧ s.evicted = [] ∧ s.duplicated = none ∧ s.fed = s.started ++ [pkt] ∧
      pkt.call + 1 = s.fed.length ∧ s.buf.satisfyProbation.packets = [pkt, pkt] ∧
      s.buf.satisfyProbation.probationSatisfied = true := by
  have hflags := h
  rw [RtpBuf.duplicates, Bool.and_eq_true, Bool.not_eq_true', Bool.not_eq_true', List.isEmpty_eq_false_iff] at hflags
  obtain ⟨hduplicated, hevicted, hlen⟩ := hs.probation hflags.1
  obtain ⟨pkt, hpackets⟩ : ∃ pkt, s.buf.packets = [pkt] :=
    List.length_eq_one_iff.mp (le_antisymm hlen (List.length_pos_iff.mpr hflags.2))
  have hfed : s.fed = s.started ++ [pkt] := by
    have hcomplete := hs.complete hevicted
    rw [sequence, hpackets, expected, hduplicated] at hcomplete
    exact hcomplete.symm
  have hcall : pkt.call + 1 = s.fed.length := by
    have hcalls := congrArg List.getLast? hs.calls
    rw [hfed, List.map_append, List.map_singleton, List.getLast?_concat, List.length_append, List.length_singleton,
      List.range_succ, List.getLast?_concat] at hcalls
    rw [Option.some.inj hcalls, hfed, List.length_append, List.length_singleton]
  exact ⟨pkt, hpackets, hevicted, hduplicated, hfed, hcall, by simp [RtpBuf.satisfyProbation, h, hpackets],
    by simp [RtpBuf.satisfyProbation, h]⟩

theorem sequence_feed (data : RtpData) :
    (s.feed data).sequence = s.started ++ s.buf.satisfyProbation.packets.drop (s.buf.evictionsFor data) ++
      [⟨s.fed.length, data⟩] := by
  have hstarted : (s.feed data).started = s.started := by
    rw [started, started, feed, RtpBuf.feed, satisfyProbation_current]
  rw [sequence, hstarted, List.append_assoc]
  rfl

/-- What `feed` adds to the expected packets is the copy, if it makes one, and its own packet. -/
theorem Ordered.expected_feed {s : RtpDemux} (hs : s.Ordered) (data : RtpData) :
    (s.feed data).expected = (if s.buf.duplicates then s.started ++ s.buf.satisfyProbation.packets else s.expected) ++
      [⟨s.fed.length, data⟩] := by
  by_cases hdup : s.buf.duplicates = true
  · obtain ⟨pkt, hpackets, -, -, hfed, hcall, hcopy, -⟩ := hs.duplicates hdup
    have hduplicated : (s.feed data).duplicated = some pkt.call := by simp [feed, hdup, hpackets]
    have hnew : (s.feed data).fed = s.fed ++ [⟨s.fed.length, data⟩] := rfl
    have hstart : s.started.length = pkt.call := by
      rw [hfed, List.length_append, List.length_singleton] at hcall
      omega
    rw [expected, hduplicated]
    dsimp only
    rw [hnew, if_pos hdup, hcopy, List.take_append_of_le_length hcall.le, hcall, List.take_length,
      List.drop_append_of_le_length (by omega), hfed, List.drop_left' hstart]
    simp only [List.append_assoc, List.cons_append, List.nil_append]
  · have hduplicated : (s.feed data).duplicated = s.duplicated := if_neg hdup
    rw [if_neg hdup, expected, expected, hduplicated]
    cases hk : s.duplicated with
    | none => rfl
    | some k =>
      have hlt := hs.duplicated k hk
      change (s.fed ++ [_]).take (k + 1) ++ (s.fed ++ [_]).drop k = _
      rw [List.take_append_of_le_length hlt, List.drop_append_of_le_length hlt.le, List.append_assoc]

/-- Before `feed` evicts, the packets are the expected ones. -/
theorem Ordered.before_eviction {s : RtpDemux} (hs : s.Ordered) :
    (s.started ++ s.buf.satisfyProbation.packets).Sublist
      (if s.buf.duplicates then s.started ++ s.buf.satisfyProbation.packets else s.expected) ∧
    (s.evicted = [] → s.started ++ s.buf.satisfyProbation.packets =
      if s.buf.duplicates then s.started ++ s.buf.satisfyProbation.packets else s.expected) := by
  split
  · exact ⟨List.Sublist.refl _, fun _ => rfl⟩
  · next hdup =>
    rw [satisfyProbation_of_not (Bool.not_eq_true _ ▸ hdup)]
    exact ⟨hs.sublist, hs.complete⟩

theorem ordered_feed {s : RtpDemux} (hs : s.Ordered) (data : RtpData) : (s.feed data).Ordered where
  calls := by
    change (s.fed ++ [_]).map FedPacket.call = List.range (s.fed ++ [_]).length
    rw [List.map_append, hs.calls, List.length_append, List.length_singleton, List.range_succ]
    rfl
  probation h := by
    have hflag : s.buf.satisfyProbation.probationSatisfied = false := h
    by_cases hdup : s.buf.duplicates = true
    · obtain ⟨-, -, -, -, -, -, -, htrue⟩ := hs.duplicates hdup
      exact absurd (htrue.symm.trans hflag) (by decide)
    · have hsame := satisfyProbation_of_not (Bool.not_eq_true _ ▸ hdup)
      rw [hsame] at hflag
      -- the queue was empty
      have hempty : s.buf.packets = [] := by
        simpa [RtpBuf.duplicates, hflag] using hdup
      obtain ⟨hduplicated, hevicted, -⟩ := hs.probation hflag
      refine ⟨by simp [feed, hdup, hduplicated], ?_, ?_⟩
      · simp [feed, hevicted, hsame, hempty]
      · simp [feed, RtpBuf.feed, hsame, hempty]
  duplicated k h := by
    have hlen : (s.feed data).fed.length = s.fed.length + 1 := by simp [feed]
    by_cases hdup : s.buf.duplicates = true
    · obtain ⟨pkt, hpackets, -, -, -, hcall, -, -⟩ := hs.duplicates hdup
      have hk : pkt.call = k := by simpa [feed, hdup, hpackets] using h
      omega
    · have hk := hs.duplicated k (by simpa [feed, hdup] using h)
      omega
  sublist := by
    rw [sequence_feed, hs.expected_feed]
    have hdrop := List.drop_sublist (s.buf.evictionsFor data) s.buf.satisfyProbation.packets
    exact (((List.Sublist.refl s.started).append hdrop).trans hs.before_eviction.1).append (List.Sublist.refl _)
  complete h := by
    have hevicted : s.evicted ++ s.buf.satisfyProbation.packets.take (s.buf.evictionsFor data) = [] := h
    obtain ⟨hbefore, hnone⟩ := List.append_eq_nil_iff.mp hevicted
    have hall : s.buf.satisfyProbation.packets.drop (s.buf.evictionsFor data) = s.buf.satisfyProbation.packets := by
      have hsplit := List.take_append_drop (s.buf.evictionsFor data) s.buf.satisfyProbation.packets
      rwa [hnone, List.nil_append] at hsplit
    rw [sequence_feed, hs.expected_feed, hall, ← hs.before_eviction.2 hbefore]

theorem ordered_step {s t : RtpDemux} {a : RtpAction} (hs : s.Ordered) (h : s.step a = some t) : t.Ordered := by
  obtain ⟨data, rfl, rfl⟩ | ⟨bufSize, rfl, rfl, -⟩ | ⟨bufSize, pkt, offset, packets, rfl, hpos, hnext, rfl⟩ :=
    step_cases h
  · exact ordered_feed hs data
  · exact hs
  · exact ordered_read hs hnext _ _

/-! ## Every run -/

theorem run_framed {acts : List RtpAction} {s : RtpDemux} (hrun : run step {} acts = some s) : s.Framed :=
  run_invariant (fun _ _ _ hs _ h => framed_step hs h) framed_init (eachStep_trivial _ _) hrun

theorem run_ordered {acts : List RtpAction} {s : RtpDemux} (hrun : run step {} acts = some s) : s.Ordered :=
  run_invariant (fun _ _ _ hs _ h => ordered_step hs h) ordered_init (eachStep_trivial _ _) hrun

/-- What a read returned is a part of one packet, the last whose delivery has begun. -/
structure ReturnsPiece (s t : RtpDemux) (bufSize : ℤ) (piece : Bytes) : Prop where
  result : (s.buf.rtpRead bufSize).2 = .ok piece
  ne_nil : piece ≠ []
  fits : piece.length ≤ bufSize.toNat
  part : ∃ pkt, t.started.getLast? = some pkt ∧ piece <:+: pkt.data.bytes
  logged : t.log = s.log ++ [piece]

theorem started_afterRead (pkt : FedPacket) (read : ℕ) (packets : List FedPacket) (piece : Bytes) :
    (s.afterRead (s.buf.afterPiece pkt read packets) pkt piece).started = s.finished.map Delivery.packet ++ [pkt] := by
  by_cases hmore : read < pkt.len <;> simp [afterRead, RtpBuf.afterPiece, hmore, started]

/-- A read returns a piece of a packet unless there is none. -/
theorem Framed.read {s t : RtpDemux} (hs : s.Framed) {bufSize : ℤ} (hpos : 0 < bufSize)
    (h : s.step (.read bufSize) = some t) :
    ((s.buf.rtpRead bufSize).2 = .error .eagain ∧ s.buf.current = none ∧ s.buf.packets = [] ∧ t = s) ∨
      ∃ piece, ReturnsPiece s t bufSize piece := by
  have ht := framed_step hs h
  obtain ⟨data, hdata, -⟩ | ⟨_, hsize, rfl, hnone⟩ | ⟨_, pkt, offset, packets, hsize, -, hnext, rfl⟩ := step_cases h
  · cases hdata
  · cases hsize
    have hnext := hnone hpos
    obtain ⟨hcurrent, hpackets⟩ := RtpBuf.next_eq_none hnext
    exact .inl ⟨by rw [t.buf.rtpRead_eq hpos, hnext], hcurrent, hpackets, rfl⟩
  · cases hsize
    have hlog := s.log_afterRead (s.buf.afterPiece pkt (offset + min bufSize.toNat (pkt.len - offset)) packets) pkt
      ((pkt.data.bytes.drop offset).take (min bufSize.toNat (pkt.len - offset)))
    refine .inr ⟨_, ⟨by rw [s.buf.rtpRead_eq hpos, hnext], ht.pieces _ ?_, ?_, ⟨pkt, ?_, ?_⟩, hlog⟩⟩
    · rw [hlog]
      exact List.mem_append_right _ (List.mem_singleton_self _)
    · rw [List.length_take]
      omega
    · rw [started_afterRead, List.getLast?_concat]
    · exact (List.take_prefix _ _).isInfix.trans (List.drop_suffix _ _).isInfix

theorem Ordered.exists_sublist {s : RtpDemux} (hs : s.Ordered) :
    ∃ k, s.sequence.Sublist (s.fed.take (k + 1) ++ s.fed.drop k) := by
  have hsub := hs.sublist
  unfold expected at hsub
  split at hsub
  · refine ⟨s.fed.length, ?_⟩
    rwa [List.take_of_length_le (Nat.le_succ _), List.drop_length, List.append_nil]
  · next k _ => exact ⟨k, hsub⟩

end RtpDemux

open RtpDemux in
/-- However calls of `feed` and `rtp_read` follow each other, the buffer keeps its bound; each packet that was read is
its pieces, and what was read of the one being read is its beginning; a read returns a piece unless there is nothing
to read; `feed` removes packets only from the front of the queue; and packets are started in the order in which they
were fed, one of them possibly twice. -/
theorem rtpBuf_framing (acts : List RtpAction) (s : RtpDemux) (hrun : run step {} acts = some s) :
    s.buf.currentBytes ≤ 1024 * 1024 ∧
    (∀ d ∈ s.finished, d.pieces.flatten = d.packet.data.bytes) ∧
    (∀ (pkt : FedPacket) (offset : ℕ), s.buf.current = some (pkt, offset) →
      offset < pkt.len ∧ s.pieces.flatten = pkt.data.bytes.take offset) ∧
    (∀ (bufSize : ℤ) (t : RtpDemux), 0 < bufSize → s.step (.read bufSize) = some t →
      ((s.buf.rtpRead bufSize).2 = .error .eagain ∧ s.buf.current = none ∧ s.buf.packets = [] ∧ t = s) ∨
        ∃ piece, ReturnsPiece s t bufSize piece) ∧
    (∀ (data : RtpData) (t : RtpDemux), s.step (.feed data) = some t →
      ∃ n, t.evicted = s.evicted ++ s.buf.satisfyProbation.packets.take n ∧
        t.buf.packets = s.buf.satisfyProbation.packets.drop n ++ [⟨s.fed.length, data⟩] ∧
        t.buf.current = s.buf.current) ∧
    ∃ k, (s.started ++ s.buf.packets).Sublist (s.fed.take (k + 1) ++ s.fed.drop k) := by
  have hframed := run_framed hrun
  have hordered := run_ordered hrun
  refine ⟨hframed.bounded, hframed.finished, hframed.reading, fun bufSize t hpos h => hframed.read hpos h, ?_,
    hordered.exists_sublist⟩
  intro data t h
  obtain rfl := Option.some.inj h
  exact ⟨s.buf.evictionsFor data, rfl, rfl, satisfyProbation_current s.buf⟩

/-- A packet of twelve equal bytes. -/
def twelveBytes (b : UInt8) : RtpData := ⟨List.replicate 12 b, by simp, by simp⟩

/-- A packet read in pieces of five bytes while another is fed. -/
theorem rtpBuf_framing_pieces :
    ∃ s, run RtpDemux.step {} [.feed (twelveBytes 1), .read 5, .feed (twelveBytes 2), .read 5, .read 5] = some s ∧
      s.log = [List.replicate 5 1, List.replicate 5 1, List.replicate 2 1] ∧
      ∀ d ∈ s.finished, d.pieces.flatten = d.packet.data.bytes :=
  ⟨_, rfl, by decide, (rtpBuf_framing
    [.feed (twelveBytes 1), .read 5, .feed (twelveBytes 2), .read 5, .read 5] _ rfl).2.1⟩

end LivestreamRs.Media
