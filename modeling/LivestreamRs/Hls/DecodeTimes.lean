import LivestreamRs.Hls.Segmentation

/-! # The decode timestamps handed to the muxer

`write_packet` gives every frame a timestamp above the last one, whatever its stream, and `rollover` starts again
from zero. So timestamps increase within a segment; across segments they do as far as no frame was moved ahead of what
comes after the rollover, for which it is enough that the packets arrive in order of presentation.
-/
namespace LivestreamRs.Hls
open Media
set_option autoImplicit false

/-- A frame handed to the muxer: its stream and timestamp, and the number of the segment it is in. -/
structure HandedFrame where
  stream : ℕ
  dts : ℤ
  segment : ℕ
  deriving DecidableEq

/-- The frame `process` hands to the muxer for a packet, the last of the buffer. -/
def HlsSegmenter.handed (s : HlsSegmenter) (pkt : EncodedPacket) : Option HandedFrame :=
  let muxer := (s.process .ok pkt).1.muxer
  if s.keeps pkt then
    match muxer.tsBuffer.getLast? with
    | some (.frame f) => some ⟨f.avPkt.streamIdx, f.avPkt.dts.getD 0, muxer.nextSequence⟩
    | _ => none
  else none

/-- All frames of a run, in order. -/
def HlsSegmenter.handedAll (s : HlsSegmenter) : List EncodedPacket → List HandedFrame
  | [] => []
  | pkt :: pkts => (s.handed pkt).toList ++ (s.process .ok pkt).1.handedAll pkts

/-- The timestamps of each stream increase. -/
def DecodeTimesIncrease (frames : List HandedFrame) : Prop :=
  ∀ i, ((frames.filter fun f => f.stream = i).map (·.dts)).Pairwise (· < ·)

theorem decodeTimesIncrease_iff (frames : List HandedFrame) :
    DecodeTimesIncrease frames ↔ frames.Pairwise fun a b => a.stream = b.stream → a.dts < b.dts := by
  unfold DecodeTimesIncrease
  simp only [List.pairwise_map, List.pairwise_filter, decide_eq_true_eq]
  refine ⟨fun h => ?_, fun h i => h.imp fun hab ha hb => hab (ha.trans hb.symm)⟩
  induction frames with
  | nil => exact .nil
  | cons f frames ih =>
    refine List.pairwise_cons.mpr ⟨fun g hg hstream => ?_, ih fun i => (List.pairwise_cons.mp (h i)).2⟩
    exact (List.pairwise_cons.mp (h f.stream)).1 g hg rfl hstream.symm

/-! ## One packet -/

variable {s : HlsSegmenter}

/-- In 90 kHz ticks. -/
theorem avRescaleQ_ticks (t : ℤ) : avRescaleQ t ⟨1, 1000⟩ ⟨1, 90000⟩ = 90 * t := by
  have hdiv : (t.natAbs * (1 * 90000) + 1000 * 1 / 2) / (1000 * 1) = 90 * t.natAbs := by omega
  simp only [avRescaleQ, hdiv]
  rw [Nat.cast_mul, mul_left_comm, Int.sign_mul_natAbs]
  rfl

/-- The timestamp for a packet after the given one. -/
def nextDts (pkt : EncodedPacket) (lastDts : ℤ) : ℤ := max (90 * pkt.ptsMs.getD 0) (lastDts + 1)

theorem dts_muxerPacket (pkt : EncodedPacket) (idx : ℕ) (lastDts : ℤ) :
    (muxerPacket pkt idx lastDts).dts = some (nextDts pkt lastDts) ∧ (muxerPacket pkt idx lastDts).streamIdx = idx := by
  constructor
  · cases hpts : pkt.ptsMs with
    | none => simp [muxerPacket, AvPacket.rescaleTs, EncodedPacket.toAvPacket, nextDts, hpts]
    | some t => simp [muxerPacket, AvPacket.rescaleTs, EncodedPacket.toAvPacket, nextDts, hpts, avRescaleQ_ticks]
  · rfl

/-- The muxer that the packet is written to. -/
def HlsSegmenter.muxerFor (s : HlsSegmenter) (pkt : EncodedPacket) : HlsMuxerState :=
  if s.triggers pkt then s.rolledOver.muxer else s.muxer

theorem process_muxer (h : s.muxer.hlsCtx.isSome = true) {pkt : EncodedPacket} (hseq : pkt.isSequenceHeader = false) :
    (s.process .ok pkt).1.muxer = (s.muxerFor pkt).accept (s.codecStreamIndex pkt.codec) pkt := by
  cases ht : s.triggers pkt with
  | true =>
    rw [process_trigger h pkt ht, writePacketOrReset_ok rfl, HlsSegmenter.muxerFor, if_pos ht]
    rfl
  | false =>
    have hctx : (s.observed pkt).muxer.hlsCtx.isSome = true := h
    rw [process_append pkt hseq ht, writePacketOrReset_ok hctx, HlsSegmenter.muxerFor, ht]
    rfl

/-- What a packet does to the muxer's counters, and the frame it becomes. -/
structure CountersMove (s : HlsSegmenter) (pkt : EncodedPacket) (muxer : HlsMuxerState) : Prop where
  ctx_open : muxer.hlsCtx.isSome = true
  next : (muxer.nextSequence = s.muxer.nextSequence ∧ s.muxer.lastDts ≤ muxer.lastDts) ∨
    muxer.nextSequence = s.muxer.nextSequence + 1
  header : pkt.isSequenceHeader = true → muxer.lastDts = s.muxer.lastDts
  -- as far as the packet, or a tick further than before
  bound : pkt.isSequenceHeader = false →
    muxer.lastDts ≤ max (90 * pkt.ptsMs.getD 0) (max s.muxer.lastDts 0 + 1)
  frame : ∀ f ∈ s.handed pkt, pkt.isSequenceHeader = false ∧ s.codecStreamIndex pkt.codec = some f.stream ∧
    f.segment = muxer.nextSequence ∧ f.dts = muxer.lastDts ∧ 90 * pkt.ptsMs.getD 0 ≤ f.dts ∧
    (muxer.nextSequence = s.muxer.nextSequence → s.muxer.lastDts < f.dts)

theorem muxerFor_counters (h : s.muxer.hlsCtx.isSome = true) (pkt : EncodedPacket) :
    (s.muxerFor pkt).hlsCtx.isSome = true ∧
      ((s.muxerFor pkt).nextSequence = s.muxer.nextSequence ∧ (s.muxerFor pkt).lastDts = s.muxer.lastDts ∨
        (s.muxerFor pkt).nextSequence = s.muxer.nextSequence + 1 ∧ (s.muxerFor pkt).lastDts = 0) := by
  unfold HlsSegmenter.muxerFor
  split
  · exact ⟨rfl, .inr ⟨rfl, rfl⟩⟩
  · exact ⟨h, .inl ⟨rfl, rfl⟩⟩

theorem handed_eq (h : s.muxer.hlsCtx.isSome = true) {pkt : EncodedPacket} (hseq : pkt.isSequenceHeader = false)
    {idx : ℕ} (hidx : s.codecStreamIndex pkt.codec = some idx) :
    (s.process .ok pkt).1.muxer.lastDts = nextDts pkt (s.muxerFor pkt).lastDts ∧
    (s.process .ok pkt).1.muxer.nextSequence = (s.muxerFor pkt).nextSequence ∧
    s.handed pkt = some ⟨idx, nextDts pkt (s.muxerFor pkt).lastDts, (s.muxerFor pkt).nextSequence⟩ := by
  have hmuxer := process_muxer h hseq
  rw [hidx] at hmuxer
  obtain ⟨hdts, hstream⟩ := dts_muxerPacket pkt idx (s.muxerFor pkt).lastDts
  have hkeeps : s.keeps pkt = true := by simp [HlsSegmenter.keeps, hseq, hidx]
  refine ⟨?_, by rw [hmuxer]; rfl, ?_⟩
  · rw [hmuxer]
    simp only [HlsMuxerState.accept, muxerFrame, hdts, Option.getD_some]
  · simp only [HlsSegmenter.handed, hmuxer, hkeeps, if_true, HlsMuxerState.accept, List.getLast?_concat, muxerFrame, hdts,
      hstream, Option.getD_some]

theorem process_counters (h : s.muxer.hlsCtx.isSome = true) (pkt : EncodedPacket) :
    CountersMove s pkt (s.process .ok pkt).1.muxer := by
  cases hseq : pkt.isSequenceHeader with
  | true =>
    have hnone : s.handed pkt = none := by simp [HlsSegmenter.handed, HlsSegmenter.keeps, hseq]
    rw [process_seqHeader pkt hseq]
    exact ⟨h, .inl ⟨rfl, le_rfl⟩, fun _ => rfl, fun hmedia => absurd (hseq.symm.trans hmedia) Bool.noConfusion,
      by simp [hnone]⟩
  | false =>
    obtain ⟨hctx, hnext⟩ := muxerFor_counters h pkt
    have hmuxer := process_muxer h hseq
    cases hidx : s.codecStreamIndex pkt.codec with
    | none =>
      have hnone : s.handed pkt = none := by simp [HlsSegmenter.handed, HlsSegmenter.keeps, hidx]
      rw [hidx] at hmuxer
      rw [hmuxer]
      refine ⟨hctx, ?_, fun hheader => absurd (hseq.symm.trans hheader) Bool.noConfusion, fun _ => ?_, by simp [hnone]⟩
      · simp only [HlsMuxerState.accept]
        omega
      · simp only [HlsMuxerState.accept]
        omega
    | some idx =>
      obtain ⟨hlast, hsequence, hhanded⟩ := handed_eq h hseq hidx
      have hdef : nextDts pkt (s.muxerFor pkt).lastDts =
          max (90 * pkt.ptsMs.getD 0) ((s.muxerFor pkt).lastDts + 1) := rfl
      refine ⟨by rw [hmuxer, hidx]; exact hctx, ?_, fun hheader => absurd (hseq.symm.trans hheader) Bool.noConfusion,
        fun _ => ?_, fun f hf => ?_⟩
      · rw [hlast, hsequence]
        omega
      · rw [hlast]
        omega
      · obtain rfl := Option.some.inj (hhanded.symm.trans hf)
        refine ⟨hseq, hidx, hsequence.symm, hlast.symm, by dsimp only; omega, fun hsame => ?_⟩
        dsimp only
        omega

/-! ## A run -/

/-- Frames come in order of their segments, and in increasing order within a segment, starting above the state. -/
theorem handedAll_ordered (h : s.muxer.hlsCtx.isSome = true) (pkts : List EncodedPacket) :
    (s.handedAll pkts).Pairwise (fun a b => a.segment ≤ b.segment ∧ (a.segment = b.segment → a.dts < b.dts)) ∧
    ∀ f ∈ s.handedAll pkts, s.muxer.nextSequence ≤ f.segment ∧
      (f.segment = s.muxer.nextSequence → s.muxer.lastDts < f.dts) := by
  induction pkts generalizing s with
  | nil => exact ⟨.nil, fun f hf => absurd hf List.not_mem_nil⟩
  | cons pkt pkts ih =>
    have hmove := process_counters h pkt
    obtain ⟨hpairs, hlater⟩ := ih hmove.ctx_open
    rw [HlsSegmenter.handedAll]
    constructor
    · refine List.pairwise_append.mpr ⟨?_, hpairs, fun f hf g hg => ?_⟩
      · cases s.handed pkt <;> simp
      · obtain ⟨-, -, hsegment, hdts, -⟩ := hmove.frame f (Option.mem_toList.mp hf)
        obtain ⟨hle, hlt⟩ := hlater g hg
        rw [hsegment, hdts]
        exact ⟨hle, fun heq => hlt heq.symm⟩
    · intro f hf
      rcases List.mem_append.mp hf with hf | hf
      · obtain ⟨-, -, hsegment, -, -, hlt⟩ := hmove.frame f (Option.mem_toList.mp hf)
        rw [hsegment]
        exact ⟨hmove.next.elim (fun hsame => hsame.1.ge) (fun hrolled => hrolled ▸ Nat.le_succ _), hlt⟩
      · obtain ⟨hle, hlt⟩ := hlater f hf
        rcases hmove.next with ⟨hsame, hmono⟩ | hrolled
        · rw [hsame] at hle hlt
          exact ⟨hle, fun heq => hmono.trans_lt (hlt heq)⟩
        · exact ⟨by omega, fun heq => by omega⟩

/-! ## Packets in order of presentation -/

/-- Media in order of presentation, over all streams; in one stream the times increase. -/
structure ArrivesInOrder (pkts : List EncodedPacket) : Prop where
  nonneg : ∀ pkt ∈ pkts, pkt.isSequenceHeader = false → 0 ≤ pkt.ptsMs.getD 0
  sorted : (pkts.filter fun pkt => !pkt.isSequenceHeader).Pairwise fun a b =>
    a.ptsMs.getD 0 ≤ b.ptsMs.getD 0 ∧ (a.codec = b.codec → a.ptsMs.getD 0 < b.ptsMs.getD 0)

/-- The media packets of one millisecond. -/
def mediaAt (t : ℤ) (pkts : List EncodedPacket) : List EncodedPacket :=
  (pkts.filter fun pkt => !pkt.isSequenceHeader).filter fun pkt => pkt.ptsMs.getD 0 = t

namespace ArrivesInOrder
variable {pkt : EncodedPacket} {pkts : List EncodedPacket}

theorem tail (h : ArrivesInOrder (pkt :: pkts)) : ArrivesInOrder pkts :=
  ⟨fun q hq => h.nonneg q (List.mem_cons_of_mem _ hq), h.sorted.sublist ((List.sublist_cons_self pkt pkts).filter _)⟩

theorem head (h : ArrivesInOrder (pkt :: pkts)) (hseq : pkt.isSequenceHeader = false) {q : EncodedPacket} (hq : q ∈ pkts)
    (hmedia : q.isSequenceHeader = false) :
    pkt.ptsMs.getD 0 ≤ q.ptsMs.getD 0 ∧ (pkt.codec = q.codec → pkt.ptsMs.getD 0 < q.ptsMs.getD 0) := by
  have hsorted := h.sorted
  rw [List.filter_cons_of_pos (by simp [hseq])] at hsorted
  exact (List.pairwise_cons.mp hsorted).1 q (List.mem_filter.mpr ⟨hq, by simp [hmedia]⟩)

/-- Each codec has one packet in a millisecond at most. -/
theorem length_mediaAt (h : ArrivesInOrder pkts) (t : ℤ) : (mediaAt t pkts).length ≤ 7 := by
  have hnodup : ((mediaAt t pkts).map (·.codec)).Nodup := by
    rw [List.Nodup, List.pairwise_map]
    refine (h.sorted.filter _).imp_of_mem fun {a b} ha hb hab hcodec => ?_
    have hta := of_decide_eq_true (List.mem_filter.mp ha).2
    have htb := of_decide_eq_true (List.mem_filter.mp hb).2
    exact absurd (hab.2 hcodec) (by rw [hta, htb]; exact lt_irrefl t)
  have hsub : (mediaAt t pkts).map (·.codec) ⊆ [.h264, .h265, .aac, .mp3, .opus, .av1, .mjpeg] := by
    intro codec _
    cases codec <;> decide
  simpa using (hnodup.subperm hsub).length_le

end ArrivesInOrder

theorem mediaAt_cons {pkt : EncodedPacket} (hseq : pkt.isSequenceHeader = false) (t : ℤ) (pkts : List EncodedPacket) :
    (mediaAt t (pkt :: pkts)).length = (mediaAt t pkts).length + if pkt.ptsMs.getD 0 = t then 1 else 0 := by
  rw [mediaAt, List.filter_cons_of_pos (by simp [hseq])]
  split
  · next h => rw [List.filter_cons_of_pos (by simp [h])]; rfl
  · next h => rw [List.filter_cons_of_neg (by simp [h])]; rfl

/-- The timestamps of a millisecond have room for its packets that are still to come. -/
def HasRoom (lastDts : ℤ) (pkts : List EncodedPacket) : Prop :=
  ∀ pkt ∈ pkts, pkt.isSequenceHeader = false →
    lastDts + (mediaAt (pkt.ptsMs.getD 0) pkts).length < 90 * pkt.ptsMs.getD 0 + 90

/-- A media packet takes one timestamp of its millisecond, and stays below the next one. -/
theorem HasRoom.process {pkt : EncodedPacket} {pkts : List EncodedPacket} {muxer : HlsMuxerState}
    (hroom : HasRoom s.muxer.lastDts (pkt :: pkts)) (horder : ArrivesInOrder (pkt :: pkts))
    (hseq : pkt.isSequenceHeader = false) (hmove : CountersMove s pkt muxer) :
    muxer.lastDts < 90 * pkt.ptsMs.getD 0 + 90 ∧ HasRoom muxer.lastDts pkts := by
  have hnonneg := horder.nonneg pkt List.mem_cons_self hseq
  have hhead := hroom pkt List.mem_cons_self hseq
  rw [mediaAt_cons hseq, if_pos rfl] at hhead
  have hbound := hmove.bound hseq
  have hcount := horder.tail.length_mediaAt (pkt.ptsMs.getD 0)
  refine ⟨by omega, fun q hq hmedia => ?_⟩
  obtain ⟨hle, -⟩ := horder.head hseq hq hmedia
  rcases hle.eq_or_lt with heq | hlt
  · rw [← heq]
    omega
  · have hcount' := horder.tail.length_mediaAt (q.ptsMs.getD 0)
    omega

theorem HasRoom.tail {pkt : EncodedPacket} {pkts : List EncodedPacket} {muxer : HlsMuxerState}
    (hroom : HasRoom s.muxer.lastDts (pkt :: pkts)) (horder : ArrivesInOrder (pkt :: pkts))
    (hmove : CountersMove s pkt muxer) : HasRoom muxer.lastDts pkts := by
  cases hseq : pkt.isSequenceHeader with
  | true =>
    intro q hq hmedia
    have hq' := hroom q (List.mem_cons_of_mem _ hq) hmedia
    rw [mediaAt, List.filter_cons_of_neg (by simp [hseq])] at hq'
    rw [hmove.header hseq]
    exact hq'
  | false => exact (hroom.process horder hseq hmove).2

/-- No frame is moved past its millisecond, so those of a stream increase over all segments. -/
theorem handedAll_increase (h : s.muxer.hlsCtx.isSome = true) {pkts : List EncodedPacket}
    (hcodecs : ∀ c c' i, s.codecStreamIndex c = some i → s.codecStreamIndex c' = some i → c = c')
    (horder : ArrivesInOrder pkts) (hroom : HasRoom s.muxer.lastDts pkts) :
    (s.handedAll pkts).Pairwise (fun a b => a.stream = b.stream → a.dts < b.dts) ∧
    ∀ f ∈ s.handedAll pkts, ∃ pkt ∈ pkts, pkt.isSequenceHeader = false ∧
      s.codecStreamIndex pkt.codec = some f.stream ∧ 90 * pkt.ptsMs.getD 0 ≤ f.dts := by
  induction pkts generalizing s with
  | nil => exact ⟨.nil, fun f hf => absurd hf List.not_mem_nil⟩
  | cons pkt pkts ih =>
    have hmove := process_counters h pkt
    have hkept := (process_ok_config h pkt).1
    obtain ⟨hpairs, habove⟩ := ih hmove.ctx_open (by rw [hkept]; exact hcodecs) horder.tail
      (hroom.tail horder hmove)
    rw [hkept] at habove
    rw [HlsSegmenter.handedAll]
    constructor
    · refine List.pairwise_append.mpr ⟨?_, hpairs, fun f hf g hg hstream => ?_⟩
      · cases s.handed pkt <;> simp
      · obtain ⟨hseq, hidx, -, hdts, -⟩ := hmove.frame f (Option.mem_toList.mp hf)
        obtain ⟨q, hq, hmedia, hidx', hle⟩ := habove g hg
        have hcodec := hcodecs _ _ _ hidx (hstream ▸ hidx')
        have hlt := (horder.head hseq hq hmedia).2 hcodec
        have hbelow := (hroom.process horder hseq hmove).1
        omega
    · intro f hf
      rcases List.mem_append.mp hf with hf | hf
      · obtain ⟨hseq, hidx, -, -, hle, -⟩ := hmove.frame f (Option.mem_toList.mp hf)
        exact ⟨pkt, List.mem_cons_self, hseq, hidx, hle⟩
      · obtain ⟨q, hq, hmedia, hidx, hle⟩ := habove f hf
        exact ⟨q, List.mem_cons_of_mem _ hq, hmedia, hidx, hle⟩

/-- The timestamps of every stream increase over a whole run if the packets arrive in order of presentation. -/
theorem decode_times_increase (streams : List AvCodecId) (cfg : SegmentConfig) {pkts : List EncodedPacket}
    (horder : ArrivesInOrder pkts) : DecodeTimesIncrease ((HlsSegmenter.initial streams cfg).handedAll pkts) := by
  have hcodecs : ∀ c c' i, (HlsSegmenter.initial streams cfg).codecStreamIndex c = some i →
      (HlsSegmenter.initial streams cfg).codecStreamIndex c' = some i → c = c' := by
    intro c c' i hc hc'
    obtain ⟨_, hget, -⟩ := List.idxOf?_eq_some_iff.mp hc
    obtain ⟨_, hget', -⟩ := List.idxOf?_eq_some_iff.mp hc'
    exact hget.symm.trans hget'
  have hroom : HasRoom (HlsSegmenter.initial streams cfg).muxer.lastDts pkts := by
    intro pkt hpkt hmedia
    have hnonneg := horder.nonneg pkt hpkt hmedia
    have hcount := horder.length_mediaAt (pkt.ptsMs.getD 0)
    have hzero : (HlsSegmenter.initial streams cfg).muxer.lastDts = 0 := rfl
    omega
  exact (decodeTimesIncrease_iff _).mpr (handedAll_increase rfl hcodecs horder hroom).1

/-- Audio and video in turns, with a frame of each in the same millisecond. -/
def interleaved : List EncodedPacket :=
  [⟨.h264, 0, .annexB [0x65], some 0, some 0, true, false, false, none⟩,
   ⟨.aac, 0, .annexB [0x21], some 0, some 0, false, false, false, none⟩,
   ⟨.h264, 0, .annexB [0x41], some 40, some 40, false, false, false, none⟩,
   ⟨.h264, 0, .annexB [0x65], some 2000, some 2000, true, false, false, none⟩,
   ⟨.aac, 0, .annexB [0x21], some 2000, some 2000, false, false, false, none⟩]

theorem decode_times_increase_interleaved :
    (HlsSegmenter.initial [.h264, .aac] ⟨1, 5⟩).handedAll interleaved =
      [⟨0, 1, 0⟩, ⟨1, 2, 0⟩, ⟨0, 3600, 0⟩, ⟨0, 180000, 1⟩, ⟨1, 180001, 1⟩] ∧
    DecodeTimesIncrease ((HlsSegmenter.initial [.h264, .aac] ⟨1, 5⟩).handedAll interleaved) :=
  ⟨by decide +kernel, decode_times_increase _ _ ⟨by decide, by decide⟩⟩

/-- Audio that runs ahead moves the video behind it ahead as well; after the rollover the video is back at its own
time. Both streams have increasing timestamps. -/
def audioAhead : List EncodedPacket :=
  [⟨.h264, 0, .annexB [0x65], some 0, some 0, true, false, false, none⟩,
   ⟨.aac, 0, .annexB [0x21], some 5000, some 5000, false, false, false, none⟩,
   ⟨.h264, 0, .annexB [0x41], some 40, some 40, false, false, false, none⟩,
   ⟨.h264, 0, .annexB [0x65], some 2000, some 2000, true, false, false, none⟩]

/-- The packets of a codec have increasing decode times, and presentation times not before them. -/
def WellTimed (codec : Codec) (pkts : List EncodedPacket) : Prop :=
  ((pkts.filter fun pkt => pkt.codec = codec).map fun pkt => pkt.dtsMs.getD 0).Pairwise (· < ·) ∧
  ∀ pkt ∈ pkts, 0 ≤ pkt.dtsMs.getD 0 ∧ pkt.dtsMs.getD 0 ≤ pkt.ptsMs.getD 0

theorem decode_times_step_back :
    WellTimed .h264 audioAhead ∧ WellTimed .aac audioAhead ∧
    (HlsSegmenter.initial [.h264, .aac] ⟨1, 5⟩).handedAll audioAhead =
      [⟨0, 1, 0⟩, ⟨1, 450000, 0⟩, ⟨0, 450001, 0⟩, ⟨0, 180000, 1⟩] ∧
    ¬ DecodeTimesIncrease ((HlsSegmenter.initial [.h264, .aac] ⟨1, 5⟩).handedAll audioAhead) := by
  have htrace : (HlsSegmenter.initial [.h264, .aac] ⟨1, 5⟩).handedAll audioAhead =
      [⟨0, 1, 0⟩, ⟨1, 450000, 0⟩, ⟨0, 450001, 0⟩, ⟨0, 180000, 1⟩] := by decide +kernel
  refine ⟨⟨by decide, by decide⟩, ⟨by decide, by decide⟩, htrace, fun h => ?_⟩
  rw [htrace] at h
  exact absurd (h 0) (by decide)

end LivestreamRs.Hls
