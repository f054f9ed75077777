import LivestreamRs.Hls.DecodeTimes

/-! # The order of presentation within a segment

`write_packet` replaces both timestamps of a frame by its presentation time or, if that is not above the last frame's
timestamp, by the tick after it. A segment so plays its frames in decode order: that is the order they are to be
presented in unless frames were reordered.
-/
namespace LivestreamRs.Hls
open Media
set_option autoImplicit false

/-- A frame in a segment, with the packet it was made from and the presentation time the muxer was given. -/
structure PresentedFrame where
  source : EncodedPacket
  pts : ℤ
  segment : ℕ
  deriving DecidableEq

/-- The frame `process` hands to the muxer for a packet, the last of the buffer. -/
def HlsSegmenter.presented (s : HlsSegmenter) (pkt : EncodedPacket) : Option PresentedFrame :=
  let muxer := (s.process .ok pkt).1.muxer
  if s.keeps pkt then
    match muxer.tsBuffer.getLast? with
    | some (.frame f) => some ⟨f.source, f.avPkt.pts.getD 0, muxer.nextSequence⟩
    | _ => none
  else none

def HlsSegmenter.presentedAll (s : HlsSegmenter) : List EncodedPacket → List PresentedFrame
  | [] => []
  | pkt :: pkts => (s.presented pkt).toList ++ (s.process .ok pkt).1.presentedAll pkts

/-- Of two frames in one segment, the one to be presented first is presented first. -/
def PresentationOrderKept (frames : List PresentedFrame) : Prop :=
  ∀ f ∈ frames, ∀ g ∈ frames, f.segment = g.segment →
    f.source.ptsMs.getD 0 < g.source.ptsMs.getD 0 → f.pts < g.pts

variable {s : HlsSegmenter}

theorem presented_eq (h : s.muxer.hlsCtx.isSome = true) (pkt : EncodedPacket) :
    s.presented pkt = (s.handed pkt).map fun f => ⟨pkt, f.dts, f.segment⟩ := by
  by_cases hkeeps : s.keeps pkt = true
  · obtain ⟨hseq, idx, hidx⟩ : pkt.isSequenceHeader = false ∧ ∃ idx, s.codecStreamIndex pkt.codec = some idx := by
      simpa [HlsSegmenter.keeps, Option.isSome_iff_exists] using hkeeps
    have hmuxer := process_muxer h hseq
    rw [hidx] at hmuxer
    have hpts : (muxerPacket pkt idx (s.muxerFor pkt).lastDts).pts = (muxerPacket pkt idx (s.muxerFor pkt).lastDts).dts :=
      rfl
    simp only [HlsSegmenter.presented, HlsSegmenter.handed, hmuxer, hkeeps, if_true, HlsMuxerState.accept,
      List.getLast?_concat, muxerFrame, hpts, Option.map_some]
  · simp only [HlsSegmenter.presented, HlsSegmenter.handed, hkeeps, if_false, Option.map_none, Bool.false_eq_true]

theorem presentedAll_eq (h : s.muxer.hlsCtx.isSome = true) (pkts : List EncodedPacket) :
    (s.presentedAll pkts).map (fun f => (f.pts, f.segment)) = (s.handedAll pkts).map fun f => (f.dts, f.segment) := by
  induction pkts generalizing s with
  | nil => rfl
  | cons pkt pkts ih =>
    rw [HlsSegmenter.presentedAll, HlsSegmenter.handedAll, List.map_append, List.map_append,
      ih (process_counters h pkt).ctx_open, presented_eq h pkt]
    cases s.handed pkt <;> rfl

/-- Frames of one segment have increasing presentation times. -/
theorem presentedAll_ordered (h : s.muxer.hlsCtx.isSome = true) (pkts : List EncodedPacket) :
    (s.presentedAll pkts).Pairwise fun f g => f.segment = g.segment → f.pts < g.pts := by
  have hhanded : ((s.handedAll pkts).map fun f => (f.dts, f.segment)).Pairwise fun a b => a.2 = b.2 → a.1 < b.1 := by
    rw [List.pairwise_map]
    refine (handedAll_ordered h pkts).1.imp ?_
    intro a b hab
    exact hab.2
  rw [← presentedAll_eq h, List.pairwise_map] at hhanded
  exact hhanded

theorem sources_presentedAll (h : s.muxer.hlsCtx.isSome = true) (pkts : List EncodedPacket) :
    ((s.presentedAll pkts).map (·.source)).Sublist (pkts.filter fun pkt => !pkt.isSequenceHeader) := by
  induction pkts generalizing s with
  | nil => exact .slnil
  | cons pkt pkts ih =>
    have hmove := process_counters h pkt
    have hrest := ih hmove.ctx_open
    rw [HlsSegmenter.presentedAll, List.map_append, presented_eq h pkt]
    cases hhanded : s.handed pkt with
    | none => exact hrest.trans ((List.sublist_cons_self pkt pkts).filter _)
    | some f =>
      rw [List.filter_cons_of_pos (by simp [(hmove.frame f hhanded).1])]
      exact hrest.cons_cons pkt

/-- For packets with different presentation times: their order is kept within the segments exactly when the packets
of each segment already come in this order. -/
theorem presentation_order_kept_iff (streams : List AvCodecId) (cfg : SegmentConfig) (pkts : List EncodedPacket)
    (hdistinct : (pkts.filter fun pkt => !pkt.isSequenceHeader).Pairwise fun a b => a.ptsMs.getD 0 ≠ b.ptsMs.getD 0) :
    PresentationOrderKept ((HlsSegmenter.initial streams cfg).presentedAll pkts) ↔
      ((HlsSegmenter.initial streams cfg).presentedAll pkts).Pairwise fun f g =>
        f.segment = g.segment → f.source.ptsMs.getD 0 < g.source.ptsMs.getD 0 := by
  have hopen : (HlsSegmenter.initial streams cfg).muxer.hlsCtx.isSome = true := rfl
  have hordered := presentedAll_ordered hopen pkts
  have hsources := List.pairwise_map.mp (hdistinct.sublist (sources_presentedAll hopen pkts))
  generalize (HlsSegmenter.initial streams cfg).presentedAll pkts = frames at hordered hsources ⊢
  constructor
  · intro hkept
    rw [List.pairwise_iff_getElem] at hordered hsources ⊢
    intro i j hi hj hij hsegment
    refine lt_of_le_of_ne (not_lt.mp fun hback => ?_) (hsources i j hi hj hij)
    have hswapped := hkept _ (List.getElem_mem hj) _ (List.getElem_mem hi) hsegment.symm hback
    exact absurd (hordered i j hi hj hij hsegment) (not_lt.mpr hswapped.le)
  · intro hsorted f hf g hg hsegment hlt
    obtain ⟨i, hi, rfl⟩ := List.getElem_of_mem hf
    obtain ⟨j, hj, rfl⟩ := List.getElem_of_mem hg
    rw [List.pairwise_iff_getElem] at hordered hsorted
    obtain hij | rfl | hji := Nat.lt_trichotomy i j
    · exact hordered i j hi hj hij hsegment
    · exact absurd hlt (lt_irrefl _)
    · exact absurd hlt (not_lt.mpr (hsorted j i hj hi hji hsegment.symm).le)

/-- A key frame, a frame that is decoded before the one it is presented after, and that one. -/
def reordered : List EncodedPacket :=
  [⟨.h264, 0, .annexB [0x65], some 0, some 0, true, false, false, none⟩,
   ⟨.h264, 0, .annexB [0x41], some 120, some 40, false, false, false, none⟩,
   ⟨.h264, 0, .annexB [0x01], some 80, some 80, false, false, false, none⟩]

theorem presentation_order_kept_two :
    PresentationOrderKept ((HlsSegmenter.initial [.h264] ⟨10, 5⟩).presentedAll (reordered.take 2)) :=
  (presentation_order_kept_iff [.h264] ⟨10, 5⟩ (reordered.take 2) (by decide)).mpr (by decide +kernel)

theorem presentation_order_lost :
    WellTimed .h264 reordered ∧ (reordered.map (·.ptsMs)).Nodup ∧
    ((HlsSegmenter.initial [.h264] ⟨10, 5⟩).presentedAll reordered).map (fun f => (f.source.ptsMs, f.pts, f.segment)) =
      [(some 0, 1, 0), (some 120, 10800, 0), (some 80, 10801, 0)] ∧
    ¬ PresentationOrderKept ((HlsSegmenter.initial [.h264] ⟨10, 5⟩).presentedAll reordered) := by
  refine ⟨⟨by decide, by decide⟩, by decide, by decide +kernel, ?_⟩
  unfold PresentationOrderKept
  decide +kernel

end LivestreamRs.Hls
