import LivestreamRs.Hls.Segmentation

/-! # Which packets start a segment

The rollover test looks at the key flag of whatever packet arrives. While the open segment holds a video
key frame, a key-flagged packet of any medium closes it, so segments stay aligned to video key frames as
long as those packets are video (`record_keyframe_aligned`), and an audio packet whose flag was set by
FFmpeg breaks the alignment (`record_audio_starts_segment`).
-/
namespace LivestreamRs.Hls
open Media Foundations
set_option autoImplicit false

def isVideoKey (pkt : EncodedPacket) : Bool := pkt.isVideo && pkt.isKeyframe

/-- If the first segment contains a video key frame, the second starts with one. -/
def FollowsAligned (a b : List EncodedPacket) : Prop := a.any isVideoKey = true → b.head?.any isVideoKey = true

instance (a b : List EncodedPacket) : Decidable (FollowsAligned a b) :=
  inferInstanceAs (Decidable (_ → _))

/-- Every rollover that closes a segment with a video key frame is triggered by a video packet with a muxer
stream. -/
def VideoTriggers (s : HlsSegmenter) (pkts : List EncodedPacket) : Prop :=
  ∀ pre pkt post, pkts = pre ++ pkt :: post →
    (s.processAll (pre.map (Prod.mk .ok))).1.triggers pkt = true →
    (s.processAll (pre.map (Prod.mk .ok))).1.muxer.tsBuffer.packets.any isVideoKey = true →
    pkt.isVideo = true ∧ (s.codecStreamIndex pkt.codec).isSome = true

variable {s : HlsSegmenter} {segs : List TsSegment} {c : Cuts EncodedPacket}

theorem followsAligned_append (a b : List EncodedPacket) (p : EncodedPacket) (h : FollowsAligned a b) :
    FollowsAligned a (b ++ [p]) := by
  intro ha
  cases b with
  | nil => exact absurd (h ha) (by simp)
  | cons q b => exact h ha

/-! ## The key frame flag of the open segment -/

theorem Refines.process_segmenter (h : Refines s segs c) (pkt : EncodedPacket) :
    (s.process .ok pkt).1.segmenter =
      if pkt.isSequenceHeader then s.segmenter
      else if s.triggers pkt then .startWith pkt else s.segmenter.observe pkt := by
  cases hseq : pkt.isSequenceHeader with
  | true => simp [process_seqHeader pkt hseq]
  | false =>
    cases ht : s.triggers pkt with
    | true =>
      rw [process_trigger h.ctx_open pkt ht, writePacketOrReset_ok rfl]
      rfl
    | false =>
      rw [process_append pkt hseq ht, writePacketOrReset_ok (s := s.observed pkt) h.ctx_open]
      rfl

/-- A key-flagged packet in the open segment has set the flag. -/
def KeySeen (s : HlsSegmenter) (c : Cuts EncodedPacket) : Prop :=
  ∀ p ∈ c.current, p.isKeyframe = true → s.segmenter.hasKeyframe = true

theorem KeySeen.process (h : Refines s segs c) (hkey : KeySeen s c) (pkt : EncodedPacket) :
    KeySeen (s.process .ok pkt).1 (c.step (s.triggers pkt) (s.keeps pkt) pkt) := by
  intro p hp hpkey
  rw [h.process_segmenter]
  obtain ⟨hkeep, rfl⟩ | ⟨hopen, hp⟩ := Cuts.mem_current_step _ _ _ _ _ hp
  · have hseq : p.isSequenceHeader = false := by
      simp only [HlsSegmenter.keeps, Bool.and_eq_true, Bool.not_eq_true'] at hkeep
      exact hkeep.1
    cases s.triggers p <;> simp [hseq, SegmentState.startWith, SegmentState.observe, hpkey]
  · have hseen := hkey p hp hpkey
    cases pkt.isSequenceHeader <;> simp [hopen, SegmentState.observe, hseen]

/-- While the open segment has a video key frame, only a key-flagged packet closes it. -/
theorem KeySeen.trigger_isKeyframe (hkey : KeySeen s c) (pkt : EncodedPacket) (ht : s.triggers pkt = true)
    (hvideo : c.current.any isVideoKey = true) : pkt.isKeyframe = true := by
  obtain ⟨p, hp, hpv⟩ := List.any_eq_true.mp hvideo
  have hseen := hkey p hp (Bool.and_eq_true_iff.mp hpv).2
  simp only [HlsSegmenter.triggers, SegmentState.shouldRollover, SegmentState.observe, hseen, Bool.true_or,
    Bool.not_true, Bool.or_false, Bool.and_eq_true] at ht
  exact ht.2.2

/-! ## Alignment -/

theorem VideoTriggers.tail {pkt : EncodedPacket} {pkts : List EncodedPacket} (h : Refines s segs c)
    (hv : VideoTriggers s (pkt :: pkts)) : VideoTriggers (s.process .ok pkt).1 pkts := by
  rintro pre p post rfl ht hbuf
  have := hv (pkt :: pre) p post rfl ht hbuf
  rwa [(h.process_config pkt).1]

theorem isChain_cuts (h : Refines s segs c) (hkey : KeySeen s c) (hchain : c.segments.IsChain FollowsAligned)
    (pkts : List EncodedPacket) (hv : VideoTriggers s pkts) :
    (s.cuts c pkts).segments.IsChain FollowsAligned := by
  induction pkts generalizing s segs c with
  | nil => exact hchain
  | cons pkt pkts ih =>
    refine ih (h.process pkt) (hkey.process h pkt) ?_ (hv.tail h)
    refine Cuts.isChain_step _ _ _ _ hchain (fun ht hcur => ?_) fun a => followsAligned_append a _ pkt
    obtain ⟨hvideo, hidx⟩ := hv [] pkt pkts rfl ht (h.buffer ▸ hcur)
    have hpkt := hkey.trigger_isKeyframe pkt ht hcur
    simp [HlsSegmenter.keeps, triggers_not_seqHeader ht, hidx, isVideoKey, hvideo, hpkt]

/-- A packet with a muxer stream that closes a segment with a video key frame breaks the alignment unless
it is a video packet. -/
theorem isVideo_of_isChain (s : HlsSegmenter) (c : Cuts EncodedPacket) (pkt : EncodedPacket) (post : List EncodedPacket)
    (ht : s.triggers pkt = true) (hk : s.keeps pkt = true) (hcur : c.current.any isVideoKey = true)
    (hchain : (s.cuts c (pkt :: post)).segments.IsChain FollowsAligned) : pkt.isVideo = true := by
  obtain ⟨l, hl, hhead⟩ := trigger_first s c pkt post ht hk
  obtain ⟨l₀, hl₀, hpre⟩ := grows_cuts s c (pkt :: post) _ _ List.getElem?_concat_length
  obtain ⟨hi, rfl⟩ := List.getElem?_eq_some_iff.mp hl
  obtain ⟨hi₀, rfl⟩ := List.getElem?_eq_some_iff.mp hl₀
  have halign := List.isChain_iff_getElem.mp hchain c.closed.length hi
  have hany : ((s.cuts c (pkt :: post)).segments[c.closed.length]).any isVideoKey = true := by
    obtain ⟨p, hp, hpv⟩ := List.any_eq_true.mp hcur
    exact List.any_eq_true.mpr ⟨p, hpre.subset hp, hpv⟩
  have hfirst := halign hany
  rw [hhead] at hfirst
  exact (Bool.and_eq_true_iff.mp hfirst).1

/-- If video packets alone close segments that hold a video key frame, every segment after such a one
starts with a video key frame. When all packets have a muxer stream, this is also necessary. -/
theorem record_keyframe_aligned (streams : List AvCodecId) (cfg : SegmentConfig) (pkts : List EncodedPacket)
    (s t : HlsSegmenter) (segs : List TsSegment) (hnew : HlsSegmenter.new streams cfg .ok = some s)
    (hrec : s.record pkts = (t, segs)) :
    (VideoTriggers s pkts → (segs.map t.written).IsChain FollowsAligned) ∧
    ((∀ pkt ∈ pkts, (s.codecStreamIndex pkt.codec).isSome = true) →
      ((segs.map t.written).IsChain FollowsAligned ↔ VideoTriggers s pkts)) := by
  obtain rfl : HlsSegmenter.initial streams cfg = s := by simpa [HlsSegmenter.new, Outcome.ok] using hnew
  have hinit := refines_initial streams cfg
  have hfinal := (hinit.record pkts).1
  rw [hrec] at hfinal
  rw [hfinal.map_written]
  have haligned : VideoTriggers (HlsSegmenter.initial streams cfg) pkts →
      ((HlsSegmenter.initial streams cfg).cuts {} pkts).segments.IsChain FollowsAligned :=
    isChain_cuts hinit (by simp [KeySeen]) (List.isChain_singleton _) pkts
  refine ⟨haligned, fun hmapped => ⟨fun hchain => ?_, haligned⟩⟩
  rintro pre pkt post rfl ht hbuf
  have hrun := hinit.processAll pre
  have hidx := hmapped pkt (by simp)
  have hkeep : (HlsSegmenter.initial streams cfg).keeps pkt = true := by
    simp [HlsSegmenter.keeps, triggers_not_seqHeader ht, hidx]
  rw [← hinit.processAll_keeps pre] at hkeep
  rw [cuts_append] at hchain
  exact ⟨isVideo_of_isChain _ _ pkt post ht hkeep (hrun.buffer ▸ hbuf) hchain, hidx⟩

/-- The second video key frame of the sample is what closes its first segment. -/
theorem record_keyframe_aligned_sample :
    VideoTriggers (HlsSegmenter.initial [.h264, .aac] ⟨1, 5⟩) sampleStream :=
  ((record_keyframe_aligned [.h264, .aac] ⟨1, 5⟩ sampleStream _ _ _ rfl rfl).2 (by decide)).mp (by decide)

/-- A video key frame and, 1.2 s later, an audio packet with the key flag, both as FFmpeg delivers them. -/
def rtspStream : List EncodedPacket :=
  [fromAvPacket ⟨[0x65], some 0, some 0, 0, true⟩ ⟨1, 90000⟩ .h264,
   fromAvPacket ⟨[0x21], some 57600, some 57600, 1, true⟩ ⟨1, 48000⟩ .aac]

/-- The audio packet closes the segment with the key frame and starts the next one. -/
theorem record_audio_starts_segment :
    ∃ t segs, (HlsSegmenter.initial [.h264, .aac] ⟨1, 5⟩).record rtspStream = (t, segs)
      ∧ segs.map (fun seg => (t.written seg).map (fun p => (p.codec, p.isKeyframe)))
          = [[(.h264, true)], [(.aac, true)]]
      ∧ ¬ (segs.map t.written).IsChain FollowsAligned :=
  ⟨_, _, rfl, by decide, by decide⟩

end LivestreamRs.Hls
