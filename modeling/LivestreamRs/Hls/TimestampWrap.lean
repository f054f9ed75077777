import LivestreamRs.Foundations.WrappingClock
import LivestreamRs.Hls.KeyframeAlignment
import LivestreamRs.Media.RtmpSource

/-! # Segments and the wrap of RTMP timestamps

A message's 32-bit timestamp becomes the packet's `pts_ms` as it is, and the segment's clock takes a timestamp at or
below the first one for no time at all. A segment in which the timestamps do not wrap is as short as its key frames
allow; one in which they do stays open until they have come around (`segments_bounded_iff`).
-/
namespace LivestreamRs.Hls
open Media Foundations
set_option autoImplicit false

/-! ## Messages and their time -/

/-- The message becomes a packet, and not a sequence header. -/
def isMediaFrame (f : RtmpRawFrame) : Bool := (convertFrame f).any fun pkt => !pkt.isSequenceHeader

def isKeyFrame (f : RtmpRawFrame) : Bool := (convertFrame f).any (·.isKeyframe)

/-- The sum of the advances from message to message, modulo `2 ^ 32`. -/
def accumulated (frames : List RtmpRawFrame) : ℕ := travelled (2 ^ 32) (frames.map (·.timestamp.toNat))

/-- Timestamps advance by less than `D`, and after `G` there is a key frame. -/
structure SteadyStream (D G : ℕ) (frames : List RtmpRawFrame) : Prop where
  advances : (frames.filter isMediaFrame).IsChain fun a b => (b.timestamp - a.timestamp).toNat < D
  keyframes : ∀ a stretch, (a :: stretch) <:+: frames.filter isMediaFrame →
    (∀ f ∈ stretch, isKeyFrame f = false) → accumulated (a :: stretch) ≤ G

def NoWrap (frames : List RtmpRawFrame) : Prop := (frames.map (·.timestamp.toNat)).IsChain (· ≤ ·)

instance (frames : List RtmpRawFrame) : Decidable (NoWrap frames) := inferInstanceAs (Decidable (List.IsChain _ _))

theorem convertFrame_ptsMs {f : RtmpRawFrame} {pkt : EncodedPacket} (h : convertFrame f = some pkt) :
    pkt.ptsMs = some (f.timestamp.toNat : ℤ) := by
  unfold convertFrame at h
  split at h
  · cases h
  simp only at h
  split at h
  · unfold convertVideoFrame at h
    split at h
    · simp only at h
      split at h
      · cases h
      · obtain rfl := Option.some.inj h
        rfl
    · cases h
  · split at h
    · obtain rfl := Option.some.inj h
      rfl
    · cases h

theorem advance_timestamp (a b : UInt32) : advance (2 ^ 32) a.toNat b.toNat = (b - a).toNat := by
  have ha := a.toNat_lt
  have hb := b.toNat_lt
  rw [UInt32.toNat_sub]
  rcases Nat.lt_or_ge b.toNat a.toNat with hlt | hle
  · rw [advance_of_gt hlt ha]
    omega
  · rw [advance_of_le hle hb]
    omega

/-! ## Where a segment ends -/

/-- A message after the given ones, in terms of their timestamps and key frames. -/
def rollsOver (segmentDuration : ℕ) (segment : List RtmpRawFrame) (f : RtmpRawFrame) : Bool :=
  decide (segmentDuration ≤ segment.head?.elim 0 fun a => f.timestamp.toNat - a.timestamp.toNat) &&
    (isKeyFrame f || !segment.any isKeyFrame)

theorem rollsOver_cons (dur : ℕ) (a : RtmpRawFrame) (segment : List RtmpRawFrame) (f : RtmpRawFrame) :
    rollsOver dur (a :: segment) f =
      (decide (dur ≤ f.timestamp.toNat - a.timestamp.toNat) && (isKeyFrame f || !(a :: segment).any isKeyFrame)) := rfl

/-- The messages of each segment: all whose packets `process` takes between two rollovers. -/
def HlsSegmenter.frameCuts (s : HlsSegmenter) (c : Cuts RtmpRawFrame) : List RtmpRawFrame → Cuts RtmpRawFrame
  | [] => c
  | f :: frames =>
    match convertFrame f with
    | none => s.frameCuts c frames
    | some pkt => (s.process .ok pkt).1.frameCuts (c.step (s.triggers pkt) (!pkt.isSequenceHeader) f) frames

/-- The segment state is that of the messages of the open segment. -/
structure Tracks (s : HlsSegmenter) (c : Cuts RtmpRawFrame) : Prop where
  first : s.segmenter.firstPts = c.current.head?.map fun f => (f.timestamp.toNat : ℤ)
  key : s.segmenter.hasKeyframe = c.current.any isKeyFrame

variable {s : HlsSegmenter} {c : Cuts RtmpRawFrame} {f : RtmpRawFrame} {pkt : EncodedPacket} {segs : List TsSegment}
  {cp : Cuts EncodedPacket}

theorem Tracks.triggers_eq (h : Tracks s c) (hpkt : convertFrame f = some pkt) (hmedia : pkt.isSequenceHeader = false) :
    s.triggers pkt = rollsOver s.segmentDuration c.current f := by
  have hpts := convertFrame_ptsMs hpkt
  have hkey : isKeyFrame f = pkt.isKeyframe := by simp [isKeyFrame, hpkt]
  have helapsed : (s.segmenter.observe pkt).elapsed.getD 0 =
      c.current.head?.elim 0 fun a => f.timestamp.toNat - a.timestamp.toNat := by
    simp only [SegmentState.elapsed, SegmentState.observe, h.first, hpts]
    cases c.current.head? with
    | none => simp
    | some a =>
      simp only [Option.map_some, Option.some_or, Option.elim_some]
      split_ifs
      · simp only [Option.getD_some]
        omega
      · simp only [Option.getD_none]
        omega
  have hseen : (s.segmenter.observe pkt).hasKeyframe = (c.current.any isKeyFrame || pkt.isKeyframe) := by
    rw [SegmentState.observe, h.key]
  simp only [HlsSegmenter.triggers, hmedia, SegmentState.shouldRollover, helapsed, hseen, rollsOver, hkey]
  cases pkt.isKeyframe <;> simp

theorem Tracks.process (h : Tracks s c) (hr : Refines s segs cp) (hpkt : convertFrame f = some pkt) :
    Tracks (s.process .ok pkt).1 (c.step (s.triggers pkt) (!pkt.isSequenceHeader) f) := by
  have hpts := convertFrame_ptsMs hpkt
  have hkey : isKeyFrame f = pkt.isKeyframe := by simp [isKeyFrame, hpkt]
  have hstate := hr.process_segmenter pkt
  cases hseq : pkt.isSequenceHeader with
  | true =>
    rw [hseq, if_pos rfl] at hstate
    rw [triggers_eq_false pkt hseq]
    exact ⟨hstate ▸ h.first, hstate ▸ h.key⟩
  | false =>
    rw [hseq] at hstate
    cases ht : s.triggers pkt with
    | true =>
      rw [ht] at hstate
      simp only [Bool.false_eq_true, if_false, if_true] at hstate
      constructor
      · simp [hstate, SegmentState.startWith, hpts, Cuts.step, Cuts.cut, Cuts.put]
      · simp [hstate, SegmentState.startWith, hkey, Cuts.step, Cuts.cut, Cuts.put]
    | false =>
      rw [ht] at hstate
      simp only [Bool.false_eq_true, if_false] at hstate
      constructor
      · rw [hstate, SegmentState.observe, h.first, hpts]
        cases hcur : c.current <;> simp [Cuts.step, Cuts.put, hcur]
      · simp [hstate, SegmentState.observe, h.key, hkey, Cuts.step, Cuts.put]

/-! ## Segments as messages -/

/-- No message but the first would have started a new segment. -/
def Unbroken (segmentDuration : ℕ) (segment : List RtmpRawFrame) : Prop :=
  ∀ pre f post, segment = pre ++ f :: post → pre ≠ [] → rollsOver segmentDuration pre f = false

/-- The second segment starts with the message that closes the first. -/
def ClosedBy (segmentDuration : ℕ) (segment next : List RtmpRawFrame) : Prop :=
  ∃ f, next.head? = some f ∧ rollsOver segmentDuration segment f = true

structure Sliced (segmentDuration : ℕ) (c : Cuts RtmpRawFrame) : Prop where
  unbroken : ∀ segment ∈ c.segments, Unbroken segmentDuration segment
  closed : c.segments.IsChain (ClosedBy segmentDuration)

theorem Unbroken.append {dur : ℕ} {segment : List RtmpRawFrame} (h : Unbroken dur segment)
    (hf : segment ≠ [] → rollsOver dur segment f = false) : Unbroken dur (segment ++ [f]) := by
  intro pre g post heq hpre
  rcases List.eq_nil_or_concat' post with rfl | ⟨post, z, rfl⟩
  · obtain ⟨rfl, rfl⟩ := by simpa using List.append_inj' heq rfl
    exact hf hpre
  · rw [← List.cons_append, ← List.append_assoc] at heq
    exact h pre g post (List.append_inj' heq rfl).1 hpre

theorem Sliced.step {dur : ℕ} (h : Sliced dur c) (f : RtmpRawFrame) :
    Sliced dur (c.step (rollsOver dur c.current f) true f) where
  unbroken := by
    intro segment hmem
    cases hroll : rollsOver dur c.current f with
    | true =>
      rw [hroll] at hmem
      simp only [Cuts.step, Cuts.segments, Cuts.cut, Cuts.put, if_true, List.nil_append, List.mem_append,
        List.mem_singleton] at hmem
      rcases hmem with hmem | rfl
      · exact h.unbroken segment (List.mem_append.mpr (hmem.imp id List.mem_singleton.mpr))
      · have hempty : Unbroken dur [] := by simp [Unbroken]
        exact hempty.append fun hne => absurd rfl hne
    | false =>
      rw [hroll] at hmem
      simp only [Cuts.step, Cuts.segments, Cuts.put, Bool.false_eq_true, if_false, if_true, List.mem_append,
        List.mem_singleton] at hmem
      rcases hmem with hmem | rfl
      · exact h.unbroken segment (List.mem_append_left _ hmem)
      · exact (h.unbroken c.current (by simp [Cuts.segments])).append fun _ => hroll
  closed := by
    refine Cuts.isChain_step c _ _ f h.closed (fun hroll => ⟨f, rfl, hroll⟩) ?_
    rintro a ⟨g, hg, hroll⟩
    exact ⟨g, by simp [List.head?_append, hg], hroll⟩

/-- A closed segment is followed by the message that closed it. -/
theorem Sliced.exists_closing {dur : ℕ} (h : Sliced dur c) {segment : List RtmpRawFrame} (hmem : segment ∈ c.closed) :
    ∃ f, rollsOver dur segment f = true ∧ (segment ++ [f]) <:+: c.segments.flatten := by
  obtain ⟨before, after, hclosed⟩ := List.append_of_mem hmem
  obtain ⟨next, later, hnext⟩ := List.exists_cons_of_ne_nil (l := after ++ [c.current]) (by simp)
  have hsegments : c.segments = before ++ segment :: next :: later := by
    rw [Cuts.segments, hclosed, List.append_assoc, List.cons_append, hnext]
  have hchain := h.closed
  rw [hsegments, List.isChain_append, List.isChain_cons_cons] at hchain
  obtain ⟨f, hfirst, hroll⟩ := hchain.2.1.1
  obtain ⟨rest, rfl⟩ := List.head?_eq_some_iff.mp hfirst
  exact ⟨f, hroll, before.flatten, rest ++ later.flatten, by simp [hsegments]⟩

/-- The messages of a segment whose packets reach the muxer. -/
def HlsSegmenter.keptFrames (s : HlsSegmenter) (segment : List RtmpRawFrame) : List RtmpRawFrame :=
  segment.filter fun f => (convertFrame f).any s.keeps

/-- The log of packets that a log of messages stands for. -/
def HlsSegmenter.packetCuts (s : HlsSegmenter) (c : Cuts RtmpRawFrame) : Cuts EncodedPacket where
  closed := c.closed.map fun segment => (s.keptFrames segment).filterMap convertFrame
  current := (s.keptFrames c.current).filterMap convertFrame

theorem packetCuts_step (s : HlsSegmenter) (c : Cuts RtmpRawFrame) (hpkt : convertFrame f = some pkt) :
    s.packetCuts (c.step (s.triggers pkt) (!pkt.isSequenceHeader) f) =
      (s.packetCuts c).step (s.triggers pkt) (s.keeps pkt) pkt := by
  have hkept : s.keptFrames [f] = if s.keeps pkt then [f] else [] := by
    simp [HlsSegmenter.keptFrames, List.filter_cons, hpkt]
  have happend : ∀ l, (s.keptFrames (l ++ [f])).filterMap convertFrame =
      (s.keptFrames l).filterMap convertFrame ++ if s.keeps pkt then [pkt] else [] := by
    intro l
    rw [HlsSegmenter.keptFrames, List.filter_append, List.filterMap_append, ← HlsSegmenter.keptFrames,
      ← HlsSegmenter.keptFrames, hkept]
    cases s.keeps pkt <;> simp [hpkt]
  cases hseq : pkt.isSequenceHeader with
  | true =>
    have hdrop : s.keeps pkt = false := by simp [HlsSegmenter.keeps, hseq]
    rw [triggers_eq_false pkt hseq, hdrop]
    rfl
  | false =>
    have hnew := happend []
    cases s.triggers pkt <;> cases hk : s.keeps pkt <;> rw [hk] at happend hnew <;>
      simp_all [Cuts.step, Cuts.cut, Cuts.put, HlsSegmenter.packetCuts, HlsSegmenter.keptFrames]

theorem packetCuts_congr {t : HlsSegmenter} (h : t.keeps = s.keeps) (c : Cuts RtmpRawFrame) :
    t.packetCuts c = s.packetCuts c := by
  simp only [HlsSegmenter.packetCuts, HlsSegmenter.keptFrames, h]

/-! ## A run -/

/-- What a run makes of a stream of messages. -/
structure SlicesStream (s : HlsSegmenter) (c c' : Cuts RtmpRawFrame) (frames : List RtmpRawFrame) : Prop where
  sliced : Sliced s.segmentDuration c'
  flatten : c'.segments.flatten = c.segments.flatten ++ frames.filter isMediaFrame
  packets : s.cuts (s.packetCuts c) (frames.filterMap convertFrame) = s.packetCuts c'

theorem frameCuts_slices (hr : Refines s segs (s.packetCuts c)) (htracks : Tracks s c)
    (hsliced : Sliced s.segmentDuration c) (frames : List RtmpRawFrame) :
    SlicesStream s c (s.frameCuts c frames) frames := by
  induction frames generalizing s segs c with
  | nil => exact ⟨hsliced, by simp [HlsSegmenter.frameCuts], rfl⟩
  | cons f frames ih =>
    rw [HlsSegmenter.frameCuts]
    cases hpkt : convertFrame f with
    | none =>
      obtain ⟨hs, hf, hp⟩ := ih hr htracks hsliced
      have hmedia : isMediaFrame f = false := by simp [isMediaFrame, hpkt]
      exact ⟨hs, by simpa [List.filter_cons, hmedia] using hf, by simpa [List.filterMap_cons, hpkt] using hp⟩
    | some pkt =>
      have hconfig := hr.process_config pkt
      have hkeeps := hr.process_keeps pkt
      have hmedia : isMediaFrame f = !pkt.isSequenceHeader := by simp [isMediaFrame, hpkt]
      have hstep : Sliced s.segmentDuration (c.step (s.triggers pkt) (!pkt.isSequenceHeader) f) := by
        cases hseq : pkt.isSequenceHeader with
        | true =>
          rw [triggers_eq_false pkt hseq]
          exact hsliced
        | false =>
          rw [htracks.triggers_eq hpkt hseq]
          exact hsliced.step f
      have hr' := hr.process pkt
      rw [← packetCuts_step s c hpkt, ← packetCuts_congr hkeeps] at hr'
      obtain ⟨hs, hf, hp⟩ := ih hr' (htracks.process hr hpkt) (hconfig.2.symm ▸ hstep)
      refine ⟨hconfig.2 ▸ hs, ?_, ?_⟩
      · rw [hf, Cuts.flatten_step, ← hmedia, List.append_assoc]
        cases hmf : isMediaFrame f <;> simp [hmf]
      · rw [packetCuts_congr hkeeps, packetCuts_congr hkeeps, packetCuts_step s c hpkt] at hp
        rw [List.filterMap_cons_some hpkt, HlsSegmenter.cuts, hp]

/-! ## How long a segment gets -/

theorem exists_last_key {l : List RtmpRawFrame} (h : ∃ f ∈ l, isKeyFrame f = true) :
    ∃ pre k post, l = pre ++ k :: post ∧ isKeyFrame k = true ∧ ∀ f ∈ post, isKeyFrame f = false := by
  induction l with
  | nil => simp at h
  | cons f l ih =>
    by_cases hl : ∃ g ∈ l, isKeyFrame g = true
    · obtain ⟨pre, k, post, rfl, hk, hpost⟩ := ih hl
      exact ⟨f :: pre, k, post, rfl, hk, hpost⟩
    · have hrest : ∀ g ∈ l, isKeyFrame g = false := fun g hg =>
        Bool.eq_false_iff.mpr fun hkey => hl ⟨g, hg, hkey⟩
      obtain ⟨g, hg, hkey⟩ := h
      rcases List.mem_cons.mp hg with rfl | hg
      · exact ⟨[], g, l, rfl, hkey, hrest⟩
      · exact absurd ⟨g, hg, hkey⟩ hl

theorem timestamps_lt (l : List RtmpRawFrame) : ∀ x ∈ l.map (·.timestamp.toNat), x < 2 ^ 32 := by
  intro x hx
  obtain ⟨f, -, rfl⟩ := List.mem_map.mp hx
  exact f.timestamp.toNat_lt

theorem accumulated_append_cons (pre : List RtmpRawFrame) (f : RtmpRawFrame) (post : List RtmpRawFrame) :
    accumulated (pre ++ f :: post) = accumulated (pre ++ [f]) + accumulated (f :: post) := by
  simp only [accumulated, List.map_append, List.map_cons, List.map_nil]
  exact travelled_append_cons _ _ _ _

/-- Up to its last key frame the segment is shorter than the duration, or that frame had started the next one. -/
theorem Unbroken.accumulated_le {dur G : ℕ} {segment : List RtmpRawFrame} (h : Unbroken dur segment)
    (hwrap : NoWrap segment) (hkeys : ∀ a stretch, (a :: stretch) <:+: segment →
      (∀ f ∈ stretch, isKeyFrame f = false) → accumulated (a :: stretch) ≤ G) :
    accumulated segment ≤ dur + G := by
  cases segment with
  | nil => exact Nat.zero_le _
  | cons a rest =>
    by_cases hkey : ∃ f ∈ rest, isKeyFrame f = true
    · obtain ⟨pre, k, post, rfl, hk, hpost⟩ := exists_last_key hkey
      have hroll := h (a :: pre) k post rfl (List.cons_ne_nil a pre)
      have hshort : k.timestamp.toNat - a.timestamp.toNat < dur := by
        simpa only [rollsOver_cons, hk, Bool.true_or, Bool.and_true, decide_eq_false_iff_not, not_le] using hroll
      have hafter : accumulated (k :: post) ≤ G := hkeys k post ⟨a :: pre, [], by simp⟩ hpost
      have hbefore : a.timestamp.toNat + accumulated (a :: (pre ++ [k])) = k.timestamp.toNat := by
        have hpart : (a :: (pre ++ [k])) <:+: a :: (pre ++ k :: post) := ⟨[], post, by simp⟩
        have hchain : NoWrap (a :: (pre ++ [k])) := List.IsChain.infix hwrap (hpart.map _)
        have hlt := timestamps_lt (pre ++ [k])
        simp only [NoWrap, accumulated, List.map_cons, List.map_append, List.map_nil] at hchain hlt ⊢
        exact travelled_of_isChain hlt hchain
      have hsplit := accumulated_append_cons (a :: pre) k post
      simp only [List.cons_append] at hsplit
      omega
    · have hnone : ∀ f ∈ rest, isKeyFrame f = false := fun f hf =>
        Bool.eq_false_iff.mpr fun hk => hkey ⟨f, hf, hk⟩
      exact (hkeys a rest List.infix_rfl hnone).trans (Nat.le_add_left G dur)

/-- A segment with a wrap is closed only by a message at which the clock has gone around. -/
theorem accumulated_of_wrap {dur D : ℕ} {segment : List RtmpRawFrame} (hdur : 0 < dur)
    (hroll : rollsOver dur segment f = true) (hwrap : ¬ NoWrap segment)
    (hadv : (segment ++ [f]).IsChain fun a b => (b.timestamp - a.timestamp).toNat < D) :
    2 ^ 32 < accumulated segment + D := by
  rcases List.eq_nil_or_concat' segment with rfl | ⟨init, z, rfl⟩
  · exact absurd List.isChain_nil hwrap
  cases init with
  | nil => exact absurd (List.isChain_singleton _) hwrap
  | cons a init =>
    have hlater : a.timestamp.toNat < f.timestamp.toNat := by
      rw [List.cons_append, rollsOver_cons, Bool.and_eq_true, decide_eq_true_eq] at hroll
      omega
    have hstep : accumulated [z, f] < D := by
      have hadv' := List.IsChain.infix hadv (show [z, f] <:+: _ from ⟨a :: init, [], by simp⟩)
      have hstep' : accumulated [z, f] = advance (2 ^ 32) z.timestamp.toNat f.timestamp.toNat := rfl
      rw [hstep', advance_timestamp]
      simpa using hadv'
    have haround : f.timestamp.toNat + 2 ^ 32 ≤ a.timestamp.toNat + accumulated (a :: (init ++ [z] ++ [f])) := by
      have hlt := timestamps_lt (a :: (init ++ [z] ++ [f]))
      have hwrap' : ¬ NoWrap (a :: (init ++ [z] ++ [f])) := by
        intro hchain
        refine hwrap ?_
        exact List.IsChain.infix hchain (List.IsInfix.map _ ⟨[], [f], by simp⟩)
      rw [NoWrap, List.map_cons, List.map_append] at hwrap'
      rw [List.map_cons, List.map_append] at hlt
      rw [accumulated, List.map_cons, List.map_append]
      exact le_travelled_of_not_isChain hlt hwrap'
    have hsplit := accumulated_append_cons (a :: init) z [f]
    simp only [List.cons_append, List.append_assoc, List.nil_append] at hsplit haround ⊢
    omega

/-- A message with an H.264 key frame of one unit. -/
def keyMessage (timestamp : UInt32) : RtmpRawFrame where
  data := [0x17, 1, 0, 0, 0, 0, 0, 0, 1, 0x65]
  timestamp := timestamp
  isVideo := true
  isAudio := false
  isScriptData := false

theorem steadyStream_keyMessages {D : ℕ} (G : ℕ) {timestamps : List UInt32}
    (h : timestamps.IsChain fun a b => (b - a).toNat < D) : SteadyStream D G (timestamps.map keyMessage) := by
  have hmedia : (timestamps.map keyMessage).filter isMediaFrame = timestamps.map keyMessage := by
    refine List.filter_eq_self.mpr fun f hf => ?_
    obtain ⟨t, -, rfl⟩ := List.mem_map.mp hf
    rfl
  refine ⟨by rwa [hmedia, List.isChain_map], fun a stretch hpart hkeys => ?_⟩
  rw [hmedia] at hpart
  cases stretch with
  | nil => exact Nat.zero_le G
  | cons f stretch =>
    obtain ⟨t, -, rfl⟩ := List.mem_map.mp (hpart.subset (show f ∈ a :: f :: stretch by simp))
    have hkey : isKeyFrame (keyMessage t) = true := rfl
    exact absurd (hkey.symm.trans (hkeys _ List.mem_cons_self)) Bool.noConfusion

/-- Over any stream of messages: the packets of a segment are those of its messages, a segment in which timestamps do
not wrap accumulates at most a segment duration and the distance of key frames, and every other one, but the last,
almost a turn of the clock. -/
theorem segments_bounded_iff (streams : List AvCodecId) (cfg : SegmentConfig) {D G : ℕ} {frames : List RtmpRawFrame}
    (h : SteadyStream D G frames) {s t : HlsSegmenter} {segs : List TsSegment}
    (hnew : HlsSegmenter.new streams cfg .ok = some s) (hrec : s.record (frames.filterMap convertFrame) = (t, segs)) :
    segs.map t.written =
        (s.frameCuts {} frames).segments.map (fun segment => (s.keptFrames segment).filterMap convertFrame) ∧
    (∀ segment ∈ (s.frameCuts {} frames).segments, NoWrap segment →
      accumulated (s.keptFrames segment) ≤ 1000 * cfg.durationSecs + G + D) ∧
    (0 < cfg.durationSecs → 1000 * cfg.durationSecs + G + 2 * D ≤ 2 ^ 32 →
      ∀ segment ∈ (s.frameCuts {} frames).closed,
        accumulated segment ≤ 1000 * cfg.durationSecs + G + D ↔ NoWrap segment) := by
  obtain rfl : HlsSegmenter.initial streams cfg = s := by simpa [HlsSegmenter.new, Outcome.ok] using hnew
  have hinit := refines_initial streams cfg
  obtain ⟨hsliced, hflatten, hpackets⟩ := frameCuts_slices (s := HlsSegmenter.initial streams cfg) (c := {}) hinit
    ⟨rfl, rfl⟩ ⟨by simp [Cuts.segments, Unbroken], List.isChain_singleton _⟩ frames
  have hbound : ∀ segment ∈ ((HlsSegmenter.initial streams cfg).frameCuts {} frames).segments, NoWrap segment →
      accumulated segment ≤ 1000 * cfg.durationSecs + G := by
    intro segment hmem hwrap
    have hpart : segment <:+: frames.filter isMediaFrame := by
      have hsub := List.infix_of_mem_flatten hmem
      rwa [hflatten] at hsub
    exact (hsliced.unbroken segment hmem).accumulated_le hwrap fun a stretch hstretch =>
      h.keyframes a stretch (hstretch.trans hpart)
  refine ⟨?_, fun segment hmem hwrap => ?_, fun hdur hturn segment hmem => ⟨fun hle => ?_, fun hwrap => ?_⟩⟩
  · have hfinal := (hinit.record (frames.filterMap convertFrame)).1
    rw [hrec] at hfinal
    have hcuts : (HlsSegmenter.initial streams cfg).cuts {} (frames.filterMap convertFrame) =
        (HlsSegmenter.initial streams cfg).packetCuts ((HlsSegmenter.initial streams cfg).frameCuts {} frames) := hpackets
    rw [hfinal.map_written, hcuts, Cuts.segments, List.map_append]
    rfl
  · have hkept : accumulated (HlsSegmenter.keptFrames (HlsSegmenter.initial streams cfg) segment) ≤
        accumulated segment :=
      travelled_sublist (List.filter_sublist.map _) (timestamps_lt segment)
    have hsegment := hbound segment hmem hwrap
    omega
  · by_contra hwrap
    obtain ⟨f, hroll, hpart⟩ := hsliced.exists_closing hmem
    rw [hflatten] at hpart
    have hadv := List.IsChain.infix h.advances hpart
    have hlong := accumulated_of_wrap (Nat.mul_pos (by decide) hdur) hroll hwrap hadv
    omega
  · exact (hbound segment (List.mem_append_left _ hmem) hwrap).trans (Nat.le_add_right _ D)

theorem segments_bounded_sample :
    [keyMessage 0, keyMessage 500] ∈ ((HlsSegmenter.initial [.h264] ⟨1, 5⟩).frameCuts {}
      ([0, 500, 1000, 1500].map keyMessage)).closed ∧
    accumulated [keyMessage 0, keyMessage 500] ≤ 1000 * 1 + 1500 + 2000 :=
  have hmem : [keyMessage 0, keyMessage 500] ∈ ((HlsSegmenter.initial [.h264] ⟨1, 5⟩).frameCuts {}
      ([0, 500, 1000, 1500].map keyMessage)).closed := by decide +kernel
  have h := segments_bounded_iff [.h264] ⟨1, 5⟩ (steadyStream_keyMessages 1500 (show
    [0, 500, 1000, 1500].IsChain fun a b : UInt32 => (b - a).toNat < 2000 by decide)) rfl rfl
  ⟨hmem, (h.2.2 (by decide) (by decide) _ hmem).mpr (by decide)⟩

/-- Key frames every 1.5 s from just before the wrap on. -/
def wrappingStream : List RtmpRawFrame := [4294967196, 1400, 2900, 4400, 5900].map keyMessage

/-- They all stay in one segment. -/
theorem segment_open_after_wrap :
    SteadyStream 2000 1500 wrappingStream ∧
    (∃ t segs, (HlsSegmenter.initial [.h264] ⟨1, 5⟩).record (wrappingStream.filterMap convertFrame) = (t, segs) ∧
      segs.map (fun seg => (t.written seg).map (·.ptsMs)) =
        [[some 4294967196, some 1400, some 2900, some 4400, some 5900]]) ∧
    1000 * 1 + 1500 + 2000 < accumulated wrappingStream :=
  ⟨steadyStream_keyMessages 1500 (by decide), ⟨_, _, rfl, by decide +kernel⟩, by decide⟩

end LivestreamRs.Hls
