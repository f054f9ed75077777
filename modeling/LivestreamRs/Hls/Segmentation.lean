import LivestreamRs.Foundations.Cuts
import LivestreamRs.Hls.Segmenter

/-! # What the segmenter does to a stream of packets

With the muxer and the disk succeeding, the segmenter refines a log that is cut into segments: the open
segment is the muxer's buffer, the closed ones are the staged files (`Refines`). From this, nothing is
lost or duplicated and segments are numbered and long enough (`record_segments`).
-/
namespace LivestreamRs.Hls
open Media Foundations
set_option autoImplicit false

/-! ## Recording a stream -/

/-- The packets are processed and the segmenter is closed, all calls succeeding. -/
def HlsSegmenter.record (s : HlsSegmenter) (pkts : List EncodedPacket) : HlsSegmenter × List TsSegment :=
  let (s, segs) := s.processAll (pkts.map (Prod.mk .ok))
  let (s, last) := s.close .ok
  (s, segs ++ last.toList)

/-- The packets in the staged file of a segment. -/
def HlsSegmenter.written (s : HlsSegmenter) (seg : TsSegment) : List EncodedPacket :=
  TsData.packets ((s.workspace.uploadDir seg.filename).getD [])

/-- The packet is not a sequence header and its codec has a muxer stream. -/
def HlsSegmenter.keeps (s : HlsSegmenter) (pkt : EncodedPacket) : Bool :=
  !pkt.isSequenceHeader && (s.codecStreamIndex pkt.codec).isSome

/-- `process` would roll over before writing the packet. -/
def HlsSegmenter.triggers (s : HlsSegmenter) (pkt : EncodedPacket) : Bool :=
  !pkt.isSequenceHeader && (s.segmenter.observe pkt).shouldRollover s.segmentDuration pkt

/-! ## Refinement of a cut log -/

/-- The segmenter `s`, having emitted `segs`, represents the cut log `c`. -/
structure Refines (s : HlsSegmenter) (segs : List TsSegment) (c : Cuts EncodedPacket) : Prop where
  ctx_open : s.muxer.hlsCtx.isSome = true
  buffer : s.muxer.tsBuffer.packets = c.current
  next : s.muxer.nextSequence = c.closed.length
  numbered : segs.map (·.sequence) = List.range c.closed.length
  named : ∀ seg ∈ segs, seg.filename = segmentFilename seg.sequence
  staged : ∀ i l, c.closed[i]? = some l →
    ∃ data, s.workspace.uploadDir (segmentFilename i) = some data ∧ TsData.packets data = l

theorem packets_append (a b : TsData) :
    TsData.packets (a ++ b) = TsData.packets a ++ TsData.packets b :=
  List.filterMap_append

theorem refines_initial (streams : List AvCodecId) (cfg : SegmentConfig) :
    Refines (HlsSegmenter.initial streams cfg) [] {} where
  ctx_open := rfl
  buffer := rfl
  next := rfl
  numbered := rfl
  named := by simp
  staged := by simp

/-- The segment `rollover` closes. -/
def HlsSegmenter.nextSegment (s : HlsSegmenter) (duration : ℕ) : TsSegment where
  filename := segmentFilename s.muxer.nextSequence
  sequence := s.muxer.nextSequence
  duration := duration
  isFinal := false

/-- The state `rollover` leaves when all its calls succeed. -/
def HlsSegmenter.rolledOver (s : HlsSegmenter) : HlsSegmenter :=
  let file := segmentFilename s.muxer.nextSequence
  { s with
    muxer := { hlsCtx := some ⟨true⟩, tsBuffer := [.header], nextSequence := s.muxer.nextSequence + 1, lastDts := 0 }
    workspace := (s.workspace.writeTsFile (s.muxer.tsBuffer ++ [.trailer]) s.muxer.nextSequence).stageSegment file }

theorem rollover_ok (s : HlsSegmenter) (d : ℕ) (h : s.muxer.hlsCtx.isSome = true) :
    s.rollover .ok d = (s.rolledOver, some (s.nextSegment d)) := by
  simp [HlsSegmenter.rollover, HlsSegmenter.takeSegment, Outcome.ok, HlsSegmenter.nextSegment,
    HlsSegmenter.rolledOver, HlsMuxerState.withHeader, h]

theorem rolledOver_uploadDir (s : HlsSegmenter) : s.rolledOver.workspace.uploadDir
    = Function.update s.workspace.uploadDir (segmentFilename s.muxer.nextSequence)
        (some (s.muxer.tsBuffer ++ [.trailer])) := by
  simp [HlsSegmenter.rolledOver, SegmentWorkspace.stageSegment, SegmentWorkspace.writeTsFile]

variable {s : HlsSegmenter} {segs : List TsSegment} {c : Cuts EncodedPacket}

theorem Refines.rollover (h : Refines s segs c) (seg : TsSegment) (hseq : seg.sequence = s.muxer.nextSequence)
    (hname : seg.filename = segmentFilename seg.sequence) : Refines s.rolledOver (segs ++ [seg]) c.cut where
  ctx_open := rfl
  buffer := rfl
  next := by simp [HlsSegmenter.rolledOver, Cuts.cut, h.next]
  numbered := by simp [Cuts.cut, List.range_succ, h.numbered, hseq, h.next]
  named := by
    intro seg' hmem
    obtain hmem | rfl := by simpa using hmem
    · exact h.named seg' hmem
    · exact hname
  staged := by
    intro i l hl
    rw [rolledOver_uploadDir, h.next]
    obtain hi | hi := Nat.lt_or_ge i c.closed.length
    · rw [Function.update_of_ne (fun e => hi.ne (segmentFilename_injective e))]
      exact h.staged i l (by rwa [Cuts.cut, List.getElem?_append_left hi] at hl)
    · have hlast : i = c.closed.length := by
        have hlt := (List.getElem?_eq_some_iff.mp hl).1
        simp only [Cuts.cut, List.length_append, List.length_singleton] at hlt
        omega
      subst hlast
      refine ⟨s.muxer.tsBuffer ++ [.trailer], Function.update_self .., ?_⟩
      rw [Cuts.cut, List.getElem?_concat_length, Option.some_inj] at hl
      rw [packets_append, h.buffer, hl]
      exact List.append_nil l

/-- The segment state and the playlist are not part of the represented log. -/
theorem Refines.of_eq (h : Refines s segs c) (s' : HlsSegmenter) (hm : s'.muxer = s.muxer)
    (hu : s'.workspace.uploadDir = s.workspace.uploadDir) : Refines s' segs c := by
  obtain ⟨h1, h2, h3, h4, h5, h6⟩ := h
  exact ⟨hm ▸ h1, hm ▸ h2, hm ▸ h3, h4, h5, hu ▸ h6⟩

theorem listSegment_uploadDir (s : HlsSegmenter) (o : Outcome) (seg : TsSegment) :
    (s.listSegment o seg).workspace.uploadDir = s.workspace.uploadDir := by
  simp only [HlsSegmenter.listSegment, SegmentWorkspace.writePlaylist]
  split
  · rfl
  · split <;> rfl

theorem Refines.listSegment (h : Refines s segs c) (o : Outcome) (seg : TsSegment) :
    Refines (s.listSegment o seg) segs c :=
  h.of_eq _ rfl (listSegment_uploadDir s o seg)

/-- The muxer after a frame of the packet was accepted on the given stream, if there is one. -/
def HlsMuxerState.accept (m : HlsMuxerState) (muxerIdx : Option ℕ) (pkt : EncodedPacket) : HlsMuxerState :=
  match muxerIdx with
  | none => m
  | some idx =>
    let f := muxerFrame pkt idx m.lastDts
    { m with lastDts := f.avPkt.dts.getD 0, tsBuffer := m.tsBuffer ++ [.frame f] }

theorem writePacketOrReset_ok (h : s.muxer.hlsCtx.isSome = true) (pkt : EncodedPacket) :
    s.writePacketOrReset .ok pkt = { s with muxer := s.muxer.accept (s.codecStreamIndex pkt.codec) pkt } := by
  obtain ⟨ctx, hctx⟩ := Option.isSome_iff_exists.mp h
  cases hidx : s.codecStreamIndex pkt.codec with
  | none => simp [HlsSegmenter.writePacketOrReset, HlsSegmenter.writePacket, Outcome.ok, hidx,
      HlsMuxerState.accept]
  | some idx => simp [HlsSegmenter.writePacketOrReset, HlsSegmenter.writePacket, Outcome.ok, hidx, hctx,
      HlsMuxerState.accept]

theorem Refines.writePacketOrReset (h : Refines s segs c) (pkt : EncodedPacket) :
    Refines (s.writePacketOrReset .ok pkt) segs
      (if (s.codecStreamIndex pkt.codec).isSome then c.put pkt else c) := by
  rw [writePacketOrReset_ok h.ctx_open]
  cases s.codecStreamIndex pkt.codec with
  | none => exact h.of_eq _ rfl rfl
  | some idx =>
    have hbuffer : TsData.packets (s.muxer.tsBuffer ++ [.frame (muxerFrame pkt idx s.muxer.lastDts)])
        = c.current ++ [pkt] := by
      rw [packets_append, h.buffer]
      rfl
    exact ⟨h.ctx_open, hbuffer, h.next, h.numbered, h.named, h.staged⟩

/-! ## One packet -/

/-- The segment a packet closes when it triggers a rollover. -/
def HlsSegmenter.closedBy (s : HlsSegmenter) (pkt : EncodedPacket) : TsSegment :=
  s.nextSegment ((s.segmenter.observe pkt).elapsed.getD 0)

/-- The state in which a packet that does not trigger a rollover is written. -/
def HlsSegmenter.observed (s : HlsSegmenter) (pkt : EncodedPacket) : HlsSegmenter :=
  { s with segmenter := s.segmenter.observe pkt }

/-- The state in which the triggering packet is written. -/
def HlsSegmenter.startSegment (s : HlsSegmenter) (pkt : EncodedPacket) : HlsSegmenter :=
  HlsSegmenter.listSegment { s.rolledOver with segmenter := .startWith pkt } .ok (s.closedBy pkt)

theorem process_seqHeader (pkt : EncodedPacket) (hseq : pkt.isSequenceHeader = true) :
    s.process .ok pkt = (s, some []) := by
  simp [HlsSegmenter.process, hseq]

theorem process_trigger (h : s.muxer.hlsCtx.isSome = true) (pkt : EncodedPacket) (ht : s.triggers pkt = true) :
    s.process .ok pkt = ((s.startSegment pkt).writePacketOrReset .ok pkt, some [s.closedBy pkt]) := by
  obtain ⟨hseq, hroll⟩ : pkt.isSequenceHeader = false
      ∧ (s.segmenter.observe pkt).shouldRollover s.segmentDuration pkt = true := by
    simpa [HlsSegmenter.triggers] using ht
  simp only [HlsSegmenter.process, hseq, Bool.false_eq_true, if_false]
  rw [if_pos hroll, rollover_ok { s with segmenter := s.segmenter.observe pkt } _ h]
  rfl

theorem process_append (pkt : EncodedPacket) (hseq : pkt.isSequenceHeader = false)
    (ht : s.triggers pkt = false) :
    s.process .ok pkt = ((s.observed pkt).writePacketOrReset .ok pkt, some []) := by
  have hroll : (s.segmenter.observe pkt).shouldRollover s.segmentDuration pkt = false := by
    simpa [HlsSegmenter.triggers, hseq] using ht
  simp [HlsSegmenter.process, HlsSegmenter.observed, hseq, hroll]

/-- The segments `process` returns when all calls succeed. -/
def HlsSegmenter.emits (s : HlsSegmenter) (pkt : EncodedPacket) : List TsSegment :=
  if s.triggers pkt then [s.closedBy pkt] else []

theorem triggers_not_seqHeader {pkt : EncodedPacket} (ht : s.triggers pkt = true) :
    pkt.isSequenceHeader = false := by
  simp only [HlsSegmenter.triggers, Bool.and_eq_true, Bool.not_eq_true'] at ht
  exact ht.1

theorem triggers_eq_false (pkt : EncodedPacket) (hseq : pkt.isSequenceHeader = true) :
    s.triggers pkt = false := by
  simp [HlsSegmenter.triggers, hseq]

theorem Refines.process_emits (h : Refines s segs c) (pkt : EncodedPacket) :
    (s.process .ok pkt).2 = some (s.emits pkt) := by
  cases hseq : pkt.isSequenceHeader with
  | true => simp [process_seqHeader pkt hseq, HlsSegmenter.emits, triggers_eq_false pkt hseq]
  | false =>
    cases ht : s.triggers pkt with
    | true => simp [process_trigger h.ctx_open pkt ht, HlsSegmenter.emits, ht]
    | false => simp [process_append pkt hseq ht, HlsSegmenter.emits, ht]

theorem Refines.process (h : Refines s segs c) (pkt : EncodedPacket) :
    Refines (s.process .ok pkt).1 (segs ++ s.emits pkt) (c.step (s.triggers pkt) (s.keeps pkt) pkt) := by
  cases hseq : pkt.isSequenceHeader with
  | true =>
    simpa [process_seqHeader pkt hseq, HlsSegmenter.emits, triggers_eq_false pkt hseq, Cuts.step,
      HlsSegmenter.keeps, hseq] using h
  | false =>
    have hkeep : s.keeps pkt = (s.codecStreamIndex pkt.codec).isSome := by simp [HlsSegmenter.keeps, hseq]
    cases ht : s.triggers pkt with
    | true =>
      rw [process_trigger h.ctx_open pkt ht, HlsSegmenter.emits, ht, if_pos rfl, hkeep]
      have hroll := h.rollover (s.closedBy pkt) rfl rfl
      exact ((hroll.of_eq { s.rolledOver with segmenter := .startWith pkt } rfl rfl).listSegment
        .ok (s.closedBy pkt)).writePacketOrReset pkt
    | false =>
      rw [process_append pkt hseq ht, HlsSegmenter.emits, ht, hkeep]
      simp only [Bool.false_eq_true, if_false, List.append_nil, Cuts.step]
      exact (h.of_eq (s.observed pkt) rfl rfl).writePacketOrReset pkt

/-! ## What a packet leaves unchanged -/

theorem process_ok_config (h : s.muxer.hlsCtx.isSome = true) (pkt : EncodedPacket) :
    (s.process .ok pkt).1.codecStreamIndex = s.codecStreamIndex
      ∧ (s.process .ok pkt).1.segmentDuration = s.segmentDuration := by
  cases hseq : pkt.isSequenceHeader with
  | true => simp [process_seqHeader pkt hseq]
  | false =>
    cases ht : s.triggers pkt with
    | true =>
      rw [process_trigger h pkt ht, writePacketOrReset_ok rfl]
      exact ⟨rfl, rfl⟩
    | false =>
      rw [process_append pkt hseq ht, writePacketOrReset_ok (s := s.observed pkt) h]
      exact ⟨rfl, rfl⟩

theorem Refines.process_config (h : Refines s segs c) (pkt : EncodedPacket) :
    (s.process .ok pkt).1.codecStreamIndex = s.codecStreamIndex
      ∧ (s.process .ok pkt).1.segmentDuration = s.segmentDuration := process_ok_config h.ctx_open pkt

theorem Refines.process_keeps (h : Refines s segs c) (pkt : EncodedPacket) :
    (s.process .ok pkt).1.keeps = s.keeps := by
  funext p
  simp only [HlsSegmenter.keeps, (h.process_config pkt).1]

theorem closedBy_long (pkt : EncodedPacket) (ht : s.triggers pkt = true) :
    s.segmentDuration ≤ (s.closedBy pkt).duration := by
  simp only [HlsSegmenter.triggers, SegmentState.shouldRollover, Bool.and_eq_true, decide_eq_true_eq] at ht
  exact ht.2.1

/-! ## A whole recording -/

/-- The cut log a run of the segmenter represents. -/
def HlsSegmenter.cuts (s : HlsSegmenter) (c : Cuts EncodedPacket) : List EncodedPacket → Cuts EncodedPacket
  | [] => c
  | pkt :: pkts => (s.process .ok pkt).1.cuts (c.step (s.triggers pkt) (s.keeps pkt) pkt) pkts

theorem Refines.processAll (h : Refines s segs c) (pkts : List EncodedPacket) :
    Refines (s.processAll (pkts.map (Prod.mk .ok))).1 (segs ++ (s.processAll (pkts.map (Prod.mk .ok))).2)
      (s.cuts c pkts) := by
  induction pkts generalizing s segs c with
  | nil => simpa [HlsSegmenter.processAll, HlsSegmenter.cuts] using h
  | cons pkt pkts ih =>
    have hrest := ih (h.process pkt)
    simp only [List.map_cons, HlsSegmenter.processAll, HlsSegmenter.cuts, h.process_emits pkt,
      Option.getD_some, ← List.append_assoc]
    exact hrest

/-- Every segment returned by `process` is long enough and not marked as the last. -/
theorem Refines.processAll_long (h : Refines s segs c) (pkts : List EncodedPacket) :
    ∀ seg ∈ (s.processAll (pkts.map (Prod.mk .ok))).2,
      s.segmentDuration ≤ seg.duration ∧ seg.isFinal = false := by
  induction pkts generalizing s segs c with
  | nil => simp [HlsSegmenter.processAll]
  | cons pkt pkts ih =>
    intro seg hseg
    simp only [List.map_cons, HlsSegmenter.processAll, h.process_emits pkt, Option.getD_some,
      List.mem_append] at hseg
    obtain hseg | hseg := hseg
    · simp only [HlsSegmenter.emits] at hseg
      split at hseg
      · obtain rfl := List.mem_singleton.mp hseg
        exact ⟨closedBy_long pkt ‹_›, rfl⟩
      · exact absurd hseg List.not_mem_nil
    · have hlong := ih (h.process pkt) seg hseg
      rwa [(h.process_config pkt).2] at hlong

theorem Refines.cuts_flatten (h : Refines s segs c) (pkts : List EncodedPacket) :
    (s.cuts c pkts).segments.flatten = c.segments.flatten ++ pkts.filter s.keeps := by
  induction pkts generalizing s segs c with
  | nil => simp [HlsSegmenter.cuts]
  | cons pkt pkts ih =>
    rw [HlsSegmenter.cuts, ih (h.process pkt), Cuts.flatten_step, h.process_keeps, List.append_assoc]
    cases hk : s.keeps pkt <;> simp [hk]

theorem cuts_append (s : HlsSegmenter) (c : Cuts EncodedPacket) (pre post : List EncodedPacket) :
    s.cuts c (pre ++ post)
      = (s.processAll (pre.map (Prod.mk .ok))).1.cuts (s.cuts c pre) post := by
  induction pre generalizing s c with
  | nil => rfl
  | cons pkt pre ih => exact ih _ _

theorem grows_cuts (s : HlsSegmenter) (c : Cuts EncodedPacket) (pkts : List EncodedPacket) :
    c.Grows (s.cuts c pkts) := by
  induction pkts generalizing s c with
  | nil => exact .refl c
  | cons pkt pkts ih => exact Cuts.Grows.trans (Cuts.grows_step c (s.triggers pkt) (s.keeps pkt) pkt) (ih _ _)

/-- The segments a recording is made of: those of `process`, then the one of `close`. -/
theorem Refines.record (h : Refines s [] c) (pkts : List EncodedPacket) :
    Refines (s.record pkts).1 (s.record pkts).2 (s.cuts c pkts).cut ∧
    ∃ last, (s.record pkts).2 = (s.processAll (pkts.map (Prod.mk .ok))).2 ++ [last] ∧ last.isFinal = true := by
  have hrun := h.processAll pkts
  simp only [HlsSegmenter.record, HlsSegmenter.close]
  rw [rollover_ok _ _ hrun.ctx_open]
  refine ⟨?_, _, rfl, rfl⟩
  exact (hrun.rollover _ rfl rfl).listSegment .ok _

theorem Refines.sequence_getElem (h : Refines s segs c) (i : ℕ) (hi : i < segs.length) :
    segs[i].sequence = i := by
  have hmap := List.getElem_of_eq h.numbered (i := i) (by simpa using hi)
  simpa using hmap

theorem Refines.map_written (h : Refines s segs c) : segs.map s.written = c.closed := by
  have hlen : segs.length = c.closed.length := by
    have hmap := congrArg List.length h.numbered
    simpa using hmap
  refine List.ext_getElem (by simpa using hlen) fun i h₁ h₂ => ?_
  have hi : i < segs.length := by simpa using h₁
  obtain ⟨data, hdata, hpkts⟩ := h.staged i _ (List.getElem?_eq_getElem h₂)
  rw [List.getElem_map, HlsSegmenter.written, h.named _ (List.getElem_mem hi), h.sequence_getElem i hi, hdata]
  exact hpkts

theorem Refines.exists_segment (h : Refines s segs c) (i : ℕ) (l : List EncodedPacket)
    (hl : c.closed[i]? = some l) : ∃ seg ∈ segs, seg.sequence = i ∧ s.written seg = l := by
  rw [← h.map_written, List.getElem?_map] at hl
  obtain ⟨seg, hseg, hw⟩ := Option.map_eq_some_iff.mp hl
  obtain ⟨hi, rfl⟩ := List.getElem?_eq_some_iff.mp hseg
  exact ⟨segs[i], List.getElem_mem hi, h.sequence_getElem i hi, hw⟩

theorem Refines.processAll_keeps (h : Refines s segs c) (pkts : List EncodedPacket) :
    (s.processAll (pkts.map (Prod.mk .ok))).1.keeps = s.keeps := by
  induction pkts generalizing s segs c with
  | nil => rfl
  | cons pkt pkts ih => exact (ih (h.process pkt)).trans (h.process_keeps pkt)

/-- After a rollover the triggering packet is the first of the new segment, to the end of the run. -/
theorem trigger_first (s : HlsSegmenter) (c : Cuts EncodedPacket) (pkt : EncodedPacket)
    (post : List EncodedPacket) (ht : s.triggers pkt = true) (hk : s.keeps pkt = true) :
    ∃ l, (s.cuts c (pkt :: post)).segments[c.closed.length + 1]? = some l ∧ l.head? = some pkt := by
  have hnew : (c.step (s.triggers pkt) (s.keeps pkt) pkt).segments[c.closed.length + 1]? = some [pkt] := by
    simp [ht, hk, Cuts.step, Cuts.cut, Cuts.put, Cuts.segments]
  obtain ⟨l, hl, tail, rfl⟩ := grows_cuts (s.process .ok pkt).1 _ post _ _ hnew
  exact ⟨_, hl, rfl⟩

/-- Recording loses and duplicates nothing: the staged segments together hold exactly the packets that
have a muxer stream, in order. Segments are numbered from 0, only the one of `close` may be short, and a
packet that triggers a rollover is the first of the next segment. -/
theorem record_segments (streams : List AvCodecId) (cfg : SegmentConfig) (pkts : List EncodedPacket)
    (s t : HlsSegmenter) (segs : List TsSegment) (hnew : HlsSegmenter.new streams cfg .ok = some s)
    (hrec : s.record pkts = (t, segs)) :
    segs.flatMap t.written
        = pkts.filter (fun p => !p.isSequenceHeader && (s.codecStreamIndex p.codec).isSome) ∧
    segs.map (·.sequence) = List.range segs.length ∧
    (∃ init last, segs = init ++ [last] ∧ last.isFinal = true ∧
      ∀ seg ∈ init, seg.isFinal = false ∧ 1000 * cfg.durationSecs ≤ seg.duration) ∧
    ∀ pre pkt post seg, pkts = pre ++ pkt :: post →
      ((s.processAll (pre.map (Prod.mk .ok))).1.process .ok pkt).2 = some [seg] →
      (s.codecStreamIndex pkt.codec).isSome →
      ∃ next ∈ segs, next.sequence = seg.sequence + 1 ∧ (t.written next).head? = some pkt := by
  obtain rfl : HlsSegmenter.initial streams cfg = s := by simpa [HlsSegmenter.new, Outcome.ok] using hnew
  have hinit := refines_initial streams cfg
  obtain ⟨hfinal, last, hsegs, hlast⟩ := hinit.record pkts
  rw [hrec] at hfinal hsegs
  have hwritten := hfinal.map_written
  refine ⟨?_, ?_, ⟨_, last, hsegs, hlast, fun seg hseg => ?_⟩, ?_⟩
  · rw [List.flatMap_def, hwritten]
    exact hinit.cuts_flatten pkts
  · have hlen := congrArg List.length hwritten
    rw [hfinal.numbered, ← hlen, List.length_map]
  · exact (hinit.processAll_long pkts seg hseg).symm
  · rintro pre pkt post seg rfl hemit hmapped
    have hrun := hinit.processAll pre
    rw [hrun.process_emits, HlsSegmenter.emits, Option.some_inj] at hemit
    split at hemit
    case isFalse => cases hemit
    case isTrue ht =>
      obtain rfl := List.singleton_inj.mp hemit
      have hkeep : (HlsSegmenter.initial streams cfg).keeps pkt = true := by
        simp [HlsSegmenter.keeps, triggers_not_seqHeader ht, hmapped]
      rw [← hinit.processAll_keeps pre] at hkeep
      obtain ⟨l, hl, hhead⟩ := trigger_first _ (HlsSegmenter.cuts _ {} pre) pkt post ht hkeep
      rw [← cuts_append] at hl
      obtain ⟨next, hmem, hnext, hw⟩ := hfinal.exists_segment _ l hl
      exact ⟨next, hmem, by rw [hnext, ← hrun.next]; rfl, hw ▸ hhead⟩

/-- A video key frame, an audio packet, and a second key frame that triggers the rollover. -/
def sampleStream : List EncodedPacket :=
  [⟨.h264, 0, .annexB [0x65], some 0, some 0, true, false, false, none⟩,
   ⟨.aac, 0, .annexB [0x21], some 700, none, false, false, false, none⟩,
   ⟨.h264, 0, .annexB [0x65], some 1200, some 1200, true, false, false, none⟩]

theorem record_segments_sample :
    ∃ t segs, (HlsSegmenter.initial [.h264, .aac] ⟨1, 5⟩).record sampleStream = (t, segs)
      ∧ segs.map (·.sequence) = [0, 1] ∧ segs.flatMap t.written = sampleStream :=
  have h := record_segments [.h264, .aac] ⟨1, 5⟩ sampleStream _ _ _ rfl rfl
  ⟨_, _, rfl, h.2.1, h.1⟩

end LivestreamRs.Hls
