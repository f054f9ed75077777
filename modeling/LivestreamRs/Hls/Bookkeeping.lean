import LivestreamRs.Hls.Segmentation

/-! # The playlist when calls fail

`rollover` takes the number and the buffer of the segment before the calls that may still fail, and `process` starts
the clock of the next segment only after it has returned. A rollover that fails in between leaves a gap in the
numbering, and the segment after it counts its duration from the one that was lost. A `Recording` keeps the history
of a segmenter whose calls succeed or fail as they please; `bookkeeping` says what its playlist is worth.
-/
namespace LivestreamRs.Hls
open Media
set_option autoImplicit false

/-! ## Recordings -/

structure PushedSegment where
  segment : TsSegment
  -- the timestamp of the packet that closed it; for `close`, of the last packet
  closing : Option ℤ
  -- how many rollovers had lost their number by then
  lost : ℕ

structure Recording where
  segmenter : HlsSegmenter
  pushed : List PushedSegment := []
  -- how many rollovers have lost their number
  lost : ℕ := 0
  lastPts : Option ℤ := none

def Recording.initial (streams : List AvCodecId) (cfg : SegmentConfig) : Recording where
  segmenter := .initial streams cfg

/-- With these outcomes a rollover takes the number of the segment and fails: the trailer is written, if there is a
context to write it, and the new context, its header, the TS file or the staging of it fails. -/
def Outcome.losesNumber (o : Outcome) (m : HlsMuxerState) : Bool :=
  (m.hlsCtx.isNone || o.writeTrailer) && !(o.createCtx && o.writeHeader && o.writeTsFile && o.stageSegment)

/-- After a call that left the segmenter in the given state and pushed the given segments, or failed. -/
def Recording.after (r : Recording) (s : HlsSegmenter) (out : Option (List TsSegment)) (closing : Option ℤ)
    (lost : Bool) : Recording where
  segmenter := s
  pushed := r.pushed ++ (out.getD []).map fun seg => ⟨seg, closing, r.lost⟩
  lost := r.lost + lost.toNat
  lastPts := closing

def Recording.process (r : Recording) (o : Outcome) (pkt : EncodedPacket) : Recording :=
  r.after (r.segmenter.process o pkt).1 (r.segmenter.process o pkt).2
    (if pkt.isSequenceHeader then r.lastPts else pkt.ptsMs)
    (r.segmenter.triggers pkt && o.losesNumber r.segmenter.muxer)

def Recording.close (r : Recording) (o : Outcome) : Recording :=
  r.after (r.segmenter.close o).1 ((r.segmenter.close o).2.map fun seg => [seg]) r.lastPts
    (o.losesNumber r.segmenter.muxer)

def Recording.processAll (r : Recording) (steps : List (Outcome × EncodedPacket)) : Recording :=
  steps.foldl (fun r step => r.process step.1 step.2) r

/-- With or without the final `close`. -/
def Recording.finish (r : Recording) (final : Option Outcome) : Recording := final.elim r r.close

def recordingOf (streams : List AvCodecId) (cfg : SegmentConfig) (steps : List (Outcome × EncodedPacket))
    (final : Option Outcome) : Recording :=
  ((Recording.initial streams cfg).processAll steps).finish final

/-! ## What a call can do -/

variable {s s' : HlsSegmenter} {o : Outcome} {pkt : EncodedPacket}

/-- Nothing is staged or listed. -/
structure KeepsBooks (s s' : HlsSegmenter) : Prop where
  playlist : s'.playlist = s.playlist
  uploadDir : s'.workspace.uploadDir = s.workspace.uploadDir
  codecs : s'.codecStreamIndex = s.codecStreamIndex
  duration : s'.segmentDuration = s.segmentDuration

/-- The buffer is staged under the next number. -/
structure RollsOver (s s' : HlsSegmenter) : Prop where
  next : s'.muxer.nextSequence = s.muxer.nextSequence + 1
  buffer : s'.muxer.tsBuffer.packets = []
  playlist : s'.playlist = s.playlist
  codecs : s'.codecStreamIndex = s.codecStreamIndex
  duration : s'.segmentDuration = s.segmentDuration
  staged : ∃ data, TsData.packets data = s.muxer.tsBuffer.packets ∧
    s'.workspace.uploadDir = Function.update s.workspace.uploadDir (segmentFilename s.muxer.nextSequence) (some data)

theorem takeSegment_cases (s : HlsSegmenter) (o : Outcome) :
    s.takeSegment o = (s, none) ∨
    (∃ m, s.takeSegment o = ({ s with muxer := m }, none) ∧ m.nextSequence = s.muxer.nextSequence + 1) ∨
    ∃ m data, s.takeSegment o = ({ s with muxer := m }, some (s.muxer.nextSequence, data)) ∧
      m.nextSequence = s.muxer.nextSequence + 1 ∧ m.tsBuffer.packets = [] ∧
      TsData.packets data = s.muxer.tsBuffer.packets := by
  have hdata : TsData.packets (if s.muxer.hlsCtx.isSome then s.muxer.tsBuffer ++ [.trailer] else s.muxer.tsBuffer) =
      s.muxer.tsBuffer.packets := by
    split
    · rw [packets_append]
      exact List.append_nil _
    · rfl
  unfold HlsSegmenter.takeSegment
  split
  · exact .inl rfl
  · dsimp only
    split
    · exact .inr (.inr ⟨_, _, rfl, rfl, rfl, hdata⟩)
    · exact .inr (.inl ⟨_, rfl, rfl⟩)

/-- `rollover` fails before it takes the number, or after it, or it closes the segment. -/
theorem rollover_cases (s : HlsSegmenter) (o : Outcome) (d : ℕ) :
    s.rollover o d = (s, none) ∨
    (∃ s', s.rollover o d = (s', none) ∧ KeepsBooks s s' ∧ s'.muxer.nextSequence = s.muxer.nextSequence + 1) ∨
    ∃ s', s.rollover o d = (s', some (s.nextSegment d)) ∧ RollsOver s s' := by
  rcases takeSegment_cases s o with h | ⟨m, h, hnext⟩ | ⟨m, data, h, hnext, hbuffer, hdata⟩
  · exact .inl (by simp only [HlsSegmenter.rollover, h])
  · refine .inr (.inl ⟨{ s with muxer := m }, ?_, ⟨rfl, rfl, rfl, rfl⟩, hnext⟩)
    simp only [HlsSegmenter.rollover, h]
  · simp only [HlsSegmenter.rollover, h]
    split
    · exact .inr (.inl ⟨_, rfl, ⟨rfl, rfl, rfl, rfl⟩, hnext⟩)
    · split
      · exact .inr (.inl ⟨_, rfl, ⟨rfl, rfl, rfl, rfl⟩, hnext⟩)
      · refine .inr (.inr ⟨_, rfl, hnext, hbuffer, rfl, rfl, rfl, data, hdata, ?_⟩)
        simp [SegmentWorkspace.stageSegment, SegmentWorkspace.writeTsFile]

/-- A rollover loses its number exactly when it fails with the number taken. -/
theorem losesNumber_iff (s : HlsSegmenter) (o : Outcome) (d : ℕ) :
    o.losesNumber s.muxer = true ↔
      (s.rollover o d).2 = none ∧ (s.rollover o d).1.muxer.nextSequence = s.muxer.nextSequence + 1 := by
  cases htrailer : s.muxer.hlsCtx.isSome && !o.writeTrailer with
  | true =>
    have hkept : (s.muxer.hlsCtx.isNone || o.writeTrailer) = false := by
      cases hctx : s.muxer.hlsCtx <;> simp_all
    simp [Outcome.losesNumber, hkept, HlsSegmenter.rollover, HlsSegmenter.takeSegment, htrailer]
  | false =>
    have htaken : (s.muxer.hlsCtx.isNone || o.writeTrailer) = true := by
      cases hctx : s.muxer.hlsCtx <;> simp_all
    cases hcreate : o.createCtx && o.writeHeader with
    | false =>
      simp [Outcome.losesNumber, htaken, HlsSegmenter.rollover, HlsSegmenter.takeSegment, htrailer, hcreate]
    | true =>
      cases hfile : o.writeTsFile <;> cases hstage : o.stageSegment <;>
        simp [Outcome.losesNumber, htaken, HlsSegmenter.rollover, HlsSegmenter.takeSegment, htrailer, hcreate, hfile,
          hstage, HlsMuxerState.withHeader]

theorem writePacket_cases (s : HlsSegmenter) (o : Outcome) (pkt : EncodedPacket) :
    ∃ m : HlsMuxerState, m.nextSequence = s.muxer.nextSequence ∧
      ((s.writePacket o pkt = ({ s with muxer := m }, true) ∧ m.tsBuffer.packets =
          s.muxer.tsBuffer.packets ++ if (s.codecStreamIndex pkt.codec).isSome then [pkt] else []) ∨
        s.writePacket o pkt = ({ s with muxer := m }, false)) := by
  cases hconv : o.toAvPacket with
  | false => exact ⟨s.muxer, rfl, .inr (by simp [HlsSegmenter.writePacket, hconv])⟩
  | true =>
    cases hidx : s.codecStreamIndex pkt.codec with
    | none =>
      refine ⟨s.muxer, rfl, .inl ⟨?_, by simp⟩⟩
      simp [HlsSegmenter.writePacket, hconv, hidx]
    | some idx =>
      let f := muxerFrame pkt idx s.muxer.lastDts
      let moved : HlsMuxerState := { s.muxer with lastDts := f.avPkt.dts.getD 0 }
      simp only [HlsSegmenter.writePacket, hconv, hidx, Bool.not_true, Bool.false_eq_true, if_false]
      split
      · exact ⟨moved, rfl, .inr rfl⟩
      · split
        · refine ⟨{ moved with tsBuffer := s.muxer.tsBuffer ++ [.frame f] }, rfl, .inl ⟨rfl, ?_⟩⟩
          rw [packets_append]
          rfl
        · exact ⟨moved, rfl, .inr rfl⟩

theorem resetAfterWriteError_spec (s : HlsSegmenter) (o : Outcome) :
    ∃ m : HlsMuxerState, s.resetAfterWriteError o = { s with muxer := m, segmenter := {} } ∧
      m.nextSequence = s.muxer.nextSequence ∧ m.tsBuffer.packets = [] := by
  refine ⟨(s.resetAfterWriteError o).muxer, rfl, ?_⟩
  unfold HlsSegmenter.resetAfterWriteError
  dsimp only
  split <;> exact ⟨rfl, rfl⟩

/-- The packet is appended, or skipped for want of a stream, or the segment starts over. -/
theorem writePacketOrReset_cases (s : HlsSegmenter) (o : Outcome) (pkt : EncodedPacket) :
    ∃ m : HlsMuxerState, m.nextSequence = s.muxer.nextSequence ∧
      ((s.writePacketOrReset o pkt = { s with muxer := m } ∧ m.tsBuffer.packets =
          s.muxer.tsBuffer.packets ++ if (s.codecStreamIndex pkt.codec).isSome then [pkt] else []) ∨
        (s.writePacketOrReset o pkt = { s with muxer := m, segmenter := {} } ∧ m.tsBuffer.packets = [])) := by
  obtain ⟨m, hnext, ⟨hwrite, hbuffer⟩ | hwrite⟩ := writePacket_cases s o pkt
  · exact ⟨m, hnext, .inl ⟨by simp only [HlsSegmenter.writePacketOrReset, hwrite], hbuffer⟩⟩
  · obtain ⟨m', hreset, hm, hbuffer⟩ := resetAfterWriteError_spec { s with muxer := m } o
    exact ⟨m', hm.trans hnext, .inr ⟨by simp only [HlsSegmenter.writePacketOrReset, hwrite, hreset], hbuffer⟩⟩

theorem writePacketOrReset_keepsBooks (s : HlsSegmenter) (o : Outcome) (pkt : EncodedPacket) :
    KeepsBooks s (s.writePacketOrReset o pkt) ∧
      (s.writePacketOrReset o pkt).muxer.nextSequence = s.muxer.nextSequence := by
  obtain ⟨m, hnext, ⟨heq, -⟩ | ⟨heq, -⟩⟩ := writePacketOrReset_cases s o pkt <;> rw [heq] <;>
    exact ⟨⟨rfl, rfl, rfl, rfl⟩, hnext⟩

/-- How `process` can return. -/
inductive ProcessReturns (s : HlsSegmenter) (o : Outcome) (pkt : EncodedPacket) :
    HlsSegmenter × Option (List TsSegment) → Prop
  | skipped (hseq : pkt.isSequenceHeader = true) : ProcessReturns s o pkt (s, some [])
  | written (hseq : pkt.isSequenceHeader = false) (ht : s.triggers pkt = false) :
      ProcessReturns s o pkt ((s.observed pkt).writePacketOrReset o pkt, some [])
  -- `rollover` failed before it took the number
  | refused (ht : s.triggers pkt = true) (hkept : o.losesNumber s.muxer = false) :
      ProcessReturns s o pkt (s.observed pkt, none)
  | lost (ht : s.triggers pkt = true) (hlost : o.losesNumber s.muxer = true) (s' : HlsSegmenter)
      (hbooks : KeepsBooks s s') (hnext : s'.muxer.nextSequence = s.muxer.nextSequence + 1) :
      ProcessReturns s o pkt (s', none)
  | closed (ht : s.triggers pkt = true) (hkept : o.losesNumber s.muxer = false) (s' : HlsSegmenter)
      (hroll : RollsOver s s') :
      ProcessReturns s o pkt
        ((HlsSegmenter.listSegment { s' with segmenter := .startWith pkt } o (s.closedBy pkt)).writePacketOrReset o pkt,
          some [s.closedBy pkt])

theorem process_returns (s : HlsSegmenter) (o : Outcome) (pkt : EncodedPacket) :
    ProcessReturns s o pkt (s.process o pkt) := by
  cases hseq : pkt.isSequenceHeader with
  | true =>
    have heq : s.process o pkt = (s, some []) := by simp [HlsSegmenter.process, hseq]
    exact heq ▸ .skipped hseq
  | false =>
    simp only [HlsSegmenter.process, hseq, Bool.false_eq_true, if_false]
    split
    · next hroll =>
      have ht : s.triggers pkt = true := by simp [HlsSegmenter.triggers, hseq, hroll]
      have hcases := rollover_cases (s.observed pkt) o ((s.segmenter.observe pkt).elapsed.getD 0)
      have hloses := losesNumber_iff (s.observed pkt) o ((s.segmenter.observe pkt).elapsed.getD 0)
      unfold HlsSegmenter.observed at hcases hloses
      rcases hcases with h | ⟨s', h, hbooks, hnext⟩ | ⟨s', h, hrolls⟩ <;> rw [h] at hloses ⊢
      · exact .refused ht (Bool.eq_false_iff.mpr fun hl => by simpa using (hloses.mp hl).2)
      · exact .lost ht (hloses.mpr ⟨rfl, hnext⟩) s' ⟨hbooks.playlist, hbooks.uploadDir, hbooks.codecs, hbooks.duration⟩
          hnext
      · exact .closed ht (Bool.eq_false_iff.mpr fun hl => by simpa using (hloses.mp hl).1) s'
          ⟨hrolls.next, hrolls.buffer, hrolls.playlist, hrolls.codecs, hrolls.duration, hrolls.staged⟩
    · next hroll => exact .written hseq (by simpa [HlsSegmenter.triggers, hseq] using hroll)

/-! ## Numbers, files and the playlist -/

def PushedSegment.entry (p : PushedSegment) : PlaylistEntry := ⟨p.segment.filename, p.segment.duration⟩

/-- The playlist lists the last of the pushed segments, at least one of them, and has counted the others. -/
structure Window (pushed : List PushedSegment) (playlist : PlaylistState) : Prop where
  split : ∃ dropped, pushed.map (·.entry) = dropped ++ playlist.entries ∧ playlist.mediaSequence = dropped.length
  nonempty : pushed ≠ [] → playlist.entries ≠ []

/-- What always holds of a recording. -/
structure Books (r : Recording) : Prop where
  next : r.segmenter.muxer.nextSequence = r.pushed.length + r.lost
  lost : ∀ p ∈ r.pushed, p.lost ≤ r.lost
  ordered : (r.pushed.map (·.lost)).Pairwise (· ≤ ·)
  numbered : ∀ (i : ℕ) (p : PushedSegment), r.pushed[i]? = some p → p.segment.sequence = i + p.lost
  named : ∀ p ∈ r.pushed, p.segment.filename = segmentFilename p.segment.sequence
  staged : ∀ p ∈ r.pushed, (r.segmenter.workspace.uploadDir p.segment.filename).isSome = true
  window : Window r.pushed r.segmenter.playlist

variable {r : Recording}

theorem books_initial (streams : List AvCodecId) (cfg : SegmentConfig) : Books (.initial streams cfg) where
  next := rfl
  lost := by simp [Recording.initial]
  ordered := .nil
  numbered := by simp [Recording.initial]
  named := by simp [Recording.initial]
  staged := by simp [Recording.initial]
  window := ⟨⟨[], rfl, rfl⟩, fun h => absurd rfl h⟩

theorem Books.sequence_lt (h : Books r) {p : PushedSegment} (hp : p ∈ r.pushed) :
    p.segment.sequence < r.segmenter.muxer.nextSequence := by
  obtain ⟨i, hi⟩ := List.mem_iff_getElem?.mp hp
  have hlt := (List.getElem?_eq_some_iff.mp hi).1
  rw [h.numbered i p hi, h.next]
  have := h.lost p hp
  omega

theorem after_quiet (r : Recording) (s : HlsSegmenter) (closing : Option ℤ) :
    r.after s (some []) closing false = { r with segmenter := s, lastPts := closing } := by
  simp [Recording.after]

theorem after_failed (r : Recording) (s : HlsSegmenter) (closing : Option ℤ) (lost : Bool) :
    r.after s none closing lost = { r with segmenter := s, lost := r.lost + lost.toNat, lastPts := closing } := by
  simp [Recording.after]

/-- Numbers that are taken and not pushed are lost. -/
theorem Books.keep (h : Books r) (hb : KeepsBooks r.segmenter s) {taken : ℕ}
    (hnext : s.muxer.nextSequence = r.segmenter.muxer.nextSequence + taken) (closing : Option ℤ) :
    Books { r with segmenter := s, lost := r.lost + taken, lastPts := closing } where
  next := by
    have hbefore := h.next
    dsimp only
    omega
  lost p hp := (h.lost p hp).trans (Nat.le_add_right _ _)
  ordered := h.ordered
  numbered := h.numbered
  named := h.named
  staged := by
    rw [hb.uploadDir]
    exact h.staged
  window := by
    rw [hb.playlist]
    exact h.window

theorem Books.quiet (h : Books r) (hb : KeepsBooks r.segmenter s)
    (hnext : s.muxer.nextSequence = r.segmenter.muxer.nextSequence) (closing : Option ℤ) :
    Books (r.after s (some []) closing false) := by
  rw [after_quiet]
  have hnone : s.muxer.nextSequence = r.segmenter.muxer.nextSequence + 0 := hnext
  exact h.keep hb hnone closing

theorem Books.failed (h : Books r) (hb : KeepsBooks r.segmenter s) (lost : Bool)
    (hnext : s.muxer.nextSequence = r.segmenter.muxer.nextSequence + lost.toNat) (closing : Option ℤ) :
    Books (r.after s none closing lost) := by
  rw [after_failed]
  exact h.keep hb hnext closing

/-- The segment got the next number, its file is staged and it is listed. -/
structure Pushes (s s' : HlsSegmenter) (seg : TsSegment) : Prop where
  next : s'.muxer.nextSequence = s.muxer.nextSequence + 1
  sequence : seg.sequence = s.muxer.nextSequence
  filename : seg.filename = segmentFilename seg.sequence
  playlist : s'.playlist = s.playlist.pushSegment seg.filename seg.duration
  codecs : s'.codecStreamIndex = s.codecStreamIndex
  duration : s'.segmentDuration = s.segmentDuration
  staged : ∃ data, TsData.packets data = s.muxer.tsBuffer.packets ∧
    s'.workspace.uploadDir = Function.update s.workspace.uploadDir seg.filename (some data)

theorem Window.push {pushed : List PushedSegment} {playlist : PlaylistState} (h : Window pushed playlist)
    (p : PushedSegment) : Window (pushed ++ [p]) (playlist.pushSegment p.segment.filename p.segment.duration) := by
  obtain ⟨⟨dropped, hsplit, hcount⟩, -⟩ := h
  obtain ⟨more, hmore, hn⟩ := makeRoom_spec playlist.playlistSize playlist.entries playlist.mediaSequence
  refine ⟨⟨dropped ++ more, ?_, ?_⟩, fun _ => by simp [PlaylistState.pushSegment]⟩
  · rw [List.map_append, hsplit, PlaylistState.pushSegment]
    conv_lhs => rw [hmore]
    simp [PushedSegment.entry]
  · rw [PlaylistState.pushSegment, List.length_append, ← hcount]
    exact hn

theorem Books.push (h : Books r) {seg : TsSegment} (hp : Pushes r.segmenter s seg) (closing : Option ℤ) :
    Books (r.after s (some [seg]) closing false) := by
  have hpushed : (r.after s (some [seg]) closing false).pushed = r.pushed ++ [⟨seg, closing, r.lost⟩] := rfl
  obtain ⟨data, -, hdir⟩ := hp.staged
  refine ⟨?_, ?_, ?_, ?_, ?_, ?_, ?_⟩ <;> rw [hpushed]
  · have hbefore := h.next
    have hnext := hp.next
    simp only [Recording.after, Bool.toNat_false, List.length_append, List.length_singleton]
    omega
  · intro p hmem
    rcases List.mem_append.mp hmem with hmem | hmem
    · exact h.lost p hmem
    · obtain rfl := List.mem_singleton.mp hmem
      exact le_rfl
  · rw [List.map_append, List.pairwise_append]
    refine ⟨h.ordered, List.pairwise_singleton _ _, fun a ha b hb => ?_⟩
    obtain ⟨p, hmem, rfl⟩ := List.mem_map.mp ha
    obtain rfl := List.mem_singleton.mp hb
    exact h.lost p hmem
  · intro i p hi
    rcases Nat.lt_or_ge i r.pushed.length with hlt | hge
    · rw [List.getElem?_append_left hlt] at hi
      exact h.numbered i p hi
    · rw [List.getElem?_append_right hge] at hi
      obtain ⟨hi0, rfl⟩ := List.getElem?_eq_some_iff.mp hi
      have hzero : i = r.pushed.length := by
        simp only [List.length_singleton] at hi0
        omega
      subst hzero
      simpa using hp.sequence.trans h.next
  · intro p hmem
    rcases List.mem_append.mp hmem with hmem | hmem
    · exact h.named p hmem
    · obtain rfl := List.mem_singleton.mp hmem
      exact hp.filename
  · intro p hmem
    rw [Recording.after, hdir]
    rcases eq_or_ne p.segment.filename seg.filename with heq | hne
    · rw [heq, Function.update_self]
      rfl
    · rw [Function.update_of_ne hne]
      rcases List.mem_append.mp hmem with hmem | hmem
      · exact h.staged p hmem
      · exact absurd (congrArg (·.segment.filename) (List.mem_singleton.mp hmem)) hne
  · rw [Recording.after, hp.playlist]
    exact h.window.push _

theorem RollsOver.listed (h : RollsOver s s') (state : SegmentState) (o : Outcome) {seg : TsSegment}
    (hseq : seg.sequence = s.muxer.nextSequence) (hname : seg.filename = segmentFilename seg.sequence) :
    Pushes s (HlsSegmenter.listSegment { s' with segmenter := state } o seg) seg where
  next := h.next
  sequence := hseq
  filename := hname
  playlist := by rw [← h.playlist]; rfl
  codecs := h.codecs
  duration := h.duration
  staged := by
    obtain ⟨data, hdata, hdir⟩ := h.staged
    exact ⟨data, hdata, by rw [listSegment_uploadDir, hname, hseq]; exact hdir⟩

theorem Pushes.keepsBooks {s'' : HlsSegmenter} {seg : TsSegment} (h : Pushes s s' seg) (hb : KeepsBooks s' s'')
    (hnext : s''.muxer.nextSequence = s'.muxer.nextSequence) : Pushes s s'' seg where
  next := hnext.trans h.next
  sequence := h.sequence
  filename := h.filename
  playlist := hb.playlist.trans h.playlist
  codecs := hb.codecs.trans h.codecs
  duration := hb.duration.trans h.duration
  staged := by rw [hb.uploadDir]; exact h.staged

theorem RollsOver.pushes_process (h : RollsOver s s') (o : Outcome) (pkt : EncodedPacket) :
    Pushes s ((HlsSegmenter.listSegment { s' with segmenter := .startWith pkt } o (s.closedBy pkt)).writePacketOrReset
      o pkt) (s.closedBy pkt) := by
  obtain ⟨hb, hnext⟩ := writePacketOrReset_keepsBooks
    (HlsSegmenter.listSegment { s' with segmenter := .startWith pkt } o (s.closedBy pkt)) o pkt
  exact (h.listed _ o rfl rfl).keepsBooks hb hnext

theorem Books.process (h : Books r) (o : Outcome) (pkt : EncodedPacket) : Books (r.process o pkt) := by
  have hreturns := process_returns r.segmenter o pkt
  unfold Recording.process
  generalize r.segmenter.process o pkt = result at hreturns ⊢
  cases hreturns with
  | skipped hseq =>
    rw [triggers_eq_false pkt hseq, Bool.false_and]
    exact h.quiet ⟨rfl, rfl, rfl, rfl⟩ rfl _
  | written hseq ht =>
    obtain ⟨hb, hnext⟩ := writePacketOrReset_keepsBooks (r.segmenter.observed pkt) o pkt
    rw [ht, Bool.false_and]
    exact h.quiet ⟨hb.playlist, hb.uploadDir, hb.codecs, hb.duration⟩ hnext _
  | refused ht hkept =>
    rw [ht, hkept, Bool.and_false]
    exact h.failed (s := r.segmenter.observed pkt) ⟨rfl, rfl, rfl, rfl⟩ false rfl _
  | lost ht hlost s' hb hnext =>
    rw [ht, hlost, Bool.and_true]
    exact h.failed hb true hnext _
  | closed ht hkept s' hroll =>
    rw [ht, hkept, Bool.and_false]
    exact h.push (hroll.pushes_process o pkt) _

/-- How `close` can return. -/
theorem close_returns (s : HlsSegmenter) (o : Outcome) :
    (∃ s', s.close o = (s', none) ∧ KeepsBooks s s' ∧
      s'.muxer.nextSequence = s.muxer.nextSequence + (o.losesNumber s.muxer).toNat) ∨
    ∃ s', s.close o = (s', some { s.nextSegment (s.segmenter.elapsed.getD 0) with isFinal := true }) ∧
      Pushes s s' { s.nextSegment (s.segmenter.elapsed.getD 0) with isFinal := true } ∧
      o.losesNumber s.muxer = false := by
  have hloses := losesNumber_iff s o (s.segmenter.elapsed.getD 0)
  unfold HlsSegmenter.close
  rcases rollover_cases s o (s.segmenter.elapsed.getD 0) with h | ⟨s', h, hbooks, hnext⟩ | ⟨s', h, hroll⟩ <;>
    rw [h] at hloses ⊢
  · have hkept : o.losesNumber s.muxer = false := Bool.eq_false_iff.mpr fun hl => by simpa using (hloses.mp hl).2
    exact .inl ⟨s, rfl, ⟨rfl, rfl, rfl, rfl⟩, by rw [hkept]; rfl⟩
  · have hlost : o.losesNumber s.muxer = true := hloses.mpr ⟨rfl, hnext⟩
    exact .inl ⟨s', rfl, hbooks, by rw [hlost]; exact hnext⟩
  · exact .inr ⟨_, rfl, hroll.listed s'.segmenter o rfl rfl,
      Bool.eq_false_iff.mpr fun hl => by simpa using (hloses.mp hl).1⟩

theorem Books.close (h : Books r) (o : Outcome) : Books (r.close o) := by
  unfold Recording.close
  rcases close_returns r.segmenter o with ⟨s', heq, hb, hnext⟩ | ⟨s', heq, hp, hkept⟩ <;> rw [heq]
  · exact h.failed hb _ hnext _
  · rw [hkept]
    exact h.push hp _

theorem Books.processAll (h : Books r) (steps : List (Outcome × EncodedPacket)) : Books (r.processAll steps) := by
  induction steps generalizing r with
  | nil => exact h
  | cons step steps ih => exact ih (h.process step.1 step.2)

theorem Books.finish (h : Books r) (final : Option Outcome) : Books (r.finish final) := by
  cases final with
  | none => exact h
  | some o => exact h.close o

/-! ## Numbering -/

/-- The listed segments have consecutive numbers from the media sequence on. -/
def Consecutive (p : PlaylistState) : Prop :=
  p.entries.map (·.filename) = (List.range' p.mediaSequence p.entries.length).map segmentFilename

instance (p : PlaylistState) : Decidable (Consecutive p) := inferInstanceAs (Decidable (_ = _))

theorem Books.listed_filename (h : Books r) {j : ℕ} {e : PlaylistEntry}
    (he : r.segmenter.playlist.entries[j]? = some e) :
    ∃ p, r.pushed[r.segmenter.playlist.mediaSequence + j]? = some p ∧ e = p.entry ∧
      e.filename = segmentFilename (r.segmenter.playlist.mediaSequence + j + p.lost) := by
  obtain ⟨dropped, hsplit, hcount⟩ := h.window.split
  have hentry : (r.pushed.map (·.entry))[r.segmenter.playlist.mediaSequence + j]? = some e := by
    rw [hsplit, hcount, List.getElem?_append_right (Nat.le_add_right _ _), Nat.add_sub_cancel_left, he]
  rw [List.getElem?_map] at hentry
  obtain ⟨p, hp, rfl⟩ := Option.map_eq_some_iff.mp hentry
  refine ⟨p, hp, rfl, ?_⟩
  rw [← h.numbered _ p hp]
  exact h.named p (List.mem_of_getElem? hp)

/-- A gap in front of a listed segment is a rollover that was lost with its number. -/
theorem Books.consecutive_iff (h : Books r) : Consecutive r.segmenter.playlist ↔ ∀ p ∈ r.pushed, p.lost = 0 := by
  constructor
  · intro hcons p hmem
    obtain ⟨init, last, hpushed⟩ := (List.eq_nil_or_concat' r.pushed).resolve_left (List.ne_nil_of_mem hmem)
    -- the last pushed segment is listed, at the number after those of all the others
    have hlast : last.lost = 0 := by
      obtain ⟨dropped, hsplit, hcount⟩ := h.window.split
      have hlen := congrArg List.length hsplit
      rw [hpushed] at hlen
      simp only [List.length_map, List.length_append, List.length_singleton] at hlen
      have hne := h.window.nonempty (by simp [hpushed])
      have hpos := List.length_pos_iff.mpr hne
      have hj : r.segmenter.playlist.entries.length - 1 < r.segmenter.playlist.entries.length := by omega
      obtain ⟨q, hq, -, hname⟩ := h.listed_filename (List.getElem?_eq_getElem hj)
      have hindex : r.segmenter.playlist.mediaSequence + (r.segmenter.playlist.entries.length - 1) = init.length := by
        omega
      rw [hindex, hpushed, List.getElem?_concat_length, Option.some_inj] at hq
      subst hq
      have hnumber := List.getElem_of_eq hcons (i := r.segmenter.playlist.entries.length - 1) (by simpa using hj)
      rw [List.getElem_map, List.getElem_map, List.getElem_range', hname] at hnumber
      have hsame := segmentFilename_injective hnumber
      omega
    have hordered := h.ordered
    rw [hpushed, List.map_append, List.pairwise_append] at hordered
    rw [hpushed] at hmem
    rcases List.mem_append.mp hmem with hmem | hmem
    · have hle := hordered.2.2 p.lost (List.mem_map_of_mem hmem) last.lost (by simp)
      omega
    · rw [List.mem_singleton.mp hmem, hlast]
  · intro hlost
    refine List.ext_getElem? fun j => ?_
    rw [List.getElem?_map, List.getElem?_map]
    cases hj : r.segmenter.playlist.entries[j]? with
    | none =>
      have hlen := List.getElem?_eq_none_iff.mp hj
      rw [List.getElem?_eq_none_iff.mpr (by simpa using hlen)]
      rfl
    | some e =>
      obtain ⟨p, hp, -, hname⟩ := h.listed_filename hj
      have hlt := (List.getElem?_eq_some_iff.mp hj).1
      rw [hlost p (List.mem_of_getElem? hp)] at hname
      rw [List.getElem?_range' hlt]
      simp [hname]

/-! ## Durations -/

/-- The packet has a timestamp and a stream, unless it is a sequence header. -/
def Usable (s : HlsSegmenter) (pkt : EncodedPacket) : Prop :=
  pkt.isSequenceHeader = false → pkt.ptsMs.isSome = true ∧ (s.codecStreamIndex pkt.codec).isSome = true

/-- The segment's clock started with the first packet in the buffer and has seen the last packet. -/
inductive InStep (r : Recording) : Prop
  | empty (hb : r.segmenter.muxer.tsBuffer.packets = []) (hf : r.segmenter.segmenter.firstPts = none)
  | recording (first : EncodedPacket) (rest : List EncodedPacket) (f c : ℤ)
      (hb : r.segmenter.muxer.tsBuffer.packets = first :: rest) (hfirst : first.ptsMs = some f)
      (hf : r.segmenter.segmenter.firstPts = some f) (hc : r.segmenter.segmenter.lastPts = some c)
      (hlast : r.lastPts = some c)

/-- The duration is the time from the first packet to the closing one. -/
def RightlyTimed (s : HlsSegmenter) (p : PushedSegment) : Prop :=
  ∀ first, (s.written p.segment).head? = some first → ∃ f c, first.ptsMs = some f ∧ p.closing = some c ∧
    (p.segment.duration : ℤ) = max (c - f) 0 ∧ (p.segment.isFinal = false → f < c)

structure Timed (r : Recording) : Prop where
  inStep : r.lost = 0 → InStep r
  right : ∀ p ∈ r.pushed, p.lost = 0 → RightlyTimed r.segmenter p

theorem elapsed_getD {state : SegmentState} {f c : ℤ} (hf : state.firstPts = some f) (hc : state.lastPts = some c) :
    (state.elapsed.getD 0 : ℤ) = max (c - f) 0 := by
  simp only [SegmentState.elapsed, hf, hc]
  split_ifs
  · rw [Option.getD_some]
    omega
  · rw [Option.getD_none]
    omega

theorem RightlyTimed.of_uploadDir {p : PushedSegment} (h : RightlyTimed s p)
    (hdir : s'.workspace.uploadDir p.segment.filename = s.workspace.uploadDir p.segment.filename) :
    RightlyTimed s' p := by
  intro first hfirst
  rw [HlsSegmenter.written, hdir] at hfirst
  exact h first hfirst

/-- A triggering packet comes after the segment's first one. -/
theorem InStep.trigger (h : InStep r) (hdur : 0 < r.segmenter.segmentDuration) {pkt : EncodedPacket} {t : ℤ}
    (hpts : pkt.ptsMs = some t) (ht : r.segmenter.triggers pkt = true) :
    ∃ first rest f, r.segmenter.muxer.tsBuffer.packets = first :: rest ∧ first.ptsMs = some f ∧
      r.segmenter.segmenter.firstPts = some f ∧ ((r.segmenter.closedBy pkt).duration : ℤ) = max (t - f) 0 ∧ f < t := by
  have hlong := hdur.trans_le (closedBy_long pkt ht)
  cases h with
  | empty hb hf =>
    have hzero : ((r.segmenter.closedBy pkt).duration : ℤ) = max (t - t) 0 :=
      elapsed_getD (by simp [SegmentState.observe, hf, hpts]) hpts
    omega
  | recording first rest f c hb hfirst hf hc hlast =>
    have hduration : ((r.segmenter.closedBy pkt).duration : ℤ) = max (t - f) 0 :=
      elapsed_getD (by simp [SegmentState.observe, hf]) hpts
    exact ⟨first, rest, f, hb, hfirst, hf, hduration, by omega⟩

/-- A write that succeeds extends the segment, one that fails empties it. -/
theorem inStep_write {t : ℤ} (hseg : r.segmenter = s.writePacketOrReset o pkt)
    (hmapped : (s.codecStreamIndex pkt.codec).isSome = true)
    (hfirst : ∃ first rest f, s.muxer.tsBuffer.packets ++ [pkt] = first :: rest ∧ first.ptsMs = some f ∧
      s.segmenter.firstPts = some f)
    (hc : s.segmenter.lastPts = some t) (hlast : r.lastPts = some t) : InStep r := by
  obtain ⟨m, -, ⟨heq, hbuffer⟩ | ⟨heq, hbuffer⟩⟩ := writePacketOrReset_cases s o pkt
  · obtain ⟨first, rest, f, hb, hpts, hf⟩ := hfirst
    rw [if_pos hmapped, hb] at hbuffer
    rw [heq] at hseg
    exact .recording first rest f t (hseg ▸ hbuffer) hpts (hseg ▸ hf) (hseg ▸ hc) hlast
  · rw [heq] at hseg
    exact .empty (hseg ▸ hbuffer) (hseg ▸ rfl)

theorem Timed.right_keep (h : Timed r) (hb : KeepsBooks r.segmenter s) :
    ∀ p ∈ r.pushed, p.lost = 0 → RightlyTimed s p :=
  fun p hp hlost => (h.right p hp hlost).of_uploadDir (congrFun hb.uploadDir _)

theorem Timed.right_push (h : Timed r) (hbooks : Books r) {seg : TsSegment} (hp : Pushes r.segmenter s seg)
    (closing : Option ℤ)
    (hnew : r.lost = 0 → ∀ first, r.segmenter.muxer.tsBuffer.packets.head? = some first →
      ∃ f c, first.ptsMs = some f ∧ closing = some c ∧ (seg.duration : ℤ) = max (c - f) 0 ∧ (seg.isFinal = false → f < c)) :
    ∀ p ∈ (r.after s (some [seg]) closing false).pushed, p.lost = 0 → RightlyTimed s p := by
  obtain ⟨data, hdata, hdir⟩ := hp.staged
  intro p hmem hlost
  rcases List.mem_append.mp hmem with hmem | hmem
  · refine (h.right p hmem hlost).of_uploadDir ?_
    have hne : p.segment.filename ≠ seg.filename := by
      rw [hbooks.named p hmem, hp.filename, hp.sequence]
      exact fun heq => (hbooks.sequence_lt hmem).ne (segmentFilename_injective heq)
    rw [hdir, Function.update_of_ne hne]
  · obtain rfl := List.mem_singleton.mp hmem
    intro first hfirst
    rw [HlsSegmenter.written, hdir, Function.update_self, Option.getD_some, hdata] at hfirst
    exact hnew hlost first hfirst

theorem Timed.process (h : Timed r) (hbooks : Books r) (hdur : 0 < r.segmenter.segmentDuration) (o : Outcome)
    {pkt : EncodedPacket} (husable : Usable r.segmenter pkt) : Timed (r.process o pkt) := by
  have hreturns := process_returns r.segmenter o pkt
  unfold Recording.process
  generalize r.segmenter.process o pkt = result at hreturns ⊢
  cases hreturns with
  | skipped hseq =>
    rw [if_pos hseq, triggers_eq_false pkt hseq, Bool.false_and, after_quiet]
    exact h
  | written hseq ht =>
    obtain ⟨hb, -⟩ := writePacketOrReset_keepsBooks (r.segmenter.observed pkt) o pkt
    obtain ⟨hpts, hmapped⟩ := husable hseq
    obtain ⟨t, hpts⟩ := Option.isSome_iff_exists.mp hpts
    rw [hseq, if_neg Bool.false_ne_true, ht, Bool.false_and, after_quiet]
    refine ⟨fun hlost => inStep_write rfl hmapped ?_ hpts hpts,
      h.right_keep ⟨hb.playlist, hb.uploadDir, hb.codecs, hb.duration⟩⟩
    cases h.inStep hlost with
    | empty hbuffer hf =>
      have hbuffer' : (r.segmenter.observed pkt).muxer.tsBuffer.packets = [] := hbuffer
      exact ⟨pkt, [], t, by rw [hbuffer', List.nil_append], hpts,
        by simp [HlsSegmenter.observed, SegmentState.observe, hf, hpts]⟩
    | recording first rest f c hbuffer hfirst hf hc hlast =>
      have hbuffer' : (r.segmenter.observed pkt).muxer.tsBuffer.packets = first :: rest := hbuffer
      exact ⟨first, rest ++ [pkt], f, by rw [hbuffer', List.cons_append], hfirst,
        by simp [HlsSegmenter.observed, SegmentState.observe, hf]⟩
  | refused ht hkept =>
    obtain ⟨hpts, -⟩ := husable (triggers_not_seqHeader ht)
    obtain ⟨t, hpts⟩ := Option.isSome_iff_exists.mp hpts
    rw [triggers_not_seqHeader ht, if_neg Bool.false_ne_true, ht, hkept, Bool.and_false, after_failed]
    refine ⟨fun hlost => ?_, h.right_keep ⟨rfl, rfl, rfl, rfl⟩⟩
    have hbefore : r.lost = 0 := hlost
    obtain ⟨first, rest, f, hb, hfirst, hf, -⟩ := (h.inStep hbefore).trigger hdur hpts ht
    exact .recording first rest f t hb hfirst (by simp [HlsSegmenter.observed, SegmentState.observe, hf])
      hpts hpts
  | lost ht hlost s' hb hnext =>
    rw [ht, hlost, Bool.and_true, after_failed]
    refine ⟨fun hnone => ?_, h.right_keep hb⟩
    have hmore : r.lost + 1 = 0 := hnone
    omega
  | closed ht hkept s' hroll =>
    obtain ⟨hpts, hmapped⟩ := husable (triggers_not_seqHeader ht)
    obtain ⟨t, hpts⟩ := Option.isSome_iff_exists.mp hpts
    rw [triggers_not_seqHeader ht, if_neg Bool.false_ne_true, ht, hkept, Bool.and_false]
    refine ⟨fun hlost => ?_, h.right_push hbooks (hroll.pushes_process o pkt) _ fun hlost first hfirst => ?_⟩
    · refine inStep_write rfl (hroll.codecs.symm ▸ hmapped) ⟨pkt, [], t, ?_, hpts, hpts⟩ hpts hpts
      have hbuffer : (HlsSegmenter.listSegment { s' with segmenter := .startWith pkt } o
          (r.segmenter.closedBy pkt)).muxer.tsBuffer.packets = [] := hroll.buffer
      rw [hbuffer, List.nil_append]
    · obtain ⟨first', rest, f, hb, hfirst', -, hduration, hlt⟩ := (h.inStep hlost).trigger hdur hpts ht
      rw [hb, List.head?_cons, Option.some_inj] at hfirst
      exact ⟨f, t, hfirst ▸ hfirst', hpts, hduration, fun _ => hlt⟩

theorem Timed.close (h : Timed r) (hbooks : Books r) (o : Outcome) :
    ∀ p ∈ (r.close o).pushed, p.lost = 0 → RightlyTimed (r.close o).segmenter p := by
  unfold Recording.close
  rcases close_returns r.segmenter o with ⟨s', heq, hb, -⟩ | ⟨s', heq, hp, hkept⟩ <;> rw [heq]
  · rw [Option.map_none, after_failed]
    exact h.right_keep hb
  · rw [hkept]
    refine h.right_push hbooks hp _ fun hlost first hfirst => ?_
    cases h.inStep hlost with
    | empty hbuffer hf =>
      rw [hbuffer] at hfirst
      cases hfirst
    | recording first' rest f c hbuffer hfirst' hf hc hlast =>
      rw [hbuffer, List.head?_cons, Option.some_inj] at hfirst
      exact ⟨f, c, hfirst ▸ hfirst', hlast, elapsed_getD hf hc, fun hfinal => by cases hfinal⟩

theorem process_config (r : Recording) (o : Outcome) (pkt : EncodedPacket) :
    (r.process o pkt).segmenter.codecStreamIndex = r.segmenter.codecStreamIndex ∧
      (r.process o pkt).segmenter.segmentDuration = r.segmenter.segmentDuration := by
  have hreturns := process_returns r.segmenter o pkt
  unfold Recording.process
  generalize r.segmenter.process o pkt = result at hreturns ⊢
  cases hreturns with
  | skipped hseq => exact ⟨rfl, rfl⟩
  | written hseq ht =>
    obtain ⟨hb, -⟩ := writePacketOrReset_keepsBooks (r.segmenter.observed pkt) o pkt
    exact ⟨hb.codecs, hb.duration⟩
  | refused ht hkept => exact ⟨rfl, rfl⟩
  | lost ht hlost s' hb hnext => exact ⟨hb.codecs, hb.duration⟩
  | closed ht hkept s' hroll =>
    have hp := hroll.pushes_process o pkt
    exact ⟨hp.codecs, hp.duration⟩

theorem Timed.processAll (h : Timed r) (hbooks : Books r) (hdur : 0 < r.segmenter.segmentDuration)
    {steps : List (Outcome × EncodedPacket)} (husable : ∀ step ∈ steps, Usable r.segmenter step.2) :
    Timed (r.processAll steps) := by
  induction steps generalizing r with
  | nil => exact h
  | cons step steps ih =>
    obtain ⟨hcodecs, hduration⟩ := process_config r step.1 step.2
    refine ih (h.process hbooks hdur step.1 (husable step List.mem_cons_self)) (hbooks.process step.1 step.2)
      (hduration ▸ hdur) fun later hlater => ?_
    have hlater' := husable later (List.mem_cons_of_mem step hlater)
    unfold Usable at hlater' ⊢
    rwa [hcodecs]

/-- Whatever fails: the playlist lists the last of the pushed segments, and each of them is staged. Their numbers are
consecutive from the media sequence on exactly when none was pushed after a rollover whose outcomes lose its number.
Up to then, with packets that all have a timestamp and a stream, each duration is the time from the segment's first
packet to the one that closed it. -/
theorem bookkeeping (streams : List AvCodecId) (cfg : SegmentConfig) (steps : List (Outcome × EncodedPacket))
    (final : Option Outcome) :
    let r := recordingOf streams cfg steps final
    (∃ dropped, r.pushed.map (·.entry) = dropped ++ r.segmenter.playlist.entries ∧
      r.segmenter.playlist.mediaSequence = dropped.length) ∧
    (∀ e ∈ r.segmenter.playlist.entries, (r.segmenter.workspace.uploadDir e.filename).isSome = true) ∧
    (Consecutive r.segmenter.playlist ↔ ∀ p ∈ r.pushed, p.lost = 0) ∧
    (0 < cfg.durationSecs → (∀ step ∈ steps, Usable (HlsSegmenter.initial streams cfg) step.2) →
      ∀ p ∈ r.pushed, p.lost = 0 → RightlyTimed r.segmenter p) := by
  intro r
  have hrun := (books_initial streams cfg).processAll steps
  have hbooks : Books r := hrun.finish final
  refine ⟨hbooks.window.split, fun e he => ?_, hbooks.consecutive_iff, fun hdur husable => ?_⟩
  · obtain ⟨j, hj⟩ := List.mem_iff_getElem?.mp he
    obtain ⟨p, hp, rfl, -⟩ := hbooks.listed_filename hj
    exact hbooks.staged p (List.mem_of_getElem? hp)
  · have hinit : Timed (Recording.initial streams cfg) :=
      ⟨fun _ => .empty rfl rfl, fun p hp => absurd hp List.not_mem_nil⟩
    have htimed := hinit.processAll (books_initial streams cfg) (Nat.mul_pos (by decide) hdur) husable
    cases final with
    | none => exact htimed.right
    | some o => exact htimed.close hrun o

/-- The second of three rollovers cannot write its file. -/
def lostRollover : List (Outcome × EncodedPacket) :=
  [(.ok, ⟨.h264, 0, .annexB [0x65], some 0, some 0, true, false, false, none⟩),
   (.ok, ⟨.h264, 0, .annexB [0x65], some 1500, some 1500, true, false, false, none⟩),
   ({ writeTsFile := false }, ⟨.h264, 0, .annexB [0x65], some 3000, some 3000, true, false, false, none⟩),
   (.ok, ⟨.h264, 0, .annexB [0x41], some 3500, some 3500, false, false, false, none⟩),
   (.ok, ⟨.h264, 0, .annexB [0x65], some 4500, some 4500, true, false, false, none⟩)]

/-- The playlist lists segments 0 and 2 in a row, and segment 2, from 3.5 s to 4.5 s, with three seconds. -/
theorem bookkeeping_lost_rollover :
    (recordingOf [.h264] ⟨1, 5⟩ lostRollover none).segmenter.playlist.entries =
      [⟨"segment_0000.ts", 1500⟩, ⟨"segment_0002.ts", 3000⟩] ∧
    (recordingOf [.h264] ⟨1, 5⟩ lostRollover none).segmenter.playlist.mediaSequence = 0 ∧
    ¬ Consecutive (recordingOf [.h264] ⟨1, 5⟩ lostRollover none).segmenter.playlist ∧
    (recordingOf [.h264] ⟨1, 5⟩ lostRollover none).pushed.map (fun p => (p.closing,
        ((recordingOf [.h264] ⟨1, 5⟩ lostRollover none).segmenter.written p.segment).map (·.ptsMs))) =
      [(some 1500, [some 0]), (some 4500, [some 3500])] := by
  refine ⟨?_, ?_, ?_, ?_⟩ <;> decide +kernel

end LivestreamRs.Hls
