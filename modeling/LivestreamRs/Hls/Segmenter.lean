import LivestreamRs.Media.Packet
import LivestreamRs.Hls.Playlist

/-! # The HLS segmenter

`HlsSegmenter` (`livestream-pipeline/src/processor/hls_segment.rs`) with its muxer, segment, playlist and
workspace state. The TS muxer is represented by what it has put into the buffer: the header, each frame
it accepted, the trailer. Whether a fallible call succeeds is an input (`Outcome`); a call that fails has
no effect on the buffer, and may leave a part of `index.m3u8`.
-/
namespace LivestreamRs.Hls
open Media
set_option autoImplicit false

/-! ## State -/

/-- A frame accepted by the muxer, with the pipeline packet it was made from. -/
structure TsFrame where
  source : EncodedPacket
  avPkt : AvPacket
  carries : avPkt.data = source.data.asBytes ∧ avPkt.isKeyFrame = source.isKeyframe

inductive TsItem
  | header
  | frame (f : TsFrame)
  | trailer

abbrev TsData := List TsItem

def TsData.packets (data : TsData) : List EncodedPacket :=
  data.filterMap fun
    | .frame f => some f.source
    | _ => none

structure HlsOutputContext where
  headerWritten : Bool

structure HlsMuxerState where
  hlsCtx : Option HlsOutputContext
  tsBuffer : TsData
  nextSequence : ℕ
  lastDts : ℤ

structure SegmentState where
  firstPts : Option ℤ := none
  lastPts : Option ℤ := none
  hasKeyframe : Bool := false
  deriving DecidableEq, Repr

/-- Milliseconds from the first to the last timestamp of the segment, if time has passed. -/
def SegmentState.elapsed (s : SegmentState) : Option ℕ :=
  match s.firstPts, s.lastPts with
  | some first, some last => if last > first then some (last - first).toNat else none
  | _, _ => none

/-- The directory on disk: `segment_dir` and `upload_dir`, by file name, and `index.m3u8`. -/
structure SegmentWorkspace where
  segmentDir : String → Option TsData := fun _ => none
  uploadDir : String → Option TsData := fun _ => none
  -- with the entries whose lines are whole
  playlistFile : Option Playlist := none
  -- `index.m3u8` ends where the last write of it failed
  playlistCut : Bool := false

def SegmentWorkspace.writeTsFile (w : SegmentWorkspace) (data : TsData) (sequence : ℕ) : SegmentWorkspace :=
  { w with segmentDir := Function.update w.segmentDir (segmentFilename sequence) (some data) }

/-- The file moves to the upload directory and replaces one of the same name. -/
def SegmentWorkspace.stageSegment (w : SegmentWorkspace) (filename : String) : SegmentWorkspace :=
  { w with
    segmentDir := Function.update w.segmentDir filename none
    uploadDir := Function.update w.uploadDir filename (w.segmentDir filename) }

inductive AvCodecId
  | h264 | hevc | aac | mp3 | opus | av1 | mjpeg | other
  deriving DecidableEq, Repr

def avCodecIdToCodec : AvCodecId → Codec
  | .h264 => .h264
  | .hevc => .h265
  | .aac => .aac
  | .mp3 => .mp3
  | .opus => .opus
  | .av1 => .av1
  | .mjpeg => .mjpeg
  | .other => .h264

structure HlsSegmenter where
  codecStreamIndex : Codec → Option ℕ
  segmentDuration : ℕ
  muxer : HlsMuxerState
  segmenter : SegmentState
  playlist : PlaylistState
  workspace : SegmentWorkspace

/-- Which of the fallible calls made by one `new`, `process` or `close` succeed. -/
structure Outcome where
  toAvPacket : Bool := true
  writeFrame : Bool := true
  writeTrailer : Bool := true
  createCtx : Bool := true
  writeHeader : Bool := true
  writeTsFile : Bool := true
  stageSegment : Bool := true
  writePlaylist : Bool := true
  -- how many entries a failed write of `index.m3u8` has left in it; `none` if the file could not be opened
  playlistLeft : Option ℕ := none
  -- the two calls of `recreate_muxer_ctx`
  recreateCtx : Bool := true
  reinitHeader : Bool := true
  deriving DecidableEq, Repr

def Outcome.ok : Outcome := {}

/-! ## Operations -/

def HlsMuxerState.withHeader (m : HlsMuxerState) : HlsMuxerState :=
  { m with hlsCtx := some ⟨true⟩, tsBuffer := m.tsBuffer ++ [.header] }

/-- The state `HlsSegmenter::new` builds from the codec ids of the stream collection; the first stream of
a codec gets its packets. -/
def HlsSegmenter.initial (streams : List AvCodecId) (cfg : SegmentConfig) : HlsSegmenter where
  codecStreamIndex := fun codec => (streams.map avCodecIdToCodec).idxOf? codec
  segmentDuration := 1000 * cfg.durationSecs
  muxer := HlsMuxerState.withHeader { hlsCtx := none, tsBuffer := [], nextSequence := 0, lastDts := 0 }
  segmenter := {}
  playlist := PlaylistState.new cfg
  workspace := {}

def HlsSegmenter.new (streams : List AvCodecId) (cfg : SegmentConfig) (o : Outcome) : Option HlsSegmenter :=
  if o.createCtx && o.writeHeader then some (HlsSegmenter.initial streams cfg) else none

/-- The packet handed to the muxer: routed by codec, in 90 kHz ticks, with `pts = dts` forced above the
last one. -/
def muxerPacket (pkt : EncodedPacket) (muxerIdx : ℕ) (lastDts : ℤ) : AvPacket :=
  let avPkt := { pkt.toAvPacket with streamIdx := muxerIdx }
  let avPkt := avPkt.rescaleTs ⟨1, 1000⟩ ⟨1, 90000⟩
  let next := max (avPkt.pts.getD 0) (lastDts + 1)
  { avPkt with pts := some next, dts := some next }

def muxerFrame (pkt : EncodedPacket) (muxerIdx : ℕ) (lastDts : ℤ) : TsFrame where
  source := pkt
  avPkt := muxerPacket pkt muxerIdx lastDts
  carries := ⟨rfl, rfl⟩

/-- The flag says whether `write_packet` returned `Ok`. -/
def HlsSegmenter.writePacket (s : HlsSegmenter) (o : Outcome) (pkt : EncodedPacket) : HlsSegmenter × Bool :=
  if !o.toAvPacket then (s, false)
  else
    match s.codecStreamIndex pkt.codec with
    | none => (s, true)
    | some muxerIdx =>
      let f := muxerFrame pkt muxerIdx s.muxer.lastDts
      let muxer := { s.muxer with lastDts := f.avPkt.dts.getD 0 }
      match muxer.hlsCtx with
      | none => ({ s with muxer := muxer }, false)
      | some _ =>
        if o.writeFrame then
          ({ s with muxer := { muxer with tsBuffer := muxer.tsBuffer ++ [.frame f] } }, true)
        else ({ s with muxer := muxer }, false)

/-- `reset_after_write_error`: whatever the broken context's `Drop` writes is cleared with the buffer. -/
def HlsSegmenter.resetAfterWriteError (s : HlsSegmenter) (o : Outcome) : HlsSegmenter :=
  let muxer := { s.muxer with hlsCtx := none, tsBuffer := [], lastDts := 0 }
  { s with
    segmenter := {}
    muxer := if o.recreateCtx && o.reinitHeader then muxer.withHeader else muxer }

def HlsSegmenter.writePacketOrReset (s : HlsSegmenter) (o : Outcome) (pkt : EncodedPacket) : HlsSegmenter :=
  match s.writePacket o pkt with
  | (s, true) => s
  | (s, false) => s.resetAfterWriteError o

/-- Phase 1 of `rollover`, under the lock: the sequence number and the data of the closed segment. -/
def HlsSegmenter.takeSegment (s : HlsSegmenter) (o : Outcome) : HlsSegmenter × Option (ℕ × TsData) :=
  if s.muxer.hlsCtx.isSome && !o.writeTrailer then (s, none)
  else
    let tsData := if s.muxer.hlsCtx.isSome then s.muxer.tsBuffer ++ [.trailer] else s.muxer.tsBuffer
    let taken : HlsMuxerState :=
      { s.muxer with
        hlsCtx := s.muxer.hlsCtx.map fun _ => ⟨false⟩
        tsBuffer := []
        nextSequence := s.muxer.nextSequence + 1 }
    if o.createCtx && o.writeHeader then
      ({ s with muxer := { taken.withHeader with lastDts := 0 } }, some (s.muxer.nextSequence, tsData))
    -- the disarmed old context stays in place
    else ({ s with muxer := taken }, none)

/-- `none` when `rollover` returns an error. -/
def HlsSegmenter.rollover (s : HlsSegmenter) (o : Outcome) (duration : ℕ) : HlsSegmenter × Option TsSegment :=
  match s.takeSegment o with
  | (s, none) => (s, none)
  | (s, some (seq, tsData)) =>
    if !o.writeTsFile then (s, none)
    else
      let s := { s with workspace := s.workspace.writeTsFile tsData seq }
      if !o.stageSegment then (s, none)
      else
        ({ s with workspace := s.workspace.stageSegment (segmentFilename seq) },
          some { filename := segmentFilename seq, sequence := seq, duration := duration, isFinal := false })

/-- `fs::write` truncates the file before it writes, so one that fails after that leaves a part of the text. -/
def SegmentWorkspace.writePlaylist (w : SegmentWorkspace) (o : Outcome) (p : Playlist) : SegmentWorkspace :=
  if o.writePlaylist then { w with playlistFile := some p, playlistCut := false }
  else
    match o.playlistLeft with
    | none => w
    | some n =>
      { w with playlistFile := some { p with entries := p.entries.take n, endList := false }, playlistCut := true }

/-- Push the segment and write `index.m3u8`; a failed write is only logged. -/
def HlsSegmenter.listSegment (s : HlsSegmenter) (o : Outcome) (seg : TsSegment) : HlsSegmenter :=
  let playlist := s.playlist.pushSegment seg.filename seg.duration
  { s with
    playlist := playlist
    workspace := s.workspace.writePlaylist o (playlist.render seg.isFinal) }

/-- The segment state after seeing a packet, before the rollover decision. -/
def SegmentState.observe (s : SegmentState) (pkt : EncodedPacket) : SegmentState where
  firstPts := s.firstPts.or pkt.ptsMs
  lastPts := pkt.ptsMs
  hasKeyframe := s.hasKeyframe || pkt.isKeyframe

/-- The segment state of a segment that starts with the packet. -/
def SegmentState.startWith (pkt : EncodedPacket) : SegmentState where
  firstPts := pkt.ptsMs
  lastPts := pkt.ptsMs
  hasKeyframe := pkt.isKeyframe

/-- `should_rollover`, on the segment state that has seen the packet. -/
def SegmentState.shouldRollover (s : SegmentState) (segmentDuration : ℕ) (pkt : EncodedPacket) : Bool :=
  decide (segmentDuration ≤ s.elapsed.getD 0) && (pkt.isKeyframe || !s.hasKeyframe)

/-- `process`; `none` stands for an error. -/
def HlsSegmenter.process (s : HlsSegmenter) (o : Outcome) (pkt : EncodedPacket) :
    HlsSegmenter × Option (List TsSegment) :=
  if pkt.isSequenceHeader then (s, some [])
  else
    let state := s.segmenter.observe pkt
    let s := { s with segmenter := state }
    if state.shouldRollover s.segmentDuration pkt then
      match s.rollover o (state.elapsed.getD 0) with
      | (s, none) => (s, none)
      | (s, some seg) =>
        let s := { s with segmenter := .startWith pkt }
        let s := s.listSegment o seg
        (s.writePacketOrReset o pkt, some [seg])
    else (s.writePacketOrReset o pkt, some [])

/-- `close`, up to sending the final segment to the output pads. -/
def HlsSegmenter.close (s : HlsSegmenter) (o : Outcome) : HlsSegmenter × Option TsSegment :=
  match s.rollover o (s.segmenter.elapsed.getD 0) with
  | (s, none) => (s, none)
  | (s, some seg) =>
    let seg := { seg with isFinal := true }
    (s.listSegment o seg, some seg)

/-- `process` on one packet after the other, and the segments it returns; an error is logged and
dropped by `process_one`. -/
def HlsSegmenter.processAll (s : HlsSegmenter) : List (Outcome × EncodedPacket) → HlsSegmenter × List TsSegment
  | [] => (s, [])
  | (o, pkt) :: rest =>
    let (s, out) := s.process o pkt
    let (s, segs) := s.processAll rest
    (s, out.getD [] ++ segs)

end LivestreamRs.Hls
