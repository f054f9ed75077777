import LivestreamRs.Foundations.Transitions
import LivestreamRs.Hls.Segmenter

/-! # The HLS branch: segmenter task, queue and upload task

`try_build_hls` runs `HlsSegmenter` under `run_processor` and `MinIoSink` under `run_sink`
(`livestream-pipeline/src/task.rs`, `sink/minio.rs`), joined by a bounded channel of segments; both tasks
watch children of the stream's cancellation token. A step is one action of one task between two points at
which the other task can run: the rollover, the playlist write, the send, one upload attempt. Which branch
of a `select!` is taken when several are ready is left open, as tokio leaves it.
-/
namespace LivestreamRs.Hls
open Media Foundations
set_option autoImplicit false

/-! ## `process` in two parts -/

/-- `process` up to the return of `rollover`: an error, no rollover, or the segment that was closed. -/
def HlsSegmenter.beginProcess (s : HlsSegmenter) (o : Outcome) (pkt : EncodedPacket) :
    HlsSegmenter × Option (Option TsSegment) :=
  if pkt.isSequenceHeader then (s, some none)
  else
    let state := s.segmenter.observe pkt
    let s := { s with segmenter := state }
    if state.shouldRollover s.segmentDuration pkt then
      match s.rollover o (state.elapsed.getD 0) with
      | (s, none) => (s, none)
      | (s, some seg) => (s, some (some seg))
    else (s.writePacketOrReset o pkt, some none)

/-- The rest of `process`: the playlist, then the triggering packet. -/
def HlsSegmenter.finishProcess (s : HlsSegmenter) (o : Outcome) (pkt : EncodedPacket) (seg : TsSegment) :
    HlsSegmenter :=
  (HlsSegmenter.listSegment { s with segmenter := .startWith pkt } o seg).writePacketOrReset o pkt

theorem process_eq_parts (s : HlsSegmenter) (o : Outcome) (pkt : EncodedPacket) :
    s.process o pkt =
      match s.beginProcess o pkt with
      | (s, none) => (s, none)
      | (s, some none) => (s, some [])
      | (s, some (some seg)) => (s.finishProcess o pkt seg, some [seg]) := by
  simp only [HlsSegmenter.process, HlsSegmenter.beginProcess]
  cases hseq : pkt.isSequenceHeader with
  | true => rfl
  | false =>
    cases hroll : (s.segmenter.observe pkt).shouldRollover s.segmentDuration pkt with
    | false => rfl
    | true =>
      simp only [Bool.false_eq_true, if_false, if_true]
      generalize HlsSegmenter.rollover _ o _ = r
      obtain ⟨s, _ | seg⟩ := r <;> rfl

/-! ## State -/

/-- Where the `run_processor` task of the segmenter is. -/
inductive SegmenterTask
  -- at the `select!`
  | receiving
  -- `process` has closed and staged a segment
  | staged (o : Outcome) (pkt : EncodedPacket) (seg : TsSegment)
  -- `process` has returned the segment, `fan_out` is next
  | delivering (seg : TsSegment)
  -- the loop has ended, `close` is next
  | closing
  -- `close` has staged the last segment
  | lastStaged (o : Outcome) (seg : TsSegment)
  -- `close` sends the last segment
  | lastDelivering (seg : TsSegment)
  -- the task is over and its sender is dropped
  | ended

/-- Where the `run_sink` task of `MinIoSink` is. -/
inductive SinkTask
  -- at the `select!`
  | receiving
  -- `consume` is about to make an upload attempt, after that many failed ones
  | uploading (seg : TsSegment) (failed : ℕ)
  -- the segment is uploaded, `upload_playlist` is next
  | uploadingPlaylist (seg : TsSegment)
  -- the loop has ended, the receiver still exists
  | left
  -- the task is over and its receiver is dropped
  | ended
  deriving DecidableEq

/-- The objects under the stream's key, by file name. -/
structure ObjectStore where
  segments : List String := []
  playlist : Option Playlist := none

structure Branch where
  segmenter : HlsSegmenter
  segmenterTask : SegmenterTask := .receiving
  sinkTask : SinkTask := .receiving
  queue : List TsSegment := []
  store : ObjectStore := {}
  cancelled : Bool := false
  inputClosed : Bool := false
  -- history, read by no task: the segments closed by a rollover, those accepted by the channel, those
  -- `consume` has returned for, and those the channel refused or the sink gave up on
  produced : List TsSegment := []
  sent : List TsSegment := []
  consumed : List TsSegment := []
  abandoned : List TsSegment := []

/-- The branch as `try_build_hls` starts it. -/
def Branch.initial (streams : List AvCodecId) (cfg : SegmentConfig) : Branch where
  segmenter := HlsSegmenter.initial streams cfg

/-! ## Steps -/

inductive BranchAction
  -- the stream's token is cancelled
  | cancel
  -- the upstream sender of packets is gone
  | closeInput
  -- the segmenter receives a packet
  | packet (o : Outcome) (pkt : EncodedPacket)
  -- the segmenter pushes the staged segment and writes `index.m3u8`
  | list
  -- the segmenter sends the segment
  | deliver
  -- the segmenter leaves its loop: cancelled, or no more input
  | leaveLoop
  -- `close` rolls over
  | close (o : Outcome)
  -- the sink receives a segment
  | recv
  -- an upload attempt succeeds or fails
  | upload (ok : Bool)
  -- the upload of `index.m3u8` succeeds or fails
  | uploadPlaylist (ok : Bool)
  -- the sink leaves its loop on the cancellation branch
  | sinkCancelled
  -- the sink leaves its loop because the channel is closed and empty
  | sinkInputEnded
  -- the sink's task ends
  | dropReceiver

/-- The capacity given to `new_channel`. -/
def segmentQueueCapacity : ℕ := 256

/-- Whether `send` returns `Ok`. -/
def Branch.accepts (b : Branch) : Bool := b.sinkTask ≠ .ended && b.queue.length < segmentQueueCapacity

def Branch.send (b : Branch) (seg : TsSegment) : Branch :=
  if b.accepts then { b with queue := b.queue ++ [seg], sent := b.sent ++ [seg] }
  else { b with abandoned := b.abandoned ++ [seg] }

/-- The end of `consume`, either way: the staged file is removed. -/
def Branch.removeStaged (b : Branch) (seg : TsSegment) : Branch :=
  { b with
    segmenter :=
      { b.segmenter with
        workspace :=
          { b.segmenter.workspace with
            uploadDir := Function.update b.segmenter.workspace.uploadDir seg.filename none } } }

def Branch.stepSegmenter (b : Branch) : BranchAction → Option Branch
  | .packet o pkt =>
    match b.segmenterTask with
    | .receiving =>
      match b.segmenter.beginProcess o pkt with
      | (s, some (some seg)) =>
        some { b with segmenter := s, segmenterTask := .staged o pkt seg, produced := b.produced ++ [seg] }
      | (s, _) => some { b with segmenter := s }
    | _ => none
  | .list =>
    match b.segmenterTask with
    | .staged o pkt seg =>
      some { b with segmenter := b.segmenter.finishProcess o pkt seg, segmenterTask := .delivering seg }
    | .lastStaged o seg =>
      some { b with segmenter := b.segmenter.listSegment o seg, segmenterTask := .lastDelivering seg }
    | _ => none
  | .deliver =>
    match b.segmenterTask with
    | .delivering seg => some { b.send seg with segmenterTask := .receiving }
    | .lastDelivering seg => some { b.send seg with segmenterTask := .ended }
    | _ => none
  | .leaveLoop =>
    match b.segmenterTask with
    | .receiving => if b.cancelled || b.inputClosed then some { b with segmenterTask := .closing } else none
    | _ => none
  | .close o =>
    match b.segmenterTask with
    | .closing =>
      match b.segmenter.rollover o (b.segmenter.segmenter.elapsed.getD 0) with
      | (s, none) => some { b with segmenter := s, segmenterTask := .ended }
      | (s, some seg) =>
        let seg := { seg with isFinal := true }
        some { b with segmenter := s, segmenterTask := .lastStaged o seg, produced := b.produced ++ [seg] }
    | _ => none
  | _ => none

def Branch.stepSink (b : Branch) : BranchAction → Option Branch
  | .recv =>
    match b.sinkTask, b.queue with
    | .receiving, seg :: queue => some { b with sinkTask := .uploading seg 0, queue := queue }
    | _, _ => none
  | .upload ok =>
    match b.sinkTask with
    | .uploading seg failed =>
      if ok then
        some { b.removeStaged seg with
               sinkTask := .uploadingPlaylist seg
               store := { b.store with segments := b.store.segments ++ [seg.filename] } }
      else if failed < 2 then some { b with sinkTask := .uploading seg (failed + 1) }
      -- retries are exhausted, `consume` returns the error
      else some { b.removeStaged seg with
                  sinkTask := .receiving
                  consumed := b.consumed ++ [seg]
                  abandoned := b.abandoned ++ [seg] }
    | _ => none
  | .uploadPlaylist ok =>
    match b.sinkTask with
    | .uploadingPlaylist seg =>
      some { b with
             sinkTask := .receiving
             consumed := b.consumed ++ [seg]
             -- a missing `index.m3u8` is ignored, a failed upload is logged
             store := if ok then { b.store with playlist := b.segmenter.workspace.playlistFile.or b.store.playlist }
                      else b.store }
    | _ => none
  | .sinkCancelled =>
    match b.sinkTask with
    | .receiving => if b.cancelled then some { b with sinkTask := .left } else none
    | _ => none
  | .sinkInputEnded =>
    match b.sinkTask, b.segmenterTask, b.queue with
    | .receiving, .ended, [] => some { b with sinkTask := .left }
    | _, _, _ => none
  | .dropReceiver =>
    match b.sinkTask with
    | .left => some { b with sinkTask := .ended }
    | _ => none
  | _ => none

def Branch.step (b : Branch) : BranchAction → Option Branch
  | .cancel => some { b with cancelled := true }
  | .closeInput => some { b with inputClosed := true }
  | a => (b.stepSegmenter a).or (b.stepSink a)

/-! ## The steps by cases -/

inductive SegmenterStep (b : Branch) : BranchAction → Branch → Prop
  | rolledOver {o : Outcome} {pkt : EncodedPacket} {s : HlsSegmenter} {seg : TsSegment}
      (htask : b.segmenterTask = .receiving) (hbegin : b.segmenter.beginProcess o pkt = (s, some (some seg))) :
      SegmenterStep b (.packet o pkt)
        { b with segmenter := s, segmenterTask := .staged o pkt seg, produced := b.produced ++ [seg] }
  | processed {o : Outcome} {pkt : EncodedPacket} {s : HlsSegmenter} {r : Option (Option TsSegment)}
      (htask : b.segmenterTask = .receiving) (hbegin : b.segmenter.beginProcess o pkt = (s, r)) (hr : r.join = none) :
      SegmenterStep b (.packet o pkt) { b with segmenter := s }
  | listed {o : Outcome} {pkt : EncodedPacket} {seg : TsSegment} (htask : b.segmenterTask = .staged o pkt seg) :
      SegmenterStep b .list
        { b with segmenter := b.segmenter.finishProcess o pkt seg, segmenterTask := .delivering seg }
  | lastListed {o : Outcome} {seg : TsSegment} (htask : b.segmenterTask = .lastStaged o seg) :
      SegmenterStep b .list { b with segmenter := b.segmenter.listSegment o seg, segmenterTask := .lastDelivering seg }
  | delivered {seg : TsSegment} (htask : b.segmenterTask = .delivering seg) :
      SegmenterStep b .deliver { b.send seg with segmenterTask := .receiving }
  | lastDelivered {seg : TsSegment} (htask : b.segmenterTask = .lastDelivering seg) :
      SegmenterStep b .deliver { b.send seg with segmenterTask := .ended }
  | left (htask : b.segmenterTask = .receiving) : SegmenterStep b .leaveLoop { b with segmenterTask := .closing }
  | closed {o : Outcome} {s : HlsSegmenter} (htask : b.segmenterTask = .closing)
      (hroll : b.segmenter.rollover o (b.segmenter.segmenter.elapsed.getD 0) = (s, none)) :
      SegmenterStep b (.close o) { b with segmenter := s, segmenterTask := .ended }
  | lastRolledOver {o : Outcome} {s : HlsSegmenter} {seg : TsSegment} (htask : b.segmenterTask = .closing)
      (hroll : b.segmenter.rollover o (b.segmenter.segmenter.elapsed.getD 0) = (s, some seg)) :
      SegmenterStep b (.close o)
        { b with
          segmenter := s
          segmenterTask := .lastStaged o { seg with isFinal := true }
          produced := b.produced ++ [{ seg with isFinal := true }] }

inductive SinkStep (b : Branch) : BranchAction → Branch → Prop
  | received {seg : TsSegment} {queue : List TsSegment} (htask : b.sinkTask = .receiving) (hqueue : b.queue = seg :: queue) :
      SinkStep b .recv { b with sinkTask := .uploading seg 0, queue := queue }
  | uploaded {seg : TsSegment} {failed : ℕ} (htask : b.sinkTask = .uploading seg failed) :
      SinkStep b (.upload true)
        { b.removeStaged seg with
          sinkTask := .uploadingPlaylist seg
          store := { b.store with segments := b.store.segments ++ [seg.filename] } }
  | retried {seg : TsSegment} {failed : ℕ} (htask : b.sinkTask = .uploading seg failed) :
      SinkStep b (.upload false) { b with sinkTask := .uploading seg (failed + 1) }
  | gaveUp {seg : TsSegment} {failed : ℕ} (htask : b.sinkTask = .uploading seg failed) :
      SinkStep b (.upload false)
        { b.removeStaged seg with
          sinkTask := .receiving
          consumed := b.consumed ++ [seg]
          abandoned := b.abandoned ++ [seg] }
  | finished {ok : Bool} {seg : TsSegment} (htask : b.sinkTask = .uploadingPlaylist seg) :
      SinkStep b (.uploadPlaylist ok)
        { b with
          sinkTask := .receiving
          consumed := b.consumed ++ [seg]
          store := if ok then { b.store with playlist := b.segmenter.workspace.playlistFile.or b.store.playlist }
                   else b.store }
  | cancelled (htask : b.sinkTask = .receiving) : SinkStep b .sinkCancelled { b with sinkTask := .left }
  | inputEnded (htask : b.sinkTask = .receiving) (hqueue : b.queue = []) :
      SinkStep b .sinkInputEnded { b with sinkTask := .left }
  | dropped (htask : b.sinkTask = .left) : SinkStep b .dropReceiver { b with sinkTask := .ended }

variable {b b' : Branch} {a : BranchAction}

theorem segmenterStep_of_stepSegmenter (h : b.stepSegmenter a = some b') : SegmenterStep b a b' := by
  cases a <;> simp only [Branch.stepSegmenter, reduceCtorEq] at h
  case packet o pkt =>
    split at h
    · next htask =>
      split at h
      · next s seg hbegin => exact Option.some.inj h ▸ .rolledOver htask hbegin
      · next s r hne hbegin =>
        refine Option.some.inj h ▸ .processed htask hbegin ?_
        match r, hne with
        | none, _ => rfl
        | some none, _ => rfl
        | some (some seg), hne => exact absurd rfl (hne seg)
    · cases h
  case list =>
    split at h
    · next htask => exact Option.some.inj h ▸ .listed htask
    · next htask => exact Option.some.inj h ▸ .lastListed htask
    · cases h
  case deliver =>
    split at h
    · next htask => exact Option.some.inj h ▸ .delivered htask
    · next htask => exact Option.some.inj h ▸ .lastDelivered htask
    · cases h
  case leaveLoop =>
    split at h
    · next htask => exact Option.some.inj (Option.ite_none_right_eq_some.mp h).2 ▸ .left htask
    · cases h
  case close o =>
    split at h
    · next htask =>
      split at h
      · next hroll => exact Option.some.inj h ▸ .closed htask hroll
      · next hroll => exact Option.some.inj h ▸ .lastRolledOver htask hroll
    · cases h

theorem sinkStep_of_stepSink (h : b.stepSink a = some b') : SinkStep b a b' := by
  cases a <;> simp only [Branch.stepSink, reduceCtorEq] at h
  case recv =>
    split at h
    · next htask hqueue => exact Option.some.inj h ▸ .received htask hqueue
    · cases h
  case upload ok =>
    split at h
    · next htask =>
      cases ok with
      | true => exact Option.some.inj h ▸ .uploaded htask
      | false =>
        simp only [Bool.false_eq_true, if_false] at h
        split at h
        · exact Option.some.inj h ▸ .retried htask
        · exact Option.some.inj h ▸ .gaveUp htask
    · cases h
  case uploadPlaylist ok =>
    split at h
    · next htask => exact Option.some.inj h ▸ .finished htask
    · cases h
  case sinkCancelled =>
    split at h
    · next htask => exact Option.some.inj (Option.ite_none_right_eq_some.mp h).2 ▸ .cancelled htask
    · cases h
  case sinkInputEnded =>
    split at h
    · next htask _ hqueue => exact Option.some.inj h ▸ .inputEnded htask hqueue
    · cases h
  case dropReceiver =>
    split at h
    · next htask => exact Option.some.inj h ▸ .dropped htask
    · cases h

/-- A step sets one of the two flags, or is a step of one of the two tasks. -/
theorem Branch.step_cases (h : b.step a = some b') :
    (a = .cancel ∧ b' = { b with cancelled := true }) ∨ (a = .closeInput ∧ b' = { b with inputClosed := true }) ∨
      SegmenterStep b a b' ∨ SinkStep b a b' := by
  unfold Branch.step at h
  split at h
  · exact .inl ⟨rfl, (Option.some.inj h).symm⟩
  · exact .inr (.inl ⟨rfl, (Option.some.inj h).symm⟩)
  · obtain h | ⟨-, h⟩ := Option.or_eq_some_iff.mp h
    · exact .inr (.inr (.inl (segmenterStep_of_stepSegmenter h)))
    · exact .inr (.inr (.inr (sinkStep_of_stepSink h)))

end LivestreamRs.Hls
