import LivestreamRs.Media.RtpHeader
import LivestreamRs.Pipeline.AnySchedule
import LivestreamRs.Rtsp.Segmentation
import LivestreamRs.Rtsp.Session

/-! # The record phase of an RTSP connection

`run_rtp_loop` (`livestream-transport/src/rtsp/server.rs`) and `RtspSource` (`source/rtsp.rs`), from the reader of the
record phase to the depacketizer. The loop takes one item of the connection after the other: a frame is put into the
frame channel, a request is answered, stray bytes are passed over. The source moves the frames on to the RTP pad and
tries again while that is full. Both end on the stream's token, and the loop also on TEARDOWN, at the end of the
connection, when it has heard nothing for too long and when the source is gone.
-/
namespace LivestreamRs.Rtsp
open Foundations Media Pipeline
set_option autoImplicit false

/-! ## Frames and answers -/

structure RawRtpFrame where
  channel : UInt8
  payloadType : UInt8
  rtpTimestamp : UInt32
  marker : Bool
  sequenceNumber : UInt16
  ssrc : UInt32
  rtpData : Bytes
  deriving DecidableEq

/-- The frame that `forward_interleaved_frame` sends; a malformed one is dropped. -/
def interleavedFrame (channel : UInt8) (payload : Bytes) : Indexed (Option RawRtpFrame) :=
  if payload.length < 12 then .ok none
  else do
    let hdr ← parseRtpHeader payload
    pure (hdr.map fun hdr =>
      { channel := channel
        payloadType := hdr.payloadType
        rtpTimestamp := hdr.rtpTimestamp
        marker := hdr.marker
        sequenceNumber := hdr.sequenceNumber
        ssrc := hdr.ssrc
        rtpData := payload })

/-- The packet `RtspSource::start` makes of a frame. -/
def RawRtpFrame.toPacket (frame : RawRtpFrame) : RtpPacket where
  payloadType := frame.payloadType
  channel := frame.channel
  rtpTimestamp := frame.rtpTimestamp
  marker := frame.marker
  data := frame.rtpData

inductive Reply
  | response (answer : RtspResponse)
  -- `error_response(StatusCode::InternalServerError, cseq)`
  | internalServerError (cseq : ℕ)
  deriving DecidableEq

def Reply.cseq : Reply → ℕ
  | .response answer => answer.cseq
  | .internalServerError cseq => cseq

/-- `handle_inband_request`: the session after it, the answer it makes, and whether the session is torn down; `none` when
`parse_sdp` panics. Whether the answer can be written changes nothing here: a failed write is only logged. -/
def handleInbandRequest (base64 : Base64) (parse : Bytes → Except Unit (Option RtspRequest)) (session : RtspSession)
    (data : Bytes) : Option (RtspSession × List Reply × Bool) :=
  match parse data with
  | .error _ => some (session, [], false)
  | .ok none => some (session, [], false)
  | .ok (some request) =>
    match session.handleRequest base64 request with
    | (session, .ok response) => some (session, [.response response], session.state = .teardown)
    | (_, .error .panicked) => none
    | (session, .error _) =>
      some (session, [.internalServerError (request.cseq.getD 0)], session.state = .teardown)

/-! ## The tasks -/

inductive RecordTask
  -- in the `select!` of `run_rtp_loop`
  | reading
  -- in `frame_tx.send(frame).await`
  | forwarding (frame : RawRtpFrame)
  -- the loop is left, and `handle_connection` has returned
  | ended
  | panicked

def RecordTask.isOver : RecordTask → Bool
  | .ended | .panicked => true
  | _ => false

def RecordTask.inFlight : RecordTask → List RawRtpFrame
  | .forwarding frame => [frame]
  | _ => []

/-- `RtspSource::start` -/
inductive RtspSourceTask
  | looping
  -- in `send_pkt_or_stop`
  | sending (pkt : RtpPacket)
  | ended

def RtspSourceTask.isEnded : RtspSourceTask → Bool
  | .ended => true
  | _ => false

def RtspSourceTask.inFlight : RtspSourceTask → List RtpPacket
  | .sending pkt => [pkt]
  | _ => []

structure RecordPhase (R : Type) where
  reader : RtpInterleavedReader R
  session : RtspSession
  task : RecordTask := .reading
  -- `mpsc::channel(256)` between the loop and the source
  frames : Pad RawRtpFrame := { capacity := 256 }
  source : RtspSourceTask := .looping
  -- `new_channel(1024)` between the source and the depacketizer
  rtp : Pad RtpPacket := { capacity := 1024 }
  cancelled : Bool := false
  -- history, read by no one: what was read, written to the client and taken by the depacketizer
  items : List RtpReadItem := []
  replies : List Reply := []
  depacketized : List RtpPacket := []

inductive RecordAction
  -- `next_item` returns
  | readItem
  -- `frame_tx.send(frame).await` returns
  | forward
  -- the loop sees the token
  | seeCancel
  -- `IDLE_TIMEOUT` has passed without an item
  | idle
  -- another holder of the token cancels it
  | cancel
  | source (wake : Wake)
  -- the depacketizer takes a packet, or its task ends
  | depacketize
  | depacketizerEnds

namespace RecordPhase
variable {R : Type} (s : RecordPhase R)

/-- The pad's sender is in the source, which its task and `handle_connection` share. -/
def release : RecordPhase R :=
  { s with rtp := { s.rtp with senderAlive := s.rtp.senderAlive && !(s.source.isEnded && s.task.isOver) } }

/-- The loop is left: the token is cancelled, and the frame sender dropped. -/
def stop : RecordPhase R := { s with task := .ended, cancelled := true, frames := s.frames.dropSender }.release

def panic : RecordPhase R := { s with task := .panicked, frames := s.frames.dropSender }.release

def stopSource : RecordPhase R := { s with source := .ended, frames := s.frames.dropReceiver }.release

/-- `handle_rtp_item` for an item, up to the send of a frame. -/
def handleRtpItem (base64 : Base64) (parse : Bytes → Except Unit (Option RtspRequest)) : RtpReadItem → RecordPhase R
  | .interleaved channel payload =>
    match interleavedFrame channel payload with
    | .ok (some frame) => { s with task := .forwarding frame }
    | .ok none => s
    | .error _ => s.panic
  | .rtspRequest data =>
    match handleInbandRequest base64 parse s.session data with
    | some (session, replies, tornDown) =>
      let s := { s with session := session, replies := s.replies ++ replies }
      if tornDown then s.stop else s
    | none => s.panic
  | .stray _ => s

def stepSource (wake : Wake) : Option (RecordPhase R) :=
  match s.source with
  | .looping =>
    match wake with
    | .cancelled => if s.cancelled then some s.stopSource else none
    | .input =>
      match s.frames.recvResult with
      | .item frame => some { s with frames := s.frames.recv, source := .sending frame.toPacket }
      | .closed => some s.stopSource
      | .waiting => none
  | .sending pkt =>
    match s.rtp.sendResult with
    | .ok => some { s with source := .looping, rtp := s.rtp.send pkt }
    | .closed => some { s with source := .looping }
    -- `yield_now`, and again
    | .full => some s
  | .ended => none

variable [InputStream R UInt8] (base64 : Base64) (parse : Bytes → Except Unit (Option RtspRequest))

def step : RecordAction → Option (RecordPhase R)
  | .readItem =>
    match s.task with
    | .reading =>
      -- the `select!` is biased to the token
      if s.cancelled then none
      else
        match nextItem s.reader with
        | .ok (item, reader) =>
          some ({ s with reader := reader, items := s.items ++ [item] }.handleRtpItem base64 parse item)
        | .error _ => some s.stop
    | _ => none
  | .forward =>
    match s.task with
    | .forwarding frame =>
      match s.frames.sendResult with
      | .ok => some { s with task := .reading, frames := s.frames.send frame }
      | .closed => some s.stop
      | .full => none
    | _ => none
  | .seeCancel =>
    match s.task with
    | .reading => if s.cancelled then some s.stop else none
    | _ => none
  | .idle =>
    match s.task with
    | .reading => some s.stop
    | _ => none
  | .cancel => some { s with cancelled := true }
  | .source wake => s.stepSource wake
  | .depacketize =>
    if s.rtp.receiverAlive then
      match s.rtp.recvResult with
      | .item pkt => some { s with rtp := s.rtp.recv, depacketized := s.depacketized ++ [pkt] }
      | _ => none
    else none
  | .depacketizerEnds => some { s with rtp := s.rtp.dropReceiver }

/-- All that a step can do. -/
inductive Stepped (s : RecordPhase R) : RecordAction → RecordPhase R → Prop
  | read (item : RtpReadItem) (reader : RtpInterleavedReader R) (htask : s.task = .reading)
      (hcancelled : s.cancelled = false) (hnext : nextItem s.reader = .ok (item, reader)) :
      Stepped s .readItem ({ s with reader := reader, items := s.items ++ [item] }.handleRtpItem base64 parse item)
  | gaveUp (a : RecordAction) (htask : s.task = .reading) : Stepped s a s.stop
  | forwarded (frame : RawRtpFrame) (htask : s.task = .forwarding frame) (hroom : s.frames.sendResult = .ok) :
      Stepped s .forward { s with task := .reading, frames := s.frames.send frame }
  | refused (frame : RawRtpFrame) (htask : s.task = .forwarding frame) (hclosed : s.frames.sendResult = .closed) :
      Stepped s .forward s.stop
  | cancelled : Stepped s .cancel { s with cancelled := true }
  | sourceStopped (wake : Wake) : Stepped s (.source wake) s.stopSource
  | converted (wake : Wake) (frame : RawRtpFrame) (hsource : s.source = .looping)
      (hframe : s.frames.recvResult = .item frame) :
      Stepped s (.source wake) { s with frames := s.frames.recv, source := .sending frame.toPacket }
  | sent (wake : Wake) (pkt : RtpPacket) (hsource : s.source = .sending pkt) (hroom : s.rtp.sendResult = .ok) :
      Stepped s (.source wake) { s with source := .looping, rtp := s.rtp.send pkt }
  | padClosed (wake : Wake) (pkt : RtpPacket) (hsource : s.source = .sending pkt) (hclosed : s.rtp.sendResult = .closed) :
      Stepped s (.source wake) { s with source := .looping }
  | padFull (wake : Wake) : Stepped s (.source wake) s
  | depacketized (pkt : RtpPacket) (hpkt : s.rtp.recvResult = .item pkt) :
      Stepped s .depacketize { s with rtp := s.rtp.recv, depacketized := s.depacketized ++ [pkt] }
  | depacketizerEnded : Stepped s .depacketizerEnds { s with rtp := s.rtp.dropReceiver }

variable {s base64 parse}

theorem stepped_of_source {t : RecordPhase R} {wake : Wake} (h : s.stepSource wake = some t) :
    Stepped base64 parse s (.source wake) t := by
  cases hsource : s.source with
  | looping =>
    simp only [stepSource, hsource] at h
    cases wake with
    | cancelled =>
      simp only [] at h
      split at h
      · obtain rfl := Option.some.inj h
        exact .sourceStopped _
      · cases h
    | input =>
      simp only [] at h
      split at h
      · next frame hframe =>
        obtain rfl := Option.some.inj h
        exact .converted _ frame hsource hframe
      · obtain rfl := Option.some.inj h
        exact .sourceStopped _
      · cases h
  | sending pkt =>
    simp only [stepSource, hsource] at h
    split at h
    · next hroom =>
      obtain rfl := Option.some.inj h
      exact .sent wake pkt hsource hroom
    · next hclosed =>
      obtain rfl := Option.some.inj h
      exact .padClosed wake pkt hsource hclosed
    · obtain rfl := Option.some.inj h
      exact .padFull wake
  | ended =>
    simp only [stepSource, hsource] at h
    cases h

theorem stepped_of_step {t : RecordPhase R} {a : RecordAction} (h : s.step base64 parse a = some t) :
    Stepped base64 parse s a t := by
  cases a with
  | readItem =>
    simp only [step] at h
    split at h
    · next htask =>
      split at h
      · cases h
      · next hcancelled =>
        split at h
        · next item reader hnext =>
          obtain rfl := Option.some.inj h
          exact .read item reader htask (by simpa using hcancelled) hnext
        · obtain rfl := Option.some.inj h
          exact .gaveUp _ htask
    · cases h
  | forward =>
    simp only [step] at h
    split at h
    · next frame htask =>
      split at h
      · next hroom =>
        obtain rfl := Option.some.inj h
        exact .forwarded frame htask hroom
      · next hclosed =>
        obtain rfl := Option.some.inj h
        exact .refused frame htask hclosed
      · cases h
    · cases h
  | seeCancel =>
    simp only [step] at h
    split at h
    · next htask =>
      split at h
      · obtain rfl := Option.some.inj h
        exact .gaveUp _ htask
      · cases h
    · cases h
  | idle =>
    simp only [step] at h
    split at h
    · next htask =>
      obtain rfl := Option.some.inj h
      exact .gaveUp _ htask
    · cases h
  | cancel =>
    obtain rfl := Option.some.inj h
    exact .cancelled
  | source wake => exact stepped_of_source h
  | depacketize =>
    simp only [step] at h
    split at h
    · split at h
      · next pkt hpkt =>
        obtain rfl := Option.some.inj h
        exact .depacketized pkt hpkt
      · cases h
    · cases h
  | depacketizerEnds =>
    obtain rfl := Option.some.inj h
    exact .depacketizerEnded

end RecordPhase

/-! ## One item -/

/-- The packet an item is to the depacketizer, if it is a frame with an RTP header. -/
def RtpReadItem.packet : RtpReadItem → Option RtpPacket
  | .interleaved channel payload => ((interleavedFrame channel payload).toOption.join).map RawRtpFrame.toPacket
  | .rtspRequest _ | .stray _ => none

/-- The request an item is to the session. -/
def RtpReadItem.request (parse : Bytes → Except Unit (Option RtspRequest)) : RtpReadItem → Option RtspRequest
  | .rtspRequest data => (parse data).toOption.join
  | .interleaved _ _ | .stray _ => none

theorem interleavedFrame_ne_error (channel : UInt8) (payload : Bytes) (e : IndexPanic) :
    interleavedFrame channel payload ≠ .error e := by
  unfold interleavedFrame
  split
  · nofun
  · obtain ⟨r, hr, -⟩ := parseRtpHeader_sound payload
    rw [hr]
    nofun

/-- A session that records never parses an SDP again, so every request is answered by a status of its own. -/
theorem handleRequest_of_recording (base64 : Base64) {session : RtspSession} (h : session.state = .recording)
    (request : RtspRequest) :
    ∃ answer, session.handleRequest base64 request =
        ({ session with state := if request.method = .teardown then .teardown else .recording }, .ok answer) ∧
      answer.cseq = request.cseq.getD 0 := by
  have hsame : { session with state := .recording } = session := by rw [← h]
  cases hmethod : request.method with
  | announce | setup | record =>
    refine ⟨errorResponse .methodNotValidInThisState (request.cseq.getD 0), ?_, rfl⟩
    simp [RtspSession.handleRequest, hmethod, RtspSession.handleAnnounce, RtspSession.handleSetup,
      RtspSession.handleRecord, h, hsame]
  | options => exact ⟨okResponse (request.cseq.getD 0), by simp [RtspSession.handleRequest, hmethod, hsame], rfl⟩
  | teardown => exact ⟨okResponse (request.cseq.getD 0), by simp [RtspSession.handleRequest, hmethod], rfl⟩
  | other =>
    exact ⟨errorResponse .methodNotAllowed (request.cseq.getD 0), by simp [RtspSession.handleRequest, hmethod, hsame], rfl⟩

namespace RecordPhase
variable {R : Type} {s : RecordPhase R} {base64 : Base64} {parse : Bytes → Except Unit (Option RtspRequest)}

/-- What becomes of an item in a recording session. -/
inductive Took (parse : Bytes → Except Unit (Option RtspRequest)) (s : RecordPhase R) (item : RtpReadItem) :
    RecordPhase R → Prop
  | frame (frame : RawRtpFrame) (hpacket : item.packet = some frame.toPacket) (hrequest : item.request parse = none) :
      Took parse s item { s with task := .forwarding frame }
  | passed (hpacket : item.packet = none) (hrequest : item.request parse = none) : Took parse s item s
  | answered (request : RtspRequest) (answer : RtspResponse) (hpacket : item.packet = none)
      (hrequest : item.request parse = some request) (hmethod : request.method ≠ .teardown)
      (hcseq : answer.cseq = request.cseq.getD 0) :
      Took parse s item { s with replies := s.replies ++ [.response answer] }
  | tornDown (request : RtspRequest) (answer : RtspResponse) (hpacket : item.packet = none)
      (hrequest : item.request parse = some request) (hmethod : request.method = .teardown)
      (hcseq : answer.cseq = request.cseq.getD 0) :
      Took parse s item (stop { s with
        session := { s.session with state := .teardown }
        replies := s.replies ++ [.response answer] })

theorem took_of_recording (h : s.session.state = .recording) (item : RtpReadItem) :
    Took parse s item (s.handleRtpItem base64 parse item) := by
  cases item with
  | interleaved channel payload =>
    cases hframe : interleavedFrame channel payload with
    | error e => exact absurd hframe (interleavedFrame_ne_error channel payload e)
    | ok frame =>
      cases frame with
      | none =>
        simp only [handleRtpItem, hframe]
        exact .passed (by simp [RtpReadItem.packet, hframe, Except.toOption]) rfl
      | some frame =>
        simp only [handleRtpItem, hframe]
        exact .frame frame (by simp [RtpReadItem.packet, hframe, Except.toOption]) rfl
  | rtspRequest data =>
    cases hparse : parse data with
    | error e =>
      have hsame : s.handleRtpItem base64 parse (.rtspRequest data) = s := by
        simp [handleRtpItem, handleInbandRequest, hparse]
      rw [hsame]
      exact .passed rfl (by simp [RtpReadItem.request, hparse, Except.toOption])
    | ok message =>
      cases message with
      | none =>
        have hsame : s.handleRtpItem base64 parse (.rtspRequest data) = s := by
          simp [handleRtpItem, handleInbandRequest, hparse]
        rw [hsame]
        exact .passed rfl (by simp [RtpReadItem.request, hparse, Except.toOption])
      | some request =>
        have hrequest : (RtpReadItem.rtspRequest data).request parse = some request := by
          simp [RtpReadItem.request, hparse, Except.toOption]
        obtain ⟨answer, hhandled, hcseq⟩ := handleRequest_of_recording base64 h request
        by_cases hmethod : request.method = .teardown
        · simp only [handleRtpItem, handleInbandRequest, hparse, hhandled, hmethod, if_true, decide_true]
          exact .tornDown request answer rfl hrequest hmethod hcseq
        · have hsession : { s.session with state := .recording } = s.session := by rw [← h]
          simp only [handleRtpItem, handleInbandRequest, hparse, hhandled, hmethod, if_false, hsession, h]
          exact .answered request answer rfl hrequest hmethod hcseq
  | stray bytes => exact .passed rfl rfl

end RecordPhase

/-! ## What reaches the depacketizer -/

namespace RecordPhase
variable {R : Type} [InputStream R UInt8] {base64 : Base64} {parse : Bytes → Except Unit (Option RtspRequest)}
  {s t : RecordPhase R} {a : RecordAction}

/-- What the loop and the source have still to pass on. -/
def onTheWay {R : Type} (s : RecordPhase R) : List RtpPacket :=
  s.source.inFlight ++ (s.frames.queue ++ s.task.inFlight).map RawRtpFrame.toPacket

/-- What holds of a record phase that began with this reader and a recording session. -/
structure Recording (reader : RtpInterleavedReader R) (s : RecordPhase R) : Prop where
  session : s.task.isOver = false → s.session.state = .recording
  joined : s.frames.receiverAlive = !s.source.isEnded
  read : ∀ n, readItems (s.items.length + n) reader = (s.items ++ (readItems n s.reader).1, (readItems n s.reader).2)
  reached : s.depacketized ++ s.rtp.queue <+: s.items.filterMap RtpReadItem.packet
  whole : s.source.isEnded = false → s.rtp.receiverAlive = true →
    s.depacketized ++ s.rtp.queue ++ s.onTheWay = s.items.filterMap RtpReadItem.packet

namespace Recording
variable {reader : RtpInterleavedReader R}

/-- The loop is left with no frame in hand. -/
theorem stop (h : Recording reader s) (hframe : s.source.isEnded = false → s.task.inFlight = []) :
    Recording reader s.stop where
  session := nofun
  joined := h.joined
  read := h.read
  reached := h.reached
  whole hsource hrtp := by
    refine Eq.trans ?_ (h.whole hsource hrtp)
    rw [onTheWay, onTheWay, hframe hsource]
    rfl

theorem readItem {item : RtpReadItem} {reader' : RtpInterleavedReader R} (h : Recording reader s)
    (htask : s.task = .reading) (hnext : nextItem s.reader = .ok (item, reader'))
    (htook : Took parse { s with reader := reader', items := s.items ++ [item] } item t) : Recording reader t := by
  have hsession : s.session.state = .recording := h.session (by rw [htask]; rfl)
  have hread : ∀ n, readItems ((s.items ++ [item]).length + n) reader =
      (s.items ++ [item] ++ (readItems n reader').1, (readItems n reader').2) := by
    intro n
    have hmore : readItems (n + 1) s.reader = (item :: (readItems n reader').1, (readItems n reader').2) := by
      simp only [readItems, hnext]
    rw [List.length_append, List.length_singleton, Nat.add_assoc, Nat.add_comm 1 n, h.read, hmore]
    simp
  have hreached : s.depacketized ++ s.rtp.queue <+: (s.items ++ [item]).filterMap RtpReadItem.packet := by
    rw [List.filterMap_append]
    exact h.reached.trans (List.prefix_append _ _)
  have hpassed : item.packet = none → Recording reader { s with reader := reader', items := s.items ++ [item] } := by
    intro hpacket
    refine ⟨h.session, h.joined, hread, hreached, fun hsource hrtp => (h.whole hsource hrtp).trans ?_⟩
    simp [hpacket]
  cases htook with
  | frame frame hpacket =>
    refine ⟨fun _ => hsession, h.joined, hread, hreached, fun hsource hrtp => ?_⟩
    have hwhole := h.whole hsource hrtp
    simp only [List.filterMap_append, ← hwhole]
    simp [onTheWay, htask, RecordTask.inFlight, hpacket]
  | passed hpacket => exact hpassed hpacket
  | answered request answer hpacket =>
    have h' := hpassed hpacket
    exact ⟨h'.session, h'.joined, h'.read, h'.reached, h'.whole⟩
  | tornDown request answer hpacket =>
    have h' := hpassed hpacket
    have hstopped := h'.stop fun _ => by rw [htask]; rfl
    exact ⟨fun h => (by cases h), hstopped.joined, hstopped.read, hstopped.reached, hstopped.whole⟩

theorem step (h : Recording reader s) (hstep : s.step base64 parse a = some t) : Recording reader t := by
  cases stepped_of_step hstep with
  | read item reader' htask _ hnext =>
    have hsession : s.session.state = .recording := h.session (by rw [htask]; rfl)
    exact h.readItem htask hnext
      (took_of_recording (s := { s with reader := reader', items := s.items ++ [item] }) hsession item)
  | gaveUp a htask => exact h.stop fun _ => by rw [htask]; rfl
  | forwarded frame htask hroom =>
    refine ⟨fun _ => h.session (by rw [htask]; rfl), (receiverAlive_send _ _).trans h.joined, h.read, h.reached,
      fun hsource hrtp => Eq.trans ?_ (h.whole hsource hrtp)⟩
    simp [onTheWay, htask, RecordTask.inFlight, Pad.send, hroom]
  | refused frame htask hclosed =>
    -- the channel is closed only by the end of the source
    refine h.stop fun hsource => ?_
    have halive := h.joined
    rw [sendResult_closed_iff.mp hclosed, hsource] at halive
    cases halive
  | cancelled => exact ⟨h.session, h.joined, h.read, h.reached, h.whole⟩
  | sourceStopped => exact ⟨h.session, rfl, h.read, h.reached, fun hsource => (by cases hsource)⟩
  | converted wake frame hsource hframe =>
    refine ⟨h.session, h.joined.trans (by rw [hsource]; rfl), h.read, h.reached, fun _ hrtp => ?_⟩
    refine Eq.trans ?_ (h.whole (by rw [hsource]; rfl) hrtp)
    simp [onTheWay, hsource, RtspSourceTask.inFlight, recv_queue hframe]
  | sent wake pkt hsource hroom =>
    have hwhole := h.whole (by rw [hsource]; rfl) (sendResult_ok_iff.mp hroom).1
    have hsame : s.depacketized ++ (s.rtp.send pkt).queue ++ (s.frames.queue ++ s.task.inFlight).map RawRtpFrame.toPacket =
        s.items.filterMap RtpReadItem.packet := by
      refine Eq.trans ?_ hwhole
      simp [onTheWay, hsource, RtspSourceTask.inFlight, Pad.send, hroom]
    exact ⟨h.session, h.joined.trans (by rw [hsource]; rfl), h.read, ⟨_, hsame⟩, fun _ _ => hsame⟩
  | padClosed wake pkt hsource hclosed =>
    refine ⟨h.session, h.joined.trans (by rw [hsource]; rfl), h.read, h.reached, fun _ hrtp => ?_⟩
    rw [sendResult_closed_iff.mp hclosed] at hrtp
    cases hrtp
  | padFull => exact h
  | depacketized pkt hpkt =>
    have hqueue : s.depacketized ++ [pkt] ++ s.rtp.recv.queue = s.depacketized ++ s.rtp.queue := by
      rw [recv_queue hpkt, List.append_assoc, List.singleton_append]
    exact ⟨h.session, h.joined, h.read, hqueue ▸ h.reached, fun hsource hrtp => hqueue ▸ h.whole hsource hrtp⟩
  | depacketizerEnded => exact ⟨h.session, h.joined, h.read, h.reached, fun _ hrtp => (by cases hrtp)⟩

end Recording

structure RoomsFit (s : RecordPhase R) : Prop where
  frames : Fits 256 s.frames
  rtp : Fits 1024 s.rtp

omit [InputStream R UInt8] in
theorem RoomsFit.handleRtpItem (h : RoomsFit s) (item : RtpReadItem) : RoomsFit (s.handleRtpItem base64 parse item) := by
  have hover : ∀ t : RecordPhase R, t.frames = s.frames.dropSender → t.rtp.queue = s.rtp.queue →
      t.rtp.capacity = s.rtp.capacity → RoomsFit t := fun t hframes hqueue hcapacity =>
    ⟨hframes ▸ h.frames.dropSender, hcapacity.trans h.rtp.capacity, hqueue ▸ h.rtp.length⟩
  cases item with
  | interleaved channel payload =>
    simp only [RecordPhase.handleRtpItem]
    split
    · exact ⟨h.frames, h.rtp⟩
    · exact h
    · exact hover _ rfl rfl rfl
  | rtspRequest data =>
    simp only [RecordPhase.handleRtpItem]
    split
    · split
      · exact hover _ rfl rfl rfl
      · exact ⟨h.frames, h.rtp⟩
    · exact hover _ rfl rfl rfl
  | stray bytes => exact h

theorem RoomsFit.step (h : RoomsFit s) (hstep : s.step base64 parse a = some t) : RoomsFit t := by
  cases stepped_of_step hstep with
  | read item reader' =>
    exact RoomsFit.handleRtpItem (s := { s with reader := reader', items := s.items ++ [item] }) ⟨h.frames, h.rtp⟩ item
  | gaveUp | refused => exact ⟨h.frames.dropSender, h.rtp.capacity, h.rtp.length⟩
  | forwarded frame => exact ⟨h.frames.send frame, h.rtp⟩
  | cancelled | padClosed | padFull => exact ⟨h.frames, h.rtp⟩
  | sourceStopped => exact ⟨h.frames.dropReceiver, h.rtp.capacity, h.rtp.length⟩
  | converted => exact ⟨h.frames.recv, h.rtp⟩
  | sent wake pkt => exact ⟨h.frames, h.rtp.send pkt⟩
  | depacketized => exact ⟨h.frames, h.rtp.recv⟩
  | depacketizerEnded => exact ⟨h.frames, h.rtp.dropReceiver⟩

omit [InputStream R UInt8] in
theorem onTheWay_length_le (h : RoomsFit s) : s.onTheWay.length ≤ 258 := by
  have hframes := h.frames.length
  have hsource : s.source.inFlight.length ≤ 1 := by cases s.source <;> simp [RtspSourceTask.inFlight]
  have htask : s.task.inFlight.length ≤ 1 := by cases s.task <;> simp [RecordTask.inFlight]
  simp only [onTheWay, List.length_append, List.length_map]
  omega

/-- How far the packets still are from the depacketizer. -/
def work (s : RecordPhase R) : ℕ :=
  4 * s.task.inFlight.length + 3 * s.frames.queue.length + 2 * s.source.inFlight.length + s.rtp.queue.length

/-- The source and the depacketizer are there, and no more is read. -/
structure Drains (s t : RecordPhase R) : Prop where
  items : t.items = s.items
  source : t.source.isEnded = false
  rtp : t.rtp.receiverAlive = true

/-- Some task can always go on: the one that is nearest to the depacketizer among those with a packet. -/
theorem exists_drains {reader : RtpInterleavedReader R} (h : Recording reader s) (hroom : RoomsFit s)
    (hsource : s.source.isEnded = false) (hrtp : s.rtp.receiverAlive = true) (hwork : s.work ≠ 0) :
    ∃ a t, s.step base64 parse a = some t ∧ Drains s t ∧ t.work < s.work := by
  cases hqueue : s.rtp.queue with
  | cons pkt queue =>
    refine ⟨.depacketize, { s with rtp := s.rtp.recv, depacketized := s.depacketized ++ [pkt] }, ?_,
      ⟨rfl, hsource, hrtp⟩, ?_⟩
    · simp [RecordPhase.step, hrtp, Pad.recvResult, hqueue]
    · simp [work, Pad.recv, hqueue]
  | nil =>
    cases htask : s.source with
    | ended => rw [htask] at hsource; cases hsource
    | sending pkt =>
      have hok : s.rtp.sendResult = .ok := sendResult_ok_iff.mpr ⟨hrtp, by simp [hqueue, hroom.rtp.capacity]⟩
      refine ⟨.source .input, { s with source := .looping, rtp := s.rtp.send pkt }, ?_,
        ⟨rfl, rfl, (receiverAlive_send _ _).trans hrtp⟩, ?_⟩
      · simp [RecordPhase.step, stepSource, htask, hok]
      · simp [work, htask, RtspSourceTask.inFlight, Pad.send, hok, hqueue]
    | looping =>
      cases hframes : s.frames.queue with
      | cons frame frames =>
        refine ⟨.source .input, { s with frames := s.frames.recv, source := .sending frame.toPacket }, ?_,
          ⟨rfl, rfl, hrtp⟩, ?_⟩
        · simp [RecordPhase.step, stepSource, htask, Pad.recvResult, hframes]
        · simp only [work, htask, RtspSourceTask.inFlight, Pad.recv, hframes, List.tail_cons, List.length_cons,
            List.length_nil]
          omega
      | nil =>
        cases hloop : s.task with
        | forwarding frame =>
          have halive : s.frames.receiverAlive = true := by rw [h.joined, hsource]; rfl
          have hok : s.frames.sendResult = .ok :=
            sendResult_ok_iff.mpr ⟨halive, by simp [hframes, hroom.frames.capacity]⟩
          refine ⟨.forward, { s with task := .reading, frames := s.frames.send frame }, ?_, ⟨rfl, hsource, hrtp⟩, ?_⟩
          · simp [RecordPhase.step, hloop, hok]
          · simp [work, hloop, RecordTask.inFlight, Pad.send, hok, hframes]
        | reading | ended | panicked =>
          refine absurd ?_ hwork
          simp [work, hloop, RecordTask.inFlight, hframes, htask, RtspSourceTask.inFlight, hqueue]

theorem exists_run_drains {reader : RtpInterleavedReader R} (h : Recording reader s) (hroom : RoomsFit s)
    (hsource : s.source.isEnded = false) (hrtp : s.rtp.receiverAlive = true) :
    ∃ later t, run (RecordPhase.step · base64 parse) s later = some t ∧ t.items = s.items ∧
      t.depacketized = s.items.filterMap RtpReadItem.packet := by
  let I (t : RecordPhase R) : Prop := Recording reader t ∧ RoomsFit t ∧ Drains s t
  let C (u : RecordPhase R) (a : RecordAction) : Prop := ∀ v, u.step base64 parse a = some v → Drains u v
  have hs : I s := ⟨h, hroom, rfl, hsource, hrtp⟩
  have hkeep : ∀ u a v, I u → C u a → u.step base64 parse a = some v → I v := fun u a v hu ha hstep =>
    ⟨hu.1.step hstep, hu.2.1.step hstep, (ha v hstep).items.trans hu.2.2.items, (ha v hstep).source, (ha v hstep).rtp⟩
  obtain ⟨later, t, hlater, hrun, hwork⟩ := exists_run_of_measure (P := fun t => t.work = 0) work hkeep
    (fun u hu hwork => by
      obtain ⟨a, v, hstep, hdrains, hless⟩ : ∃ a v, u.step base64 parse a = some v ∧ Drains u v ∧ v.work < u.work :=
        exists_drains hu.1 hu.2.1 hu.2.2.source hu.2.2.rtp hwork
      exact ⟨a, v, fun v' hv' => Option.some.inj (hstep.symm.trans hv') ▸ hdrains, hstep, hless⟩) s hs
  obtain ⟨hrecording, -, hdrains⟩ := run_invariant hkeep hs hlater hrun
  refine ⟨later, t, hrun, hdrains.items, ?_⟩
  simp only [work, Nat.add_eq_zero_iff, Nat.mul_eq_zero, List.length_eq_zero_iff, OfNat.ofNat_ne_zero, false_or] at hwork
  obtain ⟨⟨⟨htask, hframes⟩, hsource'⟩, hqueue⟩ := hwork
  rw [← hdrains.items, ← hrecording.whole hdrains.source hdrains.rtp]
  simp [onTheWay, htask, hframes, hsource', hqueue]

section Runs
variable {reader : RtpInterleavedReader R} {session : RtspSession} {acts : List RecordAction}

theorem recording_of_run (hsession : session.state = .recording)
    (hrun : run (RecordPhase.step · base64 parse) { reader := reader, session := session } acts = some s) :
    Recording reader s ∧ RoomsFit s := by
  refine run_invariant (I := fun s => Recording reader s ∧ RoomsFit s) (C := fun _ _ => True)
    (fun _ _ _ hs _ hstep => ⟨hs.1.step hstep, hs.2.step hstep⟩) ⟨?_, ⟨rfl, Nat.zero_le _⟩, ⟨rfl, Nat.zero_le _⟩⟩
    (eachStep_trivial _ _) hrun
  exact ⟨fun _ => hsession, rfl, fun n => by simp, List.prefix_refl _, fun _ _ => rfl⟩

end Runs

/-- A frame with an RTP header and no payload, then `TEARDOWN * RTSP/1.0`. -/
def frameThenTeardown : Bytes :=
  (RtpReadItem.interleaved 0 [0x80, 96, 0, 1, 0, 0, 0, 0, 0, 0, 0, 7]).serialize ++
    "TEARDOWN * RTSP/1.0\r\nCSeq: 4\r\n\r\n".toUTF8.toList

/-- Every message is taken for a TEARDOWN with `CSeq` 4. -/
def parseTeardown (_ : Bytes) : Except Unit (Option RtspRequest) :=
  .ok (some { method := .teardown, uriPath := none, cseq := some 4, body := [] })

/-- The requests in the connection so far. -/
def requests {R : Type} (parse : Bytes → Except Unit (Option RtspRequest)) (s : RecordPhase R) : List RtspRequest :=
  s.items.filterMap (RtpReadItem.request parse)

structure Answered (parse : Bytes → Except Unit (Option RtspRequest)) (s : RecordPhase R) : Prop where
  session : s.task.isOver = false → s.session.state = .recording
  alive : s.task ≠ .panicked
  cseqs : s.replies.map Reply.cseq = (s.requests parse).map fun request => request.cseq.getD 0
  statuses : ∀ reply ∈ s.replies, ∀ cseq, reply ≠ .internalServerError cseq
  before : ∀ request ∈ (s.requests parse).dropLast, request.method ≠ .teardown
  recording : s.session.state ≠ .teardown → ∀ request ∈ s.requests parse, request.method ≠ .teardown
  tornDown : s.session.state = .teardown →
    s.task = .ended ∧ s.cancelled = true ∧ ∃ request ∈ s.requests parse, request.method = .teardown

namespace Answered

omit [InputStream R UInt8] in
/-- A step that neither reads a request nor ends the loop. -/
theorem frame (h : Answered parse s) (hsession : t.session = s.session) (hreplies : t.replies = s.replies)
    (hrequests : t.requests parse = s.requests parse) (hover : t.task.isOver = false → s.task.isOver = false)
    (halive : t.task ≠ .panicked) (htorn : s.task = .ended → t.task = .ended)
    (hcancelled : s.cancelled = true → t.cancelled = true) : Answered parse t where
  session hrunning := hsession ▸ h.session (hover hrunning)
  alive := halive
  cseqs := by rw [hreplies, hrequests, h.cseqs]
  statuses := hreplies ▸ h.statuses
  before := hrequests ▸ h.before
  recording hstate := hrequests ▸ h.recording (hsession ▸ hstate)
  tornDown hstate := by
    obtain ⟨htask, hcancel, hrequest⟩ := h.tornDown (hsession ▸ hstate)
    exact ⟨htorn htask, hcancelled hcancel, hrequests ▸ hrequest⟩

omit [InputStream R UInt8] in
theorem stop (h : Answered parse s) : Answered parse s.stop :=
  h.frame rfl rfl rfl nofun (by simp [RecordPhase.stop, release]) (fun _ => rfl) fun _ => rfl

omit [InputStream R UInt8] in
theorem readItem {item : RtpReadItem} {reader' : RtpInterleavedReader R} (h : Answered parse s)
    (htask : s.task = .reading)
    (htook : Took parse { s with reader := reader', items := s.items ++ [item] } item t) : Answered parse t := by
  have hsession : s.session.state = .recording := h.session (by rw [htask]; rfl)
  have hnot := h.recording (by rw [hsession]; decide)
  have hitems : (s.items ++ [item]).filterMap (RtpReadItem.request parse) =
      s.requests parse ++ (item.request parse).toList := by
    rw [List.filterMap_append]
    cases hrequest : item.request parse <;> simp [requests, hrequest]
  have hover : s.task.isOver = false := by rw [htask]; rfl
  cases htook with
  | frame frame hpacket hrequest =>
    rw [hrequest, Option.toList_none, List.append_nil] at hitems
    exact h.frame rfl rfl hitems (fun _ => hover) (by simp) (by simp [htask]) id
  | passed hpacket hrequest =>
    rw [hrequest, Option.toList_none, List.append_nil] at hitems
    exact h.frame rfl rfl hitems id h.alive id id
  | answered request answer hpacket hrequest hmethod hcseq =>
    rw [hrequest, Option.toList_some] at hitems
    refine ⟨h.session, h.alive, ?_, ?_, ?_, fun _ => ?_, fun hstate => ?_⟩
    · simp only [requests, hitems, List.map_append, h.cseqs, List.map_singleton, Reply.cseq, hcseq]
    · exact List.forall_mem_append.mpr ⟨h.statuses, by simp⟩
    · simp only [requests, hitems, List.dropLast_concat]
      exact hnot
    · simp only [requests, hitems]
      exact List.forall_mem_append.mpr ⟨hnot, by simpa using hmethod⟩
    · rw [hsession] at hstate
      cases hstate
  | tornDown request answer hpacket hrequest hmethod hcseq =>
    rw [hrequest, Option.toList_some] at hitems
    refine ⟨nofun, by simp [RecordPhase.stop, release], ?_, ?_, ?_, fun hstate => absurd rfl hstate,
      fun _ => ⟨rfl, rfl, request, ?_, hmethod⟩⟩
    · simp only [requests, RecordPhase.stop, release, hitems, List.map_append, h.cseqs, List.map_singleton, Reply.cseq,
        hcseq]
    · exact List.forall_mem_append.mpr ⟨h.statuses, by simp⟩
    · simp only [requests, RecordPhase.stop, release, hitems, List.dropLast_concat]
      exact hnot
    · simp [requests, RecordPhase.stop, release, hitems]

theorem step (h : Answered parse s) (hstep : s.step base64 parse a = some t) : Answered parse t := by
  cases stepped_of_step hstep with
  | read item reader' htask =>
    have hsession : s.session.state = .recording := h.session (by rw [htask]; rfl)
    exact h.readItem htask
      (took_of_recording (s := { s with reader := reader', items := s.items ++ [item] }) hsession item)
  | gaveUp | refused => exact h.stop
  | forwarded frame htask =>
    exact h.frame rfl rfl rfl (fun _ => by rw [htask]; rfl) (by simp) (by simp [htask]) id
  | cancelled => exact h.frame rfl rfl rfl id h.alive id fun _ => rfl
  | sourceStopped | converted | sent | padClosed | padFull | depacketized | depacketizerEnded =>
    exact h.frame rfl rfl rfl id h.alive id id

end Answered

/-- An answer is made to every request that comes in the record phase, once, in order and under its own `CSeq`, and none
of them is an internal error; the session is torn down by a TEARDOWN alone, which is the last request read and ends the
loop; and no item makes the task panic. -/
theorem inband_requests_answered (base64 : Base64) (parse : Bytes → Except Unit (Option RtspRequest))
    (reader : RtpInterleavedReader R) (session : RtspSession) (acts : List RecordAction) (s : RecordPhase R)
    (hsession : session.state = .recording)
    (hrun : run (RecordPhase.step · base64 parse) { reader := reader, session := session } acts = some s) :
    s.replies.map Reply.cseq = (s.requests parse).map (fun request => request.cseq.getD 0) ∧
      (∀ reply ∈ s.replies, ∀ cseq, reply ≠ .internalServerError cseq) ∧
      (∀ request ∈ (s.requests parse).dropLast, request.method ≠ .teardown) ∧
      (s.session.state = .teardown ↔ ∃ request ∈ s.requests parse, request.method = .teardown) ∧
      (s.session.state = .teardown → s.task = .ended ∧ s.cancelled = true) ∧ s.task ≠ .panicked := by
  have hstart : Answered parse ({ reader := reader, session := session } : RecordPhase R) := by
    refine ⟨fun _ => hsession, by simp, rfl, by simp, by simp [requests], by simp [requests], fun hstate => ?_⟩
    rw [hsession] at hstate
    cases hstate
  have h : Answered parse s := run_invariant (I := Answered parse) (C := fun _ _ => True)
    (fun _ _ _ hs _ hstep => hs.step hstep) hstart (eachStep_trivial _ _) hrun
  refine ⟨h.cseqs, h.statuses, h.before, ⟨fun hstate => (h.tornDown hstate).2.2, ?_⟩,
    fun hstate => ⟨(h.tornDown hstate).1, (h.tornDown hstate).2.1⟩, h.alive⟩
  rintro ⟨request, hrequest, hmethod⟩
  by_contra hstate
  exact h.recording hstate request hrequest hmethod

theorem inband_requests_answered_teardown :
    ∃ s ∈ run (RecordPhase.step · noBase64 parseTeardown)
        { reader := RtpInterleavedReader.new frameThenTeardown, session := { state := .recording } }
        [.readItem, .forward, .readItem],
      s.session.state = .teardown ∧ s.replies.map Reply.cseq = [4] ∧ s.task = .ended ∧ s.cancelled = true := by
  have hrun : ∃ s ∈ run (RecordPhase.step · noBase64 parseTeardown)
        { reader := RtpInterleavedReader.new frameThenTeardown, session := { state := .recording } }
        [.readItem, .forward, .readItem],
      s.session.state = .teardown ∧ (s.requests parseTeardown).map (fun request => request.cseq.getD 0) = [4] := by
    decide +kernel
  obtain ⟨s, hs, hstate, hrequests⟩ := hrun
  obtain ⟨hcseqs, -, -, -, htorn, -⟩ := inband_requests_answered noBase64 parseTeardown _ _ _ s rfl hs
  exact ⟨s, hs, hstate, hcseqs.trans hrequests, htorn hstate⟩

/-! ## The whole connection -/

/-- `handle_connection` up to its record phase, and `.ok none` for a connection that does not reach RECORD. `pending` is
the answer of `connect()` for each lifecycle in `pending_lifecycle`. The buffer of the handshake's reader is dropped with
it. -/
def ofConnection (base64 : Base64) (parse : Bytes → Except Unit (Option RtspRequest))
    (pending : String → Option (Except String Unit)) (fuel : ℕ) (writes : List Bool) (socket : Socket UInt8) :
    Except String (Option (RecordPhase (Socket UInt8))) :=
  let (messages, outcome) := runRtspHandshake (handleMessage base64 parse) fuel ({}, writes) (newBufReader socket)
  let session := RtspSession.handleRequests base64 {} (requestsOf parse messages)
  match outcome with
  | none => .ok none
  | some reader =>
    match session.liveId with
    | none => .error "RTSP ANNOUNCE did not provide a recognizable stream path"
    | some liveId =>
      match session.parsedSdp with
      | none => .error "SDP missing"
      | some _ =>
        match pending liveId with
        | none => .error ("No precreated session found for live_id: " ++ liveId)
        | some (.error e) => .error e
        | some (.ok ()) => .ok (some { reader := RtpInterleavedReader.new reader.inner, session := session })

theorem ofConnection_eq {base64 : Base64} {parse : Bytes → Except Unit (Option RtspRequest)}
    {pending : String → Option (Except String Unit)} {fuel : ℕ} {writes : List Bool} {socket : Socket UInt8}
    {messages : List Bytes} {reader : BufReader (Socket UInt8) UInt8} {liveId : String}
    (hrun : runRtspHandshake (handleMessage base64 parse) fuel ({}, writes) (newBufReader socket) =
      (messages, some reader))
    (hlive : (RtspSession.handleRequests base64 {} (requestsOf parse messages)).liveId = some liveId)
    (hpending : pending liveId = some (.ok ())) :
    ofConnection base64 parse pending fuel writes socket =
      .ok (some { reader := RtpInterleavedReader.new reader.inner
                  session := RtspSession.handleRequests base64 {} (requestsOf parse messages) }) := by
  obtain ⟨sdp, hsdp⟩ := RtspSession.exists_parsedSdp_of_recording (runRtspHandshake_state hrun)
  simp only [ofConnection, hrun, hlive, hsdp, hpending]

/-- A publisher whose requests up to RECORD are accepted and each end where a read ends, whose stream is pending and
connects, and who then sends well-formed frames and requests, cut into reads of at most 4096 bytes in any way: the items
read are the first of those sent, the depacketizer takes their packets in order, and while the source and the
depacketizer run the tasks can go on until it has taken all that were read. -/
theorem connection_delivers (base64 : Base64) (parse : Bytes → Except Unit (Option RtspRequest))
    (pending : String → Option (Except String Unit)) (requests : List Bytes) (items : List RtpReadItem)
    (socket : Socket UInt8) (fuel : ℕ) (writes : List Bool) (liveId : String)
    (hchunks : ∀ c ∈ socket.chunks, c.length ≤ 4096)
    (hstream : socket.chunks.flatten = requests.flatten ++ items.flatMap RtpReadItem.serialize)
    (hrequests : ∀ request ∈ requests, CompleteMessage request)
    (haccepted : Accepted (handleMessage base64 parse) ({}, writes) requests)
    (hreads : ∀ k ≤ requests.length, EndsAtRead socket.chunks (requests.take k).flatten)
    (hlive : (RtspSession.handleRequests base64 {} (requestsOf parse requests)).liveId = some liveId)
    (hpending : pending liveId = some (.ok ()))
    (hitems : ∀ item ∈ items, item.wellFormed) (hfuel : requests.length ≤ fuel) :
    ∃ phase, ofConnection base64 parse pending fuel writes socket = .ok (some phase) ∧
      phase.session = RtspSession.handleRequests base64 {} (requestsOf parse requests) ∧
      phase.session.state = .recording ∧
      ∀ acts s, run (RecordPhase.step · base64 parse) phase acts = some s →
        s.items <+: items ∧ s.depacketized ++ s.rtp.queue <+: items.filterMap RtpReadItem.packet ∧
        (s.source.isEnded = false → s.rtp.receiverAlive = true →
          ∃ later t, run (RecordPhase.step · base64 parse) s later = some t ∧ t.items = s.items ∧
            t.depacketized = s.items.filterMap RtpReadItem.packet) := by
  obtain ⟨j, reader, hrun, hreader, hj⟩ := runRtspHandshake_complete fuel _ requests socket.chunks
    (newBufReader socket) ⟨rfl, rfl, rfl, hchunks⟩ hrequests haccepted hreads hfuel
  have hstate := runRtspHandshake_state hrun
  have hcontents : contents (RtpInterleavedReader.new reader.inner) = items.flatMap RtpReadItem.serialize := by
    rw [hreader.contents_new]
    rw [← List.take_append_drop j socket.chunks, List.flatten_append, hj] at hstream
    exact List.append_cancel_left hstream
  refine ⟨_, ofConnection_eq hrun hlive hpending, rfl, hstate, fun acts s hacts => ?_⟩
  obtain ⟨hrecording, hroom⟩ := recording_of_run hstate hacts
  have hread : s.items <+: items := by
    -- one call of `next_item` more than there are items reads them all
    have hall := hrecording.read (items.length + 1)
    rw [readItems_eq, hcontents, readItems_complete items hitems _ (by omega)] at hall
    exact ⟨_, (Prod.mk.inj hall).1.symm⟩
  exact ⟨hread, hrecording.reached.trans (hread.filterMap _),
    fun hsource hrtp => exists_run_drains hrecording hroom hsource hrtp⟩

/-- `ANNOUNCE`, `SETUP` and `RECORD`, told apart by their first byte. -/
def parseByLetter (data : Bytes) : Except Unit (Option RtspRequest) :=
  .ok (match data.head? with
    | some 0x41 => RtspSession.publisherRequests[1]?
    | some 0x53 => RtspSession.publisherRequests[2]?
    | some 0x52 => RtspSession.publisherRequests[3]?
    | _ => none)

def publisherMessages : List Bytes :=
  ["ANNOUNCE * RTSP/1.0\r\n\r\n".toUTF8.toList, "SETUP * RTSP/1.0\r\n\r\n".toUTF8.toList,
    "RECORD * RTSP/1.0\r\n\r\n".toUTF8.toList]

def publishedItems : List RtpReadItem := [.interleaved 0 [0x80, 96, 0, 1, 0, 0, 0, 0, 0, 0, 0, 7]]

/-- Each message in a read of its own, and the frame in two. -/
def publisherSocket : Socket UInt8 where
  chunks := publisherMessages ++ [(publishedItems.flatMap RtpReadItem.serialize).take 5,
    (publishedItems.flatMap RtpReadItem.serialize).drop 5]
  ne_nil := by decide +kernel

/-- Only `cam` is pending. -/
def camPending (liveId : String) : Option (Except String Unit) := if liveId = "cam" then some (.ok ()) else none

theorem connection_delivers_frame :
    ∃ phase, ofConnection noBase64 parseByLetter camPending 3 [] publisherSocket = .ok (some phase) ∧
      phase.session.liveId = some "cam" ∧
      ∀ acts s, run (RecordPhase.step · noBase64 parseByLetter) phase acts = some s → s.items <+: publishedItems := by
  have hmessages : ∀ message ∈ publisherMessages, CompleteMessage message := by
    simp only [publisherMessages, List.forall_mem_cons]
    exact ⟨⟨⟨19, 0, by decide +kernel, by decide +kernel, by decide +kernel⟩, by decide +kernel⟩,
      ⟨⟨16, 0, by decide +kernel, by decide +kernel, by decide +kernel⟩, by decide +kernel⟩,
      ⟨⟨17, 0, by decide +kernel, by decide +kernel, by decide +kernel⟩, by decide +kernel⟩, by simp⟩
  have haccepted : Accepted (handleMessage noBase64 parseByLetter) ({}, []) publisherMessages := by
    simp only [publisherMessages, Accepted]
    decide +kernel
  have hreads : ∀ k ≤ publisherMessages.length,
      (publisherSocket.chunks.take k).flatten = (publisherMessages.take k).flatten := by
    decide +kernel
  have hlive : (RtspSession.handleRequests noBase64 {} (requestsOf parseByLetter publisherMessages)).liveId =
      some "cam" := by
    decide +kernel
  obtain ⟨phase, hphase, hsession, -, hruns⟩ := connection_delivers noBase64 parseByLetter camPending publisherMessages
    publishedItems publisherSocket 3 [] "cam" (by decide +kernel) (by decide +kernel) hmessages haccepted
    (fun k hk => ⟨k, hreads k hk⟩) hlive rfl (by simp [publishedItems, RtpReadItem.wellFormed]) (by decide)
  exact ⟨phase, hphase, hsession ▸ hlive, fun acts s hacts => (hruns acts s hacts).1⟩

end RecordPhase
end LivestreamRs.Rtsp
