import LivestreamRs.Flv.Hub
import LivestreamRs.Pipeline.AnySchedule

/-! # From an RTMP publisher to the hub

`PublishHandler` (`livestream-transport/src/rtmp/handler/publish.rs`), `RtmpSource` (`source/rtmp.rs`) and the FLV path
behind it, as `spawn_connection_handler` (`rtmp/server.rs`) joins them. The handler waits while the frame channel is
full, and the source tries again while the source pad is full, so neither of them loses a frame. What a later pad does
when it is full, or a cancelled task leaves behind, is lost in the ways of `Pipeline.AnySchedule`.
-/
namespace LivestreamRs.Rtmp
open Media Foundations Pipeline
set_option autoImplicit false

/-! ## The handler and the source -/

/-- The events of a session that `PublishHandler::on_custom_events` tells apart. -/
inductive PublishEvent
  | audioDataReceived (data : Bytes) (timestamp : UInt32)
  | videoDataReceived (data : Bytes) (timestamp : UInt32)
  | publishStreamFinished
  -- `StreamMetadataChanged`, what `on_common_events` absorbs, and what is only logged
  | other
  deriving DecidableEq

def PublishEvent.frame : PublishEvent → Option RtmpRawFrame
  | .audioDataReceived data timestamp =>
    some { data := data, timestamp := timestamp, isVideo := false, isAudio := true, isScriptData := false }
  | .videoDataReceived data timestamp =>
    some { data := data, timestamp := timestamp, isVideo := true, isAudio := false, isScriptData := false }
  | .publishStreamFinished | .other => none

inductive PublishTask
  -- between two events
  | reading
  -- in `source_tx.send(frame).await`
  | sending (frame : RtmpRawFrame)
  -- `handle` has returned, and the handler is dropped
  | ended (error : String)

/-- `RtmpSource::start` -/
inductive SourceTask
  | looping
  -- in `send_pkt_or_stop`
  | sending (pkt : EncodedPacket)
  | ended

structure RtmpIngest where
  streamKey : String
  -- what the session still has for the handler
  events : List PublishEvent
  -- `HandlerLifecycle::connected`
  connected : Bool := false
  handler : PublishTask := .reading
  -- `mpsc::channel(256)` between the handler and the source
  frames : Pad RtmpRawFrame := { capacity := 256 }
  source : SourceTask := .looping
  -- `sourceOpen` stands for the source's end of the source pad, `cancelled` for the token of the pipeline
  chain : Chain

def RtmpIngest.initial (streamKey : String) (events : List PublishEvent) : RtmpIngest where
  streamKey := streamKey
  events := events
  chain := Chain.initial 512 []

inductive IngestAction
  -- the handler takes the next event; `update` is what the registry says should `connect` ask it
  | event (update : Except String Unit)
  -- `source_tx.send(frame).await` returns
  | enqueue
  -- `read_result` fails: the client is gone, or the stream's token is cancelled
  | readFailed (error : String)
  -- after the handler: its lifecycle is dropped and the stream's token cancelled
  | teardown
  -- another party cancels the stream's token, of which the pipeline's is a child
  | cancelStream
  | source (wake : Wake)
  -- a task of the chain, or the HLS branch
  | chain (a : ChainAction)

namespace RtmpIngest
variable (i : RtmpIngest)

def cancel : RtmpIngest := { i with chain := { i.chain with cancelled := true } }

/-- `handle` returns an error, and the handler's `source_tx` is dropped. -/
def fail (error : String) : RtmpIngest := { i with handler := .ended error, frames := i.frames.dropSender }

/-- `HandlerLifecycle::connect`: only the first call asks the registry. -/
def connect (update : Except String Unit) : RtmpIngest × Except String Unit :=
  if i.connected then (i, .ok ()) else ({ i with connected := true }, update)

def sendToSource (frame : RtmpRawFrame) (update : Except String Unit) : RtmpIngest :=
  let (i, result) := i.connect update
  match result with
  | .error e => i.fail s!"Cannot send to source: lifecycle connect failed: {e}"
  | .ok () => { i with handler := .sending frame }

def onCustomEvents (event : PublishEvent) (update : Except String Unit) : RtmpIngest :=
  match event.frame with
  | some frame => i.sendToSource frame update
  | none =>
    match event with
    -- `lifecycle.disconnect()` and `cancel_token.cancel()`; the events read with this one are handled still
    | .publishStreamFinished => i.cancel
    | _ => i

/-- The source returns: it cancels the pipeline, and its channel ends are dropped. -/
def stopSource : RtmpIngest :=
  { i with
    source := .ended
    frames := i.frames.dropReceiver
    chain := { i.chain with
      cancelled := true
      sourceOpen := false
      state := { i.chain.state with src := i.chain.state.src.dropSender } } }

def stepSource (wake : Wake) : Option RtmpIngest :=
  match i.source with
  | .looping =>
    match wake with
    | .cancelled => if i.chain.cancelled then some i.stopSource else none
    | .input =>
      match i.frames.recvResult with
      | .item frame =>
        let i := { i with frames := i.frames.recv }
        match convertFrame frame with
        | some pkt => some { i with source := .sending pkt }
        | none => some i
      | .closed => some i.stopSource
      | .waiting => none
  | .sending pkt =>
    match i.chain.state.src.sendResult with
    | .ok =>
      some { i with
        source := .looping
        chain := { i.chain with state := { i.chain.state with src := i.chain.state.src.send pkt } } }
    | .closed => some { i.cancel with source := .looping }
    -- after a millisecond it tries again
    | .full => some i
  | .ended => none

def step : IngestAction → Option RtmpIngest
  | .event update =>
    match i.handler, i.events with
    | .reading, event :: events => some ({ i with events := events }.onCustomEvents event update)
    | _, _ => none
  | .enqueue =>
    match i.handler with
    | .sending frame =>
      match i.frames.sendResult with
      | .ok => some { i with handler := .reading, frames := i.frames.send frame }
      | .closed => some (i.fail s!"RtmpSource receiver closed for stream {i.streamKey}")
      | .full => none
    | _ => none
  | .readFailed error =>
    match i.handler with
    | .reading => some (i.fail error)
    | _ => none
  | .teardown =>
    match i.handler with
    | .ended _ => some i.cancel
    | _ => none
  | .cancelStream => some i.cancel
  | .source wake => i.stepSource wake
  | .chain a =>
    match a with
    | .send | .closeSource | .cancel => none
    | a => (i.chain.step a).map fun chain => { i with chain := chain }

/-- All that a step can do. -/
inductive Stepped (i : RtmpIngest) : IngestAction → RtmpIngest → Prop
  | ignored (update : Except String Unit) (event : PublishEvent) (events : List PublishEvent)
      (hhandler : i.handler = .reading) (hevents : i.events = event :: events) (hframe : event.frame = none) :
      Stepped i (.event update) { i with events := events }
  | finished (update : Except String Unit) (events : List PublishEvent)
      (hhandler : i.handler = .reading) (hevents : i.events = .publishStreamFinished :: events) :
      Stepped i (.event update) { i with events := events }.cancel
  | accepted (update : Except String Unit) (event : PublishEvent) (events : List PublishEvent) (frame : RtmpRawFrame)
      (connected : Bool) (hhandler : i.handler = .reading) (hevents : i.events = event :: events)
      (hframe : event.frame = some frame) :
      Stepped i (.event update) { i with events := events, connected := connected, handler := .sending frame }
  | refused (update : Except String Unit) (event : PublishEvent) (events : List PublishEvent) (error : String)
      (hhandler : i.handler = .reading) (hevents : i.events = event :: events) :
      Stepped i (.event update) ({ i with events := events, connected := true }.fail error)
  | enqueued (frame : RtmpRawFrame) (hhandler : i.handler = .sending frame) (hroom : i.frames.sendResult = .ok) :
      Stepped i .enqueue { i with handler := .reading, frames := i.frames.send frame }
  | enqueueFailed (frame : RtmpRawFrame) (error : String) (hhandler : i.handler = .sending frame) :
      Stepped i .enqueue (i.fail error)
  | readFailed (error : String) (hhandler : i.handler = .reading) : Stepped i (.readFailed error) (i.fail error)
  | cancelled (a : IngestAction) (hchain : ∀ a', a ≠ .chain a') : Stepped i a i.cancel
  | sourceStopped (wake : Wake) : Stepped i (.source wake) i.stopSource
  | converted (wake : Wake) (frame : RtmpRawFrame) (pkt : EncodedPacket) (hsource : i.source = .looping)
      (hframe : i.frames.recvResult = .item frame) (hpkt : convertFrame frame = some pkt) :
      Stepped i (.source wake) { i with frames := i.frames.recv, source := .sending pkt }
  | skipped (wake : Wake) (frame : RtmpRawFrame) (hsource : i.source = .looping)
      (hframe : i.frames.recvResult = .item frame) (hpkt : convertFrame frame = none) :
      Stepped i (.source wake) { i with frames := i.frames.recv }
  | sent (wake : Wake) (pkt : EncodedPacket) (hsource : i.source = .sending pkt)
      (hroom : i.chain.state.src.sendResult = .ok) :
      Stepped i (.source wake) { i with
        source := .looping
        chain := { i.chain with state := { i.chain.state with src := i.chain.state.src.send pkt } } }
  | padClosed (wake : Wake) (pkt : EncodedPacket) (hsource : i.source = .sending pkt)
      (hclosed : i.chain.state.src.sendResult = .closed) :
      Stepped i (.source wake) { i.cancel with source := .looping }
  | padFull (wake : Wake) : Stepped i (.source wake) i
  | chain (a : ChainAction) (c : Chain) (hsend : a ≠ .send) (hclose : a ≠ .closeSource)
      (hstep : i.chain.step a = some c) : Stepped i (.chain a) { i with chain := c }

theorem stepped_of_event {i : RtmpIngest} {event : PublishEvent} {events : List PublishEvent}
    {update : Except String Unit} (hhandler : i.handler = .reading) (hevents : i.events = event :: events) :
    Stepped i (.event update) ({ i with events := events }.onCustomEvents event update) := by
  cases hframe : event.frame with
  | none =>
    simp only [onCustomEvents, hframe]
    split
    · exact .finished update events hhandler hevents
    · exact .ignored update event events hhandler hevents hframe
  | some frame =>
    cases i.connected with
    | true =>
      simp only [onCustomEvents, hframe, sendToSource, connect, if_true]
      exact .accepted update event events frame true hhandler hevents hframe
    | false =>
      simp only [onCustomEvents, hframe, sendToSource, connect, Bool.false_eq_true, if_false]
      cases update with
      | error e => exact .refused _ event events _ hhandler hevents
      | ok => exact .accepted _ event events frame true hhandler hevents hframe

theorem stepped_of_source {i i' : RtmpIngest} {wake : Wake} (h : i.stepSource wake = some i') :
    Stepped i (.source wake) i' := by
  cases hsource : i.source with
  | looping =>
    simp only [stepSource, hsource] at h
    cases wake with
    | cancelled =>
      simp only [] at h
      split at h
      · obtain rfl := Option.some.inj h
        exact .sourceStopped _
      · cases h
    | input =>
      simp only [] at h
      split at h
      · next frame hframe =>
        split at h
        · next pkt hpkt =>
          obtain rfl := Option.some.inj h
          exact .converted _ frame pkt hsource hframe hpkt
        · next hpkt =>
          obtain rfl := Option.some.inj h
          have hskipped := Stepped.skipped (i := i) .input frame hsource hframe hpkt
          rw [hsource] at hskipped
          exact hskipped
      · obtain rfl := Option.some.inj h
        exact .sourceStopped _
      · cases h
  | sending pkt =>
    simp only [stepSource, hsource] at h
    split at h
    · next hroom =>
      obtain rfl := Option.some.inj h
      exact .sent wake pkt hsource hroom
    · next hclosed =>
      obtain rfl := Option.some.inj h
      exact .padClosed wake pkt hsource hclosed
    · obtain rfl := Option.some.inj h
      exact .padFull wake
  | ended =>
    simp only [stepSource, hsource] at h
    cases h

theorem stepped_of_step {i i' : RtmpIngest} {a : IngestAction} (h : i.step a = some i') : Stepped i a i' := by
  cases a with
  | event update =>
    simp only [step] at h
    split at h
    · next event events hhandler hevents =>
      obtain rfl := Option.some.inj h
      exact stepped_of_event hhandler hevents
    · cases h
  | enqueue =>
    simp only [step] at h
    split at h
    · next frame hhandler =>
      split at h
      · next hroom =>
        obtain rfl := Option.some.inj h
        exact .enqueued frame hhandler hroom
      · obtain rfl := Option.some.inj h
        exact .enqueueFailed frame _ hhandler
      · cases h
    · cases h
  | readFailed error =>
    simp only [step] at h
    split at h
    · next hhandler =>
      obtain rfl := Option.some.inj h
      exact .readFailed error hhandler
    · cases h
  | teardown =>
    simp only [step] at h
    split at h
    · obtain rfl := Option.some.inj h
      exact .cancelled _ nofun
    · cases h
  | cancelStream =>
    obtain rfl := Option.some.inj h
    exact .cancelled _ nofun
  | source wake => exact stepped_of_source h
  | chain a =>
    simp only [step] at h
    split at h
    · cases h
    · cases h
    · cases h
    · next hsend hclose hcancel =>
      obtain ⟨c, hc, rfl⟩ := Option.map_eq_some_iff.mp h
      exact .chain a c hsend hclose hc

end RtmpIngest

/-! ## What the source has still to send -/

def PublishTask.isEnded : PublishTask → Bool
  | .ended _ => true
  | _ => false

def PublishTask.inFlight : PublishTask → List RtmpRawFrame
  | .sending frame => [frame]
  | _ => []

def SourceTask.isEnded : SourceTask → Bool
  | .ended => true
  | _ => false

def SourceTask.inFlight : SourceTask → List EncodedPacket
  | .sending pkt => [pkt]
  | _ => []

namespace RtmpIngest

/-- The frames that will come to the source. -/
def supply (i : RtmpIngest) : List RtmpRawFrame :=
  i.frames.queue ++ i.handler.inFlight ++ passing i.handler.isEnded (i.events.filterMap PublishEvent.frame)

/-- The packets the source has still to send. -/
def pending (i : RtmpIngest) : List EncodedPacket :=
  i.source.inFlight ++ passing i.source.isEnded (i.supply.filterMap convertFrame)

/-- The chain with a source that has those packets. -/
def toChain (i : RtmpIngest) : Chain := { i.chain with source := i.pending }

/-- The source holds its ends of the frame channel and of the source pad until it returns. -/
structure Joined (i : RtmpIngest) : Prop where
  frames : i.frames.receiverAlive = !i.source.isEnded
  pad : i.chain.sourceOpen = !i.source.isEnded

/-- The step makes no send to a full pad behind the source pad. -/
def Unfilled (i : RtmpIngest) : IngestAction → Prop
  | .chain a => Pipeline.Unfilled i.chain a
  | _ => True

instance (i : RtmpIngest) : (a : IngestAction) → Decidable (i.Unfilled a)
  | .chain a => inferInstanceAs (Decidable (Pipeline.Unfilled i.chain a))
  | .event _ | .enqueue | .readFailed _ | .teardown | .cancelStream | .source _ => isTrue trivial

/-- Steps of the chain whose source has a first part of the pending packets; all of them, unless the handler has ended
or the pipeline is cancelled. -/
structure Feeds (i i' : RtmpIngest) (unfilled : Prop) (pre : List EncodedPacket) (acts : List ChainAction) : Prop where
  shorter : pre <+: i.pending
  whole : i'.handler.isEnded = false → i'.chain.Live → pre = i.pending
  run : run Chain.step { i.chain with source := pre } acts = some i'.toChain
  room : unfilled → EachStep Chain.step Pipeline.Unfilled { i.chain with source := pre } acts

section Feeding
variable {i i' : RtmpIngest} {unfilled : Prop}

/-- A step of the handler or of the source that leaves the chain as it is. -/
theorem feeds_of_chain_eq (hchain : i'.chain = i.chain) (hpending : i'.pending <+: i.pending)
    (hwhole : i'.handler.isEnded = false → i'.pending = i.pending) : Feeds i i' unfilled i'.pending [] :=
  ⟨hpending, fun hhandler _ => hwhole hhandler, by rw [toChain, hchain]; rfl, fun _ => trivial⟩

theorem feeds_of_supply (hsource : i'.source = i.source) (hchain : i'.chain = i.chain) (hsupply : i'.supply <+: i.supply)
    (hwhole : i'.handler.isEnded = false → i'.supply = i.supply) : Feeds i i' unfilled i'.pending [] := by
  refine feeds_of_chain_eq hchain ?_ fun hhandler => by rw [pending, pending, hsource, hwhole hhandler]
  rw [pending, pending, hsource]
  exact List.prefix_append_right_inj _ |>.mpr (passing_mono _ (hsupply.filterMap convertFrame))

theorem feeds_of_cancel (hchain : i'.chain = { i.chain with cancelled := true }) (hpending : i'.pending = i.pending) :
    Feeds i i' unfilled i.pending [.cancel] := by
  refine ⟨List.prefix_refl _, fun _ _ => rfl, ?_, fun _ _ _ => ⟨trivial, trivial⟩⟩
  rw [toChain, hchain, hpending]
  rfl

theorem supply_of_reading {event : PublishEvent} {events : List PublishEvent} (hhandler : i.handler = .reading)
    (hevents : i.events = event :: events) :
    i.supply = i.frames.queue ++ (event.frame.toList ++ events.filterMap PublishEvent.frame) := by
  cases hframe : event.frame <;>
    simp [supply, hhandler, hevents, PublishTask.inFlight, PublishTask.isEnded, hframe]

/-- The handler fails: what is in the frame channel is all that comes. -/
theorem feeds_of_fail {error : String} (hsource : i'.source = i.source) (hchain : i'.chain = i.chain)
    (hframes : i'.frames = i.frames.dropSender) (hhandler : i'.handler = .ended error) :
    Feeds i i' unfilled i'.pending [] := by
  refine feeds_of_supply hsource hchain ?_ fun hended => by rw [hhandler] at hended; cases hended
  simp only [supply, hhandler, hframes, Pad.dropSender, PublishTask.inFlight, PublishTask.isEnded, passing_ended,
    List.append_nil, List.append_assoc]
  exact List.prefix_append _ _

/-- The chain does not look at what its source has left, but for a send and for the end of it. -/
theorem step_source {c c' : Chain} {a : ChainAction} (hsend : a ≠ .send) (hclose : a ≠ .closeSource)
    (h : c.step a = some c') (source : List EncodedPacket) :
    { c with source := source }.step a = some { c' with source := source } ∧ c'.sourceOpen = c.sourceOpen := by
  cases Chain.stepped_of_step h with
  | send => exact absurd rfl hsend
  | closeSource => exact absurd rfl hclose
  | cancel | hlsRecv | hlsDrop => exact ⟨rfl, rfl⟩
  | otel wake task s htask | seqCache wake task s htask | flvMux wake task s htask =>
    refine ⟨?_, rfl⟩
    simp only [Chain.step, htask]
    rfl
  | flvSink wake task s htask =>
    obtain ⟨⟨task', s'⟩, htask', heq⟩ := Option.map_eq_some_iff.mp h
    refine ⟨?_, rfl⟩
    simp only [Chain.step, htask', Option.map_some]
    simp only [Chain.mk.injEq] at heq
    rw [heq.1, heq.2.2.2.2.2.2.2]

theorem feeds_of_received {frame : RtmpRawFrame} (hsource : i.source = .looping)
    (hframe : i.frames.recvResult = .item frame) (hchain : i'.chain = i.chain)
    (hpending : i'.pending = (convertFrame frame).toList ++
      (i.frames.recv.queue ++ i.handler.inFlight ++
        passing i.handler.isEnded (i.events.filterMap PublishEvent.frame)).filterMap convertFrame) :
    Feeds i i' unfilled i'.pending [] := by
  have hsame : i'.pending = i.pending := by
    rw [hpending]
    cases hpkt : convertFrame frame <;>
      simp [pending, supply, hsource, SourceTask.inFlight, SourceTask.isEnded, recv_queue hframe, hpkt]
  exact feeds_of_chain_eq hchain (hsame ▸ List.prefix_refl _) fun _ => hsame

/-- Every step of the publisher's tasks is one of the chain, on a source that may have become shorter. -/
theorem Joined.step {a : IngestAction} (h : Joined i) (hstep : i.step a = some i') :
    Joined i' ∧ ∃ pre acts, Feeds i i' (i.Unfilled a) pre acts := by
  cases stepped_of_step hstep with
  | ignored update event events hhandler hevents hframe =>
    have hsupply : supply { i with events := events } = i.supply := by
      rw [supply_of_reading hhandler hevents, hframe]
      simp [supply, hhandler, PublishTask.inFlight, PublishTask.isEnded]
    exact ⟨⟨h.frames, h.pad⟩, _, _, feeds_of_supply rfl rfl (hsupply ▸ List.prefix_refl _) fun _ => hsupply⟩
  | finished update events hhandler hevents =>
    have hsupply : supply ({ i with events := events }.cancel) = i.supply := by
      rw [supply_of_reading hhandler hevents]
      simp [supply, cancel, hhandler, PublishTask.inFlight, PublishTask.isEnded, PublishEvent.frame]
    exact ⟨⟨h.frames, h.pad⟩, _, _, feeds_of_cancel rfl (by rw [pending, pending, hsupply]; rfl)⟩
  | accepted update event events frame connected hhandler hevents hframe =>
    have hsupply : supply { i with events := events, connected := connected, handler := .sending frame } = i.supply := by
      rw [supply_of_reading hhandler hevents, hframe]
      simp [supply, PublishTask.inFlight, PublishTask.isEnded]
    exact ⟨⟨h.frames, h.pad⟩, _, _, feeds_of_supply rfl rfl (hsupply ▸ List.prefix_refl _) fun _ => hsupply⟩
  | refused | enqueueFailed | readFailed =>
    exact ⟨⟨h.frames, h.pad⟩, _, _, feeds_of_fail rfl rfl rfl rfl⟩
  | enqueued frame hhandler hroom =>
    have hsupply : supply { i with handler := .reading, frames := i.frames.send frame } = i.supply := by
      simp [supply, hhandler, PublishTask.inFlight, PublishTask.isEnded, Pad.send, hroom]
    exact ⟨⟨(receiverAlive_send _ _).trans h.frames, h.pad⟩, _, _,
      feeds_of_supply rfl rfl (hsupply ▸ List.prefix_refl _) fun _ => hsupply⟩
  | cancelled => exact ⟨⟨h.frames, h.pad⟩, _, _, feeds_of_cancel rfl rfl⟩
  | sourceStopped =>
    refine ⟨⟨rfl, rfl⟩, [], [.cancel, .closeSource], List.nil_prefix, fun _ hopen => (by cases hopen.1), rfl, ?_⟩
    exact fun _ _ _ => ⟨trivial, fun _ _ => ⟨trivial, trivial⟩⟩
  | converted wake frame pkt hsource hframe hpkt =>
    refine ⟨⟨h.frames.trans (by rw [hsource]; rfl), h.pad.trans (by rw [hsource]; rfl)⟩, _, _,
      feeds_of_received hsource hframe rfl ?_⟩
    simp [pending, supply, SourceTask.inFlight, SourceTask.isEnded, hpkt]
  | skipped wake frame hsource hframe hpkt =>
    refine ⟨⟨h.frames, h.pad⟩, _, _, feeds_of_received hsource hframe rfl ?_⟩
    simp [pending, supply, hsource, SourceTask.inFlight, SourceTask.isEnded, hpkt]
  | sent wake pkt hsource hroom =>
    have hopen : i.chain.sourceOpen = true := by rw [h.pad, hsource]; rfl
    refine ⟨⟨h.frames.trans (by rw [hsource]; rfl), h.pad.trans (by rw [hsource]; rfl)⟩, i.pending, [.send], ?_⟩
    refine ⟨List.prefix_refl _, fun _ _ => rfl, ?_, ?_⟩
    · simp [run, Chain.step, toChain, pending, supply, hsource, SourceTask.inFlight, SourceTask.isEnded, hopen]
    · intro _ _ _
      exact ⟨by simp [Pipeline.Unfilled, hroom], trivial⟩
  | padClosed wake pkt hsource hclosed =>
    have hopen : i.chain.sourceOpen = true := by rw [h.pad, hsource]; rfl
    refine ⟨⟨h.frames.trans (by rw [hsource]; rfl), h.pad.trans (by rw [hsource]; rfl)⟩, i.pending, [.send, .cancel], ?_⟩
    refine ⟨List.prefix_refl _, fun _ _ => rfl, ?_, ?_⟩
    · simp [run, Chain.step, toChain, pending, supply, cancel, hsource, SourceTask.inFlight, SourceTask.isEnded, hopen,
        Pad.send, hclosed]
    · intro _ _ _
      exact ⟨by simp [Pipeline.Unfilled, hclosed], fun _ _ => ⟨trivial, trivial⟩⟩
  | padFull => exact ⟨h, _, _, feeds_of_chain_eq rfl (List.prefix_refl _) fun _ => rfl⟩
  | chain a c hsend hclose hc =>
    obtain ⟨hc', hopen⟩ := step_source hsend hclose hc i.pending
    refine ⟨⟨h.frames, hopen.trans h.pad⟩, i.pending, [a], List.prefix_refl _, fun _ _ => rfl, ?_, ?_⟩
    · exact run_cons.mpr ⟨_, hc', rfl⟩
    · intro hfull _ _
      refine ⟨?_, trivial⟩
      cases a <;> exact hfull

end Feeding
end RtmpIngest

/-! ## What is broadcast -/

section Whole
variable {total : List FlvTag} {c c' : Chain} {a : ChainAction}

theorem running_step (hfed : Fed c.state) (hlive : c'.Live) (h : c.running = true) (hstep : c.step a = some c') :
    c'.running = true := by
  obtain ⟨-, hcancelled⟩ := hlive
  simp only [Chain.running, Bool.and_eq_true, Bool.not_eq_true'] at h ⊢
  obtain ⟨⟨⟨hotel, hseqCache⟩, hflvMux⟩, hflvSink⟩ := h
  cases Chain.stepped_of_step hstep with
  | send | closeSource | cancel | hlsRecv | hlsDrop => exact ⟨⟨⟨hotel, hseqCache⟩, hflvMux⟩, hflvSink⟩
  | otel wake task s htask =>
    refine ⟨⟨⟨Bool.eq_false_iff.mpr fun hended => ?_, hseqCache⟩, hflvMux⟩, hflvSink⟩
    exact not_dropped hcancelled hfed.src (Processor.isEnded_of_step htask hended)
  | seqCache wake task s htask =>
    refine ⟨⟨⟨hotel, Bool.eq_false_iff.mpr fun hended => ?_⟩, hflvMux⟩, hflvSink⟩
    exact not_dropped hcancelled hfed.otel (Processor.isEnded_of_step htask hended)
  | flvMux wake task s htask =>
    refine ⟨⟨⟨hotel, hseqCache⟩, Bool.eq_false_iff.mpr fun hended => ?_⟩, hflvSink⟩
    exact not_dropped hcancelled hfed.seqFlv (Processor.isEnded_of_step htask hended)
  | flvSink wake task s htask =>
    refine ⟨⟨⟨hotel, hseqCache⟩, hflvMux⟩, ?_⟩
    generalize c.flvSinkTask = before at htask
    cases htask with
    | ended _ hdropped => exact absurd hdropped (not_dropped hcancelled hfed.flv)
    | received | consumed => rfl

/-- While the publisher is live no task ends, and nothing is lost. -/
structure Whole (total : List FlvTag) (c : Chain) : Prop where
  fed : Fed c.state
  running : c.running = true
  leaving : c.leaving = total

theorem live_of_step (hstep : c.step a = some c') (hlive : c'.Live) : c.Live := by
  obtain ⟨hopen, hcancelled⟩ := hlive
  cases Chain.stepped_of_step hstep with
  | closeSource => cases hopen
  | cancel => cases hcancelled
  | _ => exact ⟨hopen, hcancelled⟩

theorem Whole.step (h : c.Live → Whole total c) (hwired : Wired c) (ha : Pipeline.Unfilled c a)
    (hstep : c.step a = some c') (hlive : c'.Live) : Whole total c' := by
  have hwhole := h (live_of_step hstep hlive)
  have hrunning := running_step hwhole.fed hlive hwhole.running hstep
  refine ⟨fed_step (fun hc => (h hc).fed) hstep hlive, hrunning, ?_⟩
  rcases (hwired.step ha hstep).leaving with heq | ⟨hended, -⟩
  · exact heq.trans hwhole.leaving
  · rw [hrunning] at hended
    cases hended

end Whole

namespace RtmpIngest
variable {i i' : RtmpIngest} {a : IngestAction}

theorem Feeds.derived {unfilled : Prop} {packets pre : List EncodedPacket} {acts : List ChainAction}
    (h : Feeds i i' unfilled pre acts) (hi : Ordered i.toChain ∧ Derived packets i.toChain) :
    Ordered i'.toChain ∧ Derived packets i'.toChain := by
  have hstart : Ordered { i.chain with source := pre } ∧ Derived packets { i.chain with source := pre } :=
    ⟨{ hi.1 with }, hi.2.of_source pre h.shorter.sublist⟩
  exact run_invariant (I := fun c => Ordered c ∧ Derived packets c) (C := fun _ _ => True)
    (fun _ _ _ hc _ hstep => ⟨(hc.1.step hstep).1, hc.2.flows (hc.1.step hstep).2⟩) hstart (eachStep_trivial _ _) h.run

/-- What holds of a publisher while no pad of the FLV path behind the source pad is full. -/
structure Relaying (total : List FlvTag) (i : RtmpIngest) : Prop where
  wired : Wired i.toChain
  shorter : i.toChain.leaving <+: total
  whole : i.handler.isEnded = false → i.chain.Live → Whole total i.toChain

theorem handler_of_step (hstep : i.step a = some i') (h : i'.handler.isEnded = false) : i.handler.isEnded = false := by
  cases stepped_of_step hstep with
  | ignored _ _ _ hhandler | finished _ _ hhandler | accepted _ _ _ _ _ hhandler | refused _ _ _ _ hhandler
  | enqueued _ hhandler | enqueueFailed _ _ hhandler | readFailed _ hhandler =>
    rw [hhandler]
    rfl
  | _ => exact h

theorem Relaying.step {total : List FlvTag} (h : Relaying total i) (hjoined : Joined i) (ha : i.Unfilled a)
    (hstep : i.step a = some i') : Relaying total i' := by
  obtain ⟨-, pre, acts, hfeeds⟩ := hjoined.step hstep
  have hroom := hfeeds.room ha
  have hwired : Wired { i.chain with source := pre } := { h.wired with ordered := { h.wired.ordered with } }
  have hleaving := (i.chain.leaving_of_source hfeeds.shorter).trans h.shorter
  have hshorter : Wired i'.toChain ∧ i'.toChain.leaving <+: total :=
    run_invariant (I := fun c => Wired c ∧ c.leaving <+: total) (C := Pipeline.Unfilled)
      (fun c a c' hc ha hstep => ⟨(hc.1.step ha hstep).wired, (hc.1.step ha hstep).shorter.trans hc.2⟩)
      ⟨hwired, hleaving⟩ hroom hfeeds.run
  refine ⟨hshorter.1, hshorter.2, fun hhandler hlive => ?_⟩
  -- nothing is taken from a source whose handler goes on
  have hpre := hfeeds.whole hhandler hlive
  subst hpre
  have hwhole : Wired i'.toChain ∧ (i'.toChain.Live → Whole total i'.toChain) :=
    run_invariant (I := fun c => Wired c ∧ (c.Live → Whole total c)) (C := Pipeline.Unfilled)
      (fun c a c' hc ha hstep => ⟨(hc.1.step ha hstep).wired, Whole.step hc.2 hc.1 ha hstep⟩)
      ⟨hwired, fun hi => h.whole (handler_of_step hstep hhandler) hi⟩ hroom hfeeds.run
  exact hwhole.2 hlive

/-- The frames, packets and tags between the session and the hub. -/
def held (i : RtmpIngest) : ℕ :=
  i.handler.inFlight.length + i.frames.queue.length + i.source.inFlight.length + i.chain.state.src.queue.length +
    i.chain.otelTask.inFlight.length + i.chain.state.otel.queue.length + i.chain.seqCacheTask.inFlight.length +
    i.chain.state.seqFlv.queue.length + i.chain.flvMuxTask.inFlight.length + i.chain.state.flv.queue.length +
    i.chain.flvSinkTask.inFlight.length

theorem leaving_of_held {i : RtmpIngest} (hevents : i.events = []) (hheld : i.held = 0) :
    i.toChain.leaving = i.chain.state.broadcasts := by
  simp only [held, Nat.add_eq_zero_iff, List.length_eq_zero_iff] at hheld
  obtain ⟨⟨⟨⟨⟨⟨⟨⟨⟨⟨hhandler, hframes⟩, hsource⟩, hsrc⟩, hotelTask⟩, hotel⟩, hseqTask⟩, hseq⟩, hmuxTask⟩, hflv⟩, hsink⟩ := hheld
  have hnil : ∀ {α : Type} (ended : Bool), passing ended ([] : List α) = [] := fun ended => by cases ended <;> rfl
  simp [toChain, pending, supply, Chain.leaving, Chain.fromOtel, Chain.fromSeqCache, Chain.fromMux, hevents, hhandler,
    hframes, hsource, hsrc, hotelTask, hotel, hseqTask, hseq, hmuxTask, hflv, hsink, hnil, FlvMux.processAll]

section Runs
variable {streamKey : String} {events : List PublishEvent} {acts : List IngestAction}

theorem derived_of_run (hrun : run RtmpIngest.step (initial streamKey events) acts = some i) :
    Derived ((events.filterMap PublishEvent.frame).filterMap convertFrame) i.toChain := by
  have hjoined : Joined (initial streamKey events) := ⟨rfl, rfl⟩
  have hinv : Joined i ∧ Ordered i.toChain ∧ Derived (initial streamKey events).pending i.toChain := by
    refine run_invariant (C := fun _ _ => True)
      (I := fun i => Joined i ∧ Ordered i.toChain ∧ Derived (initial streamKey events).pending i.toChain)
      (fun i a i' h _ hstep => ?_) ⟨hjoined, ordered_initial 512 _, derived_initial 512 _⟩ (eachStep_trivial _ _) hrun
    obtain ⟨hjoined, pre, acts, hfeeds⟩ := h.1.step hstep
    exact ⟨hjoined, hfeeds.derived h.2⟩
  exact hinv.2.2

theorem relaying_of_run (hrun : run RtmpIngest.step (initial streamKey events) acts = some i)
    (hroom : EachStep RtmpIngest.step RtmpIngest.Unfilled (initial streamKey events) acts) :
    Relaying (relay {} (events.filterMap PublishEvent.frame)).2 i := by
  have hinv : Joined i ∧ Relaying (relay {} (events.filterMap PublishEvent.frame)).2 i := by
    refine run_invariant (C := RtmpIngest.Unfilled)
      (I := fun i => Joined i ∧ Relaying (relay {} (events.filterMap PublishEvent.frame)).2 i)
      (fun i a i' h ha hstep => ⟨(h.1.step hstep).1, h.2.step h.1 ha hstep⟩) ⟨⟨rfl, rfl⟩, ?_⟩ hroom hrun
    exact ⟨wired_initial 512 _, List.prefix_refl _, fun _ _ => ⟨⟨rfl, rfl, rfl, rfl, rfl⟩, rfl, rfl⟩⟩
  exact hinv.2

end Runs

/-- What a publisher's tasks do: under any schedule the tags broadcast are in the order of the published frames; while no
pad behind the source pad is full they are a first part of what the relay makes of all the frames, however full the frame
channel and the source pad are; and once every event is handled and nothing is on its way they are all of it, unless the
stream was cancelled or the handler failed. -/
theorem publish_broadcasts (streamKey : String) (events : List PublishEvent) (acts : List IngestAction) (i : RtmpIngest)
    (hrun : run RtmpIngest.step (RtmpIngest.initial streamKey events) acts = some i) :
    (∃ muxed : List EncodedPacket,
      muxed.Sublist ((events.filterMap PublishEvent.frame).filterMap convertFrame) ∧
        i.chain.state.broadcasts.Sublist (FlvMux.processAll {} muxed).2) ∧
    (EachStep RtmpIngest.step RtmpIngest.Unfilled (RtmpIngest.initial streamKey events) acts →
      i.chain.state.broadcasts <+: (relay {} (events.filterMap PublishEvent.frame)).2 ∧
        (i.handler.isEnded = false → i.chain.Live → i.events = [] → i.held = 0 →
          i.chain.state.broadcasts = (relay {} (events.filterMap PublishEvent.frame)).2)) := by
  constructor
  · obtain ⟨muxed, -, htags, hpkts⟩ := derived_of_run hrun
    exact ⟨muxed, (List.sublist_append_left _ _).trans hpkts, i.toChain.broadcasts_sublist_tags.trans htags⟩
  · intro hroom
    have hrelaying := relaying_of_run hrun hroom
    refine ⟨i.toChain.broadcasts_prefix_leaving.trans hrelaying.shorter, fun hhandler hlive hevents hheld => ?_⟩
    rw [← leaving_of_held hevents hheld]
    exact (hrelaying.whole hhandler hlive).leaving

/-- An AAC header, a metadata event and an AAC frame. -/
def publishedEvents : List PublishEvent :=
  [.audioDataReceived [0xAF, 0x00, 0x12, 0x10] 0, .other, .audioDataReceived [0xAF, 0x01, 0x21] 23]

def publishSchedule : List IngestAction :=
  [.event (.ok ()), .enqueue, .event (.ok ()), .source .input, .event (.ok ()), .source .input, .chain (.otel .input),
    .enqueue, .source .input, .chain (.otel .input), .source .input, .chain (.seqCache .input), .chain (.otel .input),
    .chain (.seqCache .input), .chain (.seqCache .input), .chain (.otel .input), .chain (.seqCache .input),
    .chain (.flvMux .input), .chain (.seqCache .input), .chain (.seqCache .input), .chain (.flvMux .input),
    .chain (.flvSink .input), .chain (.flvMux .input), .chain (.flvMux .input), .chain (.flvSink .input),
    .chain (.flvSink .input), .chain (.flvSink .input)]

theorem publish_broadcasts_aac :
    ∃ i ∈ run RtmpIngest.step (RtmpIngest.initial "cam" publishedEvents) publishSchedule,
      i.chain.state.broadcasts = (relay {} (publishedEvents.filterMap PublishEvent.frame)).2 := by
  have hrun : ∃ i ∈ run RtmpIngest.step (RtmpIngest.initial "cam" publishedEvents) publishSchedule,
      i.handler.isEnded = false ∧ (i.chain.sourceOpen = true ∧ i.chain.cancelled = false) ∧ i.events = [] ∧
        i.held = 0 := by
    decide
  obtain ⟨i, hi, hhandler, hlive, hevents, hheld⟩ := hrun
  exact ⟨i, hi, ((publish_broadcasts "cam" publishedEvents publishSchedule i hi).2 (by decide)).2 hhandler hlive hevents hheld⟩

end RtmpIngest

/-! ## How much is on its way -/

structure PadsFit (s : ChainState) : Prop where
  src : Fits 512 s.src
  otel : Fits 256 s.otel
  seqFlv : Fits 256 s.seqFlv
  flv : Fits 256 s.flv

/-- The items a task is delivering. -/
def load {β : Type} : ProcessorTask β → ℕ
  | .offering _ _ _ results => results.length + 1
  | _ => 0

section Load
variable {σ α β : Type} {P : Processor σ α β}

theorem inFlight_length_le (task : ProcessorTask β) : task.inFlight.length ≤ load task := by
  cases task with
  | looping | ended => simp [ProcessorTask.inFlight]
  | offering item pad pads results =>
    simp only [ProcessorTask.inFlight, load]
    split <;> simp

theorem load_deliver (outputs : List ℕ) (results : List β) : load (.deliver outputs results) ≤ results.length := by
  cases results <;> cases outputs <;> simp [ProcessorTask.deliver, load]

/-- A node that makes at most one item of a packet never has two to deliver. -/
theorem load_step (hprocess : ∀ pkt s, (P.process pkt s).2.length ≤ 1) {cancelled : Bool} {wake : Wake}
    {task task' : ProcessorTask β} {s s' : σ} (h : load task ≤ 1)
    (hstep : P.step cancelled wake task s = some (task', s')) : load task' ≤ 1 := by
  cases Processor.stepped_of_step hstep with
  | cancelled | unwanted | inputEnded => simp [load]
  | packet pkt => exact (load_deliver _ _).trans (hprocess pkt _)
  | offer item pad pads results =>
    have hresults : results = [] := by simpa [load] using h
    subst hresults
    unfold Processor.afterSend
    split
    · split
      · exact (load_deliver _ _).trans (by simp)
      · simp [load]
    · exact (load_deliver _ _).trans (by simp)

end Load

/-- A chain whose pads hold no more than they have room for, and whose tasks work on one packet each. -/
structure Bounded (c : Chain) : Prop where
  pads : PadsFit c.state
  otel : load c.otelTask ≤ 1
  seqCache : load c.seqCacheTask ≤ 1
  flvMux : load c.flvMuxTask ≤ 1

theorem Bounded.step {c c' : Chain} {a : ChainAction} (h : Bounded c) (hstep : c.step a = some c') : Bounded c' := by
  have hpads := h.pads
  cases Chain.stepped_of_step hstep with
  | send pkt => exact { h with pads := { hpads with src := hpads.src.send pkt } }
  | closeSource => exact { h with pads := { hpads with src := hpads.src.dropSender } }
  | cancel => exact { h with }
  | otel wake task s htask =>
    refine { h with pads := ?_, otel := load_step (fun _ _ => le_rfl) h.otel htask }
    exact Processor.step_keeps (I := PadsFit) (fun s h => { h with src := h.src.recv }) (fun pkt s h => h)
      (fun pad pkt s h => { h with otel := h.otel.send pkt })
      (fun _ => { hpads with src := hpads.src.dropReceiver, otel := hpads.otel.dropSender }) hpads htask
  | seqCache wake task s htask =>
    refine { h with pads := ?_, seqCache := load_step (fun _ _ => le_rfl) h.seqCache htask }
    refine Processor.step_keeps (I := PadsFit) (fun s h => { h with otel := h.otel.recv }) (fun pkt s h => { h with })
      (fun pad pkt s h => ?_)
      (fun _ => { hpads with otel := hpads.otel.dropReceiver, seqFlv := hpads.seqFlv.dropSender }) hpads htask
    simp only [seqCacheProbe]
    split
    · exact { h with seqFlv := h.seqFlv.send pkt }
    · exact { h with }
  | flvMux wake task s htask =>
    refine { h with pads := ?_, flvMux := load_step (fun pkt s => process_length_le s.mux pkt) h.flvMux htask }
    exact Processor.step_keeps (I := PadsFit) (fun s h => { h with seqFlv := h.seqFlv.recv }) (fun pkt s h => { h with })
      (fun pad tag s h => { h with flv := h.flv.send tag })
      (fun _ => { hpads with seqFlv := hpads.seqFlv.dropReceiver, flv := hpads.flv.dropSender }) hpads htask
  | flvSink wake task s htask =>
    refine { h with pads := ?_ }
    generalize c.flvSinkTask = before at htask
    cases htask with
    | ended => exact { hpads with flv := hpads.flv.dropReceiver }
    | received => exact { hpads with flv := hpads.flv.recv }
    | consumed => exact { hpads with }
  | hlsRecv | hlsDrop => exact { h with pads := { hpads with } }

namespace RtmpIngest

end RtmpIngest
end LivestreamRs.Rtmp
