import LivestreamRs.Foundations.Transitions
import LivestreamRs.Media.FlvRelay
import LivestreamRs.Pipeline.Tasks

/-! # The FLV path of a stream

`build_encoded_chain` (`livestream-pipeline/src/factory.rs`): OTelProbe, SeqCacheProbe, FlvMux and FlvSink, each
in a task of its own, joined by channel pads. SeqCacheProbe has a second output pad, to the HLS branch; whether
and when that branch receives or drops its end is left open.
-/
namespace LivestreamRs.Pipeline
open Media Foundations
set_option autoImplicit false

/-! ## Nodes -/

structure SeqCacheProbe where
  videoSeqHeader : Option EncodedPacket := none
  audioSeqHeader : Option EncodedPacket := none
  lastKeyframe : Option EncodedPacket := none
  scriptData : Option EncodedPacket := none

def isAudio (pkt : EncodedPacket) : Bool :=
  match pkt.codec with
  | .aac | .opus | .mp3 => true
  | _ => false

def SeqCacheProbe.process (probe : SeqCacheProbe) (pkt : EncodedPacket) : SeqCacheProbe × List EncodedPacket :=
  let probe :=
    if pkt.isVideo && pkt.isSequenceHeader then { probe with videoSeqHeader := some pkt }
    else if isAudio pkt && pkt.isSequenceHeader then { probe with audioSeqHeader := some pkt }
    else if pkt.isVideo && pkt.isKeyframe then { probe with lastKeyframe := some pkt }
    else if pkt.isScriptData then { probe with scriptData := some pkt }
    else probe
  (probe, [pkt])

/-- What the tasks share: the pads between them, the state of the nodes, and the tags passed to
`FlvBroadcast::broadcast`. -/
structure ChainState where
  src : Pad EncodedPacket
  otel : Pad EncodedPacket := { capacity := 256 }
  seqFlv : Pad EncodedPacket := { capacity := 256 }
  seqHls : Pad EncodedPacket := { capacity := 256 }
  flv : Pad FlvTag := { capacity := 256 }
  seqCache : SeqCacheProbe := {}
  mux : FlvMux := {}
  -- the signal of `flv_tx`; `FlvSink` holds a handle
  flvDemand : DemandSignal := ({} : DemandSignal).newHandle
  broadcasts : List FlvTag := []

def otelProbe : Processor ChainState EncodedPacket EncodedPacket where
  shouldProcess _ := true
  recvResult s := s.src.recvResult
  recv s := { s with src := s.src.recv }
  process pkt s := (s, [pkt])
  outputs := [0]
  send _ pkt s := ({ s with otel := s.otel.send pkt }, s.otel.sendResult)
  drop s := { s with src := s.src.dropReceiver, otel := s.otel.dropSender }

def seqCacheProbe : Processor ChainState EncodedPacket EncodedPacket where
  shouldProcess _ := true
  recvResult s := s.otel.recvResult
  recv s := { s with otel := s.otel.recv }
  process pkt s := ({ s with seqCache := (s.seqCache.process pkt).1 }, (s.seqCache.process pkt).2)
  outputs := [0, 1]
  send pad pkt s :=
    if pad = 0 then ({ s with seqFlv := s.seqFlv.send pkt }, s.seqFlv.sendResult)
    else ({ s with seqHls := s.seqHls.send pkt }, s.seqHls.sendResult)
  drop s := { s with otel := s.otel.dropReceiver, seqFlv := s.seqFlv.dropSender, seqHls := s.seqHls.dropSender }

def flvMux : Processor ChainState EncodedPacket FlvTag where
  shouldProcess s := s.flvDemand.isWanted
  recvResult s := s.seqFlv.recvResult
  recv s := { s with seqFlv := s.seqFlv.recv }
  process pkt s := ({ s with mux := (s.mux.process pkt).1 }, (s.mux.process pkt).2)
  outputs := [0]
  send _ tag s := ({ s with flv := s.flv.send tag }, s.flv.sendResult)
  drop s := { s with seqFlv := s.seqFlv.dropReceiver, flv := s.flv.dropSender }

/-- `run_sink` over `FlvSink`. -/
inductive SinkTask
  | looping
  | consuming (tag : FlvTag)
  | ended

def stepSink (cancelled : Bool) (wake : Wake) : SinkTask → ChainState → Option (SinkTask × ChainState)
  | .looping, s =>
    let dropped := { s with flv := s.flv.dropReceiver, flvDemand := s.flvDemand.dropHandle }
    match wake with
    | .cancelled => if cancelled then some (.ended, dropped) else none
    | .input =>
      match s.flv.recvResult with
      | .item tag => some (.consuming tag, { s with flv := s.flv.recv })
      | .closed => some (.ended, dropped)
      | .waiting => none
  | .consuming tag, s => some (.looping, { s with broadcasts := s.broadcasts ++ [tag] })
  | .ended, _ => none

/-! ## The chain -/

structure Chain where
  state : ChainState
  -- what the source has still to send
  source : List EncodedPacket
  sourceOpen : Bool := true
  cancelled : Bool := false
  otelTask : ProcessorTask EncodedPacket := .looping
  seqCacheTask : ProcessorTask EncodedPacket := .looping
  flvMuxTask : ProcessorTask FlvTag := .looping
  flvSinkTask : SinkTask := .looping

/-- The chain as it is built on a source pad of the given capacity. -/
def Chain.initial (srcCapacity : ℕ) (packets : List EncodedPacket) : Chain where
  state := { src := { capacity := srcCapacity } }
  source := packets

inductive ChainAction
  -- the source sends its next packet
  | send
  -- the source drops its pad
  | closeSource
  -- the stream's token is cancelled
  | cancel
  | otel (wake : Wake)
  | seqCache (wake : Wake)
  | flvMux (wake : Wake)
  | flvSink (wake : Wake)
  -- the HLS branch receives a packet, or drops its end of the pad
  | hlsRecv
  | hlsDrop
  deriving DecidableEq

def Chain.step (c : Chain) : ChainAction → Option Chain
  | .send =>
    match c.source with
    | pkt :: pkts =>
      if c.sourceOpen then some { c with state := { c.state with src := c.state.src.send pkt }, source := pkts }
      else none
    | [] => none
  | .closeSource =>
    match c.source with
    | [] => some { c with state := { c.state with src := c.state.src.dropSender }, sourceOpen := false }
    | _ => none
  | .cancel => some { c with cancelled := true }
  | .otel wake =>
    (otelProbe.step c.cancelled wake c.otelTask c.state).map fun (task, s) => { c with otelTask := task, state := s }
  | .seqCache wake =>
    (seqCacheProbe.step c.cancelled wake c.seqCacheTask c.state).map fun (task, s) =>
      { c with seqCacheTask := task, state := s }
  | .flvMux wake =>
    (flvMux.step c.cancelled wake c.flvMuxTask c.state).map fun (task, s) =>
      { c with flvMuxTask := task, state := s }
  | .flvSink wake =>
    (stepSink c.cancelled wake c.flvSinkTask c.state).map fun (task, s) => { c with flvSinkTask := task, state := s }
  | .hlsRecv => some { c with state := { c.state with seqHls := c.state.seqHls.recv } }
  | .hlsDrop => some { c with state := { c.state with seqHls := c.state.seqHls.dropReceiver } }

/-! ## What a step can do -/

/-- A step of `FlvSink`. -/
inductive SinkStepped (cancelled : Bool) : SinkTask → ChainState → SinkTask → ChainState → Prop
  | ended (s : ChainState) (h : cancelled = true ∨ s.flv.recvResult = .closed) :
      SinkStepped cancelled .looping s .ended { s with flv := s.flv.dropReceiver, flvDemand := s.flvDemand.dropHandle }
  | received (s : ChainState) (tag : FlvTag) (h : s.flv.recvResult = .item tag) :
      SinkStepped cancelled .looping s (.consuming tag) { s with flv := s.flv.recv }
  | consumed (s : ChainState) (tag : FlvTag) :
      SinkStepped cancelled (.consuming tag) s .looping { s with broadcasts := s.broadcasts ++ [tag] }

theorem sinkStepped_of_step {cancelled : Bool} {wake : Wake} {task task' : SinkTask} {s s' : ChainState}
    (h : stepSink cancelled wake task s = some (task', s')) : SinkStepped cancelled task s task' s' := by
  cases task with
  | looping =>
    cases wake with
    | cancelled =>
      simp only [stepSink] at h
      split at h
      · next hcancelled =>
        obtain ⟨rfl, rfl⟩ := Prod.mk.inj (Option.some.inj h)
        exact .ended s (.inl hcancelled)
      · cases h
    | input =>
      simp only [stepSink] at h
      split at h
      · next tag htag =>
        obtain ⟨rfl, rfl⟩ := Prod.mk.inj (Option.some.inj h)
        exact .received s tag htag
      · next hclosed =>
        obtain ⟨rfl, rfl⟩ := Prod.mk.inj (Option.some.inj h)
        exact .ended s (.inr hclosed)
      · cases h
  | consuming tag =>
    obtain ⟨rfl, rfl⟩ := Prod.mk.inj (Option.some.inj h)
    exact .consumed s tag
  | ended => cases h

inductive Chain.Stepped (c : Chain) : ChainAction → Chain → Prop
  | send (pkt : EncodedPacket) (pkts : List EncodedPacket) (hsource : c.source = pkt :: pkts)
      (hopen : c.sourceOpen = true) :
      Stepped c .send { c with state := { c.state with src := c.state.src.send pkt }, source := pkts }
  | closeSource (hsource : c.source = []) :
      Stepped c .closeSource { c with state := { c.state with src := c.state.src.dropSender }, sourceOpen := false }
  | cancel : Stepped c .cancel { c with cancelled := true }
  | otel (wake : Wake) (task : ProcessorTask EncodedPacket) (s : ChainState)
      (h : otelProbe.step c.cancelled wake c.otelTask c.state = some (task, s)) :
      Stepped c (.otel wake) { c with otelTask := task, state := s }
  | seqCache (wake : Wake) (task : ProcessorTask EncodedPacket) (s : ChainState)
      (h : seqCacheProbe.step c.cancelled wake c.seqCacheTask c.state = some (task, s)) :
      Stepped c (.seqCache wake) { c with seqCacheTask := task, state := s }
  | flvMux (wake : Wake) (task : ProcessorTask FlvTag) (s : ChainState)
      (h : Pipeline.flvMux.step c.cancelled wake c.flvMuxTask c.state = some (task, s)) :
      Stepped c (.flvMux wake) { c with flvMuxTask := task, state := s }
  | flvSink (wake : Wake) (task : SinkTask) (s : ChainState) (h : SinkStepped c.cancelled c.flvSinkTask c.state task s) :
      Stepped c (.flvSink wake) { c with flvSinkTask := task, state := s }
  | hlsRecv : Stepped c .hlsRecv { c with state := { c.state with seqHls := c.state.seqHls.recv } }
  | hlsDrop : Stepped c .hlsDrop { c with state := { c.state with seqHls := c.state.seqHls.dropReceiver } }

theorem Chain.stepped_of_step {c c' : Chain} {a : ChainAction} (h : c.step a = some c') : c.Stepped a c' := by
  cases a with
  | send =>
    simp only [Chain.step] at h
    split at h
    · next pkt pkts hsource =>
      split at h
      · next hopen =>
        obtain rfl := Option.some.inj h
        exact .send pkt pkts hsource hopen
      · cases h
    · cases h
  | closeSource =>
    simp only [Chain.step] at h
    split at h
    · next hsource =>
      obtain rfl := Option.some.inj h
      exact .closeSource hsource
    · cases h
  | cancel =>
    obtain rfl := Option.some.inj h
    exact .cancel
  | otel wake =>
    obtain ⟨⟨task, s⟩, htask, rfl⟩ := Option.map_eq_some_iff.mp h
    exact .otel wake task s htask
  | seqCache wake =>
    obtain ⟨⟨task, s⟩, htask, rfl⟩ := Option.map_eq_some_iff.mp h
    exact .seqCache wake task s htask
  | flvMux wake =>
    obtain ⟨⟨task, s⟩, htask, rfl⟩ := Option.map_eq_some_iff.mp h
    exact .flvMux wake task s htask
  | flvSink wake =>
    obtain ⟨⟨task, s⟩, htask, rfl⟩ := Option.map_eq_some_iff.mp h
    exact .flvSink wake task s (sinkStepped_of_step htask)
  | hlsRecv =>
    obtain rfl := Option.some.inj h
    exact .hlsRecv
  | hlsDrop =>
    obtain rfl := Option.some.inj h
    exact .hlsDrop

/-- The step cancels nothing, and the send it makes, if any, does not report `Full`. -/
def Undisturbed (c : Chain) : ChainAction → Prop
  | .cancel => False
  | .send => c.state.src.sendResult ≠ .full
  | .otel _ => otelProbe.nextSend c.otelTask c.state ≠ some .full
  | .seqCache _ => seqCacheProbe.nextSend c.seqCacheTask c.state ≠ some .full
  | .flvMux _ => flvMux.nextSend c.flvMuxTask c.state ≠ some .full
  | _ => True

instance (c : Chain) : (a : ChainAction) → Decidable (Undisturbed c a)
  | .cancel => isFalse id
  | .send => inferInstanceAs (Decidable (_ ≠ _))
  | .otel _ => inferInstanceAs (Decidable (_ ≠ _))
  | .seqCache _ => inferInstanceAs (Decidable (_ ≠ _))
  | .flvMux _ => inferInstanceAs (Decidable (_ ≠ _))
  | .closeSource | .flvSink _ | .hlsRecv | .hlsDrop => isTrue trivial

def ProcessorTask.isEnded {β : Type} : ProcessorTask β → Bool
  | .ended => true
  | _ => false

def SinkTask.isEnded : SinkTask → Bool
  | .ended => true
  | _ => false

/-- All four tasks have ended. -/
def Chain.ended (c : Chain) : Bool :=
  c.otelTask.isEnded && c.seqCacheTask.isEnded && c.flvMuxTask.isEnded && c.flvSinkTask.isEnded

end LivestreamRs.Pipeline
