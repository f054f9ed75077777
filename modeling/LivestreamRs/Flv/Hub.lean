import LivestreamRs.Flv.LiveChannel
import LivestreamRs.Pipeline.Conservation

/-! # The hub and the demand of the pipeline

`FlvEgressHub` (`livestream-transport/src/flv/hub.rs`) with the FLV path of one stream, whose `FlvSink` broadcasts into it.
There are three places in which someone counts who wants the tags: the demand signal of the pad before `FlvSink`, the hub's
own signal of the stream, and the receivers of the stream's channel. `FlvMux::should_process` looks at the first, and
playback subscribes at the last.
-/
namespace LivestreamRs.Pipeline
set_option autoImplicit false

/-! ## While the source is open -/

/-- Every pad of the FLV path has its sender, and `FlvSink` its handle. -/
structure Fed (s : ChainState) : Prop where
  src : s.src.senderAlive = true
  otel : s.otel.senderAlive = true
  seqFlv : s.seqFlv.senderAlive = true
  flv : s.flv.senderAlive = true
  demand : s.flvDemand.isWanted = true

theorem senderAlive_send {α : Type} (pad : Pad α) (a : α) : (pad.send a).senderAlive = pad.senderAlive := by
  unfold Pad.send
  split <;> rfl

theorem recvResult_ne_closed {α : Type} {pad : Pad α} (h : pad.senderAlive = true) : pad.recvResult ≠ .closed := by
  intro hclosed
  rw [(Linked.queue_of_recvResult_closed hclosed).2] at h
  cases h

/-- A task is not dropped while nothing is cancelled and its input is open. -/
theorem not_dropped {α : Type} {pad : Pad α} {cancelled : Bool} (hcancelled : cancelled = false)
    (h : pad.senderAlive = true) : ¬ (cancelled = true ∨ pad.recvResult = .closed) := by
  rintro (hset | hclosed)
  · rw [hcancelled] at hset
    cases hset
  · exact recvResult_ne_closed h hclosed

/-- The publisher is live: its source is open and its token not cancelled. -/
def Chain.Live (c : Chain) : Prop := c.sourceOpen = true ∧ c.cancelled = false

/-- While the publisher is live the FLV path stays fed. -/
theorem fed_step {c c' : Chain} {a : ChainAction} (h : c.Live → Fed c.state) (hstep : c.step a = some c')
    (hlive : c'.Live) : Fed c'.state := by
  obtain ⟨hopen, hcancelled⟩ := hlive
  cases Chain.stepped_of_step hstep with
  | send pkt pkts =>
    have hfed := h ⟨hopen, hcancelled⟩
    exact { hfed with src := (senderAlive_send _ _).trans hfed.src }
  | closeSource => cases hopen
  | cancel => cases hcancelled
  | otel wake task s htask =>
    have hfed := h ⟨hopen, hcancelled⟩
    refine Processor.step_keeps (fun s h => { h with }) (fun pkt s h => h) (fun pad pkt s h => ?_)
      (fun hdropped => absurd hdropped (not_dropped hcancelled hfed.src)) hfed htask
    exact { h with otel := (senderAlive_send _ _).trans h.otel }
  | seqCache wake task s htask =>
    have hfed := h ⟨hopen, hcancelled⟩
    refine Processor.step_keeps (fun s h => { h with }) (fun pkt s h => { h with }) (fun pad pkt s h => ?_)
      (fun hdropped => absurd hdropped (not_dropped hcancelled hfed.otel)) hfed htask
    simp only [seqCacheProbe]
    split
    · exact { h with seqFlv := (senderAlive_send _ _).trans h.seqFlv }
    · exact { h with }
  | flvMux wake task s htask =>
    have hfed := h ⟨hopen, hcancelled⟩
    refine Processor.step_keeps (fun s h => { h with }) (fun pkt s h => { h with }) (fun pad tag s h => ?_)
      (fun hdropped => absurd hdropped (not_dropped hcancelled hfed.seqFlv)) hfed htask
    exact { h with flv := (senderAlive_send _ _).trans h.flv }
  | flvSink wake task s htask =>
    have hfed := h ⟨hopen, hcancelled⟩
    generalize c.flvSinkTask = before at htask
    cases htask with
    | ended _ hdropped => exact absurd hdropped (not_dropped hcancelled hfed.flv)
    | received | consumed => exact { hfed with }
  | hlsRecv | hlsDrop => exact { h ⟨hopen, hcancelled⟩ with }

end LivestreamRs.Pipeline

namespace LivestreamRs.Flv
open Media Foundations Pipeline
set_option autoImplicit false

/-! ## The hub -/

/-- The maps of the hub; a channel and a signal are known by their numbers. -/
structure FlvEgressHub where
  channels : String → Option ℕ := fun _ => none
  demandSignals : String → Option ℕ := fun _ => none

/-- The hub with the channels and signals made for it, and the pipeline of one stream. -/
structure Egress where
  hub : FlvEgressHub := {}
  -- with the stream a channel was made for
  channels : List (String × FlvLiveChannel) := []
  signals : List DemandSignal := []
  chain : Chain

namespace Egress
variable (e : Egress)

/-- `demand_signals.entry(live_id).or_default()`. -/
def ensureSignal (liveId : String) : Egress :=
  match e.hub.demandSignals liveId with
  | some _ => e
  | none => { e with
      hub := { e.hub with demandSignals := Function.update e.hub.demandSignals liveId (some e.signals.length) }
      signals := e.signals ++ [{}] }

def createChannel (liveId : String) : Egress :=
  let e := e.ensureSignal liveId
  match e.hub.channels liveId with
  | some _ => e
  | none => { e with
      hub := { e.hub with channels := Function.update e.hub.channels liveId (some e.channels.length) }
      channels := e.channels ++ [(liveId, {})] }

def onChannel (channel : ℕ) (f : FlvLiveChannel → FlvLiveChannel) : Egress :=
  { e with channels := e.channels.modify channel fun (liveId, c) => (liveId, f c) }

/-- The map has the only reference to the channel: its sender goes with it. -/
def removeChannel (liveId : String) : Egress :=
  let removed : Egress := { e with hub := {
    channels := Function.update e.hub.channels liveId none
    demandSignals := Function.update e.hub.demandSignals liveId none } }
  match e.hub.channels liveId with
  | some channel => removed.onChannel channel fun c => { c with sender := c.sender.dropSender 0 }
  | none => removed

/-- `FlvEgressHub::subscribe`. -/
def subscribe (liveId : String) : Egress :=
  match e.hub.channels liveId with
  | some channel => e.onChannel channel FlvLiveChannel.attach
  | none => e

/-- `FlvBroadcast::subscribe`. -/
def subscribeDemand (liveId : String) : Egress :=
  let e := e.ensureSignal liveId
  match e.hub.demandSignals liveId with
  | some signal => { e with signals := e.signals.modify signal DemandSignal.newHandle }
  | none => e

/-- `FlvBroadcast::broadcast`. -/
def broadcast (liveId : String) (tag : FlvTag) : Egress :=
  match e.hub.channels liveId with
  | some channel => e.onChannel channel (·.broadcast tag)
  | none => e

/-- A receiver of the stream is alive. -/
def isPlaying (liveId : String) : Bool :=
  e.channels.any fun (owner, c) => owner == liveId && decide (0 < c.sender.liveReceivers 0)

end Egress

inductive EgressAction
  -- the pipeline of the stream; what `FlvSink` broadcasts goes to the hub
  | chain (a : ChainAction)
  -- the hub, for any stream
  | createChannel (liveId : String)
  | removeChannel (liveId : String)
  | subscribe (liveId : String)
  | subscribeDemand (liveId : String)
  | broadcast (liveId : String) (tag : FlvTag)
  -- those who have subscribed leave
  | dropReceiver (channel receiver : ℕ)
  | dropDemand (signal : ℕ)

def Egress.step (liveId : String) (e : Egress) : EgressAction → Option Egress
  | .chain a =>
    (e.chain.step a).map fun chain =>
      let tags := chain.state.broadcasts.drop e.chain.state.broadcasts.length
      tags.foldl (·.broadcast liveId) { e with chain }
  | .createChannel x => some (e.createChannel x)
  | .removeChannel x => some (e.removeChannel x)
  | .subscribe x => some (e.subscribe x)
  | .subscribeDemand x => some (e.subscribeDemand x)
  | .broadcast x tag => some (e.broadcast x tag)
  | .dropReceiver channel receiver =>
    some (e.onChannel channel fun c => { c with sender := c.sender.dropReceiver receiver })
  | .dropDemand signal =>
    match e.signals[signal]? with
    | some sig => if 0 < sig.count then some { e with signals := e.signals.modify signal DemandSignal.dropHandle } else none
    | none => none

/-- The pipeline as it is built, and a hub without channels. -/
def Egress.initial (srcCapacity : ℕ) (packets : List EncodedPacket) : Egress where
  chain := .initial srcCapacity packets

/-! ## A subscription is a living receiver -/

/-- The channel the hub has for a stream was made for it. -/
def Mapped (e : Egress) : Prop :=
  ∀ x channel, e.hub.channels x = some channel → ∃ c, e.channels[channel]? = some (x, c)

namespace Mapped
variable {e : Egress}

theorem onChannel (h : Mapped e) (channel : ℕ) (f : FlvLiveChannel → FlvLiveChannel) :
    Mapped (e.onChannel channel f) := by
  intro x channel' hx
  obtain ⟨c, hc⟩ := h x channel' hx
  rw [Egress.onChannel, List.getElem?_modify, hc]
  split
  · exact ⟨f c, rfl⟩
  · exact ⟨c, rfl⟩

theorem ensureSignal (h : Mapped e) (x : String) : Mapped (e.ensureSignal x) := by
  unfold Egress.ensureSignal
  split
  · exact h
  · exact h

theorem createChannel (h : Mapped e) (x : String) : Mapped (e.createChannel x) := by
  have hensured := h.ensureSignal x
  simp only [Egress.createChannel]
  split
  · exact hensured
  · intro x' channel hx
    simp only [Function.update_apply] at hx
    split at hx
    · next heq =>
      obtain rfl := Option.some.inj hx
      exact ⟨{}, by rw [heq, List.getElem?_concat_length]⟩
    · obtain ⟨c, hc⟩ := hensured x' channel hx
      exact ⟨c, List.getElem?_append_left (List.getElem?_eq_some_iff.mp hc).1 ▸ hc⟩

theorem removeChannel (h : Mapped e) (x : String) : Mapped (e.removeChannel x) := by
  have hremoved : Mapped { e with hub := {
      channels := Function.update e.hub.channels x none
      demandSignals := Function.update e.hub.demandSignals x none } } := by
    intro x' channel hx
    simp only [Function.update_apply] at hx
    split at hx
    · cases hx
    · exact h x' channel hx
  simp only [Egress.removeChannel]
  split
  · exact hremoved.onChannel _ _
  · exact hremoved

theorem subscribe (h : Mapped e) (x : String) : Mapped (e.subscribe x) := by
  unfold Egress.subscribe
  split
  · exact h.onChannel _ _
  · exact h

theorem subscribeDemand (h : Mapped e) (x : String) : Mapped (e.subscribeDemand x) := by
  simp only [Egress.subscribeDemand]
  split
  · exact h.ensureSignal x
  · exact h.ensureSignal x

theorem broadcast (h : Mapped e) (x : String) (tag : FlvTag) : Mapped (e.broadcast x tag) := by
  unfold Egress.broadcast
  split
  · exact h.onChannel _ _
  · exact h

theorem foldl_broadcast (h : Mapped e) (x : String) (tags : List FlvTag) :
    Mapped (tags.foldl (·.broadcast x) e) := by
  induction tags generalizing e with
  | nil => exact h
  | cons tag tags ih => exact ih (h.broadcast x tag)

theorem step {liveId : String} {e' : Egress} {a : EgressAction} (h : Mapped e)
    (hstep : e.step liveId a = some e') : Mapped e' := by
  cases a with
  | chain act =>
    obtain ⟨chain, -, rfl⟩ := Option.map_eq_some_iff.mp hstep
    exact foldl_broadcast (e := { e with chain }) h liveId _
  | createChannel x => exact Option.some.inj hstep ▸ h.createChannel x
  | removeChannel x => exact Option.some.inj hstep ▸ h.removeChannel x
  | subscribe x => exact Option.some.inj hstep ▸ h.subscribe x
  | subscribeDemand x => exact Option.some.inj hstep ▸ h.subscribeDemand x
  | broadcast x tag => exact Option.some.inj hstep ▸ h.broadcast x tag
  | dropReceiver channel receiver => exact Option.some.inj hstep ▸ h.onChannel channel _
  | dropDemand signal =>
    simp only [Egress.step] at hstep
    split at hstep
    · split at hstep <;> cases hstep
      exact h
    · cases hstep

end Mapped

/-- Whoever subscribes to a stream the hub has a channel for is a receiver of it. -/
theorem isPlaying_subscribe {srcCapacity : ℕ} {packets : List EncodedPacket} {liveId x : String}
    {actions : List EgressAction} {e : Egress} {channel : ℕ}
    (hrun : run (Egress.step liveId) (.initial srcCapacity packets) actions = some e)
    (hchannel : e.hub.channels x = some channel) : (e.subscribe x).isPlaying x = true := by
  have hmapped : Mapped e := run_invariant (I := Mapped) (fun _ _ _ h _ hstep => h.step hstep)
    (fun _ _ h => by cases h) (eachStep_trivial _ _) hrun
  obtain ⟨c, hc⟩ := hmapped x channel hchannel
  have hpos : 0 < c.attach.sender.liveReceivers 0 :=
    Nat.pos_of_ne_zero (Broadcasts.follows_subscribe ..).liveReceivers_pos
  have hmem : (x, c.attach) ∈ (e.subscribe x).channels := by
    simp only [Egress.subscribe, hchannel, Egress.onChannel]
    exact List.mem_of_getElem? (i := channel) (by simp [hc])
  exact List.any_eq_true.mpr ⟨_, hmem, by simp [hpos]⟩

/-! ## What `FlvMux` works for -/

section Chains
variable (e : Egress)

theorem chain_ensureSignal (liveId : String) : (e.ensureSignal liveId).chain = e.chain := by
  unfold Egress.ensureSignal
  split <;> rfl

theorem chain_broadcast (liveId : String) (tag : FlvTag) : (e.broadcast liveId tag).chain = e.chain := by
  unfold Egress.broadcast
  split <;> rfl

theorem chain_foldl_broadcast (liveId : String) (tags : List FlvTag) :
    (tags.foldl (·.broadcast liveId) e).chain = e.chain := by
  induction tags generalizing e with
  | nil => rfl
  | cons tag tags ih => rw [List.foldl_cons, ih, chain_broadcast]

end Chains

/-- A step is one of the pipeline, or leaves the pipeline alone. -/
theorem chain_step {liveId : String} {e e' : Egress} {a : EgressAction} (h : e.step liveId a = some e') :
    e'.chain = e.chain ∨ ∃ act, e.chain.step act = some e'.chain := by
  cases a with
  | chain act =>
    obtain ⟨chain, hchain, rfl⟩ := Option.map_eq_some_iff.mp h
    refine .inr ⟨act, ?_⟩
    rw [hchain, chain_foldl_broadcast]
  | createChannel x =>
    cases h
    refine .inl ?_
    simp only [Egress.createChannel]
    split <;> exact chain_ensureSignal e x
  | removeChannel x =>
    cases h
    unfold Egress.removeChannel
    split <;> exact .inl rfl
  | subscribe x =>
    cases h
    unfold Egress.subscribe
    split <;> exact .inl rfl
  | subscribeDemand x =>
    cases h
    refine .inl ?_
    simp only [Egress.subscribeDemand]
    split <;> exact chain_ensureSignal e x
  | broadcast x tag =>
    cases h
    exact .inl (chain_broadcast e x tag)
  | dropReceiver channel receiver =>
    cases h
    exact .inl rfl
  | dropDemand signal =>
    simp only [Egress.step] at h
    split at h
    · split at h <;> cases h
      exact .inl rfl
    · cases h

/-- While the publisher is live `FlvMux` works, so it works exactly for a playback receiver in the states that have
one. -/
theorem flv_demand_iff {srcCapacity : ℕ} {packets : List EncodedPacket} {liveId : String} {actions : List EgressAction}
    {e : Egress} (hrun : run (Egress.step liveId) (.initial srcCapacity packets) actions = some e) (hlive : e.chain.Live) :
    (flvMux.shouldProcess e.chain.state = true ↔ e.isPlaying liveId = true) ↔ e.isPlaying liveId = true := by
  have hfed : e.chain.Live → Fed e.chain.state := by
    refine run_invariant (I := fun e => e.chain.Live → Fed e.chain.state) (fun e a e' h _ hstep => ?_) (fun _ => ?_)
      (eachStep_trivial _ _) hrun
    · rcases chain_step hstep with hsame | ⟨act, hact⟩
      · rw [hsame]
        exact h
      · exact fed_step h hact
    · exact ⟨rfl, rfl, rfl, rfl, rfl⟩
  have hworks : flvMux.shouldProcess e.chain.state = true := (hfed hlive).demand
  rw [hworks, eq_self_iff_true, true_iff]

theorem flv_demand_of_subscriber :
    ∃ e, run (Egress.step "live") (.initial 256 []) [.createChannel "live", .subscribe "live"] = some e ∧
      e.isPlaying "live" = true ∧ (flvMux.shouldProcess e.chain.state = true ↔ e.isPlaying "live" = true) := by
  refine ⟨_, rfl, by decide, ?_⟩
  exact (flv_demand_iff (rfl : run (Egress.step "live") (.initial 256 []) [.createChannel "live", .subscribe "live"] = some _)
    ⟨rfl, rfl⟩).mpr (by decide)

/-- The pipeline is built and a channel created; no one plays the stream. -/
theorem flv_work_without_subscriber :
    ∃ e, run (Egress.step "live") (.initial 256 []) [.createChannel "live"] = some e ∧ e.chain.Live ∧
      flvMux.shouldProcess e.chain.state = true ∧ e.isPlaying "live" = false :=
  ⟨_, rfl, ⟨rfl, rfl⟩, rfl, rfl⟩

end LivestreamRs.Flv
