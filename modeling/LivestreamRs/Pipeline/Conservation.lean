import LivestreamRs.Pipeline.Chain

/-! # What the FLV path keeps

While nothing is cancelled and no pad is full, a step of any task moves packets and tags along the chain and
loses none: `Chain.output`, the tags broadcast so far followed by those still to come, does not change. A task
ends only when the task before it has ended and its input pad is empty.
-/
namespace LivestreamRs.Pipeline
open Media Foundations
set_option autoImplicit false

/-! ## A pad between two tasks -/

/-- `up` and `down` say whether the task that sends into the pad and the one that receives from it have
ended. -/
structure Linked {α : Type} (pad : Pad α) (up down : Bool) : Prop where
  sender : pad.senderAlive = !up
  receiver : pad.receiverAlive = !down
  drained : down = true → up = true ∧ pad.queue = []

namespace Linked
variable {α : Type} {pad : Pad α} {up down : Bool}

theorem sendResult_eq_ok (h : Linked pad false down) (hfull : pad.sendResult ≠ .full) : pad.sendResult = .ok := by
  have hdown : down = false := by
    cases down with
    | false => rfl
    | true => exact absurd (h.drained rfl).1 (by simp)
  have hreceiver : pad.receiverAlive = true := by rw [h.receiver, hdown]; rfl
  unfold Pad.sendResult at hfull ⊢
  simp only [hreceiver, Bool.not_true, Bool.false_eq_true, if_false] at hfull ⊢
  split at hfull
  · next hroom => rw [if_pos hroom]
  · exact absurd rfl hfull

theorem send_eq (h : Linked pad false down) (hfull : pad.sendResult ≠ .full) (a : α) :
    pad.send a = { pad with queue := pad.queue ++ [a] } := by
  rw [Pad.send, h.sendResult_eq_ok hfull]

theorem send (h : Linked pad false down) (a : α) : Linked (pad.send a) false down := by
  unfold Pad.send
  split
  · exact ⟨h.sender, h.receiver, fun hdown => absurd (h.drained hdown).1 (by simp)⟩
  · exact h

theorem recv (h : Linked pad up false) : Linked pad.recv up false :=
  ⟨h.sender, h.receiver, nofun⟩

theorem dropSender (h : Linked pad up down) : Linked pad.dropSender true down :=
  ⟨rfl, h.receiver, fun hdown => ⟨rfl, (h.drained hdown).2⟩⟩

theorem queue_of_recvResult_closed (h : pad.recvResult = .closed) : pad.queue = [] ∧ pad.senderAlive = false := by
  unfold Pad.recvResult at h
  split at h
  · cases h
  · next hqueue =>
    split at h
    · cases h
    · next hsender => exact ⟨hqueue, by simpa using hsender⟩

theorem dropReceiver (h : Linked pad up down) (hclosed : pad.recvResult = .closed) :
    Linked pad.dropReceiver up true := by
  obtain ⟨hqueue, hsender⟩ := queue_of_recvResult_closed hclosed
  refine ⟨h.sender, rfl, fun _ => ⟨?_, hqueue⟩⟩
  have := h.sender
  rw [hsender] at this
  simpa using this.symm

end Linked

theorem recv_queue {α : Type} {pad : Pad α} {a : α} (h : pad.recvResult = .item a) :
    pad.queue = a :: pad.recv.queue := by
  unfold Pad.recvResult at h
  split at h
  · next b queue hqueue =>
    obtain rfl := RecvResult.item.inj h
    rw [Pad.recv, hqueue, List.tail_cons]
  · split at h <;> cases h

/-! ## Items a task is delivering -/

/-- The items still to be sent to the first output pad. -/
def ProcessorTask.inFlight {β : Type} : ProcessorTask β → List β
  | .offering item pad _ results => if pad = 0 then item :: results else results
  | _ => []

def SinkTask.inFlight : SinkTask → List FlvTag
  | .consuming tag => [tag]
  | _ => []

/-- The pads an item is still to be offered to are the last ones of the list. -/
def ProcessorTask.OffersTo {β : Type} (outputs : List ℕ) : ProcessorTask β → Prop
  | .offering _ pad pads _ => pad :: pads <:+ outputs
  | _ => True

section Delivering
variable {β : Type} {outputs : List ℕ}

theorem inFlight_deliver (outputs : List ℕ) (results : List β) :
    (ProcessorTask.deliver (0 :: outputs) results).inFlight = results := by
  cases results <;> rfl

theorem isEnded_deliver (outputs : List ℕ) (results : List β) :
    (ProcessorTask.deliver outputs results).isEnded = false := by
  cases results <;> cases outputs <;> rfl

theorem offersTo_deliver (outputs : List ℕ) (results : List β) :
    (ProcessorTask.deliver outputs results).OffersTo outputs := by
  cases results <;> cases outputs <;> first | exact trivial | exact List.suffix_refl _

end Delivering

namespace Processor
variable {σ α β : Type} {P : Processor σ α β} {item : β} {pad : ℕ} {pads : List ℕ} {results : List β}

theorem isEnded_afterSend (result : SendResult) : (P.afterSend item pads results result).isEnded = false := by
  unfold afterSend
  split
  · split
    · exact isEnded_deliver _ _
    · rfl
  · exact isEnded_deliver _ _

theorem offersTo_afterSend (result : SendResult) (h : pad :: pads <:+ P.outputs) :
    (P.afterSend item pads results result).OffersTo P.outputs := by
  unfold afterSend
  split
  · split
    · exact offersTo_deliver _ _
    · exact (List.suffix_cons _ _).trans h
  · exact offersTo_deliver _ _

/-- A send to the first pad is the only one to it: what is in flight afterwards are the later items. -/
theorem inFlight_afterSend {more : List ℕ} (result : SendResult) (houtputs : P.outputs = 0 :: more)
    (hmore : 0 ∉ more) (h : pad :: pads <:+ P.outputs) :
    (P.afterSend item pads results result).inFlight = results := by
  have hdeliver : (ProcessorTask.deliver P.outputs results).inFlight = results := by
    rw [houtputs]
    exact inFlight_deliver more results
  unfold afterSend
  split
  · split
    · exact hdeliver
    · next next pads =>
      have hnext : next ≠ 0 := by
        rintro rfl
        rw [houtputs] at h
        rcases List.suffix_cons_iff.mp h with heq | hsuffix
        · rw [(List.cons.inj heq).2.symm] at hmore
          exact hmore List.mem_cons_self
        · exact hmore (hsuffix.subset (by simp))
      simp [ProcessorTask.inFlight, hnext]
  · exact hdeliver

end Processor

/-! ## The output of the chain -/

/-- The packets that have not reached the muxer, in the order in which they will. -/
def Chain.toMux (c : Chain) : List EncodedPacket :=
  c.state.seqFlv.queue ++ c.seqCacheTask.inFlight ++ c.state.otel.queue ++ c.otelTask.inFlight ++
    c.state.src.queue ++ c.source

/-- The tags broadcast so far and those still to come. -/
def Chain.output (c : Chain) : List FlvTag :=
  c.state.broadcasts ++ c.flvSinkTask.inFlight ++ c.state.flv.queue ++ c.flvMuxTask.inFlight ++
    (c.state.mux.processAll c.toMux).2

structure Healthy (c : Chain) : Prop where
  uncancelled : c.cancelled = false
  source : c.sourceOpen = false → c.source = []
  src : Linked c.state.src (!c.sourceOpen) c.otelTask.isEnded
  otel : Linked c.state.otel c.otelTask.isEnded c.seqCacheTask.isEnded
  seqFlv : Linked c.state.seqFlv c.seqCacheTask.isEnded c.flvMuxTask.isEnded
  flv : Linked c.state.flv c.flvMuxTask.isEnded c.flvSinkTask.isEnded
  otelOffers : c.otelTask.OffersTo otelProbe.outputs
  seqCacheOffers : c.seqCacheTask.OffersTo seqCacheProbe.outputs
  flvMuxOffers : c.flvMuxTask.OffersTo flvMux.outputs
  demand : c.flvSinkTask.isEnded = false → c.state.flvDemand.isWanted = true

/-- A step keeps the chain healthy and its output as it was. -/
def Keeps (c c' : Chain) : Prop := Healthy c' ∧ c'.output = c.output

theorem otel_keeps {c : Chain} {task task' : ProcessorTask EncodedPacket} {s : ChainState} (h : Healthy c)
    (htask : c.otelTask = task) (hfull : otelProbe.nextSend task c.state ≠ some .full)
    (hstep : otelProbe.Stepped c.cancelled c.state task task' s) :
    Keeps c { c with otelTask := task', state := s } := by
  have hsrc := h.src
  have hotel := h.otel
  have hoffers := h.otelOffers
  rw [htask] at hsrc hotel hoffers
  cases hstep with
  | cancelled hc =>
    rw [h.uncancelled] at hc
    cases hc
  | unwanted hwanted => cases hwanted
  | packet pkt hpkt =>
    have hqueue := recv_queue hpkt
    refine ⟨{ h with src := hsrc.recv, otel := hotel, otelOffers := ?_ }, ?_⟩
    · exact offersTo_deliver [0] [pkt]
    · simp [Chain.output, Chain.toMux, otelProbe, htask, ProcessorTask.deliver, ProcessorTask.inFlight, hqueue]
  | inputEnded hclosed =>
    refine ⟨{ h with src := hsrc.dropReceiver hclosed, otel := hotel.dropSender, otelOffers := trivial }, ?_⟩
    simp [Chain.output, Chain.toMux, otelProbe, htask, ProcessorTask.inFlight, Pad.dropReceiver, Pad.dropSender]
  | offer item pad pads results =>
    have hpad : pad = 0 := by simpa [otelProbe] using hoffers.subset List.mem_cons_self
    have hsend := hotel.send_eq (by simpa [Processor.nextSend, otelProbe] using hfull) item
    refine ⟨{ h with src := ?_, otel := ?_, otelOffers := Processor.offersTo_afterSend _ hoffers }, ?_⟩
    · rw [Processor.isEnded_afterSend]
      exact hsrc
    · rw [Processor.isEnded_afterSend]
      exact hotel.send item
    · simp only [Chain.output, Chain.toMux, htask, Processor.inFlight_afterSend _ rfl (by simp) hoffers]
      simp [otelProbe, hsend, ProcessorTask.inFlight, hpad]

theorem seqCache_keeps {c : Chain} {task task' : ProcessorTask EncodedPacket} {s : ChainState} (h : Healthy c)
    (htask : c.seqCacheTask = task) (hfull : seqCacheProbe.nextSend task c.state ≠ some .full)
    (hstep : seqCacheProbe.Stepped c.cancelled c.state task task' s) :
    Keeps c { c with seqCacheTask := task', state := s } := by
  have hotel := h.otel
  have hseq := h.seqFlv
  have hoffers := h.seqCacheOffers
  rw [htask] at hotel hseq hoffers
  cases hstep with
  | cancelled hc =>
    rw [h.uncancelled] at hc
    cases hc
  | unwanted hwanted => cases hwanted
  | packet pkt hpkt =>
    have hqueue := recv_queue hpkt
    refine ⟨{ h with otel := hotel.recv, seqFlv := hseq, seqCacheOffers := ?_ }, ?_⟩
    · exact offersTo_deliver [0, 1] [pkt]
    · simp [Chain.output, Chain.toMux, seqCacheProbe, htask, SeqCacheProbe.process, ProcessorTask.deliver,
        ProcessorTask.inFlight, hqueue]
  | inputEnded hclosed =>
    refine ⟨{ h with otel := hotel.dropReceiver hclosed, seqFlv := hseq.dropSender, seqCacheOffers := trivial }, ?_⟩
    simp [Chain.output, Chain.toMux, seqCacheProbe, htask, ProcessorTask.inFlight, Pad.dropReceiver,
      Pad.dropSender]
  | offer item pad pads results =>
    have hflight : (seqCacheProbe.afterSend item pads results
        (seqCacheProbe.send pad item c.state).2).inFlight = results :=
      Processor.inFlight_afterSend _ rfl (by simp) hoffers
    by_cases hpad : pad = 0
    · -- the copy for the FLV path
      subst hpad
      have hsend := hseq.send_eq (by simpa [Processor.nextSend, seqCacheProbe] using hfull) item
      refine ⟨{ h with otel := ?_, seqFlv := ?_, seqCacheOffers := Processor.offersTo_afterSend _ hoffers }, ?_⟩
      · rw [Processor.isEnded_afterSend]
        exact hotel
      · rw [Processor.isEnded_afterSend]
        exact hseq.send item
      · simp only [Chain.output, Chain.toMux, htask, hflight]
        simp [seqCacheProbe, hsend, ProcessorTask.inFlight]
    · -- the copy for the HLS branch: whatever its outcome, the FLV path has its own already
      have hs : (seqCacheProbe.send pad item c.state).1 = { c.state with seqHls := c.state.seqHls.send item } := by
        simp [seqCacheProbe, hpad]
      rw [hs]
      refine ⟨{ h with otel := ?_, seqFlv := ?_, seqCacheOffers := Processor.offersTo_afterSend _ hoffers }, ?_⟩
      · rw [Processor.isEnded_afterSend]
        exact hotel
      · rw [Processor.isEnded_afterSend]
        exact hseq
      · simp only [Chain.output, Chain.toMux, htask, hflight]
        simp [ProcessorTask.inFlight, hpad]

theorem flvMux_keeps {c : Chain} {task task' : ProcessorTask FlvTag} {s : ChainState} (h : Healthy c)
    (htask : c.flvMuxTask = task) (hfull : flvMux.nextSend task c.state ≠ some .full)
    (hstep : flvMux.Stepped c.cancelled c.state task task' s) :
    Keeps c { c with flvMuxTask := task', state := s } := by
  have hseq := h.seqFlv
  have hflv := h.flv
  have hoffers := h.flvMuxOffers
  rw [htask] at hseq hflv hoffers
  cases hstep with
  | cancelled hc =>
    rw [h.uncancelled] at hc
    cases hc
  | unwanted hwanted =>
    refine ⟨{ h with seqFlv := hseq, flv := hflv, flvMuxOffers := hoffers }, ?_⟩
    simp [Chain.output, Chain.toMux, htask]
  | packet pkt hpkt =>
    have hqueue := recv_queue hpkt
    refine ⟨{ h with seqFlv := ?_, flv := ?_, flvMuxOffers := offersTo_deliver _ _ }, ?_⟩
    · rw [isEnded_deliver]
      exact hseq.recv
    · rw [isEnded_deliver]
      exact hflv
    · simp only [Chain.output, Chain.toMux, flvMux, inFlight_deliver, htask, hqueue]
      simp [ProcessorTask.inFlight, FlvMux.processAll]
  | inputEnded hclosed =>
    refine ⟨{ h with seqFlv := hseq.dropReceiver hclosed, flv := hflv.dropSender, flvMuxOffers := trivial }, ?_⟩
    simp [Chain.output, Chain.toMux, flvMux, htask, ProcessorTask.inFlight, Pad.dropReceiver, Pad.dropSender]
  | offer item pad pads results =>
    have hpad : pad = 0 := by simpa [flvMux] using hoffers.subset List.mem_cons_self
    have hsend := hflv.send_eq (by simpa [Processor.nextSend, flvMux] using hfull) item
    refine ⟨{ h with seqFlv := ?_, flv := ?_, flvMuxOffers := Processor.offersTo_afterSend _ hoffers }, ?_⟩
    · rw [Processor.isEnded_afterSend]
      exact hseq
    · rw [Processor.isEnded_afterSend]
      exact hflv.send item
    · simp only [Chain.output, Chain.toMux, htask, Processor.inFlight_afterSend _ rfl (by simp) hoffers]
      simp [flvMux, hsend, ProcessorTask.inFlight, hpad]

theorem flvSink_keeps {c : Chain} {task task' : SinkTask} {s : ChainState} (h : Healthy c)
    (htask : c.flvSinkTask = task) (hstep : SinkStepped c.cancelled task c.state task' s) :
    Keeps c { c with flvSinkTask := task', state := s } := by
  have hflv := h.flv
  rw [htask] at hflv
  cases hstep with
  | ended _ hdropped =>
    have hclosed := hdropped.resolve_left (by rw [h.uncancelled]; exact Bool.false_ne_true)
    refine ⟨{ h with flv := hflv.dropReceiver hclosed, demand := nofun }, ?_⟩
    simp [Chain.output, Chain.toMux, htask, SinkTask.inFlight, Pad.dropReceiver]
  | received _ tag htag =>
    have hqueue := recv_queue htag
    refine ⟨{ h with flv := hflv.recv, demand := fun _ => h.demand (by rw [htask]; rfl) }, ?_⟩
    simp [Chain.output, Chain.toMux, htask, SinkTask.inFlight, hqueue]
  | consumed _ tag =>
    refine ⟨{ h with flv := hflv, demand := fun _ => h.demand (by rw [htask]; rfl) }, ?_⟩
    simp [Chain.output, Chain.toMux, htask, SinkTask.inFlight]

theorem Healthy.step {c c' : Chain} {a : ChainAction} (h : Healthy c) (ha : Undisturbed c a)
    (hstep : c.step a = some c') : Keeps c c' := by
  cases Chain.stepped_of_step hstep with
  | send pkt pkts hsource hopen =>
    have hsrc := h.src
    rw [hopen] at hsrc
    have hsend := hsrc.send_eq ha pkt
    refine ⟨{ h with source := ?_, src := ?_ }, ?_⟩
    · intro hclosed
      rw [hopen] at hclosed
      cases hclosed
    · rw [hopen]
      exact hsrc.send pkt
    · simp [Chain.output, Chain.toMux, hsource, hsend]
  | closeSource hsource =>
    refine ⟨{ h with source := fun _ => hsource, src := h.src.dropSender }, ?_⟩
    simp [Chain.output, Chain.toMux, Pad.dropSender]
  | cancel => exact ha.elim
  | otel wake task s htask => exact otel_keeps h rfl ha (Processor.stepped_of_step htask)
  | seqCache wake task s htask => exact seqCache_keeps h rfl ha (Processor.stepped_of_step htask)
  | flvMux wake task s htask => exact flvMux_keeps h rfl ha (Processor.stepped_of_step htask)
  | flvSink wake task s htask => exact flvSink_keeps h rfl htask
  | hlsRecv | hlsDrop => exact ⟨{ h with }, rfl⟩

theorem healthy_initial (srcCapacity : ℕ) (packets : List EncodedPacket) :
    Healthy (Chain.initial srcCapacity packets) where
  uncancelled := rfl
  source := nofun
  src := ⟨rfl, rfl, nofun⟩
  otel := ⟨rfl, rfl, nofun⟩
  seqFlv := ⟨rfl, rfl, nofun⟩
  flv := ⟨rfl, rfl, nofun⟩
  otelOffers := trivial
  seqCacheOffers := trivial
  flvMuxOffers := trivial
  demand _ := rfl

end LivestreamRs.Pipeline
