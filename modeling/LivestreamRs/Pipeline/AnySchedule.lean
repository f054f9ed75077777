import LivestreamRs.Pipeline.ScheduleIndependence

/-! # The FLV path under any schedule

A pad that is full drops what is sent to it, a pad without a receiver too, and a cancelled task leaves what is in its
input. Packets and tags are lost in these ways, but they keep their order: a pad is a queue, and a task works on one
packet at a time. When no pad is full, what is lost is the end of the stream only, since nothing passes a task that
has ended. What the HLS branch does with its pad makes no difference to the FLV path.
-/
namespace LivestreamRs.Pipeline
open Media Foundations
set_option autoImplicit false

theorem processAll_append (mux : FlvMux) (pkts more : List EncodedPacket) :
    mux.processAll (pkts ++ more) = (((mux.processAll pkts).1.processAll more).1,
      (mux.processAll pkts).2 ++ ((mux.processAll pkts).1.processAll more).2) := by
  induction pkts generalizing mux with
  | nil => simp [FlvMux.processAll]
  | cons pkt pkts ih => simp [FlvMux.processAll, ih]

/-! ## Lost packets -/

/-- The tags that were broadcast and those on their way from the muxer to the hub. -/
def Chain.tags (c : Chain) : List FlvTag :=
  c.state.broadcasts ++ c.flvSinkTask.inFlight ++ c.state.flv.queue ++ c.flvMuxTask.inFlight

/-- The items of a task go to its pads in their order. -/
structure Ordered (c : Chain) : Prop where
  otel : c.otelTask.OffersTo otelProbe.outputs
  seqCache : c.seqCacheTask.OffersTo seqCacheProbe.outputs
  flvMux : c.flvMuxTask.OffersTo flvMux.outputs

/-- What a step does: packets and tags move on or are lost, or the muxer makes tags of the next packet. -/
inductive Flows (c c' : Chain) : Prop
  | moves (hmux : c'.state.mux = c.state.mux) (htags : c'.tags.Sublist c.tags) (hpkts : c'.toMux.Sublist c.toMux)
  | muxes (pkt : EncodedPacket) (hmux : c'.state.mux = (c.state.mux.process pkt).1)
      (htags : c'.tags = c.tags ++ (c.state.mux.process pkt).2) (hpkts : c.toMux = pkt :: c'.toMux)

theorem send_sublist {α : Type} (pad : Pad α) (a : α) (rest : List α) :
    ((pad.send a).queue ++ rest).Sublist (pad.queue ++ a :: rest) := by
  unfold Pad.send
  split
  · simp
  · exact (List.sublist_cons_self a rest).append_left _

theorem otel_flows {c : Chain} {task task' : ProcessorTask EncodedPacket} {s : ChainState} {cancelled : Bool}
    (htask : c.otelTask = task) (hoffers : task.OffersTo otelProbe.outputs)
    (hstep : otelProbe.Stepped cancelled c.state task task' s) :
    task'.OffersTo otelProbe.outputs ∧ Flows c { c with otelTask := task', state := s } := by
  cases hstep with
  | cancelled | inputEnded =>
    refine ⟨trivial, .moves rfl ?_ ?_⟩ <;>
      simp [Chain.tags, Chain.toMux, otelProbe, htask, ProcessorTask.inFlight, Pad.dropReceiver, Pad.dropSender]
  | unwanted hwanted => cases hwanted
  | packet pkt hpkt =>
    refine ⟨offersTo_deliver [0] [pkt], .moves rfl ?_ ?_⟩
    · simp [Chain.tags, otelProbe]
    · simp [Chain.toMux, otelProbe, htask, ProcessorTask.deliver, ProcessorTask.inFlight, recv_queue hpkt]
  | offer item pad pads results =>
    have hpad : pad = 0 := by simpa [otelProbe] using hoffers.subset List.mem_cons_self
    refine ⟨Processor.offersTo_afterSend _ hoffers, .moves rfl ?_ ?_⟩
    · simp [Chain.tags, otelProbe]
    · simp only [Chain.toMux, htask, Processor.inFlight_afterSend _ rfl (by simp) hoffers]
      simpa [otelProbe, ProcessorTask.inFlight, hpad] using send_sublist c.state.otel item _

theorem seqCache_flows {c : Chain} {task task' : ProcessorTask EncodedPacket} {s : ChainState} {cancelled : Bool}
    (htask : c.seqCacheTask = task) (hoffers : task.OffersTo seqCacheProbe.outputs)
    (hstep : seqCacheProbe.Stepped cancelled c.state task task' s) :
    task'.OffersTo seqCacheProbe.outputs ∧ Flows c { c with seqCacheTask := task', state := s } := by
  cases hstep with
  | cancelled | inputEnded =>
    refine ⟨trivial, .moves rfl ?_ ?_⟩ <;>
      simp [Chain.tags, Chain.toMux, seqCacheProbe, htask, ProcessorTask.inFlight, Pad.dropReceiver, Pad.dropSender]
  | unwanted hwanted => cases hwanted
  | packet pkt hpkt =>
    refine ⟨offersTo_deliver [0, 1] [pkt], .moves rfl ?_ ?_⟩
    · simp [Chain.tags, seqCacheProbe]
    · simp [Chain.toMux, seqCacheProbe, SeqCacheProbe.process, htask, ProcessorTask.deliver, ProcessorTask.inFlight,
        recv_queue hpkt]
  | offer item pad pads results =>
    refine ⟨Processor.offersTo_afterSend _ hoffers, ?_⟩
    by_cases hpad : pad = 0
    · subst hpad
      refine .moves rfl (by simp [Chain.tags, seqCacheProbe]) ?_
      simp only [Chain.toMux, htask, Processor.inFlight_afterSend _ rfl (by simp) hoffers]
      simpa [seqCacheProbe, ProcessorTask.inFlight] using send_sublist c.state.seqFlv item _
    · -- the copy for the HLS branch
      have hs : (seqCacheProbe.send pad item c.state).1 = { c.state with seqHls := c.state.seqHls.send item } := by
        simp [seqCacheProbe, hpad]
      refine .moves (by rw [hs]) (by rw [hs]; exact List.Sublist.refl _) ?_
      simp only [Chain.toMux, htask, Processor.inFlight_afterSend _ rfl (by simp) hoffers, hs]
      simp [ProcessorTask.inFlight, hpad]

theorem flvMux_flows {c : Chain} {task task' : ProcessorTask FlvTag} {s : ChainState} {cancelled : Bool}
    (htask : c.flvMuxTask = task) (hoffers : task.OffersTo flvMux.outputs)
    (hstep : flvMux.Stepped cancelled c.state task task' s) :
    task'.OffersTo flvMux.outputs ∧ Flows c { c with flvMuxTask := task', state := s } := by
  cases hstep with
  | cancelled | inputEnded =>
    refine ⟨trivial, .moves rfl ?_ ?_⟩ <;>
      simp [Chain.tags, Chain.toMux, flvMux, htask, ProcessorTask.inFlight, Pad.dropReceiver, Pad.dropSender]
  | unwanted => exact ⟨hoffers, .moves rfl (by simp [Chain.tags, htask]) (List.Sublist.refl _)⟩
  | packet pkt hpkt =>
    refine ⟨offersTo_deliver _ _, .muxes pkt rfl ?_ ?_⟩
    · simp only [Chain.tags, flvMux, inFlight_deliver, htask]
      simp [ProcessorTask.inFlight]
    · simp [Chain.toMux, flvMux, recv_queue hpkt]
  | offer item pad pads results =>
    have hpad : pad = 0 := by simpa [flvMux] using hoffers.subset List.mem_cons_self
    refine ⟨Processor.offersTo_afterSend _ hoffers, .moves rfl ?_ (List.Sublist.refl _)⟩
    simp only [Chain.tags, htask, Processor.inFlight_afterSend _ rfl (by simp) hoffers]
    simpa [flvMux, ProcessorTask.inFlight, hpad] using send_sublist c.state.flv item results

theorem flvSink_flows {c : Chain} {task task' : SinkTask} {s : ChainState} {cancelled : Bool}
    (htask : c.flvSinkTask = task) (hstep : SinkStepped cancelled task c.state task' s) :
    Flows c { c with flvSinkTask := task', state := s } := by
  cases hstep with
  | ended => exact .moves rfl (by simp [Chain.tags, htask, SinkTask.inFlight, Pad.dropReceiver]) (List.Sublist.refl _)
  | received _ tag htag =>
    exact .moves rfl (by simp [Chain.tags, htask, SinkTask.inFlight, recv_queue htag]) (List.Sublist.refl _)
  | consumed _ tag => exact .moves rfl (by simp [Chain.tags, htask, SinkTask.inFlight]) (List.Sublist.refl _)

theorem Ordered.step {c c' : Chain} {a : ChainAction} (h : Ordered c) (hstep : c.step a = some c') :
    Ordered c' ∧ Flows c c' := by
  cases Chain.stepped_of_step hstep with
  | send pkt pkts hsource =>
    refine ⟨{ h with }, .moves rfl (List.Sublist.refl _) ?_⟩
    simpa [Chain.toMux, hsource] using send_sublist c.state.src pkt pkts
  | closeSource | cancel | hlsRecv | hlsDrop =>
    exact ⟨{ h with }, .moves rfl (List.Sublist.refl _) (List.Sublist.refl _)⟩
  | otel wake task s htask =>
    obtain ⟨hoffers, hflows⟩ := otel_flows rfl h.otel (Processor.stepped_of_step htask)
    exact ⟨{ h with otel := hoffers }, hflows⟩
  | seqCache wake task s htask =>
    obtain ⟨hoffers, hflows⟩ := seqCache_flows rfl h.seqCache (Processor.stepped_of_step htask)
    exact ⟨{ h with seqCache := hoffers }, hflows⟩
  | flvMux wake task s htask =>
    obtain ⟨hoffers, hflows⟩ := flvMux_flows rfl h.flvMux (Processor.stepped_of_step htask)
    exact ⟨{ h with flvMux := hoffers }, hflows⟩
  | flvSink wake task s htask => exact ⟨{ h with }, flvSink_flows rfl htask⟩

/-- The muxer has worked on some of the packets in their order, and the tags are some of those it made of them. -/
def Derived (packets : List EncodedPacket) (c : Chain) : Prop :=
  ∃ muxed, c.state.mux = (FlvMux.processAll {} muxed).1 ∧ c.tags.Sublist (FlvMux.processAll {} muxed).2 ∧
    (muxed ++ c.toMux).Sublist packets

theorem Derived.flows {packets : List EncodedPacket} {c c' : Chain} (h : Derived packets c) (hflows : Flows c c') :
    Derived packets c' := by
  obtain ⟨muxed, hmux, htags, hpkts⟩ := h
  cases hflows with
  | moves hmux' htags' hpkts' => exact ⟨muxed, hmux'.trans hmux, htags'.trans htags, (hpkts'.append_left muxed).trans hpkts⟩
  | muxes pkt hmux' htags' hpkts' =>
    have happend := processAll_append {} muxed [pkt]
    simp only [FlvMux.processAll, List.append_nil, ← hmux] at happend
    refine ⟨muxed ++ [pkt], ?_, ?_, ?_⟩
    · rw [happend, hmux']
    · rw [happend, htags']
      exact htags.append_right _
    · rw [List.append_assoc, List.singleton_append, ← hpkts']
      exact hpkts

theorem Derived.of_source {packets : List EncodedPacket} {c : Chain} (h : Derived packets c)
    (source : List EncodedPacket) (hsource : source.Sublist c.source) : Derived packets { c with source := source } := by
  obtain ⟨muxed, hmux, htags, hpkts⟩ := h
  exact ⟨muxed, hmux, htags, ((hsource.append_left _).append_left muxed).trans hpkts⟩

theorem ordered_initial (srcCapacity : ℕ) (packets : List EncodedPacket) :
    Ordered (Chain.initial srcCapacity packets) := ⟨trivial, trivial, trivial⟩

theorem derived_initial (srcCapacity : ℕ) (packets : List EncodedPacket) :
    Derived packets (Chain.initial srcCapacity packets) :=
  ⟨[], rfl, List.Sublist.refl _, List.Sublist.refl _⟩

theorem Chain.broadcasts_sublist_tags (c : Chain) : c.state.broadcasts.Sublist c.tags := by
  simp only [Chain.tags, List.append_assoc]
  exact List.sublist_append_left _ _

/-- Under any schedule, with cancellations and full pads at any point, what is broadcast is in the order of the
source: some of the tags the muxer makes of some of the packets. -/
theorem broadcasts_sublist (srcCapacity : ℕ) (packets : List EncodedPacket) (acts : List ChainAction) (c : Chain)
    (hrun : run Chain.step (Chain.initial srcCapacity packets) acts = some c) :
    ∃ muxed : List EncodedPacket, muxed.Sublist packets ∧
      c.state.broadcasts.Sublist (FlvMux.processAll {} muxed).2 := by
  have hinv : Ordered c ∧ Derived packets c :=
    run_invariant (I := fun c => Ordered c ∧ Derived packets c) (C := fun _ _ => True)
      (fun c a c' h _ hstep => ⟨(h.1.step hstep).1, h.2.flows (h.1.step hstep).2⟩)
      ⟨ordered_initial srcCapacity packets, derived_initial srcCapacity packets⟩ (eachStep_trivial _ _) hrun
  obtain ⟨muxed, -, htags, hpkts⟩ := hinv.2
  exact ⟨muxed, (List.sublist_append_left _ _).trans hpkts, c.broadcasts_sublist_tags.trans htags⟩

/-- The second packet finds the source pad full, and the first goes on to the hub. -/
def crowdedSchedule : List ChainAction :=
  [.send, .send, .otel .input, .otel .input, .seqCache .input, .seqCache .input, .flvMux .input, .flvMux .input,
    .flvSink .input, .flvSink .input]

theorem broadcasts_sublist_crowded :
    ∃ c ∈ run Chain.step (Chain.initial 1 twoPackets) crowdedSchedule, c.state.broadcasts.length = 1 ∧
      ∃ muxed : List EncodedPacket, muxed.Sublist twoPackets ∧
        c.state.broadcasts.Sublist (FlvMux.processAll {} muxed).2 := by
  have hrun : ∃ c ∈ run Chain.step (Chain.initial 1 twoPackets) crowdedSchedule, c.state.broadcasts.length = 1 := by
    decide
  obtain ⟨c, hc, hlength⟩ := hrun
  exact ⟨c, hc, hlength, broadcasts_sublist 1 twoPackets crowdedSchedule c hc⟩

/-! ## Cancelled tasks -/

/-- What goes through a task that may have ended. -/
def passing {α : Type} (ended : Bool) (items : List α) : List α := if ended then [] else items

/-- The tags there will be when the muxer is still to be given these packets and no further task is cancelled. -/
def Chain.fromMux (c : Chain) (pkts : List EncodedPacket) : List FlvTag :=
  c.state.broadcasts ++ c.flvSinkTask.inFlight ++
    passing c.flvSinkTask.isEnded (c.state.flv.queue ++ c.flvMuxTask.inFlight ++ (c.state.mux.processAll pkts).2)

def Chain.fromSeqCache (c : Chain) (pkts : List EncodedPacket) : List FlvTag :=
  c.fromMux (passing c.flvMuxTask.isEnded (c.state.seqFlv.queue ++ c.seqCacheTask.inFlight ++ pkts))

def Chain.fromOtel (c : Chain) (pkts : List EncodedPacket) : List FlvTag :=
  c.fromSeqCache (passing c.seqCacheTask.isEnded (c.state.otel.queue ++ c.otelTask.inFlight ++ pkts))

/-- The tags there will be when no further task is cancelled. -/
def Chain.leaving (c : Chain) : List FlvTag :=
  c.fromOtel (passing c.otelTask.isEnded (c.state.src.queue ++ c.source))

section Passing
variable {α : Type} {items more : List α}

@[simp] theorem passing_ended (items : List α) : passing true items = [] := rfl

@[simp] theorem passing_running (items : List α) : passing false items = items := rfl

theorem passing_mono (ended : Bool) (h : items <+: more) : passing ended items <+: passing ended more := by
  cases ended
  · exact h
  · exact List.nil_prefix

end Passing

theorem Chain.fromMux_mono (c : Chain) {pkts more : List EncodedPacket} (h : pkts <+: more) :
    c.fromMux pkts <+: c.fromMux more := by
  obtain ⟨later, rfl⟩ := h
  refine List.prefix_append_right_inj _ |>.mpr (passing_mono _ ?_)
  rw [processAll_append]
  exact List.prefix_append_right_inj _ |>.mpr (List.prefix_append _ _)

theorem Chain.fromSeqCache_mono (c : Chain) {pkts more : List EncodedPacket} (h : pkts <+: more) :
    c.fromSeqCache pkts <+: c.fromSeqCache more :=
  c.fromMux_mono (passing_mono _ (List.prefix_append_right_inj _ |>.mpr h))

theorem Chain.fromOtel_mono (c : Chain) {pkts more : List EncodedPacket} (h : pkts <+: more) :
    c.fromOtel pkts <+: c.fromOtel more :=
  c.fromSeqCache_mono (passing_mono _ (List.prefix_append_right_inj _ |>.mpr h))

/-- The task's next send goes to this pad. -/
def ProcessorTask.sendsTo {β : Type} (pad : ℕ) : ProcessorTask β → Bool
  | .offering _ next _ _ => next == pad
  | _ => false

/-- The step makes no send to a full pad of the FLV path. -/
def Unfilled (c : Chain) : ChainAction → Prop
  | .send => c.state.src.sendResult ≠ .full
  | .otel _ => c.otelTask.sendsTo 0 = true → c.state.otel.sendResult ≠ .full
  | .seqCache _ => c.seqCacheTask.sendsTo 0 = true → c.state.seqFlv.sendResult ≠ .full
  | .flvMux _ => c.flvMuxTask.sendsTo 0 = true → c.state.flv.sendResult ≠ .full
  | _ => True

instance (c : Chain) : (a : ChainAction) → Decidable (Unfilled c a)
  | .send => inferInstanceAs (Decidable (_ ≠ _))
  | .otel _ => inferInstanceAs (Decidable (_ → _))
  | .seqCache _ => inferInstanceAs (Decidable (_ → _))
  | .flvMux _ => inferInstanceAs (Decidable (_ → _))
  | .closeSource | .cancel | .flvSink _ | .hlsRecv | .hlsDrop => isTrue trivial

/-- No task has ended. -/
def Chain.running (c : Chain) : Bool :=
  !c.otelTask.isEnded && !c.seqCacheTask.isEnded && !c.flvMuxTask.isEnded && !c.flvSinkTask.isEnded

/-- A pad has its receiver until the task that receives from it ends. -/
structure Wired (c : Chain) : Prop where
  ordered : Ordered c
  src : c.state.src.receiverAlive = !c.otelTask.isEnded
  otel : c.state.otel.receiverAlive = !c.seqCacheTask.isEnded
  seqFlv : c.state.seqFlv.receiverAlive = !c.flvMuxTask.isEnded
  flv : c.state.flv.receiverAlive = !c.flvSinkTask.isEnded

theorem receiverAlive_send {α : Type} (pad : Pad α) (a : α) : (pad.send a).receiverAlive = pad.receiverAlive := by
  unfold Pad.send
  split <;> rfl

/-- An item sent to a pad that is not full is in it, or the task behind the pad has ended. -/
theorem passing_send {α : Type} {pad : Pad α} {ended : Bool} (halive : pad.receiverAlive = !ended)
    (hfull : pad.sendResult ≠ .full) (a : α) (rest : List α) :
    passing ended ((pad.send a).queue ++ rest) = passing ended (pad.queue ++ a :: rest) := by
  cases ended with
  | true => rfl
  | false =>
    have hok : pad.sendResult = .ok := by
      unfold Pad.sendResult at hfull ⊢
      simp only [halive, Bool.not_false, Bool.not_true, Bool.false_eq_true, if_false] at hfull ⊢
      split at hfull
      · next hroom => rw [if_pos hroom]
      · exact absurd rfl hfull
    simp [Pad.send, hok]

/-- A step keeps the chain wired; the tags there will be are those there would have been, or a first part of them when
a task has ended. -/
structure Shortens (c c' : Chain) : Prop where
  wired : Wired c'
  leaving : c'.leaving = c.leaving ∨ c'.running = false ∧ c'.leaving <+: c.leaving

theorem otel_shortens {c : Chain} {task task' : ProcessorTask EncodedPacket} {s : ChainState} (h : Wired c)
    (htask : c.otelTask = task) (hfull : task.sendsTo 0 = true → c.state.otel.sendResult ≠ .full)
    (hstep : otelProbe.Stepped c.cancelled c.state task task' s) :
    Shortens c { c with otelTask := task', state := s } := by
  have hoffers := h.ordered.otel
  have hsrc := h.src
  rw [htask] at hoffers hsrc
  have hordered : Ordered { c with otelTask := task', state := s } :=
    { h.ordered with otel := (otel_flows htask hoffers hstep).1 }
  cases hstep with
  | cancelled | inputEnded =>
    refine ⟨{ h with ordered := hordered, src := rfl, otel := h.otel }, .inr ⟨rfl, ?_⟩⟩
    refine c.fromSeqCache_mono (passing_mono _ ?_)
    simp [otelProbe, htask, Pad.dropSender, ProcessorTask.inFlight, ProcessorTask.isEnded]
  | unwanted hwanted => cases hwanted
  | packet pkt hpkt =>
    refine ⟨{ h with ordered := hordered, src := hsrc, otel := h.otel }, .inl (congrArg c.fromSeqCache ?_)⟩
    simp [otelProbe, htask, ProcessorTask.deliver, ProcessorTask.inFlight, ProcessorTask.isEnded,
      recv_queue hpkt]
  | offer item pad pads results =>
    have hpad : pad = 0 := by simpa [otelProbe] using hoffers.subset List.mem_cons_self
    have hsend := passing_send h.otel (hfull (by simp [ProcessorTask.sendsTo, hpad])) item
    refine ⟨{ h with ordered := hordered, src := ?_, otel := (receiverAlive_send _ _).trans h.otel }, ?_⟩
    · rw [Processor.isEnded_afterSend]
      exact hsrc
    · refine .inl (congrArg c.fromSeqCache ?_)
      simp only [Processor.inFlight_afterSend _ rfl (by simp) hoffers, Processor.isEnded_afterSend, htask]
      simp only [otelProbe, List.append_assoc, hsend]
      simp [ProcessorTask.inFlight, ProcessorTask.isEnded, hpad]

theorem seqCache_shortens {c : Chain} {task task' : ProcessorTask EncodedPacket} {s : ChainState} (h : Wired c)
    (htask : c.seqCacheTask = task) (hfull : task.sendsTo 0 = true → c.state.seqFlv.sendResult ≠ .full)
    (hstep : seqCacheProbe.Stepped c.cancelled c.state task task' s) :
    Shortens c { c with seqCacheTask := task', state := s } := by
  have hoffers := h.ordered.seqCache
  have hotel := h.otel
  rw [htask] at hoffers hotel
  have hordered : Ordered { c with seqCacheTask := task', state := s } :=
    { h.ordered with seqCache := (seqCache_flows htask hoffers hstep).1 }
  cases hstep with
  | cancelled | inputEnded =>
    refine ⟨{ h with ordered := hordered, otel := rfl, seqFlv := h.seqFlv }, .inr ⟨?_, ?_⟩⟩
    · simp [Chain.running, ProcessorTask.isEnded]
    · refine c.fromMux_mono (passing_mono _ ?_)
      simp [seqCacheProbe, htask, Pad.dropSender, ProcessorTask.inFlight, ProcessorTask.isEnded]
  | unwanted hwanted => cases hwanted
  | packet pkt hpkt =>
    refine ⟨{ h with ordered := hordered, otel := hotel, seqFlv := h.seqFlv }, .inl (congrArg c.fromMux ?_)⟩
    simp [seqCacheProbe, SeqCacheProbe.process, htask, ProcessorTask.deliver, ProcessorTask.inFlight,
      ProcessorTask.isEnded, recv_queue hpkt]
  | offer item pad pads results =>
    have hflight : (seqCacheProbe.afterSend item pads results
        (seqCacheProbe.send pad item c.state).2).inFlight = results :=
      Processor.inFlight_afterSend _ rfl (by simp) hoffers
    by_cases hpad : pad = 0
    · subst hpad
      have hsend := passing_send h.seqFlv (hfull rfl) item
      refine ⟨{ h with ordered := hordered, otel := ?_, seqFlv := (receiverAlive_send _ _).trans h.seqFlv }, ?_⟩
      · rw [Processor.isEnded_afterSend]
        exact hotel
      · refine .inl (congrArg c.fromMux ?_)
        simp only [hflight, Processor.isEnded_afterSend, htask]
        simp only [seqCacheProbe, if_pos, List.append_assoc, hsend]
        simp [ProcessorTask.inFlight, ProcessorTask.isEnded]
    · -- the copy for the HLS branch
      have hs : (seqCacheProbe.send pad item c.state).1 = { c.state with seqHls := c.state.seqHls.send item } := by
        simp [seqCacheProbe, hpad]
      rw [hs] at hordered ⊢
      refine ⟨{ h with ordered := hordered, otel := ?_, seqFlv := h.seqFlv }, .inl (congrArg c.fromMux ?_)⟩
      · rw [Processor.isEnded_afterSend]
        exact hotel
      · simp only [hflight, Processor.isEnded_afterSend, htask]
        simp [ProcessorTask.inFlight, ProcessorTask.isEnded, hpad]

theorem flvMux_shortens {c : Chain} {task task' : ProcessorTask FlvTag} {s : ChainState} (h : Wired c)
    (htask : c.flvMuxTask = task) (hfull : task.sendsTo 0 = true → c.state.flv.sendResult ≠ .full)
    (hstep : flvMux.Stepped c.cancelled c.state task task' s) :
    Shortens c { c with flvMuxTask := task', state := s } := by
  have hoffers := h.ordered.flvMux
  have hseq := h.seqFlv
  rw [htask] at hoffers hseq
  have hordered : Ordered { c with flvMuxTask := task', state := s } :=
    { h.ordered with flvMux := (flvMux_flows htask hoffers hstep).1 }
  cases hstep with
  | cancelled | inputEnded =>
    refine ⟨{ h with ordered := hordered, seqFlv := rfl, flv := h.flv }, .inr ⟨?_, ?_⟩⟩
    · simp [Chain.running, ProcessorTask.isEnded]
    · refine List.prefix_append_right_inj _ |>.mpr (passing_mono _ ?_)
      simp [flvMux, htask, Pad.dropSender, ProcessorTask.inFlight, ProcessorTask.isEnded, FlvMux.processAll]
  | unwanted =>
    refine ⟨{ h with ordered := hordered, seqFlv := hseq }, .inl ?_⟩
    rw [← htask]
  | packet pkt hpkt =>
    refine ⟨{ h with ordered := hordered, seqFlv := ?_, flv := h.flv }, ?_⟩
    · rw [isEnded_deliver]
      exact hseq
    · refine .inl (congrArg (c.state.broadcasts ++ c.flvSinkTask.inFlight ++ passing c.flvSinkTask.isEnded ·) ?_)
      simp only [flvMux, inFlight_deliver, isEnded_deliver, htask]
      simp [ProcessorTask.inFlight, ProcessorTask.isEnded, FlvMux.processAll, recv_queue hpkt]
  | offer item pad pads results =>
    have hpad : pad = 0 := by simpa [flvMux] using hoffers.subset List.mem_cons_self
    have hsend := passing_send h.flv (hfull (by simp [ProcessorTask.sendsTo, hpad])) item
    refine ⟨{ h with ordered := hordered, seqFlv := ?_, flv := (receiverAlive_send _ _).trans h.flv }, ?_⟩
    · rw [Processor.isEnded_afterSend]
      exact hseq
    · refine .inl (congrArg (c.state.broadcasts ++ c.flvSinkTask.inFlight ++ ·) ?_)
      simp only [Processor.inFlight_afterSend _ rfl (by simp) hoffers, Processor.isEnded_afterSend, htask]
      simp only [flvMux, List.append_assoc, hsend]
      simp [ProcessorTask.inFlight, ProcessorTask.isEnded, hpad]

theorem flvSink_shortens {c : Chain} {task task' : SinkTask} {s : ChainState} (h : Wired c)
    (htask : c.flvSinkTask = task) (hstep : SinkStepped c.cancelled task c.state task' s) :
    Shortens c { c with flvSinkTask := task', state := s } := by
  have hflv := h.flv
  rw [htask] at hflv
  cases hstep with
  | ended =>
    refine ⟨{ h with ordered := { h.ordered with }, flv := rfl }, .inr ⟨?_, ?_⟩⟩
    · simp [Chain.running, SinkTask.isEnded]
    · simp [Chain.leaving, Chain.fromOtel, Chain.fromSeqCache, Chain.fromMux, htask, SinkTask.inFlight,
        SinkTask.isEnded]
  | received _ tag htag =>
    refine ⟨{ h with ordered := { h.ordered with }, flv := hflv }, .inl ?_⟩
    simp [Chain.leaving, Chain.fromOtel, Chain.fromSeqCache, Chain.fromMux, htask, SinkTask.inFlight, SinkTask.isEnded,
      recv_queue htag]
  | consumed _ tag =>
    refine ⟨{ h with ordered := { h.ordered with }, flv := hflv }, .inl ?_⟩
    simp [Chain.leaving, Chain.fromOtel, Chain.fromSeqCache, Chain.fromMux, htask, SinkTask.inFlight, SinkTask.isEnded]

theorem Wired.step {c c' : Chain} {a : ChainAction} (h : Wired c) (ha : Unfilled c a) (hstep : c.step a = some c') :
    Shortens c c' := by
  cases Chain.stepped_of_step hstep with
  | send pkt pkts hsource =>
    refine ⟨{ h with ordered := { h.ordered with }, src := (receiverAlive_send _ _).trans h.src }, .inl ?_⟩
    refine congrArg c.fromOtel ?_
    simp only [hsource, passing_send h.src ha pkt pkts]
  | closeSource | cancel | hlsRecv | hlsDrop => exact ⟨{ h with ordered := { h.ordered with } }, .inl rfl⟩
  | otel wake task s htask => exact otel_shortens h rfl ha (Processor.stepped_of_step htask)
  | seqCache wake task s htask => exact seqCache_shortens h rfl ha (Processor.stepped_of_step htask)
  | flvMux wake task s htask => exact flvMux_shortens h rfl ha (Processor.stepped_of_step htask)
  | flvSink wake task s htask => exact flvSink_shortens h rfl htask

theorem Shortens.shorter {c c' : Chain} (h : Shortens c c') : c'.leaving <+: c.leaving := by
  rcases h.leaving with heq | ⟨-, hprefix⟩
  · rw [heq]
  · exact hprefix

theorem wired_initial (srcCapacity : ℕ) (packets : List EncodedPacket) : Wired (Chain.initial srcCapacity packets) :=
  ⟨ordered_initial srcCapacity packets, rfl, rfl, rfl, rfl⟩

theorem Chain.broadcasts_prefix_leaving (c : Chain) : c.state.broadcasts <+: c.leaving := by
  simp only [Chain.leaving, Chain.fromOtel, Chain.fromSeqCache, Chain.fromMux, List.append_assoc]
  exact List.prefix_append _ _

/-- While no pad of the FLV path is full, what is broadcast is a first part of what the muxer makes of the source's
packets, whenever the stream is cancelled, in whichever order its tasks see it, and whatever the HLS branch does. -/
theorem broadcasts_prefix_of_unfilled (srcCapacity : ℕ) (packets : List EncodedPacket) (acts : List ChainAction) (c : Chain)
    (hroom : EachStep Chain.step Unfilled (Chain.initial srcCapacity packets) acts)
    (hrun : run Chain.step (Chain.initial srcCapacity packets) acts = some c) :
    c.state.broadcasts <+: (FlvMux.processAll {} packets).2 := by
  have hinv : Wired c ∧ c.leaving <+: (FlvMux.processAll {} packets).2 :=
    run_invariant (I := fun c => Wired c ∧ c.leaving <+: (FlvMux.processAll {} packets).2) (C := Unfilled)
      (fun c a c' h ha hstep => ⟨(h.1.step ha hstep).wired, (h.1.step ha hstep).shorter.trans h.2⟩)
      ⟨wired_initial srcCapacity packets, List.prefix_refl _⟩ hroom hrun
  exact c.broadcasts_prefix_leaving.trans hinv.2

/-- A source with less to send: what there will be is a first part of what there would have been. -/
theorem Chain.leaving_of_source (c : Chain) {source more : List EncodedPacket} (h : source <+: more) :
    { c with source := source }.leaving <+: { c with source := more }.leaving :=
  c.fromOtel_mono (passing_mono _ (List.prefix_append_right_inj _ |>.mpr h))

theorem Processor.isEnded_of_step {σ α β : Type} {P : Processor σ α β} {cancelled : Bool} {wake : Wake}
    {task task' : ProcessorTask β} {s s' : σ} (h : P.step cancelled wake task s = some (task', s'))
    (hended : task'.isEnded = true) : cancelled = true ∨ P.recvResult s = .closed := by
  cases Processor.stepped_of_step h with
  | cancelled hcancelled => exact .inl hcancelled
  | unwanted => cases hended
  | packet =>
    rw [isEnded_deliver] at hended
    cases hended
  | inputEnded hclosed => exact .inr hclosed
  | offer =>
    rw [Processor.isEnded_afterSend] at hended
    cases hended

/-- The second packet is in the pad of OTelProbe when the stream is cancelled. -/
def cancelledSchedule : List ChainAction :=
  [.send, .otel .input, .otel .input, .send, .seqCache .input, .seqCache .input, .cancel, .otel .cancelled,
    .flvMux .input, .seqCache .input, .seqCache .cancelled, .flvMux .input, .flvSink .input, .flvSink .input]

theorem broadcasts_prefix_of_cancelled_run :
    ∃ c ∈ run Chain.step (Chain.initial 4 twoPackets) cancelledSchedule, c.state.broadcasts.length = 1 ∧
      c.state.broadcasts <+: (FlvMux.processAll {} twoPackets).2 := by
  have hrun : ∃ c ∈ run Chain.step (Chain.initial 4 twoPackets) cancelledSchedule, c.state.broadcasts.length = 1 := by
    decide
  obtain ⟨c, hc, hlength⟩ := hrun
  exact ⟨c, hc, hlength, broadcasts_prefix_of_unfilled 4 twoPackets cancelledSchedule c (by decide) hc⟩

/-! ## The HLS branch -/

/-- A task takes the same step in a state and in a view of it that its node works on in the same way. -/
theorem Processor.step_view {σ α β : Type} (P : Processor σ α β) (f : σ → σ) (cancelled : Bool) (wake : Wake)
    (task : ProcessorTask β) {s : σ} (hview : f (f s) = f s) (hwanted : P.shouldProcess (f s) = P.shouldProcess s)
    (hrecv : P.recvResult (f s) = P.recvResult s)
    (hprocess : ∀ pkt, Prod.map f id (P.process pkt (P.recv (f s))) = Prod.map f id (P.process pkt (P.recv s)))
    (hsend : ∀ item pad pads results, task = .offering item pad pads results →
      P.afterSend item pads results (P.send pad item (f s)).2 = P.afterSend item pads results (P.send pad item s).2 ∧
        f (P.send pad item (f s)).1 = f (P.send pad item s).1)
    (hdrop : f (P.drop (f s)) = f (P.drop s)) :
    (P.step cancelled wake task (f s)).map (Prod.map id f) = (P.step cancelled wake task s).map (Prod.map id f) := by
  cases task with
  | looping =>
    cases wake with
    | cancelled =>
      simp only [Processor.step]
      split
      · simp [hdrop]
      · rfl
    | input =>
      simp only [Processor.step, hwanted, hrecv]
      split
      · simp [hview]
      · split
        · next pkt _ =>
          obtain ⟨hstate, hresults⟩ := Prod.ext_iff.mp (hprocess pkt)
          simp only [Prod.map_fst, Prod.map_snd, id_eq] at hstate hresults
          simp [hstate, hresults]
        · simp [hdrop]
        · rfl
  | offering item pad pads results =>
    obtain ⟨hafter, hstate⟩ := hsend item pad pads results rfl
    simp [Processor.step, hafter, hstate]
  | ended => rfl

/-- The shared state but for the pad to the HLS branch. -/
def ChainState.flvView (s : ChainState) : ChainState := { s with seqHls := { capacity := 256 } }

def Chain.flvView (c : Chain) : Chain := { c with state := c.state.flvView }

def ChainAction.ofHls : ChainAction → Bool
  | .hlsRecv | .hlsDrop => true
  | _ => false

/-- The send to the HLS pad is the last one of an item: the task goes on in the same way whatever comes of it. -/
theorem seqCache_send_view {s : ChainState} {item : EncodedPacket} {pad : ℕ} {pads : List ℕ}
    {results : List EncodedPacket} (hoffers : pad :: pads <:+ seqCacheProbe.outputs) :
    seqCacheProbe.afterSend item pads results (seqCacheProbe.send pad item s.flvView).2 =
        seqCacheProbe.afterSend item pads results (seqCacheProbe.send pad item s).2 ∧
      (seqCacheProbe.send pad item s.flvView).1.flvView = (seqCacheProbe.send pad item s).1.flvView := by
  by_cases hpad : pad = 0
  · subst hpad
    exact ⟨rfl, rfl⟩
  · have hpads : pads = [] := by
      rcases List.suffix_cons_iff.mp hoffers with heq | hsuffix
      · exact absurd (List.cons.inj heq).1 hpad
      · rcases List.suffix_cons_iff.mp hsuffix with heq | hnil
        · exact (List.cons.inj heq).2
        · exact absurd (List.suffix_nil.mp hnil) (by simp)
    subst hpads
    refine ⟨?_, by simp [seqCacheProbe, hpad, ChainState.flvView]⟩
    simp [Processor.afterSend]

theorem stepSink_view (cancelled : Bool) (wake : Wake) (task : SinkTask) (s : ChainState) :
    (stepSink cancelled wake task s.flvView).map (Prod.map id ChainState.flvView) =
      (stepSink cancelled wake task s).map (Prod.map id ChainState.flvView) := by
  cases task with
  | looping =>
    cases wake with
    | cancelled => cases cancelled <;> rfl
    | input =>
      simp only [stepSink, ChainState.flvView]
      split <;> rfl
  | consuming | ended => rfl

theorem Chain.step_view {c : Chain} (h : Ordered c) (a : ChainAction) :
    (c.flvView.step a).map flvView = (c.step a).map flvView := by
  cases a with
  | send =>
    cases hsource : c.source <;> cases hopen : c.sourceOpen <;>
      simp [Chain.step, Chain.flvView, ChainState.flvView, hsource, hopen]
  | closeSource => cases hsource : c.source <;> simp [Chain.step, Chain.flvView, ChainState.flvView, hsource]
  | cancel | hlsRecv | hlsDrop => rfl
  | otel wake =>
    have hview := otelProbe.step_view ChainState.flvView c.cancelled wake c.otelTask (s := c.state) rfl rfl rfl
      (fun _ => rfl) (fun _ _ _ _ _ => ⟨rfl, rfl⟩) rfl
    have hchain := congrArg (Option.map fun p => { c with otelTask := p.1, state := p.2 }) hview
    rw [Option.map_map, Option.map_map] at hchain
    simp only [Chain.step, Option.map_map]
    exact hchain
  | seqCache wake =>
    have hoffers := h.seqCache
    have hview := seqCacheProbe.step_view ChainState.flvView c.cancelled wake c.seqCacheTask (s := c.state) rfl rfl rfl
      (fun _ => rfl) (fun _ _ _ _ htask => seqCache_send_view (by rw [htask] at hoffers; exact hoffers)) rfl
    have hchain := congrArg (Option.map fun p => { c with seqCacheTask := p.1, state := p.2 }) hview
    rw [Option.map_map, Option.map_map] at hchain
    simp only [Chain.step, Option.map_map]
    exact hchain
  | flvMux wake =>
    have hview := Pipeline.flvMux.step_view ChainState.flvView c.cancelled wake c.flvMuxTask (s := c.state) rfl rfl rfl
      (fun _ => rfl) (fun _ _ _ _ _ => ⟨rfl, rfl⟩) rfl
    have hchain := congrArg (Option.map fun p => { c with flvMuxTask := p.1, state := p.2 }) hview
    rw [Option.map_map, Option.map_map] at hchain
    simp only [Chain.step, Option.map_map]
    exact hchain
  | flvSink wake =>
    have hview := stepSink_view c.cancelled wake c.flvSinkTask c.state
    have hchain := congrArg (Option.map fun p => { c with flvSinkTask := p.1, state := p.2 }) hview
    rw [Option.map_map, Option.map_map] at hchain
    simp only [Chain.step, Option.map_map]
    exact hchain

/-- The HLS branch cannot be told from the FLV path: at any schedule the path is where it would be had the branch never
received a packet nor dropped its pad. -/
theorem flvView_run_eq (srcCapacity : ℕ) (packets : List EncodedPacket) (acts : List ChainAction) :
    (run Chain.step (Chain.initial srcCapacity packets) acts).map Chain.flvView =
      (run Chain.step (Chain.initial srcCapacity packets) (acts.filter fun a => !a.ofHls)).map Chain.flvView := by
  refine run_filter_unseen (I := Ordered) (fun c a c' h hstep => (h.step hstep).1) ?_ ?_ (ordered_initial _ _)
    (ordered_initial _ _) rfl acts
  · intro c a ha
    cases a with
    | hlsRecv | hlsDrop => rfl
    | _ => cases ha
  · intro c d a hc hd hcd
    rw [← Chain.step_view hc, ← Chain.step_view hd, hcd]

/-! ## What a pad can hold -/

theorem sendResult_closed_iff {α : Type} {pad : Pad α} : pad.sendResult = .closed ↔ pad.receiverAlive = false := by
  unfold Pad.sendResult
  cases pad.receiverAlive with
  | true => by_cases hroom : pad.queue.length < pad.capacity <;> simp [hroom]
  | false => simp

theorem sendResult_ok_iff {α : Type} {pad : Pad α} :
    pad.sendResult = .ok ↔ pad.receiverAlive = true ∧ pad.queue.length < pad.capacity := by
  unfold Pad.sendResult
  cases pad.receiverAlive with
  | true => by_cases hroom : pad.queue.length < pad.capacity <;> simp [hroom]
  | false => simp

/-- A pad of this capacity that holds no more than it. -/
structure Fits {α : Type} (room : ℕ) (pad : Pad α) : Prop where
  capacity : pad.capacity = room
  length : pad.queue.length ≤ room

namespace Fits
variable {α : Type} {room : ℕ} {pad : Pad α}

theorem send (h : Fits room pad) (a : α) : Fits room (pad.send a) := by
  unfold Pad.send
  split
  · next hok =>
    have hroom := (sendResult_ok_iff.mp hok).2
    refine ⟨h.capacity, ?_⟩
    rw [h.capacity] at hroom
    simpa using hroom
  · exact h

theorem recv (h : Fits room pad) : Fits room pad.recv :=
  ⟨h.capacity, by simpa [Pad.recv] using Nat.le_succ_of_le h.length⟩

theorem dropSender (h : Fits room pad) : Fits room pad.dropSender := ⟨h.capacity, h.length⟩

theorem dropReceiver (h : Fits room pad) : Fits room pad.dropReceiver := ⟨h.capacity, h.length⟩

end Fits

end LivestreamRs.Pipeline
