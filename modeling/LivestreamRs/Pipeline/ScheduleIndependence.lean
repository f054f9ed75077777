import LivestreamRs.Pipeline.Conservation

/-! # The FLV path does not depend on the schedule

When all tasks have ended, nothing is left in the chain, so what was broadcast is the output the chain had from
the start. A chain that has not ended can always take a step that brings it nearer to its end: the task
furthest down that is not waiting can run, and its output pad has room.
-/
namespace LivestreamRs.Pipeline
open Media Foundations
set_option autoImplicit false

/-! ## A chain that can go on -/

/-- The steps left for a batch in `SeqCacheProbe`, whose items go to two pads. -/
def seqCacheWork : ProcessorTask EncodedPacket → ℕ
  | .offering _ pad _ results => (if pad = 0 then 7 else 2) + 7 * results.length
  | _ => 0

/-- A bound on the steps left: each packet and tag counts for the steps it still takes, and each task that
runs for the step in which it ends. -/
def Chain.work (c : Chain) : ℕ :=
  11 * c.source.length + 10 * c.state.src.queue.length + 9 * c.otelTask.inFlight.length +
    8 * c.state.otel.queue.length + seqCacheWork c.seqCacheTask + 4 * c.state.seqFlv.queue.length +
    c.state.seqHls.queue.length + 3 * c.flvMuxTask.inFlight.length + 2 * c.state.flv.queue.length +
    c.flvSinkTask.inFlight.length + c.sourceOpen.toNat + (!c.otelTask.isEnded).toNat +
    (!c.seqCacheTask.isEnded).toNat + (!c.flvMuxTask.isEnded).toNat + (!c.flvSinkTask.isEnded).toNat

structure Roomy (s : ChainState) : Prop where
  src : 0 < s.src.capacity
  otel : 0 < s.otel.capacity
  seqFlv : 0 < s.seqFlv.capacity
  seqHls : 0 < s.seqHls.capacity
  flv : 0 < s.flv.capacity

theorem send_capacity {α : Type} (pad : Pad α) (a : α) : (pad.send a).capacity = pad.capacity := by
  unfold Pad.send
  split <;> rfl

/-- The pads keep their capacities. -/
theorem Roomy.step {c c' : Chain} {a : ChainAction} (h : Roomy c.state) (hstep : c.step a = some c') :
    Roomy c'.state := by
  cases Chain.stepped_of_step hstep with
  | send pkt pkts => exact { h with src := by rw [send_capacity]; exact h.src }
  | closeSource | cancel | hlsRecv | hlsDrop => exact { h with }
  | otel wake task s htask =>
    refine Processor.step_keeps (fun s hs => { hs with }) (fun pkt s hs => hs) (fun pad pkt s hs => ?_)
      (fun _ => { h with }) h htask
    exact { hs with otel := by rw [otelProbe, send_capacity]; exact hs.otel }
  | seqCache wake task s htask =>
    refine Processor.step_keeps (fun s hs => { hs with }) (fun pkt s hs => { hs with }) (fun pad pkt s hs => ?_)
      (fun _ => { h with }) h htask
    by_cases hpad : pad = 0
    · simp only [seqCacheProbe, hpad, if_true]
      exact { hs with seqFlv := by rw [send_capacity]; exact hs.seqFlv }
    · simp only [seqCacheProbe, hpad, if_false]
      exact { hs with seqHls := by rw [send_capacity]; exact hs.seqHls }
  | flvMux wake task s htask =>
    refine Processor.step_keeps (fun s hs => { hs with }) (fun pkt s hs => { hs with }) (fun pad tag s hs => ?_)
      (fun _ => { h with }) h htask
    exact { hs with flv := by rw [flvMux, send_capacity]; exact hs.flv }
  | flvSink wake task s htask =>
    generalize c.flvSinkTask = before at htask
    cases htask <;> exact { h with }

theorem roomy_initial (srcCapacity : ℕ) (packets : List EncodedPacket) (hcapacity : 0 < srcCapacity) :
    Roomy (Chain.initial srcCapacity packets).state := by
  constructor <;> simp [Chain.initial, hcapacity]

/-- A step that brings the chain nearer to its end. -/
def Chain.Advances (c : Chain) : Prop :=
  ∃ a c', Undisturbed c a ∧ c.step a = some c' ∧ c'.work < c.work

theorem sendResult_ne_full {α : Type} {pad : Pad α} (hcap : 0 < pad.capacity) (hqueue : pad.queue = []) :
    pad.sendResult ≠ .full := by
  unfold Pad.sendResult
  rw [hqueue]
  split <;> simp [hcap]

theorem send_length_le {α : Type} (pad : Pad α) (a : α) : (pad.send a).queue.length ≤ pad.queue.length + 1 := by
  unfold Pad.send
  split <;> simp

theorem Linked.waiting {α : Type} {pad : Pad α} {up down : Bool} (h : Linked pad up down)
    (hwait : pad.recvResult = .waiting) : pad.queue = [] ∧ up = false := by
  unfold Pad.recvResult at hwait
  split at hwait
  · cases hwait
  · next hqueue =>
    split at hwait
    · next hsender => exact ⟨hqueue, by simpa [h.sender] using hsender⟩
    · cases hwait

theorem process_length_le (mux : FlvMux) (pkt : EncodedPacket) : (mux.process pkt).2.length ≤ 1 := by
  unfold FlvMux.process
  split <;> simp [FlvMux.muxVideo, FlvMux.muxAudio]

theorem source_advances {c : Chain} (h : Healthy c) (hroom : Roomy c.state) (hqueue : c.state.src.queue = [])
    (hopen : c.sourceOpen = true) : c.Advances := by
  have hsrc := h.src
  rw [hopen] at hsrc
  cases hsource : c.source with
  | nil =>
    refine ⟨.closeSource, { c with state := { c.state with src := c.state.src.dropSender }, sourceOpen := false },
      trivial, by simp only [Chain.step, hsource], ?_⟩
    simp [Chain.work, hopen, Pad.dropSender]
  | cons pkt pkts =>
    have hfull := sendResult_ne_full hroom.src hqueue
    refine ⟨.send, { c with state := { c.state with src := c.state.src.send pkt }, source := pkts },
      hfull, by simp only [Chain.step, hsource, hopen, if_true], ?_⟩
    simp only [Chain.work, hsource, hsrc.send_eq hfull, List.length_append, List.length_cons, List.length_nil]
    omega

/-- `OTelProbe` can run, or it waits for the source. -/
theorem otel_advances {c : Chain} (h : Healthy c) (hroom : Roomy c.state) (hqueue : c.state.otel.queue = [])
    (hrun : c.otelTask.isEnded = false) : c.Advances := by
  have hotel := h.otel
  rw [hrun] at hotel
  have hoffers := h.otelOffers
  have hfull := sendResult_ne_full hroom.otel hqueue
  have hadvance : ∀ task s, otelProbe.step c.cancelled .input c.otelTask c.state = some (task, s) →
      ({ c with otelTask := task, state := s } : Chain).work < c.work → c.Advances := by
    intro task s hstep hwork
    refine ⟨.otel .input, _, ?_, by rw [Chain.step, hstep]; rfl, hwork⟩
    cases htask : c.otelTask <;> simp [Undisturbed, Processor.nextSend, htask, otelProbe, hfull]
  cases htask : c.otelTask with
  | ended => rw [htask] at hrun; cases hrun
  | looping =>
    rw [htask] at hadvance
    cases hrecv : c.state.src.recvResult with
    | waiting =>
      obtain ⟨hsrc, hopen⟩ := h.src.waiting hrecv
      exact source_advances h hroom hsrc (by simpa using hopen)
    | closed =>
      refine hadvance _ _ (Processor.step_inputEnded rfl hrecv) ?_
      simp [Chain.work, htask, otelProbe, ProcessorTask.isEnded, ProcessorTask.inFlight, Pad.dropReceiver,
        Pad.dropSender]
    | item pkt =>
      refine hadvance _ _ (Processor.step_packet rfl hrecv) ?_
      simp [Chain.work, htask, otelProbe, ProcessorTask.isEnded, ProcessorTask.inFlight, ProcessorTask.deliver,
        recv_queue hrecv]
      omega
  | offering item pad pads results =>
    rw [htask] at hadvance hoffers
    have hpad : pad = 0 := by simpa [otelProbe] using hoffers.subset List.mem_cons_self
    refine hadvance _ _ rfl ?_
    simp only [Chain.work, Processor.inFlight_afterSend _ rfl (by simp) hoffers, Processor.isEnded_afterSend, htask]
    simp [otelProbe, hotel.send_eq hfull, ProcessorTask.inFlight, ProcessorTask.isEnded, hpad]
    omega

theorem seqCacheWork_deliver (results : List EncodedPacket) :
    seqCacheWork (.deliver seqCacheProbe.outputs results) = 7 * results.length := by
  cases results with
  | nil => rfl
  | cons item results =>
    simp only [seqCacheProbe, ProcessorTask.deliver, seqCacheWork, List.length_cons, if_true]
    omega

/-- `SeqCacheProbe` can run, once the HLS branch has made room for it, or it waits for `OTelProbe`. -/
theorem seqCache_advances {c : Chain} (h : Healthy c) (hroom : Roomy c.state) (hqueue : c.state.seqFlv.queue = [])
    (hrun : c.seqCacheTask.isEnded = false) : c.Advances := by
  have hseq := h.seqFlv
  rw [hrun] at hseq
  have hoffers := h.seqCacheOffers
  have hfull := sendResult_ne_full hroom.seqFlv hqueue
  by_cases hhls : c.state.seqHls.sendResult = .full
  · have hlong : c.state.seqHls.queue ≠ [] := fun hnil => sendResult_ne_full hroom.seqHls hnil hhls
    refine ⟨.hlsRecv, _, trivial, rfl, ?_⟩
    have := List.length_pos_iff.mpr hlong
    simp [Chain.work, Pad.recv]
    omega
  have hadvance : ∀ task s, seqCacheProbe.step c.cancelled .input c.seqCacheTask c.state = some (task, s) →
      ({ c with seqCacheTask := task, state := s } : Chain).work < c.work → c.Advances := by
    intro task s hstep hwork
    refine ⟨.seqCache .input, _, ?_, by rw [Chain.step, hstep]; rfl, hwork⟩
    cases htask : c.seqCacheTask with
    | looping | ended => simp [Undisturbed, Processor.nextSend, htask]
    | offering item pad pads results =>
      by_cases hpad : pad = 0 <;>
        simp [Undisturbed, Processor.nextSend, htask, seqCacheProbe, hpad, hfull, hhls]
  cases htask : c.seqCacheTask with
  | ended => rw [htask] at hrun; cases hrun
  | looping =>
    rw [htask] at hadvance
    cases hrecv : c.state.otel.recvResult with
    | waiting =>
      obtain ⟨hotel, hup⟩ := h.otel.waiting hrecv
      exact otel_advances h hroom hotel hup
    | closed =>
      refine hadvance _ _ (Processor.step_inputEnded rfl hrecv) ?_
      simp [Chain.work, htask, seqCacheProbe, ProcessorTask.isEnded, seqCacheWork, Pad.dropReceiver,
        Pad.dropSender]
    | item pkt =>
      refine hadvance _ _ (Processor.step_packet rfl hrecv) ?_
      simp only [Chain.work, htask, seqCacheWork_deliver, isEnded_deliver]
      simp [seqCacheProbe, SeqCacheProbe.process, ProcessorTask.isEnded, seqCacheWork, recv_queue hrecv]
      omega
  | offering item pad pads results =>
    rw [htask] at hadvance hoffers
    refine hadvance _ _ rfl ?_
    simp only [Chain.work, Processor.isEnded_afterSend, htask]
    have hpads : (pad = 0 ∧ pads = [1]) ∨ (pad = 1 ∧ pads = []) := by
      simpa [ProcessorTask.OffersTo, seqCacheProbe, List.suffix_cons_iff] using hoffers
    rcases hpads with ⟨rfl, rfl⟩ | ⟨rfl, rfl⟩
    · -- the copy for the FLV path has been sent, the one for the HLS branch is next
      have hok : (seqCacheProbe.send 0 item c.state).2 = .ok := hseq.sendResult_eq_ok hfull
      have hnext : seqCacheProbe.afterSend item [1] results .ok = .offering item 1 [] results := rfl
      rw [hok, hnext]
      simp [seqCacheProbe, hseq.send_eq hfull, seqCacheWork, ProcessorTask.isEnded]
      omega
    · have hnext : ∀ result, seqCacheProbe.afterSend item [] results result =
          .deliver seqCacheProbe.outputs results := by
        intro result
        simp [Processor.afterSend]
      have hgrow := send_length_le c.state.seqHls item
      rw [hnext, seqCacheWork_deliver]
      simp [seqCacheProbe, seqCacheWork, ProcessorTask.isEnded]
      omega

/-- `FlvMux` can run, or it waits for `SeqCacheProbe`. -/
theorem flvMux_advances {c : Chain} (h : Healthy c) (hroom : Roomy c.state) (hqueue : c.state.flv.queue = [])
    (hsink : c.flvSinkTask.isEnded = false) (hrun : c.flvMuxTask.isEnded = false) : c.Advances := by
  have hflv := h.flv
  rw [hrun] at hflv
  have hoffers := h.flvMuxOffers
  have hfull := sendResult_ne_full hroom.flv hqueue
  have hadvance : ∀ task s, flvMux.step c.cancelled .input c.flvMuxTask c.state = some (task, s) →
      ({ c with flvMuxTask := task, state := s } : Chain).work < c.work → c.Advances := by
    intro task s hstep hwork
    refine ⟨.flvMux .input, _, ?_, by rw [Chain.step, hstep]; rfl, hwork⟩
    cases htask : c.flvMuxTask <;> simp [Undisturbed, Processor.nextSend, htask, flvMux, hfull]
  cases htask : c.flvMuxTask with
  | ended => rw [htask] at hrun; cases hrun
  | looping =>
    rw [htask] at hadvance
    cases hrecv : c.state.seqFlv.recvResult with
    | waiting =>
      obtain ⟨hseq, hup⟩ := h.seqFlv.waiting hrecv
      exact seqCache_advances h hroom hseq hup
    | closed =>
      refine hadvance _ _ (Processor.step_inputEnded (h.demand hsink) hrecv) ?_
      simp [Chain.work, htask, flvMux, ProcessorTask.isEnded, ProcessorTask.inFlight, Pad.dropReceiver,
        Pad.dropSender]
    | item pkt =>
      have hshort := process_length_le c.state.mux pkt
      refine hadvance _ _ (Processor.step_packet (h.demand hsink) hrecv) ?_
      simp only [Chain.work, htask, flvMux, inFlight_deliver, isEnded_deliver]
      simp [ProcessorTask.isEnded, ProcessorTask.inFlight, recv_queue hrecv]
      omega
  | offering item pad pads results =>
    rw [htask] at hadvance hoffers
    have hpad : pad = 0 := by simpa [flvMux] using hoffers.subset List.mem_cons_self
    refine hadvance _ _ rfl ?_
    simp only [Chain.work, Processor.inFlight_afterSend _ rfl (by simp) hoffers, Processor.isEnded_afterSend, htask]
    simp [flvMux, hflv.send_eq hfull, ProcessorTask.inFlight, ProcessorTask.isEnded, hpad]
    omega

/-- `FlvSink` can run, or it waits for `FlvMux`. -/
theorem flvSink_advances {c : Chain} (h : Healthy c) (hroom : Roomy c.state) (hrun : c.flvSinkTask.isEnded = false) :
    c.Advances := by
  have hadvance : ∀ task s, stepSink c.cancelled .input c.flvSinkTask c.state = some (task, s) →
      ({ c with flvSinkTask := task, state := s } : Chain).work < c.work → c.Advances := by
    intro task s hstep hwork
    exact ⟨.flvSink .input, _, trivial, by rw [Chain.step, hstep]; rfl, hwork⟩
  cases htask : c.flvSinkTask with
  | ended => rw [htask] at hrun; cases hrun
  | consuming tag =>
    rw [htask] at hadvance
    refine hadvance _ _ rfl ?_
    simp [Chain.work, htask, SinkTask.inFlight, SinkTask.isEnded]
  | looping =>
    rw [htask] at hadvance
    cases hrecv : c.state.flv.recvResult with
    | waiting =>
      obtain ⟨hflv, hup⟩ := h.flv.waiting hrecv
      exact flvMux_advances h hroom hflv hrun hup
    | closed =>
      have hstep : stepSink c.cancelled .input .looping c.state = some (.ended, { c.state with
          flv := c.state.flv.dropReceiver, flvDemand := c.state.flvDemand.dropHandle }) := by
        simp only [stepSink, hrecv]
      refine hadvance _ _ hstep ?_
      simp [Chain.work, htask, SinkTask.isEnded, SinkTask.inFlight, Pad.dropReceiver]
    | item tag =>
      have hstep : stepSink c.cancelled .input .looping c.state =
          some (.consuming tag, { c.state with flv := c.state.flv.recv }) := by
        simp only [stepSink, hrecv]
      refine hadvance _ _ hstep ?_
      simp [Chain.work, htask, SinkTask.isEnded, SinkTask.inFlight, recv_queue hrecv]
      omega

/-- The tasks end from the source on: a chain whose sink has ended has ended. -/
theorem Healthy.ended_of_sink {c : Chain} (h : Healthy c) (hsink : c.flvSinkTask.isEnded = true) :
    c.ended = true := by
  have hmux := (h.flv.drained hsink).1
  have hseq := (h.seqFlv.drained hmux).1
  have hotel := (h.otel.drained hseq).1
  simp [Chain.ended, hsink, hmux, hseq, hotel]

/-! ## When all tasks have ended -/

theorem inFlight_of_isEnded {β : Type} {task : ProcessorTask β} (h : task.isEnded = true) : task.inFlight = [] := by
  cases task with
  | ended => rfl
  | looping | offering => cases h

/-- Nothing is left in the chain: every pad has been drained from the source on. -/
theorem Healthy.output_of_ended {c : Chain} (h : Healthy c) (hended : c.ended = true) :
    c.output = c.state.broadcasts := by
  simp only [Chain.ended, Bool.and_eq_true] at hended
  obtain ⟨⟨⟨hotel, hseq⟩, hmux⟩, hsink⟩ := hended
  obtain ⟨hclosed, hsrcQueue⟩ := h.src.drained hotel
  have hsource := h.source (by simpa using hclosed)
  have hsinkFlight : c.flvSinkTask.inFlight = [] := by
    cases htask : c.flvSinkTask with
    | ended => rfl
    | looping | consuming => rw [htask] at hsink; cases hsink
  simp [Chain.output, Chain.toMux, hsource, hsrcQueue, hsinkFlight, (h.otel.drained hseq).2,
    (h.seqFlv.drained hmux).2, (h.flv.drained hsink).2, inFlight_of_isEnded hotel, inFlight_of_isEnded hseq,
    inFlight_of_isEnded hmux, FlvMux.processAll]

/-- From any healthy chain the tasks can be run to their end. -/
theorem exists_run_ended (c : Chain) (h : Healthy c) (hroom : Roomy c.state) :
    ∃ acts c', EachStep Chain.step Undisturbed c acts ∧ run Chain.step c acts = some c' ∧ c'.ended = true := by
  refine exists_run_of_measure (I := fun c => Healthy c ∧ Roomy c.state) Chain.work ?_ ?_ c ⟨h, hroom⟩
  · intro c a c' hc ha hstep
    exact ⟨(hc.1.step ha hstep).1, hc.2.step hstep⟩
  · intro c hc hmore
    refine flvSink_advances hc.1 hc.2 ?_
    rw [← Bool.not_eq_true]
    exact fun hsink => hmore (hc.1.ended_of_sink hsink)

/-- Whatever the schedule, the tags broadcast when all tasks have ended are those the muxer makes of the
source's packets, in their order; and a schedule that has not ended them can be continued until it has. -/
theorem broadcasts_eq_processAll (srcCapacity : ℕ) (hcapacity : 0 < srcCapacity) (packets : List EncodedPacket)
    (acts : List ChainAction) (c : Chain)
    (hacts : EachStep Chain.step Undisturbed (Chain.initial srcCapacity packets) acts)
    (hrun : run Chain.step (Chain.initial srcCapacity packets) acts = some c) :
    (c.ended = true → c.state.broadcasts = (FlvMux.processAll {} packets).2) ∧
      ∃ more c', EachStep Chain.step Undisturbed c more ∧ run Chain.step c more = some c' ∧ c'.ended = true := by
  have hkeeps : (Healthy c ∧ c.output = (Chain.initial srcCapacity packets).output) ∧ Roomy c.state :=
    run_invariant (I := fun c => (Healthy c ∧ c.output = (Chain.initial srcCapacity packets).output) ∧ Roomy c.state)
      (fun c a c' h ha hstep => ⟨⟨(h.1.1.step ha hstep).1, (h.1.1.step ha hstep).2.trans h.1.2⟩, h.2.step hstep⟩)
      ⟨⟨healthy_initial srcCapacity packets, rfl⟩, roomy_initial srcCapacity packets hcapacity⟩ hacts hrun
  obtain ⟨⟨hhealthy, houtput⟩, hroom⟩ := hkeeps
  refine ⟨fun hended => ?_, exists_run_ended c hhealthy hroom⟩
  rw [← hhealthy.output_of_ended hended, houtput]
  simp [Chain.output, Chain.toMux, Chain.initial, SinkTask.inFlight, ProcessorTask.inFlight]

/-- Two AAC packets, the second of them sent while the first is still on its way. -/
def twoPackets : List EncodedPacket :=
  [⟨.aac, 0, .annexB [1], some 0, some 0, false, false, false, none⟩,
    ⟨.aac, 0, .annexB [2], some 20, some 20, false, false, false, none⟩]

def interleavedSchedule : List ChainAction :=
  [.send, .otel .input, .send, .otel .input, .seqCache .input, .otel .input, .seqCache .input, .seqCache .input,
    .closeSource, .flvMux .input, .otel .input, .otel .input, .seqCache .input, .seqCache .input, .flvMux .input,
    .seqCache .input, .seqCache .input, .flvSink .input, .flvMux .input, .flvMux .input, .flvMux .input,
    .flvSink .input, .flvSink .input, .flvSink .input, .flvSink .input]

theorem broadcasts_twoPackets :
    ∃ c ∈ run Chain.step (Chain.initial 4 twoPackets) interleavedSchedule, c.ended = true ∧
      c.state.broadcasts = (FlvMux.processAll {} twoPackets).2 := by
  have hended : ∃ c ∈ run Chain.step (Chain.initial 4 twoPackets) interleavedSchedule, c.ended = true := by
    decide
  obtain ⟨c, hrun, hc⟩ := hended
  exact ⟨c, hrun, hc, (broadcasts_eq_processAll 4 (by decide) twoPackets interleavedSchedule c (by decide) hrun).1 hc⟩

end LivestreamRs.Pipeline
