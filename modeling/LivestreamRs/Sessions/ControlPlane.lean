import LivestreamRs.Sessions.Endpoints
import LivestreamRs.Sessions.Precreate

/-! # The control plane

`StartLivestream` and `StopLivestream` of `IngestGrpcService` (`grpc/server.rs`) with the `TransportController` between
them and the two ingest servers (`controller.rs`). A call puts its message into the bounded control queue of a server;
the server's loop takes the messages in turn and sends the outcome of a registration back through the `ack` that came
with the message. Any number of calls run at once, next to everything else the servers do, and a call that has lost
patience, or its client, leaves its message where it is.
-/
namespace LivestreamRs.Sessions
open Foundations
set_option autoImplicit false

/-! ## What is sent and answered -/

/-- A control message; the `ack` of a `PrecreateStream` goes back to one call. -/
inductive Request
  | precreateStream (liveId : LiveId) (call : ℕ)
  | stopStream (liveId : LiveId)
  deriving DecidableEq

def Request.message : Request → ControlMessage
  | precreateStream x _ => .precreateStream x
  | stopStream x => .stopStream x

def Request.call : Request → Option ℕ
  | precreateStream _ k => some k
  | stopStream _ => none

/-- What `get_descriptor` clones; the endpoint of a precreated session has no port. -/
structure ClonedDescriptor where
  id : LiveId
  protocol : Core
  state : SessionState
  deriving DecidableEq

def World.descriptor (w : World) (x : LiveId) : Option ClonedDescriptor :=
  (w.registry x).map fun g =>
    { id := w.liveId g, protocol := (w.generations g).protocol, state := (w.generations g).state }

structure StreamDescriptor where
  liveId : String
  inputProtocol : ℤ
  status : ℤ
  endpoints : StreamEndpoints
  deriving DecidableEq

def Core.protocol : Core → Protocol
  | .rtmp => .rtmp
  | .rtsp => .rtsp

def Core.toProto : Core → ℤ
  | .rtmp => 1
  | .rtsp => 2

def SessionState.toProto : SessionState → ℤ
  | .pending => 0
  | .connecting => 1
  | .connected => 2
  | .disconnected => 3

def IngestGrpcService.descriptorToProto (service : IngestGrpcService) (d : ClonedDescriptor) : StreamDescriptor where
  liveId := d.id
  inputProtocol := d.protocol.toProto
  status := d.state.toProto
  endpoints := service.descriptorEndpoints d.id d.protocol.protocol none

inductive Code
  | alreadyExists
  | internal
  | invalidArgument
  | notFound
  deriving DecidableEq

structure Status where
  code : Code
  message : String
  deriving DecidableEq

inductive SendError
  | full
  | closed
  deriving DecidableEq

def Core.transportName : Core → String
  | .rtmp => "RTMP"
  | .rtsp => "RTSP"

def mapControlSendError (c : Core) : SendError → String
  | .full => c.transportName ++ " control queue is full"
  | .closed => c.transportName ++ " control queue is disconnected"

/-- The receiving end of an `ack`. -/
inductive Ack
  | waiting
  | resolved (result : Except String ClonedDescriptor)
  -- the sender was dropped
  | disconnected

/-- `await_precreate_ack`, on what the loop has answered. -/
def statusOfAckError (message : String) : Status :=
  if "already in use".toList <:+: message.toList then { code := .alreadyExists, message := "stream already exists" }
  else { code := .internal, message := "transport controller failed to precreate session: " ++ message }

inductive Rpc
  | startLivestream (liveId : String) (inputProtocol : ℤ)
  | stopLivestream (liveId : String)
  deriving DecidableEq

/-- Where a call is. `found` is the session that the check of `stop_livestream` found. -/
inductive CallStage
  | sendPrecreate (x : LiveId) (c : Core)
  | awaitAck (x : LiveId) (c : Core)
  | started (descriptor : StreamDescriptor)
  -- the task of `close_session`, whether or not the client still waits for it
  | describe (x : LiveId) (found : ℕ)
  | sendStop (x : LiveId) (c : Core) (found : ℕ)
  | poll (x : LiveId) (found : ℕ)
  | stopped (found : ℕ) (isSuccess : Bool)
  | failed (status : Status)
  | hungUp
  deriving DecidableEq

/-- `parse_input_protocol` and the `match` on its result. -/
def inputProtocol (value : ℤ) : Except Status Core :=
  if value = 1 then .ok .rtmp
  else if value = 2 then .ok .rtsp
  else if value = 0 then
    .error { code := .invalidArgument, message := "input_protocol must be specified (RTMP=1, RTSP=2)" }
  else .error { code := .invalidArgument, message := "input_protocol is invalid" }

/-- A call up to its first operation after the check of the registry. -/
def Rpc.check (w : World) : Rpc → CallStage
  | .startLivestream liveId value =>
    match Hls.validateLiveId liveId with
    | .error message => .failed { code := .invalidArgument, message := message }
    | .ok x =>
      match w.registry x with
      | some _ => .failed { code := .alreadyExists, message := "stream already exists" }
      | none =>
        match inputProtocol value with
        | .error status => .failed status
        | .ok c => .sendPrecreate x c
  | .stopLivestream liveId =>
    match Hls.validateLiveId liveId with
    | .error message => .failed { code := .invalidArgument, message := message }
    | .ok x =>
      match w.registry x with
      | none => .failed { code := .notFound, message := "stream not found" }
      | some g => .describe x g

/-! ## State -/

structure ControlPlane where
  world : World
  service : IngestGrpcService
  capacity : ℕ
  -- the control queues; `none` once a server has dropped its receiver, or could not be created
  queue : Core → Option (List Request)
  -- the call whose `ack` a loop holds
  handling : Core → Option ℕ := fun _ => none
  acks : ℕ → Ack := fun _ => .waiting
  calls : ℕ → Option CallStage := fun _ => none
  callCount : ℕ := 0
  -- history: what a start call has asked of which server, and the session registered for it
  asked : ℕ → Option (LiveId × Core) := fun _ => none
  created : ℕ → Option ℕ := fun _ => none

namespace ControlPlane

/-- `bound` says which servers could be created. -/
def initial (ttl : Bool) (service : IngestGrpcService) (capacity : ℕ) (bound : Core → Bool) : ControlPlane where
  world := World.initial ttl
  service := service
  capacity := capacity
  queue c := if bound c then some [] else none

section Operations
variable (p : ControlPlane)

def setCall (k : ℕ) (stage : CallStage) : ControlPlane := { p with calls := Function.update p.calls k (some stage) }

/-- `MpscSender::send`; a queue for nothing holds one message. -/
def send (c : Core) (r : Request) : ControlPlane × Except SendError Unit :=
  match p.queue c with
  | none => (p, .error .closed)
  | some q =>
    if q.length < max p.capacity 1 then ({ p with queue := Function.update p.queue c (some (q ++ [r])) }, .ok ())
    else (p, .error .full)

/-! ## The calls -/

def goOn (k : ℕ) : CallStage → Option ControlPlane
  | .sendPrecreate x c =>
    match p.send c (.precreateStream x k) with
    | (p, .ok ()) => some ({ p with asked := Function.update p.asked k (some (x, c)) }.setCall k (.awaitAck x c))
    | (p, .error e) => some (p.setCall k (.failed { code := .internal, message := mapControlSendError c e }))
  | .awaitAck _ _ =>
    match p.acks k with
    | .waiting => none
    | .resolved (.ok d) => some (p.setCall k (.started (p.service.descriptorToProto d)))
    | .resolved (.error message) => some (p.setCall k (.failed (statusOfAckError message)))
    | .disconnected => some (p.setCall k (.failed
        { code := .internal, message := "failed to receive acknowledgment from transport controller" }))
  | .describe x found =>
    match p.world.descriptor x with
    | none => some (p.setCall k (.stopped found true))
    | some d => some (p.setCall k (.sendStop x d.protocol found))
  -- a message that cannot be sent is only logged
  | .sendStop x c found => some ((p.send c (.stopStream x)).1.setCall k (.poll x found))
  | .poll x found =>
    match p.world.registry x with
    | none => some (p.setCall k (.stopped found true))
    | some _ => some p
  | _ => none

/-- The timeouts of `await_precreate_ack`, which looks once more for the answer, and of `wait_for_cleanup`. -/
def expire (k : ℕ) : CallStage → Option ControlPlane
  | .awaitAck _ _ =>
    match p.acks k with
    | .waiting => some (p.setCall k (.failed
        { code := .internal, message := "timed out waiting for precreate acknowledgment" }))
    | _ => none
  | .poll _ found => some (p.setCall k (.stopped found false))
  | _ => none

/-- The client leaves while its call awaits the answer. -/
def hangUp (k : ℕ) : CallStage → Option ControlPlane
  | .awaitAck _ _ => some (p.setCall k .hungUp)
  | _ => none

/-! ## The loops -/

/-- What the `ack` of a request for `x` carries when the loop answers in the given phase. -/
def ackResult (w : World) (x : LiveId) : Phase → Except String ClonedDescriptor
  | .precreate .describe _ _ _ =>
    match w.descriptor x with
    | some d => .ok d
    | none => .error "precreate succeeded but no session descriptor found"
  | _ => .error ("Stream key " ++ x ++ " is already in use")

/-- What an operation of a loop means for the request it handles; `w` is the world before it. -/
def settle (w : World) (c : Core) (op : Op) : ControlPlane :=
  match p.handling c, op with
  | some k, .ack x _ =>
    { p with
      acks := Function.update p.acks k (.resolved (ackResult w x (w.loop c).phase))
      handling := Function.update p.handling c none }
  | some k, .register g => { p with created := Function.update p.created k (some g) }
  | _, _ => p

def loopCore : ℕ → Option Core
  | 0 => some .rtmp
  | 1 => some .rtsp
  | _ => none

/-- A step of the servers. -/
def serve (a : Action) : Option ControlPlane :=
  match transition p.world a, step p.world a with
  | some (op, some (i, _)), some w =>
    match loopCore i with
    | some c => some (settle { p with world := w } p.world c op)
    | none => some { p with world := w }
  | some (_, none), some w => some { p with world := w }
  | _, _ => none

/-- The loop takes the next message; with it comes the `ack`. -/
def receive (c : Core) : Option ControlPlane :=
  match p.queue c with
  | some (r :: rest) =>
    let p := { p with
      queue := Function.update p.queue c (some rest)
      handling := r.call.elim p.handling fun k => Function.update p.handling c (some k) }
    p.serve (.run (loopIndex c) (.receive r.message))
  | _ => none

/-- A server whose loop has ended drops its receiver, and with it the messages that were left. -/
def close (c : Core) : Option ControlPlane :=
  match p.queue c with
  | some q =>
    if (p.world.loop c).phase = .loopEnded c then
      some { p with
        queue := Function.update p.queue c none
        acks := fun k => if k ∈ q.filterMap Request.call then .disconnected else p.acks k }
    else none
  | none => none

end Operations

inductive PlaneAction
  | call (rpc : Rpc)
  | goOn (k : ℕ)
  | expire (k : ℕ)
  | hangUp (k : ℕ)
  | receive (c : Core)
  -- any other step of the servers
  | serve (a : Action)
  | close (c : Core)
  deriving DecidableEq

/-- Messages reach a loop through its queue only. -/
def isReceive : Action → Bool
  | .run _ (.receive _) => true
  | _ => false

def step (p : ControlPlane) : PlaneAction → Option ControlPlane
  | .call rpc => some { p.setCall p.callCount (rpc.check p.world) with callCount := p.callCount + 1 }
  | .goOn k => (p.calls k).bind (p.goOn k)
  | .expire k => (p.calls k).bind (p.expire k)
  | .hangUp k => (p.calls k).bind (p.hangUp k)
  | .receive c => p.receive c
  | .serve a => if isReceive a then none else p.serve a
  | .close c => p.close c

end ControlPlane

/-! ## What a step of a loop does to the request it handles -/

/-- The key of the request a loop has taken and not answered yet. -/
def Phase.unacked : Phase → Option LiveId
  | createChannel _ x | newLifecycle _ x | precreate .register _ x _ | precreate .describe _ x _ => some x
  | _ => none

structure AckMoves (w : World) (choice : Choice) (t : Task) (op : Op) (t' : Task) : Prop where
  control : t'.phase.control = t.phase.control
  -- a request is taken at the `select!`
  taken : ∀ x, choice = .receive (.precreateStream x) → t.phase.unacked = none ∧
    ((op = .ack x false ∧ t'.phase.unacked = none) ∨ (op = .skip ∧ t'.phase.unacked = some x))
  stopping : ∀ x, choice = .receive (.stopStream x) → t.phase.unacked = none ∧ op = .skip ∧ t'.phase.unacked = none
  -- and kept until it is answered
  answered : ∀ x ok, op = .ack x ok → (∀ msg, choice ≠ .receive msg) → t.phase.unacked = some x ∧ t'.phase.unacked = none
  kept : (∀ x ok, op ≠ .ack x ok) → (∀ msg, choice ≠ .receive msg) → t'.phase.unacked = t.phase.unacked
  described : ∀ c x g, t'.phase = .precreate .describe c x g →
    t.phase = .precreate .describe c x g ∨ op = .register g

theorem ackMoves_disconnectNext {w : World} {p : Phase} {d : Disconnect} :
    AckMoves w .go ⟨p, some d⟩ (d.next w).1 ⟨p, (d.next w).2⟩ := by
  have hop : ∀ x ok, (d.next w).1 ≠ .ack x ok := by
    obtain h | ⟨g, h⟩ | ⟨g, u, reason, -, h⟩ | ⟨e, h⟩ := op_disconnectNext w d <;> simp [h]
  exact ⟨rfl, nofun, nofun, fun x ok h => absurd h (hop x ok), fun _ _ => rfl, fun c x g h => .inl h⟩

theorem ackMoves_controlNext {w : World} {choice : Choice} {p : Phase} {op : Op} {t' : Task}
    (h : controlNext w p choice = some (op, t')) : AckMoves w choice { phase := p } op t' := by
  simp only [controlNext, receive] at h
  repeat' split at h
  all_goals simp only [Option.some.injEq, Prod.mk.injEq, reduceCtorEq] at h
  all_goals
    obtain ⟨rfl, rfl⟩ := h
    constructor
  all_goals first
    | (intros; contradiction)
    | simp [Phase.unacked, Phase.control]

theorem ackMoves_next {w : World} {choice : Choice} {op : Op} {t t' : Task} {c : Core}
    (hc : t.phase.control = some c) (h : t.next w choice = some (op, t')) : AckMoves w choice t op t' := by
  obtain ⟨p, _ | d⟩ := t
  · have hnext : controlNext w p choice = some (op, t') := by
      simp only [Task.next] at h
      unfold Phase.next at h
      split at h
      · obtain ⟨c', owned, hawait, -⟩ := abortNext_cases h
        cases p <;> simp [Phase.control] at hc <;> simp [Phase.awaiting] at hawait
      · cases p <;> first | exact h | simp [Phase.control] at hc
    exact ackMoves_controlNext hnext
  · simp only [Task.next] at h
    split at h
    · next hgo =>
      obtain ⟨rfl, rfl⟩ := Prod.mk.inj (Option.some.inj h)
      exact hgo ▸ ackMoves_disconnectNext
    · cases h

/-! ## What a step of the servers keeps -/

/-- What stays of a session once it is registered; one that is out of the registry does not come back. -/
structure KeepsSession (w w' : World) (g : ℕ) : Prop where
  liveId : w'.liveId g = w.liveId g
  protocol : (w'.generations g).protocol = (w.generations g).protocol
  registered : w'.registeredAt g ≠ none
  gone : ∀ x, w.registry x ≠ some g → w'.registry x ≠ some g

structure Kept (w w' : World) : Prop where
  wellFormed : WellFormed w'
  session : ∀ g, w.registeredAt g ≠ none → KeepsSession w w' g

section Kept
variable {w w' : World}

theorem WellFormed.keepsSession_apply (hw : WellFormed w) {op : Op}
    (hop : ∀ g, op = .register g → w.registeredAt g = none) {g : ℕ} (hg : w.registeredAt g ≠ none) :
    KeepsSession w (w.apply op) g := by
  have hlt := hw.sound.lt_of_registered hg
  have hne : op ≠ .register g := fun h => hg (hop g h)
  obtain ⟨hid, -, hprotocol⟩ : (w.apply op).liveId g = _ ∧ _ ∧ _ := apply_identity hlt
  refine ⟨hid, hprotocol, ?_, fun x hx h => ?_⟩
  · rw [apply_registeredAt_of_ne hne hlt]
    exact hg
  · rcases registry_of_apply h with ⟨h, -⟩ | h
    · exact hne h
    · exact hx h

theorem WellFormed.kept (hw : WellFormed w) {a : Action} (h : Sessions.step w a = some w') : Kept w w' := by
  refine ⟨hw.step h, fun g hg => ?_⟩
  cases stepped_of_step h with
  | shutdown | publish x | record x => exact hw.keepsSession_apply (fun _ h => by cases h) hg
  | run i choice op t hnext =>
    have hkeeps := hw.keepsSession_apply (hw.unregistered (moves_next hnext)) hg
    exact ⟨hkeeps.liveId, hkeeps.protocol, hkeeps.registered, hkeeps.gone⟩

theorem loop_of_other (hw : WellFormed w) {c : Core} (hloop : (w.loop c).phase.control = some c) {a : Action}
    (h : step w a = some w') (ha : ∀ choice, a ≠ .run (loopIndex c) choice) : w'.loop c = w.loop c := by
  have hlt : loopIndex c < w.taskCount := by
    by_contra hge
    rw [World.loop, hw.fresh _ (not_lt.mp hge)] at hloop
    cases hloop
  cases stepped_of_step h with
  | shutdown | publish x | record x => exact apply_tasks_of_lt hlt
  | run i choice op t hnext =>
    have hne : loopIndex c ≠ i := fun heq => ha choice (by rw [heq])
    simp only [World.loop, World.setTask, Function.update_of_ne hne]
    exact apply_tasks_of_lt hlt

end Kept

/-! ## What a step can do -/

namespace ControlPlane
variable {p p' : ControlPlane}

/-- The stages a call goes through without sending anything. -/
inductive Restages (p : ControlPlane) (k : ℕ) : CallStage → CallStage → Prop
  | unsent (x : LiveId) (c : Core) (status : Status) : Restages p k (.sendPrecreate x c) (.failed status)
  | started (x : LiveId) (c : Core) (d : ClonedDescriptor) (hack : p.acks k = .resolved (.ok d)) :
      Restages p k (.awaitAck x c) (.started (p.service.descriptorToProto d))
  | failed (x : LiveId) (c : Core) (status : Status) : Restages p k (.awaitAck x c) (.failed status)
  | hungUp (x : LiveId) (c : Core) : Restages p k (.awaitAck x c) .hungUp
  | described (x : LiveId) (c : Core) (found : ℕ) : Restages p k (.describe x found) (.sendStop x c found)
  | unstopped (x : LiveId) (c : Core) (found : ℕ) : Restages p k (.sendStop x c found) (.poll x found)
  | gone (x : LiveId) (found : ℕ) (before : CallStage) (hbefore : before = .describe x found ∨ before = .poll x found)
      (hregistry : p.world.registry x = none) : Restages p k before (.stopped found true)
  | expired (x : LiveId) (found : ℕ) : Restages p k (.poll x found) (.stopped found false)

/-- The loops, and the requests they handle. -/
structure InStep (p : ControlPlane) : Prop where
  wellFormed : WellFormed p.world
  loops : ∀ c, (p.world.loop c).phase.control = some c
  handling : ∀ c, p.handling c = none ↔ (p.world.loop c).phase.unacked = none

/-- The other loop is where it was. -/
def SameOther (c : Core) (w w' : World) : Prop := ∀ c', c' ≠ c → w'.loop c' = w.loop c'

inductive Effect (p : ControlPlane) : ControlPlane → Prop
  | stay : Effect p p
  | call (rpc : Rpc) : Effect p { p.setCall p.callCount (rpc.check p.world) with callCount := p.callCount + 1 }
  | restage (k : ℕ) (before after : CallStage) (hbefore : p.calls k = some before)
      (hmove : Restages p k before after) : Effect p (p.setCall k after)
  | ask (k : ℕ) (x : LiveId) (c : Core) (q : List Request) (hstage : p.calls k = some (.sendPrecreate x c))
      (hqueue : p.queue c = some q) (hroom : q.length < max p.capacity 1) :
      Effect p ({ p with
        queue := Function.update p.queue c (some (q ++ [Request.precreateStream x k]))
        asked := Function.update p.asked k (some (x, c)) }.setCall k (.awaitAck x c))
  | askStop (k : ℕ) (x : LiveId) (c : Core) (found : ℕ) (q : List Request)
      (hstage : p.calls k = some (.sendStop x c found)) (hqueue : p.queue c = some q)
      (hroom : q.length < max p.capacity 1) :
      Effect p ({ p with queue := Function.update p.queue c (some (q ++ [Request.stopStream x])) }.setCall k (.poll x found))
  | quiet (w : World) (hkept : Kept p.world w)
      (hloops : ∀ c, (w.loop c).phase.control = some c ∧
        (w.loop c).phase.unacked = (p.world.loop c).phase.unacked ∧
        ∀ x g, (w.loop c).phase = .precreate .describe c x g → (p.world.loop c).phase = .precreate .describe c x g) :
      Effect p { p with world := w }
  | register (c : Core) (k : ℕ) (x : LiveId) (g : ℕ) (w : World) (hkept : Kept p.world w)
      (hhandling : p.handling c = some k) (hbefore : (p.world.loop c).phase = .precreate .register c x g)
      (hafter : (w.loop c).phase = .precreate .describe c x g) (hother : SameOther c p.world w)
      (hnew : p.world.registeredAt g = none) (hregistered : w.registeredAt g ≠ none) (hid : w.liveId g = x)
      (hprotocol : (w.generations g).protocol = c) :
      Effect p { p with world := w, created := Function.update p.created k (some g) }
  | answer (c : Core) (k : ℕ) (x : LiveId) (result : Except String ClonedDescriptor) (w : World)
      (hkept : Kept p.world w) (hhandling : p.handling c = some k)
      (hbefore : (p.world.loop c).phase.unacked = some x)
      (hafter : (w.loop c).phase.control = some c ∧ (w.loop c).phase.unacked = none)
      (hother : SameOther c p.world w)
      (hok : ∀ d, result = .ok d → d.id = x ∧ ∃ g, (p.world.loop c).phase = .precreate .describe c x g) :
      Effect p { p with
        world := w
        acks := Function.update p.acks k (.resolved result)
        handling := Function.update p.handling c none }
  | take (c : Core) (x : LiveId) (k : ℕ) (rest : List Request) (w : World) (hkept : Kept p.world w)
      (hqueue : p.queue c = some (.precreateStream x k :: rest)) (hidle : p.handling c = none)
      (hafter : (w.loop c).phase.control = some c ∧ (w.loop c).phase.unacked = some x ∧
        ∀ x g, (w.loop c).phase ≠ .precreate .describe c x g)
      (hother : SameOther c p.world w) :
      Effect p { p with
        world := w
        queue := Function.update p.queue c (some rest)
        handling := Function.update p.handling c (some k) }
  | refuse (c : Core) (x : LiveId) (k : ℕ) (rest : List Request) (message : String) (w : World)
      (hkept : Kept p.world w) (hqueue : p.queue c = some (.precreateStream x k :: rest)) (hidle : p.handling c = none)
      (hafter : (w.loop c).phase.control = some c ∧ (w.loop c).phase.unacked = none)
      (hother : SameOther c p.world w) :
      Effect p { p with
        world := w
        queue := Function.update p.queue c (some rest)
        acks := Function.update p.acks k (.resolved (.error message)) }
  | takeStop (c : Core) (x : LiveId) (rest : List Request) (w : World) (hkept : Kept p.world w)
      (hqueue : p.queue c = some (.stopStream x :: rest)) (hidle : p.handling c = none)
      (hafter : (w.loop c).phase.control = some c ∧ (w.loop c).phase.unacked = none)
      (hother : SameOther c p.world w) :
      Effect p { p with world := w, queue := Function.update p.queue c (some rest) }
  | close (c : Core) (q : List Request) (hqueue : p.queue c = some q) :
      Effect p { p with
        queue := Function.update p.queue c none
        acks := fun k => if k ∈ q.filterMap Request.call then .disconnected else p.acks k }

theorem settle_of_other {w : World} {c : Core} {op : Op} (hack : ∀ x ok, op ≠ .ack x ok)
    (hregister : ∀ g, op ≠ .register g) : p.settle w c op = p := by
  unfold settle
  split
  · exact absurd rfl (hack _ _)
  · exact absurd rfl (hregister _)
  · rfl

theorem sameOther_of_run (hp : InStep p) {c : Core} {choice : Choice} {w : World}
    (h : Sessions.step p.world (.run (loopIndex c) choice) = some w) : SameOther c p.world w := by
  intro c' hne
  refine loop_of_other hp.wellFormed (hp.loops c') h fun choice' heq => hne ?_
  exact (loopIndex_injective (Action.run.inj heq).1).symm

theorem ackResult_ok {w : World} (hw : WellFormed w) {x : LiveId} {phase : Phase} {d : ClonedDescriptor}
    (h : ackResult w x phase = .ok d) : d.id = x ∧ ∃ c y g, phase = .precreate .describe c y g := by
  unfold ackResult at h
  split at h
  · next c y g =>
    cases hd : w.descriptor x with
    | none => simp [hd] at h
    | some d' =>
      obtain rfl : d' = d := by simpa [hd] using h
      obtain ⟨g', hg', rfl⟩ := Option.map_eq_some_iff.mp hd
      exact ⟨(hw.sound.registry x g' hg').2, c, y, g, rfl⟩
  · cases h

theorem ackResult_unacked {w : World} {x : LiveId} {phase : Phase} (h : phase.unacked = none) :
    ackResult w x phase = .error ("Stream key " ++ x ++ " is already in use") := by
  unfold ackResult
  split
  · cases h
  · rfl

/-- What a registration makes of the session the loop has built. -/
theorem registered_of_next (hp : InStep p) {c : Core} {choice : Choice} {g : ℕ} {t : Task}
    (hnext : (p.world.loop c).next p.world choice = some (.register g, t)) :
    ∃ x, (p.world.loop c).phase = .precreate .register c x g ∧ t.phase = .precreate .describe c x g ∧
      p.world.registeredAt g = none ∧ (p.world.apply (.register g)).registeredAt g ≠ none ∧
      (p.world.apply (.register g)).liveId g = x ∧
      ((p.world.apply (.register g)).generations g).protocol = c := by
  obtain ⟨-, c', x, ht, rfl⟩ := (moves_next hnext).registered g rfl
  have hphase : (p.world.loop c).phase = .precreate .register c' x g := congrArg Task.phase ht
  obtain rfl : c' = c := by simpa [hphase, Phase.control] using hp.loops c
  have htask := hp.wellFormed.task (loopIndex c')
  rw [← World.loop] at htask
  have hlt := htask.lt g (.inl (by rw [hphase, Phase.generation]))
  obtain ⟨hid, -, hprotocol⟩ : (p.world.apply (.register g)).liveId g = _ ∧ _ ∧ _ := apply_identity hlt
  refine ⟨x, hphase, rfl, htask.unregistered c' x g hphase, ?_, ?_, ?_⟩
  · simp [World.apply, World.registeredAt, World.spawn]
  · rw [hid]
    exact htask.key g x (by rw [hphase, Phase.generation]) (by rw [hphase, Phase.key])
  · rw [hprotocol]
    exact htask.protocol .register c' x g hphase

theorem exists_handling (hp : InStep p) {c : Core} {x : LiveId} (h : (p.world.loop c).phase.unacked = some x) :
    ∃ k, p.handling c = some k := by
  refine Option.ne_none_iff_exists'.mp fun hnone => ?_
  rw [(hp.handling c).mp hnone] at h
  cases h

/-- A loop that does not take a message goes on with the request it handles, or answers it. -/
theorem effect_of_loop (hp : InStep p) {c : Core} {choice : Choice} {op : Op} {t : Task}
    (hchoice : ∀ msg, choice ≠ .receive msg) (hnext : (p.world.loop c).next p.world choice = some (op, t)) :
    Effect p (settle { p with world := (p.world.apply op).setTask (loopIndex c) t } p.world c op) := by
  have hstep : Sessions.step p.world (.run (loopIndex c) choice) =
      some ((p.world.apply op).setTask (loopIndex c) t) := by
    simp only [Sessions.step, transition]
    rw [← World.loop, hnext]
    rfl
  have hkept := hp.wellFormed.kept hstep
  have hother := sameOther_of_run hp hstep
  have hm := ackMoves_next (hp.loops c) hnext
  have hloop : ((p.world.apply op).setTask (loopIndex c) t).loop c = t := setTask_tasks_self _ _ _
  have hcontrol : t.phase.control = some c := hm.control.trans (hp.loops c)
  by_cases hregister : ∃ g, op = .register g
  · obtain ⟨g, rfl⟩ := hregister
    obtain ⟨x, hbefore, hafter, hnew, hregistered, hid, hprotocol⟩ := registered_of_next hp hnext
    obtain ⟨k, hk⟩ := exists_handling hp (x := x) (by rw [hbefore, Phase.unacked])
    have hsettle : settle { p with world := (p.world.apply (.register g)).setTask (loopIndex c) t } p.world c
        (.register g) =
        { p with
          world := (p.world.apply (.register g)).setTask (loopIndex c) t
          created := Function.update p.created k (some g) } := by
      simp only [settle, hk]
    rw [hsettle]
    exact .register c k x g _ hkept hk hbefore (by rw [hloop, hafter]) hother hnew hregistered hid hprotocol
  generalize (p.world.apply op).setTask (loopIndex c) t = w at hstep hkept hother hloop ⊢
  by_cases hack : ∃ x ok, op = .ack x ok
  · obtain ⟨x, ok, rfl⟩ := hack
    obtain ⟨hbefore, hafter⟩ := hm.answered x ok rfl hchoice
    obtain ⟨k, hk⟩ := exists_handling hp hbefore
    have hsettle : settle { p with world := w } p.world c (.ack x ok) =
        { p with
          world := w
          acks := Function.update p.acks k (.resolved (ackResult p.world x (p.world.loop c).phase))
          handling := Function.update p.handling c none } := by
      simp only [settle, hk]
    rw [hsettle]
    refine .answer c k x _ w hkept hk hbefore ⟨hloop ▸ hcontrol, hloop ▸ hafter⟩ hother fun d hd => ?_
    obtain ⟨hid, c', y, g, hphase⟩ := ackResult_ok hp.wellFormed hd
    rw [hphase, Phase.unacked, Option.some.injEq] at hbefore
    have hc := hp.loops c
    rw [hphase, Phase.control, Option.some.injEq] at hc
    subst hbefore hc
    exact ⟨hid, g, hphase⟩
  · rw [settle_of_other (fun x ok h => hack ⟨x, ok, h⟩) fun g h => hregister ⟨g, h⟩]
    refine .quiet w hkept fun c' => ?_
    by_cases hc : c' = c
    · subst hc
      rw [hloop]
      refine ⟨hcontrol, hm.kept (fun x ok h => hack ⟨x, ok, h⟩) hchoice, fun x g h => ?_⟩
      exact (hm.described c' x g h).resolve_right fun h => hregister ⟨g, h⟩
    · rw [hother c' hc]
      exact ⟨hp.loops c', rfl, fun _ _ h => h⟩

theorem loopCore_eq {i : ℕ} {c : Core} (h : loopCore i = some c) : i = loopIndex c := by
  match i with
  | 0 => cases h; rfl
  | 1 => cases h; rfl
  | _ + 2 => cases h

theorem loopCore_loopIndex (c : Core) : loopCore (loopIndex c) = some c := by
  cases c <;> rfl

theorem serve_loop {c : Core} {choice : Choice} (h : p.serve (.run (loopIndex c) choice) = some p') :
    ∃ op t, (p.world.loop c).next p.world choice = some (op, t) ∧
      p' = settle { p with world := (p.world.apply op).setTask (loopIndex c) t } p.world c op := by
  unfold serve at h
  split at h
  · next op i t w htrans hstep =>
    obtain ⟨⟨op', t'⟩, hnext, heq⟩ := Option.map_eq_some_iff.mp htrans
    cases heq
    have hw : w = (p.world.apply op).setTask (loopIndex c) t := by
      simpa [Sessions.step, htrans, eq_comm] using hstep
    simp only [loopCore_loopIndex, Option.some.injEq] at h
    exact ⟨op, t, hnext, by rw [← h, hw]⟩
  · next op w htrans hstep =>
    obtain ⟨_, -, heq⟩ := Option.map_eq_some_iff.mp htrans
    cases heq
  · cases h

theorem serve_aside {a : Action} (ha : ∀ c choice, a ≠ .run (loopIndex c) choice) (h : p.serve a = some p') :
    ∃ w, Sessions.step p.world a = some w ∧ p' = { p with world := w } := by
  unfold serve at h
  split at h
  · next op i t w htrans hstep =>
    cases hi : loopCore i with
    | none => exact ⟨w, hstep, by simpa [hi, eq_comm] using h⟩
    | some c =>
      cases a with
      | run j choice =>
        obtain ⟨_, -, heq⟩ := Option.map_eq_some_iff.mp htrans
        cases heq
        exact absurd rfl (loopCore_eq hi ▸ ha c choice)
      | _ =>
        simp only [transition] at htrans
        repeat' split at htrans
        all_goals simp at htrans
  · next op w htrans hstep => exact ⟨w, hstep, by simpa [eq_comm] using h⟩
  · cases h

theorem effect_of_serve (hp : InStep p) {a : Action} (ha : isReceive a = false) (h : p.serve a = some p') :
    Effect p p' := by
  by_cases hloop : ∃ c choice, a = .run (loopIndex c) choice
  · obtain ⟨c, choice, rfl⟩ := hloop
    obtain ⟨op, t, hnext, rfl⟩ := serve_loop h
    refine effect_of_loop hp (fun msg hmsg => ?_) hnext
    rw [hmsg, isReceive] at ha
    cases ha
  · have hother : ∀ c choice, a ≠ .run (loopIndex c) choice := fun c choice heq => hloop ⟨c, choice, heq⟩
    obtain ⟨w, hstep, rfl⟩ := serve_aside hother h
    refine .quiet w (hp.wellFormed.kept hstep) fun c => ?_
    rw [loop_of_other hp.wellFormed (hp.loops c) hstep (hother c)]
    exact ⟨hp.loops c, rfl, fun _ _ h => h⟩

theorem effect_of_receive (hp : InStep p) {c : Core} (h : p.receive c = some p') : Effect p p' := by
  unfold receive at h
  split at h
  · next r rest hqueue =>
    obtain ⟨op, t, hnext, rfl⟩ := serve_loop h
    change (p.world.loop c).next p.world (.receive r.message) = some (op, t) at hnext
    have hstep : Sessions.step p.world (.run (loopIndex c) (.receive r.message)) =
        some ((p.world.apply op).setTask (loopIndex c) t) := by
      simp only [Sessions.step, transition]
      rw [← World.loop, hnext]
      rfl
    have hkept := hp.wellFormed.kept hstep
    have hother := sameOther_of_run hp hstep
    have hm := ackMoves_next (hp.loops c) hnext
    have hloop : ((p.world.apply op).setTask (loopIndex c) t).loop c = t := setTask_tasks_self _ _ _
    have hcontrol : t.phase.control = some c := hm.control.trans (hp.loops c)
    cases r with
    | precreateStream x k =>
      obtain ⟨hidle, ⟨rfl, hafter⟩ | ⟨rfl, hafter⟩⟩ := hm.taken x rfl
      · have hnone := (hp.handling c).mpr hidle
        have hback : Function.update (Function.update p.handling c (some k)) c none = p.handling := by
          rw [Function.update_idem, ← hnone, Function.update_eq_self]
        simp only [settle, Request.call, Option.elim_some, Function.update_self, hback, ackResult_unacked hidle]
        refine .refuse c x k rest _ _ hkept hqueue hnone ⟨?_, ?_⟩ hother
        · rw [hloop, hcontrol]
        · rw [hloop, hafter]
      · have hnone := (hp.handling c).mpr hidle
        rw [settle_of_other (by simp) (by simp)]
        refine .take c x k rest _ hkept hqueue hnone ⟨?_, ?_, fun y g hphase => ?_⟩ hother
        · rw [hloop, hcontrol]
        · rw [hloop, hafter]
        · rw [hloop] at hphase
          rcases hm.described c y g hphase with hbefore | hop
          · rw [hbefore, Phase.unacked] at hidle
            cases hidle
          · cases hop
    | stopStream x =>
      obtain ⟨hidle, rfl, hafter⟩ := hm.stopping x rfl
      rw [settle_of_other (by simp) (by simp)]
      refine .takeStop c x rest _ hkept hqueue ((hp.handling c).mpr hidle) ⟨?_, ?_⟩ hother
      · rw [hloop, hcontrol]
      · rw [hloop, hafter]
  · cases h

theorem effect_of_goOn {k : ℕ} {stage : CallStage} (hstage : p.calls k = some stage) (h : p.goOn k stage = some p') :
    Effect p p' := by
  cases stage with
  | sendPrecreate x c =>
    simp only [goOn, send] at h
    cases hqueue : p.queue c with
    | none =>
      simp only [hqueue, Option.some.injEq] at h
      exact h ▸ .restage k _ _ hstage (.unsent x c _)
    | some q =>
      simp only [hqueue] at h
      split at h
      · next p₁ heq =>
        split at heq
        · next hroom =>
          obtain rfl := (Prod.mk.inj heq).1
          obtain rfl := Option.some.inj h
          exact .ask k x c q hstage hqueue hroom
        · cases heq
      · next p₁ e heq =>
        split at heq
        · cases heq
        · obtain rfl := (Prod.mk.inj heq).1
          exact Option.some.inj h ▸ .restage k _ _ hstage (.unsent x c _)
  | awaitAck x c =>
    simp only [goOn] at h
    split at h
    · cases h
    · next d hack => exact Option.some.inj h ▸ .restage k _ _ hstage (.started x c d hack)
    · exact Option.some.inj h ▸ .restage k _ _ hstage (.failed x c _)
    · exact Option.some.inj h ▸ .restage k _ _ hstage (.failed x c _)
  | describe x found =>
    simp only [goOn] at h
    split at h
    · next hnone =>
      exact Option.some.inj h ▸ .restage k _ _ hstage (.gone x found _ (.inl rfl) (Option.map_eq_none_iff.mp hnone))
    · exact Option.some.inj h ▸ .restage k _ _ hstage (.described x _ found)
  | sendStop x c found =>
    simp only [goOn, send, Option.some.injEq] at h
    split at h
    · exact h ▸ .restage k _ _ hstage (.unstopped x c found)
    · next q hqueue =>
      split at h
      · next hroom => exact h ▸ .askStop k x c found q hstage hqueue hroom
      · exact h ▸ .restage k _ _ hstage (.unstopped x c found)
  | poll x found =>
    simp only [goOn] at h
    split at h
    · next hnone => exact Option.some.inj h ▸ .restage k _ _ hstage (.gone x found _ (.inr rfl) hnone)
    · exact Option.some.inj h ▸ .stay
  | started | stopped | failed | hungUp => cases h

theorem effect_of_step (hp : InStep p) {a : PlaneAction} (h : p.step a = some p') : Effect p p' := by
  cases a with
  | call rpc =>
    obtain rfl := Option.some.inj h
    exact .call rpc
  | goOn k =>
    obtain ⟨stage, hstage, h⟩ := Option.bind_eq_some_iff.mp h
    exact effect_of_goOn hstage h
  | expire k =>
    obtain ⟨stage, hstage, h⟩ := Option.bind_eq_some_iff.mp h
    cases stage with
    | awaitAck x c =>
      simp only [expire] at h
      split at h
      · obtain rfl := Option.some.inj h
        exact .restage k _ _ hstage (.failed x c _)
      · cases h
    | poll x found =>
      obtain rfl := Option.some.inj h
      exact .restage k _ _ hstage (.expired x found)
    | _ => cases h
  | hangUp k =>
    obtain ⟨stage, hstage, h⟩ := Option.bind_eq_some_iff.mp h
    cases stage with
    | awaitAck x c =>
      obtain rfl := Option.some.inj h
      exact .restage k _ _ hstage (.hungUp x c)
    | _ => cases h
  | receive c => exact effect_of_receive hp h
  | serve a =>
    simp only [step] at h
    split at h
    · cases h
    · next ha => exact effect_of_serve hp (by simpa using ha) h
  | close c =>
    simp only [step, close] at h
    split at h
    · next q hq =>
      split at h
      · obtain rfl := Option.some.inj h
        exact .close c q hq
      · cases h
    · cases h

end ControlPlane
end LivestreamRs.Sessions
