import LivestreamRs.Foundations.CancellationTree
import LivestreamRs.Foundations.Transitions

/-! # The state the ingest servers share

`livestream-transport` runs two `ProtocolServerCore` loops, one for RTMP and one for RTSP, over one
`SessionRegistry` and one `FlvEgressHub`. Every task of both servers (control loops, TTL timers, registry
cleanups, connections, pipeline sinks) works on the maps below, each access being one atomic operation of a
concurrent map, an atomic flag, a cancellation token or a channel.
-/
namespace LivestreamRs.Sessions
open Foundations
set_option autoImplicit false

abbrev LiveId := String

/-- The two `ProtocolServerCore`s; also the `Protocol` their lifecycles carry. -/
inductive Core
  | rtmp
  | rtsp
  deriving DecidableEq

inductive SessionState
  | pending
  | connecting
  | connected
  | disconnected
  deriving DecidableEq

inductive EndReason
  | clientDisconnect
  | error (message : String)
  | adminStop
  | timeout
  deriving DecidableEq

inductive SessionEvent
  | sessionStarted (liveId : LiveId) (protocol : Core)
  | sessionInit (liveId : LiveId)
  | sessionEnded (liveId : LiveId) (protocol : Core) (reason : EndReason)
  deriving DecidableEq

/-- The transition rules inside `SessionRegistry::update_state`; `none` is its error. -/
def SessionState.update (current new : SessionState) : Option SessionState :=
  if current = .disconnected then none
  else if current = new then some current
  else
    match new, current with
    | .connecting, .pending => some .connecting
    | .connected, .pending => some .connected
    | .connected, .connecting => some .connected
    | .disconnected, _ => some .disconnected
    | _, _ => none

/-! ## Tokens -/

/-- The process-wide token; the servers' tokens are its children. -/
def mainToken : Token := .root 0

def serverToken : Core → Token
  | .rtmp => .child 0 mainToken
  | .rtsp => .child 1 mainToken

/-! ## Generations

One generation is what `PrecreateStream` builds once its existence check has passed: a `HandlerLifecycle`, a
session token and, if `register_session` succeeds, a registry entry. Two sessions of one `live_id` are two
generations, although everything in the code finds them under the same key. -/

structure Generation where
  liveId : LiveId := ""
  protocol : Core := .rtmp
  token : Token := mainToken
  -- `SessionDescriptor::state`
  state : SessionState := .pending
  -- `HandlerLifecycle::{connected, disconnected}`
  connected : Bool := false
  disconnected : Bool := false
  -- history: the position of this session in the order of successful registrations
  registeredAt : Option ℕ := none

/-! ## Tasks -/

/-- Where a task is inside `Drop for HandlerLifecycle` or `disconnect_with_reason`. -/
inductive Disconnect
  | drop (g : ℕ)
  | mark (g : ℕ) (reason : EndReason)
  | lookup (g : ℕ) (reason : EndReason)
  | cancel (g : ℕ) (token : Token) (reason : EndReason)
  | dispatch (g : ℕ) (reason : EndReason)
  deriving DecidableEq

/-- `PrecreateStream` once its lifecycle exists. -/
inductive PrecreateStage
  | register
  | describe
  | insert
  | spawnTtl
  deriving DecidableEq

/-- The task of `spawn_precreate_session_ttl`. -/
inductive TtlStage
  | wait
  | check
  | remove
  | channel
  deriving DecidableEq

/-- `on_publish_requested`. From `locked` until `accepted`, or the end of `release`, the connection holds a
reference into the pending map. -/
inductive RequestStage
  | locked
  | accept
  | connecting
  | release
  | accepted
  deriving DecidableEq

/-- An RTMP publish connection after its request was accepted. -/
inductive PublishStage
  | claim
  | source
  | build (pipeline : Token)
  | publishing
  | connect
  | started
  | finished
  | cancel
  | channel
  deriving DecidableEq

/-- An RTSP connection after it has claimed its lifecycle. -/
inductive RecordStage
  | channel
  | connect
  | update
  | started
  | refused
  | refusedChannel
  | build
  | recording
  | cancel
  | remove
  deriving DecidableEq

/-- The next operation of a task. `x` is the task's own `live_id` or `stream_key`, `g` the generation whose
lifecycle it holds or for whose session it was started. -/
inductive Phase
  -- `ProtocolServerCore::run` and `handle_control_message`
  | idle (c : Core)
  | createChannel (c : Core) (x : LiveId)
  | newLifecycle (c : Core) (x : LiveId)
  | precreate (stage : PrecreateStage) (c : Core) (x : LiveId) (g : ℕ)
  | stopCancel (c : Core) (x : LiveId) (t : Token)
  | stopChannel (c : Core) (x : LiveId)
  | loopEnded (c : Core)
  | ttl (stage : TtlStage) (c : Core) (x : LiveId) (g : ℕ)
  -- the cleanup task of `register_session`, before and after the session's token is cancelled
  | cleanupWait (g : ℕ)
  | cleanupGrace (g : ℕ)
  -- `t` is the token the connection found in the registry
  | publishRequested (x : LiveId)
  | request (stage : RequestStage) (x : LiveId) (g : ℕ)
  | publish (stage : PublishStage) (x : LiveId) (g : ℕ) (t : Token)
  | rtmpSource (g : ℕ) (pipeline : Token)
  -- `k` is the connection's own `cancel`
  | recordClaim (x : LiveId) (k : Token)
  | record (stage : RecordStage) (x : LiveId) (g : ℕ) (k : Token)
  -- `run_sink` over the `FlvSink` of a pipeline
  | flvSink (x : LiveId) (g : ℕ) (pipeline : Token)
  | finished
  deriving DecidableEq

/-- A task finishes a pending disconnect before it goes on with its phase. -/
structure Task where
  phase : Phase := .finished
  disconnecting : Option Disconnect := none
  deriving DecidableEq

def Disconnect.generation : Disconnect → ℕ
  | drop g | mark g _ | lookup g _ | cancel g _ _ | dispatch g _ => g

/-- The generation a task works for. The control loop works for the session it is creating. A cleanup task
is left out: it touches neither a token nor a channel. -/
def Phase.generation : Phase → Option ℕ
  | precreate _ _ _ g | ttl _ _ _ g | request _ _ g | publish _ _ g _ | rtmpSource g _ | record _ _ g _
  | flvSink _ g _ => some g
  | _ => none

def Task.worksFor (t : Task) (g : ℕ) : Prop :=
  t.phase.generation = some g ∨ t.disconnecting.map Disconnect.generation = some g

instance (t : Task) (g : ℕ) : Decidable (t.worksFor g) :=
  inferInstanceAs (Decidable (_ ∨ _))

/-! ## The shared state -/

structure World where
  -- whether `precreate_ttl` is nonzero
  ttl : Bool
  generations : ℕ → Generation := fun _ => {}
  generationCount : ℕ := 0
  -- `SessionRegistry::sessions`
  registry : LiveId → Option ℕ := fun _ => none
  fired : List Token := []
  -- `ProtocolServerCore::pending_lifecycle`
  pending : Core → LiveId → Option ℕ := fun _ _ => none
  -- `FlvEgressHub::channels`
  channels : LiveId → Option ℕ := fun _ => none
  channelCount : ℕ := 0
  tasks : ℕ → Task := fun _ => {}
  taskCount : ℕ := 0
  -- what the servers have answered and sent, oldest first
  acks : List (LiveId × Bool) := []
  events : List SessionEvent := []
  delivered : List (ℕ × ℕ) := []
  forwarded : List ℕ := []
  -- history: how many registrations have succeeded
  registrationCount : ℕ := 0

namespace World
variable (w : World)

def liveId (g : ℕ) : LiveId := (w.generations g).liveId

def token (g : ℕ) : Token := (w.generations g).token

def registeredAt (g : ℕ) : Option ℕ := (w.generations g).registeredAt

def isCancelled (t : Token) : Bool := cancelled w.fired t

def setGeneration (g : ℕ) (f : Generation → Generation) : World :=
  { w with generations := Function.update w.generations g (f (w.generations g)) }

def spawn (p : Phase) : World :=
  { w with tasks := Function.update w.tasks w.taskCount { phase := p }, taskCount := w.taskCount + 1 }

/-- Both servers at their `select!`, nothing registered. -/
def initial (ttl : Bool) : World where
  ttl := ttl
  tasks
    | 0 => { phase := .idle .rtmp }
    | 1 => { phase := .idle .rtsp }
    | _ => {}
  taskCount := 2

/-! ## Operations on it -/

end World

/-- One atomic operation on the shared state. -/
inductive Op
  | skip
  | spawn (p : Phase)
  | fire (t : Token)
  | createChannel (x : LiveId)
  | removeChannel (x : LiveId)
  | broadcast (x : LiveId) (g : ℕ)
  | newLifecycle (c : Core) (x : LiveId)
  | register (g : ℕ)
  | unregister (g : ℕ)
  | setState (g : ℕ) (s : SessionState)
  | setConnected (g : ℕ)
  | setDisconnected (g : ℕ)
  | insertPending (c : Core) (x : LiveId) (g : ℕ)
  | removePending (c : Core) (x : LiveId)
  | ack (x : LiveId) (ok : Bool)
  | dispatch (e : SessionEvent)
  | forward (g : ℕ)

def setPending (pending : Core → LiveId → Option ℕ) (c : Core) (x : LiveId) (v : Option ℕ) :
    Core → LiveId → Option ℕ :=
  Function.update pending c (Function.update (pending c) x v)

def World.apply (w : World) : Op → World
  | .skip => w
  | .spawn p => w.spawn p
  | .fire t => { w with fired := t :: w.fired }
  | .createChannel x =>
    match w.channels x with
    | some _ => w
    | none =>
      { w with
        channels := Function.update w.channels x (some w.channelCount)
        channelCount := w.channelCount + 1 }
  | .removeChannel x => { w with channels := Function.update w.channels x none }
  | .broadcast x g =>
    match w.channels x with
    | some ch => { w with delivered := w.delivered ++ [(g, ch)] }
    | none => w
  | .newLifecycle c x =>
    { w with
      generations := Function.update w.generations w.generationCount
        { liveId := x, protocol := c, token := .child w.generationCount (serverToken c) }
      generationCount := w.generationCount + 1 }
  -- the entry goes in under the descriptor's id and the cleanup task is spawned
  | .register g =>
    let w := { w with
      registry := Function.update w.registry (w.liveId g) (some g)
      registrationCount := w.registrationCount + 1
      generations := Function.update w.generations g
        { w.generations g with registeredAt := some w.registrationCount } }
    w.spawn (.cleanupWait g)
  -- `sessions.remove(&stream_key)` does not look whose entry it removes
  | .unregister g => { w with registry := Function.update w.registry (w.liveId g) none }
  | .setState g s => w.setGeneration g fun gen => { gen with state := s }
  | .setConnected g => w.setGeneration g fun gen => { gen with connected := true }
  | .setDisconnected g => w.setGeneration g fun gen => { gen with disconnected := true }
  | .insertPending c x g => { w with pending := setPending w.pending c x (some g) }
  | .removePending c x => { w with pending := setPending w.pending c x none }
  | .ack x ok => { w with acks := w.acks ++ [(x, ok)] }
  | .dispatch e => { w with events := w.events ++ [e] }
  | .forward g => { w with forwarded := w.forwarded ++ [g] }

end LivestreamRs.Sessions
