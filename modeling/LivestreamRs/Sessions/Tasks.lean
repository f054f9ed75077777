import LivestreamRs.Sessions.State

/-! # The tasks of the ingest servers

What each task does next, translated from `protocol_server.rs`, `lifecycle.rs`, `registry/session.rs`,
`rtmp/{server,session}.rs`, `rtmp/handler/publish.rs` and `rtsp/server.rs`. A step is one operation on the
shared state, so two tasks interleave between any two of them. What the outside decides (a message, a frame,
an I/O failure, which ready branch of a `select!` is taken) is the step's choice.
-/
namespace LivestreamRs.Sessions
open Foundations
set_option autoImplicit false

inductive ControlMessage
  | precreateStream (liveId : LiveId)
  | stopStream (liveId : LiveId)
  deriving DecidableEq

inductive Choice
  -- the phase goes on as it does when nothing fails
  | go
  -- an external operation fails, or the connection or its input is closed
  | fail
  -- the token a `select!` watches is seen cancelled, or the client ends the stream
  | finish
  -- the control loop receives a message
  | receive (msg : ControlMessage)
  -- `JoinSet::shutdown` drops the task's future
  | abort
  -- the pending map of a server that has returned is dropped, entry by entry
  | release (x : LiveId)
  deriving DecidableEq

/-! ## Locks and shared subroutines -/

/-- The key of the RTMP pending map whose entry a task holds a reference to. -/
def Phase.locks : Phase → Option LiveId
  | request .accepted _ _ => none
  | request _ x _ => some x
  | _ => none

/-- While a reference is held, `insert` and `remove` on that key wait. -/
def World.locked (w : World) (c : Core) (x : LiveId) : Bool :=
  c == .rtmp && (List.range w.taskCount).any fun i => (w.tasks i).phase.locks == some x

/-- `SessionRegistry::update_state`: the session it writes and the state it writes there; `none` is its
error. -/
def World.updateState (w : World) (x : LiveId) (new : SessionState) : Option (ℕ × SessionState) :=
  match w.registry x with
  | none => none
  | some g => ((w.generations g).state.update new).map (g, ·)

def World.getState (w : World) (x : LiveId) : Option SessionState :=
  (w.registry x).map fun g => (w.generations g).state

def Disconnect.next (w : World) : Disconnect → Op × Option Disconnect
  | drop g =>
    (.skip, if (w.generations g).disconnected then none else some (.mark g .clientDisconnect))
  | mark g reason =>
    if (w.generations g).disconnected then (.skip, none)
    else (.setDisconnected g, some (.lookup g reason))
  | lookup g reason =>
    match w.registry (w.liveId g) with
    | none => (.skip, none)
    | some g' => (.skip, some (.cancel g (w.token g') reason))
  | cancel g t reason => (.fire t, some (.dispatch g reason))
  | dispatch g reason => (.dispatch (.sessionEnded (w.liveId g) (w.generations g).protocol reason), none)

/-- The control loops are the first two tasks. -/
def loopIndex : Core → ℕ
  | .rtmp => 0
  | .rtsp => 1

def World.loop (w : World) (c : Core) : Task :=
  w.tasks (loopIndex c)

/-- The phases in which a connection awaits, with its server and the lifecycle its future owns there. -/
def Phase.awaiting : Phase → Option (Core × Option ℕ)
  | request .accepted _ _ => none
  | publishRequested _ | request _ _ _ | publish .channel _ _ _ => some (.rtmp, none)
  | publish .publishing _ g _ | publish .connect _ g _ => some (.rtmp, some g)
  | recordClaim _ _ => some (.rtsp, none)
  | record .update _ g _ | record .recording _ g _ => some (.rtsp, some g)
  | _ => none

/-! ## The phases -/

/-- `handle_control_message` up to its first operation that changes something. -/
def receive (w : World) (c : Core) : ControlMessage → Op × Task
  | .precreateStream x =>
    match w.registry x with
    | some _ => (.ack x false, { phase := .idle c })
    | none => (.skip, { phase := .createChannel c x })
  | .stopStream x =>
    match w.registry x with
    | some g => (.skip, { phase := .stopCancel c x (w.token g) })
    | none => (.skip, { phase := .stopChannel c x })

def controlNext (w : World) : Phase → Choice → Option (Op × Task)
  | .idle c, .receive msg => some (receive w c msg)
  | .idle c, .finish =>
    if w.isCancelled (serverToken c) then some (.skip, { phase := .loopEnded c }) else none
  | .createChannel c x, .go => some (.createChannel x, { phase := .newLifecycle c x })
  | .newLifecycle c x, .go =>
    some (.newLifecycle c x, { phase := .precreate .register c x w.generationCount })
  -- the failed registration drops the lifecycle made for it, after the ack
  | .precreate .register c x g, .go =>
    match w.registry (w.liveId g) with
    | none => some (.register g, { phase := .precreate .describe c x g })
    | some _ => some (.ack x false, { phase := .idle c, disconnecting := some (.drop g) })
  | .precreate .describe c x g, .go =>
    match w.registry x with
    | some _ => some (.ack x true, { phase := .precreate .insert c x g })
    | none => some (.ack x false, { phase := .idle c, disconnecting := some (.drop g) })
  -- a lifecycle that was still under this key is dropped by the insertion
  | .precreate .insert c x g, .go =>
    if w.locked c x then none
    else
      some (.insertPending c x g,
        { phase := if w.ttl then .precreate .spawnTtl c x g else .idle c
          disconnecting := (w.pending c x).map .drop })
  | .precreate .spawnTtl c x g, .go => some (.spawn (.ttl .wait c x g), { phase := .idle c })
  | .stopCancel c x t, .go => some (.fire t, { phase := .stopChannel c x })
  | .stopChannel c x, .go => some (.removeChannel x, { phase := .idle c })
  | .loopEnded c, .release x =>
    match w.pending c x with
    | some g => some (.removePending c x, { phase := .loopEnded c, disconnecting := some (.drop g) })
    | none => none
  | _, _ => none

/-- The TTL task and the registry's cleanup task. -/
def timerNext (w : World) : Phase → Choice → Option (Op × Task)
  | .ttl .wait _ _ g, .finish => if w.isCancelled (w.token g) then some (.skip, {}) else none
  | .ttl .wait c x g, .go => some (.skip, { phase := .ttl .check c x g })
  | .ttl .check c x g, .go =>
    if (w.pending c x).isSome then some (.skip, { phase := .ttl .remove c x g }) else some (.skip, {})
  | .ttl .remove c x g, .go =>
    if w.locked c x then none
    else
      match w.pending c x with
      | none => some (.skip, {})
      | some g' =>
        some (.removePending c x,
          { phase := .ttl .channel c x g, disconnecting := some (.mark g' .timeout) })
  | .ttl .channel _ x _, .go => some (.removeChannel x, {})
  | .cleanupWait g, .go =>
    if w.isCancelled (w.token g) then some (.setState g .disconnected, { phase := .cleanupGrace g })
    else none
  | .cleanupGrace g, .go => some (.unregister g, {})
  | _, _ => none

/-- An RTMP publish connection and its `RtmpSource`. -/
def publishNext (w : World) : Phase → Choice → Option (Op × Task)
  | .publishRequested x, .go =>
    match w.pending .rtmp x with
    | none => some (.skip, {})
    | some g => some (.skip, { phase := .request .locked x g })
  | .request .locked x g, .go =>
    match w.getState x with
    | none =>
      some (.skip, { phase := .request .release x g, disconnecting := some (.mark g .clientDisconnect) })
    | some .pending => some (.skip, { phase := .request .accept x g })
    | some _ => some (.skip, { phase := .request .release x g })
  | .request .accept x g, .go => some (.skip, { phase := .request .connecting x g })
  | .request .accept x g, .fail =>
    some (.skip, { phase := .request .release x g, disconnecting := some (.mark g .clientDisconnect) })
  -- an error of `connecting` is only logged
  | .request .connecting x g, .go =>
    match w.updateState (w.liveId g) .connecting with
    | some (g', s) => some (.setState g' s, { phase := .request .accepted x g })
    | none => some (.skip, { phase := .request .accepted x g })
  | .request .release _ _, .go => some (.skip, {})
  | .request .accepted x g, .go =>
    match w.registry x with
    | none => some (.skip, {})
    | some g' => some (.skip, { phase := .publish .claim x g (w.token g') })
  | .publish .claim x _ t, .go =>
    if w.locked .rtmp x then none
    else
      match w.pending .rtmp x with
      | none => some (.skip, {})
      | some g => some (.removePending .rtmp x, { phase := .publish .source x g t })
  | .publish .source x g t, .go =>
    let pipeline := .child w.taskCount t
    some (.spawn (.rtmpSource g pipeline), { phase := .publish (.build pipeline) x g t })
  | .publish (.build pipeline) x g t, .go =>
    some (.spawn (.flvSink x g pipeline), { phase := .publish .publishing x g t })
  | .publish (.build _) _ g _, .fail => some (.skip, { disconnecting := some (.drop g) })
  -- a media message: `connect` does nothing after its first call
  | .publish .publishing x g t, .go =>
    if (w.generations g).connected then some (.skip, { phase := .publish .publishing x g t })
    else some (.setConnected g, { phase := .publish .connect x g t })
  | .publish .publishing x g t, .finish =>
    some (.skip,
      { phase := .publish .finished x g t, disconnecting := some (.mark g .clientDisconnect) })
  | .publish .publishing x g t, .fail =>
    some (.skip, { phase := .publish .cancel x g t, disconnecting := some (.drop g) })
  | .publish .connect x g t, .go =>
    match w.updateState (w.liveId g) .connected with
    | some (g', s) => some (.setState g' s, { phase := .publish .started x g t })
    | none => some (.skip, { phase := .publish .cancel x g t, disconnecting := some (.drop g) })
  | .publish .started x g t, .go =>
    some (.dispatch (.sessionStarted (w.liveId g) (w.generations g).protocol),
      { phase := .publish .publishing x g t })
  | .publish .finished x g t, .go => some (.fire t, { phase := .publish .publishing x g t })
  | .publish .cancel x g t, .go => some (.fire t, { phase := .publish .channel x g t })
  | .publish .channel x _ _, .go => some (.removeChannel x, {})
  | .rtmpSource _ pipeline, .go => some (.fire pipeline, {})
  | _, _ => none

def recordNext (w : World) : Phase → Choice → Option (Op × Task)
  | .recordClaim x k, .go =>
    if w.locked .rtsp x then none
    else
      match w.pending .rtsp x with
      | none => some (.skip, {})
      | some g => some (.removePending .rtsp x, { phase := .record .channel x g k })
  | .record .channel x g k, .go => some (.createChannel x, { phase := .record .connect x g k })
  | .record .connect x g k, .go =>
    if (w.generations g).connected then some (.skip, { phase := .record .build x g k })
    else some (.setConnected g, { phase := .record .update x g k })
  | .record .update x g k, .go =>
    match w.updateState (w.liveId g) .connected with
    | some (g', s) => some (.setState g' s, { phase := .record .started x g k })
    | none => some (.skip, { phase := .record .refused x g k })
  | .record .started x g k, .go =>
    some (.dispatch (.sessionStarted (w.liveId g) (w.generations g).protocol),
      { phase := .record .build x g k })
  | .record .refused x g k, .go => some (.fire k, { phase := .record .refusedChannel x g k })
  | .record .refusedChannel x g _, .go => some (.removeChannel x, { disconnecting := some (.drop g) })
  -- a pipeline that cannot be built is only logged
  | .record .build x g k, .go => some (.spawn (.flvSink x g k), { phase := .record .recording x g k })
  | .record .build x g k, .fail => some (.skip, { phase := .record .recording x g k })
  -- the `select!` of `run_rtp_loop` is biased: no frame is taken once `cancel` is cancelled
  | .record .recording x g k, .go =>
    if w.isCancelled k then none else some (.forward g, { phase := .record .recording x g k })
  | .record .recording x g k, .finish =>
    some (.skip, { phase := .record .cancel x g k, disconnecting := some (.mark g .clientDisconnect) })
  | .record .cancel x g k, .go => some (.fire k, { phase := .record .remove x g k })
  | .record .remove x _ _, .go => some (.removeChannel x, {})
  | _, _ => none

/-- `run_sink` over an `FlvSink`: its `select!` is not biased, so a tag may be taken after a cancel. -/
def sinkNext : Phase → Choice → Option (Op × Task)
  | .flvSink x g pipeline, .go => some (.broadcast x g, { phase := .flvSink x g pipeline })
  | .flvSink _ _ _, .finish => some (.skip, {})
  | _, _ => none

/-- `tasks.shutdown()` at the end of `run`. -/
def abortNext (w : World) (p : Phase) : Option (Op × Task) :=
  match p.awaiting with
  | some (c, owned) =>
    if (w.loop c).phase = .loopEnded c then some (.skip, { disconnecting := owned.map .drop }) else none
  | none => none

def Phase.next (w : World) (p : Phase) (choice : Choice) : Option (Op × Task) :=
  if choice = .abort then abortNext w p
  else
    match p with
    | .idle _ | .createChannel _ _ | .newLifecycle _ _ | .precreate _ _ _ _ | .stopCancel _ _ _
    | .stopChannel _ _ | .loopEnded _ => controlNext w p choice
    | .ttl _ _ _ _ | .cleanupWait _ | .cleanupGrace _ => timerNext w p choice
    | .publishRequested _ | .request _ _ _ | .publish _ _ _ _ | .rtmpSource _ _ => publishNext w p choice
    | .recordClaim _ _ | .record _ _ _ _ => recordNext w p choice
    | .flvSink _ _ _ => sinkNext p choice
    | .finished => none

def Task.next (w : World) (t : Task) (choice : Choice) : Option (Op × Task) :=
  match t.disconnecting with
  | some d =>
    if choice = .go then some ((d.next w).1, { t with disconnecting := (d.next w).2 }) else none
  | none => t.phase.next w choice

/-! ## Steps -/

inductive Action
  -- the process-wide token is cancelled
  | shutdown
  -- an RTMP client asks to publish `x`
  | publish (x : LiveId)
  -- an RTSP client reaches RECORD on `x`
  | record (x : LiveId)
  | run (i : ℕ) (choice : Choice)
  deriving DecidableEq

/-- What an action does to the shared state, and to the task that takes it. Each RTSP connection has a
token of its own, unrelated to the process-wide one. -/
def transition (w : World) : Action → Option (Op × Option (ℕ × Task))
  | .shutdown => some (.fire mainToken, none)
  | .publish x =>
    if (w.loop .rtmp).phase = .loopEnded .rtmp then none
    else some (.spawn (.publishRequested x), none)
  | .record x =>
    if (w.loop .rtsp).phase = .loopEnded .rtsp then none
    else some (.spawn (.recordClaim x (.child 0 (.root w.taskCount))), none)
  | .run i choice => ((w.tasks i).next w choice).map fun (op, t) => (op, some (i, t))

def World.setTask (w : World) (i : ℕ) (t : Task) : World :=
  { w with tasks := Function.update w.tasks i t }

def step (w : World) (a : Action) : Option World :=
  (transition w a).map fun
    | (op, none) => w.apply op
    | (op, some (i, t)) => (w.apply op).setTask i t

def goes (i n : ℕ) : List Action :=
  List.replicate n (.run i .go)

def handles (c : Core) (msg : ControlMessage) (n : ℕ) : List Action :=
  .run (loopIndex c) (.receive msg) :: goes (loopIndex c) n

end LivestreamRs.Sessions
