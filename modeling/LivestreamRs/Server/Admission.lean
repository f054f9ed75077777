import LivestreamRs.Foundations.Permits
import LivestreamRs.Foundations.Transitions
import LivestreamRs.Sessions.Endpoints
import LivestreamRs.Sessions.State

/-! # Connection limits

`ProtocolServerCore::run` (`livestream-transport/src/protocol_server.rs`) as far as connections go: the accept loop with
its back-off, the semaphore that limits the connections (`config.rs`), the `JoinSet` their tasks are spawned into, and
what is recorded in `transport_connections_active` and `transport_connections_rejected_total`. What a connection does is
left to it: it may come back or panic at any time. Then the requests of `http_flv/server.rs`, which take a permit of
their own server's semaphore before the stream is looked up.
-/
namespace LivestreamRs.Server
open Foundations
set_option autoImplicit false

/-! ## The accept loop -/

/-- `std::io::ErrorKind`, as far as the loop looks at it. -/
inductive ErrorKind
  | interrupted
  | wouldBlock
  | timedOut
  | connectionAborted
  | connectionReset
  | other
  deriving DecidableEq

def isRetryableAcceptError : ErrorKind → Bool
  | .interrupted | .wouldBlock | .timedOut | .connectionAborted | .connectionReset => true
  | .other => false

/-- `make_connection_semaphore`: the permits of the semaphore, `none` without one. -/
def makeConnectionSemaphore (limit : ℕ) : Option ℕ := if 0 < limit then some limit else none

/-- A task of the `JoinSet`, which keeps it until it is joined. -/
inductive ConnectionTask
  | running (permit : Bool)
  | finished
  | panicked
  | aborted
  deriving DecidableEq

def ConnectionTask.isRunning : ConnectionTask → Bool
  | running _ => true
  | _ => false

/-- Its end was not recorded. -/
def ConnectionTask.isLost : ConnectionTask → Bool
  | panicked | aborted => true
  | _ => false

inductive LoopPhase
  -- at the `select!`
  | selecting
  -- in the `sleep` after an accept error, in milliseconds
  | sleeping (duration : ℕ)
  -- in `JoinSet::shutdown`
  | draining
  | ended
  deriving DecidableEq

structure ProtocolServerCore where
  connectionSemaphore : Option ℕ
  tasks : List ConnectionTask := []
  phase : LoopPhase := .selecting
  cancelled : Bool := false
  connectionsActive : ℤ := 0
  connectionsRejectedTotal : ℕ := 0
  -- history: the sockets that the listener gave
  sockets : ℕ := 0
  deriving DecidableEq

namespace ProtocolServerCore

/-- `from_config` -/
def fromConfig (maxConnections : ℕ) : ProtocolServerCore where
  connectionSemaphore := makeConnectionSemaphore maxConnections

section Operations
variable (s : ProtocolServerCore)

/-- With whether a permit was got. -/
def acquirePermit : ProtocolServerCore × Bool :=
  match s.connectionSemaphore with
  | none => (s, false)
  | some sem =>
    match tryAcquire (some sem) with
    | some left => ({ s with connectionSemaphore := left, connectionsActive := s.connectionsActive + 1 }, true)
    | none => ({ s with connectionsRejectedTotal := s.connectionsRejectedTotal + 1 }, false)

def spawnAccepted : ProtocolServerCore :=
  match s.acquirePermit with
  | (s, permit) =>
    -- the socket is dropped
    if !permit && s.connectionSemaphore.isSome then s
    else { s with
      connectionsActive := if s.connectionSemaphore.isNone then s.connectionsActive + 1 else s.connectionsActive
      tasks := s.tasks ++ [.running permit] }

def handleAcceptResult : Except ErrorKind Unit → ProtocolServerCore
  | .ok () => { s with sockets := s.sockets + 1 }.spawnAccepted
  | .error kind => { s with phase := .sleeping (if isRetryableAcceptError kind then 20 else 200) }

/-- The future of a task is gone, and its permit with it. -/
def endTask (i : ℕ) (outcome : ConnectionTask) : Option ProtocolServerCore :=
  match s.tasks[i]? with
  | some (.running permit) =>
    some { s with
      connectionSemaphore := if permit then releasePermit s.connectionSemaphore else s.connectionSemaphore
      connectionsActive := if outcome = .finished then s.connectionsActive - 1 else s.connectionsActive
      tasks := s.tasks.set i outcome }
  | _ => none

end Operations

inductive ConnectionAction
  | accept (result : Except ErrorKind Unit)
  | wake
  | cancel
  -- the loop sees that it is cancelled
  | leave
  | finish (i : ℕ)
  | panicked (i : ℕ)
  | abort (i : ℕ)
  -- the last task is joined; `shutdown` joins them one by one, and until here the list keeps those joined already
  | joined

def step (s : ProtocolServerCore) : ConnectionAction → Option ProtocolServerCore
  | .accept result => if s.phase = .selecting then some (s.handleAcceptResult result) else none
  | .wake =>
    match s.phase with
    | .sleeping _ => some { s with phase := .selecting }
    | _ => none
  | .cancel => some { s with cancelled := true }
  | .leave => if s.phase = .selecting ∧ s.cancelled then some { s with phase := .draining } else none
  | .finish i => s.endTask i .finished
  | .panicked i => s.endTask i .panicked
  | .abort i => if s.phase = .draining then s.endTask i .aborted else none
  | .joined =>
    if s.phase = .draining ∧ s.tasks.countP ConnectionTask.isRunning = 0 then
      some { s with phase := .ended, tasks := [] }
    else none

/-! ## What every step keeps -/

section Facts
variable {s s' : ProtocolServerCore} {limit : ℕ}

theorem spawnAccepted_of_refused (h : tryAcquire s.connectionSemaphore = none) :
    s.spawnAccepted = { s with connectionsRejectedTotal := s.connectionsRejectedTotal + 1 } := by
  cases hsem : s.connectionSemaphore with
  | none =>
    rw [hsem] at h
    cases h
  | some sem =>
    rw [hsem] at h
    simp [spawnAccepted, acquirePermit, hsem, h]

theorem spawnAccepted_of_acquired {left : Option ℕ} (h : tryAcquire s.connectionSemaphore = some left) :
    s.spawnAccepted = { s with
      connectionSemaphore := left
      connectionsActive := s.connectionsActive + 1
      tasks := s.tasks ++ [.running s.connectionSemaphore.isSome] } := by
  cases hsem : s.connectionSemaphore with
  | none =>
    rw [hsem] at h
    obtain rfl := Option.some.inj h
    simp [spawnAccepted, acquirePermit, hsem]
  | some sem =>
    rw [hsem] at h
    cases sem with
    | zero => cases h
    | succ n =>
      obtain rfl := Option.some.inj h
      simp [spawnAccepted, acquirePermit, hsem, tryAcquire]

/-- The permits and the records are right. -/
structure Sound (limit : ℕ) (s : ProtocolServerCore) : Prop where
  balanced : Balanced (makeConnectionSemaphore limit) s.connectionSemaphore (s.tasks.countP ConnectionTask.isRunning)
  permits : ∀ permit, .running permit ∈ s.tasks → permit = s.connectionSemaphore.isSome
  recorded : s.phase ≠ .ended →
    s.connectionsActive = s.tasks.countP ConnectionTask.isRunning + s.tasks.countP ConnectionTask.isLost
  sockets : s.phase ≠ .ended → s.sockets = s.tasks.length + s.connectionsRejectedTotal
  leaves : s.phase = .draining ∨ s.phase = .ended → s.cancelled = true

theorem sound_fromConfig (limit : ℕ) : Sound limit (fromConfig limit) where
  balanced := .initial _
  permits _ h := by cases h
  recorded _ := rfl
  sockets _ := rfl
  leaves h := by rcases h with h | h <;> cases h

theorem Sound.setPhase {phase : LoopPhase} (h : Sound limit s) (hopen : s.phase ≠ .ended)
    (hleaves : phase = .draining ∨ phase = .ended → s.cancelled = true) : Sound limit { s with phase := phase } :=
  ⟨h.balanced, h.permits, fun _ => h.recorded hopen, fun _ => h.sockets hopen, hleaves⟩

theorem Sound.accept (h : Sound limit s) (hphase : s.phase = .selecting) (result : Except ErrorKind Unit) :
    Sound limit (s.handleAcceptResult result) := by
  have hopen : s.phase ≠ .ended := by simp [hphase]
  cases result with
  | error kind =>
    exact h.setPhase hopen fun hleft => by rcases hleft with hleft | hleft <;> cases hleft
  | ok socket =>
    cases hacquire : tryAcquire s.connectionSemaphore with
    | none =>
      rw [handleAcceptResult, spawnAccepted_of_refused (s := { s with sockets := s.sockets + 1 }) hacquire]
      refine ⟨h.balanced, h.permits, h.recorded, fun _ => ?_, h.leaves⟩
      dsimp only
      have := h.sockets hopen
      omega
    | some left =>
      rw [handleAcceptResult, spawnAccepted_of_acquired (s := { s with sockets := s.sockets + 1 }) hacquire]
      refine ⟨h.balanced.enter hacquire rfl, fun permit hmem => ?_, fun _ => ?_, fun _ => ?_, h.leaves⟩
      · rw [List.mem_append, List.mem_singleton, ConnectionTask.running.injEq] at hmem
        rw [isSome_of_tryAcquire hacquire]
        exact hmem.elim (h.permits permit) id
      · have := h.recorded hopen
        simp only [List.countP_append, List.countP_singleton, ConnectionTask.isRunning, ConnectionTask.isLost]
        push_cast
        omega
      · have := h.sockets hopen
        simp only [List.length_append, List.length_singleton]
        omega

theorem Sound.endTask {i : ℕ} {outcome : ConnectionTask} (h : Sound limit s) (houtcome : outcome.isRunning = false)
    (hend : s.endTask i outcome = some s') : Sound limit s' := by
  unfold ProtocolServerCore.endTask at hend
  split at hend
  · next permit hi =>
    obtain rfl := Option.some.inj hend
    obtain ⟨hlt, hget⟩ := List.getElem?_eq_some_iff.mp hi
    have hpermit : permit = s.connectionSemaphore.isSome := h.permits permit (List.mem_of_getElem? hi)
    have hrelease : (if permit then releasePermit s.connectionSemaphore else s.connectionSemaphore) =
        releasePermit s.connectionSemaphore := by
      rw [hpermit]
      cases s.connectionSemaphore <;> rfl
    have hpos : 0 < s.tasks.countP ConnectionTask.isRunning :=
      List.countP_pos_iff.mpr ⟨_, List.mem_of_getElem? hi, rfl⟩
    refine ⟨?_, fun permit' hmem => ?_, fun hopen => ?_, fun hopen => ?_, h.leaves⟩
    · rw [hrelease]
      exact h.balanced.leave hi rfl houtcome
    · rw [hrelease, releasePermit, Option.isSome_map]
      rcases List.mem_or_eq_of_mem_set hmem with hmem | rfl
      · exact h.permits permit' hmem
      · cases houtcome
    · have := h.recorded hopen
      simp only [List.countP_set hlt, hget, houtcome]
      cases outcome <;> simp [ConnectionTask.isRunning, ConnectionTask.isLost] at houtcome ⊢ <;> omega
    · simpa using h.sockets hopen
  · cases hend

theorem Sound.step {a : ConnectionAction} (h : Sound limit s) (hstep : s.step a = some s') : Sound limit s' := by
  cases a with
  | accept result =>
    obtain ⟨hphase, heq⟩ := Option.ite_none_right_eq_some.mp hstep
    exact Option.some.inj heq ▸ h.accept hphase result
  | wake =>
    simp only [ProtocolServerCore.step] at hstep
    split at hstep
    · next duration hphase =>
      obtain rfl := Option.some.inj hstep
      exact h.setPhase (by simp [hphase]) fun hleft => by rcases hleft with hleft | hleft <;> cases hleft
    · cases hstep
  | cancel =>
    obtain rfl := Option.some.inj hstep
    exact ⟨h.balanced, h.permits, h.recorded, h.sockets, fun _ => rfl⟩
  | leave =>
    obtain ⟨⟨hphase, hcancelled⟩, heq⟩ := Option.ite_none_right_eq_some.mp hstep
    obtain rfl := Option.some.inj heq
    exact h.setPhase (by simp [hphase]) fun _ => hcancelled
  | finish i => exact h.endTask rfl hstep
  | panicked i => exact h.endTask rfl hstep
  | abort i =>
    obtain ⟨-, hend⟩ := Option.ite_none_right_eq_some.mp hstep
    exact h.endTask rfl hend
  | joined =>
    obtain ⟨⟨hphase, hnone⟩, heq⟩ := Option.ite_none_right_eq_some.mp hstep
    obtain rfl := Option.some.inj heq
    have hbalanced := h.balanced
    rw [hnone] at hbalanced
    exact ⟨hbalanced, fun _ hmem => (by cases hmem), fun hopen => absurd rfl hopen, fun hopen => absurd rfl hopen,
      fun _ => h.leaves (.inl hphase)⟩

theorem sound_of_run {acts : List ConnectionAction} (hrun : run step (fromConfig limit) acts = some s) :
    Sound limit s :=
  run_invariant (I := Sound limit) (fun _ _ _ h _ hstep => h.step hstep) (sound_fromConfig limit)
    (eachStep_trivial _ acts) hrun

end Facts

/-! ## Whole runs -/

section Runs
variable {limit : ℕ} {acts : List ConnectionAction} {s : ProtocolServerCore}

/-- Until it is cancelled a server goes back to its `select!`, whatever errors `accept` has given and however its
connections have ended. -/
theorem serves_until_cancelled (hrun : run step (fromConfig limit) acts = some s) (h : s.cancelled = false) :
    s.phase = .selecting ∨ ∃ duration, s.phase = .sleeping duration := by
  have hleaves := (sound_of_run hrun).leaves
  cases hphase : s.phase with
  | selecting => exact .inl rfl
  | sleeping duration => exact .inr ⟨duration, rfl⟩
  | draining | ended => simp [hleaves, hphase] at h

/-- With a limit, the connections that run and the permits that are left are the limit, so no way for a connection to
end costs the server a permit; a socket is refused exactly when as many connections run as may. -/
theorem connections_limited (hrun : run step (fromConfig limit) acts = some s) (hlimit : 0 < limit) :
    s.tasks.countP ConnectionTask.isRunning ≤ limit ∧
      s.connectionSemaphore = some (limit - s.tasks.countP ConnectionTask.isRunning) ∧
      (s.spawnAccepted.tasks = s.tasks ↔ s.tasks.countP ConnectionTask.isRunning = limit) := by
  have hbalanced := (sound_of_run hrun).balanced
  have hsemaphore : makeConnectionSemaphore limit = some limit := if_pos hlimit
  rw [hsemaphore] at hbalanced
  refine ⟨hbalanced.held_le limit rfl, by rw [hbalanced.left_eq, Option.map_some], ?_⟩
  refine hbalanced.iff_of_refused (fun hacquire => ?_) fun left hacquire => ?_
  · rw [spawnAccepted_of_refused hacquire]
  · rw [spawnAccepted_of_acquired hacquire]
    simp

theorem connections_limited_full : ∃ s, run step (fromConfig 1) [.accept (.ok ()), .accept (.ok ())] = some s ∧
    s.spawnAccepted.tasks = s.tasks := by
  have hrun : (run step (fromConfig 1) [.accept (.ok ()), .accept (.ok ())]).map (·.tasks) = some [.running true] := by
    decide
  obtain ⟨s, hs, htasks⟩ := Option.map_eq_some_iff.mp hrun
  exact ⟨s, hs, (connections_limited hs (by decide)).2.2.mpr (by rw [htasks]; rfl)⟩

/-- Every socket the listener gave is counted as rejected or has a task, which the `JoinSet` keeps until the loop is left;
what is recorded as active is the connections that run and those that panicked or, after the loop, were aborted. -/
theorem connections_recorded (hrun : run step (fromConfig limit) acts = some s) (hopen : s.phase ≠ .ended) :
    s.sockets = s.tasks.length + s.connectionsRejectedTotal ∧
      s.connectionsActive = s.tasks.countP ConnectionTask.isRunning + s.tasks.countP ConnectionTask.isLost :=
  ⟨(sound_of_run hrun).sockets hopen, (sound_of_run hrun).recorded hopen⟩

/-- One connection panicked and the next has ended: no connection runs, one is recorded as active and two tasks are kept. -/
theorem connections_recorded_panicked : ∃ s, run step (fromConfig 1)
    [.accept (.ok ()), .panicked 0, .accept (.ok ()), .finish 1] = some s ∧ s.sockets = s.tasks.length + 0 ∧
      s.connectionsActive = 1 := by
  have hrun : (run step (fromConfig 1) [.accept (.ok ()), .panicked 0, .accept (.ok ()), .finish 1]).map
      (fun s => (s.phase, s.tasks, s.connectionsRejectedTotal)) = some (.selecting, [.panicked, .finished], 0) := by decide
  obtain ⟨s, hs, hstate⟩ := Option.map_eq_some_iff.mp hrun
  obtain ⟨hphase, hrest⟩ := Prod.mk.inj hstate
  obtain ⟨htasks, hrejected⟩ := Prod.mk.inj hrest
  obtain ⟨hsockets, hactive⟩ := connections_recorded hs (by simp [hphase])
  refine ⟨s, hs, by rw [hsockets, hrejected], ?_⟩
  rw [hactive, htasks]
  rfl

end Runs

end ProtocolServerCore

/-! ## Requests for playback -/

inductive StatusCode
  | notFound
  | serviceUnavailable
  deriving DecidableEq

/-- A request of the playback route, from its handler to the end of the body. -/
inductive PlaybackRequest
  -- `get_state` is awaited
  | checking (liveId : String) (permit : Bool)
  -- the body owns the permit
  | streaming (liveId : String) (permit : Bool)
  | answered (status : StatusCode)
  -- the body has ended, or the client is gone
  | closed
  deriving DecidableEq

def PlaybackRequest.holdsPermit : PlaybackRequest → Bool
  | checking _ _ | streaming _ _ => true
  | answered _ | closed => false

def PlaybackRequest.permit : PlaybackRequest → Bool
  | checking _ permit | streaming _ permit => permit
  | answered _ | closed => false

structure HttpFlvState where
  connectionSemaphore : Option ℕ
  requests : List PlaybackRequest := []
  deriving DecidableEq

namespace HttpFlvState

/-- `HttpFlvServer::create` -/
def create (maxConnections : ℕ) : HttpFlvState where
  connectionSemaphore := makeConnectionSemaphore maxConnections

variable (s : HttpFlvState)

/-- `handle_http_flv` up to its `await`. -/
def handleHttpFlv (path : String) : HttpFlvState :=
  match Sessions.parseLiveId path with
  | none => { s with requests := s.requests ++ [.answered .notFound] }
  | some liveId =>
    match s.connectionSemaphore with
    | none => { s with requests := s.requests ++ [.checking liveId false] }
    | some sem =>
      match tryAcquire (some sem) with
      | some left => { connectionSemaphore := left, requests := s.requests ++ [.checking liveId true] }
      | none => { s with requests := s.requests ++ [.answered .serviceUnavailable] }

def setRequest (i : ℕ) (before after : PlaybackRequest) : HttpFlvState where
  connectionSemaphore :=
    if before.permit && !after.holdsPermit then releasePermit s.connectionSemaphore else s.connectionSemaphore
  requests := s.requests.set i after

/-- What `get_state` finds, and whether the hub has a channel. -/
def lookUp (liveId : String) (permit : Bool) (found : Option Sessions.SessionState) (hasChannel : Bool) :
    PlaybackRequest :=
  match found with
  | some .connected => if hasChannel then .streaming liveId permit else .answered .notFound
  | some .pending | some .connecting | some .disconnected => .answered .serviceUnavailable
  | none => .answered .notFound

inductive PlaybackAction
  | request (path : String)
  | lookUp (i : ℕ) (found : Option Sessions.SessionState) (hasChannel : Bool)
  -- the body has ended or the client has left, at whatever stage
  | drop (i : ℕ)

def step : PlaybackAction → Option HttpFlvState
  | .request path => some (s.handleHttpFlv path)
  | .lookUp i found hasChannel =>
    match s.requests[i]? with
    | some (.checking liveId permit) =>
      some (s.setRequest i (.checking liveId permit) (lookUp liveId permit found hasChannel))
    | _ => none
  | .drop i =>
    match s.requests[i]? with
    | some request => if request.holdsPermit then some (s.setRequest i request .closed) else none
    | none => none

/-! ## Permits of the viewers -/

section Facts
variable {s} {s' : HttpFlvState} {limit : ℕ}

/-- A request that holds a permit got it from the semaphore, if there is one. -/
structure Sound (limit : ℕ) (s : HttpFlvState) : Prop where
  balanced : Balanced (makeConnectionSemaphore limit) s.connectionSemaphore
    (s.requests.countP PlaybackRequest.holdsPermit)
  permits : ∀ request ∈ s.requests, request.holdsPermit = true → request.permit = s.connectionSemaphore.isSome

theorem handleHttpFlv_of_refused {path liveId : String} (hpath : Sessions.parseLiveId path = some liveId)
    (h : tryAcquire s.connectionSemaphore = none) :
    s.handleHttpFlv path = { s with requests := s.requests ++ [.answered .serviceUnavailable] } := by
  cases hsem : s.connectionSemaphore with
  | none =>
    rw [hsem] at h
    cases h
  | some sem =>
    rw [hsem] at h
    simp only [handleHttpFlv, hpath, hsem, h]

theorem handleHttpFlv_of_acquired {path liveId : String} (hpath : Sessions.parseLiveId path = some liveId)
    {left : Option ℕ} (h : tryAcquire s.connectionSemaphore = some left) :
    s.handleHttpFlv path =
      { connectionSemaphore := left, requests := s.requests ++ [.checking liveId s.connectionSemaphore.isSome] } := by
  cases hsem : s.connectionSemaphore with
  | none =>
    rw [hsem] at h
    obtain rfl := Option.some.inj h
    simp only [handleHttpFlv, hpath, hsem]
    rfl
  | some sem =>
    rw [hsem] at h
    simp only [handleHttpFlv, hpath, hsem, h]
    rfl

theorem Sound.pass (h : Sound limit s) (status : StatusCode) :
    Sound limit { s with requests := s.requests ++ [.answered status] } := by
  refine ⟨h.balanced.pass rfl, fun request hmem hholds => ?_⟩
  rcases List.mem_append.mp hmem with hmem | hmem
  · exact h.permits request hmem hholds
  · obtain rfl := List.mem_singleton.mp hmem
    cases hholds

theorem Sound.handleHttpFlv (h : Sound limit s) (path : String) : Sound limit (s.handleHttpFlv path) := by
  cases hpath : Sessions.parseLiveId path with
  | none =>
    simp only [HttpFlvState.handleHttpFlv, hpath]
    exact h.pass .notFound
  | some liveId =>
    cases hacquire : tryAcquire s.connectionSemaphore with
    | none =>
      rw [handleHttpFlv_of_refused hpath hacquire]
      exact h.pass .serviceUnavailable
    | some left =>
      rw [handleHttpFlv_of_acquired hpath hacquire]
      refine ⟨h.balanced.enter hacquire rfl, fun request hmem hholds => ?_⟩
      rw [isSome_of_tryAcquire hacquire]
      rcases List.mem_append.mp hmem with hmem | hmem
      · exact h.permits request hmem hholds
      · obtain rfl := List.mem_singleton.mp hmem
        rfl

theorem Sound.setRequest {i : ℕ} {before after : PlaybackRequest} (h : Sound limit s)
    (hi : s.requests[i]? = some before) (hbefore : before.holdsPermit = true)
    (hafter : after.holdsPermit = true → after.permit = before.permit) : Sound limit (s.setRequest i before after) := by
  have hpermit := h.permits before (List.mem_of_getElem? hi) hbefore
  have hmem : ∀ request ∈ s.requests.set i after, request.holdsPermit = true →
      request.permit = s.connectionSemaphore.isSome := by
    intro request hmem hholds
    rcases List.mem_or_eq_of_mem_set hmem with hmem | rfl
    · exact h.permits request hmem hholds
    · exact (hafter hholds).trans hpermit
  cases hholds : after.holdsPermit with
  | true =>
    rw [HttpFlvState.setRequest, hholds, Bool.not_true, Bool.and_false, if_neg Bool.false_ne_true]
    exact ⟨h.balanced.goOn hi (hholds.trans hbefore.symm), hmem⟩
  | false =>
    have hrelease : (if before.permit && !after.holdsPermit then releasePermit s.connectionSemaphore
        else s.connectionSemaphore) = releasePermit s.connectionSemaphore := by
      rw [hholds, Bool.not_false, Bool.and_true, hpermit]
      cases s.connectionSemaphore <;> rfl
    rw [HttpFlvState.setRequest, hrelease]
    refine ⟨h.balanced.leave hi hbefore hholds, fun request hrequest hrequestHolds => ?_⟩
    rw [releasePermit, Option.isSome_map]
    exact hmem request hrequest hrequestHolds

theorem permit_lookUp {liveId : String} {permit : Bool} {found : Option Sessions.SessionState} {hasChannel : Bool}
    (h : (lookUp liveId permit found hasChannel).holdsPermit = true) :
    (lookUp liveId permit found hasChannel).permit = permit := by
  revert h
  unfold lookUp
  repeat' split
  · exact fun _ => rfl
  all_goals exact fun h => by cases h

theorem Sound.step {a : PlaybackAction} (h : Sound limit s) (hstep : s.step a = some s') : Sound limit s' := by
  cases a with
  | request path => exact Option.some.inj hstep ▸ h.handleHttpFlv path
  | lookUp i found hasChannel =>
    simp only [HttpFlvState.step] at hstep
    split at hstep
    · next liveId permit hi => exact Option.some.inj hstep ▸ h.setRequest hi rfl permit_lookUp
    · cases hstep
  | drop i =>
    simp only [HttpFlvState.step] at hstep
    split at hstep
    · next request hi =>
      obtain ⟨hholds, heq⟩ := Option.ite_none_right_eq_some.mp hstep
      exact Option.some.inj heq ▸ h.setRequest hi hholds fun hclosed => by cases hclosed
    · cases hstep

/-- The requests that are being looked up and the bodies that are being sent, and the permits that are left, are the
limit: no answer and no client that leaves costs the server a permit. A request for a stream is turned away at once
exactly when the limit is reached, looked-up requests included. -/
theorem viewers_limited {acts : List PlaybackAction} (hrun : run step (create limit) acts = some s) (hlimit : 0 < limit)
    {path liveId : String} (hpath : Sessions.parseLiveId path = some liveId) :
    s.requests.countP PlaybackRequest.holdsPermit ≤ limit ∧
      s.connectionSemaphore = some (limit - s.requests.countP PlaybackRequest.holdsPermit) ∧
      ((s.handleHttpFlv path).requests = s.requests ++ [.answered .serviceUnavailable] ↔
        s.requests.countP PlaybackRequest.holdsPermit = limit) := by
  have hsound : Sound limit s :=
    run_invariant (I := Sound limit) (fun _ _ _ h _ hstep => h.step hstep) ⟨.initial _, fun _ hmem => by cases hmem⟩
      (eachStep_trivial _ acts) hrun
  have hbalanced := hsound.balanced
  rw [makeConnectionSemaphore, if_pos hlimit] at hbalanced
  refine ⟨hbalanced.held_le limit rfl, by rw [hbalanced.left_eq, Option.map_some], ?_⟩
  refine hbalanced.iff_of_refused (fun hacquire => ?_) fun left hacquire => ?_
  · rw [handleHttpFlv_of_refused hpath hacquire]
  · rw [handleHttpFlv_of_acquired hpath hacquire]
    simp

/-- A request for a stream nobody knows takes the last permit while it is looked up. -/
theorem viewers_limited_lookedUp : ∃ s, run step (create 1) [.request "nobody.flv"] = some s ∧
    (s.handleHttpFlv "cam.flv").requests = s.requests ++ [.answered .serviceUnavailable] := by
  have hrun : (run step (create 1) [.request "nobody.flv"]).map (·.requests) = some [.checking "nobody" true] := by decide
  obtain ⟨s, hs, hrequests⟩ := Option.map_eq_some_iff.mp hrun
  have hpath : Sessions.parseLiveId "cam.flv" = some "cam" := by decide
  exact ⟨s, hs, (viewers_limited hs (by decide) hpath).2.2.mpr (by rw [hrequests]; rfl)⟩

end Facts

end HttpFlvState

end LivestreamRs.Server
