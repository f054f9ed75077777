import LivestreamRs.Rtmp.Handshake
import LivestreamRs.Rtmp.StreamKey
import LivestreamRs.Sessions.State

/-! # The connect phase of an RTMP session

`SessionGuard::connect` (`livestream-transport/src/rtmp/session.rs`): the events of a session are handled until a play
or publish request is accepted, which gives a `HandlerBuilder`, or one of them fails. `rml_rtmp`'s `ServerSession`, with
the socket its responses are written to, is an interface. The registry and the pending lifecycles belong to other tasks
too, so each event comes with what they hold when it is handled. `rml_rtmp` 0.8.0 never raises
`ClientChunkSizeChanged`; the code has a branch for it.
-/
namespace LivestreamRs.Rtmp
open Sessions
set_option autoImplicit false

/-! ## Events and the session -/

/-- `rml_rtmp::sessions::ServerSessionEvent` -/
inductive ServerSessionEvent
  | connectionRequested (requestId : ℕ) (appName : String)
  | playStreamRequested (requestId : ℕ) (streamKey : String) (streamId : ℕ)
  | publishStreamRequested (requestId : ℕ) (streamKey appName : String)
  | unhandleableAmf0Command (commandName : String) (transactionId : Float)
  | clientChunkSizeChanged (newChunkSize : ℕ)
  | pingResponseReceived (timestamp : ℕ)
  -- media, metadata, acknowledgements and the ends of streams
  | other (description : String)

inductive Amf0Value
  | number (value : Float)

structure ServerSession (σ : Type) where
  acceptRequest : σ → ℕ → Except String σ
  -- with a code and a description
  rejectRequest : σ → ℕ → String → String → Except String σ
  -- a `_result` for a transaction
  sendResult : σ → Float → List Amf0Value → Except String σ

/-- What the registry and the pending lifecycles hold. -/
structure SharedState where
  getState : LiveId → Option SessionState
  pendingLifecycle : LiveId → Bool

inductive LifecycleCall
  | connecting (streamKey : LiveId)
  | disconnect (streamKey : LiveId)
  deriving DecidableEq

inductive HandlerBuilder
  | play (streamKey : LiveId) (streamId : ℕ)
  | publish (streamKey : LiveId)
  deriving DecidableEq

inductive ConnectError
  -- of the session or the socket
  | session (error : String)
  -- "Client requested connection to unexpected app: {}"
  | unexpectedApp (appName : String)
  -- "Client requested to play non-existent or inactive stream: {}"
  | inactiveStream (streamKey : LiveId)
  -- "Client requested to publish to stream {} which has no pending lifecycle"
  | noPendingLifecycle (streamKey : LiveId)
  -- "Client requested to publish to a stream that does not exist: {}"
  | unknownStream (streamKey : LiveId)
  -- "Failed to accept publish request for stream {}: {}"
  | acceptFailed (streamKey : LiveId) (error : String)
  -- "Client requested to publish to a stream that is already active: {}"
  | alreadyActive (streamKey : LiveId)
  -- "Unhandled session event: {:?}"
  | unhandledEvent (event : ServerSessionEvent)

structure SessionGuard (σ : Type) where
  session : σ
  appname : String
  chunkSize : ℕ := 2048
  -- what was called on the pending lifecycles
  lifecycleCalls : List LifecycleCall := []

/-! ## One event -/

def maxChunkSize : ℕ := 16 * 1024 * 1024

namespace SessionGuard
variable {σ : Type} (io : ServerSession σ) (guard : SessionGuard σ)

def setChunkSize (newChunkSize : ℕ) : SessionGuard σ :=
  { guard with chunkSize := max minChunkSize (min newChunkSize maxChunkSize) }

def call (lifecycleCall : LifecycleCall) : SessionGuard σ :=
  { guard with lifecycleCalls := guard.lifecycleCalls ++ [lifecycleCall] }

/-- The guard after an event, and a builder if the phase is complete. -/
abbrev Handled (σ : Type) := SessionGuard σ × Except ConnectError (Option HandlerBuilder)

/-- A call of the session whose error is passed on. -/
def andThen (result : Except String σ) (next : SessionGuard σ → Handled σ) : Handled σ :=
  match result with
  | .error error => (guard, .error (.session error))
  | .ok session => next { guard with session := session }

/-- `reject_request`, then `bail!`. -/
def rejectRequest (requestId : ℕ) (code description : String) (error : ConnectError) : Handled σ :=
  guard.andThen (io.rejectRequest guard.session requestId code description) fun guard => (guard, .error error)

def onConnectRequested (requestId : ℕ) (appName : String) : Handled σ :=
  if appName ≠ guard.appname then
    guard.rejectRequest io requestId "AppNotFound" "Application not found" (.unexpectedApp appName)
  else guard.andThen (io.acceptRequest guard.session requestId) fun guard => (guard, .ok none)

def handleConnectionRequested (requestId : ℕ) (appName : String) : Handled σ :=
  match captures appName with
  | some caps =>
    if String.ofList ((caps.lookup .app).getD []) = guard.appname then
      guard.onConnectRequested io requestId guard.appname
    else guard.onConnectRequested io requestId appName
  | none => guard.onConnectRequested io requestId appName

def onPlayRequested (shared : SharedState) (requestId : ℕ) (streamKey : LiveId) (streamId : ℕ) : Handled σ :=
  if shared.getState streamKey ≠ some .connected then
    guard.rejectRequest io requestId "StreamNotFound" "Stream not found" (.inactiveStream streamKey)
  else
    guard.andThen (io.acceptRequest guard.session requestId) fun guard =>
      (guard, .ok (some (.play streamKey streamId)))

def onPublishRequested (shared : SharedState) (requestId : ℕ) (streamKey : LiveId) : Handled σ :=
  if !shared.pendingLifecycle streamKey then (guard, .error (.noPendingLifecycle streamKey))
  else
    match shared.getState streamKey with
    | none =>
      (guard.call (.disconnect streamKey)).rejectRequest io requestId "StreamNotFound" "Stream not found"
        (.unknownStream streamKey)
    | some .pending =>
      match io.acceptRequest guard.session requestId with
      | .error error => (guard.call (.disconnect streamKey), .error (.acceptFailed streamKey error))
      -- an error of `connecting` is only logged
      | .ok session =>
        ({ guard with session := session }.call (.connecting streamKey), .ok (some (.publish streamKey)))
    | some _ =>
      guard.rejectRequest io requestId "StreamAlreadyActive" "Stream is already active" (.alreadyActive streamKey)

/-- The arguments of the answer to a command that some clients send and the session does not know. -/
def optionalAmf0Result (commandName : String) : Option (List Amf0Value) :=
  match commandName with
  | "_checkbw" => some []
  | "getStreamLength" => some [.number 0.0]
  | "releaseStream" => some []
  | "FCPublish" => some []
  | _ => none

def handleOptionalAmf0Command (commandName : String) (transactionId : Float) : Handled σ :=
  match optionalAmf0Result commandName with
  | some arguments =>
    guard.andThen (io.sendResult guard.session transactionId arguments) fun guard => (guard, .ok none)
  -- with a warning
  | none => (guard, .ok none)

def handleConnectEvent (shared : SharedState) (event : ServerSessionEvent) : Handled σ :=
  match event with
  | .connectionRequested requestId appName => guard.handleConnectionRequested io requestId appName
  | .playStreamRequested requestId streamKey streamId =>
    guard.onPlayRequested io shared requestId (playStreamKey streamKey) streamId
  | .publishStreamRequested requestId streamKey appName =>
    guard.onPublishRequested io shared requestId (extractStreamKey streamKey appName)
  | .unhandleableAmf0Command commandName transactionId =>
    guard.handleOptionalAmf0Command io commandName transactionId
  | event => (guard, .error (.unhandledEvent event))

/-- `HandlerTrait::on_common_events` (`rtmp/handler/mod.rs`), which a handler runs first on each event. -/
def onCommonEvents (event : ServerSessionEvent) : SessionGuard σ × Option ServerSessionEvent :=
  match event with
  | .pingResponseReceived _ => (guard, none)
  | .clientChunkSizeChanged newChunkSize => (guard.setChunkSize newChunkSize, none)
  | event => (guard, some event)

end SessionGuard

/-- The events a running handler absorbs. -/
def ServerSessionEvent.isBenign : ServerSessionEvent → Bool
  | .pingResponseReceived _ | .clientChunkSizeChanged _ => true
  | _ => false

namespace SessionGuard
variable {σ : Type} {io : ServerSession σ} {guard : SessionGuard σ}

theorem onCommonEvents_absorbs_iff (guard : SessionGuard σ) (event : ServerSessionEvent) :
    (guard.onCommonEvents event).2 = none ↔ event.isBenign = true := by
  cases event <;> simp [onCommonEvents, ServerSessionEvent.isBenign]

/-- Before a handler runs they are unhandled. -/
theorem handleConnectEvent_benign {event : ServerSessionEvent} (h : event.isBenign = true) (shared : SharedState) :
    guard.handleConnectEvent io shared event = (guard, .error (.unhandledEvent event)) := by
  cases event with
  | pingResponseReceived | clientChunkSizeChanged => rfl
  | _ => cases h

section Unhandled
variable {unhandled : ServerSessionEvent}

theorem andThen_ne_unhandled {result : Except String σ} {next : SessionGuard σ → Handled σ}
    (hnext : ∀ guard', (next guard').2 ≠ .error (.unhandledEvent unhandled)) :
    (guard.andThen result next).2 ≠ .error (.unhandledEvent unhandled) := by
  cases result with
  | error error => exact fun h => by cases h
  | ok session => exact hnext _

theorem onConnectRequested_ne_unhandled (requestId : ℕ) (appName : String) :
    (guard.onConnectRequested io requestId appName).2 ≠ .error (.unhandledEvent unhandled) := by
  unfold onConnectRequested
  split
  · exact andThen_ne_unhandled fun _ h => by cases h
  · exact andThen_ne_unhandled fun _ h => by cases h

theorem onPlayRequested_ne_unhandled (shared : SharedState) (requestId : ℕ) (streamKey : LiveId) (streamId : ℕ) :
    (guard.onPlayRequested io shared requestId streamKey streamId).2 ≠ .error (.unhandledEvent unhandled) := by
  unfold onPlayRequested
  split
  · exact andThen_ne_unhandled fun _ h => by cases h
  · exact andThen_ne_unhandled fun _ h => by cases h

theorem onPublishRequested_ne_unhandled (shared : SharedState) (requestId : ℕ) (streamKey : LiveId) :
    (guard.onPublishRequested io shared requestId streamKey).2 ≠ .error (.unhandledEvent unhandled) := by
  unfold onPublishRequested
  split
  · exact fun h => by cases h
  · split
    · exact andThen_ne_unhandled fun _ h => by cases h
    -- here an error of the session is turned into one of this request
    · split <;> exact fun h => by cases h
    · exact andThen_ne_unhandled fun _ h => by cases h

theorem handleOptionalAmf0Command_ne_unhandled (commandName : String) (transactionId : Float) :
    (guard.handleOptionalAmf0Command io commandName transactionId).2 ≠ .error (.unhandledEvent unhandled) := by
  unfold handleOptionalAmf0Command
  split
  · exact andThen_ne_unhandled fun _ h => by cases h
  · exact fun h => by cases h

/-- The error names the event that was handled. -/
theorem eq_of_unhandled {shared : SharedState} {event : ServerSessionEvent}
    (h : (guard.handleConnectEvent io shared event).2 = .error (.unhandledEvent unhandled)) : unhandled = event := by
  cases event with
  | connectionRequested requestId appName =>
    simp only [handleConnectEvent, handleConnectionRequested] at h
    split at h
    · split at h
      · exact absurd h (onConnectRequested_ne_unhandled _ _)
      · exact absurd h (onConnectRequested_ne_unhandled _ _)
    · exact absurd h (onConnectRequested_ne_unhandled _ _)
  | playStreamRequested requestId streamKey streamId => exact absurd h (onPlayRequested_ne_unhandled _ _ _ _)
  | publishStreamRequested requestId streamKey appName => exact absurd h (onPublishRequested_ne_unhandled _ _ _)
  | unhandleableAmf0Command commandName transactionId =>
    exact absurd h (handleOptionalAmf0Command_ne_unhandled _ _)
  | clientChunkSizeChanged | pingResponseReceived | other =>
    injection h with h
    injection h with h
    exact h.symm

end Unhandled

end SessionGuard

/-! ## The phase -/

/-- How far the phase has come. -/
inductive Outcome (σ : Type)
  | reading (guard : SessionGuard σ)
  -- the builder takes the guard
  | connected (guard : SessionGuard σ) (builder : HandlerBuilder)
  | failed (guard : SessionGuard σ) (error : ConnectError)

def Outcome.decided {σ : Type} : Outcome σ → Bool
  | .reading _ => false
  | .connected _ _ | .failed _ _ => true

/-- An event, and what it finds. -/
abbrev Raised := SharedState × ServerSessionEvent

namespace SessionGuard
variable {σ : Type} (io : ServerSession σ)

/-- The `for` loop over the events of one read. -/
def handleEvents (guard : SessionGuard σ) : List Raised → Outcome σ
  | [] => .reading guard
  | (shared, event) :: rest =>
    match guard.handleConnectEvent io shared event with
    | (guard, .error error) => .failed guard error
    | (guard, .ok none) => handleEvents guard rest
    | (guard, .ok (some builder)) => .connected guard builder

/-- The `loop`, over the events of each read. -/
def connect (guard : SessionGuard σ) : List (List Raised) → Outcome σ
  | [] => .reading guard
  | events :: reads =>
    match guard.handleEvents io events with
    | .reading guard => connect guard reads
    | outcome => outcome

variable {io}

theorem handleEvents_append (guard : SessionGuard σ) (events later : List Raised) :
    guard.handleEvents io (events ++ later) =
      match guard.handleEvents io events with
      | .reading guard => guard.handleEvents io later
      | outcome => outcome := by
  induction events generalizing guard with
  | nil => rfl
  | cons raised events ih =>
    obtain ⟨shared, event⟩ := raised
    simp only [List.cons_append, handleEvents]
    split
    · rfl
    · exact ih _
    · rfl

/-- It does not matter which events were read together. -/
theorem connect_eq_handleEvents (guard : SessionGuard σ) (reads : List (List Raised)) :
    guard.connect io reads = guard.handleEvents io reads.flatten := by
  induction reads generalizing guard with
  | nil => rfl
  | cons events reads ih =>
    rw [List.flatten_cons, handleEvents_append, connect]
    split
    · exact ih _
    · rfl

theorem mem_of_failed_unhandled {guard guard' : SessionGuard σ} {events : List Raised} {event : ServerSessionEvent}
    (h : guard.handleEvents io events = .failed guard' (.unhandledEvent event)) :
    ∃ shared, (shared, event) ∈ events := by
  induction events generalizing guard with
  | nil => cases h
  | cons raised events ih =>
    obtain ⟨shared, head⟩ := raised
    simp only [handleEvents] at h
    split at h
    · next hhead =>
      injection h with hguard herror
      obtain rfl := eq_of_unhandled (congrArg Prod.snd (hhead.trans (by rw [herror])))
      exact ⟨shared, List.mem_cons_self⟩
    · obtain ⟨shared', hmem⟩ := ih h
      exact ⟨shared', List.mem_cons_of_mem _ hmem⟩
    · cases h

/-- The events a running handler would pass on. -/
def withoutBenign (events : List Raised) : List Raised := events.filter fun raised => !raised.2.isBenign

variable (io) in
/-- Every benign event comes after the request that completes the phase, or the one that fails it. -/
def BenignAfterDecision (guard : SessionGuard σ) (events : List Raised) : Prop :=
  ∀ earlier raised later, events = earlier ++ raised :: later → raised.2.isBenign = true →
    (guard.handleEvents io earlier).decided = true

theorem handleEvents_withoutBenign {guard : SessionGuard σ} {events : List Raised}
    (h : guard.BenignAfterDecision io events) :
    guard.handleEvents io events = guard.handleEvents io (withoutBenign events) := by
  induction events generalizing guard with
  | nil => rfl
  | cons raised events ih =>
    cases hbenign : raised.2.isBenign with
    | true => exact absurd (h [] raised events rfl hbenign) (by simp [handleEvents, Outcome.decided])
    | false =>
      have hkept : withoutBenign (raised :: events) = raised :: withoutBenign events := by
        simp [withoutBenign, hbenign]
      rw [hkept]
      simp only [handleEvents]
      split
      · rfl
      · next hhead =>
        refine ih fun earlier benign later hsplit hbenign' => ?_
        have hdecided := h (raised :: earlier) benign later (by rw [hsplit, List.cons_append]) hbenign'
        simpa only [handleEvents, hhead] using hdecided
      · rfl

/-- A benign event that is handled fails the phase. -/
theorem handleEvents_benign {guard guard' : SessionGuard σ} {earlier : List Raised}
    (h : guard.handleEvents io earlier = .reading guard') {raised : Raised} (hbenign : raised.2.isBenign = true)
    (later : List Raised) :
    guard.handleEvents io (earlier ++ raised :: later) = .failed guard' (.unhandledEvent raised.2) := by
  rw [handleEvents_append, h]
  simp only [handleEvents, handleConnectEvent_benign hbenign]

/-- Chunk size changes and ping responses leave the outcome of the connect phase as it is exactly when none of them is
handled in that phase. -/
theorem connect_withoutBenign_iff (io : ServerSession σ) (guard : SessionGuard σ)
    {reads plainReads : List (List Raised)} (hplain : plainReads.flatten = withoutBenign reads.flatten) :
    guard.connect io reads = guard.connect io plainReads ↔ guard.BenignAfterDecision io reads.flatten := by
  rw [connect_eq_handleEvents, connect_eq_handleEvents, hplain]
  refine ⟨fun heq earlier raised later hsplit hbenign => ?_, handleEvents_withoutBenign⟩
  cases houtcome : guard.handleEvents io earlier with
  | connected | failed => rfl
  | reading guard' =>
    -- the event would be among those the plain events raise
    rw [hsplit, handleEvents_benign houtcome hbenign, ← hsplit] at heq
    obtain ⟨shared, hmem⟩ := mem_of_failed_unhandled heq.symm
    have hnot := (List.mem_filter.mp hmem).2
    simp [hbenign] at hnot

/-! ## A publisher -/

/-- A session that accepts and answers everything. -/
def acceptingSession : ServerSession Unit where
  acceptRequest _ _ := .ok ()
  rejectRequest _ _ _ _ := .ok ()
  sendResult _ _ _ := .ok ()

/-- The stream `cam` awaits its publisher. -/
def camPending : SharedState where
  getState liveId := if liveId = "cam" then some .pending else none
  pendingLifecycle liveId := liveId == "cam"

def publisher : SessionGuard Unit := { session := (), appname := "live" }

def publishEvents : List Raised :=
  [(camPending, .connectionRequested 1 "live"), (camPending, .publishStreamRequested 2 "cam" "live")]

/-- A ping response after the publish request is not read. -/
theorem connect_withoutBenign_publish :
    publisher.connect acceptingSession [publishEvents, [(camPending, .pingResponseReceived 0)]] =
      publisher.connect acceptingSession [publishEvents] := by
  refine (connect_withoutBenign_iff acceptingSession publisher rfl).mpr fun earlier raised later hsplit hbenign => ?_
  rcases earlier with _ | ⟨first, _ | ⟨second, earlier⟩⟩
  · obtain ⟨rfl, -⟩ := List.cons.inj hsplit
    cases hbenign
  · obtain ⟨-, htail⟩ := List.cons.inj hsplit
    obtain ⟨rfl, -⟩ := List.cons.inj htail
    cases hbenign
  -- both requests come before the response
  · obtain ⟨rfl, htail⟩ := List.cons.inj hsplit
    obtain ⟨rfl, -⟩ := List.cons.inj htail
    rfl

/-- A client that answers a ping between its two requests is not connected. -/
theorem connect_ping_response_fails :
    (∃ guard, publisher.connect acceptingSession [publishEvents] = .connected guard (.publish "cam")) ∧
    publisher.connect acceptingSession
        [[(camPending, .connectionRequested 1 "live")], [(camPending, .pingResponseReceived 0)],
          [(camPending, .publishStreamRequested 2 "cam" "live")]] =
      .failed publisher (.unhandledEvent (.pingResponseReceived 0)) :=
  ⟨⟨_, rfl⟩, rfl⟩

end SessionGuard
end LivestreamRs.Rtmp
