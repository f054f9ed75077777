import LivestreamRs.Rtmp.Connect

/-! # What the connect phase lets through

Which requests complete `SessionGuard::connect` or fail it, what they have done to the pending lifecycles by then, and
which of them the client has had an answer to.
-/
namespace LivestreamRs.Rtmp
open Sessions
set_option autoImplicit false

namespace SessionGuard
variable {σ : Type} {io : ServerSession σ} {guard guard' : SessionGuard σ} {shared : SharedState}
  {event : ServerSessionEvent}

/-! ## One event -/

/-- The events that leave the phase open when nothing fails. -/
def isPreliminary : ServerSessionEvent → Bool
  | .connectionRequested _ _ | .unhandleableAmf0Command _ _ => true
  | _ => false

/-- The events with a branch of their own. -/
def isHandled : ServerSessionEvent → Bool
  | .connectionRequested _ _ | .playStreamRequested _ _ _ | .publishStreamRequested _ _ _
  | .unhandleableAmf0Command _ _ => true
  | _ => false

/-- The events whose answer goes out with no call on a lifecycle before it. -/
def awaitsAnswer (shared : SharedState) : ServerSessionEvent → Bool
  | .connectionRequested _ _ | .playStreamRequested _ _ _ => true
  | .publishStreamRequested _ streamKey appName =>
    shared.pendingLifecycle (extractStreamKey streamKey appName) &&
      (shared.getState (extractStreamKey streamKey appName)).any (· != .pending)
  | .unhandleableAmf0Command commandName _ => (optionalAmf0Result commandName).isSome
  | _ => false

/-- The errors an event may fail with, and the calls on the pending lifecycles before. -/
inductive Failure (appname : String) (shared : SharedState) :
    ServerSessionEvent → ConnectError → List LifecycleCall → Prop
  -- the answer cannot be written
  | session (event : ServerSessionEvent) (error : String) (hanswer : awaitsAnswer shared event = true) :
      Failure appname shared event (.session error) []
  | unexpectedApp (requestId : ℕ) (appName : String) (happ : appName ≠ appname) :
      Failure appname shared (.connectionRequested requestId appName) (.unexpectedApp appName) []
  | inactiveStream (requestId : ℕ) (streamKey : String) (streamId : ℕ)
      (hstate : shared.getState (playStreamKey streamKey) ≠ some .connected) :
      Failure appname shared (.playStreamRequested requestId streamKey streamId)
        (.inactiveStream (playStreamKey streamKey)) []
  | noPendingLifecycle (requestId : ℕ) (streamKey appName : String)
      (hnone : shared.pendingLifecycle (extractStreamKey streamKey appName) = false) :
      Failure appname shared (.publishStreamRequested requestId streamKey appName)
        (.noPendingLifecycle (extractStreamKey streamKey appName)) []
  | alreadyActive (requestId : ℕ) (streamKey appName : String)
      (hanswer : awaitsAnswer shared (.publishStreamRequested requestId streamKey appName) = true) :
      Failure appname shared (.publishStreamRequested requestId streamKey appName)
        (.alreadyActive (extractStreamKey streamKey appName)) []
  -- the pending lifecycle is ended for a stream that is gone, whether or not the rejection can be written
  | unknownStream (requestId : ℕ) (streamKey appName : String) (error : ConnectError)
      (hpending : shared.pendingLifecycle (extractStreamKey streamKey appName) = true)
      (hstate : shared.getState (extractStreamKey streamKey appName) = none)
      (herror : error = .unknownStream (extractStreamKey streamKey appName) ∨ ∃ e, error = .session e) :
      Failure appname shared (.publishStreamRequested requestId streamKey appName) error
        [.disconnect (extractStreamKey streamKey appName)]
  -- and when the acceptance cannot
  | acceptFailed (requestId : ℕ) (streamKey appName error : String)
      (hpending : shared.pendingLifecycle (extractStreamKey streamKey appName) = true)
      (hstate : shared.getState (extractStreamKey streamKey appName) = some .pending) :
      Failure appname shared (.publishStreamRequested requestId streamKey appName)
        (.acceptFailed (extractStreamKey streamKey appName) error) [.disconnect (extractStreamKey streamKey appName)]
  | unhandled (event : ServerSessionEvent) (hevent : isHandled event = false) :
      Failure appname shared event (.unhandledEvent event) []

/-- What an event may lead to, and with which calls on the pending lifecycles. -/
inductive Allowed (appname : String) (shared : SharedState) :
    ServerSessionEvent → Except ConnectError (Option HandlerBuilder) → List LifecycleCall → Prop
  | goOn (event : ServerSessionEvent) (hevent : isPreliminary event = true) : Allowed appname shared event (.ok none) []
  | play (requestId : ℕ) (streamKey : String) (streamId : ℕ)
      (hstate : shared.getState (playStreamKey streamKey) = some .connected) :
      Allowed appname shared (.playStreamRequested requestId streamKey streamId)
        (.ok (some (.play (playStreamKey streamKey) streamId))) []
  | publish (requestId : ℕ) (streamKey appName : String)
      (hpending : shared.pendingLifecycle (extractStreamKey streamKey appName) = true)
      (hstate : shared.getState (extractStreamKey streamKey appName) = some .pending) :
      Allowed appname shared (.publishStreamRequested requestId streamKey appName)
        (.ok (some (.publish (extractStreamKey streamKey appName)))) [.connecting (extractStreamKey streamKey appName)]
  | fail {event : ServerSessionEvent} {error : ConnectError} {calls : List LifecycleCall}
      (hfailure : Failure appname shared event error calls) : Allowed appname shared event (.error error) calls

/-- Only the session has moved on, and `calls` were made on the pending lifecycles. -/
structure Called (guard guard' : SessionGuard σ) (calls : List LifecycleCall) : Prop where
  appname : guard'.appname = guard.appname
  chunkSize : guard'.chunkSize = guard.chunkSize
  lifecycleCalls : guard'.lifecycleCalls = guard.lifecycleCalls ++ calls

theorem Called.refl (guard : SessionGuard σ) (session : σ) : Called guard { guard with session := session } [] :=
  ⟨rfl, rfl, (List.append_nil _).symm⟩

theorem Called.trans {guard'' : SessionGuard σ} {calls later : List LifecycleCall} (h : Called guard guard' calls)
    (h' : Called guard' guard'' later) : Called guard guard'' (calls ++ later) :=
  ⟨h'.appname.trans h.appname, h'.chunkSize.trans h.chunkSize, by
    rw [h'.lifecycleCalls, h.lifecycleCalls, List.append_assoc]⟩

variable (shared event) in
/-- What the handling of an event may have done. -/
def Lawful (guard : SessionGuard σ) (handled : Handled σ) : Prop :=
  ∃ calls, Allowed guard.appname shared event handled.2 calls ∧ Called guard handled.1 calls

theorem Lawful.fail {error : ConnectError} (hfailure : Failure guard.appname shared event error []) :
    Lawful shared event guard (guard, .error error) := ⟨[], .fail hfailure, .refl guard guard.session⟩

theorem lawful_andThen {result : Except String σ} {answer : Except ConnectError (Option HandlerBuilder)}
    (hawaits : awaitsAnswer shared event = true) (hanswer : Allowed guard.appname shared event answer []) :
    Lawful shared event guard (guard.andThen result fun guard => (guard, answer)) := by
  cases result with
  | error error => exact .fail (.session event error hawaits)
  | ok session => exact ⟨[], hanswer, .refl guard session⟩

theorem lawful_onConnectRequested (requestId : ℕ) (appName : String) :
    Lawful shared (.connectionRequested requestId appName) guard (guard.onConnectRequested io requestId appName) := by
  unfold onConnectRequested
  split
  · next happ => exact lawful_andThen rfl (.fail (.unexpectedApp requestId appName happ))
  · exact lawful_andThen rfl (.goOn _ rfl)

theorem lawful_handleConnectionRequested (requestId : ℕ) (appName : String) :
    Lawful shared (.connectionRequested requestId appName) guard
      (guard.handleConnectionRequested io requestId appName) := by
  unfold handleConnectionRequested
  split
  · split
    -- the name of the guard is asked for, which it expects
    · simp only [onConnectRequested, ne_eq, not_true_eq_false, if_false]
      exact lawful_andThen rfl (.goOn _ rfl)
    · exact lawful_onConnectRequested _ _
  · exact lawful_onConnectRequested _ _

theorem lawful_onPublishRequested (requestId : ℕ) (streamKey appName : String) :
    Lawful shared (.publishStreamRequested requestId streamKey appName) guard
      (guard.onPublishRequested io shared requestId (extractStreamKey streamKey appName)) := by
  unfold onPublishRequested
  split
  · next hnone => exact .fail (.noPendingLifecycle requestId streamKey appName (by simpa using hnone))
  · next hnone =>
    have hpending : shared.pendingLifecycle (extractStreamKey streamKey appName) = true := by simpa using hnone
    split
    · next hstate =>
      -- the lifecycle is told first, whatever comes of the answer
      unfold rejectRequest andThen
      split
      · exact ⟨_, .fail (.unknownStream requestId streamKey appName _ hpending hstate (.inr ⟨_, rfl⟩)), rfl, rfl, rfl⟩
      · exact ⟨_, .fail (.unknownStream requestId streamKey appName _ hpending hstate (.inl rfl)), rfl, rfl, rfl⟩
    · next hstate =>
      split
      · exact ⟨_, .fail (.acceptFailed requestId streamKey appName _ hpending hstate), rfl, rfl, rfl⟩
      · exact ⟨_, .publish requestId streamKey appName hpending hstate, rfl, rfl, rfl⟩
    · next state hactive hstate =>
      have hawaits : awaitsAnswer shared (.publishStreamRequested requestId streamKey appName) = true := by
        simp only [awaitsAnswer, hpending, hstate, Option.any_some, Bool.true_and, bne_iff_ne]
        exact hactive
      exact lawful_andThen hawaits (.fail (.alreadyActive requestId streamKey appName hawaits))

theorem lawful_handleConnectEvent (io : ServerSession σ) (guard : SessionGuard σ) (shared : SharedState)
    (event : ServerSessionEvent) : Lawful shared event guard (guard.handleConnectEvent io shared event) := by
  cases event with
  | connectionRequested requestId appName => exact lawful_handleConnectionRequested _ _
  | playStreamRequested requestId streamKey streamId =>
    simp only [handleConnectEvent, onPlayRequested]
    split
    · next hstate => exact lawful_andThen rfl (.fail (.inactiveStream requestId streamKey streamId hstate))
    · next hstate => exact lawful_andThen rfl (.play requestId streamKey streamId (not_not.mp hstate))
  | publishStreamRequested requestId streamKey appName => exact lawful_onPublishRequested _ _ _
  | unhandleableAmf0Command commandName transactionId =>
    simp only [handleConnectEvent, handleOptionalAmf0Command]
    split
    · next hresult => exact lawful_andThen (by rw [awaitsAnswer, hresult]; rfl) (.goOn _ rfl)
    · exact ⟨[], .goOn _ rfl, .refl guard guard.session⟩
  | clientChunkSizeChanged | pingResponseReceived | other => exact .fail (.unhandled _ rfl)

end SessionGuard

/-! ## The phase -/

/-- How the phase has ended. -/
def Outcome.decision {σ : Type} : Outcome σ → Option (SessionGuard σ × Except ConnectError (Option HandlerBuilder))
  | .reading _ => none
  | .connected guard builder => some (guard, .ok (some builder))
  | .failed guard error => some (guard, .error error)

namespace SessionGuard
variable {σ : Type} {io : ServerSession σ} {guard guard' : SessionGuard σ}

theorem handleEvents_decision {events : List Raised} {result : Except ConnectError (Option HandlerBuilder)}
    (h : (guard.handleEvents io events).decision = some (guard', result)) :
    ∃ earlier shared event later calls, events = earlier ++ (shared, event) :: later ∧
      (guard.handleEvents io earlier).decided = false ∧
      guard.handleEvents io (earlier ++ [(shared, event)]) = guard.handleEvents io events ∧
      Allowed guard.appname shared event result calls ∧ Called guard guard' calls := by
  induction events generalizing guard with
  | nil => cases h
  | cons raised events ih =>
    obtain ⟨shared, event⟩ := raised
    obtain ⟨calls, hallowed, hcalled⟩ := lawful_handleConnectEvent io guard shared event
    cases hhandled : guard.handleConnectEvent io shared event with
    | mk after answer =>
    rw [hhandled] at hallowed hcalled
    rcases answer with error | _ | builder
    · have houtcome : ∀ later, guard.handleEvents io ((shared, event) :: later) = .failed after error := by
        intro later
        simp only [handleEvents, hhandled]
      rw [houtcome] at h
      obtain ⟨rfl, rfl⟩ := Prod.mk.inj (Option.some.inj h)
      exact ⟨[], shared, event, events, calls, rfl, rfl, (houtcome []).trans (houtcome events).symm, hallowed, hcalled⟩
    · have houtcome : ∀ later, guard.handleEvents io ((shared, event) :: later) = after.handleEvents io later := by
        intro later
        simp only [handleEvents, hhandled]
      rw [houtcome] at h
      obtain ⟨earlier, shared', event', later, calls', rfl, hreading, hdecides, hallowed', hcalled'⟩ := ih h
      -- an event that is passed over has made no call
      cases hallowed
      rw [hcalled.appname] at hallowed'
      exact ⟨(shared, event) :: earlier, shared', event', later, calls', rfl, (houtcome _).symm ▸ hreading,
        (houtcome _).trans (hdecides.trans (houtcome _).symm), hallowed', hcalled.trans hcalled'⟩
    · have houtcome : ∀ later, guard.handleEvents io ((shared, event) :: later) = .connected after builder := by
        intro later
        simp only [handleEvents, hhandled]
      rw [houtcome] at h
      obtain ⟨rfl, rfl⟩ := Prod.mk.inj (Option.some.inj h)
      exact ⟨[], shared, event, events, calls, rfl, rfl, (houtcome []).trans (houtcome events).symm, hallowed, hcalled⟩

end SessionGuard

/-! ## Answers -/

def ServerSessionEvent.requestId : ServerSessionEvent → Option ℕ
  | connectionRequested requestId _ | playStreamRequested requestId _ _ | publishStreamRequested requestId _ _ =>
    some requestId
  | _ => none

/-- A session together with the requests it has answered. -/
def answering {σ : Type} (io : ServerSession σ) : ServerSession (σ × List ℕ) where
  acceptRequest session requestId :=
    (io.acceptRequest session.1 requestId).map fun after => (after, session.2 ++ [requestId])
  rejectRequest session requestId code description :=
    (io.rejectRequest session.1 requestId code description).map fun after => (after, session.2 ++ [requestId])
  sendResult session transactionId arguments :=
    (io.sendResult session.1 transactionId arguments).map fun after => (after, session.2)

/-- The answer could not be sent, or there was none: a publisher without a pending lifecycle is not told. -/
def ConnectError.leavesUnanswered : ConnectError → Bool
  | session _ | acceptFailed _ _ | noPendingLifecycle _ => true
  | _ => false

def Outcome.guard {σ : Type} : Outcome σ → SessionGuard σ
  | .reading guard | .connected guard _ | .failed guard _ => guard

namespace SessionGuard
variable {σ : Type} {io : ServerSession σ} {guard : SessionGuard (σ × List ℕ)} {shared : SharedState}
  {event : ServerSessionEvent}

def answered (guard : SessionGuard (σ × List ℕ)) : List ℕ := guard.session.2

variable (event) in
/-- The event's request is answered, or the phase fails without an answer. -/
def Answers (guard : SessionGuard (σ × List ℕ)) (handled : Handled (σ × List ℕ)) : Prop :=
  handled.1.answered = guard.answered ++ event.requestId.toList ∨
    handled.1.answered = guard.answered ∧ ∃ error, handled.2 = .error error ∧ error.leavesUnanswered = true

theorem answers_andThen {requestId : ℕ} (hrequest : event.requestId = some requestId) (result : Except String σ)
    (answer : Except ConnectError (Option HandlerBuilder)) :
    Answers event guard (guard.andThen (result.map fun after => (after, guard.session.2 ++ [requestId]))
      fun guard => (guard, answer)) := by
  cases result with
  | error error => exact .inr ⟨rfl, _, rfl, rfl⟩
  | ok session => exact .inl (by rw [hrequest]; rfl)

theorem answers_onConnectRequested {requestId : ℕ} (hrequest : event.requestId = some requestId) (appName : String) :
    Answers event guard (guard.onConnectRequested (answering io) requestId appName) := by
  unfold onConnectRequested
  split
  · exact answers_andThen hrequest _ _
  · exact answers_andThen hrequest _ _

theorem answers_onPublishRequested {requestId : ℕ} (hrequest : event.requestId = some requestId) (streamKey : LiveId) :
    Answers event guard (guard.onPublishRequested (answering io) shared requestId streamKey) := by
  unfold onPublishRequested
  split
  · exact .inr ⟨rfl, _, rfl, rfl⟩
  · split
    · -- the guard has noted a call, which is no answer
      change Answers event (guard.call (.disconnect streamKey)) _
      exact answers_andThen hrequest _ _
    · cases haccept : io.acceptRequest guard.session.1 requestId with
      | error error =>
        simp only [answering, haccept, Except.map]
        exact .inr ⟨rfl, _, rfl, rfl⟩
      | ok session =>
        simp only [answering, haccept, Except.map]
        exact .inl (by rw [hrequest]; rfl)
    · exact answers_andThen hrequest _ _

theorem answers_handleConnectEvent (io : ServerSession σ) (guard : SessionGuard (σ × List ℕ)) (shared : SharedState)
    (event : ServerSessionEvent) : Answers event guard (guard.handleConnectEvent (answering io) shared event) := by
  cases event with
  | connectionRequested requestId appName =>
    simp only [handleConnectEvent, handleConnectionRequested]
    split
    · split <;> exact answers_onConnectRequested rfl _
    · exact answers_onConnectRequested rfl _
  | playStreamRequested requestId streamKey streamId =>
    simp only [handleConnectEvent, onPlayRequested]
    split <;> exact answers_andThen rfl _ _
  | publishStreamRequested requestId streamKey appName => exact answers_onPublishRequested rfl _
  | unhandleableAmf0Command commandName transactionId =>
    simp only [handleConnectEvent, handleOptionalAmf0Command]
    split
    · next arguments _ =>
      cases hresult : io.sendResult guard.session.1 transactionId arguments with
      | error error =>
        simp only [answering, hresult, Except.map, andThen]
        exact .inr ⟨rfl, _, rfl, rfl⟩
      | ok session =>
        simp only [answering, hresult, Except.map, andThen]
        exact .inl (List.append_nil _).symm
    · exact .inl (List.append_nil _).symm
  | clientChunkSizeChanged | pingResponseReceived | other => exact .inl (List.append_nil _).symm

def requestIds (events : List Raised) : List ℕ := events.filterMap fun raised => raised.2.requestId

theorem requestIds_cons (raised : Raised) (events : List Raised) :
    requestIds (raised :: events) = raised.2.requestId.toList ++ requestIds events := by
  cases h : raised.2.requestId <;> simp [requestIds, h]

/-- Every request that is handled is answered once, in turn, but for the last if the phase fails on it. -/
theorem connect_answers (io : ServerSession σ) (guard : SessionGuard (σ × List ℕ)) (reads : List (List Raised)) :
    ∃ handled rest, reads.flatten = handled ++ rest ∧
      guard.handleEvents (answering io) handled = guard.connect (answering io) reads ∧
      ((guard.connect (answering io) reads).decided = false → rest = []) ∧
      ((guard.connect (answering io) reads).guard.answered = guard.answered ++ requestIds handled ∨
        ∃ earlier last after error, handled = earlier ++ [last] ∧
          guard.connect (answering io) reads = .failed after error ∧ error.leavesUnanswered = true ∧
          after.answered = guard.answered ++ requestIds earlier) := by
  rw [connect_eq_handleEvents]
  generalize reads.flatten = events
  induction events generalizing guard with
  | nil => exact ⟨[], [], rfl, rfl, fun _ => rfl, .inl (List.append_nil _).symm⟩
  | cons raised events ih =>
    obtain ⟨shared, event⟩ := raised
    have hanswers := answers_handleConnectEvent io guard shared event
    have hsingle : requestIds [(shared, event)] = event.requestId.toList := by
      rw [requestIds_cons]
      exact List.append_nil _
    cases hhandled : guard.handleConnectEvent (answering io) shared event with
    | mk after result =>
      rw [hhandled] at hanswers
      rcases result with error | _ | builder
      · have houtcome : ∀ later, guard.handleEvents (answering io) ((shared, event) :: later) = .failed after error := by
          intro later
          simp only [handleEvents, hhandled]
        refine ⟨[(shared, event)], events, rfl, (houtcome []).trans (houtcome events).symm, fun h => ?_, ?_⟩
        · rw [houtcome events] at h
          cases h
        · rw [houtcome events]
          rcases hanswers with hanswered | ⟨hanswered, error', herror, hsilent⟩
          · exact .inl (by rw [hsingle]; exact hanswered)
          · injection herror with herror
            exact .inr ⟨[], (shared, event), after, error, rfl, rfl, herror ▸ hsilent,
              hanswered.trans (List.append_nil _).symm⟩
      · have houtcome : ∀ later, guard.handleEvents (answering io) ((shared, event) :: later) =
            after.handleEvents (answering io) later := by
          intro later
          simp only [handleEvents, hhandled]
        have hanswered : after.answered = guard.answered ++ event.requestId.toList := by
          rcases hanswers with hanswered | ⟨-, error, herror, -⟩
          · exact hanswered
          · cases herror
        obtain ⟨handled, rest, rfl, hsame, hrest, hall⟩ := ih after
        refine ⟨(shared, event) :: handled, rest, rfl, (houtcome _).trans (hsame.trans (houtcome _).symm), ?_, ?_⟩
        · rw [houtcome]
          exact hrest
        · rw [houtcome]
          rcases hall with hall | ⟨earlier, last, final, error, rfl, hfailed, hsilent, hall⟩
          · exact .inl (by rw [hall, hanswered, requestIds_cons, List.append_assoc])
          · exact .inr ⟨(shared, event) :: earlier, last, final, error, rfl, hfailed, hsilent,
              by rw [hall, hanswered, requestIds_cons, List.append_assoc]⟩
      · have houtcome : ∀ later, guard.handleEvents (answering io) ((shared, event) :: later) =
            .connected after builder := by
          intro later
          simp only [handleEvents, hhandled]
        refine ⟨[(shared, event)], events, rfl, (houtcome []).trans (houtcome events).symm, fun h => ?_, .inl ?_⟩
        · rw [houtcome events] at h
          cases h
        · rw [houtcome events, hsingle]
          rcases hanswers with hanswered | ⟨-, error, herror, -⟩
          · exact hanswered
          · cases herror

end SessionGuard

end LivestreamRs.Rtmp
