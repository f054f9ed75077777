import LivestreamRs.Sessions.Dispatcher
import LivestreamRs.Sessions.Registry

/-! # Lifecycles and their events

`HandlerLifecycle` of `livestream-transport/src/lifecycle.rs` over the session registry. Any number of lifecycles
share the registry; their methods are called in any order and run concurrently, one operation on shared state at
a time, and everything else that happens to the registry (`StopStream` cancelling a token, cleanup tasks, other
sessions) may come in between. A lifecycle is dropped by its owner when none of its methods is running.
-/
namespace LivestreamRs.Sessions
open Foundations
set_option autoImplicit false

structure HandlerLifecycle where
  liveId : LiveId
  protocol : Core
  connected : Bool := false
  disconnected : Bool := false
  -- false once its owner has dropped it
  alive : Bool := true

def SessionEvent.isStarted : SessionEvent → Bool
  | .sessionStarted _ _ => true
  | _ => false

/-- A running method, at its next operation. -/
inductive Call
  -- `connect`: the flag, the two halves of `update_state`, the event
  | connect (lifecycle : ℕ)
  | connectLookup (lifecycle : ℕ)
  | connectWrite (lifecycle session : ℕ)
  | connectDispatch (lifecycle : ℕ)
  -- `disconnect_with_reason`
  | disconnect (lifecycle : ℕ) (reason : EndReason)
  | disconnectLookup (lifecycle : ℕ) (reason : EndReason)
  | disconnectCancel (lifecycle : ℕ) (reason : EndReason) (ct : Token)
  | disconnectDispatch (lifecycle : ℕ) (reason : EndReason)
  | drop (lifecycle : ℕ)
  | finished
  deriving DecidableEq

namespace Call

def lifecycle : Call → Option ℕ
  | connect l | connectLookup l | connectWrite l _ | connectDispatch l | disconnect l _ | disconnectLookup l _
  | disconnectCancel l _ _ | disconnectDispatch l _ | drop l => some l
  | finished => none

/-- A `connect` that has won the flag. -/
def connects : Call → Option ℕ
  | connectLookup l | connectWrite l _ | connectDispatch l => some l
  | _ => none

/-- A `disconnect_with_reason` that has won the flag. -/
def disconnects : Call → Option ℕ
  | disconnectLookup l _ | disconnectCancel l _ _ | disconnectDispatch l _ => some l
  | _ => none

end Call

structure LifecycleSystem where
  registry : SessionRegistry
  lifecycles : ℕ → HandlerLifecycle
  calls : ℕ → Call := fun _ => .finished
  callCount : ℕ := 0
  -- what was dispatched, with the lifecycle that dispatched it
  events : List (ℕ × SessionEvent) := []

namespace LifecycleSystem

/-- Nothing registered; the lifecycles that will ever be made are there from the start. -/
def new (descriptors : ℕ → SessionDescriptor) (liveId : ℕ → LiveId) (protocol : ℕ → Core) : LifecycleSystem where
  registry := .new descriptors
  lifecycles l := { liveId := liveId l, protocol := protocol l }

section Operations
variable (s : LifecycleSystem)

def start (call : Call) : LifecycleSystem :=
  { s with calls := Function.update s.calls s.callCount call, callCount := s.callCount + 1 }

def setCall (k : ℕ) (call : Call) : LifecycleSystem := { s with calls := Function.update s.calls k call }

def setLifecycle (l : ℕ) (h : HandlerLifecycle) : LifecycleSystem :=
  { s with lifecycles := Function.update s.lifecycles l h }

def dispatch (l : ℕ) (event : SessionEvent) : LifecycleSystem := { s with events := s.events ++ [(l, event)] }

def get (l : ℕ) : Option SessionEntry := s.registry.get (s.lifecycles l).liveId

def running (l : ℕ) : Bool := (List.range s.callCount).any fun k => (s.calls k).lifecycle == some l

/-- The `disconnect_with_reason` that has marked the lifecycle has not returned. -/
def disconnecting (l : ℕ) : Bool := (List.range s.callCount).any fun k => (s.calls k).disconnects == some l

/-- One operation of a running method. -/
def runCall (k : ℕ) : Call → Option LifecycleSystem
  | .connect l =>
    if (s.lifecycles l).connected then some (s.setCall k .finished)
    else some ((s.setLifecycle l { s.lifecycles l with connected := true }).setCall k (.connectLookup l))
  | .connectLookup l =>
    match s.get l with
    | none => some (s.setCall k .finished)
    | some entry => some (s.setCall k (.connectWrite l entry.descriptor))
  | .connectWrite l session =>
    match s.registry.writeState session .connected with
    | (registry, .ok ()) => some ({ s with registry }.setCall k (.connectDispatch l))
    | (registry, .error _) => some ({ s with registry }.setCall k .finished)
  | .connectDispatch l =>
    some ((s.dispatch l (.sessionStarted (s.lifecycles l).liveId (s.lifecycles l).protocol)).setCall k .finished)
  | .disconnect l reason =>
    if (s.lifecycles l).disconnected then some (s.setCall k .finished)
    else
      some ((s.setLifecycle l { s.lifecycles l with disconnected := true }).setCall k (.disconnectLookup l reason))
  | .disconnectLookup l reason =>
    match s.get l with
    | none => some (s.setCall k .finished)
    | some entry => some (s.setCall k (.disconnectCancel l reason entry.cancelToken))
  | .disconnectCancel l reason ct =>
    let registry := { s.registry with fired := ct :: s.registry.fired }
    some ({ s with registry }.setCall k (.disconnectDispatch l reason))
  | .disconnectDispatch l reason =>
    some ((s.dispatch l (.sessionEnded (s.lifecycles l).liveId (s.lifecycles l).protocol reason)).setCall k .finished)
  | .drop l =>
    if (s.lifecycles l).disconnected then some (s.setCall k .finished)
    else some (s.setCall k (.disconnect l .clientDisconnect))
  | .finished => none

end Operations

inductive Action
  -- `pending`: `session` is the descriptor it makes
  | pending (lifecycle session : ℕ) (ct : Token)
  | connect (lifecycle : ℕ)
  | disconnect (lifecycle : ℕ) (reason : EndReason)
  | drop (lifecycle : ℕ)
  | run (call : ℕ)
  -- the future of a `connect` is dropped where it waits for the write lock
  | abandon (call : ℕ)
  | registry (a : SessionRegistry.Action)
  deriving DecidableEq

def step (s : LifecycleSystem) : Action → Option LifecycleSystem
  | .pending l session ct =>
    if (s.lifecycles l).alive && !(s.lifecycles l).disconnected &&
        decide (s.registry.descriptors session = { id := (s.lifecycles l).liveId }) then
      some { s with registry := (s.registry.registerSession session ct).1 }
    else none
  | .connect l => if (s.lifecycles l).alive then some (s.start (.connect l)) else none
  | .disconnect l reason => if (s.lifecycles l).alive then some (s.start (.disconnect l reason)) else none
  | .drop l =>
    if (s.lifecycles l).alive && !s.running l then
      some ((s.setLifecycle l { s.lifecycles l with alive := false }).start (.drop l))
    else none
  | .run k => s.runCall k (s.calls k)
  | .abandon k =>
    match s.calls k with
    | .connectWrite _ _ => some (s.setCall k .finished)
    | _ => none
  | .registry a => (s.registry.step a).map fun registry => { s with registry }

/-- The events a lifecycle has dispatched, oldest first. -/
def trace (s : LifecycleSystem) (l : ℕ) : List SessionEvent :=
  (s.events.filter fun p => p.1 == l).map Prod.snd

/-- The lifecycle has been dropped, and its `drop` has returned. -/
def Dropped (s : LifecycleSystem) (l : ℕ) : Prop := (s.lifecycles l).alive = false ∧ s.running l = false

instance (s : LifecycleSystem) (l : ℕ) : Decidable (s.Dropped l) := inferInstanceAs (Decidable (_ ∧ _))

/-- At most one `SessionStarted`, followed by exactly one `SessionEnded`. -/
def EventProtocol (h : HandlerLifecycle) (events : List SessionEvent) : Prop :=
  ∃ reason, events = [.sessionEnded h.liveId h.protocol reason] ∨
    events = [.sessionStarted h.liveId h.protocol, .sessionEnded h.liveId h.protocol reason]

/-- The disconnect that has marked the lifecycle finds a registry entry, and a `connect` comes to its dispatch before the
lifecycle is marked or while that disconnect is still running. -/
def CallUndisturbed (l : ℕ) (s : LifecycleSystem) : Call → Prop
  | .disconnectLookup l' _ => l' = l → s.get l ≠ none
  | .connectDispatch l' => l' = l → (s.lifecycles l).disconnected = false ∨ s.disconnecting l = true
  | _ => True

def Undisturbed (l : ℕ) (s : LifecycleSystem) : Action → Prop
  | .run k => CallUndisturbed l s (s.calls k)
  | _ => True

/-! ## What a step can do -/

theorem calls_start (s : LifecycleSystem) (call : Call) (k : ℕ) :
    (s.start call).calls k = if k = s.callCount then call else s.calls k :=
  Function.update_apply ..

theorem calls_setCall (s : LifecycleSystem) (k : ℕ) (call : Call) (j : ℕ) :
    (s.setCall k call).calls j = if j = k then call else s.calls j :=
  Function.update_apply ..

/-- What a call is doing after one of the calls has moved on. -/
theorem status_setCall (status : Call → Option ℕ) {s : LifecycleSystem} {k l j : ℕ} {call : Call}
    (h : status ((s.setCall k call).calls j) = some l) :
    (j = k ∧ status call = some l) ∨ (j ≠ k ∧ status (s.calls j) = some l) := by
  rw [calls_setCall] at h
  split at h
  · next heq => exact .inl ⟨heq, h⟩
  · next hne => exact .inr ⟨hne, h⟩

theorem trace_dispatch (s : LifecycleSystem) (l' : ℕ) (event : SessionEvent) (l : ℕ) :
    (s.dispatch l' event).trace l = s.trace l ++ if l' = l then [event] else [] := by
  by_cases h : l' = l <;> simp [trace, dispatch, h]

/-- A call that neither wins a flag, nor dispatches, nor gives up a disconnect it has begun. -/
structure Advances (s : LifecycleSystem) (call call' : Call) : Prop where
  connects : ∀ l, call'.connects = some l → call.connects = some l
  disconnects : call'.disconnects = call.disconnects
  ends : ∀ l, call = .drop l ∨ (∃ reason, call = .disconnect l reason) →
    (s.lifecycles l).disconnected = true ∨ ∃ reason, call' = .disconnect l reason

inductive Stepped (s : LifecycleSystem) : Action → LifecycleSystem → Prop
  | registry (a : Action) (registry : SessionRegistry) (hquiet : ∀ l, Undisturbed l s a) :
      Stepped s a { s with registry }
  | called (a : Action) (l : ℕ) (call : Call) (hquiet : ∀ l, Undisturbed l s a)
      (hcall : call = .connect l ∨ ∃ reason, call = .disconnect l reason) : Stepped s a (s.start call)
  | dropped (l : ℕ) (hidle : s.running l = false) :
      Stepped s (.drop l) ((s.setLifecycle l { s.lifecycles l with alive := false }).start (.drop l))
  | advanced (a : Action) (k : ℕ) (call : Call) (registry : SessionRegistry) (hquiet : ∀ l, Undisturbed l s a)
      (hlive : s.calls k ≠ .finished) (hcall : s.Advances (s.calls k) call) :
      Stepped s a ({ s with registry }.setCall k call)
  | connected (k l : ℕ) (hk : s.calls k = .connect l) (hflag : (s.lifecycles l).connected = false) :
      Stepped s (.run k)
        ((s.setLifecycle l { s.lifecycles l with connected := true }).setCall k (.connectLookup l))
  | started (k l : ℕ) (hk : s.calls k = .connectDispatch l) :
      Stepped s (.run k)
        ((s.dispatch l (.sessionStarted (s.lifecycles l).liveId (s.lifecycles l).protocol)).setCall k .finished)
  | marked (k l : ℕ) (reason : EndReason) (hk : s.calls k = .disconnect l reason)
      (hflag : (s.lifecycles l).disconnected = false) :
      Stepped s (.run k)
        ((s.setLifecycle l { s.lifecycles l with disconnected := true }).setCall k (.disconnectLookup l reason))
  | lost (k l : ℕ) (reason : EndReason) (hk : s.calls k = .disconnectLookup l reason) (hget : s.get l = none) :
      Stepped s (.run k) (s.setCall k .finished)
  | ended (k l : ℕ) (reason : EndReason) (hk : s.calls k = .disconnectDispatch l reason) :
      Stepped s (.run k)
        ((s.dispatch l (.sessionEnded (s.lifecycles l).liveId (s.lifecycles l).protocol reason)).setCall k .finished)

/-- The calls that stop without having won a flag. -/
theorem advances_finished {s : LifecycleSystem} {call : Call} (hdisconnects : call.disconnects = none)
    (hends : ∀ l, call = .drop l ∨ (∃ reason, call = .disconnect l reason) →
      (s.lifecycles l).disconnected = true) : s.Advances call .finished where
  connects _ h := by cases h
  disconnects := hdisconnects.symm
  ends l h := .inl (hends l h)

theorem Stepped.moved {s : LifecycleSystem} {k : ℕ} {call call' : Call} (registry : SessionRegistry)
    (hk : s.calls k = call) (hlive : call ≠ .finished) (hquiet : ∀ l, CallUndisturbed l s call)
    (hcall : s.Advances call call') : Stepped s (.run k) ({ s with registry }.setCall k call') := by
  subst hk
  exact .advanced _ k call' registry hquiet hlive hcall

theorem stepped_runCall {s t : LifecycleSystem} {k : ℕ} (h : s.runCall k (s.calls k) = some t) :
    Stepped s (.run k) t := by
  cases hk : s.calls k with
  | connect l =>
    simp only [hk, runCall] at h
    split at h <;> cases h
    · exact .moved s.registry hk (by simp) (fun _ => trivial) (advances_finished rfl (by simp))
    · next hflag => exact .connected k l hk (by simpa using hflag)
  | connectLookup l =>
    simp only [hk, runCall] at h
    cases hget : s.get l <;> simp only [hget] at h <;> cases h
    · exact .moved s.registry hk (by simp) (fun _ => trivial) (advances_finished rfl (by simp))
    · refine .moved s.registry hk (by simp) (fun _ => trivial) ?_
      constructor <;> simp [Call.connects, Call.disconnects]
  | connectWrite l session =>
    simp only [hk, runCall] at h
    split at h <;> cases h
    · refine .moved _ hk (by simp) (fun _ => trivial) ?_
      constructor <;> simp [Call.connects, Call.disconnects]
    · exact .moved _ hk (by simp) (fun _ => trivial) (advances_finished rfl (by simp))
  | connectDispatch l =>
    simp only [hk, runCall] at h
    cases h
    exact .started k l hk
  | disconnect l reason =>
    simp only [hk, runCall] at h
    split at h <;> cases h
    · next hflag =>
      refine .moved s.registry hk (by simp) (fun _ => trivial) (advances_finished rfl ?_)
      rintro l' (hl | ⟨reason', hl⟩) <;> cases hl
      exact hflag
    · next hflag => exact .marked k l reason hk (by simpa using hflag)
  | disconnectLookup l reason =>
    simp only [hk, runCall] at h
    cases hget : s.get l <;> simp only [hget] at h <;> cases h
    · exact .lost k l reason hk hget
    · refine .moved s.registry hk (by simp) ?_ ?_
      · rintro l' rfl
        rw [hget]
        exact Option.some_ne_none _
      · constructor <;> simp [Call.connects, Call.disconnects]
  | disconnectCancel l reason ct =>
    simp only [hk, runCall] at h
    cases h
    refine .moved _ hk (by simp) (fun _ => trivial) ?_
    constructor <;> simp [Call.connects, Call.disconnects]
  | disconnectDispatch l reason =>
    simp only [hk, runCall] at h
    cases h
    exact .ended k l reason hk
  | drop l =>
    simp only [hk, runCall] at h
    split at h <;> cases h
    · next hflag =>
      refine .moved s.registry hk (by simp) (fun _ => trivial) (advances_finished rfl ?_)
      rintro l' (hl | ⟨reason', hl⟩) <;> cases hl
      exact hflag
    · refine .moved s.registry hk (by simp) (fun _ => trivial) ?_
      constructor <;> simp [Call.connects, Call.disconnects]
  | finished =>
    rw [hk] at h
    cases h

theorem stepped_of_step {s t : LifecycleSystem} {a : Action} (h : s.step a = some t) : Stepped s a t := by
  cases a with
  | pending l session ct =>
    simp only [step] at h
    split at h <;> cases h
    exact .registry _ _ fun _ => trivial
  | connect l =>
    simp only [step] at h
    split at h <;> cases h
    exact .called _ l _ (fun _ => trivial) (.inl rfl)
  | disconnect l reason =>
    simp only [step] at h
    split at h <;> cases h
    exact .called _ l _ (fun _ => trivial) (.inr ⟨reason, rfl⟩)
  | drop l =>
    simp only [step] at h
    split at h <;> cases h
    next hidle =>
      rw [Bool.and_eq_true, Bool.not_eq_true'] at hidle
      exact .dropped l hidle.2
  | run k => exact stepped_runCall h
  | abandon k =>
    simp only [step] at h
    split at h
    · next l session hk =>
      cases h
      refine .advanced _ k .finished s.registry (fun _ => trivial) (by simp [hk]) ?_
      exact hk ▸ advances_finished rfl (by simp)
    · cases h
  | registry a =>
    obtain ⟨registry, -, rfl⟩ := Option.map_eq_some_iff.mp h
    exact .registry _ registry fun _ => trivial

/-! ## The order of a lifecycle's events -/

/-- A flag that one caller wins, who then emits one event. -/
structure WonOnce (flag : Bool) (wins : ℕ → Prop) (emitted : Bool) : Prop where
  winner : ∀ k, wins k → flag = true ∧ emitted = false
  unique : ∀ j k, wins j → wins k → j = k
  fresh : flag = false → emitted = false

section WonOnce
variable {flag : Bool} {wins wins' : ℕ → Prop} {emitted : Bool}

theorem WonOnce.mono (h : WonOnce flag wins emitted) (hwins : ∀ k, wins' k → wins k) :
    WonOnce flag wins' emitted :=
  ⟨fun k hk => h.winner k (hwins k hk), fun j k hj hk => h.unique j k (hwins j hj) (hwins k hk), h.fresh⟩

theorem WonOnce.win (h : WonOnce false wins emitted) (k : ℕ) (hwins : ∀ j, wins' j → j = k ∨ wins j) :
    WonOnce true wins' emitted := by
  have hnone : ∀ j, ¬wins j := fun j hj => Bool.false_ne_true (h.winner j hj).1
  have heq : ∀ j, wins' j → j = k := fun j hj => (hwins j hj).resolve_right (hnone j)
  exact ⟨fun j _ => ⟨rfl, h.fresh rfl⟩, fun i j hi hj => (heq i hi).trans (heq j hj).symm, fun hf => by cases hf⟩

theorem WonOnce.emit (h : WonOnce flag wins emitted) {k : ℕ} (hk : wins k)
    (hwins : ∀ j, wins' j → j ≠ k ∧ wins j) : WonOnce flag wins' true := by
  have hnone : ∀ j, ¬wins' j := fun j hj => (hwins j hj).1 (h.unique j k (hwins j hj).2 hk)
  refine ⟨fun j hj => absurd hj (hnone j), fun i j hi => absurd hi (hnone i), fun hf => ?_⟩
  rw [(h.winner k hk).1] at hf
  cases hf

end WonOnce

/-- What a lifecycle can have dispatched. -/
def Shape (h : HandlerLifecycle) (events : List SessionEvent) : Prop :=
  events = [] ∨ events = [.sessionStarted h.liveId h.protocol] ∨ EventProtocol h events ∨
    ∃ reason, events = [.sessionEnded h.liveId h.protocol reason, .sessionStarted h.liveId h.protocol]

structure Sequenced (l : ℕ) (s : LifecycleSystem) : Prop where
  idle : ∀ k, s.callCount ≤ k → s.calls k = .finished
  connect : WonOnce (s.lifecycles l).connected (fun k => (s.calls k).connects = some l)
    ((s.trace l).any SessionEvent.isStarted)
  disconnect : WonOnce (s.lifecycles l).disconnected (fun k => (s.calls k).disconnects = some l)
    ((s.trace l).any SessionEvent.isEnded)
  shape : Shape (s.lifecycles l) (s.trace l)
  -- a drop that has begun ends with the lifecycle disconnected
  dropping : (s.lifecycles l).alive = false → (s.lifecycles l).disconnected = true ∨
    ∃ k, s.calls k = .drop l ∨ ∃ reason, s.calls k = .disconnect l reason

theorem sequenced_new (descriptors : ℕ → SessionDescriptor) (liveId : ℕ → LiveId) (protocol : ℕ → Core) (l : ℕ) :
    Sequenced l (new descriptors liveId protocol) where
  idle _ _ := rfl
  connect := ⟨fun _ h => (by cases h), fun _ _ h => (by cases h), fun _ => rfl⟩
  disconnect := ⟨fun _ h => (by cases h), fun _ _ h => (by cases h), fun _ => rfl⟩
  shape := .inl rfl
  dropping h := by cases h

section Keeps
variable {l : ℕ} {s : LifecycleSystem} (h : Sequenced l s)
include h

theorem Sequenced.lt_callCount {k : ℕ} (hk : s.calls k ≠ .finished) : k < s.callCount := by
  by_contra hge
  exact hk (h.idle k (not_lt.mp hge))

theorem Sequenced.disconnecting_iff : s.disconnecting l = true ↔ ∃ k, (s.calls k).disconnects = some l := by
  simp only [disconnecting, List.any_eq_true, List.mem_range, beq_iff_eq]
  refine exists_congr fun k => and_iff_right_of_imp fun hk => h.lt_callCount ?_
  rintro heq
  rw [heq] at hk
  cases hk

theorem Sequenced.registry (registry : SessionRegistry) : Sequenced l { s with registry } :=
  ⟨h.idle, h.connect, h.disconnect, h.shape, h.dropping⟩

/-- A new call has won no flag. -/
theorem Sequenced.start {call : Call} (hconnects : call.connects = none) (hdisconnects : call.disconnects = none) :
    Sequenced l (s.start call) where
  idle k hk := by
    rw [calls_start, if_neg (Nat.ne_of_gt hk)]
    exact h.idle k (Nat.le_of_succ_le hk)
  connect := h.connect.mono fun k hk => by
    rw [calls_start] at hk
    split at hk
    · rw [hconnects] at hk; cases hk
    · exact hk
  disconnect := h.disconnect.mono fun k hk => by
    rw [calls_start] at hk
    split at hk
    · rw [hdisconnects] at hk; cases hk
    · exact hk
  shape := h.shape
  dropping halive := by
    refine (h.dropping halive).imp_right ?_
    rintro ⟨k, hk⟩
    have hlt : k < s.callCount := h.lt_callCount (by rcases hk with hk | ⟨_, hk⟩ <;> simp [hk])
    refine ⟨k, ?_⟩
    rw [calls_start, if_neg (Nat.ne_of_lt hlt)]
    exact hk

theorem Sequenced.idle_setCall {k : ℕ} (hk : s.calls k ≠ .finished) (call : Call) (j : ℕ)
    (hj : s.callCount ≤ j) : (s.setCall k call).calls j = .finished := by
  rw [calls_setCall, if_neg (Nat.ne_of_gt (Nat.lt_of_lt_of_le (h.lt_callCount hk) hj))]
  exact h.idle j hj

/-- The drop of a lifecycle is still under way, or over, after one call has moved on. -/
theorem Sequenced.dropping_setCall (k : ℕ) (call : Call)
    (hends : s.calls k = .drop l ∨ (∃ reason, s.calls k = .disconnect l reason) →
      (s.lifecycles l).disconnected = true ∨ ∃ reason, call = .disconnect l reason)
    (halive : (s.lifecycles l).alive = false) : (s.lifecycles l).disconnected = true ∨
      ∃ j, (s.setCall k call).calls j = .drop l ∨ ∃ reason, (s.setCall k call).calls j = .disconnect l reason := by
  rcases h.dropping halive with hdone | ⟨j, hj⟩
  · exact .inl hdone
  · by_cases hjk : j = k
    · subst hjk
      refine (hends hj).imp_right fun hcall => ⟨j, .inr ?_⟩
      rw [calls_setCall, if_pos rfl]
      exact hcall
    · refine .inr ⟨j, ?_⟩
      rw [calls_setCall, if_neg hjk]
      exact hj

theorem Sequenced.advanced {k : ℕ} {call : Call} (hlive : s.calls k ≠ .finished)
    (hconnects : call.connects = some l → (s.calls k).connects = some l)
    (hdisconnects : call.disconnects = some l → (s.calls k).disconnects = some l)
    (hends : s.calls k = .drop l ∨ (∃ reason, s.calls k = .disconnect l reason) →
      (s.lifecycles l).disconnected = true ∨ ∃ reason, call = .disconnect l reason) :
    Sequenced l (s.setCall k call) where
  idle := h.idle_setCall hlive call
  connect := h.connect.mono fun j hj => by
    rcases status_setCall Call.connects hj with ⟨rfl, hcall⟩ | ⟨-, hold⟩
    · exact hconnects hcall
    · exact hold
  disconnect := h.disconnect.mono fun j hj => by
    rcases status_setCall Call.disconnects hj with ⟨rfl, hcall⟩ | ⟨-, hold⟩
    · exact hdisconnects hcall
    · exact hold
  shape := h.shape
  dropping := h.dropping_setCall k call hends

theorem Sequenced.finished {k : ℕ} (hlive : s.calls k ≠ .finished) (hdrop : s.calls k ≠ .drop l)
    (hdisconnect : ∀ reason, s.calls k ≠ .disconnect l reason) : Sequenced l (s.setCall k .finished) := by
  refine h.advanced hlive (fun hcall => by cases hcall) (fun hcall => by cases hcall) ?_
  rintro (hk | ⟨reason, hk⟩)
  · exact absurd hk hdrop
  · exact absurd hk (hdisconnect reason)

end Keeps

/-- A flag of one lifecycle is won, or an event of one lifecycle dispatched: for the others nothing changes. -/
theorem Sequenced.congr {l : ℕ} {s t : LifecycleSystem} (h : Sequenced l s) (hcount : t.callCount = s.callCount)
    (hcalls : t.calls = s.calls) (hlifecycle : t.lifecycles l = s.lifecycles l) (htrace : t.trace l = s.trace l) :
    Sequenced l t := by
  constructor
  · rw [hcount, hcalls]; exact h.idle
  · rw [hcalls, hlifecycle, htrace]; exact h.connect
  · rw [hcalls, hlifecycle, htrace]; exact h.disconnect
  · rw [hlifecycle, htrace]; exact h.shape
  · rw [hcalls, hlifecycle]; exact h.dropping

section Wins
variable {l : ℕ} {s : LifecycleSystem} (h : Sequenced l s)
include h

theorem Sequenced.connected {k : ℕ} (hk : s.calls k = .connect l) (hflag : (s.lifecycles l).connected = false) :
    Sequenced l ((s.setLifecycle l { s.lifecycles l with connected := true }).setCall k (.connectLookup l)) := by
  have hlive : s.calls k ≠ .finished := by simp [hk]
  have hdrop := h.dropping_setCall k (.connectLookup l) (by simp [hk])
  refine ⟨h.idle_setCall hlive _, ?_, ?_, ?_, ?_⟩ <;>
    simp only [setLifecycle, setCall, Function.update_self] at hdrop ⊢
  · refine (hflag ▸ h.connect).win k fun j hj => ?_
    rcases status_setCall Call.connects hj with ⟨rfl, -⟩ | ⟨-, hold⟩
    · exact .inl rfl
    · exact .inr hold
  · refine h.disconnect.mono fun j hj => ?_
    rcases status_setCall Call.disconnects hj with ⟨-, hcall⟩ | ⟨-, hold⟩
    · cases hcall
    · exact hold
  · exact h.shape
  · exact hdrop

theorem Sequenced.marked {k : ℕ} {reason : EndReason} (hk : s.calls k = .disconnect l reason)
    (hflag : (s.lifecycles l).disconnected = false) :
    Sequenced l
      ((s.setLifecycle l { s.lifecycles l with disconnected := true }).setCall k (.disconnectLookup l reason)) := by
  have hlive : s.calls k ≠ .finished := by simp [hk]
  refine ⟨h.idle_setCall hlive _, ?_, ?_, ?_, ?_⟩ <;>
    simp only [setLifecycle, setCall, Function.update_self]
  · refine h.connect.mono fun j hj => ?_
    rcases status_setCall Call.connects hj with ⟨-, hcall⟩ | ⟨-, hold⟩
    · cases hcall
    · exact hold
  · refine (hflag ▸ h.disconnect).win k fun j hj => ?_
    rcases status_setCall Call.disconnects hj with ⟨rfl, -⟩ | ⟨-, hold⟩
    · exact .inl rfl
    · exact .inr hold
  · exact h.shape
  · exact fun _ => .inl trivial

/-- A lifecycle that has dispatched no `SessionStarted`, or no `SessionEnded`. -/
theorem Sequenced.shape_unstarted (hstarted : (s.trace l).any SessionEvent.isStarted = false) :
    s.trace l = [] ∨ ∃ reason, s.trace l = [.sessionEnded (s.lifecycles l).liveId (s.lifecycles l).protocol reason] := by
  rcases h.shape with heq | heq | ⟨reason, heq | heq⟩ | ⟨reason, heq⟩
  · exact .inl heq
  · simp [heq, SessionEvent.isStarted] at hstarted
  · exact .inr ⟨reason, heq⟩
  · simp [heq, SessionEvent.isStarted] at hstarted
  · simp [heq, SessionEvent.isStarted] at hstarted

theorem Sequenced.shape_unended (hended : (s.trace l).any SessionEvent.isEnded = false) :
    s.trace l = [] ∨ s.trace l = [.sessionStarted (s.lifecycles l).liveId (s.lifecycles l).protocol] := by
  rcases h.shape with heq | heq | ⟨reason, heq | heq⟩ | ⟨reason, heq⟩
  · exact .inl heq
  · exact .inr heq
  all_goals simp [heq, SessionEvent.isEnded] at hended

theorem Sequenced.started {k : ℕ} (hk : s.calls k = .connectDispatch l) :
    Sequenced l
      ((s.dispatch l (.sessionStarted (s.lifecycles l).liveId (s.lifecycles l).protocol)).setCall k .finished) := by
  have hwin : (s.calls k).connects = some l := by rw [hk]; rfl
  have hfinished := h.finished (k := k) (by simp [hk]) (by simp [hk]) (by simp [hk])
  refine ⟨hfinished.idle, ?_, ?_, ?_, hfinished.dropping⟩
  · have htrace : ((s.dispatch l (.sessionStarted (s.lifecycles l).liveId (s.lifecycles l).protocol)).trace l).any
        SessionEvent.isStarted = true := by
      simp [trace_dispatch, SessionEvent.isStarted]
    refine htrace ▸ h.connect.emit hwin fun j hj => ?_
    rcases status_setCall Call.connects hj with ⟨-, hcall⟩ | hold
    · cases hcall
    · exact hold
  · have htrace : ((s.dispatch l (.sessionStarted (s.lifecycles l).liveId (s.lifecycles l).protocol)).trace l).any
        SessionEvent.isEnded = (s.trace l).any SessionEvent.isEnded := by
      simp [trace_dispatch, SessionEvent.isEnded]
    exact htrace ▸ hfinished.disconnect
  · change Shape (s.lifecycles l) ((s.dispatch l _).trace l)
    rw [trace_dispatch, if_pos rfl]
    rcases h.shape_unstarted (h.connect.winner k hwin).2 with heq | ⟨reason, heq⟩ <;> rw [heq]
    · exact .inr (.inl rfl)
    · exact .inr (.inr (.inr ⟨reason, rfl⟩))

theorem Sequenced.ended {k : ℕ} {reason : EndReason} (hk : s.calls k = .disconnectDispatch l reason) :
    Sequenced l
      ((s.dispatch l (.sessionEnded (s.lifecycles l).liveId (s.lifecycles l).protocol reason)).setCall k
        .finished) := by
  have hwin : (s.calls k).disconnects = some l := by rw [hk]; rfl
  have hfinished := h.finished (k := k) (by simp [hk]) (by simp [hk]) (by simp [hk])
  refine ⟨hfinished.idle, ?_, ?_, ?_, hfinished.dropping⟩
  · have htrace : ((s.dispatch l (.sessionEnded (s.lifecycles l).liveId (s.lifecycles l).protocol reason)).trace
        l).any SessionEvent.isStarted = (s.trace l).any SessionEvent.isStarted := by
      simp [trace_dispatch, SessionEvent.isStarted]
    exact htrace ▸ hfinished.connect
  · have htrace : ((s.dispatch l (.sessionEnded (s.lifecycles l).liveId (s.lifecycles l).protocol reason)).trace
        l).any SessionEvent.isEnded = true := by
      simp [trace_dispatch, SessionEvent.isEnded]
    refine htrace ▸ h.disconnect.emit hwin fun j hj => ?_
    rcases status_setCall Call.disconnects hj with ⟨-, hcall⟩ | hold
    · cases hcall
    · exact hold
  · change Shape (s.lifecycles l) ((s.dispatch l _).trace l)
    rw [trace_dispatch, if_pos rfl]
    rcases h.shape_unended (h.disconnect.winner k hwin).2 with heq | heq <;> rw [heq]
    · exact .inr (.inr (.inl ⟨reason, .inl rfl⟩))
    · exact .inr (.inr (.inl ⟨reason, .inr rfl⟩))

end Wins

theorem Sequenced.dropped {l : ℕ} {s : LifecycleSystem} (h : Sequenced l s) :
    Sequenced l ((s.setLifecycle l { s.lifecycles l with alive := false }).start (.drop l)) := by
  have hstart : Sequenced l (s.start (.drop l)) := h.start rfl rfl
  refine ⟨hstart.idle, ?_, ?_, ?_, fun _ => .inr ⟨s.callCount, .inl ?_⟩⟩
  · have heq : ((s.setLifecycle l { s.lifecycles l with alive := false }).lifecycles l).connected =
        (s.lifecycles l).connected := by simp [setLifecycle]
    exact heq ▸ hstart.connect
  · have heq : ((s.setLifecycle l { s.lifecycles l with alive := false }).lifecycles l).disconnected =
        (s.lifecycles l).disconnected := by simp [setLifecycle]
    exact heq ▸ hstart.disconnect
  · change Shape (Function.update s.lifecycles l _ l) (s.trace l)
    rw [Function.update_self]
    exact h.shape
  · exact (calls_start _ _ _).trans (if_pos rfl)

/-- What happens to another lifecycle is, for this one, a call that moves on. -/
theorem Sequenced.other {l : ℕ} {s t : LifecycleSystem} (h : Sequenced l s) {k l' : ℕ} (call : Call) (hl : l' ≠ l)
    (hk : (s.calls k).lifecycle = some l') (hcall : ∀ l, call.lifecycle = some l → l = l')
    (hcount : t.callCount = s.callCount) (hcalls : t.calls = (s.setCall k call).calls)
    (hlifecycle : t.lifecycles l = s.lifecycles l) (htrace : t.trace l = s.trace l) : Sequenced l t := by
  have hconnects : ∀ c : Call, c.connects = some l → c.lifecycle = some l := by
    intro c hc
    cases c <;> first | exact hc | cases hc
  have hdisconnects : ∀ c : Call, c.disconnects = some l → c.lifecycle = some l := by
    intro c hc
    cases c <;> first | exact hc | cases hc
  have hmoved : Sequenced l (s.setCall k call) := by
    refine h.advanced ?_ ?_ ?_ ?_
    · intro hfinished
      rw [hfinished] at hk
      cases hk
    · exact fun hc => absurd (hcall l (hconnects call hc)).symm hl
    · exact fun hc => absurd (hcall l (hdisconnects call hc)).symm hl
    · rintro (hc | ⟨reason, hc⟩) <;> rw [hc] at hk <;> exact absurd (Option.some.inj hk).symm hl
  exact hmoved.congr hcount hcalls hlifecycle htrace

theorem Sequenced.step {l : ℕ} {s t : LifecycleSystem} {a : Action} (h : Sequenced l s) (hstep : s.step a = some t) :
    Sequenced l t := by
  have hupdate : ∀ l' x, l' ≠ l → (s.setLifecycle l' x).lifecycles l = s.lifecycles l :=
    fun l' x hl => Function.update_of_ne (Ne.symm hl) ..
  have hdispatch : ∀ l' event, l' ≠ l → (s.dispatch l' event).trace l = s.trace l := by
    intro l' event hl
    rw [trace_dispatch, if_neg hl, List.append_nil]
  cases stepped_of_step hstep with
  | registry a registry hquiet => exact h.registry registry
  | called a l' call hquiet hcall =>
    rcases hcall with rfl | ⟨reason, rfl⟩
    · exact h.start rfl rfl
    · exact h.start rfl rfl
  | dropped l' hidle =>
    by_cases hl : l' = l
    · exact hl ▸ (hl ▸ h).dropped
    · have hstart : Sequenced l (s.start (.drop l')) := h.start rfl rfl
      exact hstart.congr rfl rfl (hupdate l' _ hl) rfl
  | advanced a k call registry hquiet hlive hcall =>
    exact (h.registry registry).advanced hlive (hcall.connects l) (fun hc => hcall.disconnects ▸ hc) (hcall.ends l)
  | connected k l' hk hflag =>
    by_cases hl : l' = l
    · exact hl ▸ (hl ▸ h).connected hk hflag
    · exact h.other (.connectLookup l') hl (by rw [hk]; rfl) (fun _ hc => (Option.some.inj hc).symm) rfl rfl
        (hupdate l' _ hl) rfl
  | started k l' hk =>
    by_cases hl : l' = l
    · exact hl ▸ (hl ▸ h).started hk
    · exact h.other .finished hl (by rw [hk]; rfl) (fun _ hc => by cases hc) rfl rfl rfl (hdispatch l' _ hl)
  | marked k l' reason hk hflag =>
    by_cases hl : l' = l
    · exact hl ▸ (hl ▸ h).marked hk hflag
    · exact h.other (.disconnectLookup l' reason) hl (by rw [hk]; rfl) (fun _ hc => (Option.some.inj hc).symm) rfl
        rfl (hupdate l' _ hl) rfl
  | lost k l' reason hk hget => exact h.finished (by simp [hk]) (by simp [hk]) (by simp [hk])
  | ended k l' reason hk =>
    by_cases hl : l' = l
    · exact hl ▸ (hl ▸ h).ended hk
    · exact h.other .finished hl (by rw [hk]; rfl) (fun _ hc => by cases hc) rfl rfl rfl (hdispatch l' _ hl)

/-! ## When the protocol is kept -/

/-- Only a `SessionStarted` after a `SessionEnded` is out of order. -/
def Precedes (a b : SessionEvent) : Prop := a.isEnded = true → b.isStarted = false

/-- No `SessionStarted` comes after a `SessionEnded`, and a lifecycle marked as disconnected has dispatched its
`SessionEnded` or is about to. -/
def InOrder (l : ℕ) (s : LifecycleSystem) : Prop :=
  (s.trace l).Pairwise Precedes ∧
    ((s.lifecycles l).disconnected = true →
      (∃ k, (s.calls k).disconnects = some l) ∨ (s.trace l).any SessionEvent.isEnded = true)

theorem disconnects_setCall {s : LifecycleSystem} {l k : ℕ} {call : Call}
    (hcall : call.disconnects = some l ↔ (s.calls k).disconnects = some l) :
    (∃ j, ((s.setCall k call).calls j).disconnects = some l) ↔ ∃ j, (s.calls j).disconnects = some l := by
  have hj : ∀ j, ((s.setCall k call).calls j).disconnects = some l ↔ (s.calls j).disconnects = some l := by
    intro j
    rw [calls_setCall]
    split
    · next heq => rw [heq]; exact hcall
    · exact Iff.rfl
  exact exists_congr hj

theorem disconnects_start {l : ℕ} {s : LifecycleSystem} (h : Sequenced l s) {call : Call}
    (hcall : call.disconnects = none) :
    (∃ j, ((s.start call).calls j).disconnects = some l) ↔ ∃ j, (s.calls j).disconnects = some l := by
  refine exists_congr fun j => ?_
  rw [calls_start]
  split
  · next heq => rw [hcall, heq, h.idle _ le_rfl]; rfl
  · exact Iff.rfl

/-- A step that concerns the order of `l`'s events through nothing but its calls keeps it. -/
theorem inOrder_congr {l : ℕ} {s t : LifecycleSystem} (htrace : t.trace l = s.trace l)
    (hflag : (t.lifecycles l).disconnected = (s.lifecycles l).disconnected)
    (hcalls : (∃ j, (t.calls j).disconnects = some l) ↔ ∃ j, (s.calls j).disconnects = some l) :
    InOrder l t ↔ InOrder l s := by
  rw [InOrder, InOrder, htrace, hflag, hcalls]

theorem pairwise_started {events : List SessionEvent} {x : LiveId} {protocol : Core} :
    (events ++ [SessionEvent.sessionStarted x protocol]).Pairwise Precedes ↔
      events.Pairwise Precedes ∧ events.any SessionEvent.isEnded = false := by
  simp [List.pairwise_append, Precedes, SessionEvent.isStarted]

theorem pairwise_ended {events : List SessionEvent} {x : LiveId} {protocol : Core} {reason : EndReason} :
    (events ++ [SessionEvent.sessionEnded x protocol reason]).Pairwise Precedes ↔ events.Pairwise Precedes := by
  simp [List.pairwise_append, Precedes, SessionEvent.isStarted]

/-- As long as no disconnect is lost, the `SessionEnded` is out when the lifecycle is marked and its disconnect has
returned. -/
theorem Sequenced.unended_iff {l : ℕ} {s : LifecycleSystem} (h : Sequenced l s) (hs : InOrder l s) :
    (s.trace l).any SessionEvent.isEnded = false ↔
      (s.lifecycles l).disconnected = false ∨ s.disconnecting l = true := by
  rw [h.disconnecting_iff]
  constructor
  · intro hended
    by_cases hflag : (s.lifecycles l).disconnected = true
    · refine .inr ((hs.2 hflag).resolve_right ?_)
      rw [hended]
      exact Bool.false_ne_true
    · exact .inl (by simpa using hflag)
  · rintro (hflag | ⟨k, hk⟩)
    · exact h.disconnect.fresh hflag
    · exact (h.disconnect.winner k hk).2

/-- The order of `l`'s events survives exactly the undisturbed steps. -/
theorem inOrder_step {l : ℕ} {s t : LifecycleSystem} {a : Action} (h : Sequenced l s) (hstep : s.step a = some t) :
    InOrder l t ↔ InOrder l s ∧ Undisturbed l s a := by
  have hupdate : ∀ l' x, x.disconnected = (s.lifecycles l').disconnected ∨ l' ≠ l →
      ((s.setLifecycle l' x).lifecycles l).disconnected = (s.lifecycles l).disconnected := by
    intro l' x hx
    rcases eq_or_ne l l' with rfl | hne
    · simpa [setLifecycle] using hx
    · simp [setLifecycle, hne]
  have hdispatch : ∀ l' event, l' ≠ l → (s.dispatch l' event).trace l = s.trace l := by
    intro l' event hl
    rw [trace_dispatch, if_neg hl, List.append_nil]
  cases stepped_of_step hstep with
  | registry a registry hquiet => exact ⟨fun hs => ⟨hs, hquiet l⟩, And.left⟩
  | called a l' call hquiet hcall =>
    have hnone : call.disconnects = none := by rcases hcall with rfl | ⟨reason, rfl⟩ <;> rfl
    rw [and_iff_left (hquiet l)]
    exact inOrder_congr rfl rfl (disconnects_start h hnone)
  | dropped l' hidle =>
    rw [and_iff_left (by trivial)]
    exact inOrder_congr rfl (hupdate l' _ (.inl rfl)) (disconnects_start h rfl)
  | advanced a k call registry hquiet hlive hcall =>
    rw [and_iff_left (hquiet l)]
    exact inOrder_congr rfl rfl (disconnects_setCall (s := s) (by rw [hcall.disconnects]))
  | connected k l' hk hflag =>
    rw [and_iff_left (by simp [Undisturbed, CallUndisturbed, hk])]
    exact inOrder_congr rfl (hupdate l' _ (.inl rfl)) (disconnects_setCall (s := s) (by rw [hk]; exact Iff.rfl))
  | started k l' hk =>
    have hcalls : (∃ j, ((s.setCall k .finished).calls j).disconnects = some l) ↔
        ∃ j, (s.calls j).disconnects = some l := disconnects_setCall (by rw [hk]; exact Iff.rfl)
    by_cases hl : l' = l
    · subst hl
      have hquiet : Undisturbed l' s (.run k) ↔
          ((s.lifecycles l').disconnected = false ∨ s.disconnecting l' = true) := by
        simp [Undisturbed, CallUndisturbed, hk]
      have htrace := trace_dispatch s l' (.sessionStarted (s.lifecycles l').liveId (s.lifecycles l').protocol) l'
      rw [if_pos rfl] at htrace
      change (((s.dispatch l' _).trace l').Pairwise _ ∧ (_ → (∃ j, ((s.setCall k .finished).calls j).disconnects = _) ∨
        ((s.dispatch l' _).trace l').any _ = true)) ↔ _
      rw [htrace, pairwise_started, hcalls, List.any_append, hquiet, InOrder]
      simp only [List.any_cons, List.any_nil, SessionEvent.isEnded, Bool.or_false]
      exact ⟨fun ⟨⟨hp, hq⟩, hd⟩ => ⟨⟨hp, hd⟩, (h.unended_iff ⟨hp, hd⟩).mp hq⟩,
        fun ⟨hs, hq⟩ => ⟨⟨hs.1, (h.unended_iff hs).mpr hq⟩, hs.2⟩⟩
    · rw [and_iff_left (by simp [Undisturbed, CallUndisturbed, hk, hl])]
      exact inOrder_congr (hdispatch l' _ hl) rfl hcalls
  | marked k l' reason hk hflag =>
    rw [and_iff_left (by simp [Undisturbed, CallUndisturbed, hk])]
    by_cases hl : l' = l
    · subst hl
      have hwins : ((((s.setLifecycle l' { s.lifecycles l' with disconnected := true }).setCall k
          (.disconnectLookup l' reason)).calls k)).disconnects = some l' := by
        rw [calls_setCall, if_pos rfl]
        rfl
      exact ⟨fun ht => ⟨ht.1, fun hd => absurd (hflag.symm.trans hd) Bool.false_ne_true⟩,
        fun hs => ⟨hs.1, fun _ => .inl ⟨k, hwins⟩⟩⟩
    · refine inOrder_congr rfl (hupdate l' _ (.inr hl)) (disconnects_setCall (s := s) ?_)
      rw [hk]
      simp [Call.disconnects, hl]
  | lost k l' reason hk hget =>
    by_cases hl : l' = l
    · subst hl
      have hwin : (s.calls k).disconnects = some l' := by rw [hk]; rfl
      refine iff_of_false ?_ fun hs => ?_
      swap
      · have hquiet := hs.2
        rw [Undisturbed, hk] at hquiet
        exact hquiet rfl hget
      rintro ⟨-, hd⟩
      rcases hd (h.disconnect.winner k hwin).1 with ⟨j, hj⟩ | hended
      · rcases status_setCall Call.disconnects hj with ⟨-, hcall⟩ | ⟨hne, hold⟩
        · cases hcall
        · exact hne (h.disconnect.unique j k hold hwin)
      · exact absurd ((h.disconnect.winner k hwin).2.symm.trans hended) Bool.false_ne_true
    · rw [and_iff_left (by simp [Undisturbed, CallUndisturbed, hk, hl])]
      exact inOrder_congr rfl rfl (disconnects_setCall (s := s) (by rw [hk]; simp [Call.disconnects, hl]))
  | ended k l' reason hk =>
    rw [and_iff_left (by simp [Undisturbed, CallUndisturbed, hk])]
    by_cases hl : l' = l
    · subst hl
      have htrace := trace_dispatch s l' (.sessionEnded (s.lifecycles l').liveId (s.lifecycles l').protocol reason) l'
      rw [if_pos rfl] at htrace
      change (((s.dispatch l' _).trace l').Pairwise _ ∧ (_ → _ ∨ ((s.dispatch l' _).trace l').any _ = true)) ↔ _
      rw [htrace, pairwise_ended, InOrder]
      refine and_congr_right fun _ => ⟨fun _ _ => .inl ⟨k, by rw [hk]; rfl⟩, fun _ _ => .inr ?_⟩
      simp [SessionEvent.isEnded]
    · exact inOrder_congr (hdispatch l' _ hl) rfl
        (disconnects_setCall (s := s) (by rw [hk]; simp [Call.disconnects, hl]))

theorem eventProtocol_iff_inOrder {l : ℕ} {s : LifecycleSystem} (h : Sequenced l s) (hdropped : s.Dropped l) :
    EventProtocol (s.lifecycles l) (s.trace l) ↔ InOrder l s := by
  have hidle : ∀ k, (s.calls k).lifecycle ≠ some l := by
    intro k hk
    have hlt : k < s.callCount := h.lt_callCount (by rintro heq; rw [heq] at hk; cases hk)
    have hrunning := hdropped.2
    simp only [running, List.any_eq_false, List.mem_range, beq_iff_eq] at hrunning
    exact hrunning k hlt hk
  have hdisconnected : (s.lifecycles l).disconnected = true := by
    rcases h.dropping hdropped.1 with hdone | ⟨k, hk | ⟨reason, hk⟩⟩
    · exact hdone
    · exact absurd (by rw [hk]; rfl) (hidle k)
    · exact absurd (by rw [hk]; rfl) (hidle k)
  constructor
  · rintro ⟨reason, heq | heq⟩ <;> simp [InOrder, heq, Precedes, SessionEvent.isStarted, SessionEvent.isEnded]
  · rintro ⟨hpairwise, hended⟩
    rcases hended hdisconnected with ⟨k, hk⟩ | hended
    · refine absurd ?_ (hidle k)
      cases hcall : s.calls k <;> rw [hcall] at hk <;> first | exact hk | cases hk
    · rcases h.shape with heq | heq | hprotocol | ⟨reason, heq⟩
      · simp [heq] at hended
      · simp [heq, SessionEvent.isEnded] at hended
      · exact hprotocol
      · simp [heq, Precedes, SessionEvent.isEnded, SessionEvent.isStarted] at hpairwise

/-- A dropped lifecycle has dispatched at most one `SessionStarted`, followed by exactly one `SessionEnded`,
exactly when nothing disturbed it. -/
theorem event_protocol_iff (descriptors : ℕ → SessionDescriptor) (liveId : ℕ → LiveId) (protocol : ℕ → Core)
    (acts : List Action) (s : LifecycleSystem) (l : ℕ)
    (hrun : run step (new descriptors liveId protocol) acts = some s) (hdropped : s.Dropped l) :
    EventProtocol (s.lifecycles l) (s.trace l) ↔
      EachStep step (Undisturbed l) (new descriptors liveId protocol) acts := by
  have hstart := sequenced_new descriptors liveId protocol l
  have hend : Sequenced l s := run_invariant (I := Sequenced l) (fun _ _ _ h _ hstep => h.step hstep) hstart
    (eachStep_trivial _ acts) hrun
  have hinitial : InOrder l (new descriptors liveId protocol) := ⟨.nil, fun hd => by cases hd⟩
  rw [eventProtocol_iff_inOrder hend hdropped,
    last_iff_eachStep (I := Sequenced l) (fun _ _ _ h hstep => h.step hstep) (fun _ _ _ h hstep => inOrder_step h hstep)
      hstart hrun]
  exact and_iff_right hinitial

instance (l : ℕ) (s : LifecycleSystem) : (call : Call) → Decidable (CallUndisturbed l s call)
  | .disconnectLookup l' _ => inferInstanceAs (Decidable (l' = l → _ ≠ _))
  | .connectDispatch l' => inferInstanceAs (Decidable (l' = l → _ = _ ∨ _ = _))
  | .connect _ | .connectLookup _ | .connectWrite _ _ | .disconnect _ _ | .disconnectCancel _ _ _
  | .disconnectDispatch _ _ | .drop _ | .finished => isTrue trivial

instance (l : ℕ) (s : LifecycleSystem) : (a : Action) → Decidable (Undisturbed l s a)
  | .run k => inferInstanceAs (Decidable (CallUndisturbed l s (s.calls k)))
  | .pending _ _ _ | .connect _ | .disconnect _ _ | .drop _ | .abandon _ | .registry _ => isTrue trivial

/-- One lifecycle of `x` on an empty registry. -/
def single : LifecycleSystem := new (fun _ => { id := "x" }) (fun _ => "x") (fun _ => .rtmp)

/-- A session is published, times out and is cleaned up, and its lifecycle is dropped. -/
def publishedSession : List Action :=
  [.pending 0 0 (.root 0), .connect 0, .run 0, .run 0, .run 0, .run 0, .disconnect 0 .timeout, .run 1, .run 1, .run 1,
    .run 1, .registry (.run 0), .registry (.run 0), .drop 0, .run 2]

theorem event_protocol_published : ∃ s ∈ run step single publishedSession,
    EventProtocol (s.lifecycles 0) (s.trace 0) := by
  have hdropped : ∃ s ∈ run step single publishedSession, s.Dropped 0 := by decide +kernel
  obtain ⟨s, hs, hdropped⟩ := hdropped
  exact ⟨s, hs, (event_protocol_iff _ _ _ publishedSession s 0 hs hdropped).mpr (by decide +kernel)⟩

/-- `StopStream` cancels the session and its entry is cleaned up before the lifecycle is dropped. -/
def stoppedSession : List Action :=
  [.pending 0 0 (.root 0), .registry (.cancel (.root 0)), .registry (.run 0), .registry (.run 0), .drop 0, .run 0,
    .run 0, .run 0]

/-- The publisher ends the stream, and a media message arrives before its connection is closed. -/
def finishedSession : List Action :=
  [.pending 0 0 (.root 0), .disconnect 0 .clientDisconnect, .run 0, .run 0, .run 0, .run 0, .connect 0, .run 1, .run 1,
    .run 1, .run 1, .drop 0, .run 2]

theorem event_protocol_broken :
    (∃ s ∈ run step single stoppedSession, s.Dropped 0 ∧ s.trace 0 = []) ∧
      ∃ s ∈ run step single finishedSession, s.Dropped 0 ∧
        s.trace 0 = [.sessionEnded "x" .rtmp .clientDisconnect, .sessionStarted "x" .rtmp] := by
  decide +kernel

end LifecycleSystem
end LivestreamRs.Sessions
