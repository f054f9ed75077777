import LivestreamRs.Sessions.Lifecycle

/-! # What a successful `connect` means

`HandlerLifecycle::connect` takes its flag before it asks the registry to move the session, so every other `connect` on
the lifecycle returns `Ok` from then on, whatever becomes of the update. Beside the system of lifecycles we keep what came
of the update each of them made.
-/
namespace LivestreamRs.Sessions
open Foundations
set_option autoImplicit false

/-- What came of the update to `Connected` a lifecycle made. -/
inductive Outcome
  | moved
  -- `update_state` returned `Ok`, the session being `Connected` before
  | found
  -- `update_state` failed, or its future was dropped
  | failed
  deriving DecidableEq

/-- The update went through. -/
def Outcome.Through (outcome : Option Outcome) : Prop := outcome = some .moved ∨ outcome = some .found

/-- A `connect` past the flag: before its update is through, or before it dispatches. -/
def Call.connectStage : Call → Option (ℕ × Bool)
  | .connectLookup l | .connectWrite l _ => some (l, false)
  | .connectDispatch l => some (l, true)
  | _ => none

theorem Call.connects_of_stage {call : Call} {l : ℕ} {through : Bool} (h : call.connectStage = some (l, through)) :
    call.connects = some l := by
  cases call <;> cases h <;> rfl

theorem Call.stage_of_connects {call : Call} {l : ℕ} (h : call.connects = some l) :
    ∃ through, call.connectStage = some (l, through) := by
  cases call <;> cases h
  · exact ⟨false, rfl⟩
  · exact ⟨false, rfl⟩
  · exact ⟨true, rfl⟩

namespace LifecycleSystem

/-- The lifecycle whose update comes to its end in a step, and how. -/
def updateEnd (s : LifecycleSystem) : Action → Option (ℕ × Outcome)
  | .run k =>
    match s.calls k with
    | .connectLookup l => if s.get l = none then some (l, .failed) else none
    | .connectWrite l session =>
      match (s.registry.writeState session .connected).2 with
      | .ok () => some (l, if (s.registry.descriptors session).state = .connected then .found else .moved)
      | .error _ => some (l, .failed)
    | _ => none
  | .abandon k =>
    match s.calls k with
    | .connectWrite l _ => some (l, .failed)
    | _ => none
  | _ => none

/-- A `connect` on `l` returns `Ok`. -/
def ReturnsOk (l : ℕ) (s : LifecycleSystem) : Action → Prop
  | .run k => (s.calls k = .connect l ∧ (s.lifecycles l).connected = true) ∨ s.calls k = .connectDispatch l
  | _ => False

def started (s : LifecycleSystem) (l : ℕ) : Bool := (s.trace l).any SessionEvent.isStarted

end LifecycleSystem

theorem LifecycleSystem.started_dispatch {s : LifecycleSystem} {l l' : ℕ} {event : SessionEvent} :
    (s.dispatch l' event).started l = (s.started l || (decide (l' = l) && event.isStarted)) := by
  rw [started, trace_dispatch, List.any_append, started]
  split
  · next hl => simp [hl]
  · next hl => simp [hl]

theorem LifecycleSystem.connected_setLifecycle {s : LifecycleSystem} {l l' : ℕ} {h : HandlerLifecycle}
    (hflag : h.connected = (s.lifecycles l').connected) :
    ((s.setLifecycle l' h).lifecycles l).connected = (s.lifecycles l).connected := by
  by_cases hl : l = l'
  · subst hl
    simpa only [setLifecycle, Function.update_self] using hflag
  · simp only [setLifecycle, Function.update_of_ne hl]

/-- The lifecycles, and what came of the updates they made. -/
structure ConnectHistory where
  system : LifecycleSystem
  outcome : ℕ → Option Outcome := fun _ => none

namespace ConnectHistory
open LifecycleSystem (started_dispatch connected_setLifecycle)

def new (descriptors : ℕ → SessionDescriptor) (liveId : ℕ → LiveId) (protocol : ℕ → Core) : ConnectHistory where
  system := .new descriptors liveId protocol

def record (s : ConnectHistory) : Option (ℕ × Outcome) → ℕ → Option Outcome
  | some (l, outcome) => Function.update s.outcome l (some outcome)
  | none => s.outcome

def step (s : ConnectHistory) (a : LifecycleSystem.Action) : Option ConnectHistory :=
  (s.system.step a).map fun system => { system, outcome := s.record (s.system.updateEnd a) }

/-- If a `connect` on `l` returns `Ok`, one of them has moved the session to `Connected` and dispatched
`SessionStarted`. -/
def OkMeansConnected (l : ℕ) (s : ConnectHistory) (a : LifecycleSystem.Action) : Prop :=
  s.system.ReturnsOk l a → ∀ t, s.step a = some t → t.outcome l = some .moved ∧ t.system.started l = true

/-- No `connect` on `l` finds the flag taken by one that is still running, has failed or found the session connected, and
none that found it so returns. -/
def Unmisled (l : ℕ) (s : ConnectHistory) : LifecycleSystem.Action → Prop
  | .run k =>
    (s.system.calls k = .connect l → (s.system.lifecycles l).connected = true →
      (∀ j, (s.system.calls j).connects ≠ some l) ∧ s.outcome l ≠ some .failed ∧ s.outcome l ≠ some .found) ∧
    (s.system.calls k = .connectDispatch l → s.outcome l ≠ some .found)
  | _ => True

/-- What the flag, the running calls, the outcome and the events of `l` say of each other. -/
structure Recorded (l : ℕ) (s : ConnectHistory) : Prop where
  sequenced : s.system.Sequenced l
  fresh : (s.system.lifecycles l).connected = false → s.outcome l = none
  updating : ∀ k, (s.system.calls k).connectStage = some (l, false) → s.outcome l = none
  through : ∀ k, (s.system.calls k).connectStage = some (l, true) → Outcome.Through (s.outcome l)
  started : s.system.started l = true → Outcome.Through (s.outcome l)
  settled : (s.system.lifecycles l).connected = true →
    (∃ k, (s.system.calls k).connects = some l) ∨ s.outcome l = some .failed ∨ s.system.started l = true

theorem recorded_new (descriptors : ℕ → SessionDescriptor) (liveId : ℕ → LiveId) (protocol : ℕ → Core) (l : ℕ) :
    Recorded l (new descriptors liveId protocol) where
  sequenced := LifecycleSystem.sequenced_new descriptors liveId protocol l
  fresh _ := rfl
  updating _ h := by cases h
  through _ h := by cases h
  started h := by cases h
  settled h := by cases h

section Steps
variable {l : ℕ} {s t : ConnectHistory}

theorem stage_setCall {k : ℕ} {call : Call}
    (hcall : ∀ through, call.connectStage = some (l, through) ↔ (s.system.calls k).connectStage = some (l, through))
    (j : ℕ) (through : Bool) :
    ((s.system.setCall k call).calls j).connectStage = some (l, through) ↔
      (s.system.calls j).connectStage = some (l, through) := by
  rw [LifecycleSystem.calls_setCall]
  split
  · next heq => rw [heq]; exact hcall through
  · exact Iff.rfl

variable (h : Recorded l s)
include h

theorem Recorded.stage_start (call : Call) (hcall : call.connectStage = none) (j : ℕ) (through : Bool) :
    ((s.system.start call).calls j).connectStage = some (l, through) ↔
      (s.system.calls j).connectStage = some (l, through) := by
  rw [LifecycleSystem.calls_start]
  split
  · next heq => rw [hcall, heq, h.sequenced.idle _ le_rfl]; rfl
  · exact Iff.rfl

/-- While a call has the flag of `l`, the stage of `l` is its stage. -/
theorem Recorded.stage_winner {k : ℕ} (hk : (s.system.calls k).connects = some l) {call : Call} {j : ℕ} {through : Bool}
    (hj : ((s.system.setCall k call).calls j).connectStage = some (l, through)) :
    call.connectStage = some (l, through) := by
  rw [LifecycleSystem.calls_setCall] at hj
  split at hj
  · exact hj
  · next hne => exact absurd (h.sequenced.connect.unique j k (Call.connects_of_stage hj) hk) hne

/-- A step that does not concern the `connect`s on `l`. -/
theorem Recorded.congr (hsequenced : t.system.Sequenced l)
    (hflag : (t.system.lifecycles l).connected = (s.system.lifecycles l).connected)
    (hstage : ∀ k through, (t.system.calls k).connectStage = some (l, through) ↔
      (s.system.calls k).connectStage = some (l, through))
    (houtcome : t.outcome l = s.outcome l) (hstarted : t.system.started l = s.system.started l) : Recorded l t where
  sequenced := hsequenced
  fresh := by rw [hflag, houtcome]; exact h.fresh
  updating k hk := by rw [houtcome]; exact h.updating k ((hstage k false).mp hk)
  through k hk := by rw [houtcome]; exact h.through k ((hstage k true).mp hk)
  started := by rw [hstarted, houtcome]; exact h.started
  settled := by
    rw [hflag, houtcome, hstarted]
    refine fun hset => (h.settled hset).imp_left ?_
    rintro ⟨k, hk⟩
    obtain ⟨through, hthrough⟩ := Call.stage_of_connects hk
    exact ⟨k, Call.connects_of_stage ((hstage k through).mpr hthrough)⟩

/-- An operation of a call that is not past the flag of `l`, before it or after it. -/
theorem Recorded.elsewhere {k : ℕ} (call : Call) (hold : (s.system.calls k).connects ≠ some l)
    (hnew : call.connects ≠ some l) (hsequenced : t.system.Sequenced l)
    (hcalls : t.system.calls = (s.system.setCall k call).calls)
    (hflag : (t.system.lifecycles l).connected = (s.system.lifecycles l).connected)
    (houtcome : t.outcome l = s.outcome l) (hstarted : t.system.started l = s.system.started l) : Recorded l t := by
  refine h.congr hsequenced hflag (hcalls ▸ stage_setCall fun through => ?_) houtcome hstarted
  exact ⟨fun hstage => absurd (Call.connects_of_stage hstage) hnew,
    fun hstage => absurd (Call.connects_of_stage hstage) hold⟩

theorem Recorded.won {k : ℕ} (hsequenced : t.system.Sequenced l) (hold : (s.system.lifecycles l).connected = false)
    (hflag : (t.system.lifecycles l).connected = true)
    (hcalls : t.system.calls = (s.system.setCall k (.connectLookup l)).calls)
    (houtcome : t.outcome l = s.outcome l) (hstarted : t.system.started l = s.system.started l) : Recorded l t where
  sequenced := hsequenced
  fresh hfresh := by rw [hflag] at hfresh; cases hfresh
  updating _ _ := houtcome.trans (h.fresh hold)
  through j hj := by
    rw [hcalls, LifecycleSystem.calls_setCall] at hj
    split at hj
    · cases hj
    · have hwon := (h.sequenced.connect.winner j (Call.connects_of_stage hj)).1
      rw [hold] at hwon
      cases hwon
  started hset := by
    rw [hstarted, LifecycleSystem.started, h.sequenced.connect.fresh hold] at hset
    cases hset
  settled _ := by
    refine .inl ⟨k, ?_⟩
    rw [hcalls, LifecycleSystem.calls_setCall, if_pos rfl]
    rfl

/-- The call with the flag of `l` moves on: it has finished, or its update is through. -/
theorem Recorded.advanced {k : ℕ} (call : Call) (hk : (s.system.calls k).connects = some l)
    (hsequenced : t.system.Sequenced l) (hcall : call.connectStage ≠ some (l, false))
    (hcalls : t.system.calls = (s.system.setCall k call).calls)
    (hflag : (t.system.lifecycles l).connected = (s.system.lifecycles l).connected)
    (hthrough : call.connectStage = some (l, true) ∨ t.system.started l = true → Outcome.Through (t.outcome l))
    (hsettled : call.connects = some l ∨ t.outcome l = some .failed ∨ t.system.started l = true) : Recorded l t where
  sequenced := hsequenced
  fresh hfresh := by
    rw [hflag, (h.sequenced.connect.winner k hk).1] at hfresh
    cases hfresh
  updating j hj := absurd (h.stage_winner hk (hcalls ▸ hj)) hcall
  through j hj := hthrough (.inl (h.stage_winner hk (hcalls ▸ hj)))
  started hset := hthrough (.inr hset)
  settled _ := by
    refine hsettled.imp_left fun hwins => ⟨k, ?_⟩
    rw [hcalls, LifecycleSystem.calls_setCall, if_pos rfl]
    exact hwins

theorem Recorded.gaveUp {k : ℕ} (hk : (s.system.calls k).connects = some l) (registry : SessionRegistry)
    (hsequenced : ({ s.system with registry }.setCall k .finished).Sequenced l) :
    Recorded l ⟨{ s.system with registry }.setCall k .finished, Function.update s.outcome l (some .failed)⟩ := by
  have hstarted : s.system.started l = false := (h.sequenced.connect.winner k hk).2
  refine h.advanced .finished hk hsequenced (by simp [Call.connectStage]) rfl rfl ?_
    (.inr (.inl (Function.update_self ..)))
  rintro (hstage | hset)
  · cases hstage
  · rw [← Bool.not_eq_true] at hstarted
    exact absurd hset hstarted

section Operations
variable {k l' : ℕ} {system : LifecycleSystem}

theorem Recorded.connect (hk : s.system.calls k = .connect l')
    (hrun : s.system.runCall k (.connect l') = some system) (hsequenced : system.Sequenced l) :
    Recorded l ⟨system, s.outcome⟩ := by
  have hold : (s.system.calls k).connects ≠ some l := by simp [hk, Call.connects]
  simp only [LifecycleSystem.runCall] at hrun
  split at hrun <;> cases hrun
  · exact h.elsewhere .finished hold (by simp [Call.connects]) hsequenced rfl rfl rfl rfl
  · next hflag =>
    by_cases hl : l' = l
    · subst hl
      exact h.won hsequenced (by simpa using hflag) (by simp [LifecycleSystem.setCall, LifecycleSystem.setLifecycle])
        rfl rfl rfl
    · exact h.elsewhere (.connectLookup l') hold (by simpa [Call.connects] using hl) hsequenced rfl
        (congrArg _ (Function.update_of_ne (Ne.symm hl) ..)) rfl rfl

/-- The update of `l'` fails, or its future is dropped. -/
theorem Recorded.failed (hk : (s.system.calls k).connects = some l') (registry : SessionRegistry)
    (hsequenced : ({ s.system with registry }.setCall k .finished).Sequenced l) :
    Recorded l ⟨{ s.system with registry }.setCall k .finished, Function.update s.outcome l' (some .failed)⟩ := by
  by_cases hl : l' = l
  · subst hl
    exact h.gaveUp hk registry hsequenced
  · exact h.elsewhere .finished (by simpa [hk] using hl) (by simp [Call.connects]) hsequenced rfl rfl
      (Function.update_of_ne (Ne.symm hl) ..) rfl

theorem Recorded.connectLookup (hk : s.system.calls k = .connectLookup l')
    (hrun : s.system.runCall k (.connectLookup l') = some system) (hsequenced : system.Sequenced l) :
    Recorded l ⟨system, s.record (s.system.updateEnd (.run k))⟩ := by
  simp only [LifecycleSystem.runCall] at hrun
  simp only [LifecycleSystem.updateEnd, hk]
  cases hget : s.system.get l' with
  | none =>
    simp only [hget] at hrun
    cases hrun
    rw [if_pos rfl]
    exact h.failed (k := k) (by rw [hk]; rfl) s.system.registry hsequenced
  | some entry =>
    simp only [hget] at hrun
    cases hrun
    rw [if_neg (Option.some_ne_none _)]
    refine h.congr hsequenced rfl (stage_setCall fun through => ?_) rfl rfl
    rw [hk]
    exact Iff.rfl

theorem Recorded.connectWrite {session : ℕ} (hk : s.system.calls k = .connectWrite l' session)
    (hrun : s.system.runCall k (.connectWrite l' session) = some system) (hsequenced : system.Sequenced l) :
    Recorded l ⟨system, s.record (s.system.updateEnd (.run k))⟩ := by
  have hwins : (s.system.calls k).connects = some l' := by rw [hk]; rfl
  simp only [LifecycleSystem.runCall] at hrun
  simp only [LifecycleSystem.updateEnd, hk]
  rcases hwrite : s.system.registry.writeState session .connected with ⟨registry, result⟩
  simp only [hwrite] at hrun ⊢
  cases result with
  | ok =>
    cases hrun
    by_cases hl : l' = l
    · subst hl
      refine h.advanced (.connectDispatch l') hwins hsequenced (by simp [Call.connectStage]) rfl rfl (fun _ => ?_) (.inl rfl)
      simp only [record, Function.update_self]
      split
      · exact .inr rfl
      · exact .inl rfl
    · exact h.elsewhere (.connectDispatch l') (by simpa [hwins] using hl) (by simpa [Call.connects] using hl) hsequenced rfl
        rfl (Function.update_of_ne (Ne.symm hl) ..) rfl
  | error message =>
    cases hrun
    exact h.failed hwins registry hsequenced

theorem Recorded.connectDispatch (hk : s.system.calls k = .connectDispatch l')
    (hrun : s.system.runCall k (.connectDispatch l') = some system) (hsequenced : system.Sequenced l) :
    Recorded l ⟨system, s.outcome⟩ := by
  simp only [LifecycleSystem.runCall] at hrun
  cases hrun
  by_cases hl : l' = l
  · subst hl
    refine h.advanced (k := k) .finished (by rw [hk]; rfl) hsequenced (by simp [Call.connectStage]) rfl rfl
      (fun _ => h.through k (by rw [hk]; rfl)) (.inr (.inr ?_))
    exact started_dispatch.trans (by simp [SessionEvent.isStarted])
  · refine h.elsewhere .finished (by simpa [hk, Call.connects] using hl) (by simp [Call.connects]) hsequenced rfl rfl rfl ?_
    exact started_dispatch.trans (by simp [hl])

end Operations

theorem Recorded.run {k : ℕ} {system : LifecycleSystem} (hrun : s.system.runCall k (s.system.calls k) = some system)
    (hsequenced : system.Sequenced l) : Recorded l ⟨system, s.record (s.system.updateEnd (.run k))⟩ := by
  cases hk : s.system.calls k with
  | connect l' =>
    simp only [LifecycleSystem.updateEnd, hk]
    exact h.connect hk (hk ▸ hrun) hsequenced
  | connectLookup l' => exact h.connectLookup hk (hk ▸ hrun) hsequenced
  | connectWrite l' session => exact h.connectWrite hk (hk ▸ hrun) hsequenced
  | connectDispatch l' =>
    simp only [LifecycleSystem.updateEnd, hk]
    exact h.connectDispatch hk (hk ▸ hrun) hsequenced
  | disconnect l' reason =>
    have hold : (s.system.calls k).connects ≠ some l := by simp [hk, Call.connects]
    simp only [hk, LifecycleSystem.runCall] at hrun
    simp only [LifecycleSystem.updateEnd, hk]
    split at hrun <;> cases hrun
    · exact h.elsewhere .finished hold (by simp [Call.connects]) hsequenced rfl rfl rfl rfl
    · refine h.elsewhere (.disconnectLookup l' reason) hold (by simp [Call.connects]) hsequenced rfl ?_ rfl rfl
      exact connected_setLifecycle rfl
  | disconnectLookup l' reason =>
    have hold : (s.system.calls k).connects ≠ some l := by simp [hk, Call.connects]
    simp only [hk, LifecycleSystem.runCall] at hrun
    simp only [LifecycleSystem.updateEnd, hk]
    split at hrun <;> cases hrun
    · exact h.elsewhere .finished hold (by simp [Call.connects]) hsequenced rfl rfl rfl rfl
    · exact h.elsewhere (.disconnectCancel ..) hold (by simp [Call.connects]) hsequenced rfl rfl rfl rfl
  | disconnectCancel l' reason ct =>
    simp only [hk, LifecycleSystem.runCall] at hrun
    simp only [LifecycleSystem.updateEnd, hk]
    cases hrun
    exact h.elsewhere (.disconnectDispatch l' reason) (by simp [hk, Call.connects]) (by simp [Call.connects]) hsequenced rfl
      rfl rfl rfl
  | disconnectDispatch l' reason =>
    simp only [hk, LifecycleSystem.runCall] at hrun
    simp only [LifecycleSystem.updateEnd, hk]
    cases hrun
    refine h.elsewhere .finished (by simp [hk, Call.connects]) (by simp [Call.connects]) hsequenced rfl rfl rfl ?_
    exact started_dispatch.trans (by simp [SessionEvent.isStarted])
  | drop l' =>
    have hold : (s.system.calls k).connects ≠ some l := by simp [hk, Call.connects]
    simp only [hk, LifecycleSystem.runCall] at hrun
    simp only [LifecycleSystem.updateEnd, hk]
    split at hrun <;> cases hrun
    · exact h.elsewhere .finished hold (by simp [Call.connects]) hsequenced rfl rfl rfl rfl
    · exact h.elsewhere (.disconnect ..) hold (by simp [Call.connects]) hsequenced rfl rfl rfl rfl
  | finished =>
    rw [hk] at hrun
    cases hrun

theorem Recorded.step {a : LifecycleSystem.Action} (hstep : s.step a = some t) : Recorded l t := by
  obtain ⟨system, hsystem, rfl⟩ := Option.map_eq_some_iff.mp hstep
  have hsequenced := h.sequenced.step hsystem
  cases a with
  | pending l' session ct =>
    simp only [LifecycleSystem.step] at hsystem
    split at hsystem <;> cases hsystem
    exact h.congr hsequenced rfl (fun _ _ => Iff.rfl) rfl rfl
  | connect l' =>
    simp only [LifecycleSystem.step] at hsystem
    split at hsystem <;> cases hsystem
    exact h.congr hsequenced rfl (h.stage_start _ rfl) rfl rfl
  | disconnect l' reason =>
    simp only [LifecycleSystem.step] at hsystem
    split at hsystem <;> cases hsystem
    exact h.congr hsequenced rfl (h.stage_start _ rfl) rfl rfl
  | drop l' =>
    simp only [LifecycleSystem.step] at hsystem
    split at hsystem <;> cases hsystem
    exact h.congr hsequenced (connected_setLifecycle rfl) (h.stage_start (.drop l') rfl) rfl rfl
  | run k => exact h.run hsystem hsequenced
  | abandon k =>
    simp only [LifecycleSystem.step] at hsystem
    split at hsystem
    · next l' session hk =>
      cases hsystem
      simp only [LifecycleSystem.updateEnd, hk]
      exact h.failed (k := k) (by rw [hk]; rfl) s.system.registry hsequenced
    · cases hsystem
  | registry a =>
    obtain ⟨registry, -, rfl⟩ := Option.map_eq_some_iff.mp hsystem
    exact h.congr hsequenced rfl (fun _ _ => Iff.rfl) rfl rfl

end Steps

/-! ## The meaning of `Ok` -/

theorem step_taken {l k : ℕ} {s : ConnectHistory} (hk : s.system.calls k = .connect l)
    (hflag : (s.system.lifecycles l).connected = true) :
    s.step (.run k) = some ⟨s.system.setCall k .finished, s.outcome⟩ := by
  simp only [step, LifecycleSystem.step, LifecycleSystem.runCall, LifecycleSystem.updateEnd, record, hk, if_pos hflag,
    Option.map_some]

theorem step_dispatch {l k : ℕ} {s : ConnectHistory} (hk : s.system.calls k = .connectDispatch l) :
    ∃ t, s.step (.run k) = some t ∧ t.outcome = s.outcome ∧ t.system.started l = true := by
  simp only [step, LifecycleSystem.step, LifecycleSystem.runCall, LifecycleSystem.updateEnd, record, hk, Option.map_some]
  exact ⟨_, rfl, rfl, started_dispatch.trans (by simp [SessionEvent.isStarted])⟩

/-- A `connect` that returns `Ok` keeps the promise exactly if it was not misled. -/
theorem okMeansConnected_iff {l : ℕ} {s : ConnectHistory} (h : Recorded l s) (a : LifecycleSystem.Action) :
    OkMeansConnected l s a ↔ Unmisled l s a := by
  cases a with
  | run k =>
    constructor
    · refine fun hok => ⟨fun hk hflag => ?_, fun hk hfound => ?_⟩
      · obtain ⟨hmoved, hstarted⟩ := hok (.inl ⟨hk, hflag⟩) _ (step_taken hk hflag)
        replace hmoved : s.outcome l = some .moved := hmoved
        refine ⟨fun j hj => ?_, by simp [hmoved], by simp [hmoved]⟩
        exact absurd (hstarted.symm.trans (h.sequenced.connect.winner j hj).2) (by simp)
      · obtain ⟨t, hstep, houtcome, -⟩ := step_dispatch hk
        have hmoved := (hok (.inr hk) t hstep).1
        rw [houtcome, hfound] at hmoved
        cases hmoved
    · rintro ⟨htaken, hdispatch⟩ (⟨hk, hflag⟩ | hk) t hstep
      · obtain rfl := Option.some.inj ((step_taken hk hflag).symm.trans hstep)
        obtain ⟨hidle, hfailed, hfound⟩ := htaken hk hflag
        have hstarted : s.system.started l = true := by
          rcases h.settled hflag with ⟨j, hj⟩ | hset | hset
          · exact absurd hj (hidle j)
          · exact absurd hset hfailed
          · exact hset
        exact ⟨(h.started hstarted).resolve_right hfound, hstarted⟩
      · obtain ⟨u, hu, houtcome, hstarted⟩ := step_dispatch hk
        obtain rfl := Option.some.inj (hu.symm.trans hstep)
        rw [houtcome]
        exact ⟨(h.through k (by rw [hk]; rfl)).resolve_right (hdispatch hk), hstarted⟩
  | _ => exact ⟨fun _ => trivial, fun _ hok => hok.elim⟩

/-- Every `connect` on `l` that returns `Ok` means that one of them has moved the session to `Connected` and dispatched
`SessionStarted`, exactly in the runs in which none of them is misled by the flag. -/
theorem connect_ok_means_connected_iff (descriptors : ℕ → SessionDescriptor) (liveId : ℕ → LiveId) (protocol : ℕ → Core)
    (l : ℕ) (actions : List LifecycleSystem.Action) :
    EachStep step (OkMeansConnected l) (new descriptors liveId protocol) actions ↔
      EachStep step (Unmisled l) (new descriptors liveId protocol) actions := by
  have hnew := recorded_new descriptors liveId protocol l
  constructor
  · exact EachStep.imp (fun s a t h hok hstep => ⟨h.step hstep, (okMeansConnected_iff h a).mp hok⟩) hnew
  · exact EachStep.imp (fun s a t h hun hstep => ⟨h.step hstep, (okMeansConnected_iff h a).mpr hun⟩) hnew

/-- With no session in the registry the first `connect` fails, and the second returns `Ok`. -/
theorem connect_ok_after_failure :
    ∃ s, run step (new (fun _ => { id := "" }) (fun _ => "live") (fun _ => .rtmp))
        [.connect 0, .run 0, .run 0, .connect 0] = some s ∧
      s.outcome 0 = some .failed ∧ s.system.ReturnsOk 0 (.run 1) ∧
      ∃ t, s.step (.run 1) = some t ∧ t.outcome 0 = some .failed ∧ t.system.trace 0 = [] := by
  refine ⟨_, rfl, rfl, .inl ⟨rfl, rfl⟩, _, rfl, rfl, rfl⟩

end ConnectHistory
end LivestreamRs.Sessions
