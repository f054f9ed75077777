import LivestreamRs.Foundations.Transitions
import Mathlib.Tactic

/-! # Supervision of the servers

`main` (`src/main.rs`) from where its servers are spawned: it waits for the first error a server reports or for the
shutdown signal, cancels what runs, waits for the tasks, and returns. A server may come back, fail or panic at any time;
an error is reported through a channel for one message that nobody waits on.
-/
namespace LivestreamRs.Server
open Foundations
set_option autoImplicit false

/-! ## Model -/

inductive ServerName
  | rtmp
  | grpc
  | httpFlv
  | rtsp
  deriving DecidableEq

def ServerName.all : List ServerName := [.rtmp, .grpc, .httpFlv, .rtsp]

/-- A server's `JoinHandle`. -/
inductive ServerTask
  -- the server could not be created
  | absent
  | running
  | finished
  | panicked
  deriving DecidableEq

inductive MainPhase
  | waiting
  | draining (firstError : Option String)
  | returned (result : Except String Unit) (notDrained : ℕ)

def MainPhase.isReturned : MainPhase → Bool
  | returned _ _ => true
  | _ => false

structure Supervisor where
  tasks : ServerName → ServerTask
  -- the shutdown token
  cancelled : Bool := false
  -- the error channel
  errors : Option String := none
  main : MainPhase := .waiting
  -- history: the errors servers have come back with, and whether the signal has come
  failures : List String := []
  signalled : Bool := false

namespace Supervisor

/-- Of the four servers only the gRPC server is started in any case. -/
def initial (created : ServerName → Bool) : Supervisor where
  tasks server := if server = .grpc ∨ created server then .running else .absent

section Operations
variable (s : Supervisor)

def count (task : ServerTask) : ℕ := ServerName.all.countP fun server => s.tasks server = task

def startedCount : ℕ := ServerName.all.countP fun server => s.tasks server ≠ .absent

/-- `spawn_server`, when the server's `run` has come back. -/
def exit (server : ServerName) (result : Except String Unit) : Supervisor :=
  let s := { s with tasks := Function.update s.tasks server .finished }
  match result with
  | .ok () => s
  -- `try_send`
  | .error e => { s with errors := some (s.errors.getD e), failures := s.failures ++ [e] }

/-- `drain_handle` -/
def drainHandle : ServerTask → Bool
  | .absent | .finished => true
  | .running | .panicked => false

def drainedCount : ℕ := ServerName.all.countP fun server => drainHandle (s.tasks server)

def resultOf : Option String → Except String Unit
  | some e => .error ("Server shut down with error: " ++ e)
  | none => .ok ()

/-- From the end of the `timeout` on. -/
def returnWith (firstError : Option String) (drainedCount : ℕ) : Supervisor :=
  { s with main := .returned (resultOf firstError) (s.startedCount - drainedCount) }

end Operations

inductive SupervisorAction
  -- SIGINT or SIGTERM
  | signal
  | exit (server : ServerName) (result : Except String Unit)
  | panicked (server : ServerName)
  -- the two arms of the `select!`
  | receive
  | noticeCancel
  -- the two ends of the `timeout`
  | join
  | expire

def SupervisorAction.isMain : SupervisorAction → Bool
  | .receive | .noticeCancel | .join | .expire => true
  | .signal | .exit _ _ | .panicked _ => false

/-- The process ends when `main` returns. -/
def step (s : Supervisor) (a : SupervisorAction) : Option Supervisor :=
  match s.main, a with
  | .returned _ _, _ => none
  | _, .signal => some { s with cancelled := true, signalled := true }
  | _, .exit server result => if s.tasks server = .running then some (s.exit server result) else none
  | _, .panicked server =>
    if s.tasks server = .running then some { s with tasks := Function.update s.tasks server .panicked } else none
  | .waiting, .receive =>
    s.errors.map fun e => { s with main := .draining (some e), errors := none, cancelled := true }
  | .waiting, .noticeCancel => if s.cancelled then some { s with main := .draining none } else none
  | .draining firstError, .join =>
    if s.count .running = 0 then some (s.returnWith firstError s.drainedCount) else none
  | .draining firstError, .expire => if 0 < s.count .running then some (s.returnWith firstError 0) else none
  | _, _ => none

/-! ## Why `main` goes on -/

section Facts
variable {s s' : Supervisor}

/-- What has made `main` stop waiting. -/
def Explained (s : Supervisor) : Option String → Prop
  | none => s.signalled = true
  | some e => ∃ rest, s.failures = e :: rest

/-- `not_drained`, from how the tasks have ended. -/
def notDrained (s : Supervisor) : ℕ :=
  if s.count .running = 0 then s.count .panicked - s.count .absent else 4 - s.count .absent

def SoundIn (s : Supervisor) : MainPhase → Prop
  | .waiting => s.cancelled = s.signalled ∧ s.errors = s.failures.head?
  | .draining firstError => Explained s firstError
  | .returned result n => ∃ firstError, Explained s firstError ∧ result = resultOf firstError ∧ n = s.notDrained

def Sound (s : Supervisor) : Prop := SoundIn s s.main

theorem countP_all (P : ServerName → Bool) : ServerName.all.countP P =
    (P .rtmp).toNat + (P .grpc).toNat + (P .httpFlv).toNat + (P .rtsp).toNat := by
  cases hrtmp : P .rtmp <;> cases hgrpc : P .grpc <;> cases hflv : P .httpFlv <;> cases hrtsp : P .rtsp <;>
    simp [ServerName.all, hrtmp, hgrpc, hflv, hrtsp]

/-- Each task is in one state, and those that are not absent were started. -/
theorem counts (s : Supervisor) :
    s.startedCount = s.count .running + s.count .finished + s.count .panicked ∧
      s.drainedCount = s.count .absent + s.count .finished ∧ s.startedCount + s.count .absent = 4 := by
  have hone : ∀ task : ServerTask,
      (decide (task ≠ .absent)).toNat = (decide (task = .running)).toNat + (decide (task = .finished)).toNat +
        (decide (task = .panicked)).toNat ∧
      (drainHandle task).toNat = (decide (task = .absent)).toNat + (decide (task = .finished)).toNat ∧
      (decide (task ≠ .absent)).toNat + (decide (task = .absent)).toNat = 1 := by
    intro task
    cases task <;> decide
  have hrtmp := hone (s.tasks .rtmp)
  have hgrpc := hone (s.tasks .grpc)
  have hflv := hone (s.tasks .httpFlv)
  have hrtsp := hone (s.tasks .rtsp)
  simp only [startedCount, drainedCount, count, countP_all]
  omega

theorem notDrained_joined (h : s.count .running = 0) : s.startedCount - s.drainedCount = s.notDrained := by
  obtain ⟨hstarted, hdrained, -⟩ := s.counts
  rw [notDrained, if_pos h, hstarted, hdrained]
  omega

theorem notDrained_expired (h : 0 < s.count .running) : s.startedCount - 0 = s.notDrained := by
  obtain ⟨-, -, hall⟩ := s.counts
  rw [notDrained, if_neg h.ne']
  omega

theorem sound_initial (created : ServerName → Bool) : Sound (initial created) := ⟨rfl, rfl⟩

theorem Explained.exit {firstError : Option String} (h : Explained s firstError) (server : ServerName)
    (result : Except String Unit) : Explained (s.exit server result) firstError := by
  cases result with
  | ok _ => cases firstError <;> exact h
  | error e =>
    cases firstError with
    | none => exact h
    | some first =>
      obtain ⟨rest, hrest⟩ := h
      exact ⟨rest ++ [e], by simp [Supervisor.exit, hrest]⟩

theorem Sound.exit (h : Sound s) (hmain : s.main.isReturned = false) (server : ServerName)
    (result : Except String Unit) : Sound (s.exit server result) := by
  have hsame : (s.exit server result).main = s.main := by cases result <;> rfl
  unfold Sound at h ⊢
  rw [hsame]
  cases hphase : s.main with
  | waiting =>
    rw [hphase] at h
    obtain ⟨htoken, herrors⟩ := h
    cases result with
    | ok _ => exact ⟨htoken, herrors⟩
    | error e =>
      refine ⟨htoken, ?_⟩
      simp only [Supervisor.exit, herrors]
      cases s.failures <;> rfl
  | draining firstError =>
    rw [hphase] at h
    exact Explained.exit h server result
  | returned result n =>
    rw [hphase] at hmain
    cases hmain

theorem Sound.step_waiting {a : SupervisorAction} (h : Sound s) (hmain : s.main = .waiting)
    (hstep : s.step a = some s') : Sound s' := by
  have hwaiting := h
  rw [Sound, hmain] at hwaiting
  obtain ⟨htoken, herrors⟩ := hwaiting
  cases a with
  | signal =>
    simp only [Supervisor.step, hmain, Option.some.injEq] at hstep
    subst hstep
    exact ⟨rfl, herrors⟩
  | exit server result =>
    simp only [Supervisor.step, hmain] at hstep
    obtain ⟨-, heq⟩ := Option.ite_none_right_eq_some.mp hstep
    exact Option.some.inj heq ▸ h.exit (by rw [hmain]; rfl) server result
  | panicked server =>
    simp only [Supervisor.step, hmain] at hstep
    obtain ⟨-, heq⟩ := Option.ite_none_right_eq_some.mp hstep
    obtain rfl := Option.some.inj heq
    exact ⟨htoken, herrors⟩
  | receive =>
    simp only [Supervisor.step, hmain] at hstep
    obtain ⟨e, he, rfl⟩ := Option.map_eq_some_iff.mp hstep
    rw [herrors, List.head?_eq_some_iff] at he
    exact he
  | noticeCancel =>
    simp only [Supervisor.step, hmain] at hstep
    obtain ⟨hcancelled, heq⟩ := Option.ite_none_right_eq_some.mp hstep
    obtain rfl := Option.some.inj heq
    exact htoken.symm.trans hcancelled
  | join | expire =>
    simp only [Supervisor.step, hmain] at hstep
    cases hstep

theorem Sound.step_draining {a : SupervisorAction} {firstError : Option String} (h : Sound s)
    (hmain : s.main = .draining firstError) (hstep : s.step a = some s') : Sound s' := by
  have hexplained := h
  rw [Sound, hmain] at hexplained
  cases a with
  | signal =>
    simp only [Supervisor.step, hmain, Option.some.injEq] at hstep
    subst hstep
    cases firstError with
    | none => rfl
    | some e => exact hexplained
  | exit server result =>
    simp only [Supervisor.step, hmain] at hstep
    obtain ⟨-, heq⟩ := Option.ite_none_right_eq_some.mp hstep
    exact Option.some.inj heq ▸ h.exit (by rw [hmain]; rfl) server result
  | panicked server =>
    simp only [Supervisor.step, hmain] at hstep
    obtain ⟨-, heq⟩ := Option.ite_none_right_eq_some.mp hstep
    obtain rfl := Option.some.inj heq
    cases firstError <;> exact hexplained
  | join =>
    simp only [Supervisor.step, hmain] at hstep
    obtain ⟨hrunning, heq⟩ := Option.ite_none_right_eq_some.mp hstep
    obtain rfl := Option.some.inj heq
    exact ⟨firstError, by cases firstError <;> exact hexplained, rfl, notDrained_joined hrunning⟩
  | expire =>
    simp only [Supervisor.step, hmain] at hstep
    obtain ⟨hrunning, heq⟩ := Option.ite_none_right_eq_some.mp hstep
    obtain rfl := Option.some.inj heq
    exact ⟨firstError, by cases firstError <;> exact hexplained, rfl, notDrained_expired hrunning⟩
  | receive | noticeCancel =>
    simp only [Supervisor.step, hmain] at hstep
    cases hstep

/-- `main` goes on for a reason, and nothing else moves it. -/
theorem Sound.step {a : SupervisorAction} (h : Sound s) (hstep : s.step a = some s') : Sound s' := by
  cases hmain : s.main with
  | waiting => exact h.step_waiting hmain hstep
  | draining firstError => exact h.step_draining hmain hstep
  | returned result n =>
    simp only [Supervisor.step, hmain] at hstep
    cases hstep

theorem sound_of_run {created : ServerName → Bool} {acts : List SupervisorAction}
    (hrun : run step (initial created) acts = some s) : Sound s :=
  run_invariant (I := Sound) (fun _ _ _ h _ hstep => h.step hstep) (sound_initial created) (eachStep_trivial _ acts) hrun

end Facts

/-! ## How `main` ends -/

section Runs
variable {created : ServerName → Bool} {acts : List SupervisorAction} {s : Supervisor}

/-- Once `main` has stopped waiting it comes back, whatever the servers do. -/
theorem exists_return {firstError : Option String} (hmain : s.main = .draining firstError) :
    ∃ a s', a.isMain = true ∧ s.step a = some s' ∧ s'.main.isReturned = true := by
  by_cases hrunning : s.count .running = 0
  · refine ⟨.join, s.returnWith firstError s.drainedCount, rfl, ?_, rfl⟩
    simp only [step, hmain, if_pos hrunning]
  · refine ⟨.expire, s.returnWith firstError 0, rfl, ?_, rfl⟩
    simp only [step, hmain, if_pos (Nat.pos_of_ne_zero hrunning)]

end Runs

end Supervisor

end LivestreamRs.Server
