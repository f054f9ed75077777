import LivestreamRs.Sessions.WellFormed

/-! # The control loops

A control loop starts to register a key only after the registry had no entry for it, keeps the token it found
for a `StopStream`, and creates no connection. `ControlMoves` says this for every step of every task.
-/
namespace LivestreamRs.Sessions
open Foundations
set_option autoImplicit false

/-- The key a control loop is about to register. -/
def Phase.precreates : Phase → Option LiveId
  | createChannel _ x | newLifecycle _ x | precreate .register _ x _ => some x
  | _ => none

def Phase.connection : Phase → Bool
  | publishRequested _ | request _ _ _ | publish _ _ _ _ | rtmpSource _ _ | recordClaim _ _ | record _ _ _ _
  | flvSink _ _ _ => true
  | _ => false

structure ControlMoves (w : World) (choice : Choice) (t : Task) (op : Op) (t' : Task) : Prop where
  precreates : ∀ x, t'.phase.precreates = some x →
    t.phase.precreates = some x ∨ (w.registry x = none ∧ ∃ msg, choice = .receive msg)
  connection : t'.phase.connection = true → t.phase.connection = true
  stop : ∀ c x u, t'.phase = .stopCancel c x u →
    t.phase = .stopCancel c x u ∨ ∃ g, w.registry x = some g ∧ u = w.token g
  created : ∀ c x, op = .newLifecycle c x → t' = { phase := .precreate .register c x w.generationCount }
  registering : ∀ c x g, t = { phase := .precreate .register c x g } → w.registry (w.liveId g) = none →
    op = .register g
  spawned : ∀ p, op.spawned = some p → p.precreates = none ∧ (∀ c x u, p ≠ .stopCancel c x u) ∧
    (p.connection = true → t.phase.connection = true)

theorem controlMoves_disconnectNext {w : World} {choice : Choice} {p : Phase} {d : Disconnect} :
    ControlMoves w choice ⟨p, some d⟩ (d.next w).1 ⟨p, (d.next w).2⟩ := by
  have hop : ∀ c x, (d.next w).1 ≠ .newLifecycle c x := by
    obtain h | ⟨g, h⟩ | ⟨g, u, reason, -, h⟩ | ⟨e, h⟩ := op_disconnectNext w d <;> simp [h]
  constructor
  case precreates => exact fun x hx => .inl hx
  case connection => exact fun hp => hp
  case stop => exact fun c x u hp => .inl hp
  case created => exact fun c x h => absurd h (hop c x)
  case registering =>
    intro c x g ht
    cases ht
  case spawned => exact fun q hq => by rw [spawned_disconnectNext] at hq; cases hq

theorem controlMoves_abortNext {w : World} {choice : Choice} {p : Phase} {op : Op} {t' : Task}
    (h : abortNext w p = some (op, t')) : ControlMoves w choice { phase := p } op t' := by
  obtain ⟨c, owned, hawait, rfl, rfl⟩ := abortNext_cases h
  constructor
  case registering =>
    intro c x g ht
    obtain rfl : p = .precreate .register c x g := congrArg Task.phase ht
    cases hawait
  all_goals
    intros
    contradiction

theorem controlMoves_next {w : World} {choice : Choice} {op : Op} {t t' : Task}
    (h : t.next w choice = some (op, t')) : ControlMoves w choice t op t' := by
  refine next_rule (R := ControlMoves w choice) ?_ ?_ ?_ ?_ ?_ controlMoves_abortNext controlMoves_disconnectNext h
  all_goals
    intro p op t' h
    simp only [controlNext, receive, timerNext, publishNext, recordNext, sinkNext] at h
    repeat' split at h
    all_goals simp only [Option.some.injEq, Prod.mk.injEq, reduceCtorEq] at h
    all_goals
      obtain ⟨rfl, rfl⟩ := h
      constructor
    -- most steps do not do what a field speaks of
    all_goals first
      | (intros; contradiction)
      | simp [Phase.precreates, Phase.connection, Op.spawned]
  all_goals grind

end LivestreamRs.Sessions
