import LivestreamRs.Sessions.WellFormed

/-! # Where the tokens come from

A task fires a token it looked up in the registry, a child of such a token, or the token of its own RTSP
connection. `TokenMoves` says this for every step of every task.
-/
namespace LivestreamRs.Sessions
open Foundations
set_option autoImplicit false

def Phase.cancel : Phase → Option Token
  | recordClaim _ k | record _ _ _ k => some k
  | _ => none

def Phase.fires : Phase → Option Token
  | stopCancel _ _ t | publish .finished _ _ t | publish .cancel _ _ t | rtmpSource _ t
  | record .refused _ _ t | record .cancel _ _ t => some t
  | _ => none

structure TokenMoves (w : World) (t : Task) (op : Op) (t' : Task) : Prop where
  fire : ∀ u, op = .fire u → (∃ g reason, t.disconnecting = some (.cancel g u reason)) ∨
    (t.disconnecting = none ∧ t.phase.fires = some u)
  cancel : ∀ k, t'.phase.cancel = some k → t.phase.cancel = some k
  publish : ∀ stage x g u, t'.phase = .publish stage x g u →
    (∃ stage', t.phase = .publish stage' x g u) ∨
    (t = { phase := .request .accepted x g } ∧ ∃ g', w.registry x = some g' ∧ u = w.token g') ∨
    ∃ g₀, t = { phase := .publish .claim x g₀ u } ∧ w.pending .rtmp x = some g
  source : ∀ g q, t'.phase = .rtmpSource g q → t.phase = .rtmpSource g q
  recording : ∀ x g k, t'.phase = .record .recording x g k →
    t.phase = .record .recording x g k ∨ t = { phase := .record .build x g k }
  built : ∀ x g k, t = { phase := .record .build x g k } → t'.phase = .record .recording x g k
  forward : ∀ g, op = .forward g → ∃ x k, t.phase = .record .recording x g k ∧ w.isCancelled k = false
  spawned : ∀ p, op.spawned = some p → p.cancel = none ∧ (∀ stage x g u, p ≠ .publish stage x g u) ∧
    ∀ g q, p = .rtmpSource g q → ∃ x u m, t.phase = .publish .source x g u ∧ q = .child m u
  disconnect : ∀ g u reason, t'.disconnecting = some (.cancel g u reason) →
    t'.phase = t.phase ∧ t.disconnecting = some (.lookup g reason) ∧
      ∃ g', w.registry (w.liveId g) = some g' ∧ u = w.token g'

/-- Inside `disconnect_with_reason` a task fires the token of the session it found. -/
theorem tokenMoves_disconnectNext {w : World} {p : Phase} {d : Disconnect} :
    TokenMoves w ⟨p, some d⟩ (d.next w).1 ⟨p, (d.next w).2⟩ := by
  have hop : (∀ u, (d.next w).1 = .fire u → ∃ g reason, d = .cancel g u reason) ∧
      ∀ g, (d.next w).1 ≠ .forward g := by
    obtain h | ⟨g, h⟩ | ⟨g, u, reason, rfl, h⟩ | ⟨e, h⟩ := op_disconnectNext w d <;> simp [h]
  constructor
  case fire =>
    intro u hu
    obtain ⟨g, reason, rfl⟩ := hop.1 u hu
    exact .inl ⟨g, reason, rfl⟩
  case cancel => exact fun k hk => hk
  case publish => exact fun stage x g u hp => .inl ⟨stage, hp⟩
  case source => exact fun g q hp => hp
  case recording => exact fun x g k hp => .inl hp
  case built =>
    intro x g k ht
    cases ht
  case forward => exact fun g hg => absurd hg (hop.2 g)
  case spawned => exact fun q hq => by rw [spawned_disconnectNext] at hq; cases hq
  case disconnect =>
    intro g u reason hd
    unfold Disconnect.next at hd
    repeat' split at hd
    all_goals simp only [Option.some.injEq, Disconnect.cancel.injEq, reduceCtorEq] at hd
    next g₀ reason₀ g' hg' =>
    obtain ⟨rfl, rfl, rfl⟩ := hd
    exact ⟨rfl, rfl, g', hg', rfl⟩

/-- No future is aborted while its pipeline is built. -/
theorem tokenMoves_abortNext {w : World} {p : Phase} {op : Op} {t' : Task} (h : abortNext w p = some (op, t')) :
    TokenMoves w { phase := p } op t' := by
  obtain ⟨c, owned, hawait, rfl, rfl⟩ := abortNext_cases h
  constructor
  case built =>
    intro x g k ht
    obtain rfl : p = .record .build x g k := congrArg Task.phase ht
    cases hawait
  case disconnect =>
    intro g u reason hd
    obtain ⟨g', -, hdrop⟩ := Option.map_eq_some_iff.mp hd
    cases hdrop
  all_goals
    intros
    contradiction

theorem tokenMoves_next {w : World} {choice : Choice} {op : Op} {t t' : Task}
    (h : t.next w choice = some (op, t')) : TokenMoves w t op t' := by
  refine next_rule (R := TokenMoves w) ?_ ?_ ?_ ?_ ?_ tokenMoves_abortNext tokenMoves_disconnectNext h
  all_goals
    intro p op t' h
    simp only [controlNext, receive, timerNext, publishNext, recordNext, sinkNext] at h
    repeat' split at h
    all_goals simp only [Option.some.injEq, Prod.mk.injEq, reduceCtorEq] at h
    all_goals
      obtain ⟨rfl, rfl⟩ := h
      constructor
    -- most steps do not do what a field speaks of
    all_goals first
      | (intros; contradiction)
      | simp [Phase.cancel, Phase.fires, Op.spawned]
  -- what is left: the claim of a lifecycle
  all_goals grind

/-! ## Session tokens and connection tokens -/

theorem fired_apply (w : World) (op : Op) :
    (∃ u, op = .fire u ∧ (w.apply op).fired = u :: w.fired) ∨ (w.apply op).fired = w.fired := by
  cases op
  case fire u => exact .inl ⟨u, rfl, rfl⟩
  case createChannel | broadcast => simp only [World.apply]; split <;> exact .inr rfl
  all_goals exact .inr rfl

theorem Sound.token_rootId {w : World} (hw : Sound w) {g : ℕ} (hg : g < w.generationCount) :
    (w.token g).rootId = 0 := by
  obtain ⟨c, hc⟩ := hw.token g hg
  rw [hc]
  cases c <;> rfl

theorem Sound.token_depth {w : World} (hw : Sound w) {g : ℕ} (hg : g < w.generationCount) :
    (w.token g).depth = 2 := by
  obtain ⟨c, hc⟩ := hw.token g hg
  rw [hc]
  cases c <;> rfl

/-- Two sessions have unrelated tokens. -/
theorem Sound.eq_of_covers {w : World} (hw : Sound w) {g g' : ℕ} (hg : g < w.generationCount)
    (hg' : g' < w.generationCount) (h : (w.token g).covers (w.token g') = true) : g = g' := by
  have heq := Token.eq_of_covers (by rw [hw.token_depth hg, hw.token_depth hg']) h
  obtain ⟨c, hc⟩ := hw.token g hg
  obtain ⟨c', hc'⟩ := hw.token g' hg'
  rw [hc, hc'] at heq
  exact (Token.child.inj heq).1

/-- The `cancel` tokens of the RTSP connections are outside the tree of the process-wide token. -/
structure Detached (w : World) : Prop where
  taskCount : 0 < w.taskCount
  rootId : ∀ i k, (w.tasks i).phase.cancel = some k → k.rootId ≠ 0

theorem detached_spawn {w : World} {p : Phase} (hw : Detached w)
    (hp : ∀ k, p.cancel = some k → k.rootId ≠ 0) : Detached (w.apply (.spawn p)) := by
  refine ⟨hw.taskCount.trans_le taskCount_le_apply, fun i k hk => ?_⟩
  rcases tasks_apply_spawn w p i with heq | heq <;> rw [heq] at hk
  · exact hw.rootId i k hk
  · exact hp k hk

theorem Detached.step {w w' : World} {a : Action} (hw : Detached w) (h : step w a = some w') :
    Detached w' := by
  cases stepped_of_step h with
  | shutdown => exact ⟨hw.taskCount, hw.rootId⟩
  | publish x => exact detached_spawn hw nofun
  | record x =>
    refine detached_spawn hw fun k hk => ?_
    obtain rfl := Option.some.inj hk
    exact hw.taskCount.ne'
  | run i choice op t hnext =>
    have hm := tokenMoves_next hnext
    refine ⟨hw.taskCount.trans_le taskCount_le_apply, fun j k hk => ?_⟩
    rcases tasks_after w op i t j with ⟨rfl, heq⟩ | ⟨-, heq | ⟨p, hp, heq⟩⟩ <;> rw [heq] at hk
    · exact hw.rootId j k (hm.cancel k hk)
    · exact hw.rootId j k hk
    · rw [(hm.spawned p hp).1] at hk
      cases hk

theorem detached_initial (ttl : Bool) : Detached (World.initial ttl) := by
  refine ⟨Nat.zero_lt_two, fun i k hk => ?_⟩
  rcases tasks_initial ttl i with heq | ⟨c, -, heq⟩ <;> rw [heq] at hk <;> cases hk

end LivestreamRs.Sessions
