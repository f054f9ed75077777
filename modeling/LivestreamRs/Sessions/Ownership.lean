import LivestreamRs.Sessions.Tasks

/-! # Whose work a task does

A task obtains the generation it works for from its own past, from a pending map, or by creating it; it passes
it on to a task it spawns or to a pending map. `Moves` says this for every step of every task.
-/
namespace LivestreamRs.Sessions
open Foundations
set_option autoImplicit false

/-- What holds of every operation of every kind of task holds of a task's next step. -/
theorem next_rule {w : World} {choice : Choice} {R : Task → Op → Task → Prop}
    (control : ∀ {p op t'}, controlNext w p choice = some (op, t') → R { phase := p } op t')
    (timer : ∀ {p op t'}, timerNext w p choice = some (op, t') → R { phase := p } op t')
    (publish : ∀ {p op t'}, publishNext w p choice = some (op, t') → R { phase := p } op t')
    (record : ∀ {p op t'}, recordNext w p choice = some (op, t') → R { phase := p } op t')
    (sink : ∀ {p op t'}, sinkNext p choice = some (op, t') → R { phase := p } op t')
    (abort : ∀ {p op t'}, abortNext w p = some (op, t') → R { phase := p } op t')
    (disconnect : ∀ {p d}, R ⟨p, some d⟩ (d.next w).1 ⟨p, (d.next w).2⟩)
    {t t' : Task} {op : Op} (h : t.next w choice = some (op, t')) : R t op t' := by
  obtain ⟨p, _ | d⟩ := t
  · simp only [Task.next] at h
    unfold Phase.next at h
    repeat' split at h
    all_goals first
      | exact abort h
      | exact control h
      | exact timer h
      | exact publish h
      | exact record h
      | exact sink h
  · simp only [Task.next] at h
    split at h
    · obtain ⟨rfl, rfl⟩ := Prod.mk.inj (Option.some.inj h)
      exact disconnect
    · cases h

/-! ## What a step of a task hands over -/

/-- The key under which a task looks for the session it works for. -/
def Phase.key : Phase → Option LiveId
  | precreate _ _ x _ | ttl _ _ x _ | request _ x _ | publish _ x _ _ | record _ x _ _ | flvSink x _ _ => some x
  | _ => none

def Phase.control : Phase → Option Core
  | idle c | createChannel c _ | newLifecycle c _ | precreate _ c _ _ | stopCancel c _ _ | stopChannel c _
  | loopEnded c => some c
  | _ => none

def Op.spawned : Op → Option Phase
  | spawn p => some p
  | register g => some (.cleanupWait g)
  | _ => none

structure Moves (w : World) (t : Task) (op : Op) (t' : Task) : Prop where
  label : ∀ g, t'.worksFor g → t.worksFor g ∨ (∃ c x, w.pending c x = some g) ∨
    ∃ c x, op = .newLifecycle c x ∧ g = w.generationCount
  key : ∀ g x, t'.phase.generation = some g → t'.phase.key = some x →
    (t.phase.generation = some g ∧ t.phase.key = some x) ∨ (∃ c, w.pending c x = some g) ∨
      ∃ c, op = .newLifecycle c x ∧ g = w.generationCount
  control : ∀ c, t'.phase.control = some c → t.phase.control = some c
  precreate : ∀ stage c x g, t'.phase = .precreate stage c x g →
    (∃ stage', t.phase = .precreate stage' c x g ∧ (stage = .register → stage' = .register)) ∨
      (op = .newLifecycle c x ∧ g = w.generationCount)
  spawned : ∀ p, op.spawned = some p → p.control = none ∧
    ∀ g, p.generation = some g → t.phase.generation = some g ∧ ∀ x, p.key = some x → t.phase.key = some x
  inserted : ∀ c x g, op = .insertPending c x g → t.phase.generation = some g ∧ t.phase.key = some x
  registered : ∀ g, op = .register g → w.registry (w.liveId g) = none ∧
    ∃ c x, t = { phase := .precreate .register c x g } ∧ t' = { phase := .precreate .describe c x g }

/-- The operations of `disconnect_with_reason`. -/
theorem op_disconnectNext (w : World) (d : Disconnect) :
    (d.next w).1 = .skip ∨ (∃ g, (d.next w).1 = .setDisconnected g) ∨
      (∃ g u reason, d = .cancel g u reason ∧ (d.next w).1 = .fire u) ∨ ∃ e, (d.next w).1 = .dispatch e := by
  cases d with
  | drop g => exact .inl rfl
  | mark g reason =>
    simp only [Disconnect.next]
    split
    · exact .inl rfl
    · exact .inr (.inl ⟨g, rfl⟩)
  | lookup g reason =>
    simp only [Disconnect.next]
    split <;> exact .inl rfl
  | cancel g u reason => exact .inr (.inr (.inl ⟨g, u, reason, rfl, rfl⟩))
  | dispatch g reason => exact .inr (.inr (.inr ⟨_, rfl⟩))

theorem spawned_disconnectNext (w : World) (d : Disconnect) : (d.next w).1.spawned = none := by
  obtain h | ⟨g, h⟩ | ⟨g, u, reason, -, h⟩ | ⟨e, h⟩ := op_disconnectNext w d <;> rw [h] <;> rfl

/-- Inside `disconnect_with_reason` a task goes on working for the same lifecycle. -/
theorem generation_disconnectNext {w : World} {d d' : Disconnect} (h : (d.next w).2 = some d') :
    d'.generation = d.generation := by
  unfold Disconnect.next at h
  repeat' split at h
  all_goals simp_all [Disconnect.generation]
  all_goals grind

theorem moves_disconnectNext {w : World} {p : Phase} {d : Disconnect} :
    Moves w ⟨p, some d⟩ (d.next w).1 ⟨p, (d.next w).2⟩ := by
  have hop : (∀ c x g, (d.next w).1 ≠ .insertPending c x g) ∧ ∀ g, (d.next w).1 ≠ .register g := by
    obtain h | ⟨g, h⟩ | ⟨g, u, reason, -, h⟩ | ⟨e, h⟩ := op_disconnectNext w d <;> simp [h]
  obtain ⟨hinsert, hregister⟩ := hop
  refine ⟨fun g hg => .inl ?_, fun g x hg hx => .inl ⟨hg, hx⟩, fun c hc => hc,
    fun stage c x g hp => .inl ⟨stage, hp, id⟩, ?_, ?_, ?_⟩
  · rcases hg with hg | hg
    · exact .inl hg
    · obtain ⟨d', hd', rfl⟩ := Option.map_eq_some_iff.mp hg
      exact .inr (congrArg some (generation_disconnectNext hd').symm)
  · intro q hq
    rw [spawned_disconnectNext] at hq
    cases hq
  · exact fun c x g h => absurd h (hinsert c x g)
  · exact fun g h => absurd h (hregister g)

/-- Where a future is aborted, it drops the lifecycle it owns. -/
theorem abortNext_cases {w : World} {p : Phase} {op : Op} {t' : Task} (h : abortNext w p = some (op, t')) :
    ∃ c owned, p.awaiting = some (c, owned) ∧ op = .skip ∧ t' = { disconnecting := owned.map .drop } := by
  unfold abortNext at h
  split at h
  · next c owned hawait =>
    split at h
    · obtain ⟨rfl, rfl⟩ := Prod.mk.inj (Option.some.inj h)
      exact ⟨c, owned, hawait, rfl, rfl⟩
    · cases h
  · cases h

/-- An aborted connection drops the lifecycle it works for. -/
theorem generation_of_awaiting {p : Phase} {c : Core} {g : ℕ} (h : p.awaiting = some (c, some g)) :
    p.generation = some g := by
  unfold Phase.awaiting at h
  split at h <;> simp_all [Phase.generation]

theorem moves_abortNext {w : World} {p : Phase} {op : Op} {t' : Task} (h : abortNext w p = some (op, t')) :
    Moves w { phase := p } op t' := by
  obtain ⟨c, owned, hawait, rfl, rfl⟩ := abortNext_cases h
  have hlabel : ∀ g, Task.worksFor { disconnecting := owned.map .drop } g → p.generation = some g := by
    rintro g (hg | hg)
    · cases hg
    · obtain ⟨d, hd, rfl⟩ := Option.map_eq_some_iff.mp hg
      obtain ⟨g, rfl, rfl⟩ := Option.map_eq_some_iff.mp hd
      exact generation_of_awaiting hawait
  constructor
  case label => exact fun g hg => .inl (.inl (hlabel g hg))
  all_goals
    intros
    contradiction

theorem moves_next {w : World} {choice : Choice} {op : Op} {t t' : Task}
    (h : t.next w choice = some (op, t')) : Moves w t op t' := by
  refine next_rule (R := Moves w) ?_ ?_ ?_ ?_ ?_ moves_abortNext moves_disconnectNext h
  all_goals
    intro p op t' h
    simp only [controlNext, receive, timerNext, publishNext, recordNext, sinkNext] at h
    repeat' split at h
    all_goals simp only [Option.some.injEq, Prod.mk.injEq, reduceCtorEq] at h
    all_goals
      obtain ⟨rfl, rfl⟩ := h
      constructor
    -- most steps do not do what a field speaks of
    all_goals first
      | (intros; contradiction)
      | simp [Task.worksFor, Phase.generation, Phase.key, Phase.control, Op.spawned, Disconnect.generation]
  -- what is left: lifecycles taken from a pending map, and the one being precreated
  all_goals grind

/-! ## Steps of the whole system -/

inductive Stepped (w : World) : Action → World → Prop
  | shutdown : Stepped w .shutdown (w.apply (.fire mainToken))
  | publish (x : LiveId) : Stepped w (.publish x) (w.apply (.spawn (.publishRequested x)))
  | record (x : LiveId) :
      Stepped w (.record x) (w.apply (.spawn (.recordClaim x (.child 0 (.root w.taskCount)))))
  | run (i : ℕ) (choice : Choice) (op : Op) (t : Task) (h : (w.tasks i).next w choice = some (op, t)) :
      Stepped w (.run i choice) ((w.apply op).setTask i t)

theorem stepped_of_step {w w' : World} {a : Action} (h : step w a = some w') : Stepped w a w' := by
  obtain ⟨⟨op, upd⟩, htrans, rfl⟩ := Option.map_eq_some_iff.mp h
  cases a with
  | shutdown =>
    obtain ⟨rfl, rfl⟩ := Prod.mk.inj (Option.some.inj htrans)
    exact .shutdown
  | publish x =>
    simp only [transition] at htrans
    split at htrans
    · cases htrans
    · obtain ⟨rfl, rfl⟩ := Prod.mk.inj (Option.some.inj htrans)
      exact .publish x
  | record x =>
    simp only [transition] at htrans
    split at htrans
    · cases htrans
    · obtain ⟨rfl, rfl⟩ := Prod.mk.inj (Option.some.inj htrans)
      exact .record x
  | run i choice =>
    obtain ⟨⟨op', t⟩, hnext, heq⟩ := Option.map_eq_some_iff.mp htrans
    obtain ⟨rfl, rfl⟩ := Prod.mk.inj heq
    exact .run i choice op' t hnext

end LivestreamRs.Sessions
