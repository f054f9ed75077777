import LivestreamRs.Sessions.WellFormed

/-! # Who has a lifecycle

A `HandlerLifecycle` is made by a control loop, put into a pending map, and taken out of it by one party: an RTMP or
RTSP connection, a TTL task, or the server itself, when it replaces the entry or drops the map. `History` runs the
servers and writes down who took which lifecycle, which connection built a pipeline with it, and which FLV channel
`create_channel` last made or found for its session, called by `PrecreateStream` or by an RTSP connection.
-/
namespace LivestreamRs.Sessions
open Foundations
set_option autoImplicit false

inductive Party
  | connection
  | ttl
  | server
  deriving DecidableEq

def Phase.party : Phase → Party
  | .ttl _ _ _ _ => .ttl
  | .idle _ | .createChannel _ _ | .newLifecycle _ _ | .precreate _ _ _ _ | .stopCancel _ _ _ | .stopChannel _ _
  | .loopEnded _ => .server
  | _ => .connection

/-- The lifecycle that leaves a pending map by an operation. -/
def World.taken (w : World) : Op → Option ℕ
  | .removePending c x | .insertPending c x _ => w.pending c x
  | _ => none

/-- The lifecycle with which a pipeline is built. -/
def Op.built : Op → Option ℕ
  | .spawn (.flvSink _ g _) => some g
  | _ => none

structure History where
  world : World
  -- the channel a loop has last got from `create_channel`
  created : Core → Option ℕ := fun _ => none
  channelOf : ℕ → Option ℕ := fun _ => none
  takers : ℕ → List (Party × ℕ) := fun _ => []
  builders : ℕ → List ℕ := fun _ => []

namespace History

def initial (ttl : Bool) : History where
  world := World.initial ttl

/-- Task `i` has performed `op`, and the shared state is now `w`. -/
def record (h : History) (i : ℕ) (op : Op) (w : World) : History where
  world := w
  created :=
    match (h.world.tasks i).phase, op with
    | .createChannel c _, .createChannel x => Function.update h.created c (w.channels x)
    | _, _ => h.created
  channelOf :=
    match (h.world.tasks i).phase, op with
    | _, .newLifecycle c _ => Function.update h.channelOf h.world.generationCount (h.created c)
    | .record _ _ g _, .createChannel x => Function.update h.channelOf g (w.channels x)
    | _, _ => h.channelOf
  takers :=
    match h.world.taken op with
    | some g => Function.update h.takers g (((h.world.tasks i).phase.party, i) :: h.takers g)
    | none => h.takers
  builders :=
    match op.built with
    | some g => Function.update h.builders g (i :: h.builders g)
    | none => h.builders

def step (h : History) (a : Action) : Option History :=
  (transition h.world a).map fun
    | (op, none) => { h with world := h.world.apply op }
    | (op, some (i, t)) => h.record i op ((h.world.apply op).setTask i t)

/-- The history takes the steps of the servers. -/
theorem world_step (h : History) (a : Action) : (h.step a).map History.world = Sessions.step h.world a := by
  rw [step, Sessions.step, Option.map_map]
  refine congrArg (Option.map · _) (funext fun q => ?_)
  obtain ⟨op, _ | ⟨i, t⟩⟩ := q <;> rfl

inductive Stepped (h : History) : Action → History → Prop
  | connected (a : Action) (p : Phase) (hgeneration : p.generation = none) (ha : ∀ i choice, a ≠ .run i choice) :
      Stepped h a { h with world := h.world.apply (.spawn p) }
  | shutdown : Stepped h .shutdown { h with world := h.world.apply (.fire mainToken) }
  | run (i : ℕ) (choice : Choice) (op : Op) (t : Task) (hnext : (h.world.tasks i).next h.world choice = some (op, t)) :
      Stepped h (.run i choice) (h.record i op ((h.world.apply op).setTask i t))

theorem stepped_of_step {h h' : History} {a : Action} (hstep : h.step a = some h') : Stepped h a h' := by
  obtain ⟨⟨op, upd⟩, htrans, rfl⟩ := Option.map_eq_some_iff.mp hstep
  cases a with
  | shutdown =>
    obtain ⟨rfl, rfl⟩ := Prod.mk.inj (Option.some.inj htrans)
    exact .shutdown
  | publish x =>
    simp only [transition] at htrans
    split at htrans
    · cases htrans
    · obtain ⟨rfl, rfl⟩ := Prod.mk.inj (Option.some.inj htrans)
      exact .connected _ _ rfl (by simp)
  | record x =>
    simp only [transition] at htrans
    split at htrans
    · cases htrans
    · obtain ⟨rfl, rfl⟩ := Prod.mk.inj (Option.some.inj htrans)
      exact .connected _ _ rfl (by simp)
  | run i choice =>
    obtain ⟨⟨op', t⟩, hnext, heq⟩ := Option.map_eq_some_iff.mp htrans
    obtain ⟨rfl, rfl⟩ := Prod.mk.inj heq
    exact .run i choice op' t hnext

end History

/-! ## How a lifecycle changes hands -/

/-- The lifecycle a control loop has made and not yet put into its pending map. -/
def Phase.creates : Phase → Option ℕ
  | precreate .register _ _ g | precreate .describe _ _ g | precreate .insert _ _ g => some g
  | _ => none

/-- The lifecycle a connection has taken and not yet built a pipeline with. -/
def Phase.unbuilt : Phase → Option ℕ
  | publish .source _ g _ | publish (.build _) _ g _ | record .channel _ g _ | record .connect _ g _
  | record .update _ g _ | record .started _ g _ | record .build _ g _ => some g
  | _ => none

/-- The session whose publish request or stream a connection is handling. -/
def Phase.serves : Phase → Option ℕ
  | request _ _ g | publish _ _ g _ | record _ _ g _ => some g
  | _ => none

/-- A connection handles a session, or drops its lifecycle. -/
def Task.Serves (t : Task) (g : ℕ) : Prop :=
  t.phase.serves = some g ∨ (t.phase.party = .connection ∧ t.disconnecting.map Disconnect.generation = some g)

instance (t : Task) (g : ℕ) : Decidable (t.Serves g) := inferInstanceAs (Decidable (_ ∨ _ ∧ _))

/-- The pending map, key and session of a TTL task. -/
def Phase.expires : Phase → Option (Core × LiveId × ℕ)
  | ttl _ c x g => some (c, x, g)
  | _ => none

theorem serves_of_awaiting {p : Phase} {c : Core} {g : ℕ} (h : p.awaiting = some (c, some g)) :
    p.serves = some g := by
  unfold Phase.awaiting at h
  split at h <;> simp_all [Phase.serves]

structure Passes (w : World) (t : Task) (op : Op) (t' : Task) : Prop where
  creates : ∀ g, t'.phase.creates = some g →
    t.phase.creates = some g ∨ ∃ c x, op = .newLifecycle c x ∧ g = w.generationCount
  inserted : ∀ c x g, op = .insertPending c x g → t = { phase := .precreate .insert c x g } ∧ t'.phase.creates = none
  unbuilt : ∀ g, t'.phase.unbuilt = some g →
    (t.phase.unbuilt = some g ∧ w.taken op = none ∧ op.built = none) ∨
      (t.phase.party = .connection ∧ w.taken op = some g)
  built : ∀ g, op.built = some g → t.phase.unbuilt = some g ∧ t'.phase.unbuilt = none
  spawned : ∀ p, op.spawned = some p → p.creates = none ∧ p.unbuilt = none ∧ p.serves = none ∧
    ∀ c x g, p.expires = some (c, x, g) → t = { phase := .precreate .spawnTtl c x g }
  expires : ∀ k, t'.phase.expires = some k → t.phase.expires = some k
  serves : ∀ g, t'.Serves g → t.Serves g ∨ ∃ c x, w.pending c x = some g
  taken : ∀ g, w.taken op = some g → t.phase.party = .connection → t'.phase.serves = some g
  channel : ∀ x, op = .createChannel x → t'.phase.serves = t.phase.serves
  unregistered : ∀ g, op = .unregister g → t = { phase := .cleanupGrace g } ∧ t' = {}

theorem passes_disconnectNext {w : World} {p : Phase} {d : Disconnect} :
    Passes w ⟨p, some d⟩ (d.next w).1 ⟨p, (d.next w).2⟩ := by
  have hserves : ∀ g, Task.Serves ⟨p, (d.next w).2⟩ g → Task.Serves ⟨p, some d⟩ g := by
    rintro g (hg | ⟨hparty, hg⟩)
    · exact .inl hg
    · obtain ⟨d', hd', rfl⟩ := Option.map_eq_some_iff.mp hg
      exact .inr ⟨hparty, congrArg some (generation_disconnectNext hd').symm⟩
  have hop : w.taken (d.next w).1 = none ∧ (d.next w).1.built = none ∧
      (∀ c x g, (d.next w).1 ≠ .insertPending c x g) ∧ (∀ x, (d.next w).1 ≠ .createChannel x) ∧
      ∀ g, (d.next w).1 ≠ .unregister g := by
    obtain h | ⟨g, h⟩ | ⟨g, u, reason, -, h⟩ | ⟨e, h⟩ := op_disconnectNext w d <;> simp [h, World.taken, Op.built]
  obtain ⟨htaken, hbuilt, hinsert, hcreate, hunregister⟩ := hop
  constructor
  case creates => exact fun g hg => .inl hg
  case inserted => exact fun c x g h => absurd h (hinsert c x g)
  case unbuilt => exact fun g hg => .inl ⟨hg, htaken, hbuilt⟩
  case built => exact fun g hg => by rw [hbuilt] at hg; cases hg
  case spawned => exact fun q hq => by rw [spawned_disconnectNext] at hq; cases hq
  case expires => exact fun k hk => hk
  case serves => exact fun g hg => .inl (hserves g hg)
  case taken => exact fun g hg => by rw [htaken] at hg; cases hg
  case channel => exact fun x h => absurd h (hcreate x)
  case unregistered => exact fun g h => absurd h (hunregister g)

theorem passes_abortNext {w : World} {p : Phase} {op : Op} {t' : Task} (h : abortNext w p = some (op, t')) :
    Passes w { phase := p } op t' := by
  obtain ⟨c, owned, hawait, rfl, rfl⟩ := abortNext_cases h
  have hserves : ∀ g, Task.Serves { disconnecting := owned.map .drop } g → p.serves = some g := by
    rintro g (hg | ⟨-, hg⟩)
    · cases hg
    · obtain ⟨d, hd, rfl⟩ := Option.map_eq_some_iff.mp hg
      obtain ⟨g, rfl, rfl⟩ := Option.map_eq_some_iff.mp hd
      exact serves_of_awaiting hawait
  constructor
  case serves => exact fun g hg => .inl (.inl (hserves g hg))
  all_goals
    intros
    contradiction

theorem passes_next {w : World} {choice : Choice} {op : Op} {t t' : Task}
    (h : t.next w choice = some (op, t')) : Passes w t op t' := by
  refine next_rule (R := Passes w) ?_ ?_ ?_ ?_ ?_ passes_abortNext passes_disconnectNext h
  all_goals
    intro p op t' h
    simp only [controlNext, receive, timerNext, publishNext, recordNext, sinkNext] at h
    repeat' split at h
    all_goals simp only [Option.some.injEq, Prod.mk.injEq, reduceCtorEq] at h
    all_goals
      obtain ⟨rfl, rfl⟩ := h
      constructor
    -- most steps do not do what a field speaks of
    all_goals first
      | (intros; contradiction)
      | simp [Phase.creates, Phase.unbuilt, Phase.serves, Phase.expires, Task.Serves, Op.spawned, Op.built,
          World.taken, Phase.party, Disconnect.generation]
  -- what is left: lifecycles taken from a pending map, and the insertion with or without a TTL
  all_goals grind [Phase.party]

theorem precreate_of_creates {p : Phase} {g : ℕ} (h : p.creates = some g) :
    ∃ stage c x, p = .precreate stage c x g := by
  unfold Phase.creates at h
  split at h
  case h_4 => cases h
  all_goals exact Option.some.inj h ▸ ⟨_, _, _, rfl⟩

theorem generation_of_unbuilt {p : Phase} {g : ℕ} (h : p.unbuilt = some g) : p.generation = some g := by
  unfold Phase.unbuilt at h
  split at h <;> first | exact h | cases h

section Taken
variable {w : World} {op : Op} {g : ℕ}

theorem taken_eq_some (h : w.taken op = some g) : ∃ c x, w.pending c x = some g ∧
    (op = .removePending c x ∨ ∃ g', op = .insertPending c x g') := by
  unfold World.taken at h
  split at h
  · next c x => exact ⟨c, x, h, .inl rfl⟩
  · next c x g' => exact ⟨c, x, h, .inr ⟨g', rfl⟩⟩
  · cases h

theorem built_of_taken (h : w.taken op = some g) : op.built = none := by
  obtain ⟨c, x, -, rfl | ⟨g', rfl⟩⟩ := taken_eq_some h <;> rfl

/-- A lifecycle that an operation takes is not in the place it was taken from, unless it was put there again. -/
theorem pending_ne_of_taken (hother : ∀ c x, op ≠ .insertPending c x g)
    (honce : ∀ c x c' x', w.pending c x = some g → w.pending c' x' = some g → c = c' ∧ x = x')
    (h : w.taken op = some g) (c : Core) (x : LiveId) : (w.apply op).pending c x ≠ some g := by
  intro hafter
  obtain ⟨c', x', hbefore, hop⟩ := taken_eq_some h
  rcases pending_of_apply hafter with hinsert | hold
  · exact hother c x hinsert
  · obtain ⟨rfl, rfl⟩ := honce c x c' x' hold hbefore
    rcases hop with rfl | ⟨g', rfl⟩
    · simp [World.apply, setPending] at hafter
    · have heq : g' = g := by simpa [World.apply, setPending] using hafter
      exact hother c x (heq ▸ rfl)

end Taken

/-! ## At most one party takes a lifecycle -/

namespace History

theorem takers_record (h : History) (i : ℕ) (op : Op) (w : World) (g : ℕ) :
    (h.record i op w).takers g =
      if h.world.taken op = some g then ((h.world.tasks i).phase.party, i) :: h.takers g else h.takers g := by
  cases htaken : h.world.taken op with
  | none => simp [record, htaken]
  | some g' =>
    by_cases heq : g' = g
    · simp [record, htaken, heq]
    · simp [record, htaken, heq, Function.update_of_ne (Ne.symm heq)]

theorem builders_record (h : History) (i : ℕ) (op : Op) (w : World) (g : ℕ) :
    (h.record i op w).builders g = if op.built = some g then i :: h.builders g else h.builders g := by
  cases hbuilt : op.built with
  | none => simp [record, hbuilt]
  | some g' =>
    by_cases heq : g' = g
    · simp [record, hbuilt, heq]
    · simp [record, hbuilt, heq, Function.update_of_ne (Ne.symm heq)]

def Untaken (h : History) (g : ℕ) : Prop := h.takers g = [] ∧ h.builders g = []

structure Exclusive (h : History) : Prop where
  wellFormed : WellFormed h.world
  fresh : ∀ g, h.world.generationCount ≤ g → h.Untaken g
  creating : ∀ i g, (h.world.tasks i).phase.creates = some g → h.Untaken g ∧ ∀ c x, h.world.pending c x ≠ some g
  pending : ∀ c x g, h.world.pending c x = some g → h.Untaken g ∧ (h.world.generations g).protocol = c
  claimed : ∀ i g, (h.world.tasks i).phase.unbuilt = some g → h.takers g = [(.connection, i)] ∧ h.builders g = []
  takers : ∀ g, (h.takers g).length ≤ 1
  builders : ∀ g, h.builders g = [] ∨ ∃ i, h.builders g = [i] ∧ h.takers g = [(.connection, i)]

theorem world_of_step {h h' : History} {a : Action} (hstep : h.step a = some h') :
    Sessions.step h.world a = some h'.world := by
  rw [← world_step, hstep]
  rfl

section Step
variable {h : History} (hx : Exclusive h)
include hx

theorem Exclusive.pending_unique {g : ℕ} (c : Core) (x : LiveId) (c' : Core) (x' : LiveId)
    (h₁ : h.world.pending c x = some g) (h₂ : h.world.pending c' x' = some g) : c = c' ∧ x = x' :=
  ⟨(hx.pending c x g h₁).2.symm.trans (hx.pending c' x' g h₂).2,
    (hx.wellFormed.sound.pending c x g h₁).2.symm.trans (hx.wellFormed.sound.pending c' x' g h₂).2⟩

/-- A task that has just been spawned by the outside has no lifecycle. -/
theorem Exclusive.spawn {p : Phase} (hgeneration : p.generation = none)
    (hworld : WellFormed (h.world.apply (.spawn p))) : Exclusive { h with world := h.world.apply (.spawn p) } := by
  refine ⟨hworld, hx.fresh, fun j g hj => ?_, hx.pending, fun j g hj => ?_, hx.takers, hx.builders⟩
  · change ((h.world.apply (.spawn p)).tasks j).phase.creates = some g at hj
    rcases tasks_apply_spawn h.world p j with heq | heq <;> rw [heq] at hj
    · exact hx.creating j g hj
    · obtain ⟨stage, c, x, rfl⟩ := precreate_of_creates hj
      cases hgeneration
  · change ((h.world.apply (.spawn p)).tasks j).phase.unbuilt = some g at hj
    rcases tasks_apply_spawn h.world p j with heq | heq <;> rw [heq] at hj
    · exact hx.claimed j g hj
    · cases hgeneration.symm.trans (generation_of_unbuilt hj)

end Step

section Run
variable {h : History} {i : ℕ} {choice : Choice} {op : Op} {t : Task} (hx : Exclusive h)
  (hnext : (h.world.tasks i).next h.world choice = some (op, t))
include hx hnext

theorem Exclusive.untaken_record {g : ℕ} (hg : h.Untaken g) (htaken : h.world.taken op ≠ some g) :
    (h.record i op ((h.world.apply op).setTask i t)).Untaken g := by
  have hbuilt : op.built ≠ some g := by
    intro hbuilt
    have htakers := (hx.claimed i g ((passes_next hnext).built g hbuilt).1).1
    rw [hg.1] at htakers
    cases htakers
  rw [Untaken, takers_record, builders_record, if_neg htaken, if_neg hbuilt]
  exact hg

theorem Exclusive.creating_run (j g : ℕ)
    (hj : (((h.world.apply op).setTask i t).tasks j).phase.creates = some g) :
    (h.record i op ((h.world.apply op).setTask i t)).Untaken g ∧
      ∀ c x, ((h.world.apply op).setTask i t).pending c x ≠ some g := by
  have hp := passes_next hnext
  have hfree : h.Untaken g → (∀ c x, h.world.pending c x ≠ some g) → (∀ c x, op ≠ .insertPending c x g) →
      (h.record i op ((h.world.apply op).setTask i t)).Untaken g ∧
        ∀ c x, ((h.world.apply op).setTask i t).pending c x ≠ some g := by
    intro huntaken hpending hinsert
    refine ⟨hx.untaken_record hnext huntaken fun htaken => ?_, fun c x hafter => ?_⟩
    · obtain ⟨c, x, hbefore, -⟩ := taken_eq_some htaken
      exact hpending c x hbefore
    · rcases pending_of_apply hafter with hop | hold
      · exact hinsert c x hop
      · exact hpending c x hold
  rcases tasks_after h.world op i t j with ⟨rfl, heq⟩ | ⟨hji, heq | ⟨p, hspawn, heq⟩⟩ <;> rw [heq] at hj
  · rcases hp.creates g hj with hold | ⟨c, x, rfl, rfl⟩
    · refine hfree (hx.creating j g hold).1 (hx.creating j g hold).2 fun c x hop => ?_
      rw [(hp.inserted c x g hop).2] at hj
      cases hj
    · refine hfree (hx.fresh _ le_rfl) (fun c' x' hbefore => ?_) (fun c' x' hop => by cases hop)
      exact absurd (hx.wellFormed.sound.pending c' x' _ hbefore).1 (lt_irrefl _)
  · refine hfree (hx.creating j g hj).1 (hx.creating j g hj).2 fun c x hop => hji ?_
    obtain ⟨stage, c', x', hphase⟩ := precreate_of_creates hj
    exact hx.wellFormed.register_owner hphase (congrArg Task.phase (hp.inserted c x g hop).1)
  · rw [(hp.spawned p hspawn).1] at hj
    cases hj

theorem Exclusive.pending_run (c : Core) (x : LiveId) (g : ℕ)
    (hafter : (h.world.apply op).pending c x = some g) :
    (h.record i op ((h.world.apply op).setTask i t)).Untaken g ∧
      ((h.world.apply op).generations g).protocol = c := by
  have hp := passes_next hnext
  rcases pending_of_apply hafter with hop | hold
  · obtain ⟨hphase, -⟩ := hp.inserted c x g hop
    have hcreates : (h.world.tasks i).phase.creates = some g := by rw [hphase]; rfl
    obtain ⟨huntaken, hpending⟩ := hx.creating i g hcreates
    have hlt := (hx.wellFormed.task i).lt g (.inl (by rw [hphase]; rfl))
    refine ⟨hx.untaken_record hnext huntaken fun htaken => ?_, ?_⟩
    · obtain ⟨c', x', hbefore, -⟩ := taken_eq_some htaken
      exact hpending c' x' hbefore
    · rw [(apply_identity hlt).2.2]
      exact (hx.wellFormed.task i).protocol .insert c x g (congrArg Task.phase hphase)
  · obtain ⟨huntaken, hprotocol⟩ := hx.pending c x g hold
    have hlt := (hx.wellFormed.sound.pending c x g hold).1
    refine ⟨hx.untaken_record hnext huntaken fun htaken => ?_, ?_⟩
    · refine pending_ne_of_taken (fun c' x' hop => ?_) hx.pending_unique htaken c x hafter
      have hcreates : (h.world.tasks i).phase.creates = some g := by rw [(hp.inserted c' x' g hop).1]; rfl
      exact (hx.creating i g hcreates).2 c x hold
    · rw [(apply_identity hlt).2.2]
      exact hprotocol

theorem Exclusive.claimed_run (j g : ℕ) (hj : (((h.world.apply op).setTask i t).tasks j).phase.unbuilt = some g) :
    (h.record i op ((h.world.apply op).setTask i t)).takers g = [(.connection, j)] ∧
      (h.record i op ((h.world.apply op).setTask i t)).builders g = [] := by
  have hp := passes_next hnext
  rw [takers_record, builders_record]
  rcases tasks_after h.world op i t j with ⟨rfl, heq⟩ | ⟨hji, heq | ⟨p, hspawn, heq⟩⟩ <;> rw [heq] at hj
  · rcases hp.unbuilt g hj with ⟨hold, htaken, hbuilt⟩ | ⟨hparty, htaken⟩
    · rw [htaken, hbuilt]
      exact hx.claimed j g hold
    · obtain ⟨c, x, hpending, -⟩ := taken_eq_some htaken
      obtain ⟨⟨htakers, hbuilders⟩, -⟩ := hx.pending c x g hpending
      rw [if_pos htaken, built_of_taken htaken, htakers, hbuilders, hparty]
      exact ⟨rfl, rfl⟩
  · obtain ⟨htakers, hbuilders⟩ := hx.claimed j g hj
    have htaken : h.world.taken op ≠ some g := by
      intro htaken
      obtain ⟨c, x, hpending, -⟩ := taken_eq_some htaken
      rw [(hx.pending c x g hpending).1.1] at htakers
      cases htakers
    have hbuilt : op.built ≠ some g := by
      intro hbuilt
      rw [(hx.claimed i g (hp.built g hbuilt).1).1] at htakers
      cases htakers
      exact hji rfl
    rw [if_neg htaken, if_neg hbuilt]
    exact ⟨htakers, hbuilders⟩
  · rw [(hp.spawned p hspawn).2.1] at hj
    cases hj

omit hnext in
theorem Exclusive.takers_run (g : ℕ) :
    ((h.record i op ((h.world.apply op).setTask i t)).takers g).length ≤ 1 := by
  rw [takers_record]
  split
  · next htaken =>
    obtain ⟨c, x, hpending, -⟩ := taken_eq_some htaken
    rw [(hx.pending c x g hpending).1.1]
    exact le_rfl
  · exact hx.takers g

theorem Exclusive.builders_run (g : ℕ) :
    (h.record i op ((h.world.apply op).setTask i t)).builders g = [] ∨
      ∃ j, (h.record i op ((h.world.apply op).setTask i t)).builders g = [j] ∧
        (h.record i op ((h.world.apply op).setTask i t)).takers g = [(.connection, j)] := by
  rw [takers_record, builders_record]
  by_cases hbuilt : op.built = some g
  · obtain ⟨htakers, hbuilders⟩ := hx.claimed i g ((passes_next hnext).built g hbuilt).1
    have htaken : h.world.taken op ≠ some g := by
      intro htaken
      rw [built_of_taken htaken] at hbuilt
      cases hbuilt
    rw [if_pos hbuilt, if_neg htaken, hbuilders]
    exact .inr ⟨i, rfl, htakers⟩
  · rw [if_neg hbuilt]
    split
    · next htaken =>
      obtain ⟨c, x, hpending, -⟩ := taken_eq_some htaken
      exact .inl (hx.pending c x g hpending).1.2
    · exact hx.builders g

theorem Exclusive.fresh_run (g : ℕ) (hg : (h.world.apply op).generationCount ≤ g) :
    (h.record i op ((h.world.apply op).setTask i t)).Untaken g := by
  have hold : h.world.generationCount ≤ g := generationCount_le_apply.trans hg
  refine hx.untaken_record hnext (hx.fresh g hold) fun htaken => ?_
  obtain ⟨c, x, hpending, -⟩ := taken_eq_some htaken
  exact absurd (hx.wellFormed.sound.pending c x g hpending).1 (not_lt.mpr hold)

end Run

theorem Exclusive.step {h h' : History} {a : Action} (hx : Exclusive h) (hstep : h.step a = some h') :
    Exclusive h' := by
  have hworld := hx.wellFormed.step (world_of_step hstep)
  cases stepped_of_step hstep with
  | connected a p hgeneration => exact hx.spawn hgeneration hworld
  | shutdown => exact ⟨hworld, hx.fresh, hx.creating, hx.pending, hx.claimed, hx.takers, hx.builders⟩
  | run i choice op t hnext =>
    exact ⟨hworld, hx.fresh_run hnext, hx.creating_run hnext, hx.pending_run hnext, hx.claimed_run hnext,
      hx.takers_run, hx.builders_run hnext⟩

theorem exclusive_initial (ttl : Bool) : Exclusive (initial ttl) := by
  refine ⟨wellFormed_initial ttl, fun g _ => ⟨rfl, rfl⟩, fun i g hi => ?_, fun c x g h => (by cases h), fun i g hi => ?_,
    fun g => Nat.zero_le 1, fun g => .inl rfl⟩
  · change ((World.initial ttl).tasks i).phase.creates = some g at hi
    rcases tasks_initial ttl i with heq | ⟨c, -, heq⟩ <;> rw [heq] at hi <;> cases hi
  · change ((World.initial ttl).tasks i).phase.unbuilt = some g at hi
    rcases tasks_initial ttl i with heq | ⟨c, -, heq⟩ <;> rw [heq] at hi <;> cases hi

end History
end LivestreamRs.Sessions
