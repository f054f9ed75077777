import LivestreamRs.Sessions.CancelCause
import LivestreamRs.Sessions.Custody

/-! # TTL tasks and claimed sessions

A TTL task removes what it finds under its `live_id`. The lifecycles of one map are inserted in the order of their
registrations, so once a connection has taken a session's lifecycle, its TTL task can only find that of a later
session; it then cancels the later session, and removes the FLV channel under their common key.
-/
namespace LivestreamRs.Sessions
open Foundations
set_option autoImplicit false

/-! ## The steps of a TTL task and of a precreating loop -/

inductive TtlStep (w : World) (c : Core) (x : LiveId) (g : ℕ) : TtlStage → Option Disconnect → Op → Task → Prop
  | disconnecting (stage : TtlStage) (d : Disconnect) :
      TtlStep w c x g stage (some d) (d.next w).1 ⟨.ttl stage c x g, (d.next w).2⟩
  | quit (stage : TtlStage) : TtlStep w c x g stage none .skip {}
  | goOn (stage stage' : TtlStage) (h : stage' ≠ .channel) :
      TtlStep w c x g stage none .skip { phase := .ttl stage' c x g }
  | take (g' : ℕ) (h : w.pending c x = some g') :
      TtlStep w c x g .remove none (.removePending c x) ⟨.ttl .channel c x g, some (.mark g' .timeout)⟩
  | channel : TtlStep w c x g .channel none (.removeChannel x) {}

theorem ttlStep_of_next {w : World} {c : Core} {x : LiveId} {g : ℕ} {stage : TtlStage} {d : Option Disconnect}
    {choice : Choice} {op : Op} {t : Task}
    (h : Task.next w ⟨.ttl stage c x g, d⟩ choice = some (op, t)) : TtlStep w c x g stage d op t := by
  cases d with
  | some d =>
    simp only [Task.next] at h
    split at h
    · obtain ⟨rfl, rfl⟩ := Prod.mk.inj (Option.some.inj h)
      exact .disconnecting stage d
    · cases h
  | none =>
    cases choice with
    | go =>
      cases stage with
      | wait =>
        obtain ⟨rfl, rfl⟩ := Prod.mk.inj (Option.some.inj h)
        exact .goOn .wait .check (by simp)
      | check =>
        simp only [Task.next, Phase.next, timerNext, reduceCtorEq, if_false] at h
        split at h <;> obtain ⟨rfl, rfl⟩ := Prod.mk.inj (Option.some.inj h)
        · exact .goOn .check .remove (by simp)
        · exact .quit .check
      | remove =>
        simp only [Task.next, Phase.next, timerNext, reduceCtorEq, if_false] at h
        split at h
        · cases h
        cases hpending : w.pending c x with
        | none =>
          simp only [hpending] at h
          obtain ⟨rfl, rfl⟩ := Prod.mk.inj (Option.some.inj h)
          exact .quit .remove
        | some g' =>
          simp only [hpending] at h
          obtain ⟨rfl, rfl⟩ := Prod.mk.inj (Option.some.inj h)
          exact .take g' hpending
      | channel =>
        obtain ⟨rfl, rfl⟩ := Prod.mk.inj (Option.some.inj h)
        exact .channel
    | finish =>
      cases stage with
      | wait =>
        simp only [Task.next, Phase.next, timerNext, reduceCtorEq, if_false] at h
        split at h
        · obtain ⟨rfl, rfl⟩ := Prod.mk.inj (Option.some.inj h)
          exact .quit .wait
        · cases h
      | check | remove | channel => cases h
    | fail | receive msg | abort | release y => cases stage <;> cases h

/-- The loop of a server after it has made a lifecycle. -/
inductive PrecreateNext (w : World) (c : Core) (x : LiveId) (g : ℕ) :
    PrecreateStage → Option Disconnect → Op → Task → Prop
  | disconnecting (stage : PrecreateStage) (d : Disconnect) :
      PrecreateNext w c x g stage (some d) (d.next w).1 ⟨.precreate stage c x g, (d.next w).2⟩
  | registered (h : w.registry (w.liveId g) = none) :
      PrecreateNext w c x g .register none (.register g) { phase := .precreate .describe c x g }
  | refused (stage : PrecreateStage) :
      PrecreateNext w c x g stage none (.ack x false) { phase := .idle c, disconnecting := some (.drop g) }
  | described : PrecreateNext w c x g .describe none (.ack x true) { phase := .precreate .insert c x g }
  | inserted (p : Phase) (h : p = .precreate .spawnTtl c x g ∨ p = .idle c) :
      PrecreateNext w c x g .insert none (.insertPending c x g) ⟨p, (w.pending c x).map .drop⟩
  | spawned : PrecreateNext w c x g .spawnTtl none (.spawn (.ttl .wait c x g)) { phase := .idle c }

theorem precreateNext_of_next {w : World} {c : Core} {x : LiveId} {g : ℕ} {stage : PrecreateStage}
    {d : Option Disconnect} {choice : Choice} {op : Op} {t : Task}
    (h : Task.next w ⟨.precreate stage c x g, d⟩ choice = some (op, t)) : PrecreateNext w c x g stage d op t := by
  cases d with
  | some d =>
    simp only [Task.next] at h
    split at h
    · obtain ⟨rfl, rfl⟩ := Prod.mk.inj (Option.some.inj h)
      exact .disconnecting stage d
    · cases h
  | none =>
    cases choice with
    | go =>
      cases stage with
      | register =>
        simp only [Task.next, Phase.next, controlNext, reduceCtorEq, if_false] at h
        cases hregistry : w.registry (w.liveId g) with
        | none =>
          simp only [hregistry] at h
          obtain ⟨rfl, rfl⟩ := Prod.mk.inj (Option.some.inj h)
          exact .registered hregistry
        | some g' =>
          simp only [hregistry] at h
          obtain ⟨rfl, rfl⟩ := Prod.mk.inj (Option.some.inj h)
          exact .refused .register
      | describe =>
        simp only [Task.next, Phase.next, controlNext, reduceCtorEq, if_false] at h
        cases hregistry : w.registry x with
        | none =>
          simp only [hregistry] at h
          obtain ⟨rfl, rfl⟩ := Prod.mk.inj (Option.some.inj h)
          exact .refused .describe
        | some g' =>
          simp only [hregistry] at h
          obtain ⟨rfl, rfl⟩ := Prod.mk.inj (Option.some.inj h)
          exact .described
      | insert =>
        simp only [Task.next, Phase.next, controlNext, reduceCtorEq, if_false] at h
        split at h
        · cases h
        obtain ⟨rfl, rfl⟩ := Prod.mk.inj (Option.some.inj h)
        refine .inserted _ ?_
        split
        · exact .inl rfl
        · exact .inr rfl
      | spawnTtl =>
        obtain ⟨rfl, rfl⟩ := Prod.mk.inj (Option.some.inj h)
        exact .spawned
    | finish | fail | receive msg | abort | release y => cases stage <;> cases h

/-! ## The order of the lifecycles in a map -/

section Later
variable {w : World} {op : Op} {g g' : ℕ}

theorem registeredAt_apply_of_some (hw : Sound w) (hop : ∀ g, op = .register g → w.registeredAt g = none) {n : ℕ}
    (h : w.registeredAt g = some n) : (w.apply op).registeredAt g = some n := by
  rw [apply_registeredAt_of_ne (fun heq => by rw [hop g heq] at h; cases h) (hw.registered g n h).1]
  exact h

theorem World.Later.apply (hw : Sound w) (hop : ∀ g, op = .register g → w.registeredAt g = none)
    (h : w.Later g g') : (w.apply op).Later g g' := by
  obtain ⟨n, hn, n', hn', hlt⟩ := h
  exact ⟨n, registeredAt_apply_of_some hw hop hn, n', registeredAt_apply_of_some hw hop hn', hlt⟩

theorem World.Later.ne (h : w.Later g g') : g' ≠ g := by
  rintro rfl
  obtain ⟨n, hn, n', hn', hlt⟩ := h
  obtain rfl := Option.some.inj (hn.symm.trans hn')
  exact lt_irrefl n hlt

/-- A session that is being registered is later than those registered before. -/
theorem later_register (hw : Sound w) (hnew : w.registeredAt g' = none) (hreg : w.registeredAt g ≠ none) :
    (w.apply (.register g')).Later g g' := by
  obtain ⟨n, hn⟩ := Option.ne_none_iff_exists'.mp hreg
  have hnew' : (w.apply (.register g')).registeredAt g' = some w.registrationCount := by
    simp [World.apply, World.registeredAt, World.spawn]
  refine ⟨n, registeredAt_apply_of_some hw ?_ hn, _, hnew', (hw.registered g n hn).2⟩
  rintro g₀ hop
  obtain rfl := Op.register.inj hop
  exact hnew

end Later

/-- A TTL task is as before, or has just been spawned by the loop that inserted its session. -/
theorem expires_after {w : World} {i : ℕ} {choice : Choice} {op : Op} {t : Task}
    (hnext : (w.tasks i).next w choice = some (op, t)) {j : ℕ} {c : Core} {x : LiveId} {g : ℕ}
    (hj : (((w.apply op).setTask i t).tasks j).phase.expires = some (c, x, g)) :
    (w.tasks j).phase.expires = some (c, x, g) ∨ w.tasks i = { phase := .precreate .spawnTtl c x g } := by
  have hp := passes_next hnext
  rcases tasks_after w op i t j with ⟨rfl, heq⟩ | ⟨-, heq | ⟨p, hspawn, heq⟩⟩ <;> rw [heq] at hj
  · exact .inl (hp.expires _ hj)
  · exact .inl hj
  · exact .inr ((hp.spawned p hspawn).2.2.2 c x g hj)

theorem ttl_of_expires {p : Phase} {c : Core} {x : LiveId} {g : ℕ} (h : p.expires = some (c, x, g)) :
    ∃ stage, p = .ttl stage c x g := by
  unfold Phase.expires at h
  split at h
  · cases h
    exact ⟨_, rfl⟩
  · cases h

/-- How the loop of a server has come to its present stage of a `PrecreateStream`. -/
inductive PrecreateAfter (w : World) (i : ℕ) (op : Op) (c : Core) (x : LiveId) (g : ℕ) : PrecreateStage → Prop
  | created : PrecreateAfter w i op c x g .register
  | stays (stage : PrecreateStage) (hphase : (w.tasks i).phase = .precreate stage c x g)
      (hdisconnecting : (w.tasks i).disconnecting ≠ none) : PrecreateAfter w i op c x g stage
  | registered (hphase : (w.tasks i).phase = .precreate .register c x g) (hop : op = .register g) :
      PrecreateAfter w i op c x g .describe
  | described (hphase : (w.tasks i).phase = .precreate .describe c x g) : PrecreateAfter w i op c x g .insert
  | inserted (hphase : (w.tasks i).phase = .precreate .insert c x g) (hop : op = .insertPending c x g) :
      PrecreateAfter w i op c x g .spawnTtl

theorem precreate_after {w : World} {i : ℕ} {choice : Choice} {op : Op} {t : Task}
    (hnext : (w.tasks i).next w choice = some (op, t)) {j : ℕ} {stage : PrecreateStage} {c : Core} {x : LiveId}
    {g : ℕ} (hj : (((w.apply op).setTask i t).tasks j).phase = .precreate stage c x g) :
    PrecreateAfter w i op c x g stage ∨ (j ≠ i ∧ (w.tasks j).phase = .precreate stage c x g) := by
  have hm := moves_next hnext
  rcases tasks_after w op i t j with ⟨rfl, heq⟩ | ⟨hji, heq | ⟨p, hspawn, heq⟩⟩ <;> rw [heq] at hj
  · left
    rcases hm.precreate stage c x g hj with ⟨stage', hphase, -⟩ | ⟨hop, -⟩
    · obtain ⟨d, htask⟩ : ∃ d, w.tasks j = ⟨.precreate stage' c x g, d⟩ := ⟨_, by rw [← hphase]⟩
      rw [htask] at hnext
      cases precreateNext_of_next hnext with
      | disconnecting stage d =>
        cases hj
        exact .stays stage hphase (by rw [htask]; simp)
      | registered =>
        cases hj
        exact .registered hphase rfl
      | refused => cases hj
      | described =>
        cases hj
        exact .described hphase
      | inserted p hp =>
        rcases hp with rfl | rfl
        · cases hj
          exact .inserted hphase rfl
        · cases hj
      | spawned => cases hj
    · rw [(controlMoves_next hnext).created c x hop] at hj
      cases hj
      exact .created
  · exact .inr ⟨hji, hj⟩
  · have hcontrol := (hm.spawned p hspawn).1
    rw [show p = .precreate stage c x g from hj] at hcontrol
    cases hcontrol

namespace History

structure Timed (h : History) : Prop where
  exclusive : Exclusive h
  latest : ∀ x g, h.world.registry x = some g → h.world.Latest g
  registered : ∀ i stage c x g, (h.world.tasks i).phase = .precreate stage c x g → stage ≠ .register →
    h.world.registeredAt g ≠ none
  ttl : ∀ j c x g, (h.world.tasks j).phase.expires = some (c, x, g) → h.world.registeredAt g ≠ none
  -- what a loop is about to insert is later than the sessions of the TTL tasks that are there
  creating : ∀ i stage c x g', (h.world.tasks i).phase = .precreate stage c x g' →
    stage = .describe ∨ stage = .insert →
    ∀ j g, (h.world.tasks j).phase.expires = some (c, x, g) → h.world.Later g g'
  spawning : ∀ i c x g g', (h.world.tasks i).phase = .precreate .spawnTtl c x g →
    h.world.pending c x = some g' → g' = g
  map : ∀ c x g', h.world.pending c x = some g' →
    ∀ j g, (h.world.tasks j).phase.expires = some (c, x, g) → g = g' ∨ h.world.Later g g'
  -- a TTL task disconnects the session it was started for, or a later one of the same key
  own : ∀ j c x g d, (h.world.tasks j).phase.expires = some (c, x, g) →
    (h.world.tasks j).disconnecting = some d → (d.generation = g ∧ (.ttl, j) ∈ h.takers g) ∨
      (h.world.Later g d.generation ∧ h.world.liveId d.generation = x)
  cancel : ∀ j c x g g' u reason, (h.world.tasks j).phase.expires = some (c, x, g) →
    (h.world.tasks j).disconnecting = some (.cancel g' u reason) → g' ≠ g →
    ∃ g'' < h.world.generationCount, g'' ≠ g ∧ u = h.world.token g''

section Run
variable {h : History} {i : ℕ} {choice : Choice} {op : Op} {t : Task} (ht : Timed h)
  (hnext : (h.world.tasks i).next h.world choice = some (op, t))
include ht hnext

theorem Timed.later {g g' : ℕ} (hlater : h.world.Later g g') : (h.world.apply op).Later g g' :=
  hlater.apply ht.exclusive.wellFormed.sound (ht.exclusive.wellFormed.unregistered (moves_next hnext))

theorem Timed.registered_apply {g : ℕ} (hreg : h.world.registeredAt g ≠ none) :
    (h.world.apply op).registeredAt g ≠ none :=
  registeredAt_ne_none_apply ht.exclusive.wellFormed.sound hreg
    (ht.exclusive.wellFormed.unregistered (moves_next hnext))

omit hnext in
/-- The loop of a server is one task. -/
theorem Timed.loop_unique {j : ℕ} {c : Core} {x : LiveId} {g : ℕ} {stage : PrecreateStage}
    (hcontrol : (h.world.tasks i).phase.control = some c) (hj : (h.world.tasks j).phase = .precreate stage c x g) :
    j = i := by
  have hjc : (h.world.tasks j).phase.control = some c := by rw [hj]; rfl
  rw [(ht.exclusive.wellFormed.task i).control c hcontrol, (ht.exclusive.wellFormed.task j).control c hjc]

theorem Timed.registered_run (j : ℕ) (stage : PrecreateStage) (c : Core) (x : LiveId) (g : ℕ)
    (hj : (((h.world.apply op).setTask i t).tasks j).phase = .precreate stage c x g) (hstage : stage ≠ .register) :
    (h.world.apply op).registeredAt g ≠ none := by
  rcases precreate_after hnext hj with hafter | ⟨-, hold⟩
  · cases hafter with
    | created => exact absurd rfl hstage
    | stays _ hphase => exact ht.registered_apply hnext (ht.registered i stage c x g hphase hstage)
    | registered hphase hop =>
      subst hop
      simp [World.apply, World.registeredAt, World.spawn]
    | described hphase => exact ht.registered_apply hnext (ht.registered i _ c x g hphase (by simp))
    | inserted hphase => exact ht.registered_apply hnext (ht.registered i _ c x g hphase (by simp))
  · exact ht.registered_apply hnext (ht.registered j stage c x g hold hstage)

theorem Timed.ttl_run (j : ℕ) (c : Core) (x : LiveId) (g : ℕ)
    (hj : (((h.world.apply op).setTask i t).tasks j).phase.expires = some (c, x, g)) :
    (h.world.apply op).registeredAt g ≠ none := by
  rcases expires_after hnext hj with hold | htask
  · exact ht.registered_apply hnext (ht.ttl j c x g hold)
  · exact ht.registered_apply hnext (ht.registered i .spawnTtl c x g (by rw [htask]) (by simp))

theorem Timed.creating_run (k : ℕ) (stage : PrecreateStage) (c : Core) (x : LiveId) (g' : ℕ)
    (hk : (((h.world.apply op).setTask i t).tasks k).phase = .precreate stage c x g')
    (hstage : stage = .describe ∨ stage = .insert) (j g : ℕ)
    (hj : (((h.world.apply op).setTask i t).tasks j).phase.expires = some (c, x, g)) :
    (h.world.apply op).Later g g' := by
  rcases expires_after hnext hj with hold | htask
  · rcases precreate_after hnext hk with hafter | ⟨-, hphase⟩
    · cases hafter with
      | created => rcases hstage with hstage | hstage <;> cases hstage
      | stays _ hphase => exact ht.later hnext (ht.creating i stage c x g' hphase hstage j g hold)
      | registered hphase hop =>
        have hnew := ht.exclusive.wellFormed.unregistered (moves_next hnext) g' hop
        subst hop
        exact later_register ht.exclusive.wellFormed.sound hnew (ht.ttl j c x g hold)
      | described hphase => exact ht.later hnext (ht.creating i .describe c x g' hphase (.inl rfl) j g hold)
      | inserted => rcases hstage with hstage | hstage <;> cases hstage
    · exact ht.later hnext (ht.creating k stage c x g' hphase hstage j g hold)
  · -- the loop that spawns a TTL task is at no other stage of the same map
    exfalso
    have hphase : (h.world.tasks i).phase = .precreate .spawnTtl c x g := congrArg Task.phase htask
    rcases precreate_after hnext hk with hafter | ⟨hne, hk⟩
    · cases hafter with
      | created => rcases hstage with hstage | hstage <;> cases hstage
      | stays _ _ hdisconnecting => exact hdisconnecting (congrArg Task.disconnecting htask)
      | registered hphase' => cases hphase.symm.trans hphase'
      | described hphase' => cases hphase.symm.trans hphase'
      | inserted => rcases hstage with hstage | hstage <;> cases hstage
    · exact hne (ht.loop_unique (by rw [hphase]; rfl) hk)

theorem Timed.spawning_run (k : ℕ) (c : Core) (x : LiveId) (g g' : ℕ)
    (hk : (((h.world.apply op).setTask i t).tasks k).phase = .precreate .spawnTtl c x g)
    (hpending : (h.world.apply op).pending c x = some g') : g' = g := by
  have hp := passes_next hnext
  rcases precreate_after hnext hk with hafter | ⟨hne, hphase⟩
  · cases hafter with
    | stays _ hphase hdisconnecting =>
      rcases pending_of_apply hpending with hop | hold
      · exact absurd (congrArg Task.disconnecting (hp.inserted c x g' hop).1) hdisconnecting
      · exact ht.spawning i c x g g' hphase hold
    | inserted hphase hop =>
      subst hop
      simpa [World.apply, setPending, eq_comm] using hpending
  · rcases pending_of_apply hpending with hop | hold
    · have htask := (hp.inserted c x g' hop).1
      exact absurd (ht.loop_unique (by rw [htask]; rfl) hphase) hne
    · exact ht.spawning k c x g g' hphase hold

theorem Timed.map_run (c : Core) (x : LiveId) (g' : ℕ) (hpending : (h.world.apply op).pending c x = some g') (j g : ℕ)
    (hj : (((h.world.apply op).setTask i t).tasks j).phase.expires = some (c, x, g)) :
    g = g' ∨ (h.world.apply op).Later g g' := by
  have hp := passes_next hnext
  rcases pending_of_apply hpending with hop | hpending
  · have htask := (hp.inserted c x g' hop).1
    rcases expires_after hnext hj with hold | hspawn
    · exact .inr (ht.later hnext (ht.creating i .insert c x g' (by rw [htask]) (.inr rfl) j g hold))
    · rw [htask] at hspawn
      cases hspawn
  · rcases expires_after hnext hj with hold | hspawn
    · exact (ht.map c x g' hpending j g hold).imp_right (ht.later hnext)
    · exact .inl (ht.spawning i c x g g' (by rw [hspawn]) hpending).symm

omit ht hnext in
theorem mem_takers_record {g : ℕ} {q : Party × ℕ} (hq : q ∈ h.takers g) (w : World) :
    q ∈ (h.record i op w).takers g := by
  rw [takers_record]
  split
  · exact List.mem_cons_of_mem _ hq
  · exact hq

theorem Timed.later_liveId {g g' : ℕ} {x : LiveId} (hlater : h.world.Later g g' ∧ h.world.liveId g' = x) :
    (h.world.apply op).Later g g' ∧ (h.world.apply op).liveId g' = x := by
  refine ⟨ht.later hnext hlater.1, ?_⟩
  rw [(apply_identity (ht.exclusive.wellFormed.sound.lt_of_registered hlater.1.registered)).1]
  exact hlater.2

theorem Timed.own_run (j : ℕ) (c : Core) (x : LiveId) (g : ℕ) (d : Disconnect)
    (hj : (((h.world.apply op).setTask i t).tasks j).phase.expires = some (c, x, g))
    (hd : (((h.world.apply op).setTask i t).tasks j).disconnecting = some d) :
    (d.generation = g ∧ (.ttl, j) ∈ (h.record i op ((h.world.apply op).setTask i t)).takers g) ∨
      ((h.world.apply op).Later g d.generation ∧ (h.world.apply op).liveId d.generation = x) := by
  have hkeep : ∀ d₀ : Disconnect, d.generation = d₀.generation → (h.world.tasks j).phase.expires = some (c, x, g) →
      (h.world.tasks j).disconnecting = some d₀ →
      (d.generation = g ∧ (.ttl, j) ∈ (h.record i op ((h.world.apply op).setTask i t)).takers g) ∨
        ((h.world.apply op).Later g d.generation ∧ (h.world.apply op).liveId d.generation = x) := by
    intro d₀ hgeneration hexpires hd₀
    rw [hgeneration]
    exact (ht.own j c x g d₀ hexpires hd₀).imp (fun hown => ⟨hown.1, mem_takers_record hown.2 _⟩)
      (ht.later_liveId hnext)
  rcases tasks_after h.world op i t j with ⟨rfl, heq⟩ | ⟨-, heq | ⟨p, hspawn, heq⟩⟩ <;> rw [heq] at hj hd
  · have hexpires := (passes_next hnext).expires _ hj
    obtain ⟨stage, hphase⟩ := ttl_of_expires hexpires
    obtain ⟨d₀, htask⟩ : ∃ d₀, h.world.tasks j = ⟨.ttl stage c x g, d₀⟩ := ⟨_, by rw [← hphase]⟩
    have hstep := ttlStep_of_next (htask ▸ hnext)
    cases hstep with
    | disconnecting _ d₀ => exact hkeep d₀ (generation_disconnectNext hd) hexpires (by rw [htask])
    | quit => cases hj
    | goOn => cases hd
    | take g' hpending =>
      cases hd
      rcases ht.map c x g' hpending j g hexpires with rfl | hlater
      · refine .inl ⟨rfl, ?_⟩
        have htaken : h.world.taken (.removePending c x) = some g := hpending
        rw [takers_record, if_pos htaken, htask]
        exact List.mem_cons_self
      · exact .inr (ht.later_liveId hnext ⟨hlater, (ht.exclusive.wellFormed.sound.pending c x g' hpending).2⟩)
    | channel => cases hj
  · exact hkeep d rfl hj hd
  · cases hd

theorem Timed.cancel_run (j : ℕ) (c : Core) (x : LiveId) (g g' : ℕ) (u : Token) (reason : EndReason)
    (hj : (((h.world.apply op).setTask i t).tasks j).phase.expires = some (c, x, g))
    (hd : (((h.world.apply op).setTask i t).tasks j).disconnecting = some (.cancel g' u reason)) (hne : g' ≠ g) :
    ∃ g'' < (h.world.apply op).generationCount, g'' ≠ g ∧ u = (h.world.apply op).token g'' := by
  have hsound := ht.exclusive.wellFormed.sound
  have hold : ∃ g'' < h.world.generationCount, g'' ≠ g ∧ u = h.world.token g'' := by
    rcases tasks_after h.world op i t j with ⟨rfl, heq⟩ | ⟨-, heq | ⟨p, hspawn, heq⟩⟩ <;> rw [heq] at hj hd
    · obtain ⟨hphase, hlookup, g'', hregistry, rfl⟩ := (tokenMoves_next hnext).disconnect g' u reason hd
      rw [hphase] at hj
      rcases ht.own j c x g _ hj hlookup with ⟨heq, -⟩ | ⟨hlater, -⟩
      · exact absurd heq hne
      obtain ⟨hreg, hkey⟩ := hsound.registry _ g'' hregistry
      refine ⟨g'', hsound.lt_of_registered hreg, ?_, rfl⟩
      -- the registry's session is the latest of its key, and this one is not
      rintro rfl
      exact ht.latest _ g'' hregistry g' hkey.symm hlater
    · exact ht.cancel j c x g g' u reason hj hd hne
    · cases hd
  obtain ⟨g'', hlt, hne', rfl⟩ := hold
  exact ⟨g'', hlt.trans_le generationCount_le_apply, hne', (apply_identity hlt).2.1.symm⟩

end Run

/-- A connection that has just come in is neither a TTL task nor a loop. -/
theorem Timed.spawn {h : History} (ht : Timed h) {p : Phase} (hgeneration : p.generation = none)
    (hexclusive : Exclusive { h with world := h.world.apply (.spawn p) }) :
    Timed { h with world := h.world.apply (.spawn p) } := by
  have hexpires : p.expires = none := by
    cases hp : p.expires with
    | none => rfl
    | some k =>
      obtain ⟨stage, rfl⟩ := ttl_of_expires (c := k.1) (x := k.2.1) (g := k.2.2) hp
      cases hgeneration
  have hprecreate : ∀ j stage c x g, ((h.world.apply (.spawn p)).tasks j).phase = .precreate stage c x g →
      (h.world.tasks j).phase = .precreate stage c x g := by
    intro j stage c x g hj
    rcases tasks_apply_spawn h.world p j with heq | heq <;> rw [heq] at hj
    · exact hj
    · rw [show p = .precreate stage c x g from hj] at hgeneration
      cases hgeneration
  have httl : ∀ j k, ((h.world.apply (.spawn p)).tasks j).phase.expires = some k →
      (h.world.apply (.spawn p)).tasks j = h.world.tasks j := by
    intro j k hj
    rcases tasks_apply_spawn h.world p j with heq | heq
    · exact heq
    · rw [heq] at hj
      cases hexpires.symm.trans hj
  refine ⟨hexclusive, ht.latest, fun i stage c x g hi => ht.registered i stage c x g (hprecreate i stage c x g hi),
    fun j c x g hj => ht.ttl j c x g (httl j _ hj ▸ hj), fun i stage c x g' hi hstage j g hj => ?_,
    fun i c x g g' hi => ht.spawning i c x g g' (hprecreate i _ c x g hi), fun c x g' hpending j g hj => ?_,
    fun j c x g d hj hd => ?_, fun j c x g g' u reason hj hd => ?_⟩
  · exact ht.creating i stage c x g' (hprecreate i stage c x g' hi) hstage j g (httl j _ hj ▸ hj)
  · exact ht.map c x g' hpending j g (httl j _ hj ▸ hj)
  · have heq := httl j _ hj
    exact ht.own j c x g d (heq ▸ hj) (heq ▸ hd)
  · have heq := httl j _ hj
    exact ht.cancel j c x g g' u reason (heq ▸ hj) (heq ▸ hd)

theorem Timed.step {h h' : History} {a : Action} (ht : Timed h) (hstep : h.step a = some h') : Timed h' := by
  have hexclusive := ht.exclusive.step hstep
  cases stepped_of_step hstep with
  | connected a p hgeneration => exact ht.spawn hgeneration hexclusive
  | shutdown =>
    exact ⟨hexclusive, ht.latest, ht.registered, ht.ttl, ht.creating, ht.spawning, ht.map, ht.own, ht.cancel⟩
  | run i choice op t hnext =>
    exact ⟨hexclusive, ht.exclusive.wellFormed.latest_entry hnext ht.latest, ht.registered_run hnext,
      ht.ttl_run hnext, ht.creating_run hnext, ht.spawning_run hnext, ht.map_run hnext, ht.own_run hnext,
      ht.cancel_run hnext⟩

theorem timed_initial (ttl : Bool) : Timed (initial ttl) := by
  have hphase : ∀ i, ((World.initial ttl).tasks i).phase.expires = none ∧
      ∀ stage c x g, ((World.initial ttl).tasks i).phase ≠ .precreate stage c x g := by
    intro i
    rcases tasks_initial ttl i with heq | ⟨c, -, heq⟩ <;> rw [heq] <;> exact ⟨rfl, by simp⟩
  have httl : ∀ i k, ((World.initial ttl).tasks i).phase.expires = some k → False := by
    intro i k hi
    rw [(hphase i).1] at hi
    cases hi
  refine ⟨exclusive_initial ttl, fun x g hx => (by cases hx), fun i stage c x g hi => ?_,
    fun j c x g hj => (httl j _ hj).elim, fun i stage c x g' hi => ?_, fun i c x g g' hi => ?_,
    fun c x g' hpending => (by cases hpending), fun j c x g d hj => (httl j _ hj).elim,
    fun j c x g g' u reason hj => (httl j _ hj).elim⟩
  · exact absurd hi ((hphase i).2 stage c x g)
  · exact absurd hi ((hphase i).2 stage c x g')
  · exact absurd hi ((hphase i).2 .spawnTtl c x g)

end History

/-! ## A claimed session -/

def Task.expiring : Task → Option (Core × LiveId × ℕ)
  | ⟨.ttl .remove c x g, none⟩ => some (c, x, g)
  | _ => none

namespace History

/-- A TTL task that removes a lifecycle finds that of the session it was started for. -/
def OwnExpiry (h : History) : Action → Prop
  | .run i _ => ∀ k ∈ (h.world.tasks i).expiring, ∀ g ∈ h.world.pending k.1 k.2.1, g = k.2.2
  | _ => True

/-- Then a TTL task that goes on to remove the channel has taken its own session's lifecycle. -/
def OwnChannels (h : History) : Prop :=
  ∀ j c x g, (h.world.tasks j).phase = .ttl .channel c x g → (.ttl, j) ∈ h.takers g

theorem ownChannels_run {h : History} {i : ℕ} {choice : Choice} {op : Op} {t : Task}
    (hnext : (h.world.tasks i).next h.world choice = some (op, t)) (hown : OwnChannels h)
    (hexpiry : OwnExpiry h (.run i choice)) : OwnChannels (h.record i op ((h.world.apply op).setTask i t)) := by
  intro j c x g hj
  change (((h.world.apply op).setTask i t).tasks j).phase = .ttl .channel c x g at hj
  rcases tasks_after h.world op i t j with ⟨rfl, heq⟩ | ⟨-, heq | ⟨p, hspawn, heq⟩⟩ <;> rw [heq] at hj
  · obtain ⟨stage, hphase⟩ := ttl_of_expires ((passes_next hnext).expires (c, x, g) (by rw [hj]; rfl))
    obtain ⟨d, htask⟩ : ∃ d, h.world.tasks j = ⟨.ttl stage c x g, d⟩ := ⟨_, by rw [← hphase]⟩
    have hstep := ttlStep_of_next (htask ▸ hnext)
    cases hstep with
    | disconnecting _ d =>
      cases hj
      exact mem_takers_record (hown j c x g hphase) _
    | quit => cases hj
    | goOn _ stage' hne =>
      cases hj
      exact absurd rfl hne
    | take g' hpending =>
      obtain rfl := hexpiry (c, x, g) (by rw [htask]; rfl) g' hpending
      have htaken : h.world.taken (.removePending c x) = some g' := hpending
      rw [takers_record, if_pos htaken, htask]
      exact List.mem_cons_self
    | channel => cases hj
  · exact mem_takers_record (hown j c x g hj) _
  · have hspawned := ((passes_next hnext).spawned p hspawn).2.2.2 c x g (by rw [show p = _ from hj]; rfl)
    rw [hspawned] at hnext
    cases precreateNext_of_next hnext with
    | refused => cases hspawn
    | spawned =>
      cases hspawn
      cases hj

theorem ownChannels_step {h h' : History} {a : Action} (hown : OwnChannels h) (hexpiry : OwnExpiry h a)
    (hstep : h.step a = some h') : OwnChannels h' := by
  cases stepped_of_step hstep with
  | connected a p hgeneration =>
    intro j c x g hj
    change ((h.world.apply (.spawn p)).tasks j).phase = _ at hj
    rcases tasks_apply_spawn h.world p j with heq | heq <;> rw [heq] at hj
    · exact hown j c x g hj
    · rw [show p = _ from hj] at hgeneration
      cases hgeneration
  | shutdown => exact hown
  | run i choice op t hnext => exact ownChannels_run hnext hown hexpiry

section Claimed
variable {h : History} {i k : ℕ} {choice : Choice} {op : Op} {t : Task} {c : Core} {x : LiveId} {g : ℕ}

/-- A lifecycle that a connection has taken was not taken by a TTL task. -/
theorem Exclusive.not_ttl (hx : Exclusive h) (hclaimed : (.connection, k) ∈ h.takers g) : (.ttl, i) ∉ h.takers g := by
  intro httl
  obtain ⟨q, hq⟩ := List.length_eq_one_iff.mp
    (le_antisymm (hx.takers g) (List.length_pos_of_mem hclaimed))
  rw [hq, List.mem_singleton] at hclaimed httl
  rw [← hclaimed] at httl
  cases httl

theorem Timed.token_spared (ht : Timed h) (hnext : (h.world.tasks i).next h.world choice = some (op, t))
    (hexpires : (h.world.tasks i).phase.expires = some (c, x, g)) (hclaimed : (.connection, k) ∈ h.takers g)
    (hg : g < h.world.generationCount) :
    (h.world.apply op).isCancelled (h.world.token g) = h.world.isCancelled (h.world.token g) := by
  change cancelled (h.world.apply op).fired _ = _
  rcases fired_apply h.world op with ⟨u, rfl, hfired⟩ | hfired
  · rcases (tokenMoves_next hnext).fire u rfl with ⟨g', reason, hd⟩ | ⟨-, hfires⟩
    · have hne : g' ≠ g := by
        rcases ht.own i c x g _ hexpires hd with ⟨-, htaken⟩ | ⟨hlater, -⟩
        · exact absurd htaken (ht.exclusive.not_ttl hclaimed)
        · exact hlater.ne
      obtain ⟨g'', hlt, hne', rfl⟩ := ht.cancel i c x g g' u reason hexpires hd hne
      have hcovers : (h.world.token g'').covers (h.world.token g) = false := by
        rw [Bool.eq_false_iff]
        exact fun hcovers => hne' (ht.exclusive.wellFormed.sound.eq_of_covers hlt hg hcovers)
      rw [hfired, cancelled_cons, hcovers]
      rfl
    · obtain ⟨stage, hphase⟩ := ttl_of_expires hexpires
      rw [hphase] at hfires
      cases hfires
  · rw [hfired]
    rfl

theorem Timed.channel_spared (ht : Timed h) (hown : OwnChannels h)
    (hnext : (h.world.tasks i).next h.world choice = some (op, t))
    (hexpires : (h.world.tasks i).phase.expires = some (c, x, g)) (hclaimed : (.connection, k) ∈ h.takers g) :
    (h.world.apply op).channels = h.world.channels := by
  obtain ⟨stage, hphase⟩ := ttl_of_expires hexpires
  obtain ⟨d, htask⟩ : ∃ d, h.world.tasks i = ⟨.ttl stage c x g, d⟩ := ⟨_, by rw [← hphase]⟩
  have hstep := ttlStep_of_next (htask ▸ hnext)
  cases hstep with
  | disconnecting _ d =>
    unfold Disconnect.next
    repeat' split
    all_goals rfl
  | quit | goOn | take => rfl
  | channel => exact absurd (hown i c x g hphase) (ht.exclusive.not_ttl hclaimed)

end Claimed

/-- At most one party takes a session's lifecycle, and at most one connection, which has taken it, builds a
pipeline with it. Once a connection has taken it, the session's TTL task does not cancel its token; if no TTL task
has taken the lifecycle of another session, it removes no channel either. -/
theorem claimed_exclusively (ttl : Bool) (acts : List Action) (h : History) (g : ℕ)
    (hrun : run step (initial ttl) acts = some h) :
    (h.takers g).length ≤ 1 ∧ (h.builders g).length ≤ 1 ∧
      (∀ i ∈ h.builders g, (.connection, i) ∈ h.takers g) ∧
      ∀ i k choice h' c x, h.step (.run i choice) = some h' → (h.world.tasks i).phase.expires = some (c, x, g) →
        (.connection, k) ∈ h.takers g →
        h'.world.isCancelled (h.world.token g) = h.world.isCancelled (h.world.token g) ∧
          (EachStep step OwnExpiry (initial ttl) acts → h'.world.channels = h.world.channels) := by
  have ht : Timed h := run_invariant (I := Timed) (fun _ _ _ ht _ hstep => ht.step hstep) (timed_initial ttl)
    (eachStep_trivial _ acts) hrun
  refine ⟨ht.exclusive.takers g, ?_, ?_, fun i k choice h' c x hstep hexpires hclaimed => ?_⟩
  · rcases ht.exclusive.builders g with hnone | ⟨i, hone, -⟩
    · rw [hnone]
      exact Nat.zero_le 1
    · rw [hone]
      exact le_rfl
  · intro i hi
    rcases ht.exclusive.builders g with hnone | ⟨j, hone, htakers⟩
    · rw [hnone] at hi
      cases hi
    · rw [hone, List.mem_singleton] at hi
      rw [hi, htakers]
      exact List.mem_singleton_self _
  · have hg : g < h.world.generationCount := by
      obtain ⟨stage, hphase⟩ := ttl_of_expires hexpires
      exact (ht.exclusive.wellFormed.task i).lt g (.inl (by rw [hphase]; rfl))
    cases stepped_of_step hstep with
    | connected _ _ _ ha => exact absurd rfl (ha i choice)
    | run _ _ op t hnext =>
      refine ⟨ht.token_spared hnext hexpires hclaimed hg, fun hexpiry => ?_⟩
      have hown : OwnChannels h := by
        refine run_invariant (I := OwnChannels) (fun _ _ _ hown hc hstep => ownChannels_step hown hc hstep) ?_
          hexpiry hrun
        intro j c' x' g' hj
        change ((World.initial ttl).tasks j).phase = _ at hj
        rcases tasks_initial ttl j with heq | ⟨c'', -, heq⟩ <;> rw [heq] at hj <;> cases hj
      exact ht.channel_spared hown hnext hexpires hclaimed

instance (h : History) : (a : Action) → Decidable (OwnExpiry h a)
  | .run _ _ => inferInstanceAs (Decidable (∀ k ∈ _, ∀ g ∈ _, _))
  | .shutdown | .publish _ | .record _ => isTrue trivial

/-- An RTMP publisher takes a session whose TTL has just run out. -/
def publishedInTime : List Action :=
  handles .rtmp (.precreateStream "x") 6 ++ goes 3 2 ++ .publish "x" :: goes 4 8

theorem claimed_exclusively_in_time : ∃ h ∈ run step (initial true) publishedInTime, ∃ h' ∈ h.step (.run 3 .go),
    h.takers 0 = [(.connection, 4)] ∧ h.builders 0 = [4] ∧
      h'.world.isCancelled (h.world.token 0) = h.world.isCancelled (h.world.token 0) ∧
      h'.world.channels = h.world.channels := by
  have hsample : ∃ h ∈ run step (initial true) publishedInTime, ∃ h' ∈ h.step (.run 3 .go),
      h.takers 0 = [(.connection, 4)] ∧ h.builders 0 = [4] ∧
        (h.world.tasks 3).phase.expires = some (.rtmp, "x", 0) := by
    decide +kernel
  obtain ⟨h, hrun, h', hstep, htakers, hbuilders, hexpires⟩ := hsample
  obtain ⟨-, -, -, hspares⟩ := claimed_exclusively true publishedInTime h 0 hrun
  obtain ⟨htoken, hchannels⟩ := hspares 3 4 .go h' .rtmp "x" hstep hexpires (by rw [htakers]; exact List.mem_cons_self)
  exact ⟨h, hrun, h', hstep, htakers, hbuilders, htoken, hchannels (by decide +kernel)⟩

/-- The TTL of an RTSP session runs out, but before its task removes the lifecycle a connection takes it. A refused
`PrecreateStream` of the RTMP server cancels the session, which is cleaned up while the connection goes on
recording, and the key is precreated again, with the channel that is still there. -/
def recordedPastExpiry : List Action :=
  .run 0 (.receive (.precreateStream "x")) :: handles .rtsp (.precreateStream "x") 6 ++ goes 3 2 ++
    .record "x" :: goes 4 6 ++ goes 0 8 ++ goes 2 2 ++ handles .rtsp (.precreateStream "x") 6 ++ goes 3 5

theorem ttl_removes_claimed_channel : ∃ h ∈ run step (initial true) recordedPastExpiry, ∃ h' ∈ h.step (.run 3 .go),
    (h.world.tasks 3).phase.expires = some (.rtsp, "x", 0) ∧ h.takers 0 = [(.connection, 4)] ∧ h.builders 0 = [4] ∧
      (h.world.tasks 4).phase.party = .connection ∧ (h.world.tasks 4).phase.serves = some 0 ∧
      h.channelOf 0 = some 0 ∧ h.world.channels "x" = some 0 ∧ h'.world.channels "x" = none := by
  decide +kernel

end History
end LivestreamRs.Sessions
