import LivestreamRs.Sessions.Control
import LivestreamRs.Sessions.Tokens

/-! # Who cancels a session

One server handles `PrecreateStream` and `StopStream` while TTL timers and registry cleanups run. A lifecycle
finds the token it cancels under its `live_id`, so a lifecycle that is still around when the key is
registered again cancels the new session. `QuietRegistration` says that none is; then a session is cancelled
only by a `StopStream` for its key, by its own lifecycle, or by the shutdown.
-/
namespace LivestreamRs.Sessions
open Foundations
set_option autoImplicit false

/-- The actions of one server without connections. -/
def ControlOnly (c : Core) : Action → Prop
  | .shutdown => True
  | .publish _ | .record _ => False
  | .run i (.receive _) => i = loopIndex c
  | .run _ _ => True

/-- Some task works for `g`, or its lifecycle is in a pending map. -/
def World.Held (w : World) (g : ℕ) : Prop :=
  (∃ i < w.taskCount, (w.tasks i).worksFor g) ∨ w.pending .rtmp (w.liveId g) = some g ∨
    w.pending .rtsp (w.liveId g) = some g

def Task.registers : Task → Option ℕ
  | ⟨.precreate .register _ _ g, none⟩ => some g
  | _ => none

/-- A key is registered only when no earlier session of it is held. -/
def QuietRegistration (w : World) : Action → Prop
  | .run i _ => ∀ g ∈ (w.tasks i).registers, ∀ g' < w.generationCount, w.Held g' →
      w.registeredAt g' ≠ none → w.liveId g' ≠ w.liveId g
  | _ => True

/-- The action is the shutdown, the cancellation asked for by a `StopStream` for the session's key, or the
disconnect of the session's own lifecycle, by its TTL or otherwise. -/
def CancelCause (w : World) (g : ℕ) (a : Action) : Prop :=
  a = .shutdown ∨ ∃ i choice, a = .run i choice ∧
    ((∃ c t, w.tasks i = { phase := .stopCancel c (w.liveId g) t }) ∨
      ∃ t reason, (w.tasks i).disconnecting = some (.cancel g t reason))

def CancelledForCause (w : World) (a : Action) : Prop :=
  ∀ w', step w a = some w' → ∀ g, w.registeredAt g ≠ none → w.isCancelled (w.token g) = false →
    w'.isCancelled (w.token g) = true → CancelCause w g a

/-! ## The latest session of a key -/

def World.Latest (w : World) (g : ℕ) : Prop :=
  ∀ g', w.liveId g' = w.liveId g → ¬w.Later g g'

section Latest
variable {w : World} {op : Op} {g g' : ℕ}

theorem latest_of_unregistered (h : w.registeredAt g = none) : w.Latest g := by
  rintro g' - ⟨n, hn, -⟩
  rw [h] at hn
  cases hn

/-- A key has one latest session. -/
theorem Sound.latest_unique (hw : Sound w) (hreg : w.registeredAt g ≠ none)
    (hreg' : w.registeredAt g' ≠ none) (hkey : w.liveId g = w.liveId g') (h : w.Latest g)
    (h' : w.Latest g') : g = g' := by
  obtain ⟨n, hn⟩ := Option.ne_none_iff_exists'.mp hreg
  obtain ⟨n', hn'⟩ := Option.ne_none_iff_exists'.mp hreg'
  rcases lt_trichotomy n n' with hlt | rfl | hlt
  · exact absurd ⟨n, hn, n', hn', hlt⟩ (h g' hkey.symm)
  · exact hw.unique g g' n hn hn'
  · exact absurd ⟨n', hn', n, hn, hlt⟩ (h' g hkey)

theorem latest_register (hw : Sound w) : (w.apply (.register g)).Latest g := by
  rintro g' - ⟨n, hn, n', hn', hlt⟩
  have hnew : n = w.registrationCount := by
    simp only [World.apply, World.registeredAt, World.spawn, Function.update_self] at hn
    exact (Option.some.inj hn).symm
  rcases registeredAt_of_apply hn' with ⟨-, rfl⟩ | hold'
  · omega
  · exact absurd (hw.registered g' n' hold').2 (by omega)

/-- The latest session of a key stays so until the key is registered again. -/
theorem World.Latest.apply (hw : Sound w) (hg : g < w.generationCount) (h : w.Latest g)
    (hop : ∀ g₀, op = .register g₀ → g₀ < w.generationCount ∧ w.liveId g₀ ≠ w.liveId g) :
    (w.apply op).Latest g := by
  rintro g' hkey ⟨n, hn, n', hn', hlt⟩
  rw [(apply_identity hg).1] at hkey
  rcases registeredAt_of_apply hn with ⟨hop', -⟩ | hold
  · exact (hop g hop').2 rfl
  have hg' : g' < w.generationCount := by
    rcases registeredAt_of_apply hn' with ⟨hop', -⟩ | hold'
    · exact (hop g' hop').1
    · exact (hw.registered g' n' hold').1
  rw [(apply_identity hg').1] at hkey
  rcases registeredAt_of_apply hn' with ⟨hop', -⟩ | hold'
  · exact (hop g' hop').2 hkey
  · exact h g' hkey ⟨n, hold, n', hold', hlt⟩

end Latest

/-! ## The invariant -/

structure Controlled (c : Core) (w : World) : Prop where
  wellFormed : WellFormed w
  connection : ∀ i, (w.tasks i).phase.connection = false
  precreates : ∀ i x, (w.tasks i).phase.precreates = some x → i = loopIndex c ∧ w.registry x = none
  owned : ∀ i g, (w.tasks i).worksFor g → w.registeredAt g ≠ none ∨
    ∃ c' x, w.tasks i = { phase := .precreate .register c' x g }
  pending : ∀ c' x g, w.pending c' x = some g → w.registeredAt g ≠ none
  held : ∀ g, w.Held g → w.Latest g
  entry : ∀ x g, w.registry x = some g → w.Latest g
  stop : ∀ i c' x u, (w.tasks i).phase = .stopCancel c' x u →
    ∃ g < w.generationCount, w.liveId g = x ∧ u = w.token g
  cancel : ∀ i g u reason, (w.tasks i).disconnecting = some (.cancel g u reason) → u = w.token g

section Step
variable {c : Core} {w : World} {i : ℕ} {choice : Choice} {op : Op} {t : Task}

theorem WellFormed.held_of_worksFor (hw : WellFormed w) {j g : ℕ} (h : (w.tasks j).worksFor g) :
    w.Held g := by
  refine .inl ⟨j, ?_, h⟩
  by_contra hj
  rw [hw.fresh j (not_lt.mp hj)] at h
  rcases h with h | h <;> cases h

theorem WellFormed.held_of_pending (hw : WellFormed w) {c : Core} {x : LiveId} {g : ℕ}
    (h : w.pending c x = some g) : w.Held g := by
  obtain rfl := (hw.sound.pending c x g h).2
  cases c
  · exact .inr (.inl h)
  · exact .inr (.inr h)

theorem WellFormed.lt_of_held (hw : WellFormed w) {g : ℕ} (h : w.Held g) : g < w.generationCount := by
  rcases h with ⟨i, -, h⟩ | h | h
  · exact (hw.task i).lt g h
  · exact (hw.sound.pending _ _ g h).1
  · exact (hw.sound.pending _ _ g h).1

/-- What is held after a step was held before, or has just been created. -/
theorem WellFormed.held_of_run (hw : WellFormed w) (hnext : (w.tasks i).next w choice = some (op, t))
    {g : ℕ} (h : ((w.apply op).setTask i t).Held g) :
    w.Held g ∨ ∃ c x, op = .newLifecycle c x ∧ g = w.generationCount := by
  have hm := moves_next hnext
  have hpending : ∀ c x, (w.apply op).pending c x = some g → w.Held g := by
    intro c x hp
    rcases pending_of_apply hp with hop | hold
    · exact hw.held_of_worksFor (.inl (hm.inserted c x g hop).1)
    · exact hw.held_of_pending hold
  rcases h with ⟨j, -, hj⟩ | hp | hp
  · rcases tasks_after w op i t j with ⟨rfl, heq⟩ | ⟨-, heq | ⟨p, hspawn, heq⟩⟩ <;> rw [heq] at hj
    · rcases hm.label g hj with hold | ⟨c, x, hp⟩ | hnew
      · exact .inl (hw.held_of_worksFor hold)
      · exact .inl (hw.held_of_pending hp)
      · exact .inr hnew
    · exact .inl (hw.held_of_worksFor hj)
    · rcases hj with hj | hj
      · exact .inl (hw.held_of_worksFor (.inl ((hm.spawned p hspawn).2 g hj).1))
      · cases hj
  · exact .inl (hpending _ _ hp)
  · exact .inl (hpending _ _ hp)

theorem Controlled.precreates_run (hw : Controlled c w) (hc : ControlOnly c (.run i choice))
    (hnext : (w.tasks i).next w choice = some (op, t)) (j : ℕ) (x : LiveId)
    (hj : (((w.apply op).setTask i t).tasks j).phase.precreates = some x) :
    j = loopIndex c ∧ (w.apply op).registry x = none := by
  have hm := moves_next hnext
  have hcm := controlMoves_next hnext
  have hregister : ∀ g, op = .register g → i = loopIndex c ∧ t.phase.precreates = none := by
    intro g hop
    obtain ⟨-, c', x', ht, ht'⟩ := hm.registered g hop
    refine ⟨(hw.precreates i x' (by rw [ht, Phase.precreates])).1, ?_⟩
    rw [ht']
    rfl
  have hkeep : w.registry x = none → (∀ g, op ≠ .register g) → (w.apply op).registry x = none := by
    intro hx hop
    cases hx' : (w.apply op).registry x with
    | none => rfl
    | some g =>
      rcases registry_of_apply hx' with ⟨hop', -⟩ | hold
      · exact absurd hop' (hop g)
      · rw [hx] at hold
        cases hold
  rcases tasks_after w op i t j with ⟨rfl, heq⟩ | ⟨hji, heq | ⟨p, hspawn, heq⟩⟩ <;> rw [heq] at hj
  · have hop : ∀ g, op ≠ .register g := by
      intro g hop
      rw [(hregister g hop).2] at hj
      cases hj
    rcases hcm.precreates x hj with hold | ⟨hx, msg, rfl⟩
    · obtain ⟨hidx, hx⟩ := hw.precreates j x hold
      exact ⟨hidx, hkeep hx hop⟩
    · exact ⟨hc, hkeep hx hop⟩
  · obtain ⟨hidx, hx⟩ := hw.precreates j x hj
    exact ⟨hidx, hkeep hx fun g hop => hji (hidx.trans (hregister g hop).1.symm)⟩
  · rw [(hcm.spawned p hspawn).1] at hj
    cases hj

theorem registeredAt_ne_none_apply (hw : Sound w) {g : ℕ} (h : w.registeredAt g ≠ none)
    (hop : ∀ g, op = .register g → w.registeredAt g = none) : (w.apply op).registeredAt g ≠ none := by
  rw [apply_registeredAt_of_ne (fun hop' => h (hop g hop')) (hw.lt_of_registered h)]
  exact h

/-- With one server, a registration finds its key free. -/
theorem Controlled.register_succeeds (hw : Controlled c w)
    (hnext : (w.tasks i).next w choice = some (op, t)) {c' : Core} {x : LiveId} {g : ℕ}
    (ht : w.tasks i = { phase := .precreate .register c' x g }) : op = .register g := by
  refine (controlMoves_next hnext).registering c' x g ht ?_
  rw [(hw.wellFormed.task i).key g x (by rw [ht, Phase.generation]) (by rw [ht, Phase.key])]
  exact (hw.precreates i x (by rw [ht, Phase.precreates])).2

theorem Controlled.owned_run (hw : Controlled c w) (hnext : (w.tasks i).next w choice = some (op, t))
    (j g : ℕ) (hj : (((w.apply op).setTask i t).tasks j).worksFor g) :
    (w.apply op).registeredAt g ≠ none ∨
      ∃ c' x, ((w.apply op).setTask i t).tasks j = { phase := .precreate .register c' x g } := by
  have hm := moves_next hnext
  have hcm := controlMoves_next hnext
  have hkeep : w.registeredAt g ≠ none → (w.apply op).registeredAt g ≠ none := fun h =>
    registeredAt_ne_none_apply hw.wellFormed.sound h (hw.wellFormed.unregistered hm)
  have hmoved : (w.tasks i).worksFor g → (w.apply op).registeredAt g ≠ none := by
    intro hg
    rcases hw.owned i g hg with hreg | ⟨c', x, ht⟩
    · exact hkeep hreg
    · obtain rfl := hw.register_succeeds hnext ht
      simp [World.apply, World.registeredAt, World.spawn]
  rcases tasks_after w op i t j with ⟨rfl, heq⟩ | ⟨-, heq | ⟨p, hspawn, heq⟩⟩ <;> rw [heq] at hj
  · rcases hm.label g hj with hold | ⟨c', x, hp⟩ | ⟨c', x, hop, rfl⟩
    · exact .inl (hmoved hold)
    · exact .inl (hkeep (hw.pending c' x g hp))
    · exact .inr ⟨c', x, heq.trans (hcm.created c' x hop)⟩
  · rw [heq]
    rcases hw.owned j g hj with hreg | hphase
    · exact .inl (hkeep hreg)
    · exact .inr hphase
  · rcases hj with hj | hj
    · exact .inl (hmoved (.inl ((hm.spawned p hspawn).2 g hj).1))
    · cases hj

theorem Controlled.pending_run (hw : Controlled c w) (hnext : (w.tasks i).next w choice = some (op, t))
    (c' : Core) (x : LiveId) (g : ℕ) (hp : (w.apply op).pending c' x = some g) :
    (w.apply op).registeredAt g ≠ none := by
  have hm := moves_next hnext
  refine registeredAt_ne_none_apply hw.wellFormed.sound ?_ (hw.wellFormed.unregistered hm)
  rcases pending_of_apply hp with hop | hold
  · rcases hw.owned i g (.inl (hm.inserted c' x g hop).1) with hreg | ⟨c'', x', ht⟩
    · exact hreg
    · cases hop.symm.trans (hw.register_succeeds hnext ht)
  · exact hw.pending c' x g hold

theorem QuietRegistration.of_register (hq : QuietRegistration w (.run i choice))
    (hnext : (w.tasks i).next w choice = some (op, t)) {g₀ : ℕ} (hop : op = .register g₀) :
    ∀ g' < w.generationCount, w.Held g' → w.registeredAt g' ≠ none → w.liveId g' ≠ w.liveId g₀ := by
  obtain ⟨-, c', x, ht, -⟩ := (moves_next hnext).registered g₀ hop
  exact hq g₀ (by rw [ht]; rfl)

theorem Controlled.held_run (hw : Controlled c w) (hq : QuietRegistration w (.run i choice))
    (hnext : (w.tasks i).next w choice = some (op, t)) (g : ℕ)
    (hg : ((w.apply op).setTask i t).Held g) : (w.apply op).Latest g := by
  have hm := moves_next hnext
  rcases hw.wellFormed.held_of_run hnext hg with hheld | ⟨c', x, rfl, rfl⟩
  · have hlt := hw.wellFormed.lt_of_held hheld
    by_cases hreg : (w.apply op).registeredAt g = none
    · exact latest_of_unregistered hreg
    by_cases hop : op = .register g
    · rw [hop]
      exact latest_register hw.wellFormed.sound
    · rw [apply_registeredAt_of_ne hop hlt] at hreg
      exact (hw.held g hheld).apply hw.wellFormed.sound hlt fun g₀ hop₀ =>
        ⟨hw.wellFormed.register_lt hm g₀ hop₀, (hq.of_register hnext hop₀ g hlt hheld hreg).symm⟩
  · exact latest_of_unregistered (by simp [World.apply, World.registeredAt])

/-- The registry's session of a key is the latest one. -/
theorem WellFormed.latest_entry (hw : WellFormed w) (hnext : (w.tasks i).next w choice = some (op, t))
    (hentry : ∀ x g, w.registry x = some g → w.Latest g) (x : LiveId) (g : ℕ)
    (hx : (w.apply op).registry x = some g) : (w.apply op).Latest g := by
  have hm := moves_next hnext
  rcases registry_of_apply hx with ⟨rfl, -⟩ | hold
  · exact latest_register hw.sound
  · obtain ⟨hreg, hkey⟩ := hw.sound.registry x g hold
    refine (hentry x g hold).apply hw.sound (hw.sound.lt_of_registered hreg)
      fun g₀ hop₀ => ⟨hw.register_lt hm g₀ hop₀, fun heq => ?_⟩
    have hfree := (hm.registered g₀ hop₀).1
    rw [heq, hkey, hold] at hfree
    cases hfree

theorem Controlled.stop_run (hw : Controlled c w) (hnext : (w.tasks i).next w choice = some (op, t))
    (j : ℕ) (c' : Core) (x : LiveId) (u : Token)
    (hj : (((w.apply op).setTask i t).tasks j).phase = .stopCancel c' x u) :
    ∃ g < (w.apply op).generationCount, (w.apply op).liveId g = x ∧ u = (w.apply op).token g := by
  have hcm := controlMoves_next hnext
  have hold : ∃ g < w.generationCount, w.liveId g = x ∧ u = w.token g := by
    rcases tasks_after w op i t j with ⟨rfl, heq⟩ | ⟨-, heq | ⟨p, hspawn, heq⟩⟩ <;> rw [heq] at hj
    · rcases hcm.stop c' x u hj with hold | ⟨g, hx, rfl⟩
      · exact hw.stop j c' x u hold
      · obtain ⟨hreg, hkey⟩ := hw.wellFormed.sound.registry x g hx
        exact ⟨g, hw.wellFormed.sound.lt_of_registered hreg, hkey, rfl⟩
    · exact hw.stop j c' x u hj
    · exact absurd hj ((hcm.spawned p hspawn).2.1 c' x u)
  obtain ⟨g, hlt, hkey, hu⟩ := hold
  have hkey' : (w.apply op).liveId g = w.liveId g := (apply_identity hlt).1
  have htoken : (w.apply op).token g = w.token g := (apply_identity hlt).2.1
  exact ⟨g, hlt.trans_le generationCount_le_apply, hkey'.trans hkey, hu.trans htoken.symm⟩

/-- A disconnect finds its own session: that is the latest one of its key, and so is the registry's. -/
theorem Controlled.cancel_run (hw : Controlled c w) (hnext : (w.tasks i).next w choice = some (op, t))
    (j g : ℕ) (u : Token) (reason : EndReason)
    (hj : (((w.apply op).setTask i t).tasks j).disconnecting = some (.cancel g u reason)) :
    u = (w.apply op).token g := by
  have hold : g < w.generationCount ∧ u = w.token g := by
    rcases tasks_after w op i t j with ⟨rfl, heq⟩ | ⟨-, heq | ⟨p, -, heq⟩⟩ <;> rw [heq] at hj
    · obtain ⟨-, hlookup, g', hx, rfl⟩ := (tokenMoves_next hnext).disconnect g u reason hj
      have hworks : (w.tasks j).worksFor g := .inr (by rw [hlookup]; rfl)
      have hreg : w.registeredAt g ≠ none := by
        rcases hw.owned j g hworks with hreg | ⟨c', x, ht⟩
        · exact hreg
        · rw [ht] at hlookup
          cases hlookup
      obtain ⟨hreg', hkey⟩ := hw.wellFormed.sound.registry _ g' hx
      have heq := hw.wellFormed.sound.latest_unique hreg hreg' hkey.symm
        (hw.held g (hw.wellFormed.held_of_worksFor hworks)) (hw.entry _ g' hx)
      exact ⟨(hw.wellFormed.task j).lt g hworks, by rw [heq]⟩
    · exact ⟨(hw.wellFormed.task j).lt g (.inr (by rw [hj]; rfl)), hw.cancel j g u reason hj⟩
    · cases hj
  rw [(apply_identity hold.1).2.1]
  exact hold.2

theorem Controlled.connection_run (hw : Controlled c w)
    (hnext : (w.tasks i).next w choice = some (op, t)) (j : ℕ) :
    (((w.apply op).setTask i t).tasks j).phase.connection = false := by
  have hcm := controlMoves_next hnext
  rw [Bool.eq_false_iff]
  intro hj
  have hi := hw.connection i
  rw [Bool.eq_false_iff] at hi
  rcases tasks_after w op i t j with ⟨rfl, heq⟩ | ⟨-, heq | ⟨p, hspawn, heq⟩⟩ <;> rw [heq] at hj
  · exact hi (hcm.connection hj)
  · exact Bool.eq_false_iff.mp (hw.connection j) hj
  · exact hi ((hcm.spawned p hspawn).2.2 hj)

end Step

theorem Controlled.step {c : Core} {w w' : World} {a : Action} (hw : Controlled c w)
    (hc : ControlOnly c a ∧ QuietRegistration w a) (h : step w a = some w') : Controlled c w' := by
  have hwf := hw.wellFormed.step h
  cases stepped_of_step h with
  | shutdown =>
    exact ⟨hwf, hw.connection, hw.precreates, hw.owned, hw.pending, hw.held, hw.entry, hw.stop, hw.cancel⟩
  | publish x | record x => exact hc.1.elim
  | run i choice op t hnext =>
    exact ⟨hwf, hw.connection_run hnext, hw.precreates_run hc.1 hnext, hw.owned_run hnext,
      hw.pending_run hnext, hw.held_run hc.2 hnext, hw.wellFormed.latest_entry hnext hw.entry, hw.stop_run hnext,
      hw.cancel_run hnext⟩

theorem Controlled.cancelledForCause {c : Core} {w : World} {a : Action} (hw : Controlled c w)
    (hc : ControlOnly c a) : CancelledForCause w a := by
  intro w' h g hreg hlive hcancelled
  cases stepped_of_step h with
  | shutdown => exact .inl rfl
  | publish x | record x => exact hc.elim
  | run i choice op t hnext =>
    refine .inr ⟨i, choice, rfl, ?_⟩
    have hlt := hw.wellFormed.sound.lt_of_registered hreg
    change cancelled (w.apply op).fired _ = true at hcancelled
    rcases fired_apply w op with ⟨u, rfl, hfired⟩ | hfired
    swap
    · rw [hfired] at hcancelled
      exact absurd (hlive.symm.trans hcancelled) Bool.false_ne_true
    have hcovers : u.covers (w.token g) = true := by
      rw [hfired, cancelled_cons, Bool.or_eq_true] at hcancelled
      exact hcancelled.resolve_right (Bool.eq_false_iff.mp hlive)
    rcases (tokenMoves_next hnext).fire u rfl with ⟨g', reason, hd⟩ | ⟨hd, hfires⟩
    · have hlt' := (hw.wellFormed.task i).lt g' (.inr (by rw [hd]; rfl))
      obtain rfl := hw.cancel i g' u reason hd
      obtain rfl := hw.wellFormed.sound.eq_of_covers hlt' hlt hcovers
      exact .inr ⟨_, reason, hd⟩
    · have hconn := hw.connection i
      unfold Phase.fires at hfires
      split at hfires
      case h_1 c' x u' hp =>
        obtain rfl := Option.some.inj hfires
        obtain ⟨g', hlt', rfl, rfl⟩ := hw.stop i c' x u' hp
        obtain rfl := hw.wellFormed.sound.eq_of_covers hlt' hlt hcovers
        exact .inl ⟨c', _, by rw [← hp, ← hd]⟩
      case h_7 => cases hfires
      all_goals
        next hp =>
        rw [hp] at hconn
        cases hconn

theorem controlled_initial (c : Core) (ttl : Bool) : Controlled c (World.initial ttl) := by
  refine ⟨wellFormed_initial ttl, fun i => ?_, fun i x hx => ?_, fun i g hg => ?_, nofun,
    fun g _ => latest_of_unregistered rfl, nofun, fun i c' x u hp => ?_, fun i g u reason hd => ?_⟩
  all_goals
    rcases tasks_initial ttl i with heq | ⟨c', -, heq⟩
  all_goals simp_all [Phase.connection, Phase.precreates, Task.worksFor, Phase.generation]

/-! ## Runs -/

/-- In a run of one server in which no key is registered while an earlier session of it is held, a session
is cancelled only for cause. -/
theorem cancelled_for_cause (c : Core) (ttl : Bool) (acts : List Action)
    (h : EachStep step (fun w a => ControlOnly c a ∧ QuietRegistration w a) (World.initial ttl) acts) :
    EachStep step CancelledForCause (World.initial ttl) acts :=
  h.imp (fun _ _ _ hw hc hstep => ⟨hw.step hc hstep, hw.cancelledForCause hc.1⟩) (controlled_initial c ttl)

instance (c : Core) : (a : Action) → Decidable (ControlOnly c a)
  | .publish _ | .record _ => isFalse id
  | .run i (.receive _) => inferInstanceAs (Decidable (i = loopIndex c))
  | .shutdown | .run _ .go | .run _ .fail | .run _ .finish | .run _ .abort | .run _ (.release _) =>
    isTrue trivial

instance (w : World) (g : ℕ) : Decidable (w.Held g) :=
  inferInstanceAs (Decidable ((∃ i < _, _) ∨ _ ∨ _))

instance (w : World) : (a : Action) → Decidable (QuietRegistration w a)
  | .run _ _ => inferInstanceAs (Decidable (∀ g ∈ _, ∀ g' < _, _ → _ → _))
  | .shutdown | .publish _ | .record _ => isTrue trivial

/-- A session expires, its key is precreated again, and the second session is stopped. -/
def expireAndStop : List Action :=
  handles .rtmp (.precreateStream "x") 6 ++ goes 3 8 ++ goes 2 2 ++
    handles .rtmp (.precreateStream "x") 6 ++ handles .rtmp (.stopStream "x") 2

theorem cancelled_for_cause_expiry : EachStep step CancelledForCause (World.initial true) expireAndStop ∧
    ∃ w ∈ run step (World.initial true) expireAndStop, w.acks = [("x", true), ("x", true)] ∧
      w.isCancelled (w.token 0) = true ∧ w.isCancelled (w.token 1) = true :=
  ⟨cancelled_for_cause .rtmp true expireAndStop (by decide +kernel), by decide +kernel⟩

/-- A session is stopped and its key precreated again, both requests acknowledged. Inserting the second
lifecycle drops the first one, which looks its key up and is about to cancel the second session. -/
def stopAndPrecreate : List Action :=
  handles .rtmp (.precreateStream "x") 5 ++ handles .rtmp (.stopStream "x") 2 ++ goes 2 2 ++
    handles .rtmp (.precreateStream "x") 8

theorem stopped_lifecycle_cancels_new_session : ∃ w ∈ run step (World.initial false) stopAndPrecreate,
    ∃ w' ∈ step w (.run 0 .go),
      w.acks = [("x", true), ("x", true)] ∧ w.registry "x" = some 1 ∧
      w.tasks 0 = ⟨.idle .rtmp, some (.cancel 0 (w.token 1) .clientDisconnect)⟩ ∧
      w.isCancelled (w.token 1) = false ∧ w'.isCancelled (w.token 1) = true := by
  decide +kernel

end LivestreamRs.Sessions
