import LivestreamRs.Sessions.Tokens

/-! # Isolation of the sessions of one `live_id`

A task keeps a token or a lifecycle of the session it works for, but the registry, the pending maps and the
hub are searched by `live_id`. After a second session has been registered under the key, such a search can
find the second session's entry. `FindsNoLater` says of one step that its search does not; a run of such
steps keeps the sessions apart.
-/
namespace LivestreamRs.Sessions
open Foundations
set_option autoImplicit false

/-- The sessions whose registry entry or FLV channel the next operation of a task finds by key. -/
def World.found (w : World) (t : Task) (choice : Choice) : List ℕ :=
  match t.disconnecting, t.phase with
  | some (.lookup g _), _ => (w.registry (w.liveId g)).toList
  | some _, _ => []
  | none, .request .accepted x _ => (w.registry x).toList
  | none, .ttl .channel _ x _ | none, .publish .channel x _ _ | none, .record .refusedChannel x _ _
  | none, .record .remove x _ _ | none, .flvSink x _ _ =>
    if choice = .go ∧ w.channels x ≠ none then
      (List.range w.generationCount).filter fun g => w.liveId g = x
    else []
  | none, _ => []

/-- The key under which an RTMP connection is about to claim a lifecycle, and the token it found there. -/
def Task.claims : Task → Option (LiveId × Token)
  | ⟨.publish .claim x _ t, none⟩ => some (x, t)
  | _ => none

/-- The step does not find a session registered after one it works for. An RTMP connection that claims a
lifecycle has found its token before, so there the claimed lifecycle is compared with that token. -/
def FindsNoLater (w : World) : Action → Prop
  | .run i choice =>
    (∀ g < w.generationCount, (w.tasks i).worksFor g →
      ∀ g' ∈ w.found (w.tasks i) choice, ¬w.Later g g') ∧
    ∀ x ∈ (w.tasks i).claims, ∀ g ∈ w.pending .rtmp x.1, ∀ g' < w.generationCount, w.token g' = x.2 →
      ¬w.Later g g'
  | _ => True

instance (w : World) : (a : Action) → Decidable (FindsNoLater w a)
  | .run _ _ => inferInstanceAs (Decidable ((∀ g < _, _ → ∀ g' ∈ _, _) ∧ ∀ x ∈ _, ∀ g ∈ _, ∀ g' < _, _ → _))
  | .shutdown | .publish _ | .record _ => isTrue trivial

/-- No task working for a session cancels the token of a later session of the same `live_id`, removes its
FLV channel, or delivers a tag to that channel. -/
def Isolated (w : World) (a : Action) : Prop :=
  ∀ i choice w', a = .run i choice → step w a = some w' → ∀ g g', (w.tasks i).worksFor g →
    w.Later g g' → w.liveId g = w.liveId g' →
      w'.isCancelled (w.token g') = w.isCancelled (w.token g') ∧
      (∀ ch, w.channels (w.liveId g') = some ch → w'.channels (w.liveId g') = some ch) ∧
      w'.delivered = w.delivered

/-! ## The tokens a task holds are not those of later sessions -/

def World.NotLaterToken (w : World) (g : ℕ) (u : Token) : Prop :=
  ∃ g', w.registeredAt g' ≠ none ∧ u = w.token g' ∧ ¬w.Later g g'

theorem World.NotLaterToken.apply {w : World} {op : Op} {g : ℕ} {u : Token} (hw : Sound w)
    (hop : ∀ g, op = .register g → w.registeredAt g = none) (h : w.NotLaterToken g u) :
    (w.apply op).NotLaterToken g u := by
  obtain ⟨g', hreg, rfl, hlater⟩ := h
  have hlt := hw.lt_of_registered hreg
  refine ⟨g', ?_, (apply_identity hlt).2.1.symm, not_later_apply hw hop hreg hlater⟩
  rw [apply_registeredAt_of_ne (fun h => hreg (hop g' h)) hlt]
  exact hreg

/-- A token of a session not later than `g` covers no token of a session later than `g`. -/
theorem World.NotLaterToken.not_covers {w : World} {g g' : ℕ} {u : Token} (hw : Sound w)
    (h : w.NotLaterToken g u) (hlater : w.Later g g') : u.covers (w.token g') = false := by
  obtain ⟨g₀, hreg, rfl, hnot⟩ := h
  rw [Bool.eq_false_iff]
  intro hcovers
  obtain rfl := hw.eq_of_covers (hw.lt_of_registered hreg) (hw.lt_of_registered hlater.registered) hcovers
  exact hnot hlater

structure TaskAttributed (w : World) (t : Task) : Prop where
  publish : ∀ stage x g u, t.phase = .publish stage x g u → w.NotLaterToken g u
  source : ∀ g q, t.phase = .rtmpSource g q → 2 < q.depth
  cancel : ∀ g u reason, t.disconnecting = some (.cancel g u reason) →
    ∀ g₀, t.worksFor g₀ → w.NotLaterToken g₀ u

section Attributed
variable {w : World} {op : Op} {choice : Choice} {i : ℕ} {t t' : Task}

theorem TaskAttributed.apply (hw : Sound w) (hop : ∀ g, op = .register g → w.registeredAt g = none)
    (ht : TaskAttributed w t) : TaskAttributed (w.apply op) t where
  publish stage x g u hp := (ht.publish stage x g u hp).apply hw hop
  source := ht.source
  cancel g u reason hd g₀ hg₀ := (ht.cancel g u reason hd g₀ hg₀).apply hw hop

theorem notLaterToken_of_registry (hw : Sound w) {x : LiveId} {g g' : ℕ} (hx : w.registry x = some g')
    (h : ¬w.Later g g') : w.NotLaterToken g (w.token g') :=
  ⟨g', (hw.registry x g' hx).1, rfl, h⟩

theorem TaskAttributed.moves (hw : Sound w) (htask : TaskSound w i t) (ht : TaskAttributed w t)
    (hm : Moves w t op t') (htm : TokenMoves w t op t')
    (hop : ∀ g, op = .register g → w.registeredAt g = none)
    (hfound : ∀ g < w.generationCount, t.worksFor g → ∀ g' ∈ w.found t choice, ¬w.Later g g')
    (hclaim : ∀ x ∈ t.claims, ∀ g ∈ w.pending .rtmp x.1, ∀ g' < w.generationCount,
      w.token g' = x.2 → ¬w.Later g g') : TaskAttributed (w.apply op) t' where
  publish stage x g u hp := by
    refine World.NotLaterToken.apply hw hop ?_
    rcases htm.publish stage x g u hp with ⟨stage', hp'⟩ | ⟨rfl, g', hx, rfl⟩ | ⟨g₀, rfl, hpending⟩
    · exact ht.publish stage' x g u hp'
    · have hg : Task.worksFor { phase := .request .accepted x g } g := .inl rfl
      refine notLaterToken_of_registry hw hx (hfound g (htask.lt g hg) hg g' ?_)
      simp [World.found, hx]
    · obtain ⟨g', hreg, rfl, -⟩ := ht.publish .claim x g₀ u rfl
      exact ⟨g', hreg, rfl, hclaim (x, w.token g') rfl g hpending g' (hw.lt_of_registered hreg) rfl⟩
  source g q hp := ht.source g q (htm.source g q hp)
  cancel g u reason hd g₀ hg₀ := by
    obtain ⟨hphase, hlookup, g', hx, rfl⟩ := htm.disconnect g u reason hd
    have hworks : t.worksFor g₀ := by
      rcases hg₀ with hg₀ | hg₀
      · exact .inl (hphase ▸ hg₀)
      · rw [hd] at hg₀
        right
        rw [hlookup]
        exact hg₀
    refine World.NotLaterToken.apply hw hop (notLaterToken_of_registry hw hx ?_)
    refine hfound g₀ (htask.lt g₀ hworks) hworks g' ?_
    simp [World.found, hlookup, hx]

theorem TaskAttributed.spawned {p : Phase} (hw : Sound w) (ht : TaskAttributed w t)
    (htm : TokenMoves w t op t') (hp : op.spawned = some p) :
    TaskAttributed (w.apply op) { phase := p } := by
  obtain ⟨-, hpublish, hsource⟩ := htm.spawned p hp
  refine ⟨fun stage x g u h => absurd h (hpublish stage x g u), fun g q h => ?_, nofun⟩
  obtain ⟨x, u, m, hphase, rfl⟩ := hsource g q h
  obtain ⟨g', hreg, rfl, -⟩ := ht.publish .source x g u hphase
  rw [Token.depth, hw.token_depth (hw.lt_of_registered hreg)]
  exact Nat.lt_succ_self 2

end Attributed

structure Attributed (w : World) : Prop where
  wellFormed : WellFormed w
  detached : Detached w
  task : ∀ i, TaskAttributed w (w.tasks i)

theorem TaskAttributed.setTask {w : World} {t t' : Task} {i : ℕ} (ht : TaskAttributed w t) :
    TaskAttributed (w.setTask i t') t :=
  ⟨ht.publish, ht.source, ht.cancel⟩

theorem attributed_spawn {w : World} {p : Phase} (hw : Attributed w)
    (hp : TaskAttributed w { phase := p }) (i : ℕ) :
    TaskAttributed (w.apply (.spawn p)) ((w.apply (.spawn p)).tasks i) := by
  rcases tasks_apply_spawn w p i with heq | heq <;> rw [heq]
  · exact (hw.task i).apply hw.wellFormed.sound nofun
  · exact hp.apply hw.wellFormed.sound nofun

theorem Attributed.step {w w' : World} {a : Action} (hw : Attributed w) (hc : FindsNoLater w a)
    (h : step w a = some w') : Attributed w' := by
  refine ⟨hw.wellFormed.step h, hw.detached.step h, ?_⟩
  cases stepped_of_step h with
  | shutdown => exact fun j => (hw.task j).apply hw.wellFormed.sound nofun
  | publish x => exact attributed_spawn hw ⟨nofun, nofun, nofun⟩
  | record x => exact attributed_spawn hw ⟨nofun, nofun, nofun⟩
  | run i choice op t hnext =>
    have hm := moves_next hnext
    have htm := tokenMoves_next hnext
    have hop := hw.wellFormed.unregistered hm
    intro j
    rcases tasks_after w op i t j with ⟨rfl, heq⟩ | ⟨-, heq | ⟨p, hp, heq⟩⟩ <;> rw [heq]
    · exact ((hw.task j).moves hw.wellFormed.sound (hw.wellFormed.task j) hm htm hop hc.1 hc.2).setTask
    · exact ((hw.task j).apply hw.wellFormed.sound hop).setTask
    · exact ((hw.task i).spawned hw.wellFormed.sound htm hp).setTask

/-! ## A step harms no later session -/

theorem delivered_apply (w : World) (op : Op) : (w.apply op).delivered = w.delivered ∨
    ∃ x g, op = .broadcast x g ∧ w.channels x ≠ none := by
  cases op
  case createChannel => simp only [World.apply]; split <;> exact .inl rfl
  case broadcast x g =>
    cases hx : w.channels x with
    | none => exact .inl (by simp [World.apply, hx])
    | some ch => exact .inr ⟨x, g, rfl, by simp [hx]⟩
  all_goals exact .inl rfl

/-- A task that removes or feeds the channel under `x` for a session finds the sessions of that key. -/
theorem channel_found {w : World} {t t' : Task} {choice : Choice} {op : Op} {x : LiveId} {g : ℕ}
    (h : t.next w choice = some (op, t')) (hop : op = .removeChannel x ∨ ∃ g₀, op = .broadcast x g₀)
    (hg : t.worksFor g) :
    t.phase.generation = some g ∧ t.phase.key = some x ∧ (w.channels x ≠ none →
      ∀ g' < w.generationCount, w.liveId g' = x → g' ∈ w.found t choice) := by
  revert hop hg
  refine next_rule (R := fun t op _ => (op = .removeChannel x ∨ ∃ g₀, op = .broadcast x g₀) →
    t.worksFor g → t.phase.generation = some g ∧ t.phase.key = some x ∧ (w.channels x ≠ none →
      ∀ g' < w.generationCount, w.liveId g' = x → g' ∈ w.found t choice)) ?_ ?_ ?_ ?_ ?_ ?_ ?_ h
  case refine_7 =>
    intro p d
    unfold Disconnect.next
    repeat' split
    all_goals simp
  all_goals
    intro p op t' h
    simp only [controlNext, receive, timerNext, publishNext, recordNext, sinkNext, abortNext] at h
    repeat' split at h
    all_goals simp only [Option.some.injEq, Prod.mk.injEq, reduceCtorEq] at h
    all_goals
      obtain ⟨rfl, rfl⟩ := h
      rintro (hop | ⟨g₀, hop⟩) <;> cases hop
    all_goals simp +contextual [Task.worksFor, Phase.generation, Phase.key, World.found]

/-- A token that a task working for `g` fires is not the token of a session later than `g`. -/
theorem Attributed.fire_not_covers {w : World} {i : ℕ} {choice : Choice} {u : Token} {t : Task} {g g' : ℕ}
    (hw : Attributed w) (hnext : (w.tasks i).next w choice = some (.fire u, t))
    (hg : (w.tasks i).worksFor g) (hlater : w.Later g g') : u.covers (w.token g') = false := by
  have hsound := hw.wellFormed.sound
  have hlt := hsound.lt_of_registered hlater.registered
  rcases (tokenMoves_next hnext).fire u rfl with ⟨g₀, reason, hd⟩ | ⟨hd, hfires⟩
  · exact ((hw.task i).cancel g₀ u reason hd g hg).not_covers hsound hlater
  have hgen : (w.tasks i).phase.generation = some g := by
    rcases hg with hg | hg
    · exact hg
    · rw [hd] at hg
      cases hg
  rw [Bool.eq_false_iff]
  intro hcovers
  have hroot := Token.rootId_eq_of_covers hcovers
  rw [hsound.token_rootId hlt] at hroot
  unfold Phase.fires at hfires
  split at hfires
  case h_1 hp => rw [hp] at hgen; cases hgen
  case h_2 hp | h_3 hp =>
    rw [hp, Phase.generation, Option.some.injEq] at hgen
    subst hgen
    obtain rfl := Option.some.inj hfires
    have hnot := ((hw.task i).publish _ _ _ _ hp).not_covers hsound hlater
    rw [hnot] at hcovers
    cases hcovers
  case h_4 hp =>
    obtain rfl := Option.some.inj hfires
    have hdepth := (hw.task i).source _ _ hp
    rcases Token.eq_or_depth_lt_of_covers hcovers with rfl | hlt'
    · exact absurd (hsound.token_depth hlt) hdepth.ne'
    · rw [hsound.token_depth hlt] at hlt'
      omega
  case h_5 hp | h_6 hp =>
    refine hw.detached.rootId i u ?_ hroot
    rw [hp, Phase.cancel]
    exact hfires
  case h_7 => cases hfires

theorem Attributed.isolated {w : World} {a : Action} (hw : Attributed w) (hc : FindsNoLater w a) :
    Isolated w a := by
  rintro i choice w' rfl hstep g g' hg hlater hkey
  cases stepped_of_step hstep with
  | run _ _ op t hnext =>
    have hlt := (hw.wellFormed.task i).lt g hg
    have hlt' := hw.wellFormed.sound.lt_of_registered hlater.registered
    -- a search under the common key would find the later session
    have hsearch : ∀ x, (op = .removeChannel x ∨ ∃ g₀, op = .broadcast x g₀) → w.channels x ≠ none →
        w.liveId g' ≠ x := by
      intro x hop hx hx'
      obtain ⟨-, -, hfound⟩ := channel_found hnext hop hg
      exact hc.1 g hlt hg g' (hfound hx g' hlt' hx') hlater
    refine ⟨?_, fun ch hch => channels_apply hch fun hop => ?_, ?_⟩
    · rcases fired_apply w op with ⟨u, rfl, hfired⟩ | hfired
      · change cancelled (w.apply (.fire u)).fired _ = _
        rw [hfired, cancelled_cons, hw.fire_not_covers hnext hg hlater]
        rfl
      · change cancelled (w.apply op).fired _ = _
        rw [hfired]
        rfl
    · exact hsearch _ (.inl hop) (by rw [hch]; exact Option.some_ne_none ch) rfl
    · rcases delivered_apply w op with h | ⟨x, g₀, rfl, hx⟩
      · exact h
      · obtain ⟨hgen, hkey', -⟩ := channel_found hnext (.inr ⟨g₀, rfl⟩) hg
        have hown := (hw.wellFormed.task i).key g x hgen hkey'
        exact absurd (hkey ▸ hown) (hsearch x (.inr ⟨g₀, rfl⟩) hx)

theorem attributed_initial (ttl : Bool) : Attributed (World.initial ttl) := by
  refine ⟨wellFormed_initial ttl, detached_initial ttl, fun i => ?_⟩
  rcases tasks_initial ttl i with heq | ⟨c, -, heq⟩ <;> rw [heq] <;> exact ⟨nofun, nofun, nofun⟩

/-- In a run in which no search by key finds a later session, the sessions of one `live_id` are isolated. -/
theorem generations_isolated (ttl : Bool) (acts : List Action)
    (h : EachStep step FindsNoLater (World.initial ttl) acts) :
    EachStep step Isolated (World.initial ttl) acts :=
  h.imp (fun _ _ _ hw hc hstep => ⟨hw.step hc hstep, hw.isolated hc⟩) (attributed_initial ttl)

/-- An RTSP session is recorded and stopped, its connection has ended its lifecycle, and a second session of
the key is registered before the connection and its sink are done. -/
def restartAfterEnd : List Action :=
  handles .rtsp (.precreateStream "x") 5 ++ .record "x" :: goes 3 6 ++
    handles .rtsp (.stopStream "x") 2 ++ goes 2 2 ++ .run 3 .finish :: goes 3 2 ++
    handles .rtsp (.precreateStream "x") 5 ++ .run 4 .finish :: goes 3 1

theorem generations_isolated_restart :
    EachStep step Isolated (World.initial false) restartAfterEnd ∧
      ∃ w ∈ run step (World.initial false) restartAfterEnd, w.Later 0 1 ∧
        (w.tasks 3).worksFor 0 ∧ w.isCancelled (w.token 1) = false :=
  ⟨generations_isolated false restartAfterEnd (by decide +kernel), by decide +kernel⟩

/-- The same session is stopped and registered again while its connection still records. -/
def restartWhileRecording : List Action :=
  handles .rtsp (.precreateStream "x") 5 ++ .record "x" :: goes 3 6 ++
    handles .rtsp (.stopStream "x") 2 ++ goes 2 2 ++ handles .rtsp (.precreateStream "x") 5

/-- The first session's sink then broadcasts a tag and its connection ends: the tag reaches the second
session's channel, that channel is removed and the second session's token is cancelled. -/
theorem earlier_session_ends_later : ∃ w ∈ run step (World.initial false) restartWhileRecording,
    ∃ w' ∈ run step w (goes 4 1 ++ .run 3 .finish :: goes 3 6),
      w.Later 0 1 ∧ w.liveId 0 = w.liveId 1 ∧ (w.tasks 3).worksFor 0 ∧ (w.tasks 4).worksFor 0 ∧
      (w.isCancelled (w.token 1) = false ∧ w.channels "x" = some 1 ∧ w.delivered = []) ∧
      w'.isCancelled (w.token 1) = true ∧ w'.channels "x" = none ∧ w'.delivered = [(0, 1)] := by
  decide +kernel

end LivestreamRs.Sessions
