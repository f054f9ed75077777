import LivestreamRs.Sessions.Tokens

/-! # Stopping an RTSP session

`StopStream` cancels the token in the registry. The read loop of an RTSP connection, its `RtspSource` and its
pipeline watch a token that `spawn_connection_handler` makes with `CancellationToken::new()`, which is not a
child of the registry's. The loop is stopped exactly in the runs in which the registry's token is never
cancelled while a connection records.
-/
namespace LivestreamRs.Sessions
open Foundations
set_option autoImplicit false

/-- A connection whose session is cancelled has its own token cancelled and forwards no further frame. -/
def StopEffective (w : World) : Prop :=
  ∀ i x g k, (w.tasks i).phase = .record .recording x g k → w.isCancelled (w.token g) = true →
    w.isCancelled k = true ∧
      ∀ choice w', step w (.run i choice) = some w' → w'.forwarded = w.forwarded

def World.fires (w : World) (a : Action) : Option Token :=
  match transition w a with
  | some (.fire u, _) => some u
  | _ => none

/-- The action cancels no session that a connection with a live token is recording, and starts no recording
of a cancelled session. -/
def SparesRecording (w : World) (a : Action) : Prop :=
  (∀ u, w.fires a = some u → ∀ i x g k, (w.tasks i).phase = .record .recording x g k →
    w.isCancelled k = false → u.covers (w.token g) = false) ∧
  ∀ i choice, a = .run i choice → ∀ x g k, w.tasks i = { phase := .record .build x g k } →
    w.isCancelled (w.token g) = true → w.isCancelled k = true

/-! ## The connection's token stops its read loop -/

def LoopCancelled (w : World) : Prop :=
  ∀ i x g k, (w.tasks i).phase = .record .recording x g k → w.isCancelled (w.token g) = true →
    w.isCancelled k = true

theorem forwarded_apply (w : World) (op : Op) :
    (w.apply op).forwarded = w.forwarded ∨ ∃ g, op = .forward g := by
  cases op
  case forward g => exact .inr ⟨g, rfl⟩
  case createChannel | broadcast => simp only [World.apply]; split <;> exact .inl rfl
  all_goals exact .inl rfl

/-- The `select!` is biased, so a connection whose token is cancelled forwards nothing. -/
theorem forwarded_of_cancelled {w w' : World} {i : ℕ} {choice : Choice} {x : LiveId} {g : ℕ} {k : Token}
    (hp : (w.tasks i).phase = .record .recording x g k) (hk : w.isCancelled k = true)
    (h : step w (.run i choice) = some w') : w'.forwarded = w.forwarded := by
  cases stepped_of_step h with
  | run _ _ op t hnext =>
    rcases forwarded_apply w op with heq | ⟨g', rfl⟩
    · exact heq
    · obtain ⟨x', k', hp', hk'⟩ := (tokenMoves_next hnext).forward g' rfl
      obtain ⟨-, -, -, rfl⟩ := Phase.record.inj (hp.symm.trans hp')
      rw [hk] at hk'
      cases hk'

theorem stopEffective_iff (w : World) : StopEffective w ↔ LoopCancelled w := by
  refine ⟨fun h i x g k hp hg => (h i x g k hp hg).1, fun h i x g k hp hg => ?_⟩
  have hk := h i x g k hp hg
  exact ⟨hk, fun choice w' hstep => forwarded_of_cancelled hp hk hstep⟩

/-! ## One step -/

structure Recorded (w : World) : Prop where
  wellFormed : WellFormed w
  detached : Detached w

theorem Recorded.lt {w : World} (hw : Recorded w) {i : ℕ} {stage : RecordStage} {x : LiveId} {g : ℕ}
    {k : Token} (hp : (w.tasks i).phase = .record stage x g k) : g < w.generationCount :=
  (hw.wellFormed.task i).lt g (.inl (by rw [hp, Phase.generation]))

/-- A token above the session's is not above the connection's. -/
theorem Recorded.not_covers {w : World} (hw : Recorded w) {i : ℕ} {stage : RecordStage} {x : LiveId}
    {g : ℕ} {k u : Token} (hp : (w.tasks i).phase = .record stage x g k)
    (hu : u.covers (w.token g) = true) : u.covers k = false := by
  rw [Bool.eq_false_iff]
  intro hk
  refine hw.detached.rootId i k (by rw [hp, Phase.cancel]) ?_
  rw [← Token.rootId_eq_of_covers hk, Token.rootId_eq_of_covers hu]
  exact hw.wellFormed.sound.token_rootId (hw.lt hp)

/-- Firing a token keeps the recorded sessions stoppable exactly when it spares them. -/
theorem loopCancelled_fire {w : World} {u : Token} (hw : Recorded w) (hP : LoopCancelled w) :
    LoopCancelled (w.apply (.fire u)) ↔ ∀ i x g k, (w.tasks i).phase = .record .recording x g k →
      w.isCancelled k = false → u.covers (w.token g) = false := by
  have hfire : ∀ t, (w.apply (.fire u)).isCancelled t = (u.covers t || w.isCancelled t) := fun _ => rfl
  constructor
  · intro h i x g k hp hk
    rw [Bool.eq_false_iff]
    intro hu
    have hlive := h i x g k hp ((hfire (w.token g)).trans (by rw [hu]; rfl))
    rw [hfire, hw.not_covers hp hu, hk] at hlive
    cases hlive
  · intro h i x g k hp hg
    have hg' : u.covers (w.token g) = true ∨ w.isCancelled (w.token g) = true := by
      rw [← Bool.or_eq_true]
      exact (hfire (w.token g)).symm.trans hg
    rw [hfire, Bool.or_eq_true]
    right
    rcases hg' with hu | hg'
    · by_contra hk
      rw [Bool.not_eq_true] at hk
      rw [h i x g k hp hk] at hu
      cases hu
    · exact hP i x g k hp hg'

theorem phase_of_disconnecting {w : World} {t t' : Task} {choice : Choice} {op : Op} {d : Disconnect}
    (hd : t.disconnecting = some d) (h : t.next w choice = some (op, t')) : t'.phase = t.phase := by
  simp only [Task.next, hd] at h
  split at h
  · obtain ⟨-, rfl⟩ := Prod.mk.inj (Option.some.inj h)
    rfl
  · cases h

/-- A task that fires a token is recording before exactly when it is afterwards. -/
theorem recording_fire_iff {w : World} {t t' : Task} {choice : Choice} {u : Token} {x : LiveId} {g : ℕ}
    {k : Token} (h : t.next w choice = some (.fire u, t')) :
    t'.phase = .record .recording x g k ↔ t.phase = .record .recording x g k := by
  have htm := tokenMoves_next h
  rcases htm.fire u rfl with ⟨g', reason, hd⟩ | ⟨hd, hfires⟩
  · rw [phase_of_disconnecting hd h]
  · constructor
    · intro hp
      rcases htm.recording x g k hp with hp | rfl
      · exact hp
      · cases hfires
    · intro hp
      rw [hp] at hfires
      cases hfires

section Run
variable {w : World} {i : ℕ} {choice : Choice} {op : Op} {t : Task}

theorem loopCancelled_run_fire {u : Token} (hnext : (w.tasks i).next w choice = some (.fire u, t)) :
    LoopCancelled ((w.apply (.fire u)).setTask i t) ↔ LoopCancelled (w.apply (.fire u)) := by
  have hphase : ∀ j x g k, (((w.apply (.fire u)).setTask i t).tasks j).phase = .record .recording x g k ↔
      (w.tasks j).phase = .record .recording x g k := by
    intro j x g k
    rcases tasks_after w (.fire u) i t j with ⟨rfl, heq⟩ | ⟨-, heq | ⟨p, hp, -⟩⟩
    · rw [heq, recording_fire_iff hnext]
    · rw [heq]
    · cases hp
  exact forall_congr' fun j => forall_congr' fun x => forall_congr' fun g => forall_congr' fun k =>
    imp_congr_left (hphase j x g k)

theorem loopCancelled_run_skip (hw : Recorded w) (hP : LoopCancelled w)
    (hnext : (w.tasks i).next w choice = some (op, t)) (hfired : (w.apply op).fired = w.fired) :
    LoopCancelled ((w.apply op).setTask i t) ↔ ∀ x g k, w.tasks i = { phase := .record .build x g k } →
      w.isCancelled (w.token g) = true → w.isCancelled k = true := by
  have htm := tokenMoves_next hnext
  have hsame : ∀ u, ((w.apply op).setTask i t).isCancelled u = w.isCancelled u := fun u =>
    congrArg (cancelled · u) hfired
  have htoken : ∀ g < w.generationCount, ((w.apply op).setTask i t).token g = w.token g := fun g hg =>
    (apply_identity hg).2.1
  constructor
  · intro h x g k hbuild hg
    have hp : (((w.apply op).setTask i t).tasks i).phase = .record .recording x g k := by
      rw [setTask_tasks_self]
      exact htm.built x g k hbuild
    have hlt := hw.lt (congrArg Task.phase hbuild)
    rw [← hsame]
    exact h i x g k hp (by rw [htoken g hlt, hsame]; exact hg)
  · intro h j x g k hp hg
    have hold : (w.tasks j).phase = .record .recording x g k ∨
        (j = i ∧ w.tasks i = { phase := .record .build x g k }) := by
      rcases tasks_after w op i t j with ⟨rfl, heq⟩ | ⟨-, heq | ⟨p, hspawn, heq⟩⟩ <;> rw [heq] at hp
      · exact (htm.recording x g k hp).imp_right fun hb => ⟨rfl, hb⟩
      · exact .inl hp
      · change p = _ at hp
        have hnone := (htm.spawned p hspawn).1
        rw [hp] at hnone
        cases hnone
    rw [hsame] at hg ⊢
    rcases hold with hold | ⟨rfl, hbuild⟩
    · rw [htoken g (hw.lt hold)] at hg
      exact hP j x g k hold hg
    · rw [htoken g (hw.lt (congrArg Task.phase hbuild))] at hg
      exact h x g k hbuild hg

end Run

theorem loopCancelled_spawn {w : World} {p : Phase} (hw : Recorded w) (hP : LoopCancelled w)
    (hp : ∀ x g k, p ≠ .record .recording x g k) : LoopCancelled (w.apply (.spawn p)) := by
  intro j x g k hphase hg
  rcases tasks_apply_spawn w p j with heq | heq <;> rw [heq] at hphase
  · rw [(apply_identity (hw.lt hphase)).2.1] at hg
    exact hP j x g k hphase hg
  · exact absurd hphase (hp x g k)

theorem loopCancelled_step {w w' : World} {a : Action} (hw : Recorded w) (hP : LoopCancelled w)
    (h : step w a = some w') : LoopCancelled w' ↔ SparesRecording w a := by
  cases stepped_of_step h with
  | shutdown =>
    rw [loopCancelled_fire hw hP]
    refine ⟨fun hspare => ⟨fun u hu => ?_, ?_⟩, fun hspare => hspare.1 mainToken rfl⟩
    · obtain rfl := Option.some.inj hu
      exact hspare
    · rintro i choice ⟨⟩
  | publish x =>
    refine iff_of_true (loopCancelled_spawn hw hP ?_) ⟨fun u hu => ?_, ?_⟩
    · rintro y g k ⟨⟩
    · simp only [World.fires, transition] at hu
      split at hu <;> simp_all
    · rintro i choice ⟨⟩
  | record x =>
    refine iff_of_true (loopCancelled_spawn hw hP ?_) ⟨fun u hu => ?_, ?_⟩
    · rintro y g k ⟨⟩
    · simp only [World.fires, transition] at hu
      split at hu <;> simp_all
    · rintro i choice ⟨⟩
  | run i choice op t hnext =>
    have hfires : ∀ u, w.fires (.run i choice) = some u ↔ op = .fire u := by
      intro u
      simp only [World.fires, transition, hnext, Option.map_some]
      cases op <;> simp
    rcases fired_apply w op with ⟨u, rfl, -⟩ | hfired
    · rw [loopCancelled_run_fire hnext, loopCancelled_fire hw hP]
      refine ⟨fun hspare => ⟨fun u' hu' => ?_, ?_⟩, fun hspare => hspare.1 u ((hfires u).mpr rfl)⟩
      · obtain rfl := Op.fire.inj ((hfires u').mp hu')
        exact hspare
      · -- a connection does not fire a token while its pipeline is built
        rintro _ _ ⟨rfl, rfl⟩ x g k hbuild
        rcases (tokenMoves_next hnext).fire u rfl with ⟨g', reason, hd⟩ | ⟨-, hphase⟩
        · rw [hbuild] at hd
          cases hd
        · rw [hbuild] at hphase
          cases hphase
    · rw [loopCancelled_run_skip hw hP hnext hfired]
      refine ⟨fun hspare => ⟨fun u hu => ?_, ?_⟩, fun hspare => hspare.2 i choice rfl⟩
      · obtain rfl := (hfires u).mp hu
        exact absurd hfired (List.cons_ne_self u w.fired)
      · rintro _ _ ⟨rfl, rfl⟩
        exact hspare

/-! ## Runs -/

/-- Stopping is effective throughout a run exactly when no step of it cancels a session that is being
recorded, or starts to record a cancelled one. -/
theorem stop_effective_iff (ttl : Bool) (acts : List Action) :
    Always step StopEffective (World.initial ttl) acts ↔
      EachStep step SparesRecording (World.initial ttl) acts := by
  refine always_iff_eachStep (I := Recorded) (fun w a w' hw h => ⟨hw.wellFormed.step h, hw.detached.step h⟩)
    (fun w a w' hw hP h => ?_) acts ⟨wellFormed_initial ttl, detached_initial ttl⟩ ?_
  · rw [stopEffective_iff] at hP ⊢
    exact loopCancelled_step hw hP h
  · rw [stopEffective_iff]
    intro i x g k hp
    rcases tasks_initial ttl i with heq | ⟨c, -, heq⟩ <;> rw [heq] at hp <;> cases hp

/-- `StopStream` has been handled for a session that is being recorded: its token is cancelled, its
connection's is not, and the connection forwards the next frame. -/
theorem frame_forwarded_after_stop :
    ∃ w ∈ run step (World.initial false) (handles .rtsp (.precreateStream "x") 5 ++
        .record "x" :: goes 3 6 ++ handles .rtsp (.stopStream "x") 2),
      ∃ w' ∈ step w (.run 3 .go),
        (w.tasks 3).phase = .record .recording "x" 0 (.child 0 (.root 3)) ∧
        w.isCancelled (w.token 0) = true ∧ w.isCancelled (.child 0 (.root 3)) = false ∧
        w.forwarded = [] ∧ w'.forwarded = [0] := by
  decide +kernel

end LivestreamRs.Sessions
