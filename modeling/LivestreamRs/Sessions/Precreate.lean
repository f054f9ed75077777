import LivestreamRs.Sessions.Control

/-! # Two servers precreating one key

The RTMP and the RTSP loop check the shared registry before they build a lifecycle and register it. The check
and the registration are two operations, and nothing keeps the other loop from running in between. In a run
in which no loop checks a key that the other one is about to register, at most one request per key is
acknowledged, and a refused request leaves the session alone.
-/
namespace LivestreamRs.Sessions
open Foundations
set_option autoImplicit false

/-- The two control loops handle `PrecreateStream` messages. -/
def PrecreateOnly : Action → Prop
  | .run _ (.receive (.stopStream _)) => False
  | .run i _ => i = loopIndex .rtmp ∨ i = loopIndex .rtsp
  | _ => False

/-- A loop does not check a key that the other one has checked and not yet registered. -/
def SerialChecks (w : World) : Action → Prop
  | .run _ (.receive (.precreateStream x)) =>
    (w.loop .rtmp).phase.precreates ≠ some x ∧ (w.loop .rtsp).phase.precreates ≠ some x
  | _ => True

/-- No key has two acknowledged requests, nothing is cancelled, no session has ended. -/
def OneWinner (w : World) : Prop :=
  (∀ x, w.acks.count (x, true) ≤ 1) ∧ w.fired = [] ∧ w.events = []

/-- After the step there is at most one winner per key, and every registered session is as it was. -/
def KeepsWinner (w : World) (a : Action) : Prop :=
  ∀ w', step w a = some w' → OneWinner w' ∧ ∀ x g, w.registry x = some g →
    w'.registry x = some g ∧ (w'.generations g).state = (w.generations g).state

/-! ## The steps of a loop -/

/-- What a loop does when no registration fails and no lifecycle is replaced. -/
inductive PrecreateStep (w : World) (c : Core) : Phase → Op → Task → Prop
  | refuse (x : LiveId) (g : ℕ) (h : w.registry x = some g) :
      PrecreateStep w c (.idle c) (.ack x false) { phase := .idle c }
  | check (x : LiveId) (h : w.registry x = none)
      (hserial : ∀ c', (w.loop c').phase.precreates ≠ some x) :
      PrecreateStep w c (.idle c) .skip { phase := .createChannel c x }
  | create (x : LiveId) :
      PrecreateStep w c (.createChannel c x) (.createChannel x) { phase := .newLifecycle c x }
  | lifecycle (x : LiveId) : PrecreateStep w c (.newLifecycle c x) (.newLifecycle c x)
      { phase := .precreate .register c x w.generationCount }
  | register (x : LiveId) (g : ℕ) : PrecreateStep w c (.precreate .register c x g) (.register g)
      { phase := .precreate .describe c x g }
  | describe (x : LiveId) (g : ℕ) : PrecreateStep w c (.precreate .describe c x g) (.ack x true)
      { phase := .precreate .insert c x g }
  | insert (x : LiveId) (g : ℕ) (p : Phase) (hp : p = .precreate .spawnTtl c x g ∨ p = .idle c) :
      PrecreateStep w c (.precreate .insert c x g) (.insertPending c x g) { phase := p }
  | spawn (x : LiveId) (g : ℕ) : PrecreateStep w c (.precreate .spawnTtl c x g)
      (.spawn (.ttl .wait c x g)) { phase := .idle c }

/-! ## The invariant -/

def Phase.precreateLoop : Phase → Option Core
  | idle c | createChannel c _ | newLifecycle c _ | precreate _ c _ _ => some c
  | _ => none

structure Serial (w : World) : Prop where
  wellFormed : WellFormed w
  calm : ∀ i, (w.tasks i).disconnecting = none
  loops : ∀ c, (w.loop c).phase.precreateLoop = some c
  live : w.fired = [] ∧ w.events = []
  unchecked : ∀ i x, (w.tasks i).phase.precreates = some x → w.registry x = none ∧
    ∀ j, (w.tasks j).phase.precreates = some x → j = i
  unpending : ∀ i stage c x g, (w.tasks i).phase = .precreate stage c x g →
    stage = .describe ∨ stage = .insert → w.registry x = some g ∧ ∀ c', w.pending c' x = none
  unacked : ∀ i c x g, (w.tasks i).phase = .precreate .describe c x g → (x, true) ∉ w.acks
  pending : ∀ c x g, w.pending c x = some g → w.registry x ≠ none
  acked : ∀ x, (x, true) ∈ w.acks → w.registry x ≠ none
  once : ∀ x, w.acks.count (x, true) ≤ 1

/-- The invariant rules out the branches in which a lifecycle is dropped. -/
theorem precreateStep_of_next {w : World} {c : Core} {choice : Choice} {op : Op} {t : Task}
    (hw : Serial w) (ha : PrecreateOnly (.run (loopIndex c) choice))
    (hs : SerialChecks w (.run (loopIndex c) choice))
    (hnext : (w.loop c).next w choice = some (op, t)) : PrecreateStep w c (w.loop c).phase op t := by
  have hkey := (hw.wellFormed.task (loopIndex c)).key
  have hunchecked := hw.unchecked (loopIndex c)
  have hunpending := hw.unpending (loopIndex c)
  have hloop := hw.loops c
  change ∀ g x, (w.loop c).phase.generation = some g → (w.loop c).phase.key = some x → _ at hkey
  change ∀ x, (w.loop c).phase.precreates = some x → _ at hunchecked
  change ∀ stage c' x g, (w.loop c).phase = .precreate stage c' x g → _ at hunpending
  obtain ⟨p, hp⟩ : ∃ p, w.loop c = { phase := p } :=
    ⟨(w.loop c).phase, by rw [← hw.calm (loopIndex c)]; rfl⟩
  rw [hp] at hnext hkey hunchecked hunpending hloop ⊢
  simp only [Task.next] at hnext
  cases p with
  | idle c' =>
    obtain rfl := Option.some.inj hloop
    cases choice with
    | receive msg =>
      cases msg with
      | precreateStream x =>
        simp only [Phase.next, controlNext, receive, reduceCtorEq, if_false] at hnext
        split at hnext <;> obtain ⟨rfl, rfl⟩ := Prod.mk.inj (Option.some.inj hnext)
        · next g hx => exact .refuse x g hx
        · next hx =>
          refine .check x hx fun c' => ?_
          cases c'
          · exact hs.1
          · exact hs.2
      | stopStream x => exact ha.elim
    | finish => simp [Phase.next, controlNext, World.isCancelled, hw.live.1] at hnext
    | _ => simp [Phase.next, controlNext, abortNext, Phase.awaiting] at hnext
  | createChannel c' x =>
    obtain rfl := Option.some.inj hloop
    cases choice <;> simp [Phase.next, controlNext, abortNext, Phase.awaiting] at hnext
    obtain ⟨rfl, rfl⟩ := hnext
    exact .create x
  | newLifecycle c' x =>
    obtain rfl := Option.some.inj hloop
    cases choice <;> simp [Phase.next, controlNext, abortNext, Phase.awaiting] at hnext
    obtain ⟨rfl, rfl⟩ := hnext
    exact .lifecycle x
  | precreate stage c' x g =>
    obtain rfl := Option.some.inj hloop
    cases stage with
    | register =>
      cases choice <;> simp [Phase.next, controlNext, abortNext, Phase.awaiting] at hnext
      rw [hkey g x rfl rfl, (hunchecked x rfl).1] at hnext
      simp at hnext
      obtain ⟨rfl, rfl⟩ := hnext
      exact .register x g
    | describe =>
      cases choice <;> simp [Phase.next, controlNext, abortNext, Phase.awaiting] at hnext
      rw [(hunpending .describe c' x g rfl (.inl rfl)).1] at hnext
      simp at hnext
      obtain ⟨rfl, rfl⟩ := hnext
      exact .describe x g
    | insert =>
      cases choice <;> simp [Phase.next, controlNext, abortNext, Phase.awaiting] at hnext
      rw [(hunpending .insert c' x g rfl (.inr rfl)).2 c'] at hnext
      simp at hnext
      obtain ⟨-, rfl, rfl⟩ := hnext
      refine .insert x g _ ?_
      split
      · exact .inl rfl
      · exact .inr rfl
    | spawnTtl =>
      cases choice <;> simp [Phase.next, controlNext, abortNext, Phase.awaiting] at hnext
      obtain ⟨rfl, rfl⟩ := hnext
      exact .spawn x g
  | _ => cases hloop

/-! ## One step -/

theorem loopIndex_injective {c c' : Core} (h : loopIndex c = loopIndex c') : c = c' := by
  cases c <;> cases c' <;> first | rfl | cases h

section Step
variable {w : World} {c : Core} {op : Op} {t : Task}

theorem PrecreateStep.live (h : PrecreateStep w c (w.loop c).phase op t) :
    (w.apply op).fired = w.fired ∧ (w.apply op).events = w.events := by
  generalize (w.loop c).phase = p at h
  cases h
  case create => simp only [World.apply]; split <;> exact ⟨rfl, rfl⟩
  all_goals exact ⟨rfl, rfl⟩

theorem PrecreateStep.calm (h : PrecreateStep w c (w.loop c).phase op t) : t.disconnecting = none := by
  generalize (w.loop c).phase = p at h
  cases h <;> rfl

theorem PrecreateStep.precreateLoop (h : PrecreateStep w c (w.loop c).phase op t) :
    t.phase.precreateLoop = some c := by
  generalize (w.loop c).phase = p at h
  cases h with
  | insert x g p hp => rcases hp with rfl | rfl <;> rfl
  | _ => rfl

theorem PrecreateStep.spawned (h : PrecreateStep w c (w.loop c).phase op t) {p : Phase}
    (hp : op.spawned = some p) : p.precreates = none ∧ ∀ stage c' x g, p ≠ .precreate stage c' x g := by
  generalize (w.loop c).phase = q at h
  cases h <;> cases hp <;> exact ⟨rfl, nofun⟩

theorem PrecreateStep.precreates (h : PrecreateStep w c (w.loop c).phase op t) {x : LiveId}
    (hx : t.phase.precreates = some x) : (∀ g, op ≠ .register g) ∧
      ((w.loop c).phase.precreates = some x ∨
        (w.registry x = none ∧ ∀ c', (w.loop c').phase.precreates ≠ some x)) := by
  generalize hq : (w.loop c).phase = q at h
  cases h with
  | check y hy hserial =>
    obtain rfl := Option.some.inj hx
    exact ⟨nofun, .inr ⟨hy, hserial⟩⟩
  | create y => exact ⟨nofun, .inl hx⟩
  | lifecycle y => exact ⟨nofun, .inl hx⟩
  | insert y g p hp => rcases hp with rfl | rfl <;> cases hx
  | _ => cases hx

theorem PrecreateStep.not_unregister (h : PrecreateStep w c (w.loop c).phase op t) (g : ℕ) :
    op ≠ .unregister g := by
  generalize (w.loop c).phase = p at h
  cases h <;> nofun

/-- A task in a phase of `PrecreateStream` is one of the loops. -/
theorem Serial.loop_of_precreates (hw : Serial w) {j : ℕ} {x : LiveId}
    (h : (w.tasks j).phase.precreates = some x) : ∃ c', j = loopIndex c' := by
  have hcontrol : ∃ c', (w.tasks j).phase.control = some c' := by
    unfold Phase.precreates at h
    split at h
    case h_4 => cases h
    all_goals
      next hp => exact ⟨_, by rw [hp, Phase.control]⟩
  obtain ⟨c', hc'⟩ := hcontrol
  exact ⟨c', (hw.wellFormed.task j).control c' hc'⟩

theorem Serial.loops_after (hw : Serial w) (h : PrecreateStep w c (w.loop c).phase op t) (c' : Core) :
    (((w.apply op).setTask (loopIndex c) t).loop c').phase.precreateLoop = some c' := by
  by_cases hc : loopIndex c' = loopIndex c
  · obtain rfl := loopIndex_injective hc
    rw [World.loop, setTask_tasks_self]
    exact h.precreateLoop
  · have hlt : loopIndex c' < w.taskCount := by
      by_contra hge
      have hloop := hw.loops c'
      rw [World.loop, hw.wellFormed.fresh _ (not_lt.mp hge)] at hloop
      cases hloop
    simp only [World.loop, World.setTask, Function.update_of_ne hc]
    rw [apply_tasks_of_lt hlt]
    exact hw.loops c'

theorem Serial.register_free (hw : Serial w) (h : PrecreateStep w c (w.loop c).phase op t) {g : ℕ}
    (hop : op = .register g) :
    (w.loop c).phase.precreates = some (w.liveId g) ∧ w.registry (w.liveId g) = none := by
  generalize hq : (w.loop c).phase = q at h
  subst hop
  cases h with
  | register x =>
    have hkey : w.liveId g = x := (hw.wellFormed.task (loopIndex c)).key g x
      (by rw [← World.loop, hq, Phase.generation]) (by rw [← World.loop, hq, Phase.key])
    have hx : (w.loop c).phase.precreates = some x := by rw [hq, Phase.precreates]
    rw [hkey]
    exact ⟨rfl, (hw.unchecked (loopIndex c) x hx).1⟩

theorem Serial.registry_after (hw : Serial w) (h : PrecreateStep w c (w.loop c).phase op t) {x : LiveId}
    {g : ℕ} (hx : w.registry x = some g) : (w.apply op).registry x = some g :=
  registry_apply (fun _ hop => (hw.register_free h hop).2) (fun g hop => absurd hop (h.not_unregister g)) hx

theorem Serial.registry_ne_none_after (hw : Serial w) (h : PrecreateStep w c (w.loop c).phase op t)
    {x : LiveId} (hx : w.registry x ≠ none) : (w.apply op).registry x ≠ none := by
  obtain ⟨g, hg⟩ := Option.ne_none_iff_exists'.mp hx
  rw [hw.registry_after h hg]
  exact Option.some_ne_none g

/-- A key that a loop is about to register stays free unless that loop registers it. -/
theorem registry_free_apply {x : LiveId}
    (hx : w.registry x = none) (hother : ∀ g, op = .register g → w.liveId g ≠ x) :
    (w.apply op).registry x = none := by
  cases hx' : (w.apply op).registry x with
  | none => rfl
  | some g =>
    rcases registry_of_apply hx' with ⟨hop, hkey⟩ | hold
    · exact absurd hkey.symm (hother g hop)
    · rw [hx] at hold
      cases hold

theorem Serial.unchecked_after (hw : Serial w) (h : PrecreateStep w c (w.loop c).phase op t) (j : ℕ)
    (x : LiveId) (hj : (((w.apply op).setTask (loopIndex c) t).tasks j).phase.precreates = some x) :
    (w.apply op).registry x = none ∧
      ∀ j', (((w.apply op).setTask (loopIndex c) t).tasks j').phase.precreates = some x → j' = j := by
  -- after the step as before it, a task that precreates `x` is the loop of the step or was there already
  have hwas : ∀ k, (((w.apply op).setTask (loopIndex c) t).tasks k).phase.precreates = some x →
      (k = loopIndex c ∧ t.phase.precreates = some x) ∨
        (k ≠ loopIndex c ∧ (w.tasks k).phase.precreates = some x) := by
    intro k hk
    rcases tasks_after w op (loopIndex c) t k with ⟨rfl, heq⟩ | ⟨hne, heq | ⟨p, hspawn, heq⟩⟩ <;>
      rw [heq] at hk
    · exact .inl ⟨rfl, hk⟩
    · exact .inr ⟨hne, hk⟩
    · rw [(h.spawned hspawn).1] at hk
      cases hk
  -- and not both
  have hexcl : t.phase.precreates = some x → ∀ k, k ≠ loopIndex c →
      (w.tasks k).phase.precreates ≠ some x := by
    intro ht k hne hk
    rcases (h.precreates ht).2 with hold | ⟨-, hserial⟩
    · exact hne ((hw.unchecked (loopIndex c) x hold).2 k hk)
    · obtain ⟨c', rfl⟩ := hw.loop_of_precreates hk
      exact hserial c' hk
  rcases hwas j hj with ⟨rfl, ht⟩ | ⟨hne, hold⟩
  · obtain ⟨hop, hfrom⟩ := h.precreates ht
    refine ⟨registry_free_apply ?_ fun g hg => absurd hg (hop g), fun j' hj' => ?_⟩
    · exact hfrom.elim (fun hold => (hw.unchecked (loopIndex c) x hold).1) fun hnew => hnew.1
    · rcases hwas j' hj' with ⟨heq, -⟩ | ⟨hne', hold'⟩
      · exact heq
      · exact absurd hold' (hexcl ht j' hne')
  · obtain ⟨hx, huniq⟩ := hw.unchecked j x hold
    refine ⟨registry_free_apply hx fun g hop hkey => ?_, fun j' hj' => ?_⟩
    · subst hkey
      exact hne (huniq (loopIndex c) (hw.register_free h hop).1).symm
    · rcases hwas j' hj' with ⟨-, ht⟩ | ⟨-, hold'⟩
      · exact absurd hold (hexcl ht j hne)
      · exact huniq j' hold'

/-- A key is past its registration in at most one loop. -/
theorem Serial.stage_owner (hw : Serial w) {i j : ℕ} {stage stage' : PrecreateStage} {c₁ c₂ : Core}
    {x : LiveId} {g g' : ℕ} (hi : (w.tasks i).phase = .precreate stage c₁ x g)
    (hj : (w.tasks j).phase = .precreate stage' c₂ x g') (hs : stage = .describe ∨ stage = .insert)
    (hs' : stage' = .describe ∨ stage' = .insert) : i = j := by
  have hg := (hw.unpending i stage c₁ x g hi hs).1
  rw [(hw.unpending j stage' c₂ x g' hj hs').1, Option.some.injEq] at hg
  subst hg
  exact hw.wellFormed.register_owner hi hj

theorem PrecreateStep.staged (h : PrecreateStep w c (w.loop c).phase op t) {j : ℕ} {p : Phase}
    {stage : PrecreateStage} {c' : Core} {x : LiveId} {g : ℕ} (hp : p = .precreate stage c' x g)
    (hj : (((w.apply op).setTask (loopIndex c) t).tasks j).phase = p) :
    (j = loopIndex c ∧ t.phase = p) ∨ (j ≠ loopIndex c ∧ (w.tasks j).phase = p) := by
  rcases tasks_after w op (loopIndex c) t j with ⟨rfl, heq⟩ | ⟨hne, heq | ⟨q, hspawn, heq⟩⟩ <;>
    rw [heq] at hj
  · exact .inl ⟨rfl, hj⟩
  · exact .inr ⟨hne, hj⟩
  · exact absurd (hj.trans hp) ((h.spawned hspawn).2 stage c' x g)

theorem Serial.pending_none (hw : Serial w) {x : LiveId} (hx : w.registry x = none) (c' : Core) :
    w.pending c' x = none := by
  cases hp : w.pending c' x with
  | none => rfl
  | some g => exact absurd hx (hw.pending c' x g hp)

theorem Serial.unpending_after (hw : Serial w) (h : PrecreateStep w c (w.loop c).phase op t) (j : ℕ)
    (stage : PrecreateStage) (c' : Core) (x : LiveId) (g : ℕ)
    (hj : (((w.apply op).setTask (loopIndex c) t).tasks j).phase = .precreate stage c' x g)
    (hs : stage = .describe ∨ stage = .insert) :
    (w.apply op).registry x = some g ∧ ∀ c₀, (w.apply op).pending c₀ x = none := by
  rcases h.staged rfl hj with ⟨rfl, ht⟩ | ⟨hne, hold⟩
  · have hfree := fun g hop => hw.register_free h (g := g) hop
    have hunpending := hw.unpending (loopIndex c)
    have hkey := (hw.wellFormed.task (loopIndex c)).key
    rw [← World.loop] at hunpending hkey
    generalize hq : (w.loop c).phase = q at h hunpending hkey
    cases h with
    | register y g₀ =>
      obtain ⟨rfl, rfl, rfl, rfl⟩ := Phase.precreate.inj ht
      have hy : w.liveId g₀ = y := hkey g₀ y rfl rfl
      subst hy
      refine ⟨by simp [World.apply, World.spawn], fun c₀ => ?_⟩
      exact hw.pending_none (hfree g₀ rfl).2 c₀
    | describe y g₀ =>
      obtain ⟨rfl, rfl, rfl, rfl⟩ := Phase.precreate.inj ht
      exact hunpending .describe c y g₀ rfl (.inl rfl)
    | insert y g₀ p hp =>
      rcases hp with rfl | rfl
      · obtain ⟨rfl, -⟩ := Phase.precreate.inj ht
        rcases hs with hs | hs <;> cases hs
      · cases ht
    | lifecycle y =>
      obtain ⟨rfl, -⟩ := Phase.precreate.inj ht
      rcases hs with hs | hs <;> cases hs
    | _ => cases ht
  · obtain ⟨hx, hpending⟩ := hw.unpending j stage c' x g hold hs
    refine ⟨hw.registry_after h hx, fun c₀ => ?_⟩
    cases hp : (w.apply op).pending c₀ x with
    | none => rfl
    | some g' =>
      rcases pending_of_apply hp with rfl | hp
      · generalize hq : (w.loop c).phase = q at h
        cases h with
        | insert => exact absurd (hw.stage_owner hold hq hs (.inr rfl)) hne
      · rw [hpending c₀] at hp
        cases hp

theorem PrecreateStep.acks (h : PrecreateStep w c (w.loop c).phase op t) :
    (w.apply op).acks = w.acks ∨ (∃ x, (w.apply op).acks = w.acks ++ [(x, false)]) ∨
      ∃ x g, (w.loop c).phase = .precreate .describe c x g ∧ (w.apply op).acks = w.acks ++ [(x, true)] := by
  generalize (w.loop c).phase = p at h
  cases h with
  | refuse x => exact .inr (.inl ⟨x, rfl⟩)
  | describe x g => exact .inr (.inr ⟨x, g, rfl, rfl⟩)
  | create x =>
    simp only [World.apply]
    split <;> exact .inl rfl
  | _ => exact .inl rfl

theorem Serial.unacked_after (hw : Serial w) (h : PrecreateStep w c (w.loop c).phase op t) (j : ℕ)
    (c' : Core) (x : LiveId) (g : ℕ)
    (hj : (((w.apply op).setTask (loopIndex c) t).tasks j).phase = .precreate .describe c' x g) :
    (x, true) ∉ (w.apply op).acks := by
  rcases h.staged rfl hj with ⟨rfl, ht⟩ | ⟨hne, hold⟩
  · -- the loop has just registered the key, which no acknowledged request had
    have hunchecked := hw.unchecked (loopIndex c)
    rw [← World.loop] at hunchecked
    generalize hq : (w.loop c).phase = q at h hunchecked
    cases h with
    | register y g₀ =>
      obtain ⟨-, rfl, rfl, rfl⟩ := Phase.precreate.inj ht
      exact fun hack => hw.acked y hack (hunchecked y rfl).1
    | insert y g₀ p hp => rcases hp with rfl | rfl <;> cases ht
    | _ => cases ht
  · have hx := hw.unacked j c' x g hold
    rcases h.acks with heq | ⟨y, heq⟩ | ⟨y, g', hphase, heq⟩ <;> rw [heq]
    · exact hx
    · simpa using hx
    · have hne' : x ≠ y := by
        rintro rfl
        exact hne (hw.stage_owner hold hphase (.inl rfl) (.inl rfl))
      simpa [hne'] using hx

theorem Serial.pending_after (hw : Serial w) (h : PrecreateStep w c (w.loop c).phase op t) (c' : Core)
    (x : LiveId) (g : ℕ) (hp : (w.apply op).pending c' x = some g) : (w.apply op).registry x ≠ none := by
  refine hw.registry_ne_none_after h ?_
  rcases pending_of_apply hp with rfl | hold
  · generalize hq : (w.loop c).phase = q at h
    cases h with
    | insert =>
      rw [(hw.unpending (loopIndex c) .insert c x g hq (.inr rfl)).1]
      exact Option.some_ne_none g
  · exact hw.pending c' x g hold

theorem Serial.acked_after (hw : Serial w) (h : PrecreateStep w c (w.loop c).phase op t) (x : LiveId)
    (hx : (x, true) ∈ (w.apply op).acks) : (w.apply op).registry x ≠ none := by
  refine hw.registry_ne_none_after h ?_
  rcases h.acks with heq | ⟨y, heq⟩ | ⟨y, g, hphase, heq⟩ <;> rw [heq] at hx
  · exact hw.acked x hx
  · exact hw.acked x (by simpa using hx)
  · rcases List.mem_append.mp hx with hx | hx
    · exact hw.acked x hx
    · obtain rfl : x = y := by simpa using hx
      rw [(hw.unpending (loopIndex c) .describe c x g hphase (.inl rfl)).1]
      exact Option.some_ne_none g

theorem Serial.once_after (hw : Serial w) (h : PrecreateStep w c (w.loop c).phase op t) (x : LiveId) :
    (w.apply op).acks.count (x, true) ≤ 1 := by
  rcases h.acks with heq | ⟨y, heq⟩ | ⟨y, g, hphase, heq⟩ <;> rw [heq]
  · exact hw.once x
  · simpa [List.count_append] using hw.once x
  · by_cases hxy : x = y
    · subst hxy
      have hzero := List.count_eq_zero.mpr (hw.unacked (loopIndex c) c x g hphase)
      simp [List.count_append, hzero]
    · have hne : (y, true) ≠ (x, true) := fun heq => hxy (Prod.mk.inj heq).1.symm
      simpa [List.count_append, List.count_singleton, hne] using hw.once x

theorem PrecreateStep.state (h : PrecreateStep w c (w.loop c).phase op t) {g : ℕ}
    (hg : g < w.generationCount) : ((w.apply op).generations g).state = (w.generations g).state := by
  generalize (w.loop c).phase = p at h
  cases h with
  | create x =>
    simp only [World.apply]
    split <;> rfl
  | lifecycle x => simp [World.apply, Function.update_of_ne hg.ne]
  | register x g' =>
    by_cases hgg : g = g'
    · subst hgg
      simp [World.apply, World.spawn]
    · simp [World.apply, World.spawn, hgg]
  | _ => rfl

end Step

theorem Serial.step {w w' : World} {a : Action} (hw : Serial w) (hc : PrecreateOnly a ∧ SerialChecks w a)
    (h : step w a = some w') : Serial w' ∧ KeepsWinner w a := by
  have hwf := hw.wellFormed.step h
  cases stepped_of_step h with
  | shutdown | publish x | record x => exact hc.1.elim
  | run i choice op t hnext =>
    obtain ⟨c, rfl⟩ : ∃ c, i = loopIndex c := by
      have hc := hc.1
      unfold PrecreateOnly at hc
      split at hc
      · exact hc.elim
      · next heq =>
        obtain ⟨rfl, -⟩ := Action.run.inj heq
        exact hc.elim (fun h => ⟨.rtmp, h⟩) fun h => ⟨.rtsp, h⟩
      · exact hc.elim
    have hp := precreateStep_of_next hw hc.1 hc.2 hnext
    have hlive : (w.apply op).fired = [] ∧ (w.apply op).events = [] := by
      rw [hp.live.1, hp.live.2]
      exact hw.live
    refine ⟨⟨hwf, fun j => ?_, hw.loops_after hp, hlive, hw.unchecked_after hp, hw.unpending_after hp,
      hw.unacked_after hp, hw.pending_after hp, hw.acked_after hp, hw.once_after hp⟩, ?_⟩
    · rcases tasks_after w op (loopIndex c) t j with ⟨-, heq⟩ | ⟨-, heq | ⟨q, -, heq⟩⟩ <;> rw [heq]
      · exact hp.calm
      · exact hw.calm j
    · intro w'' h'
      obtain rfl := Option.some.inj (h.symm.trans h')
      refine ⟨⟨hw.once_after hp, hlive⟩, fun x g hx => ⟨hw.registry_after hp hx, ?_⟩⟩
      exact hp.state (hw.wellFormed.sound.lt_of_registered (hw.wellFormed.sound.registry x g hx).1)

theorem serial_initial (ttl : Bool) : Serial (World.initial ttl) := by
  refine ⟨wellFormed_initial ttl, fun i => ?_, fun c => ?_, ⟨rfl, rfl⟩, fun i x hx => ?_,
    fun i stage c x g hp => ?_, fun i c x g hp => ?_, nofun, nofun, fun x => Nat.zero_le 1⟩
  case refine_2 => cases c <;> rfl
  all_goals
    rcases tasks_initial ttl i with heq | ⟨c', -, heq⟩
  all_goals simp_all [Phase.precreates]

/-! ## Runs -/

/-- In a run in which no loop checks a key that the other is about to register, at most one request per key
is acknowledged, nothing is torn down, and no step changes a registered session. -/
theorem one_winner (ttl : Bool) (acts : List Action)
    (h : EachStep step (fun w a => PrecreateOnly a ∧ SerialChecks w a) (World.initial ttl) acts) :
    EachStep step KeepsWinner (World.initial ttl) acts :=
  h.imp (fun _ _ _ hw hc hstep => hw.step hc hstep) (serial_initial ttl)

instance : (a : Action) → Decidable (PrecreateOnly a)
  | .shutdown | .publish _ | .record _ | .run _ (.receive (.stopStream _)) => isFalse id
  | .run _ (.receive (.precreateStream _)) | .run _ .go | .run _ .fail | .run _ .finish | .run _ .abort
  | .run _ (.release _) => inferInstanceAs (Decidable (_ ∨ _))

instance (w : World) : (a : Action) → Decidable (SerialChecks w a)
  | .run _ (.receive (.precreateStream _)) => inferInstanceAs (Decidable (_ ∧ _))
  | .run _ (.receive (.stopStream _)) | .run _ .go | .run _ .fail | .run _ .finish | .run _ .abort
  | .run _ (.release _) | .shutdown | .publish _ | .record _ => isTrue trivial

/-- The RTSP loop checks the key after the RTMP loop has registered it and before that request is
acknowledged. -/
def precreateInTurn : List Action :=
  handles .rtmp (.precreateStream "x") 3 ++ handles .rtsp (.precreateStream "x") 0 ++ goes 0 3

theorem one_winner_in_turn : EachStep step KeepsWinner (World.initial true) precreateInTurn ∧
    ∃ w ∈ run step (World.initial true) precreateInTurn, w.acks = [("x", false), ("x", true)] :=
  ⟨one_winner true precreateInTurn (by decide +kernel), by decide +kernel⟩

/-- Both loops check the key before either registers it. The RTMP request wins and is acknowledged. The RTSP
request is refused, and dropping its lifecycle cancels the winner's token and reports its session ended. -/
theorem refused_request_ends_winner : ∃ w ∈ run step (World.initial false)
      (handles .rtmp (.precreateStream "x") 2 ++ handles .rtsp (.precreateStream "x") 2 ++ goes 0 3),
    ∃ w' ∈ run step w (goes 1 6),
      w.acks = [("x", true)] ∧ w.registry "x" = some 0 ∧ w.isCancelled (w.token 0) = false ∧
      w.events = [] ∧ w'.acks = [("x", true), ("x", false)] ∧ w'.isCancelled (w.token 0) = true ∧
      w'.events = [.sessionEnded "x" .rtsp .clientDisconnect] := by
  decide +kernel

end LivestreamRs.Sessions
