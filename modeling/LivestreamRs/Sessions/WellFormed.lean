import LivestreamRs.Sessions.Ownership

/-! # Well-formed worlds

Every generation has a token of its own, every map entry and every task names a generation that exists and
was made for the key it is found under, and a registration is made once. These hold along every run.
-/
namespace LivestreamRs.Sessions
open Foundations
set_option autoImplicit false

/-! ## What an operation leaves alone -/

section Frame
variable {w : World} {op : Op}

theorem apply_tasks (w : World) (op : Op) (j : ℕ) :
    (w.apply op).tasks j = w.tasks j ∨ ∃ p, op.spawned = some p ∧ (w.apply op).tasks j = { phase := p } := by
  have hspawn : ∀ (v : World) (p : Phase),
      (v.spawn p).tasks j = v.tasks j ∨ (v.spawn p).tasks j = { phase := p } := by
    intro v p
    by_cases hj : j = v.taskCount
    · exact .inr (by simp [World.spawn, hj])
    · exact .inl (by simp [World.spawn, hj])
  cases op with
  | spawn p => exact (hspawn w p).imp_right fun h => ⟨p, rfl, h⟩
  | register g => exact (hspawn _ _).imp_right fun h => ⟨_, rfl, h⟩
  | createChannel x | broadcast x g =>
    simp only [World.apply]
    split <;> exact .inl rfl
  | _ => exact .inl rfl

theorem tasks_apply_spawn (w : World) (p : Phase) (j : ℕ) :
    (w.apply (.spawn p)).tasks j = w.tasks j ∨ (w.apply (.spawn p)).tasks j = { phase := p } := by
  rcases apply_tasks w (.spawn p) j with heq | ⟨q, hq, heq⟩
  · exact .inl heq
  · exact .inr (Option.some.inj hq ▸ heq)

theorem taskCount_le_apply : w.taskCount ≤ (w.apply op).taskCount := by
  cases op
  case createChannel | broadcast => simp only [World.apply]; split <;> exact le_rfl
  case spawn | register => exact Nat.le_succ _
  all_goals exact le_rfl

theorem apply_tasks_of_le {j : ℕ} (hj : (w.apply op).taskCount ≤ j) : (w.apply op).tasks j = w.tasks j := by
  cases op
  case createChannel | broadcast => simp only [World.apply]; split <;> rfl
  case spawn | register =>
    simp only [World.apply, World.spawn] at hj ⊢
    rw [Function.update_of_ne (by omega)]
  all_goals rfl

theorem apply_tasks_of_lt {j : ℕ} (hj : j < w.taskCount) : (w.apply op).tasks j = w.tasks j := by
  cases op
  case createChannel | broadcast => simp only [World.apply]; split <;> rfl
  case spawn | register =>
    simp only [World.apply, World.spawn]
    rw [Function.update_of_ne hj.ne]
  all_goals rfl

@[simp]
theorem setTask_tasks_self (v : World) (i : ℕ) (t : Task) : (v.setTask i t).tasks i = t := by
  simp [World.setTask]

theorem tasks_after (w : World) (op : Op) (i : ℕ) (t : Task) (j : ℕ) :
    (j = i ∧ ((w.apply op).setTask i t).tasks j = t) ∨
      (j ≠ i ∧ (((w.apply op).setTask i t).tasks j = w.tasks j ∨
        ∃ p, op.spawned = some p ∧ ((w.apply op).setTask i t).tasks j = { phase := p })) := by
  by_cases hj : j = i
  · exact .inl ⟨hj, by rw [hj, setTask_tasks_self]⟩
  · have heq : ((w.apply op).setTask i t).tasks j = (w.apply op).tasks j := by simp [World.setTask, hj]
    rw [heq]
    exact .inr ⟨hj, apply_tasks w op j⟩

theorem generationCount_le_apply : w.generationCount ≤ (w.apply op).generationCount := by
  cases op
  case createChannel | broadcast => simp only [World.apply]; split <;> exact le_rfl
  case newLifecycle => exact Nat.le_succ _
  all_goals exact le_rfl

/-- No operation changes the identity of a generation that exists. -/
theorem apply_identity {g : ℕ} (hg : g < w.generationCount) :
    (w.apply op).liveId g = w.liveId g ∧ (w.apply op).token g = w.token g ∧
      ((w.apply op).generations g).protocol = (w.generations g).protocol := by
  cases op
  case createChannel | broadcast => simp only [World.apply]; split <;> exact ⟨rfl, rfl, rfl⟩
  case newLifecycle c x =>
    simp [World.apply, World.liveId, World.token, Function.update_of_ne hg.ne]
  case register g' | setState g' s | setConnected g' | setDisconnected g' =>
    by_cases h : g = g'
    · subst h
      simp [World.apply, World.liveId, World.token, World.setGeneration, World.spawn]
    · simp [World.apply, World.liveId, World.token, World.setGeneration, World.spawn, h]
  all_goals exact ⟨rfl, rfl, rfl⟩

theorem apply_registeredAt_of_ne {g : ℕ} (hop : op ≠ .register g) (hg : g < w.generationCount) :
    (w.apply op).registeredAt g = w.registeredAt g := by
  cases op
  case createChannel | broadcast => simp only [World.apply]; split <;> rfl
  case newLifecycle c x => simp [World.apply, World.registeredAt, Function.update_of_ne hg.ne]
  case register g' =>
    have h : g ≠ g' := fun h => hop (h ▸ rfl)
    simp [World.apply, World.registeredAt, World.spawn, h]
  case setState g' s | setConnected g' | setDisconnected g' =>
    by_cases h : g = g'
    · subst h
      simp [World.apply, World.registeredAt, World.setGeneration]
    · simp [World.apply, World.registeredAt, World.setGeneration, h]
  all_goals rfl

theorem registeredAt_of_apply {g n : ℕ} (h : (w.apply op).registeredAt g = some n) :
    (op = .register g ∧ n = w.registrationCount) ∨ w.registeredAt g = some n := by
  cases op
  case createChannel | broadcast => simp only [World.apply] at h; split at h <;> exact .inr h
  case newLifecycle c x =>
    by_cases hg : g = w.generationCount
    · simp [World.apply, World.registeredAt, hg] at h
    · simp only [World.apply, World.registeredAt, Function.update_of_ne hg] at h
      exact .inr h
  case register g' =>
    by_cases hg : g = g'
    · subst hg
      simp only [World.apply, World.registeredAt, World.spawn, Function.update_self, Option.some.injEq] at h
      exact .inl ⟨rfl, h.symm⟩
    · simp only [World.apply, World.registeredAt, World.spawn, Function.update_of_ne hg] at h
      exact .inr h
  case setState g' s | setConnected g' | setDisconnected g' =>
    by_cases hg : g = g'
    · subst hg
      simp only [World.apply, World.registeredAt, World.setGeneration, Function.update_self] at h
      exact .inr h
    · simp only [World.apply, World.registeredAt, World.setGeneration, Function.update_of_ne hg] at h
      exact .inr h
  all_goals exact .inr h

theorem registry_of_apply {x : LiveId} {g : ℕ} (h : (w.apply op).registry x = some g) :
    (op = .register g ∧ x = w.liveId g) ∨ w.registry x = some g := by
  cases op
  case createChannel | broadcast => simp only [World.apply] at h; split at h <;> exact .inr h
  case register g' | unregister g' =>
    by_cases hx : x = w.liveId g'
    · simp_all [World.apply, World.spawn]
    · simp only [World.apply, World.spawn, Function.update_of_ne hx] at h
      exact .inr h
  all_goals exact .inr h

/-- An entry stays until a cleanup of its key, since a registration replaces none. -/
theorem registry_apply {x : LiveId} {g : ℕ} (hreg : ∀ g, op = .register g → w.registry (w.liveId g) = none)
    (hun : ∀ g, op = .unregister g → w.liveId g ≠ x) (hx : w.registry x = some g) :
    (w.apply op).registry x = some g := by
  cases op
  case createChannel | broadcast => simp only [World.apply]; split <;> exact hx
  case register g' =>
    have hne : x ≠ w.liveId g' := by
      rintro rfl
      rw [hreg g' rfl] at hx
      cases hx
    simp [World.apply, World.spawn, hne, hx]
  case unregister g' => simp [World.apply, (hun g' rfl).symm, hx]
  all_goals exact hx

theorem channels_apply {x : LiveId} {ch : ℕ} (h : w.channels x = some ch)
    (hop : op ≠ .removeChannel x) : (w.apply op).channels x = some ch := by
  cases op
  case createChannel y =>
    simp only [World.apply]
    split
    · exact h
    · next hy =>
      have hne : x ≠ y := by rintro rfl; rw [h] at hy; cases hy
      simp [hne, h]
  case broadcast => simp only [World.apply]; split <;> exact h
  case removeChannel y =>
    have hne : x ≠ y := fun hxy => hop (hxy ▸ rfl)
    simp [World.apply, hne, h]
  all_goals exact h

theorem channels_of_apply {x : LiveId} {ch : ℕ} (h : (w.apply op).channels x = some ch) :
    w.channels x = some ch ∨ (ch = w.channelCount ∧ (w.apply op).channelCount = w.channelCount + 1) := by
  cases op
  case createChannel y =>
    cases hy : w.channels y with
    | some ch' =>
      simp only [World.apply, hy] at h
      exact .inl h
    | none =>
      simp only [World.apply, hy] at h
      by_cases hxy : x = y
      · rw [hxy, Function.update_self, Option.some.injEq] at h
        exact .inr ⟨h.symm, by simp only [World.apply, hy]⟩
      · rw [Function.update_of_ne hxy] at h
        exact .inl h
  case broadcast => simp only [World.apply] at h; split at h <;> exact .inl h
  case removeChannel y =>
    by_cases hxy : x = y
    · simp [World.apply, hxy] at h
    · simp only [World.apply, Function.update_of_ne hxy] at h
      exact .inl h
  all_goals exact .inl h

theorem channelCount_le_apply : w.channelCount ≤ (w.apply op).channelCount := by
  cases op
  case createChannel => simp only [World.apply]; split <;> simp
  case broadcast => simp only [World.apply]; split <;> exact le_rfl
  all_goals exact le_rfl

theorem setPending_apply (pending : Core → LiveId → Option ℕ) (c c' : Core) (x x' : LiveId) (v : Option ℕ) :
    setPending pending c x v c' x' = if c' = c ∧ x' = x then v else pending c' x' := by
  by_cases hc : c' = c
  · subst hc
    simp [setPending, Function.update_apply]
  · simp [setPending, hc]

theorem pending_of_apply {c : Core} {x : LiveId} {g : ℕ} (h : (w.apply op).pending c x = some g) :
    op = .insertPending c x g ∨ w.pending c x = some g := by
  cases op
  case createChannel | broadcast => simp only [World.apply] at h; split at h <;> exact .inr h
  case insertPending c' x' g' =>
    simp only [World.apply, setPending_apply] at h
    split at h
    · next hkey =>
      cases h
      exact .inl (by rw [hkey.1, hkey.2])
    · exact .inr h
  case removePending c' x' =>
    simp only [World.apply, setPending_apply] at h
    split at h
    · cases h
    · exact .inr h
  all_goals exact .inr h

theorem registrationCount_le_apply : w.registrationCount ≤ (w.apply op).registrationCount := by
  cases op
  case createChannel | broadcast => simp only [World.apply]; split <;> exact le_rfl
  case register => exact Nat.le_succ _
  all_goals exact le_rfl

theorem lt_generationCount_of_apply {g : ℕ} (h : g < (w.apply op).generationCount) :
    g < w.generationCount ∨ ∃ c x, op = .newLifecycle c x ∧ g = w.generationCount := by
  cases op
  case createChannel | broadcast => simp only [World.apply] at h; split at h <;> exact .inl h
  case newLifecycle c x =>
    simp only [World.apply] at h
    by_cases hg : g = w.generationCount
    · exact .inr ⟨c, x, rfl, hg⟩
    · exact .inl (by omega)
  all_goals exact .inl h

end Frame

/-! ## Well-formedness -/

structure Sound (w : World) : Prop where
  token : ∀ g < w.generationCount, ∃ c, w.token g = .child g (serverToken c)
  registered : ∀ g n, w.registeredAt g = some n → g < w.generationCount ∧ n < w.registrationCount
  unique : ∀ g g' n, w.registeredAt g = some n → w.registeredAt g' = some n → g = g'
  pending : ∀ c x g, w.pending c x = some g → g < w.generationCount ∧ w.liveId g = x
  registry : ∀ x g, w.registry x = some g → w.registeredAt g ≠ none ∧ w.liveId g = x

theorem Sound.lt_of_registered {w : World} (hw : Sound w) {g : ℕ} (h : w.registeredAt g ≠ none) :
    g < w.generationCount := by
  obtain ⟨n, hn⟩ := Option.ne_none_iff_exists'.mp h
  exact (hw.registered g n hn).1

theorem Sound.apply {w : World} {op : Op} (hw : Sound w)
    (hinsert : ∀ c x g, op = .insertPending c x g → g < w.generationCount ∧ w.liveId g = x)
    (hregister : ∀ g, op = .register g → g < w.generationCount) : Sound (w.apply op) where
  token g hg := by
    rcases lt_generationCount_of_apply hg with hold | ⟨c, x, rfl, rfl⟩
    · rw [(apply_identity hold).2.1]
      exact hw.token g hold
    · exact ⟨c, by simp [World.apply, World.token]⟩
  registered g n h := by
    rcases registeredAt_of_apply h with ⟨rfl, rfl⟩ | h
    · exact ⟨(hregister g rfl).trans_le generationCount_le_apply, Nat.lt_succ_self _⟩
    · obtain ⟨hg, hn⟩ := hw.registered g n h
      exact ⟨hg.trans_le generationCount_le_apply, hn.trans_le registrationCount_le_apply⟩
  unique g g' n h h' := by
    rcases registeredAt_of_apply h with ⟨rfl, rfl⟩ | h <;>
      rcases registeredAt_of_apply h' with ⟨heq, hn⟩ | h'
    · exact Op.register.inj heq
    · exact absurd (hw.registered g' _ h').2 (lt_irrefl _)
    · exact absurd (hw.registered g n h).2 (hn ▸ lt_irrefl _)
    · exact hw.unique g g' n h h'
  pending c x g h := by
    have hold : g < w.generationCount ∧ w.liveId g = x :=
      (pending_of_apply h).elim (hinsert c x g) (hw.pending c x g)
    exact ⟨hold.1.trans_le generationCount_le_apply, (apply_identity hold.1).1.trans hold.2⟩
  registry x g h := by
    rcases registry_of_apply h with ⟨rfl, rfl⟩ | h
    · refine ⟨?_, (apply_identity (hregister g rfl)).1⟩
      simp [World.apply, World.registeredAt, World.spawn]
    · obtain ⟨hreg, hkey⟩ := hw.registry x g h
      have hg := hw.lt_of_registered hreg
      refine ⟨?_, (apply_identity hg).1.trans hkey⟩
      by_cases hop : op = .register g
      · subst hop
        simp [World.apply, World.registeredAt, World.spawn]
      · rw [apply_registeredAt_of_ne hop hg]
        exact hreg

/-! ## The order of registrations -/

/-- Session `g'` was registered after session `g`. -/
def World.Later (w : World) (g g' : ℕ) : Prop :=
  ∃ n ∈ w.registeredAt g, ∃ n' ∈ w.registeredAt g', n < n'

instance (w : World) (g g' : ℕ) : Decidable (w.Later g g') :=
  inferInstanceAs (Decidable (∃ n ∈ _, ∃ n' ∈ _, n < n'))

section Later
variable {w : World} {op : Op} {g g' : ℕ}

theorem World.Later.registered (h : w.Later g g') : w.registeredAt g' ≠ none := by
  obtain ⟨-, -, n', hn', -⟩ := h
  rw [Option.mem_def.mp hn']
  exact Option.some_ne_none n'

/-- A session that is not later than another does not become so: only a new registration is later. -/
theorem not_later_apply (hw : Sound w) (hop : ∀ g, op = .register g → w.registeredAt g = none)
    (hreg : w.registeredAt g' ≠ none) (h : ¬w.Later g g') : ¬(w.apply op).Later g g' := by
  rintro ⟨n, hn, n', hn', hlt⟩
  rcases registeredAt_of_apply hn' with ⟨hop', -⟩ | hold'
  · exact hreg (hop g' hop')
  rcases registeredAt_of_apply hn with ⟨-, rfl⟩ | hold
  · exact absurd (hw.registered g' n' hold').2 (by omega)
  · exact h ⟨n, hold, n', hold', hlt⟩

end Later

/-! ## Tasks -/

theorem Sound.setTask {w : World} {i : ℕ} {t : Task} (hw : Sound w) : Sound (w.setTask i t) :=
  ⟨hw.token, hw.registered, hw.unique, hw.pending, hw.registry⟩

structure TaskSound (w : World) (i : ℕ) (t : Task) : Prop where
  lt : ∀ g, t.worksFor g → g < w.generationCount
  key : ∀ g x, t.phase.generation = some g → t.phase.key = some x → w.liveId g = x
  control : ∀ c, t.phase.control = some c → i = loopIndex c
  protocol : ∀ stage c x g, t.phase = .precreate stage c x g → (w.generations g).protocol = c
  unregistered : ∀ c x g, t.phase = .precreate .register c x g → w.registeredAt g = none

section TaskSound
variable {w : World} {op : Op} {i : ℕ} {t t' : Task}

theorem TaskSound.apply (ht : TaskSound w i t)
    (hop : ∀ c x g, t.phase = .precreate .register c x g → op ≠ .register g) :
    TaskSound (w.apply op) i t where
  lt g hg := (ht.lt g hg).trans_le generationCount_le_apply
  key g x hg hx := (apply_identity (ht.lt g (.inl hg))).1.trans (ht.key g x hg hx)
  control := ht.control
  protocol stage c x g hp := by
    have hg := ht.lt g (.inl (by rw [hp, Phase.generation]))
    rw [(apply_identity hg).2.2]
    exact ht.protocol stage c x g hp
  unregistered c x g hp := by
    have hg := ht.lt g (.inl (by rw [hp, Phase.generation]))
    rw [apply_registeredAt_of_ne (hop c x g hp) hg]
    exact ht.unregistered c x g hp

theorem TaskSound.moves (hw : Sound w) (ht : TaskSound w i t) (hm : Moves w t op t') :
    TaskSound (w.apply op) i t' where
  lt g hg := by
    rcases hm.label g hg with hg | ⟨c, x, hp⟩ | ⟨c, x, rfl, rfl⟩
    · exact (ht.lt g hg).trans_le generationCount_le_apply
    · exact (hw.pending c x g hp).1.trans_le generationCount_le_apply
    · exact Nat.lt_succ_self _
  key g x hg hx := by
    rcases hm.key g x hg hx with ⟨hg, hx⟩ | ⟨c, hp⟩ | ⟨c, rfl, rfl⟩
    · exact (apply_identity (ht.lt g (.inl hg))).1.trans (ht.key g x hg hx)
    · obtain ⟨hlt, hkey⟩ := hw.pending c x g hp
      exact (apply_identity hlt).1.trans hkey
    · simp [World.apply, World.liveId]
  control c hc := ht.control c (hm.control c hc)
  protocol stage c x g hp := by
    rcases hm.precreate stage c x g hp with ⟨stage', hp', -⟩ | ⟨rfl, rfl⟩
    · rw [(apply_identity (ht.lt g (.inl (by rw [hp', Phase.generation])))).2.2]
      exact ht.protocol stage' c x g hp'
    · simp [World.apply]
  unregistered c x g hp := by
    rcases hm.precreate _ c x g hp with ⟨stage', hp', hstage⟩ | ⟨rfl, rfl⟩
    · obtain rfl := hstage rfl
      have hop : op ≠ .register g := by
        intro hop
        obtain ⟨-, c', x', -, rfl⟩ := hm.registered g hop
        simp at hp
      rw [apply_registeredAt_of_ne hop (ht.lt g (.inl (by rw [hp', Phase.generation])))]
      exact ht.unregistered c x g hp'
    · simp [World.apply, World.registeredAt]

/-- A spawned task works for the session its parent works for. -/
theorem TaskSound.spawned {j : ℕ} {p : Phase} (ht : TaskSound w i t) (hm : Moves w t op t')
    (hp : op.spawned = some p) : TaskSound (w.apply op) j { phase := p } := by
  obtain ⟨hcontrol, hgen⟩ := hm.spawned p hp
  have hparent : ∀ g, p.generation = some g → g < w.generationCount := fun g hg =>
    ht.lt g (.inl (hgen g hg).1)
  refine ⟨?_, ?_, ?_, ?_, ?_⟩
  · rintro g (hg | hg)
    · exact (hparent g hg).trans_le generationCount_le_apply
    · cases hg
  · intro g x hg hx
    rw [(apply_identity (hparent g hg)).1]
    exact ht.key g x (hgen g hg).1 ((hgen g hg).2 x hx)
  · intro c hc
    rw [hcontrol] at hc
    cases hc
  · rintro stage c x g rfl
    cases hcontrol
  · rintro c x g rfl
    cases hcontrol

theorem TaskSound.setTask {j : ℕ} (ht : TaskSound w i t) : TaskSound (w.setTask j t') i t :=
  ⟨ht.lt, ht.key, ht.control, ht.protocol, ht.unregistered⟩

end TaskSound

structure WellFormed (w : World) : Prop where
  sound : Sound w
  task : ∀ i, TaskSound w i (w.tasks i)
  fresh : ∀ i, w.taskCount ≤ i → w.tasks i = {}

/-- Only the loop that created a generation registers it. -/
theorem WellFormed.register_owner {w : World} (hw : WellFormed w) {i j : ℕ} {c c' : Core} {x x' : LiveId}
    {g : ℕ} {stage stage' : PrecreateStage} (hi : (w.tasks i).phase = .precreate stage c x g)
    (hj : (w.tasks j).phase = .precreate stage' c' x' g) : i = j := by
  have hc : c = c' := by
    rw [← (hw.task i).protocol stage c x g hi]
    exact (hw.task j).protocol stage' c' x' g hj
  rw [(hw.task i).control c (by rw [hi, Phase.control]),
    (hw.task j).control c' (by rw [hj, Phase.control]), hc]

theorem WellFormed.unregistered {w : World} (hw : WellFormed w) {i : ℕ} {op : Op} {t : Task}
    (hm : Moves w (w.tasks i) op t) (g : ℕ) (hop : op = .register g) : w.registeredAt g = none := by
  obtain ⟨-, c, x, ht, -⟩ := hm.registered g hop
  exact (hw.task i).unregistered c x g (congrArg Task.phase ht)

theorem WellFormed.register_lt {w : World} (hw : WellFormed w) {i : ℕ} {op : Op} {t : Task}
    (hm : Moves w (w.tasks i) op t) (g : ℕ) (hop : op = .register g) : g < w.generationCount := by
  obtain ⟨-, c, x, ht, -⟩ := hm.registered g hop
  exact (hw.task i).lt g (.inl (by rw [ht, Phase.generation]))

theorem wellFormed_spawn {w : World} {p : Phase} (hw : WellFormed w) (hgen : p.generation = none)
    (hcontrol : p.control = none) : WellFormed (w.apply (.spawn p)) := by
  refine ⟨hw.sound.apply nofun nofun, fun j => ?_, fun j hj => ?_⟩
  swap
  · rw [apply_tasks_of_le hj]
    exact hw.fresh j (taskCount_le_apply.trans hj)
  rcases tasks_apply_spawn w p j with heq | heq <;> rw [heq]
  · exact (hw.task j).apply nofun
  · refine ⟨?_, fun g x hg => ?_, fun c hc => ?_, ?_, ?_⟩
    · rintro g (hg | hg)
      · rw [hgen] at hg
        cases hg
      · cases hg
    · rw [hgen] at hg
      cases hg
    · rw [hcontrol] at hc
      cases hc
    · rintro stage c x g rfl
      cases hgen
    · rintro c x g rfl
      cases hgen

theorem WellFormed.step {w w' : World} {a : Action} (hw : WellFormed w) (h : step w a = some w') :
    WellFormed w' := by
  cases stepped_of_step h with
  | shutdown => exact ⟨hw.sound.apply nofun nofun, fun j => (hw.task j).apply nofun, hw.fresh⟩
  | publish x => exact wellFormed_spawn hw rfl rfl
  | record x => exact wellFormed_spawn hw rfl rfl
  | run i choice op t hnext =>
    have hm := moves_next hnext
    have hsound : Sound (w.apply op) := by
      refine hw.sound.apply (fun c x g hop => ?_) (hw.register_lt hm)
      obtain ⟨hg, hx⟩ := hm.inserted c x g hop
      exact ⟨(hw.task i).lt g (.inl hg), (hw.task i).key g x hg hx⟩
    refine ⟨hsound.setTask, fun j => ?_, fun j hj => ?_⟩
    swap
    · have hold := hw.fresh j (taskCount_le_apply.trans hj)
      have hji : j ≠ i := by
        rintro rfl
        rw [hold] at hnext
        cases choice <;> cases hnext
      simp only [World.setTask, Function.update_of_ne hji]
      rw [apply_tasks_of_le hj]
      exact hold
    rcases tasks_after w op i t j with ⟨rfl, heq⟩ | ⟨hj, heq | ⟨p, hp, heq⟩⟩ <;> rw [heq]
    · exact ((hw.task j).moves hw.sound hm).setTask
    · refine ((hw.task j).apply fun c x g hphase hop => hj ?_).setTask
      obtain ⟨-, c', x', ht, -⟩ := hm.registered g hop
      exact hw.register_owner hphase (congrArg Task.phase ht)
    · exact ((hw.task i).spawned hm hp).setTask

theorem tasks_initial (ttl : Bool) (i : ℕ) : (World.initial ttl).tasks i = {} ∨
    ∃ c, i = loopIndex c ∧ (World.initial ttl).tasks i = { phase := .idle c } := by
  match i with
  | 0 => exact .inr ⟨.rtmp, rfl, rfl⟩
  | 1 => exact .inr ⟨.rtsp, rfl, rfl⟩
  | i + 2 => exact .inl rfl

theorem wellFormed_initial (ttl : Bool) : WellFormed (World.initial ttl) := by
  refine ⟨⟨nofun, nofun, nofun, nofun, nofun⟩, fun i => ?_, fun i hi => ?_⟩
  · rcases tasks_initial ttl i with heq | ⟨c, rfl, heq⟩ <;> rw [heq]
    · refine ⟨?_, nofun, nofun, nofun, nofun⟩
      rintro g (hg | hg) <;> cases hg
    · refine ⟨?_, nofun, fun c' hc' => ?_, nofun, nofun⟩
      · rintro g (hg | hg) <;> cases hg
      · rw [Option.some.inj hc']
  · obtain ⟨n, rfl⟩ := Nat.exists_eq_add_of_le' hi
    rfl

end LivestreamRs.Sessions
