import LivestreamRs.Sessions.Claim

/-! # What an ended session leaves behind

A session ends in several tasks: its token is cancelled, the cleanup task removes its entry after a grace period,
whoever has taken its lifecycle drops it, and the connection, the TTL task or `StopStream` removes its FLV channel.
No task waits for the others. The results below say at which steps something of an ended session can be left in a
pending map or in the hub: when its entry is removed, when its last connection ends, and when its lifecycle is put
into the map.
-/
namespace LivestreamRs.Sessions
open Foundations
set_option autoImplicit false

namespace World
variable (w : World)

def Unserved (g : ℕ) : Prop := ∀ j < w.taskCount, ¬ (w.tasks j).Serves g

/-- A task becomes `t` and so ends as the last connection of a session whose entry is gone. -/
def EndsLast (i : ℕ) (t : Task) (g : ℕ) : Prop :=
  w.registry (w.liveId g) ≠ some g ∧ (w.tasks i).Serves g ∧ ¬ t.Serves g ∧
    ∀ j < w.taskCount, (w.tasks j).Serves g → j = i

/-- The session was registered, its entry is gone, and no connection serves it. -/
def Ended (g : ℕ) : Prop := w.registeredAt g ≠ none ∧ w.registry (w.liveId g) ≠ some g ∧ w.Unserved g

/-- The lifecycle of the session is in the pending map of its server. -/
def Pended (g : ℕ) : Prop := w.pending (w.generations g).protocol (w.liveId g) = some g

instance (g : ℕ) : Decidable (w.Unserved g) := inferInstanceAs (Decidable (∀ j < _, ¬ _))

instance (i : ℕ) (t : Task) (g : ℕ) : Decidable (w.EndsLast i t g) :=
  inferInstanceAs (Decidable (_ ∧ _ ∧ _ ∧ ∀ j < _, _ → _))

instance (g : ℕ) : Decidable (w.Ended g) := inferInstanceAs (Decidable (_ ∧ _ ∧ _))

instance (g : ℕ) : Decidable (w.Pended g) := inferInstanceAs (Decidable (_ = _))

end World

/-- The key whose channel an operation removes. -/
def Op.closes : Op → Option LiveId
  | .removeChannel x => some x
  | _ => none

def Op.unregisters : Op → Option ℕ
  | .unregister g => some g
  | _ => none

def Op.inserts : Op → Option (LiveId × ℕ)
  | .insertPending _ x g => some (x, g)
  | _ => none

namespace History
variable (h : History)

/-- The channel that was made or found for the session is not in the hub. -/
def Closed (g : ℕ) : Prop := ∀ ch ∈ h.channelOf g, h.world.channels (h.world.liveId g) ≠ some ch

/-- An ended session has left nothing in a pending map and nothing in the hub. -/
def NothingLeft : Prop := ∀ g, h.world.Ended g → (∀ c x, h.world.pending c x ≠ some g) ∧ h.Closed g

/-- No lifecycle that some party has taken is in a pending map. -/
def TakenGone : Prop := ∀ g, h.takers g ≠ [] → ∀ c x, h.world.pending c x ≠ some g

/-- The entry that a cleanup task removes is that of a session with nothing left, or one still served. -/
def RemovesReleased (op : Op) : Prop :=
  ∀ g₀ ∈ op.unregisters, ∀ g ∈ h.world.registry (h.world.liveId g₀), h.world.Unserved g →
    ¬ h.world.Pended g ∧ h.Closed g

/-- The last connection of a session does not leave its lifecycle pending, and closes its channel or finds it closed. -/
def LastReleases (i : ℕ) (op : Op) (t : Task) : Prop :=
  ∀ g < h.world.generationCount, h.world.EndsLast i t g →
    ¬ h.world.Pended g ∧ (op.closes = some (h.world.liveId g) ∨ h.Closed g)

/-- A lifecycle is put into a pending map only while its session has its entry. -/
def InsertsRegistered (op : Op) : Prop := ∀ k ∈ op.inserts, h.world.registry k.1 = some k.2

def CleansUp : Action → Prop
  | .run i choice => ∀ q ∈ (h.world.tasks i).next h.world choice,
    h.RemovesReleased q.1 ∧ h.LastReleases i q.1 q.2 ∧ h.InsertsRegistered q.1
  | _ => True

instance (g : ℕ) : Decidable (h.Closed g) := inferInstanceAs (Decidable (∀ ch ∈ _, _))

instance (op : Op) : Decidable (h.RemovesReleased op) :=
  inferInstanceAs (Decidable (∀ g₀ ∈ _, ∀ g ∈ _, _ → _ ∧ _))

instance (i : ℕ) (op : Op) (t : Task) : Decidable (h.LastReleases i op t) :=
  inferInstanceAs (Decidable (∀ g < _, _ → _ ∧ (_ ∨ _)))

instance (op : Op) : Decidable (h.InsertsRegistered op) := inferInstanceAs (Decidable (∀ k ∈ _, _ = _))

instance : (a : Action) → Decidable (h.CleansUp a)
  | .run _ _ => inferInstanceAs (Decidable (∀ q ∈ _, _ ∧ _ ∧ _))
  | .shutdown | .publish _ | .record _ => isTrue trivial

end History

/-! ## What a step changes -/

theorem connection_of_serves {t : Task} {g : ℕ} (h : t.Serves g) : t.phase.party = .connection := by
  rcases h with h | h
  · cases hphase : t.phase <;> rw [hphase] at h <;> first | rfl | cases h
  · exact h.1

theorem worksFor_of_serves {t : Task} {g : ℕ} (h : t.Serves g) : t.worksFor g := by
  refine h.imp (fun h => ?_) And.right
  cases hphase : t.phase <;> rw [hphase] at h <;> first | exact h | cases h

theorem taken_of_pending {w : World} {op : Op} {c : Core} {x : LiveId} {g : ℕ} (hbefore : w.pending c x = some g)
    (hafter : (w.apply op).pending c x ≠ some g) : w.taken op = some g := by
  cases op
  case createChannel | broadcast =>
    simp only [World.apply] at hafter
    split at hafter <;> exact absurd hbefore hafter
  case insertPending c' x' _ | removePending c' x' =>
    simp only [World.apply, setPending_apply] at hafter
    split at hafter
    · next hkey => rw [World.taken, ← hkey.1, ← hkey.2, hbefore]
    · exact absurd hbefore hafter
  all_goals exact absurd hbefore hafter

theorem not_serves {p : Phase} (hp : p.serves = none) (g : ℕ) : ¬ Task.Serves { phase := p } g := by
  rintro (h | ⟨-, h⟩)
  · cases hp.symm.trans h
  · cases h

theorem WellFormed.lt_of_serves {w : World} (hw : WellFormed w) {j g : ℕ} (hj : (w.tasks j).Serves g) :
    j < w.taskCount := by
  by_contra hge
  rw [hw.fresh j (not_lt.mp hge)] at hj
  exact not_serves rfl g hj

theorem WellFormed.not_serves {w : World} (hw : WellFormed w) {g : ℕ} (hg : w.Unserved g) (j : ℕ) :
    ¬ (w.tasks j).Serves g :=
  fun hj => hg j (hw.lt_of_serves hj) hj

section Step
variable {w : World} {i : ℕ} {choice : Choice} {op : Op} {t : Task}
  (hnext : (w.tasks i).next w choice = some (op, t))
include hnext

theorem serves_after {j g : ℕ} (h : (((w.apply op).setTask i t).tasks j).Serves g) :
    (w.tasks j).Serves g ∨ (j = i ∧ t.Serves g ∧ ∃ c x, w.pending c x = some g) := by
  have hp := passes_next hnext
  rcases tasks_after w op i t j with ⟨rfl, heq⟩ | ⟨-, heq | ⟨p, hspawn, heq⟩⟩ <;> rw [heq] at h
  · exact (hp.serves g h).imp_right fun hpending => ⟨rfl, h, hpending⟩
  · exact .inl h
  · exact absurd h (not_serves (hp.spawned p hspawn).2.2.1 g)

end Step

namespace History

theorem created_record (h : History) (i : ℕ) (op : Op) (w : World) : (h.record i op w).created = h.created ∨
    ∃ c x, (h.record i op w).created = Function.update h.created c (w.channels x) := by
  simp only [record]
  split
  · next c _ x _ => exact .inr ⟨c, x, rfl⟩
  · exact .inl rfl

/-- The channel of a session is set when its lifecycle is made, and by the RTSP connection that serves it. -/
theorem channelOf_record (h : History) (i : ℕ) (op : Op) (w : World) :
    (h.record i op w).channelOf = h.channelOf ∨
      (∃ c, (h.record i op w).channelOf = Function.update h.channelOf h.world.generationCount (h.created c)) ∨
      ∃ x g, op = .createChannel x ∧ (h.world.tasks i).phase.serves = some g ∧
        (h.record i op w).channelOf = Function.update h.channelOf g (w.channels x) := by
  simp only [record]
  split
  · next c _ => exact .inr (.inl ⟨c, rfl⟩)
  · next g _ x hphase => exact .inr (.inr ⟨x, g, rfl, by rw [hphase]; rfl, rfl⟩)
  · exact .inl rfl

/-- Channels are numbered in the order they are made, and a lifecycle is put into a map, and served, only after its
session has been registered. -/
structure Tracked (h : History) : Prop where
  timed : Timed h
  channels : ∀ x ch, h.world.channels x = some ch → ch < h.world.channelCount
  created : ∀ c ch, h.created c = some ch → ch < h.world.channelCount
  channelOf : ∀ g ch, h.channelOf g = some ch → ch < h.world.channelCount
  pending : ∀ c x g, h.world.pending c x = some g → h.world.registeredAt g ≠ none
  served : ∀ j g, (h.world.tasks j).Serves g → h.world.registeredAt g ≠ none
  creating : ∀ i g, (h.world.tasks i).phase.creates = some g → ∀ j, ¬ (h.world.tasks j).Serves g

section Run
variable {h : History} {i : ℕ} {choice : Choice} {op : Op} {t : Task} (hk : Tracked h)
  (hnext : (h.world.tasks i).next h.world choice = some (op, t))
include hk hnext

omit hnext in
theorem Tracked.channels_run (x : LiveId) (ch : ℕ) (hx : (h.world.apply op).channels x = some ch) :
    ch < (h.world.apply op).channelCount := by
  rcases channels_of_apply hx with hold | ⟨rfl, hcount⟩
  · exact (hk.channels x ch hold).trans_le channelCount_le_apply
  · omega

omit hnext in
theorem Tracked.created_run (c : Core) (ch : ℕ)
    (hc : (h.record i op ((h.world.apply op).setTask i t)).created c = some ch) :
    ch < (h.world.apply op).channelCount := by
  rcases created_record h i op ((h.world.apply op).setTask i t) with heq | ⟨c', x, heq⟩
  · exact (hk.created c ch (heq ▸ hc)).trans_le channelCount_le_apply
  · rw [heq, Function.update_apply] at hc
    split at hc
    · exact hk.channels_run x ch hc
    · exact (hk.created c ch hc).trans_le channelCount_le_apply

omit hnext in
theorem Tracked.channelOf_run (g ch : ℕ)
    (hg : (h.record i op ((h.world.apply op).setTask i t)).channelOf g = some ch) :
    ch < (h.world.apply op).channelCount := by
  rcases channelOf_record h i op ((h.world.apply op).setTask i t) with heq | ⟨c, heq⟩ | ⟨x, g', -, -, heq⟩
  · exact (hk.channelOf g ch (heq ▸ hg)).trans_le channelCount_le_apply
  · rw [heq, Function.update_apply] at hg
    split at hg
    · exact (hk.created c ch hg).trans_le channelCount_le_apply
    · exact (hk.channelOf g ch hg).trans_le channelCount_le_apply
  · rw [heq, Function.update_apply] at hg
    split at hg
    · exact hk.channels_run x ch hg
    · exact (hk.channelOf g ch hg).trans_le channelCount_le_apply

theorem Tracked.pending_run (c : Core) (x : LiveId) (g : ℕ) (hpending : (h.world.apply op).pending c x = some g) :
    (h.world.apply op).registeredAt g ≠ none := by
  refine hk.timed.registered_apply hnext ?_
  rcases pending_of_apply hpending with hop | hold
  · exact hk.timed.registered i .insert c x g (congrArg Task.phase ((passes_next hnext).inserted c x g hop).1) (by simp)
  · exact hk.pending c x g hold

theorem Tracked.served_run (j g : ℕ) (hj : (((h.world.apply op).setTask i t).tasks j).Serves g) :
    (h.world.apply op).registeredAt g ≠ none := by
  refine hk.timed.registered_apply hnext ?_
  rcases serves_after hnext hj with hold | ⟨-, -, c, x, hpending⟩
  · exact hk.served j g hold
  · exact hk.pending c x g hpending

theorem Tracked.creating_run (k g : ℕ) (hg : (((h.world.apply op).setTask i t).tasks k).phase.creates = some g)
    (j : ℕ) : ¬ (((h.world.apply op).setTask i t).tasks j).Serves g := by
  intro hj
  have hp := passes_next hnext
  have hwell := hk.timed.exclusive.wellFormed
  have hold : ∀ k, (h.world.tasks k).phase.creates = some g → False := by
    intro k hcreates
    rcases serves_after hnext hj with hserves | ⟨-, -, c, x, hpending⟩
    · exact hk.creating k g hcreates j hserves
    · exact (hk.timed.exclusive.creating k g hcreates).2 c x hpending
  rcases tasks_after h.world op i t k with ⟨rfl, heq⟩ | ⟨-, heq | ⟨p, hspawn, heq⟩⟩ <;> rw [heq] at hg
  · rcases hp.creates g hg with hcreates | ⟨c, x, rfl, rfl⟩
    · exact hold k hcreates
    · rcases serves_after hnext hj with hserves | ⟨-, -, c', x', hpending⟩
      · exact lt_irrefl _ ((hwell.task j).lt _ (worksFor_of_serves hserves))
      · exact lt_irrefl _ (hwell.sound.pending c' x' _ hpending).1
  · exact hold k hg
  · rw [(hp.spawned p hspawn).1] at hg
    cases hg

end Run

/-- A task that has just been spawned by the outside serves no session. -/
theorem serves_spawn {w : World} {p : Phase} (hgeneration : p.generation = none) {j g : ℕ}
    (hj : ((w.apply (.spawn p)).tasks j).Serves g) : (w.tasks j).Serves g := by
  rcases tasks_apply_spawn w p j with heq | heq <;> rw [heq] at hj
  · exact hj
  · rcases worksFor_of_serves hj with hg | hg
    · cases hgeneration.symm.trans hg
    · cases hg

theorem Tracked.step {h h' : History} {a : Action} (hk : Tracked h) (hstep : h.step a = some h') : Tracked h' := by
  have htimed := hk.timed.step hstep
  cases stepped_of_step hstep with
  | connected a p hgeneration =>
    refine ⟨htimed, hk.channels, hk.created, hk.channelOf, hk.pending,
      fun j g hj => hk.served j g (serves_spawn hgeneration hj), fun k g hg j hj => ?_⟩
    have hserves := serves_spawn hgeneration hj
    change ((h.world.apply (.spawn p)).tasks k).phase.creates = some g at hg
    rcases tasks_apply_spawn h.world p k with heq | heq <;> rw [heq] at hg
    · exact hk.creating k g hg j hserves
    · obtain ⟨stage, c, x, rfl⟩ := precreate_of_creates hg
      cases hgeneration
  | shutdown => exact ⟨htimed, hk.channels, hk.created, hk.channelOf, hk.pending, hk.served, hk.creating⟩
  | run i choice op t hnext =>
    exact ⟨htimed, hk.channels_run, hk.created_run, hk.channelOf_run, hk.pending_run hnext, hk.served_run hnext,
      hk.creating_run hnext⟩

theorem not_serves_initial (ttl : Bool) (i g : ℕ) : ¬ ((World.initial ttl).tasks i).Serves g := by
  rcases tasks_initial ttl i with heq | ⟨c, -, heq⟩ <;> rw [heq] <;> exact not_serves rfl g

theorem tracked_initial (ttl : Bool) : Tracked (initial ttl) := by
  refine ⟨timed_initial ttl, fun x ch h => (by cases h), fun c ch h => (by cases h), fun g ch h => (by cases h),
    fun c x g h => (by cases h), fun j g h => absurd h (not_serves_initial ttl j g),
    fun i g _ j => not_serves_initial ttl j g⟩

/-! ## The steps at which something is left -/

theorem Exclusive.pended {h : History} (hx : Exclusive h) {c : Core} {x : LiveId} {g : ℕ}
    (hpending : h.world.pending c x = some g) : h.world.Pended g := by
  rw [World.Pended, (hx.pending c x g hpending).2, (hx.wellFormed.sound.pending c x g hpending).2]
  exact hpending

section Run
variable {h : History} {i : ℕ} {choice : Choice} {op : Op} {t : Task} {g : ℕ} (hk : Tracked h)
  (hnext : (h.world.tasks i).next h.world choice = some (op, t)) (hlt : g < h.world.generationCount)

section Channel
variable (hserves : ∀ x, op = .createChannel x → (h.world.tasks i).phase.serves ≠ some g)
include hlt hserves

theorem channelOf_after : (h.record i op ((h.world.apply op).setTask i t)).channelOf g = h.channelOf g := by
  rcases channelOf_record h i op ((h.world.apply op).setTask i t) with heq | ⟨c, heq⟩ | ⟨x, g', hop, hg', heq⟩
  · rw [heq]
  · rw [heq, Function.update_of_ne hlt.ne]
  · rw [heq, Function.update_of_ne]
    rintro rfl
    exact hserves x hop hg'

include hk in
theorem Tracked.closed_after (hclosed : h.Closed g) : (h.record i op ((h.world.apply op).setTask i t)).Closed g := by
  intro ch hch hafter
  rw [channelOf_after hlt hserves] at hch
  change (h.world.apply op).channels ((h.world.apply op).liveId g) = some ch at hafter
  rw [(apply_identity hlt).1] at hafter
  rcases channels_of_apply hafter with hold | ⟨rfl, -⟩
  · exact hclosed ch hch hold
  · exact lt_irrefl _ (hk.channelOf g _ hch)

theorem closed_before (hclosed : (h.record i op ((h.world.apply op).setTask i t)).Closed g)
    (hop : op ≠ .removeChannel (h.world.liveId g)) : h.Closed g := by
  intro ch hch hbefore
  refine hclosed ch ((channelOf_after hlt hserves).symm ▸ hch) ?_
  change (h.world.apply op).channels ((h.world.apply op).liveId g) = some ch
  rw [(apply_identity hlt).1]
  exact channels_apply hbefore hop

end Channel

section Entry
include hk hnext

theorem Tracked.liveId_inserted {c : Core} {x : LiveId} (hop : op = .insertPending c x g) : h.world.liveId g = x := by
  have htask := ((passes_next hnext).inserted c x g hop).1
  exact (hk.timed.exclusive.wellFormed.task i).key g x (by rw [htask]; rfl) (by rw [htask]; rfl)

theorem Tracked.not_pending_after (hinserts : h.InsertsRegistered op)
    (hentry : h.world.registry (h.world.liveId g) ≠ some g) (hpending : ∀ c x, h.world.pending c x ≠ some g)
    (c : Core) (x : LiveId) : (h.world.apply op).pending c x ≠ some g := by
  intro hafter
  rcases pending_of_apply hafter with hop | hold
  · have hregistry := hinserts (x, g) (by rw [hop]; rfl)
    exact hentry (hk.liveId_inserted hnext hop ▸ hregistry)
  · exact hpending c x hold

omit hk in
theorem unregisters (hbefore : h.world.registry (h.world.liveId g) = some g)
    (hafter : (h.world.apply op).registry (h.world.liveId g) ≠ some g) :
    ∃ g₀, op = .unregister g₀ ∧ h.world.liveId g₀ = h.world.liveId g := by
  by_contra hnone
  refine hafter (registry_apply (fun g' hop => ((moves_next hnext).registered g' hop).1) (fun g₀ hop heq => ?_) hbefore)
  exact hnone ⟨g₀, hop, heq⟩

theorem Tracked.ended_after (hreg : h.world.registeredAt g ≠ none)
    (hentry : (h.world.apply op).registry (h.world.liveId g) ≠ some g)
    (hunserved : ∀ j, ¬ (((h.world.apply op).setTask i t).tasks j).Serves g) :
    ((h.world.apply op).setTask i t).Ended g := by
  have hlt := hk.timed.exclusive.wellFormed.sound.lt_of_registered hreg
  refine ⟨hk.timed.registered_apply hnext hreg, ?_, fun j _ => hunserved j⟩
  change (h.world.apply op).registry ((h.world.apply op).liveId g) ≠ some g
  rwa [(apply_identity hlt).1]

/-- An entry that a cleanup task removes. -/
theorem Tracked.removesReleased (hleft : (h.record i op ((h.world.apply op).setTask i t)).NothingLeft) :
    h.RemovesReleased op := by
  intro g₀ hop g hg hunserved
  cases op <;> cases hop
  have hwell := hk.timed.exclusive.wellFormed
  obtain ⟨hreg, hkey⟩ := hwell.sound.registry _ g hg
  have hlt := hwell.sound.lt_of_registered hreg
  obtain ⟨-, rfl⟩ := (passes_next hnext).unregistered g₀ rfl
  obtain ⟨hpending, hclosed⟩ := hleft g <| hk.ended_after hnext hreg (by simp [World.apply, hkey]) fun j hj => by
    rcases serves_after hnext hj with hold | ⟨-, hafter, -⟩
    · exact hwell.not_serves hunserved j hold
    · exact not_serves rfl g hafter
  exact ⟨hpending _ _, closed_before hlt (by simp) hclosed (by simp)⟩

/-- The last connection of a session whose entry is gone. -/
theorem Tracked.lastReleases (hleft : (h.record i op ((h.world.apply op).setTask i t)).NothingLeft) :
    h.LastReleases i op t := by
  rintro g hlt ⟨hentry, hserves, hnot, hlast⟩
  have hwell := hk.timed.exclusive.wellFormed
  have hp := passes_next hnext
  have hreg := hk.served i g hserves
  obtain ⟨hpending, hclosed⟩ := hleft g <| hk.ended_after hnext hreg
    (fun hafter => by
      rcases registry_of_apply hafter with ⟨hop, -⟩ | hold
      · exact hreg (hwell.unregistered (moves_next hnext) g hop)
      · exact hentry hold)
    fun j hj => by
      rcases serves_after hnext hj with hold | ⟨-, hafter, -⟩
      · obtain rfl := hlast j (hwell.lt_of_serves hold) hold
        exact hnot (setTask_tasks_self _ j t ▸ hj)
      · exact hnot hafter
  refine ⟨fun hpended => hnot (.inl ?_), ?_⟩
  · exact hp.taken g (taken_of_pending hpended (hpending _ _)) (connection_of_serves hserves)
  · by_cases hop : op = .removeChannel (h.world.liveId g)
    · exact .inl (by rw [hop]; rfl)
    · refine .inr (closed_before hlt (fun x hcreate hx => hnot (.inl ?_)) hclosed hop)
      rw [hp.channel x hcreate]
      exact hx

/-- A lifecycle that a control loop puts into its map. -/
theorem Tracked.insertsRegistered (hleft : (h.record i op ((h.world.apply op).setTask i t)).NothingLeft) :
    h.InsertsRegistered op := by
  rintro ⟨x, g⟩ hop
  cases op <;> cases hop
  next c =>
  by_contra hentry
  have htask := ((passes_next hnext).inserted c x g rfl).1
  have hcreates : (h.world.tasks i).phase.creates = some g := by rw [htask]; rfl
  have hkey := hk.liveId_inserted hnext rfl
  refine (hleft g (hk.ended_after hnext ?_ (hkey ▸ hentry) fun j hj => ?_)).1 c x ?_
  · exact hk.timed.registered i .insert c x g (by rw [htask]) (by simp)
  · rcases serves_after hnext hj with hold | ⟨-, -, c', x', hpending⟩
    · exact hk.creating i g hcreates j hold
    · exact (hk.timed.exclusive.creating i g hcreates).2 c' x' hpending
  · change setPending _ _ _ _ _ _ = _
    rw [setPending_apply, if_pos ⟨rfl, rfl⟩]

omit hk hnext in
/-- A session whose entry is gone was not registered just now. -/
theorem registered_before (hreg : (h.world.apply op).registeredAt g ≠ none)
    (hentry : (h.world.apply op).registry ((h.world.apply op).liveId g) ≠ some g) :
    h.world.registeredAt g ≠ none := by
  obtain ⟨n, hn⟩ := Option.ne_none_iff_exists'.mp hreg
  rcases registeredAt_of_apply hn with ⟨rfl, -⟩ | hold
  · exact absurd (by simp [World.apply, World.liveId, World.spawn]) hentry
  · rw [hold]
    exact Option.some_ne_none n

omit hk in
/-- A cleanup task does not end a connection. -/
theorem unserved_before {g₀ : ℕ} (hop : op = .unregister g₀)
    (hunserved : ∀ j, ¬ (((h.world.apply op).setTask i t).tasks j).Serves g) : h.world.Unserved g := by
  intro j _ hj
  subst hop
  rcases tasks_after h.world (.unregister g₀) i t j with ⟨rfl, -⟩ | ⟨-, heq | ⟨p, hspawn, -⟩⟩
  · rw [((passes_next hnext).unregistered g₀ rfl).1] at hj
    exact not_serves rfl g hj
  · exact hunserved j (heq.symm ▸ hj)
  · cases hspawn

omit hnext in
/-- Only the task that has moved can have stopped to serve a session. -/
theorem Tracked.served_by (hunserved : ∀ j, ¬ (((h.world.apply op).setTask i t).tasks j).Serves g) {j : ℕ}
    (hj : (h.world.tasks j).Serves g) : j = i := by
  by_contra hji
  have hlt := hk.timed.exclusive.wellFormed.lt_of_serves hj
  have heq : ((h.world.apply op).setTask i t).tasks j = (h.world.apply op).tasks j := Function.update_of_ne hji ..
  rw [← apply_tasks_of_lt hlt, ← heq] at hj
  exact hunserved j hj

theorem Tracked.nothingLeft_run (hworld : WellFormed ((h.world.apply op).setTask i t)) (hleft : h.NothingLeft)
    (hremoves : h.RemovesReleased op) (hreleases : h.LastReleases i op t) (hinserts : h.InsertsRegistered op) :
    (h.record i op ((h.world.apply op).setTask i t)).NothingLeft := by
  rintro g ⟨hreg', hentry', hunserved'⟩
  have hwell := hk.timed.exclusive.wellFormed
  have hnot := hworld.not_serves hunserved'
  have hreg := registered_before hreg' hentry'
  have hlt := hwell.sound.lt_of_registered hreg
  have hentry : (h.world.apply op).registry (h.world.liveId g) ≠ some g := by
    rw [← (apply_identity hlt).1]
    exact hentry'
  by_cases hbefore : h.world.registry (h.world.liveId g) = some g
  · obtain ⟨g₀, rfl, hkey⟩ := unregisters hnext hbefore hentry
    obtain ⟨hpended, hclosed⟩ := hremoves g₀ rfl g (hkey ▸ hbefore) (unserved_before hnext rfl hnot)
    exact ⟨fun c x hpending => hpended (hk.timed.exclusive.pended hpending), hk.closed_after hlt (by simp) hclosed⟩
  by_cases hserved : h.world.Unserved g
  · obtain ⟨hpending, hclosed⟩ := hleft g ⟨hreg, hbefore, hserved⟩
    exact ⟨hk.not_pending_after hnext hinserts hbefore hpending,
      hk.closed_after hlt (fun x _ hx => hwell.not_serves hserved i (.inl hx)) hclosed⟩
  · obtain ⟨j, -, hj⟩ : ∃ j < h.world.taskCount, (h.world.tasks j).Serves g := by
      simpa [World.Unserved] using hserved
    obtain rfl := hk.served_by hnot hj
    have ht : ¬ t.Serves g := fun ht => hnot j (by rwa [setTask_tasks_self])
    obtain ⟨hpended, hcloses⟩ := hreleases g hlt ⟨hbefore, hj, ht, fun j _ => hk.served_by hnot⟩
    refine ⟨hk.not_pending_after hnext hinserts hbefore fun c x hpending =>
      hpended (hk.timed.exclusive.pended hpending), ?_⟩
    rcases hcloses with hcloses | hclosed
    · cases op <;> cases hcloses
      intro ch _ hch
      simp [record, World.apply, World.setTask, World.liveId] at hch
    · refine hk.closed_after hlt (fun x hcreate hx => ht (.inl ?_)) hclosed
      rw [(passes_next hnext).channel x hcreate]
      exact hx

end Entry

end Run

theorem nothingLeft_spawn {h : History} (hleft : h.NothingLeft) (p : Phase) :
    NothingLeft { h with world := h.world.apply (.spawn p) } := by
  rintro g ⟨hreg, hentry, hunserved⟩
  refine hleft g ⟨hreg, hentry, fun j hj hserves => hunserved j (hj.trans_le taskCount_le_apply) ?_⟩
  change ((h.world.apply (.spawn p)).tasks j).Serves g
  rw [apply_tasks_of_lt hj]
  exact hserves

theorem Tracked.nothingLeft_step {h h' : History} {a : Action} (hk : Tracked h) (hleft : h.NothingLeft)
    (hstep : h.step a = some h') : h'.NothingLeft ↔ h.CleansUp a := by
  have hworld := (hk.step hstep).timed.exclusive.wellFormed
  cases stepped_of_step hstep with
  | connected a p _ ha =>
    refine iff_of_true (nothingLeft_spawn hleft p) ?_
    cases a with
    | run i choice => exact absurd rfl (ha i choice)
    | shutdown | publish x | record x => trivial
  | shutdown => exact iff_of_true hleft trivial
  | run i choice op t hnext =>
    constructor
    · intro hafter q hq
      obtain rfl := Option.some.inj (hnext.symm.trans hq)
      exact ⟨hk.removesReleased hnext hafter, hk.lastReleases hnext hafter, hk.insertsRegistered hnext hafter⟩
    · intro hclean
      obtain ⟨hremoves, hreleases, hinserts⟩ := hclean (op, t) hnext
      exact hk.nothingLeft_run hnext hworld hleft hremoves hreleases hinserts

theorem nothingLeft_initial (ttl : Bool) : (initial ttl).NothingLeft :=
  fun _ hended => absurd rfl hended.1

theorem Tracked.takenGone {h : History} (hk : Tracked h) : h.TakenGone :=
  fun g htaken c x hpending => htaken (hk.timed.exclusive.pending c x g hpending).1.1

/-- Along a run, no ended session has left its lifecycle in a pending map or its channel in the hub, exactly if at
every step an entry is removed only after its session has been released or while a connection serves it, the last
connection of a session without an entry releases it, and a lifecycle is put into a map only while its session has
its entry. A lifecycle that a connection or a TTL task has taken is never left. -/
theorem nothing_left_iff (ttl : Bool) (acts : List Action) :
    (Always step NothingLeft (initial ttl) acts ↔ EachStep step CleansUp (initial ttl) acts) ∧
      Always step TakenGone (initial ttl) acts := by
  have hstep : ∀ h a h', Tracked h → step h a = some h' → Tracked h' := fun _ _ _ hk hstep => hk.step hstep
  refine ⟨always_iff_eachStep hstep (fun _ _ _ hk hleft hstep => hk.nothingLeft_step hleft hstep) acts
    (tracked_initial ttl) (nothingLeft_initial ttl), ?_⟩
  refine (always_iff_eachStep hstep (fun _ _ _ hk _ hstep => ?_) acts (tracked_initial ttl)
    (tracked_initial ttl).takenGone).mpr (eachStep_trivial _ acts)
  exact iff_of_true (hk.step hstep).takenGone trivial

/-- A session expires, and one of the other server is recorded until its client leaves. -/
def expireAndRecord : List Action :=
  handles .rtmp (.precreateStream "x") 6 ++ goes 3 8 ++ goes 2 2 ++ handles .rtsp (.precreateStream "x") 6 ++
    .record "x" :: goes 6 7 ++ .run 6 .finish :: goes 6 6 ++ .run 5 .finish :: goes 4 2

theorem nothing_left_expired_recorded : Always step NothingLeft (initial true) expireAndRecord ∧
    ∃ h ∈ run step (initial true) expireAndRecord, h.world.Ended 0 ∧ h.world.Ended 1 :=
  ⟨(nothing_left_iff true expireAndRecord).1.mpr (by decide +kernel), by decide +kernel⟩

/-- `StopStream` cancels a session that is still pending. Its TTL task sees the token cancelled and gives up. -/
def stoppedWhilePending : List Action :=
  handles .rtmp (.precreateStream "x") 6 ++ handles .rtmp (.stopStream "x") 2 ++ .run 3 .finish :: goes 2 2

/-- A publish request of a pending session cannot be accepted, and the lifecycle is disconnected in its place. -/
def acceptFailed : List Action :=
  handles .rtmp (.precreateStream "x") 6 ++ .publish "x" :: goes 4 2 ++ .run 4 .fail :: goes 4 5 ++
    .run 3 .finish :: goes 2 2

/-- Both sessions have ended and all tasks but the control loops have finished. The lifecycle is still in the pending
map, after the failed request also the channel in the hub. -/
theorem ended_sessions_left_behind :
    (∃ h ∈ run step (initial true) stoppedWhilePending, h.world.Ended 0 ∧ h.world.pending .rtmp "x" = some 0 ∧
      ∀ i < h.world.taskCount, 2 ≤ i → h.world.tasks i = {}) ∧
    ∃ h ∈ run step (initial true) acceptFailed, h.world.Ended 0 ∧ h.world.pending .rtmp "x" = some 0 ∧
      h.channelOf 0 = some 0 ∧ h.world.channels "x" = some 0 ∧
      ∀ i < h.world.taskCount, 2 ≤ i → h.world.tasks i = {} := by
  decide +kernel

end History
end LivestreamRs.Sessions
