import LivestreamRs.Sessions.Answers

/-! # A loop gets through its queue

Between two visits to its `select!` the loop of an ingest server does a bounded number of operations, none of which
waits for anybody but an RTMP connection that is inside the map of pending sessions. So while the server runs, its
loop by itself empties its queue, and every start call that awaits it is answered.
-/
namespace LivestreamRs.Sessions.ControlPlane
open Foundations
set_option autoImplicit false

variable {p p' : ControlPlane}

/-! ## How far a loop is from its `select!` -/

def phaseRank : Phase → ℕ
  | .createChannel _ _ => 6
  | .newLifecycle _ _ => 5
  | .precreate .register _ _ _ => 4
  | .precreate .describe _ _ _ => 3
  | .precreate .insert _ _ _ | .stopCancel _ _ _ => 2
  | .precreate .spawnTtl _ _ _ | .stopChannel _ _ => 1
  | _ => 0

def disconnectRank : Option Disconnect → ℕ
  | some (.drop _) => 5
  | some (.mark _ _) => 4
  | some (.lookup _ _) => 3
  | some (.cancel _ _ _) => 2
  | some (.dispatch _ _) => 1
  | none => 0

/-- How many operations a loop is from its `select!`, at most; an insertion may bring a disconnect with it. -/
def taskRank (t : Task) : ℕ := 6 * phaseRank t.phase + disconnectRank t.disconnecting

theorem disconnectRank_next (w : World) (d : Disconnect) : disconnectRank (d.next w).2 < disconnectRank (some d) := by
  cases d <;> simp only [Disconnect.next] <;> (try split) <;> simp [disconnectRank]

theorem disconnectRank_drop (g : Option ℕ) : disconnectRank (g.map .drop) ≤ 5 := by
  cases g <;> simp [disconnectRank]

theorem exists_go {w : World} {c : Core} {t : Task} (hcontrol : t.phase.control = some c)
    (hended : t.phase ≠ .loopEnded c) (hbusy : t ≠ { phase := .idle c }) (hunlocked : ∀ x, w.locked c x = false) :
    ∃ op t', t.next w .go = some (op, t') ∧ t'.phase ≠ .loopEnded c ∧ taskRank t' < taskRank t := by
  obtain ⟨phase, _ | d⟩ := t
  · cases phase with
    | idle c' =>
      obtain rfl := Option.some.inj hcontrol
      exact absurd rfl hbusy
    | loopEnded c' =>
      obtain rfl := Option.some.inj hcontrol
      exact absurd rfl hended
    | createChannel c' x | newLifecycle c' x | stopCancel c' x t | stopChannel c' x =>
      exact ⟨_, _, rfl, by simp, by simp [taskRank, phaseRank, disconnectRank]⟩
    | precreate stage c' x g =>
      obtain rfl := Option.some.inj hcontrol
      cases stage with
      | register =>
        cases hregistry : w.registry (w.liveId g) with
        | none =>
          exact ⟨.register g, { phase := .precreate .describe c' x g },
            by simp [Task.next, Phase.next, controlNext, hregistry], by simp,
            by simp [taskRank, phaseRank, disconnectRank]⟩
        | some g' =>
          exact ⟨.ack x false, { phase := .idle c', disconnecting := some (.drop g) },
            by simp [Task.next, Phase.next, controlNext, hregistry], by simp,
            by simp [taskRank, phaseRank, disconnectRank]⟩
      | describe =>
        cases hregistry : w.registry x with
        | none =>
          exact ⟨.ack x false, { phase := .idle c', disconnecting := some (.drop g) },
            by simp [Task.next, Phase.next, controlNext, hregistry], by simp,
            by simp [taskRank, phaseRank, disconnectRank]⟩
        | some g' =>
          exact ⟨.ack x true, { phase := .precreate .insert c' x g },
            by simp [Task.next, Phase.next, controlNext, hregistry], by simp,
            by simp [taskRank, phaseRank, disconnectRank]⟩
      | insert =>
        have hdrop := disconnectRank_drop (w.pending c' x)
        refine ⟨.insertPending c' x g,
          { phase := if w.ttl then .precreate .spawnTtl c' x g else .idle c'
            disconnecting := (w.pending c' x).map .drop },
          by simp [Task.next, Phase.next, controlNext, hunlocked x], ?_, ?_⟩
        · dsimp only
          split <;> simp
        · simp only [taskRank]
          split <;> simp only [phaseRank] <;> omega
      | spawnTtl => exact ⟨_, _, rfl, by simp, by simp [taskRank, phaseRank, disconnectRank]⟩
    | _ => cases hcontrol
  · exact ⟨_, _, rfl, hended, by simpa [taskRank] using disconnectRank_next w d⟩

theorem exists_receive (w : World) (c : Core) (msg : ControlMessage) :
    ∃ op t', Task.next w { phase := .idle c } (.receive msg) = some (op, t') ∧ t'.phase ≠ .loopEnded c ∧
      taskRank t' ≤ 36 := by
  refine ⟨(Sessions.receive w c msg).1, (Sessions.receive w c msg).2, rfl, ?_⟩
  cases msg with
  | precreateStream x | stopStream x =>
    simp only [Sessions.receive]
    split <;> exact ⟨by simp, by simp [taskRank, phaseRank, disconnectRank]⟩

/-- No RTMP connection holds a reference into the map its server's loop inserts into. -/
def Unlocked (w : World) (c : Core) : Prop := c = .rtmp → ∀ i, (w.tasks i).phase.locks = none

theorem Unlocked.locked {w : World} {c : Core} (h : Unlocked w c) (x : LiveId) : w.locked c x = false := by
  cases c with
  | rtsp => rfl
  | rtmp => simp [World.locked, h rfl]

theorem Unlocked.loop {w : World} {c : Core} (h : Unlocked w c) (hcontrol : (w.loop c).phase.control = some c)
    {choice : Choice} {op : Op} {t : Task} (hnext : (w.loop c).next w choice = some (op, t)) :
    Unlocked ((w.apply op).setTask (loopIndex c) t) c := by
  intro hc i
  have hlocks : ∀ {phase : Phase}, phase.connection = false → phase.locks = none := by
    intro phase hphase
    cases phase with
    | request stage x g => cases hphase
    | _ => rfl
  have hloop : ∀ {phase : Phase}, phase.control = some c → phase.connection = false := by
    intro phase hphase
    cases phase <;> first | rfl | cases hphase
  have hm := controlMoves_next hnext
  rcases tasks_after w op (loopIndex c) t i with ⟨-, heq⟩ | ⟨-, heq | ⟨phase, hspawned, heq⟩⟩ <;> rw [heq]
  · exact hlocks (hloop ((ackMoves_next hcontrol hnext).control.trans hcontrol))
  · exact h hc i
  · refine hlocks (Bool.eq_false_iff.mpr fun hconnection => ?_)
    have hparent := (hm.spawned phase hspawned).2.2 hconnection
    rw [hloop hcontrol] at hparent
    cases hparent

/-! ## Emptying the queue -/

/-- The loop of a server that goes on, with its queue. -/
structure Working (c : Core) (p : ControlPlane) : Prop where
  settled : Settled p
  going : (p.world.loop c).phase ≠ .loopEnded c
  unlocked : Unlocked p.world c
  opened : p.queue c ≠ none

def work (c : Core) (p : ControlPlane) : ℕ := 37 * ((p.queue c).getD []).length + taskRank (p.world.loop c)

/-- A step of the loop of `c`: a message is taken, or the one it has is worked on. -/
def ByLoop (c : Core) : PlaneAction → Prop
  | .receive c' => c' = c
  | .serve (.run i .go) => i = loopIndex c
  | _ => False

theorem serve_of_next {c : Core} {choice : Choice} {op : Op} {t : Task}
    (hnext : (p.world.loop c).next p.world choice = some (op, t)) :
    p.serve (.run (loopIndex c) choice) =
      some (settle { p with world := (p.world.apply op).setTask (loopIndex c) t } p.world c op) := by
  have htrans : transition p.world (.run (loopIndex c) choice) = some (op, some (loopIndex c, t)) :=
    congrArg (Option.map fun r : Op × Task => (r.1, some (loopIndex c, r.2))) hnext
  have hstep : Sessions.step p.world (.run (loopIndex c) choice) = some ((p.world.apply op).setTask (loopIndex c) t) := by
    rw [Sessions.step, htrans, Option.map_some]
  simp only [serve, htrans, hstep, loopCore_loopIndex]

/-- Answering a request changes nothing of the servers, the queues and the calls. -/
theorem settle_keeps (p : ControlPlane) (w : World) (c : Core) (op : Op) :
    (p.settle w c op).world = p.world ∧ (p.settle w c op).queue = p.queue ∧ (p.settle w c op).calls = p.calls := by
  unfold settle
  split <;> exact ⟨rfl, rfl, rfl⟩

theorem Working.of_serve {c : Core} {choice : Choice} {op : Op} {t : Task} (hcontrol : (p.world.loop c).phase.control = some c)
    (hunlocked : Unlocked p.world c) (hopened : p.queue c ≠ none)
    (hnext : (p.world.loop c).next p.world choice = some (op, t)) (hgoing : t.phase ≠ .loopEnded c)
    (hserve : p.serve (.run (loopIndex c) choice) = some p') (hsettled : Settled p') :
    Working c p' ∧ p'.calls = p.calls ∧ work c p' = 37 * ((p.queue c).getD []).length + taskRank t := by
  obtain rfl := Option.some.inj ((serve_of_next hnext).symm.trans hserve)
  obtain ⟨hworld, hqueue, hcalls⟩ :=
    settle_keeps { p with world := (p.world.apply op).setTask (loopIndex c) t } p.world c op
  have hloop : ((p.world.apply op).setTask (loopIndex c) t).loop c = t := setTask_tasks_self _ _ _
  refine ⟨⟨hsettled, ?_, ?_, ?_⟩, hcalls, ?_⟩
  · rw [hworld, hloop]
    exact hgoing
  · rw [hworld]
    exact hunlocked.loop hcontrol hnext
  · rw [hqueue]
    exact hopened
  · rw [work, hworld, hqueue, hloop]

theorem Working.advance {c : Core} (hp : Working c p)
    (hbusy : ¬ (p.queue c = some [] ∧ p.world.loop c = { phase := .idle c })) :
    ∃ a p', ByLoop c a ∧ p.step a = some p' ∧ Working c p' ∧ p'.calls = p.calls ∧ work c p' < work c p := by
  have hcontrol := hp.settled.accounted.inStep.loops c
  by_cases hidle : p.world.loop c = { phase := .idle c }
  · obtain ⟨q, hq⟩ := Option.ne_none_iff_exists'.mp hp.opened
    cases q with
    | nil => exact absurd ⟨hq, hidle⟩ hbusy
    | cons r rest =>
      obtain ⟨op, t, hnext, hgoing, hless⟩ := exists_receive p.world c r.message
      rw [← hidle] at hnext
      let taken : ControlPlane := { p with
        queue := Function.update p.queue c (some rest)
        handling := r.call.elim p.handling fun k => Function.update p.handling c (some k) }
      have hserve := serve_of_next (p := taken) hnext
      have hstep : p.step (.receive c) = taken.serve (.run (loopIndex c) (.receive r.message)) := by
        simp only [step, receive, hq, taken]
      have hrest : taken.queue c = some rest := Function.update_self ..
      obtain ⟨hworking, hcalls, hwork⟩ := Working.of_serve (p := taken) hcontrol hp.unlocked (by simp [hrest]) hnext hgoing
        hserve (hp.settled.step (hstep.trans hserve))
      refine ⟨.receive c, _, rfl, hstep.trans hserve, hworking, hcalls, ?_⟩
      rw [hwork, hrest, work, hq]
      simp only [Option.getD_some, List.length_cons]
      omega
  · obtain ⟨op, t, hnext, hgoing, hless⟩ := exists_go hcontrol hp.going hidle hp.unlocked.locked
    have hstep : p.step (.serve (.run (loopIndex c) .go)) = _ := serve_of_next hnext
    obtain ⟨hworking, hcalls, hwork⟩ :=
      Working.of_serve hcontrol hp.unlocked hp.opened hnext hgoing (serve_of_next hnext) (hp.settled.step hstep)
    refine ⟨.serve (.run (loopIndex c) .go), _, rfl, hstep, hworking, hcalls, ?_⟩
    rw [hwork]
    exact Nat.add_lt_add_left hless _

theorem Working.exists_idle {c : Core} (hp : Working c p) :
    ∃ acts p', EachStep step (fun _ a => ByLoop c a) p acts ∧ run step p acts = some p' ∧ Working c p' ∧
      p'.calls = p.calls ∧ p'.queue c = some [] ∧ p'.world.loop c = { phase := .idle c } := by
  let I : ControlPlane → Prop := fun s => Working c s ∧ s.calls = p.calls
  let C : ControlPlane → PlaneAction → Prop := fun s a => ByLoop c a ∧ ∀ t, s.step a = some t → I t
  let Done : ControlPlane → Prop := fun s => I s ∧ s.queue c = some [] ∧ s.world.loop c = { phase := .idle c }
  have hadvance : ∀ s, I s → ¬ Done s → ∃ a t, C s a ∧ s.step a = some t ∧ work c t < work c s := by
    intro s hs hbusy
    obtain ⟨a, t, ha, hstep, hworking, hcalls, hless⟩ := hs.1.advance fun h => hbusy ⟨hs, h⟩
    refine ⟨a, t, ⟨ha, fun u hu => ?_⟩, hstep, hless⟩
    obtain rfl := Option.some.inj (hstep.symm.trans hu)
    exact ⟨hworking, hcalls.trans hs.2⟩
  obtain ⟨acts, p', hacts, hrun, hp', hqueue, hidle⟩ :=
    exists_run_of_measure (I := I) (work c) (fun _ _ t _ hC hstep => hC.2 t hstep) hadvance p ⟨hp, rfl⟩
  have hby : EachStep step (fun _ a => ByLoop c a) p acts :=
    hacts.imp (I := fun _ => True) (fun _ _ _ _ hC _ => ⟨trivial, hC.1⟩) trivial
  exact ⟨acts, p', hby, hrun, hp'.1, hp'.2, hqueue, hidle⟩

/-- As long as a server runs, its loop by itself gets through every message in its queue, whatever state the rest is in;
every call that awaits it then has its answer. -/
theorem start_answered {ttl : Bool} {service : IngestGrpcService} {capacity : ℕ} {bound : Core → Bool}
    {acts : List PlaneAction} (hrun : run step (initial ttl service capacity bound) acts = some p)
    {c : Core} (hopened : p.queue c ≠ none) (hgoing : (p.world.loop c).phase ≠ .loopEnded c) (hunlocked : Unlocked p.world c) :
    ∃ more p', EachStep step (fun _ a => ByLoop c a) p more ∧ run step p more = some p' ∧ p'.calls = p.calls ∧
      p'.queue c = some [] ∧ ∀ k x, p'.calls k = some (.awaitAck x c) → ∃ result, p'.acks k = .resolved result := by
  have hworking : Working c p := ⟨settled_of_run hrun, hgoing, hunlocked, hopened⟩
  obtain ⟨more, p', hby, hmore, hp', hcalls, hqueue, hidle⟩ := hworking.exists_idle
  refine ⟨more, p', hby, hmore, hcalls, hqueue, fun k x hk => ?_⟩
  have hsettled := hp'.settled.accounted
  have hasked : p'.asked k = some (x, c) := hsettled.stages.asks k _ hk
  cases hack : p'.acks k with
  | resolved result => exact ⟨result, rfl⟩
  | disconnected =>
    have hnone := hsettled.requests.dropped k x c hasked hack
    rw [hqueue] at hnone
    cases hnone
  | waiting =>
    rcases hsettled.requests.unanswered k x c hasked hack with ⟨q, hq, hmem⟩ | hhandled
    · rw [hqueue, Option.some.injEq] at hq
      rw [← hq] at hmem
      cases hmem
    · have hnone := (hsettled.inStep.handling c).mpr (by rw [hidle]; rfl)
      rw [hhandled] at hnone
      cases hnone

theorem start_answered_queued : ∃ p more p', run step (initial false sampleService 4 fun _ => true)
    [.call (.startLivestream "cam" 2), .goOn 0] = some p ∧ run step p more = some p' ∧ p'.queue .rtsp = some [] := by
  have hrun : (run step (initial false sampleService 4 fun _ => true) [.call (.startLivestream "cam" 2), .goOn 0]).map
      (fun p => (p.queue .rtsp, (p.world.loop .rtsp).phase)) = some (some [.precreateStream "cam" 0], .idle .rtsp) := by
    decide
  obtain ⟨p, hp, hstate⟩ := Option.map_eq_some_iff.mp hrun
  obtain ⟨hqueue, hphase⟩ := Prod.mk.inj hstate
  obtain ⟨more, p', -, hmore, -, hempty, -⟩ :=
    start_answered hp (c := .rtsp) (by simp [hqueue]) (by simp [hphase]) nofun
  exact ⟨p, more, p', hp, hmore, hempty⟩

end LivestreamRs.Sessions.ControlPlane
