import LivestreamRs.Sessions.ControlPlane

/-! # What the control plane answers

Every message a start call has sent is in the queue it was sent to, in the hands of that queue's loop, or answered. A
call that is told its stream exists has had a session of its own registered, and no two calls the same one. A stop that
reports success has seen the session it found leave the registry for good.
-/
namespace LivestreamRs.Sessions.ControlPlane
open Foundations
set_option autoImplicit false

variable {p p' : ControlPlane}

/-! ## Loops -/

theorem forall_core {P : Core → Prop} (c : Core) (hc : P c) (hother : ∀ c', c' ≠ c → P c') (c' : Core) : P c' := by
  by_cases h : c' = c
  · exact h ▸ hc
  · exact hother c' h

theorem InStep.effect (hp : InStep p) (h : Effect p p') : InStep p' := by
  have hloops : ∀ {c : Core} {w : World}, (w.loop c).phase.control = some c → SameOther c p.world w →
      ∀ c', (w.loop c').phase.control = some c' := by
    intro c w hc hother
    refine forall_core c hc fun c' hne => ?_
    rw [hother c' hne]
    exact hp.loops c'
  have hhandling : ∀ {c : Core} {w : World} {v : Option ℕ}, (v = none ↔ (w.loop c).phase.unacked = none) →
      SameOther c p.world w → ∀ c', Function.update p.handling c v c' = none ↔ (w.loop c').phase.unacked = none := by
    intro c w v hc hother
    refine forall_core c ?_ fun c' hne => ?_
    · rwa [Function.update_self]
    · rw [Function.update_of_ne hne, hother c' hne]
      exact hp.handling c'
  cases h with
  | stay | call | restage | ask | askStop | close => exact ⟨hp.wellFormed, hp.loops, hp.handling⟩
  | quiet w hkept hsame =>
    exact ⟨hkept.wellFormed, fun c => (hsame c).1, fun c => (hp.handling c).trans (by rw [(hsame c).2.1])⟩
  | register c k x g w hkept hk hbefore hafter hother =>
    have hsame : Function.update p.handling c (some k) = p.handling := hk ▸ Function.update_eq_self c p.handling
    have hboth : some k = none ↔ (w.loop c).phase.unacked = none := by simp [hafter, Phase.unacked]
    exact ⟨hkept.wellFormed, hloops (by rw [hafter, Phase.control]) hother, hsame ▸ hhandling hboth hother⟩
  | answer c k x result w hkept hk hbefore hafter hother =>
    exact ⟨hkept.wellFormed, hloops hafter.1 hother, hhandling (by simp [hafter.2]) hother⟩
  | take c x k rest w hkept hqueue hidle hafter hother =>
    exact ⟨hkept.wellFormed, hloops hafter.1 hother, hhandling (by simp [hafter.2.1]) hother⟩
  | refuse c x k rest message w hkept hqueue hidle hafter hother
  | takeStop c x rest w hkept hqueue hidle hafter hother =>
    have hsame : Function.update p.handling c none = p.handling := hidle ▸ Function.update_eq_self c p.handling
    exact ⟨hkept.wellFormed, hloops hafter.1 hother, hsame ▸ hhandling (by simp [hafter.2]) hother⟩

/-! ## Requests -/

/-- Where the requests of the start calls are. `busy` is the key each loop is at work on. -/
structure Requests (capacity : ℕ) (queue : Core → Option (List Request)) (handling : Core → Option ℕ)
    (acks : ℕ → Ack) (asked : ℕ → Option (LiveId × Core)) (busy : Core → Option LiveId) : Prop where
  orderly : ∀ c q, queue c = some q → q.length ≤ max capacity 1 ∧ (q.filterMap Request.call).Nodup
  queued : ∀ c q, queue c = some q → ∀ x k, Request.precreateStream x k ∈ q →
    asked k = some (x, c) ∧ acks k = .waiting ∧ ∀ c', handling c' ≠ some k
  handled : ∀ c k, handling c = some k → ∃ x, asked k = some (x, c) ∧ acks k = .waiting ∧ busy c = some x
  unanswered : ∀ k x c, asked k = some (x, c) → acks k = .waiting →
    (∃ q, queue c = some q ∧ Request.precreateStream x k ∈ q) ∨ handling c = some k
  dropped : ∀ k x c, asked k = some (x, c) → acks k = .disconnected → queue c = none
  unasked : ∀ k, asked k = none → acks k = .waiting

theorem mem_filterMap_call {q : List Request} {k : ℕ} :
    k ∈ q.filterMap Request.call ↔ ∃ x, Request.precreateStream x k ∈ q := by
  rw [List.mem_filterMap]
  constructor
  · rintro ⟨r, hr, hcall⟩
    cases r with
    | precreateStream x k' =>
      obtain rfl := Option.some.inj hcall
      exact ⟨x, hr⟩
    | stopStream x => cases hcall
  · rintro ⟨x, hx⟩
    exact ⟨_, hx, rfl⟩

theorem forall_update {β : Type} {f : Core → Option β} {c : Core} {v : Option β} {P : Core → β → Prop}
    (hnew : ∀ b, v = some b → P c b) (hold : ∀ c' b, c' ≠ c → f c' = some b → P c' b) :
    ∀ c' b, Function.update f c v c' = some b → P c' b := by
  intro c' b h
  rw [Function.update_apply] at h
  split at h
  · next hc => exact hc ▸ hnew b h
  · next hc => exact hold c' b hc h

theorem same_server {asked : ℕ → Option (LiveId × Core)} {k : ℕ} {x y : LiveId} {c c' : Core}
    (h : asked k = some (x, c)) (h' : asked k = some (y, c')) : c' = c := by
  rw [h, Option.some.injEq, Prod.mk.injEq] at h'
  exact h'.2.symm

section Requests
variable {capacity : ℕ} {queue : Core → Option (List Request)} {handling : Core → Option ℕ} {acks : ℕ → Ack}
  {asked : ℕ → Option (LiveId × Core)} {busy busy' : Core → Option LiveId}
  (hp : Requests capacity queue handling acks asked busy) {c : Core} {k : ℕ} {x : LiveId} {q rest : List Request}
include hp

/-- A queue that has dropped requests is not the one a message was just put into or taken from. -/
theorem Requests.dropped_update (hqueue : queue c = some q) {v : Option (List Request)} {c' : Core}
    (hasked : asked k = some (x, c')) (hdropped : acks k = .disconnected) : Function.update queue c v c' = none := by
  have hnone := hp.dropped k x c' hasked hdropped
  have hc : c' ≠ c := by
    rintro rfl
    rw [hqueue] at hnone
    cases hnone
  rwa [Function.update_of_ne hc]

theorem Requests.ask (hunasked : asked k = none) (hqueue : queue c = some q) (hroom : q.length < max capacity 1) :
    Requests capacity (Function.update queue c (some (q ++ [.precreateStream x k]))) handling acks
      (Function.update asked k (some (x, c))) busy := by
  have hne : ∀ {k' : ℕ} {v : LiveId × Core}, asked k' = some v → k' ≠ k := by
    rintro k' v h rfl
    rw [hunasked] at h
    cases h
  have hkeep : ∀ {k' : ℕ} {v : LiveId × Core}, asked k' = some v →
      Function.update asked k (some (x, c)) k' = some v := fun h => by rwa [Function.update_of_ne (hne h)]
  have hhandling : ∀ c', handling c' ≠ some k := by
    intro c' h
    obtain ⟨y, hasked, -⟩ := hp.handled c' k h
    exact hne hasked rfl
  obtain ⟨-, hdistinct⟩ := hp.orderly c q hqueue
  refine ⟨forall_update ?_ fun c' q' _ => hp.orderly c' q', forall_update ?_ ?_, fun c' k' h => ?_,
    fun k' y c' hasked hwait => ?_, fun k' y c' hasked hdropped => ?_, fun k' hasked => ?_⟩
  · rintro _ ⟨⟩
    refine ⟨by simpa using hroom, ?_⟩
    rw [List.filterMap_append]
    refine hdistinct.append (List.nodup_singleton k) ?_
    change List.Disjoint _ [k]
    rw [List.disjoint_singleton, mem_filterMap_call]
    rintro ⟨y, hmem⟩
    exact hne (hp.queued c q hqueue y k hmem).1 rfl
  · rintro _ ⟨⟩ y k' hmem
    rcases List.mem_append.mp hmem with hmem | hmem
    · obtain ⟨hasked, hrest⟩ := hp.queued c q hqueue y k' hmem
      exact ⟨hkeep hasked, hrest⟩
    · obtain ⟨rfl, rfl⟩ := Request.precreateStream.inj (List.mem_singleton.mp hmem)
      exact ⟨Function.update_self .., hp.unasked _ hunasked, hhandling⟩
  · intro c' q' _ h y k' hmem
    obtain ⟨hasked, hrest⟩ := hp.queued c' q' h y k' hmem
    exact ⟨hkeep hasked, hrest⟩
  · obtain ⟨y, hasked, hrest⟩ := hp.handled c' k' h
    exact ⟨y, hkeep hasked, hrest⟩
  · by_cases hk : k' = k
    · subst hk
      obtain ⟨rfl, rfl⟩ : x = y ∧ c = c' := by simpa using hasked
      exact .inl ⟨_, Function.update_self .., by simp⟩
    · rw [Function.update_of_ne hk] at hasked
      refine (hp.unanswered k' y c' hasked hwait).imp_left ?_
      rintro ⟨q', hq', hmem⟩
      by_cases hc : c' = c
      · subst hc
        obtain rfl := Option.some.inj (hqueue.symm.trans hq')
        exact ⟨_, Function.update_self .., List.mem_append_left _ hmem⟩
      · exact ⟨q', by rwa [Function.update_of_ne hc], hmem⟩
  · have hk : k' ≠ k := by
      rintro rfl
      rw [hp.unasked _ hunasked] at hdropped
      cases hdropped
    rw [Function.update_of_ne hk] at hasked
    exact hp.dropped_update hqueue hasked hdropped
  · have hk : k' ≠ k := by
      rintro rfl
      rw [Function.update_self] at hasked
      cases hasked
    rw [Function.update_of_ne hk] at hasked
    exact hp.unasked k' hasked

/-- A queue in which other messages come and go holds the same requests. -/
theorem Requests.requeue {q' : List Request} (hqueue : queue c = some q) (hlength : q'.length ≤ max capacity 1)
    (hcalls : q'.filterMap Request.call = q.filterMap Request.call)
    (hmem : ∀ y k', Request.precreateStream y k' ∈ q' ↔ Request.precreateStream y k' ∈ q) :
    Requests capacity (Function.update queue c (some q')) handling acks asked busy := by
  refine ⟨forall_update ?_ fun c' q' _ => hp.orderly c' q', forall_update ?_ fun c' q' _ => hp.queued c' q', hp.handled,
    fun k' y c' hasked hwait => ?_, fun k' y c' hasked hdropped => hp.dropped_update hqueue hasked hdropped, hp.unasked⟩
  · rintro _ ⟨⟩
    exact ⟨hlength, hcalls ▸ (hp.orderly c q hqueue).2⟩
  · rintro _ ⟨⟩ y k' hin
    exact hp.queued c q hqueue y k' ((hmem y k').mp hin)
  · refine (hp.unanswered k' y c' hasked hwait).imp_left ?_
    rintro ⟨q₁, hq₁, hin⟩
    by_cases hc : c' = c
    · subst hc
      obtain rfl := Option.some.inj (hqueue.symm.trans hq₁)
      exact ⟨q', Function.update_self .., (hmem y k').mpr hin⟩
    · exact ⟨q₁, by rwa [Function.update_of_ne hc], hin⟩

theorem Requests.take (hqueue : queue c = some (.precreateStream x k :: rest)) (hidle : handling c = none)
    (hbusy : busy' c = some x) (hother : ∀ c', c' ≠ c → busy' c' = busy c') :
    Requests capacity (Function.update queue c (some rest)) (Function.update handling c (some k)) acks asked busy' := by
  obtain ⟨hasked, hwaiting, hfree⟩ := hp.queued c _ hqueue x k List.mem_cons_self
  obtain ⟨hlength, hdistinct⟩ := hp.orderly c _ hqueue
  change (k :: rest.filterMap Request.call).Nodup at hdistinct
  rw [List.nodup_cons, mem_filterMap_call] at hdistinct
  -- whoever else is queued is not the one that is taken
  have hfree' : ∀ {k'}, k' ≠ k → (∀ c', handling c' ≠ some k') → ∀ c', Function.update handling c (some k) c' ≠ some k' := by
    intro k' hne hfree' c'
    rw [Function.update_apply]
    split
    · exact fun h => hne (Option.some.inj h).symm
    · exact hfree' c'
  refine ⟨forall_update ?_ fun c' q' _ => hp.orderly c' q', forall_update ?_ ?_, forall_update ?_ ?_,
    fun k' y c' hasked' hwait => ?_, fun k' y c' hasked' hdropped => hp.dropped_update hqueue hasked' hdropped, hp.unasked⟩
  · rintro _ ⟨⟩
    exact ⟨(Nat.le_succ _).trans hlength, hdistinct.2⟩
  · rintro _ ⟨⟩ y k' hmem
    obtain ⟨hasked', hwait, hfree₁⟩ := hp.queued c _ hqueue y k' (List.mem_cons_of_mem _ hmem)
    exact ⟨hasked', hwait, hfree' (fun heq => hdistinct.1 ⟨y, heq ▸ hmem⟩) hfree₁⟩
  · intro c' q' hc h y k' hmem
    obtain ⟨hasked', hwait, hfree₁⟩ := hp.queued c' q' h y k' hmem
    exact ⟨hasked', hwait, hfree' (fun heq => hc (same_server hasked (heq ▸ hasked'))) hfree₁⟩
  · rintro _ ⟨⟩
    exact ⟨x, hasked, hwaiting, hbusy⟩
  · intro c' k' hc h
    rw [hother c' hc]
    exact hp.handled c' k' h
  · rcases hp.unanswered k' y c' hasked' hwait with ⟨q, hq, hmem⟩ | hhandled
    · by_cases hc : c' = c
      · subst hc
        obtain rfl := Option.some.inj (hqueue.symm.trans hq)
        rcases List.mem_cons.mp hmem with heq | hmem
        · obtain ⟨rfl, rfl⟩ := Request.precreateStream.inj heq
          exact .inr (Function.update_self ..)
        · exact .inl ⟨rest, Function.update_self .., hmem⟩
      · exact .inl ⟨q, by rwa [Function.update_of_ne hc], hmem⟩
    · have hc : c' ≠ c := by
        rintro rfl
        rw [hidle] at hhandled
        cases hhandled
      exact .inr (by rwa [Function.update_of_ne hc])

theorem Requests.answer (hhandling : handling c = some k) (result : Except String ClonedDescriptor)
    (hother : ∀ c', c' ≠ c → busy' c' = busy c') :
    Requests capacity queue (Function.update handling c none) (Function.update acks k (.resolved result)) asked
      busy' := by
  obtain ⟨x, hasked, hwaiting, -⟩ := hp.handled c k hhandling
  have hack : ∀ {k'} {v : Ack}, k' ≠ k → acks k' = v → Function.update acks k (.resolved result) k' = v :=
    fun hne h => by rwa [Function.update_of_ne hne]
  refine ⟨hp.orderly, fun c' q hq y k' hmem => ?_, forall_update (fun _ h => by cases h) fun c' k' hc h => ?_,
    fun k' y c' hasked' hwait => ?_, fun k' y c' hasked' hdropped => ?_, fun k' hasked' => ?_⟩
  · obtain ⟨hasked', hwait, hfree⟩ := hp.queued c' q hq y k' hmem
    refine ⟨hasked', hack (fun heq => hfree c (heq ▸ hhandling)) hwait, fun c₁ => ?_⟩
    rw [Function.update_apply]
    split
    · exact nofun
    · exact hfree c₁
  · obtain ⟨y, hasked', hwait, hbusy⟩ := hp.handled c' k' h
    exact ⟨y, hasked', hack (fun heq => hc (same_server hasked (heq ▸ hasked'))) hwait, by rw [hother c' hc, hbusy]⟩
  · have hk : k' ≠ k := by
      rintro rfl
      rw [Function.update_self] at hwait
      cases hwait
    rw [Function.update_of_ne hk] at hwait
    refine (hp.unanswered k' y c' hasked' hwait).imp_right fun h => ?_
    have hc : c' ≠ c := by
      rintro rfl
      exact hk (Option.some.inj (h.symm.trans hhandling))
    rwa [Function.update_of_ne hc]
  · have hk : k' ≠ k := by
      rintro rfl
      rw [Function.update_self] at hdropped
      cases hdropped
    rw [Function.update_of_ne hk] at hdropped
    exact hp.dropped k' y c' hasked' hdropped
  · refine hack ?_ (hp.unasked k' hasked')
    rintro rfl
    rw [hasked] at hasked'
    cases hasked'

theorem Requests.close (hqueue : queue c = some q) :
    Requests capacity (Function.update queue c none) handling
      (fun k => if k ∈ q.filterMap Request.call then .disconnected else acks k) asked busy := by
  have hdropped : ∀ {k'}, k' ∈ q.filterMap Request.call → (∃ y, asked k' = some (y, c)) ∧ ∀ c', handling c' ≠ some k' := by
    intro k' hmem
    obtain ⟨y, hmem⟩ := mem_filterMap_call.mp hmem
    obtain ⟨hasked, -, hhandling⟩ := hp.queued c q hqueue y k' hmem
    exact ⟨⟨y, hasked⟩, hhandling⟩
  have hack : ∀ {k'}, (k' ∉ q.filterMap Request.call) →
      (if k' ∈ q.filterMap Request.call then Ack.disconnected else acks k') = acks k' := fun h => if_neg h
  refine ⟨forall_update (fun _ h => by cases h) fun c' q' _ => hp.orderly c' q', forall_update (fun _ h => by cases h) ?_,
    fun c' k' h => ?_, fun k' y c' hasked hwait => ?_, fun k' y c' hasked hdrop => ?_, fun k' hasked => ?_⟩
  · intro c' q' hc h y k' hmem
    obtain ⟨hasked, hwait, hfree⟩ := hp.queued c' q' h y k' hmem
    refine ⟨hasked, (hack fun hin => ?_).trans hwait, hfree⟩
    obtain ⟨⟨y', hasked'⟩, -⟩ := hdropped hin
    exact hc (same_server hasked' hasked)
  · obtain ⟨y, hasked, hwait, hbusy⟩ := hp.handled c' k' h
    exact ⟨y, hasked, (hack fun hin => (hdropped hin).2 c' h).trans hwait, hbusy⟩
  · split at hwait
    · cases hwait
    · next hout =>
      refine (hp.unanswered k' y c' hasked hwait).imp_left ?_
      rintro ⟨q', hq', hmem⟩
      have hc : c' ≠ c := by
        rintro rfl
        obtain rfl := Option.some.inj (hqueue.symm.trans hq')
        exact hout (mem_filterMap_call.mpr ⟨y, hmem⟩)
      exact ⟨q', by rwa [Function.update_of_ne hc], hmem⟩
  · split at hdrop
    · next hin =>
      obtain ⟨⟨y', hasked'⟩, -⟩ := hdropped hin
      exact same_server hasked' hasked ▸ Function.update_self ..
    · exact hp.dropped_update hqueue hasked hdrop
  · refine (hack fun hin => ?_).trans (hp.unasked k' hasked)
    obtain ⟨⟨y, hasked'⟩, -⟩ := hdropped hin
    rw [hasked] at hasked'
    cases hasked'

end Requests

/-! ## Calls -/

/-- What a call has asked for at a stage. -/
def Asks (asked : Option (LiveId × Core)) : CallStage → Prop
  | .sendPrecreate _ _ => asked = none
  | .awaitAck x c => asked = some (x, c)
  | _ => True

structure Stages (calls : ℕ → Option CallStage) (callCount : ℕ) (asked : ℕ → Option (LiveId × Core)) : Prop where
  asks : ∀ k stage, calls k = some stage → Asks (asked k) stage
  uncalled : ∀ k, calls k = none → asked k = none
  fresh : ∀ k, callCount ≤ k → calls k = none

section Stages
variable {calls : ℕ → Option CallStage} {callCount : ℕ} {asked : ℕ → Option (LiveId × Core)}
  (hp : Stages calls callCount asked) {k : ℕ} {stage : CallStage}
include hp

theorem Stages.lt_callCount (h : calls k = some stage) : k < callCount := by
  by_contra hge
  rw [hp.fresh k (not_lt.mp hge)] at h
  cases h

/-- A call that is there, or the next one, gets to another stage, and may have asked for something on the way. -/
theorem Stages.update {n : ℕ} {v : Option (LiveId × Core)} (hk : k < n) (hn : callCount ≤ n) (hstage : Asks v stage) :
    Stages (Function.update calls k (some stage)) n (Function.update asked k v) := by
  refine ⟨fun k' stage' h => ?_, fun k' h => ?_, fun k' hk' => ?_⟩
  · by_cases hkk : k' = k
    · subst hkk
      obtain rfl : stage = stage' := by simpa using h
      rwa [Function.update_self]
    · rw [Function.update_of_ne hkk] at h ⊢
      exact hp.asks k' stage' h
  · have hkk : k' ≠ k := by
      rintro rfl
      rw [Function.update_self] at h
      cases h
    rw [Function.update_of_ne hkk] at h ⊢
    exact hp.uncalled k' h
  · rw [Function.update_of_ne (hk.trans_le hk').ne']
    exact hp.fresh k' (hn.trans hk')

theorem Stages.setCall {n : ℕ} (hk : k < n) (hn : callCount ≤ n) (hstage : Asks (asked k) stage) :
    Stages (Function.update calls k (some stage)) n asked := by
  have h := hp.update hk hn hstage
  rwa [Function.update_eq_self] at h

end Stages

theorem check_cases (rpc : Rpc) (w : World) :
    (∃ status, rpc.check w = .failed status) ∨ (∃ x c, rpc.check w = .sendPrecreate x c) ∨
      ∃ x g, rpc.check w = .describe x g ∧ w.registry x = some g := by
  cases rpc with
  | startLivestream liveId value =>
    simp only [Rpc.check]
    repeat' split
    all_goals simp
  | stopLivestream liveId =>
    simp only [Rpc.check]
    cases Hls.validateLiveId liveId with
    | error message => simp
    | ok x =>
      cases hx : w.registry x with
      | none => simp [hx]
      | some g => simp [hx]

/-! ## The invariant -/

structure Accounted (p : ControlPlane) : Prop where
  inStep : InStep p
  requests : Requests p.capacity p.queue p.handling p.acks p.asked fun c => (p.world.loop c).phase.unacked
  stages : Stages p.calls p.callCount p.asked

theorem Accounted.effect (hp : Accounted p) (h : Effect p p') : Accounted p' := by
  refine ⟨hp.inStep.effect h, ?_, ?_⟩
  · have hunacked : ∀ {c : Core} {w : World}, SameOther c p.world w →
        ∀ c', c' ≠ c → (w.loop c').phase.unacked = (p.world.loop c').phase.unacked :=
      fun hother c' hc => by rw [hother c' hc]
    have hsame : ∀ {c : Core} {w : World}, (w.loop c).phase.unacked = (p.world.loop c).phase.unacked →
        SameOther c p.world w → (fun c => (w.loop c).phase.unacked) = fun c => (p.world.loop c).phase.unacked :=
      fun hc hother => funext (forall_core _ hc (hunacked hother))
    cases h with
    | stay | call | restage => exact hp.requests
    | ask k x c q hstage hqueue hroom => exact hp.requests.ask (hp.stages.asks k _ hstage) hqueue hroom
    | askStop k x c found q hstage hqueue hroom =>
      exact hp.requests.requeue hqueue (by simpa using hroom) (by simp [Request.call]) (by simp)
    | quiet w hkept hloops =>
      have heq : (fun c => (w.loop c).phase.unacked) = fun c => (p.world.loop c).phase.unacked :=
        funext fun c => (hloops c).2.1
      exact heq ▸ hp.requests
    | register c k x g w hkept hk hbefore hafter hother =>
      exact hsame (by rw [hbefore, hafter]; rfl) hother ▸ hp.requests
    | answer c k x result w hkept hk hbefore hafter hother =>
      exact hp.requests.answer hk result (hunacked hother)
    | take c x k rest w hkept hqueue hidle hafter hother =>
      exact hp.requests.take hqueue hidle hafter.2.1 (hunacked hother)
    | refuse c x k rest message w hkept hqueue hidle hafter hother =>
      -- taken and answered in one step
      have htaken : Requests p.capacity (Function.update p.queue c (some rest)) (Function.update p.handling c (some k))
          p.acks p.asked (Function.update (fun c => (p.world.loop c).phase.unacked) c (some x)) :=
        hp.requests.take hqueue hidle (Function.update_self ..) fun c' hc => Function.update_of_ne hc ..
      have hback : Function.update (Function.update p.handling c (some k)) c none = p.handling := by
        rw [Function.update_idem, ← hidle, Function.update_eq_self]
      have hrest : ∀ c', c' ≠ c → (w.loop c').phase.unacked =
          Function.update (fun c => (p.world.loop c).phase.unacked) c (some x) c' := by
        intro c' hc
        rw [Function.update_of_ne hc]
        exact hunacked hother c' hc
      have hanswered := htaken.answer (Function.update_self ..) (.error message) hrest
      rwa [hback] at hanswered
    | takeStop c x rest w hkept hqueue hidle hafter hother =>
      have hbefore := (hp.inStep.handling c).mp hidle
      have hlength := (hp.requests.orderly c _ hqueue).1
      have hpopped := hp.requests.requeue hqueue ((Nat.le_succ _).trans hlength) rfl (by simp)
      exact hsame (by rw [hbefore, hafter.2]) hother ▸ hpopped
    | close c q hqueue => exact hp.requests.close hqueue
  · cases h with
    | call rpc =>
      have hunasked := hp.stages.uncalled _ (hp.stages.fresh _ le_rfl)
      refine hp.stages.setCall (Nat.lt_succ_self _) (Nat.le_succ _) ?_
      obtain ⟨status, h⟩ | ⟨x, c, h⟩ | ⟨x, g, h, -⟩ := check_cases rpc p.world <;> rw [h]
      · trivial
      · exact hunasked
      · trivial
    | restage k before after hbefore hmove =>
      refine hp.stages.setCall (hp.stages.lt_callCount hbefore) le_rfl ?_
      cases hmove <;> trivial
    | ask k x c q hstage => exact hp.stages.update (hp.stages.lt_callCount hstage) le_rfl rfl
    | askStop k x c found q hstage => exact hp.stages.setCall (hp.stages.lt_callCount hstage) le_rfl trivial
    | _ => exact hp.stages

/-! ## Sessions of the start calls -/

structure Granted (w : World) (handling : Core → Option ℕ) (acks : ℕ → Ack) (asked : ℕ → Option (LiveId × Core))
    (created : ℕ → Option ℕ) : Prop where
  session : ∀ k g, created k = some g → w.registeredAt g ≠ none ∧
    asked k = some (w.liveId g, (w.generations g).protocol)
  distinct : ∀ k k' g, created k = some g → created k' = some g → k = k'
  described : ∀ c k x g, handling c = some k → (w.loop c).phase = .precreate .describe c x g → created k = some g
  granted : ∀ k d, acks k = .resolved (.ok d) → created k ≠ none ∧ ∃ c, asked k = some (d.id, c)

section Granted
variable {w w' : World} {handling handling' : Core → Option ℕ} {acks : ℕ → Ack} {asked : ℕ → Option (LiveId × Core)}
  {created : ℕ → Option ℕ} (hg : Granted w handling acks asked created) {c : Core} {k g : ℕ} {x : LiveId}
include hg

theorem Granted.ask (hunasked : asked k = none) (v : Option (LiveId × Core)) :
    Granted w handling acks (Function.update asked k v) created := by
  have hkeep : ∀ {k' u}, asked k' = some u → Function.update asked k v k' = some u := by
    intro k' u h
    rw [Function.update_of_ne, h]
    rintro rfl
    rw [hunasked] at h
    cases h
  refine ⟨fun k' g h => ?_, hg.distinct, hg.described, fun k' d h => ?_⟩
  · obtain ⟨hregistered, hasked⟩ := hg.session k' g h
    exact ⟨hregistered, hkeep hasked⟩
  · obtain ⟨hcreated, c', hasked⟩ := hg.granted k' d h
    exact ⟨hcreated, c', hkeep hasked⟩

/-- A step of the servers in which no loop registers a session for a call. -/
theorem Granted.step (hkept : Kept w w')
    (hdescribed : ∀ c k x g, handling' c = some k → (w'.loop c).phase = .precreate .describe c x g →
      handling c = some k ∧ (w.loop c).phase = .precreate .describe c x g) :
    Granted w' handling' acks asked created := by
  refine ⟨fun k g h => ?_, hg.distinct, fun c k x g hk hphase => ?_, hg.granted⟩
  · obtain ⟨hregistered, hasked⟩ := hg.session k g h
    have hsession := hkept.session g hregistered
    exact ⟨hsession.registered, by rw [hsession.liveId, hsession.protocol, hasked]⟩
  · obtain ⟨hk, hphase⟩ := hdescribed c k x g hk hphase
    exact hg.described c k x g hk hphase

theorem Granted.register (hkept : Kept w w') (hk : handling c = some k)
    (hunique : ∀ c', handling c' = some k → c' = c) (hafter : (w'.loop c).phase = .precreate .describe c x g)
    (hother : SameOther c w w') (hnew : w.registeredAt g = none) (hregistered : w'.registeredAt g ≠ none)
    (hasked : asked k = some (w'.liveId g, (w'.generations g).protocol)) :
    Granted w' handling acks asked (Function.update created k (some g)) := by
  -- the session of another call was registered before
  have hold : ∀ k', created k' ≠ some g := fun k' h => (hg.session k' g h).1 hnew
  refine ⟨fun k' g' h => ?_, fun k₁ k₂ g' h₁ h₂ => ?_, forall_core c (fun k' x' g' hk' hphase => ?_)
    fun c' hc k' x' g' hk' hphase => ?_, fun k' d h => ?_⟩
  · rw [Function.update_apply] at h
    split at h
    · next heq =>
      cases h
      exact ⟨hregistered, heq ▸ hasked⟩
    · obtain ⟨hregistered', hasked'⟩ := hg.session k' g' h
      have hsession := hkept.session g' hregistered'
      exact ⟨hsession.registered, by rw [hsession.liveId, hsession.protocol, hasked']⟩
  · rw [Function.update_apply] at h₁ h₂
    split at h₁ <;> split at h₂
    · next heq₁ heq₂ => exact heq₁.trans heq₂.symm
    · cases h₁
      exact absurd h₂ (hold k₂)
    · cases h₂
      exact absurd h₁ (hold k₁)
    · exact hg.distinct k₁ k₂ g' h₁ h₂
  · obtain rfl := Option.some.inj (hk.symm.trans hk')
    obtain ⟨-, -, -, rfl⟩ := Phase.precreate.inj (hafter.symm.trans hphase)
    exact Function.update_self ..
  · rw [hother c' hc] at hphase
    have hne : k' ≠ k := fun heq => hc (hunique c' (heq ▸ hk'))
    rw [Function.update_of_ne hne]
    exact hg.described c' k' x' g' hk' hphase
  · obtain ⟨hcreated, hasked'⟩ := hg.granted k' d h
    refine ⟨?_, hasked'⟩
    rw [Function.update_apply]
    split
    · exact Option.some_ne_none g
    · exact hcreated

/-- Acks that resolve, or lose their sender. -/
theorem Granted.ack {acks' : ℕ → Ack}
    (h : ∀ k d, acks' k = .resolved (.ok d) →
      acks k = .resolved (.ok d) ∨ created k ≠ none ∧ ∃ c, asked k = some (d.id, c)) :
    Granted w handling acks' asked created :=
  ⟨hg.session, hg.distinct, hg.described, fun k d hd => (h k d hd).elim (hg.granted k d) id⟩

end Granted

/-- A call is told that its stream was started once its ack says so. -/
def Told (p : ControlPlane) : Prop :=
  ∀ k answer, p.calls k = some (.started answer) →
    ∃ d, p.acks k = .resolved (.ok d) ∧ answer = p.service.descriptorToProto d

theorem Told.effect (ht : Told p) (hp : Accounted p) (h : Effect p p') : Told p' := by
  -- a call whose answer has come is neither queued nor in the hands of a loop
  have hkeep : ∀ {k k' answer} (v : Ack), p.acks k = .waiting → p.calls k' = some (.started answer) →
      ∃ d, Function.update p.acks k v k' = .resolved (.ok d) ∧ answer = p.service.descriptorToProto d := by
    intro k k' answer v hwaiting h
    obtain ⟨d, hd, hanswer⟩ := ht k' answer h
    refine ⟨d, ?_, hanswer⟩
    rwa [Function.update_of_ne]
    rintro rfl
    rw [hwaiting] at hd
    cases hd
  have hset : ∀ {k stage} {answer : StreamDescriptor}, (∀ answer, stage ≠ .started answer) →
      ∀ k', Function.update p.calls k (some stage) k' = some (.started answer) →
        p.calls k' = some (.started answer) := by
    intro k stage answer hne k' h
    rw [Function.update_apply] at h
    split at h
    · exact absurd (Option.some.inj h) (hne answer)
    · exact h
  cases h with
  | stay | quiet | register | take | takeStop => exact ht
  | call rpc =>
    refine fun k answer h => ht k answer (hset (fun answer heq => ?_) k h)
    obtain ⟨status, hcheck⟩ | ⟨x, c, hcheck⟩ | ⟨x, g, hcheck, -⟩ := check_cases rpc p.world <;>
      rw [hcheck] at heq <;> cases heq
  | restage k before after hbefore hmove =>
    intro k' answer h
    cases hmove with
    | started x c d hack =>
      change Function.update p.calls k _ k' = _ at h
      rw [Function.update_apply] at h
      split at h
      · next heq => exact ⟨d, heq ▸ hack, (CallStage.started.inj (Option.some.inj h)).symm⟩
      · exact ht k' answer h
    | _ => exact ht k' answer (hset (fun _ heq => by cases heq) k' h)
  | ask k x c q => exact fun k' answer h => ht k' answer (hset (fun _ heq => by cases heq) k' h)
  | askStop k x c found q => exact fun k' answer h => ht k' answer (hset (fun _ heq => by cases heq) k' h)
  | answer c k x result w hkept hk =>
    obtain ⟨y, -, hwaiting, -⟩ := hp.requests.handled c k hk
    exact fun k' answer => hkeep _ hwaiting
  | refuse c x k rest message w hkept hqueue =>
    obtain ⟨-, hwaiting, -⟩ := hp.requests.queued c _ hqueue x k List.mem_cons_self
    exact fun k' answer => hkeep _ hwaiting
  | close c q hqueue =>
    intro k' answer h
    obtain ⟨d, hd, hanswer⟩ := ht k' answer h
    have hout : k' ∉ q.filterMap Request.call := by
      intro hin
      obtain ⟨y, hin⟩ := mem_filterMap_call.mp hin
      rw [(hp.requests.queued c q hqueue y k' hin).2.1] at hd
      cases hd
    exact ⟨d, (if_neg hout).trans hd, hanswer⟩

theorem granted_effect (hp : Accounted p) (hg : Granted p.world p.handling p.acks p.asked p.created)
    (h : Effect p p') : Granted p'.world p'.handling p'.acks p'.asked p'.created := by
  -- with one loop out of the question, the other is where it was
  have hdescribed : ∀ {c : Core} {w : World} {handling : Core → Option ℕ}, SameOther c p.world w →
      (∀ c', c' ≠ c → handling c' = p.handling c') →
      (handling c = none ∨ ∀ x g, (w.loop c).phase ≠ .precreate .describe c x g) →
      ∀ c' k x g, handling c' = some k → (w.loop c').phase = .precreate .describe c' x g →
        p.handling c' = some k ∧ (p.world.loop c').phase = .precreate .describe c' x g := by
    intro c w handling hother hsame hc
    refine forall_core c (fun k x g hk hphase => ?_) fun c' hne k x g hk hphase => ?_
    · rcases hc with hc | hc
      · rw [hc] at hk
        cases hk
      · exact absurd hphase (hc x g)
    · exact ⟨hsame c' hne ▸ hk, hother c' hne ▸ hphase⟩
  cases h with
  | stay | call | restage | askStop => exact hg
  | ask k x c q hstage => exact hg.ask (hp.stages.asks k _ hstage) _
  | quiet w hkept hloops => exact hg.step hkept fun c k x g hk hphase => ⟨hk, (hloops c).2.2 x g hphase⟩
  | register c k x g w hkept hk hbefore hafter hother hnew hregistered hid hprotocol =>
    obtain ⟨y, hasked, -, hunacked⟩ := hp.requests.handled c k hk
    obtain rfl : x = y := by simpa [hbefore, Phase.unacked] using hunacked
    refine hg.register hkept hk (fun c' hk' => ?_) hafter hother hnew hregistered (by rw [hid, hprotocol, hasked])
    obtain ⟨z, hasked', -⟩ := hp.requests.handled c' k hk'
    exact same_server hasked hasked'
  | answer c k x result w hkept hk hbefore hafter hother hok =>
    obtain ⟨y, hasked, -, hunacked⟩ := hp.requests.handled c k hk
    obtain rfl : x = y := Option.some.inj (hbefore.symm.trans hunacked)
    have hstep : Granted w (Function.update p.handling c none) p.acks p.asked p.created :=
      hg.step hkept (hdescribed hother (fun c' hc => Function.update_of_ne hc ..) (.inl (Function.update_self ..)))
    refine hstep.ack fun k' d h => ?_
    simp only [Function.update_apply] at h
    split at h
    · next heq =>
      obtain ⟨hid, g, hphase⟩ := hok d (Ack.resolved.inj h)
      refine .inr ⟨?_, c, by rw [heq, hid, hasked]⟩
      rw [heq, hg.described c k x g hk hphase]
      exact Option.some_ne_none g
    · exact .inl h
  | take c x k rest w hkept hqueue hidle hafter hother =>
    exact hg.step hkept (hdescribed hother (fun c' hc => Function.update_of_ne hc ..) (.inr hafter.2.2))
  | refuse c x k rest message w hkept hqueue hidle hafter hother =>
    refine (hg.step hkept (hdescribed hother (fun _ _ => rfl) (.inl hidle))).ack fun k' d h => ?_
    simp only [Function.update_apply] at h
    split at h
    · cases h
    · exact .inl h
  | takeStop c x rest w hkept hqueue hidle hafter hother =>
    exact hg.step hkept (hdescribed hother (fun _ _ => rfl) (.inl hidle))
  | close c q hqueue =>
    refine hg.ack fun k' d h => .inl ?_
    dsimp only at h
    split at h
    · cases h
    · exact h

/-! ## Sessions the stop calls found -/

def target : CallStage → Option (LiveId × ℕ)
  | .describe x g | .sendStop x _ g | .poll x g => some (x, g)
  | _ => none

structure Stopping (w : World) (calls : ℕ → Option CallStage) : Prop where
  found : ∀ k stage x g, calls k = some stage → target stage = some (x, g) → w.registeredAt g ≠ none ∧ w.liveId g = x
  gone : ∀ k g, calls k = some (.stopped g true) → w.registeredAt g ≠ none ∧ ∀ x, w.registry x ≠ some g

section Stopping
variable {w w' : World} {calls : ℕ → Option CallStage} (hs : Stopping w calls)
include hs

theorem Stopping.kept (hkept : Kept w w') : Stopping w' calls := by
  refine ⟨fun k stage x g h htarget => ?_, fun k g h => ?_⟩
  · obtain ⟨hregistered, hid⟩ := hs.found k stage x g h htarget
    have hsession := hkept.session g hregistered
    exact ⟨hsession.registered, hsession.liveId.trans hid⟩
  · obtain ⟨hregistered, hgone⟩ := hs.gone k g h
    have hsession := hkept.session g hregistered
    exact ⟨hsession.registered, fun x => hsession.gone x (hgone x)⟩

theorem Stopping.setCall {k : ℕ} {stage : CallStage}
    (hfound : ∀ x g, target stage = some (x, g) → w.registeredAt g ≠ none ∧ w.liveId g = x)
    (hgone : ∀ g, stage = .stopped g true → w.registeredAt g ≠ none ∧ ∀ x, w.registry x ≠ some g) :
    Stopping w (Function.update calls k (some stage)) := by
  refine ⟨fun k' stage' x g h htarget => ?_, fun k' g h => ?_⟩
  · rw [Function.update_apply] at h
    split at h
    · obtain rfl := Option.some.inj h
      exact hfound x g htarget
    · exact hs.found k' stage' x g h htarget
  · rw [Function.update_apply] at h
    split at h
    · exact hgone g (Option.some.inj h)
    · exact hs.gone k' g h

end Stopping

theorem stopping_effect (hw : WellFormed p.world) (hs : Stopping p.world p.calls) (h : Effect p p') :
    Stopping p'.world p'.calls := by
  cases h with
  | stay | close => exact hs
  | quiet w hkept | register c k x g w hkept | answer c k x result w hkept | take c x k rest w hkept
  | refuse c x k rest message w hkept | takeStop c x rest w hkept => exact hs.kept hkept
  | call rpc =>
    refine hs.setCall (fun x g htarget => ?_) fun g h => ?_
    · obtain ⟨status, heq⟩ | ⟨y, c, heq⟩ | ⟨y, g', heq, hregistry⟩ := check_cases rpc p.world <;>
        rw [heq] at htarget <;> cases htarget
      exact hw.sound.registry x g hregistry
    · obtain ⟨status, heq⟩ | ⟨y, c, heq⟩ | ⟨y, g', heq, -⟩ := check_cases rpc p.world <;> rw [heq] at h <;> cases h
  | ask k x c q => exact hs.setCall (fun _ _ h => by cases h) fun _ h => by cases h
  | askStop k x c found q hstage =>
    refine hs.setCall (fun y g htarget => ?_) fun _ h => by cases h
    cases htarget
    exact hs.found k _ x found hstage rfl
  | restage k before after hbefore hmove =>
    cases hmove with
    | unsent | started | failed | hungUp | expired => exact hs.setCall (fun _ _ h => by cases h) fun _ h => by cases h
    | described x c found | unstopped x c found =>
      refine hs.setCall (fun y g htarget => ?_) fun _ h => by cases h
      cases htarget
      exact hs.found k _ x found hbefore rfl
    | gone x found before hstage hregistry =>
      have hfound : p.world.registeredAt found ≠ none ∧ p.world.liveId found = x := by
        rcases hstage with rfl | rfl <;> exact hs.found k _ x found hbefore rfl
      refine hs.setCall (fun _ _ h => by cases h) fun g h => ?_
      cases h
      refine ⟨hfound.1, fun y hy => ?_⟩
      -- it could only be under its own key
      rw [← (hw.sound.registry y found hy).2, hfound.2, hregistry] at hy
      cases hy

/-! ## Runs -/

structure Settled (p : ControlPlane) : Prop where
  accounted : Accounted p
  granted : Granted p.world p.handling p.acks p.asked p.created
  told : Told p
  stopping : Stopping p.world p.calls

theorem settled_initial (ttl : Bool) (service : IngestGrpcService) (capacity : ℕ) (bound : Core → Bool) :
    Settled (initial ttl service capacity bound) := by
  have hqueue : ∀ c q, (initial ttl service capacity bound).queue c = some q → q = [] := by
    intro c q h
    simp only [initial] at h
    split at h
    · exact (Option.some.inj h).symm
    · cases h
  have hloop : ∀ c, (World.initial ttl).loop c = { phase := .idle c } := by
    intro c
    cases c <;> rfl
  refine ⟨⟨⟨wellFormed_initial ttl, fun c => ?_, fun c => ?_⟩, ⟨fun c q h => ?_, fun c q h x k hmem => ?_, nofun, nofun,
    nofun, fun _ _ => rfl⟩, ⟨nofun, fun _ _ => rfl, fun _ _ => rfl⟩⟩, ⟨nofun, nofun, nofun, nofun⟩, nofun, ⟨nofun, nofun⟩⟩
  · exact congrArg (fun t : Task => t.phase.control) (hloop c)
  · exact iff_of_true rfl (congrArg (fun t : Task => t.phase.unacked) (hloop c))
  · simp [hqueue c q h]
  · rw [hqueue c q h] at hmem
    cases hmem

theorem Settled.step (hp : Settled p) {a : PlaneAction} (h : p.step a = some p') : Settled p' := by
  have heffect := effect_of_step hp.accounted.inStep h
  exact ⟨hp.accounted.effect heffect, granted_effect hp.accounted hp.granted heffect,
    hp.told.effect hp.accounted heffect, stopping_effect hp.accounted.inStep.wellFormed hp.stopping heffect⟩

/-! ## Requests and answers over whole runs -/

theorem Effect.keepsSession (h : Effect p p') {g : ℕ} (hg : p.world.registeredAt g ≠ none) :
    KeepsSession p.world p'.world g := by
  cases h with
  | stay | call | restage | ask | askStop | close => exact ⟨rfl, rfl, hg, fun _ => id⟩
  | quiet w hkept | register c k x g w hkept | answer c k x result w hkept | take c x k rest w hkept
  | refuse c x k rest message w hkept | takeStop c x rest w hkept => exact hkept.session _ hg

/-- How often the request of a call stands in the queue of a server. -/
def queuedCount (p : ControlPlane) (k : ℕ) (c : Core) : ℕ := (((p.queue c).getD []).filterMap Request.call).count k

def heldCount (p : ControlPlane) (k : ℕ) (c : Core) : ℕ := if p.handling c = some k then 1 else 0

/-- A call also learns that the sender of its `ack` was dropped. -/
def answeredCount (p : ControlPlane) (k : ℕ) : ℕ :=
  match p.acks k with
  | .waiting => 0
  | .resolved _ | .disconnected => 1

section Places
variable {k : ℕ} {x : LiveId} {c : Core}

theorem Accounted.queuedCount_eq_zero (hp : Accounted p) (h : ∀ y, p.asked k ≠ some (y, c)) : p.queuedCount k c = 0 := by
  refine List.count_eq_zero.mpr fun hmem => ?_
  obtain ⟨y, hy⟩ := mem_filterMap_call.mp hmem
  cases hq : p.queue c with
  | none => simp [hq] at hy
  | some q => exact h y (hp.requests.queued c q hq y k (by simpa [hq] using hy)).1

theorem Accounted.heldCount_eq_zero (hp : Accounted p) (h : ∀ y, p.asked k ≠ some (y, c)) : p.heldCount k c = 0 := by
  refine if_neg fun hk => ?_
  obtain ⟨y, hy, -⟩ := hp.requests.handled c k hk
  exact h y hy

theorem Accounted.queuedCount_le_one (hp : Accounted p) : p.queuedCount k c ≤ 1 := by
  cases hq : p.queue c with
  | none => simp [queuedCount, hq]
  | some q =>
    simp only [queuedCount, hq, Option.getD_some]
    exact List.nodup_iff_count_le_one.mp (hp.requests.orderly c q hq).2 k

theorem Accounted.queuedCount_pos_iff (hp : Accounted p) (hasked : p.asked k = some (x, c)) :
    0 < p.queuedCount k c ↔ ∃ q, p.queue c = some q ∧ Request.precreateStream x k ∈ q := by
  rw [queuedCount, List.count_pos_iff, mem_filterMap_call]
  constructor
  · rintro ⟨y, hy⟩
    cases hq : p.queue c with
    | none => simp [hq] at hy
    | some q =>
      rw [hq, Option.getD_some] at hy
      have hsame := (hp.requests.queued c q hq y k hy).1
      rw [hasked, Option.some.injEq, Prod.mk.injEq] at hsame
      exact ⟨q, rfl, hsame.1 ▸ hy⟩
  · rintro ⟨q, hq, hx⟩
    exact ⟨x, by simpa [hq] using hx⟩

/-- A request that was sent is in one place: in the queue, with the loop, or answered. -/
theorem Accounted.one_place (hp : Accounted p) (hasked : p.asked k = some (x, c)) :
    p.queuedCount k c + p.heldCount k c + p.answeredCount k = 1 := by
  have hqueued := hp.queuedCount_pos_iff hasked
  have hle := hp.queuedCount_le_one (k := k) (c := c)
  by_cases hwaiting : p.acks k = .waiting
  · have hanswered : p.answeredCount k = 0 := by simp [answeredCount, hwaiting]
    rcases hp.requests.unanswered k x c hasked hwaiting with ⟨q, hq, hmem⟩ | hhandled
    · have hheld : p.heldCount k c = 0 := if_neg ((hp.requests.queued c q hq x k hmem).2.2 c)
      have := hqueued.mpr ⟨q, hq, hmem⟩
      omega
    · have hheld : p.heldCount k c = 1 := if_pos hhandled
      have hnot : ¬ 0 < p.queuedCount k c := by
        rw [hqueued]
        rintro ⟨q, hq, hmem⟩
        exact (hp.requests.queued c q hq x k hmem).2.2 c hhandled
      omega
  · have hanswered : p.answeredCount k = 1 := by
      unfold answeredCount
      split
      · contradiction
      · rfl
      · rfl
    have hheld : p.heldCount k c = 0 := by
      refine if_neg fun hhandled => ?_
      obtain ⟨y, -, hw, -⟩ := hp.requests.handled c k hhandled
      exact hwaiting hw
    have hnot : ¬ 0 < p.queuedCount k c := by
      rw [hqueued]
      rintro ⟨q, hq, hmem⟩
      exact hwaiting (hp.requests.queued c q hq x k hmem).2.1
    omega

end Places

section Runs
variable {ttl : Bool} {service : IngestGrpcService} {capacity : ℕ} {bound : Core → Bool} {acts : List PlaneAction}

theorem settled_of_run (hrun : run step (initial ttl service capacity bound) acts = some p) : Settled p :=
  run_invariant (I := Settled) (fun _ _ _ hp _ hstep => hp.step hstep) (settled_initial ttl service capacity bound)
    (eachStep_trivial _ acts) hrun

/-- Whatever calls, connections, timers and cancellations come between, a request that was sent is in exactly one place,
and with no other server. No queue ever holds more than its capacity, and an `ack` is dropped only with the queue. -/
theorem request_accounted (hrun : run step (initial ttl service capacity bound) acts = some p) {k : ℕ} {x : LiveId}
    {c : Core} (hasked : p.asked k = some (x, c)) :
    p.queuedCount k c + p.heldCount k c + p.answeredCount k = 1 ∧
      (∀ c', c' ≠ c → p.queuedCount k c' = 0 ∧ p.heldCount k c' = 0) ∧
      (∀ c' q, p.queue c' = some q → q.length ≤ max p.capacity 1) ∧
      (p.acks k = .disconnected → p.queue c = none) := by
  have hp := (settled_of_run hrun).accounted
  refine ⟨hp.one_place hasked, fun c' hc => ?_, fun c' q hq => (hp.requests.orderly c' q hq).1,
    hp.requests.dropped k x c hasked⟩
  have helse : ∀ y, p.asked k ≠ some (y, c') := fun y hy => hc (same_server hasked hy)
  exact ⟨hp.queuedCount_eq_zero helse, hp.heldCount_eq_zero helse⟩

theorem request_accounted_queued : ∃ p, run step (initial false sampleService 4 fun _ => true)
    [.call (.startLivestream "cam" 1), .goOn 0] = some p ∧
      p.queuedCount 0 .rtmp + p.heldCount 0 .rtmp + p.answeredCount 0 = 1 := by
  have hrun : (run step (initial false sampleService 4 fun _ => true) [.call (.startLivestream "cam" 1), .goOn 0]).bind
      (·.asked 0) = some ("cam", .rtmp) := by decide
  obtain ⟨p, hp, hasked⟩ := Option.bind_eq_some_iff.mp hrun
  exact ⟨p, hp, (request_accounted hp hasked).1⟩

/-- A start call for `cam`, sent, handled by the loop of the RTMP server and answered. -/
def startCam : List PlaneAction :=
  [.call (.startLivestream "cam" 1), .goOn 0, .receive .rtmp] ++ List.replicate 4 (.serve (.run 0 .go)) ++ [.goOn 0]

/-- A stop that reports success: the session it found is out of the registry, then and ever after. -/
theorem stopped_gone (hrun : run step (initial ttl service capacity bound) acts = some p) {k g : ℕ}
    (hstopped : p.calls k = some (.stopped g true)) {later : List PlaneAction} (hlater : run step p later = some p') :
    ∀ x, p'.world.registry x ≠ some g := by
  have hp := settled_of_run hrun
  obtain ⟨hregistered, hgone⟩ := hp.stopping.gone k g hstopped
  have hstep : ∀ (s : ControlPlane) a t,
      (Settled s ∧ s.world.registeredAt g ≠ none ∧ ∀ x, s.world.registry x ≠ some g) → True → s.step a = some t →
      Settled t ∧ t.world.registeredAt g ≠ none ∧ ∀ x, t.world.registry x ≠ some g := by
    rintro s a t ⟨hs, hg, hout⟩ - h
    have hkeeps := (effect_of_step hs.accounted.inStep h).keepsSession hg
    exact ⟨hs.step h, hkeeps.registered, fun x => hkeeps.gone x (hout x)⟩
  exact (run_invariant hstep ⟨hp, hregistered, hgone⟩ (eachStep_trivial p later) hlater).2.2

/-- The session of `startCam` is stopped; the cleanup task of its lifecycle takes it out of the registry. -/
def stopCam : List PlaneAction :=
  startCam ++ [.serve (.run 0 .go), .call (.stopLivestream "cam"), .goOn 1, .goOn 1, .receive .rtmp, .serve (.run 0 .go),
    .serve (.run 2 .go), .serve (.run 2 .go), .goOn 1]

theorem stopped_gone_cam : ∃ p, run step (initial false sampleService 4 fun _ => true) stopCam = some p ∧
    p.calls 1 = some (.stopped 0 true) ∧ ∀ x, p.world.registry x ≠ some 0 := by
  have hrun : (run step (initial false sampleService 4 fun _ => true) stopCam).bind (·.calls 1) =
      some (.stopped 0 true) := by decide
  obtain ⟨p, hp, hstopped⟩ := Option.bind_eq_some_iff.mp hrun
  exact ⟨p, hp, hstopped, stopped_gone hp hstopped (show run step p [] = some p from rfl)⟩

end Runs

end LivestreamRs.Sessions.ControlPlane
