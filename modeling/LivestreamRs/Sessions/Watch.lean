import LivestreamRs.Sessions.Registry

/-! # Watching the state of a stream

`watch_livestream` and `wait_for_next_state` (`livestream-transport/src/grpc/server.rs`) beside the registry. The
watch polls the state under a key and knows a session only by its key, so when another session is registered between
two polls it goes on with that one. Its statuses move forward exactly as long as each one it yields is of the session
it yielded last (`watch_forward_only_iff`).
-/
namespace LivestreamRs.Sessions
open Foundations
set_option autoImplicit false

/-- A status the stream has yielded, and the session it is about: the one it was read from, or, when the key has
disappeared, the one reported last. -/
structure Report where
  state : SessionState
  session : Option SessionEntry
  deriving DecidableEq

inductive WatchTask
  -- `get_state` before its lookup, and between its lookup and its read
  | lookup
  | read (entry : SessionEntry)
  -- at the `recv` with its timeout, or in the sleep behind it
  | waiting
  | ended
  deriving DecidableEq

structure Watch where
  registry : SessionRegistry
  task : WatchTask := .lookup
  reports : List Report := []

namespace Watch

def new (descriptors : ℕ → SessionDescriptor) : Watch where
  registry := .new descriptors

section Operations
variable (w : Watch)

/-- The variable `previous_state` of the stream. -/
def previousState : Option SessionState := w.reports.getLast?.map (·.state)

/-- The session of the last report. -/
def session : Option SessionEntry := w.reports.getLast?.bind (·.session)

/-- `yield`, and the `break` behind it. -/
def report (state : SessionState) (session : Option SessionEntry) : Watch :=
  { w with
    task := if state = .disconnected then .ended else .lookup
    reports := w.reports ++ [⟨state, session⟩] }

/-- What `get_state` reads. -/
def stateOf (entry : SessionEntry) : SessionState := (w.registry.descriptors entry.descriptor).state

end Operations

inductive Action
  | registry (a : SessionRegistry.Action)
  -- the watch goes on: it polls, or whatever it waited for has happened
  | poll
  deriving DecidableEq

def step (liveId : LiveId) (w : Watch) : Action → Option Watch
  | .registry a => (w.registry.step a).map fun r => { w with registry := r }
  | .poll =>
    match w.task with
    | .lookup =>
      match w.registry.get liveId with
      | some entry => some { w with task := .read entry }
      | none =>
        if w.previousState = some .disconnected then some { w with task := .ended }
        else some (w.report .disconnected w.session)
    | .read entry =>
      if w.previousState ≠ some (w.stateOf entry) then some (w.report (w.stateOf entry) (some entry))
      else if w.stateOf entry = .disconnected then some { w with task := .ended }
      else some { w with task := .waiting }
    | .waiting => some { w with task := .lookup }
    | .ended => none

/-! ## What a step can do -/

inductive Stepped (liveId : LiveId) (w : Watch) : Action → Watch → Prop
  | registry (a : SessionRegistry.Action) (r : SessionRegistry) (result : Except String Unit)
      (h : SessionRegistry.Performed w.registry a r result) :
      Stepped liveId w (.registry a) { w with registry := r }
  | found (entry : SessionEntry) (htask : w.task = .lookup) (hentry : w.registry.get liveId = some entry) :
      Stepped liveId w .poll { w with task := .read entry }
  | vanished (htask : w.task = .lookup) (hstate : w.previousState ≠ some .disconnected) :
      Stepped liveId w .poll (w.report .disconnected w.session)
  | yielded (entry : SessionEntry) (htask : w.task = .read entry) (hstate : w.previousState ≠ some (w.stateOf entry)) :
      Stepped liveId w .poll (w.report (w.stateOf entry) (some entry))
  -- nothing new: the watch waits, polls again or is over
  | idle (task : WatchTask) (hrunning : w.task ≠ .ended) (htask : ∀ entry, task ≠ .read entry)
      (hread : ∀ entry, w.task = .read entry → w.previousState = some (w.stateOf entry)) :
      Stepped liveId w .poll { w with task := task }

theorem stepped_of_step {liveId : LiveId} {w w' : Watch} {a : Action} (h : w.step liveId a = some w') :
    Stepped liveId w a w' := by
  cases a with
  | registry a =>
    obtain ⟨r, hr, rfl⟩ := Option.map_eq_some_iff.mp h
    obtain ⟨result, hperform⟩ := SessionRegistry.perform_of_step hr
    exact .registry a r result (SessionRegistry.performed_of_perform hperform)
  | poll =>
    cases htask : w.task with
    | lookup =>
      have hrunning : w.task ≠ .ended := by rw [htask]; exact nofun
      have hread : ∀ entry, w.task = .read entry → w.previousState = some (w.stateOf entry) := by
        intro entry heq
        rw [htask] at heq
        cases heq
      simp only [step, htask] at h
      cases hget : w.registry.get liveId with
      | some entry =>
        simp only [hget] at h
        exact Option.some.inj h ▸ .found entry htask hget
      | none =>
        simp only [hget] at h
        split at h
        · exact Option.some.inj h ▸ .idle .ended hrunning (fun _ => nofun) hread
        · next hstate => exact Option.some.inj h ▸ .vanished htask hstate
    | read entry =>
      have hrunning : w.task ≠ .ended := by rw [htask]; exact nofun
      simp only [step, htask] at h
      split at h
      · next hstate => exact Option.some.inj h ▸ .yielded entry htask hstate
      · next hstate =>
        have hread : ∀ entry', w.task = .read entry' → w.previousState = some (w.stateOf entry') := by
          intro entry' heq
          rw [htask] at heq
          cases heq
          exact not_not.mp hstate
        split at h
        · exact Option.some.inj h ▸ .idle .ended hrunning (fun _ => nofun) hread
        · exact Option.some.inj h ▸ .idle .waiting hrunning (fun _ => nofun) hread
    | waiting =>
      have hrunning : w.task ≠ .ended := by rw [htask]; exact nofun
      simp only [step, htask] at h
      refine Option.some.inj h ▸ .idle .lookup hrunning (fun _ => nofun) fun entry heq => ?_
      rw [htask] at heq
      cases heq
    | ended =>
      simp only [step, htask] at h
      cases h

/-! ## The sessions a watch comes across -/

/-- The session was registered, and not after the one that is under the key now. -/
def Seen (liveId : LiveId) (r : SessionRegistry) (e : SessionEntry) : Prop :=
  e.call < r.calls ∧ ∀ p ∈ r.sessions, p.1 = liveId → e = p.2 ∨ e.call < p.2.call

theorem Seen.performed {liveId : LiveId} {r r' : SessionRegistry} {e : SessionEntry} (h : Seen liveId r e)
    {a : SessionRegistry.Action} {result : Except String Unit} (hp : SessionRegistry.Performed r a r' result) :
    Seen liveId r' e := by
  cases hp with
  | refused | notFound | found | cancelled | failed | written | disconnected => exact h
  | registered session ct entry hentry hvacant =>
    refine ⟨Nat.lt_succ_of_lt h.1, fun p hp hkey => ?_⟩
    rcases List.mem_cons.mp hp with rfl | hp
    · right
      rw [hentry]
      exact h.1
    · exact h.2 p hp hkey
  | removed i streamKey entry htask => exact ⟨h.1, fun p hp => h.2 p (SessionRegistry.mem_remove.mp hp).1⟩

theorem seen_get {liveId : LiveId} {r : SessionRegistry} (hr : r.Consistent) {entry : SessionEntry}
    (h : r.get liveId = some entry) : Seen liveId r entry := by
  refine ⟨hr.calls _ (SessionRegistry.get_eq_some h), ?_⟩
  rintro ⟨key, other⟩ hp rfl
  exact .inl (SessionRegistry.entry_unique hr.keys (SessionRegistry.get_eq_some h) hp)

/-- What holds in every run. -/
structure Tracked (liveId : LiveId) (w : Watch) : Prop where
  consistent : w.registry.Consistent
  -- a disconnect is the last report, and only the first can be without a session
  running : w.task ≠ .ended → ∀ x ∈ w.reports, x.state ≠ .disconnected ∧ x.session.isSome = true
  final : ∀ x ∈ w.reports.dropLast, x.state ≠ .disconnected
  alone : ∀ x ∈ w.reports, x.session = none → w.reports = [x]
  forward : w.reports.IsChain fun x y => x.session = y.session → x.state.rank < y.state.rank
  ordered : w.reports.Pairwise fun x y => ∀ e ∈ x.session, ∀ e' ∈ y.session, e = e' ∨ e.call < e'.call
  seen : ∀ x ∈ w.reports, ∀ e ∈ x.session, Seen liveId w.registry e
  reading : ∀ entry, w.task = .read entry → Seen liveId w.registry entry ∧
    ∀ x ∈ w.reports, ∀ e ∈ x.session, e = entry ∨ e.call < entry.call
  ranked : w.task ≠ .ended → ∀ x ∈ w.reports.getLast?, ∀ e ∈ x.session, x.state.rank ≤ (w.stateOf e).rank

variable {liveId : LiveId} {w w' : Watch} {a : Action}

theorem session_nil (h : w.reports = []) : w.session = none := by
  rw [session, h]
  rfl

theorem session_concat {init : List Report} {last : Report} (h : w.reports = init ++ [last]) :
    w.session = last.session := by
  rw [session, h, List.getLast?_concat]
  rfl

theorem session_report (w : Watch) (state : SessionState) (session : Option SessionEntry) :
    (w.report state session).session = session := by
  rw [Watch.session, report, List.getLast?_concat]
  rfl

theorem tracked_new (liveId : LiveId) (descriptors : ℕ → SessionDescriptor) : Tracked liveId (new descriptors) where
  consistent := SessionRegistry.consistent_new descriptors
  running _ _ hx := by cases hx
  final _ hx := by cases hx
  alone _ hx := by cases hx
  forward := .nil
  ordered := .nil
  seen _ hx := by cases hx
  reading _ h := by cases h
  ranked _ _ hx := by cases hx

theorem Tracked.report (h : Tracked liveId w) (hrunning : w.task ≠ .ended) {state : SessionState}
    {session : Option SessionEntry} (hnone : session = none → w.reports = [])
    (hforward : ∀ x ∈ w.reports.getLast?, x.session = session → x.state.rank < state.rank)
    (hordered : ∀ x ∈ w.reports, ∀ e ∈ x.session, ∀ e' ∈ session, e = e' ∨ e.call < e'.call)
    (hseen : ∀ e ∈ session, Seen liveId w.registry e)
    (hopen : state ≠ .disconnected → ∃ e, session = some e ∧ state = w.stateOf e) :
    Tracked liveId (w.report state session) := by
  have hmem : ∀ x ∈ (w.report state session).reports, x ∈ w.reports ∨ x = ⟨state, session⟩ := fun x hx =>
    (List.mem_append.mp hx).imp_right List.mem_singleton.mp
  have htask : (w.report state session).task ≠ .ended → state ≠ .disconnected := by
    rintro hne rfl
    exact hne rfl
  exact {
    consistent := h.consistent
    running := fun hne x hx => by
      rcases hmem x hx with hx | rfl
      · exact h.running hrunning x hx
      · obtain ⟨e, he, -⟩ := hopen (htask hne)
        exact ⟨htask hne, by rw [he]; rfl⟩
    final := fun x hx => by
      rw [Watch.report, List.dropLast_concat] at hx
      exact (h.running hrunning x hx).1
    alone := fun x hx hsession => by
      rcases hmem x hx with hx | rfl
      · exact absurd (h.running hrunning x hx).2 (by simp [hsession])
      · rw [Watch.report, hnone hsession]
        rfl
    forward := by
      refine List.isChain_append.mpr ⟨h.forward, List.isChain_singleton _, fun x hx y hy => ?_⟩
      obtain rfl := Option.some.inj hy
      exact hforward x hx
    ordered := by
      refine List.pairwise_append.mpr ⟨h.ordered, List.pairwise_singleton _ _, fun x hx y hy => ?_⟩
      obtain rfl := List.mem_singleton.mp hy
      exact hordered x hx
    seen := fun x hx => by
      rcases hmem x hx with hx | rfl
      · exact h.seen x hx
      · exact hseen
    reading := fun entry heq => by
      simp only [Watch.report] at heq
      split at heq <;> cases heq
    ranked := fun hne x hx e he => by
      rw [Watch.report, List.getLast?_concat] at hx
      obtain rfl := Option.some.inj hx
      obtain ⟨e', he', hstate⟩ := hopen (htask hne)
      obtain rfl := Option.some.inj (he'.symm.trans he)
      exact (congrArg SessionState.rank hstate).le }

/-- The watch goes on without a report. -/
theorem Tracked.move (h : Tracked liveId w) (hrunning : w.task ≠ .ended) {task : WatchTask}
    (hread : ∀ entry, task = .read entry → w.registry.get liveId = some entry) :
    Tracked liveId { w with task := task } where
  consistent := h.consistent
  running _ := h.running hrunning
  final := h.final
  alone := h.alone
  forward := h.forward
  ordered := h.ordered
  seen := h.seen
  reading entry heq :=
    ⟨seen_get h.consistent (hread entry heq),
      fun x hx e he => (h.seen x hx e he).2 _ (SessionRegistry.get_eq_some (hread entry heq)) rfl⟩
  ranked _ := h.ranked hrunning

theorem rank_injective {s t : SessionState} (h : s.rank = t.rank) : s = t := by
  revert h
  cases s <;> cases t <;> decide

/-- The key has disappeared: the report is about the session of the last one. -/
theorem Tracked.vanished (h : Tracked liveId w) (hrunning : w.task ≠ .ended) :
    Tracked liveId (w.report .disconnected w.session) := by
  rcases List.eq_nil_or_concat' w.reports with hnil | ⟨init, last, hconcat⟩
  · have hsession : w.session = none := session_nil hnil
    rw [hsession]
    refine h.report hrunning (fun _ => hnil) (fun x hx => ?_) (fun x hx => ?_) nofun fun hne => absurd rfl hne
    · rw [hnil] at hx
      cases hx
    · rw [hnil] at hx
      cases hx
  · have hsession : w.session = last.session := session_concat hconcat
    have hlast : last ∈ w.reports := by simp [hconcat]
    have hordered := h.ordered
    rw [hconcat, List.pairwise_append] at hordered
    rw [hsession]
    refine h.report hrunning (fun hnone => ?_) (fun x hx _ => ?_) (fun x hx e he e' he' => ?_) (h.seen last hlast)
      fun hne => absurd rfl hne
    · exact absurd (h.running hrunning last hlast).2 (by simp [hnone])
    · refine (SessionState.rank_le _).lt_of_ne fun hrank => ?_
      exact (h.running hrunning x (List.mem_of_getLast? hx)).1 (rank_injective hrank)
    · rw [hconcat] at hx
      rcases List.mem_append.mp hx with hx | hx
      · exact hordered.2.2 x hx last (List.mem_singleton_self last) e he e' he'
      · rw [List.mem_singleton.mp hx] at he
        exact .inl (Option.some.inj (he.symm.trans he'))

theorem Tracked.step (h : Tracked liveId w) (hstep : Stepped liveId w a w') : Tracked liveId w' := by
  cases hstep with
  | registry a r result hp =>
    exact {
      consistent := h.consistent.performed hp
      running := h.running
      final := h.final
      alone := h.alone
      forward := h.forward
      ordered := h.ordered
      seen := fun x hx e he => (h.seen x hx e he).performed hp
      reading := fun entry heq => ⟨(h.reading entry heq).1.performed hp, (h.reading entry heq).2⟩
      ranked := fun hne x hx e he => (h.ranked hne x hx e he).trans (hp.rank_le e.descriptor) }
  | found entry htask hentry =>
    exact h.move (by rw [htask]; exact nofun) fun entry' heq => WatchTask.read.inj heq ▸ hentry
  | vanished htask hstate => exact h.vanished (by rw [htask]; exact nofun)
  | yielded entry htask hstate =>
    have hrunning : w.task ≠ .ended := by rw [htask]; exact nofun
    obtain ⟨hseen, hordered⟩ := h.reading entry htask
    refine h.report hrunning (fun heq => by cases heq) (fun x hx hsession => ?_) (fun x hx e he e' he' => ?_)
      (fun e he => ?_) fun _ => ⟨entry, rfl, rfl⟩
    · refine (h.ranked hrunning x hx entry hsession).lt_of_ne fun hrank => hstate ?_
      rw [previousState, hx, Option.map_some, rank_injective hrank]
    · obtain rfl := Option.some.inj he'
      exact hordered x hx e he
    · obtain rfl := Option.some.inj he
      exact hseen
  | idle task hrunning htask hread => exact h.move hrunning fun entry heq => absurd heq (htask entry)

/-! ## Forward only -/

structure ForwardOnly (reports : List Report) : Prop where
  increasing : (reports.map (·.state.rank)).Pairwise (· < ·)
  -- before anything of a later session comes the disconnect of the earlier one
  disconnected_first : ∀ pre x post e e', reports = pre ++ x :: post → x.session = some e' →
    (∃ y ∈ pre, y.session = some e) → e.call < e'.call → ∃ y ∈ pre, y.session = some e ∧ y.state = .disconnected

/-- A watch ends with a disconnect, so it must keep to one session. -/
theorem Tracked.forwardOnly_iff (h : Tracked liveId w) :
    ForwardOnly w.reports ↔ ∀ x ∈ w.reports, x.session = w.session := by
  constructor
  · intro hforward x hx
    obtain ⟨init, last, hconcat⟩ := (List.eq_nil_or_concat' w.reports).resolve_left (List.ne_nil_of_mem hx)
    rw [session_concat hconcat]
    have hlast : last ∈ w.reports := by simp [hconcat]
    have hmem := hx
    rw [hconcat] at hmem
    rcases List.mem_append.mp hmem with hinit | hmem
    · have hsome : ∀ y ∈ w.reports, y.session ≠ none := by
        intro y hy hnone
        have hlength := congrArg List.length (h.alone y hy hnone)
        rw [hconcat, List.length_append, List.length_singleton, List.length_singleton] at hlength
        exact List.ne_nil_of_mem hinit (List.length_eq_zero_iff.mp (by omega))
      obtain ⟨e, he⟩ := Option.ne_none_iff_exists'.mp (hsome x hx)
      obtain ⟨e', he'⟩ := Option.ne_none_iff_exists'.mp (hsome last hlast)
      have hordered := h.ordered
      rw [hconcat, List.pairwise_append] at hordered
      rcases hordered.2.2 x hinit last (List.mem_singleton_self last) e he e' he' with rfl | hlater
      · rw [he, he']
      · obtain ⟨y, hy, -, hstate⟩ := hforward.disconnected_first init last [] e e' hconcat he' ⟨x, hinit, he⟩ hlater
        have hfinal := h.final y (by rwa [hconcat, List.dropLast_concat])
        exact absurd hstate hfinal
    · rw [List.mem_singleton.mp hmem]
  · intro hone
    refine ⟨?_, ?_⟩
    · rw [← List.isChain_iff_pairwise, List.isChain_map]
      exact h.forward.imp_of_mem_imp fun x y hx hy hrank => hrank ((hone x hx).trans (hone y hy).symm)
    · rintro pre x post e e' hsplit hx ⟨y, hy, hey⟩ hlater
      have hsame : y.session = x.session := by
        rw [hone y (by simp [hsplit, hy]), hone x (by simp [hsplit])]
      rw [hx, hey] at hsame
      obtain rfl := Option.some.inj hsame
      exact absurd hlater (lt_irrefl _)

/-- A status that is yielded is of the session reported last, or it is the first. -/
def Continues (w : Watch) : Action → Prop
  | .registry _ => True
  | .poll =>
    match w.task with
    | .read entry => w.previousState = some (w.stateOf entry) ∨ w.session = none ∨ w.session = some entry
    | .lookup | .waiting | .ended => True

instance (w : Watch) : (a : Action) → Decidable (Continues w a)
  | .registry _ => isTrue trivial
  | .poll =>
    match h : w.task with
    | .read entry =>
      decidable_of_iff (w.previousState = some (w.stateOf entry) ∨ w.session = none ∨ w.session = some entry)
        (by simp only [Continues, h])
    | .lookup | .waiting | .ended => isTrue (by simp only [Continues, h])

theorem oneSession_step (h : Tracked liveId w) (hstep : Stepped liveId w a w') :
    (∀ x ∈ w'.reports, x.session = w'.session) ↔ (∀ x ∈ w.reports, x.session = w.session) ∧ Continues w a := by
  cases hstep with
  | registry a r result hp => exact (and_iff_left trivial).symm
  | found entry htask hentry =>
    refine (and_iff_left ?_).symm
    simp only [Continues, htask]
  | vanished htask hstate =>
    have hcontinues : Continues w .poll := by simp only [Continues, htask]
    rw [and_iff_left hcontinues, session_report]
    simp [report, or_imp, forall_and]
  | yielded entry htask hstate =>
    have hrunning : w.task ≠ .ended := by rw [htask]; exact nofun
    have hreports : (∀ x ∈ (w.report (w.stateOf entry) (some entry)).reports, x.session = some entry) ↔
        ∀ x ∈ w.reports, x.session = some entry := by
      simp [report, or_imp, forall_and]
    simp only [Continues, htask, hstate, false_or, session_report]
    rw [hreports]
    rcases List.eq_nil_or_concat' w.reports with hnil | ⟨init, last, hconcat⟩
    · have hsession : w.session = none := session_nil hnil
      simp [hnil, hsession]
    · have hlast : last ∈ w.reports := by simp [hconcat]
      have hsome := (h.running hrunning last hlast).2
      rw [session_concat hconcat]
      constructor
      · exact fun hall => ⟨fun x hx => (hall x hx).trans (hall last hlast).symm, .inr (hall last hlast)⟩
      · rintro ⟨hall, hnone | hentry⟩
        · rw [hnone] at hsome
          cases hsome
        · exact fun x hx => (hall x hx).trans hentry
  | idle task hrunning htask hread =>
    refine (and_iff_left ?_).symm
    cases heq : w.task with
    | read entry =>
      simp only [Continues, heq]
      exact .inl (hread entry heq)
    | lookup | waiting | ended => simp only [Continues, heq]

theorem tracked_run {descriptors : ℕ → SessionDescriptor} {acts : List Action}
    (hrun : run (step liveId) (new descriptors) acts = some w) : Tracked liveId w :=
  run_invariant (I := Tracked liveId) (fun _ _ _ h _ hstep => h.step (stepped_of_step hstep))
    (tracked_new liveId descriptors) (eachStep_trivial _ acts) hrun

theorem oneSession_iff_eachStep {descriptors : ℕ → SessionDescriptor} {acts : List Action}
    (hrun : run (step liveId) (new descriptors) acts = some w) :
    (∀ x ∈ w.reports, x.session = w.session) ↔ EachStep (step liveId) Continues (new descriptors) acts := by
  rw [last_iff_eachStep (I := Tracked liveId) (P := fun w => ∀ x ∈ w.reports, x.session = w.session)
    (fun _ _ _ h hstep => h.step (stepped_of_step hstep))
    (fun _ _ _ h hstep => oneSession_step h (stepped_of_step hstep)) (tracked_new liveId descriptors) hrun]
  exact and_iff_right fun x hx => by cases hx

/-- The statuses of a watch move forward, and a session is reported as disconnected before anything of a later one,
exactly when every status it yields is of the session it yielded last. -/
theorem watch_forward_only_iff (descriptors : ℕ → SessionDescriptor) (liveId : LiveId) (acts : List Action) (w : Watch)
    (hrun : run (step liveId) (new descriptors) acts = some w) :
    ForwardOnly w.reports ↔ EachStep (step liveId) Continues (new descriptors) acts :=
  (tracked_run hrun).forwardOnly_iff.trans (oneSession_iff_eachStep hrun)

/-- A session of `x` is registered, connected, cancelled and removed under the eyes of a watch. -/
def watchedSession : List Action :=
  [.registry (.registerSession 0 (.root 0)), .poll, .poll, .registry (.updateState "x" .connected), .registry (.run 1),
    .poll, .poll, .poll, .poll, .poll, .registry (.cancel (.root 0)), .registry (.run 0), .registry (.run 0), .poll]

theorem watch_forward_only_session : ∃ w ∈ run (step "x") (new fun _ => { id := "x" }) watchedSession,
    w.reports.map (·.state) = [.pending, .connected, .disconnected] ∧ ForwardOnly w.reports := by
  have hsample : ∃ w ∈ run (step "x") (new fun _ => { id := "x" }) watchedSession,
      w.reports.map (·.state) = [.pending, .connected, .disconnected] := by
    decide +kernel
  obtain ⟨w, hw, hstates⟩ := hsample
  exact ⟨w, hw, hstates, (watch_forward_only_iff _ "x" watchedSession w hw).mpr (by decide +kernel)⟩

/-- The connected session ends, and another is registered before the watch polls again. -/
def replacedSession : List Action :=
  [.registry (.registerSession 0 (.root 0)), .registry (.updateState "x" .connected), .registry (.run 1), .poll, .poll,
    .registry (.cancel (.root 0)), .registry (.run 0), .registry (.run 0), .registry (.registerSession 1 (.root 1)),
    .poll, .poll]

theorem watch_steps_back : ∃ w ∈ run (step "x") (new fun _ => { id := "x" }) replacedSession,
    w.reports = [⟨.connected, some ⟨0, .root 0, 0⟩⟩, ⟨.pending, some ⟨1, .root 1, 1⟩⟩] ∧ ¬ ForwardOnly w.reports := by
  have hsample : ∃ w ∈ run (step "x") (new fun _ => { id := "x" }) replacedSession,
      w.reports = [⟨.connected, some ⟨0, .root 0, 0⟩⟩, ⟨.pending, some ⟨1, .root 1, 1⟩⟩] := by
    decide +kernel
  obtain ⟨w, hw, hreports⟩ := hsample
  refine ⟨w, hw, hreports, fun h => ?_⟩
  have hincreasing := h.increasing
  rw [hreports] at hincreasing
  exact absurd hincreasing (by decide)

/-! ## A key that is not registered again -/

/-- No session is registered under the key while the watch follows one. -/
def NotReplaced (liveId : LiveId) (w : Watch) : Action → Prop
  | .registry (.registerSession session _) => (w.registry.descriptors session).id = liveId →
      w.task = .ended ∨ w.task = .lookup ∧ w.reports = []
  | _ => True

/-- The watch follows the session, the only one under the key if any is. -/
structure Follows (liveId : LiveId) (w : Watch) (e : SessionEntry) : Prop where
  registered : ∀ p ∈ w.registry.sessions, p.1 = liveId → p.2 = e
  reported : ∀ x ∈ w.reports, x.session = some e
  reading : ∀ entry, w.task = .read entry → entry = e

inductive Loyal (liveId : LiveId) (w : Watch) : Prop
  | gone (h : w.task = .ended)
  | fresh (htask : ∀ entry, w.task ≠ .read entry) (hreports : w.reports = [])
  | follows (e : SessionEntry) (h : Follows liveId w e)

theorem Follows.registry {e : SessionEntry} (h : Follows liveId w e) {a : SessionRegistry.Action} {r : SessionRegistry}
    {result : Except String Unit} (hp : SessionRegistry.Performed w.registry a r result)
    (hkey : ∀ session ct, a = .registerSession session ct → (w.registry.descriptors session).id ≠ liveId) :
    Follows liveId { w with registry := r } e := by
  refine ⟨?_, h.reported, h.reading⟩
  cases hp with
  | refused | notFound | found | cancelled | failed | written | disconnected => exact h.registered
  | registered session ct entry hentry hvacant =>
    intro p hp hp'
    rcases List.mem_cons.mp hp with rfl | hp
    · exact absurd hp' (hkey session ct rfl)
    · exact h.registered p hp hp'
  | removed i streamKey entry htask => exact fun p hp => h.registered p (SessionRegistry.mem_remove.mp hp).1

theorem Follows.continues {e : SessionEntry} (h : Follows liveId w e) : Continues w .poll := by
  cases htask : w.task with
  | read entry =>
    simp only [Continues, htask]
    refine .inr ?_
    rcases List.eq_nil_or_concat' w.reports with hnil | ⟨init, last, hconcat⟩
    · exact .inl (session_nil hnil)
    · rw [session_concat hconcat, h.reading entry htask]
      exact .inr (h.reported last (by simp [hconcat]))
  | lookup | waiting | ended => simp only [Continues, htask]

theorem Loyal.step (h : Loyal liveId w) (ht : Tracked liveId w) (hc : NotReplaced liveId w a)
    (hstep : Stepped liveId w a w') : Loyal liveId w' ∧ Continues w a := by
  cases hstep with
  | registry a r result hp =>
    refine ⟨?_, trivial⟩
    cases h with
    | gone h => exact .gone h
    | fresh htask hreports => exact .fresh htask hreports
    | follows e h =>
      by_cases hkey : ∃ session ct, a = .registerSession session ct ∧ (w.registry.descriptors session).id = liveId
      · obtain ⟨session, ct, rfl, hid⟩ := hkey
        rcases hc hid with hended | ⟨hlookup, hreports⟩
        · exact .gone hended
        · exact .fresh (fun entry heq => by cases hlookup.symm.trans heq) hreports
      · exact .follows e (h.registry hp fun session ct heq hid => hkey ⟨session, ct, heq, hid⟩)
  | found entry htask hentry =>
    refine ⟨?_, by simp only [Continues, htask]⟩
    cases h with
    | gone h => cases h.symm.trans htask
    | fresh _ hreports =>
      refine .follows entry ⟨?_, fun x hx => ?_, fun entry' heq => (WatchTask.read.inj heq).symm⟩
      · rintro ⟨key, other⟩ hp rfl
        exact (SessionRegistry.entry_unique ht.consistent.keys (SessionRegistry.get_eq_some hentry) hp).symm
      · rw [hreports] at hx
        cases hx
    | follows e h =>
      have hsame := h.registered _ (SessionRegistry.get_eq_some hentry) rfl
      exact .follows e ⟨h.registered, h.reported, fun entry' heq => (WatchTask.read.inj heq).symm.trans hsame⟩
  | vanished htask hstate => exact ⟨.gone rfl, by simp only [Continues, htask]⟩
  | yielded entry htask hstate =>
    cases h with
    | gone h => cases h.symm.trans htask
    | fresh hread _ => exact absurd htask (hread entry)
    | follows e h =>
      refine ⟨.follows e ⟨h.registered, fun x hx => ?_, fun entry' heq => ?_⟩, h.continues⟩
      · rcases List.mem_append.mp hx with hx | hx
        · exact h.reported x hx
        · rw [List.mem_singleton.mp hx, h.reading entry htask]
      · simp only [report] at heq
        split at heq <;> cases heq
  | idle task hrunning htask hread =>
    cases h with
    | gone h => exact absurd h hrunning
    | fresh hfresh hreports =>
      refine ⟨.fresh htask hreports, ?_⟩
      cases heq : w.task with
      | read entry => exact absurd heq (hfresh entry)
      | lookup | waiting | ended => simp only [Continues, heq]
    | follows e h => exact ⟨.follows e ⟨h.registered, h.reported, fun entry heq => absurd heq (htask entry)⟩, h.continues⟩

/-- As long as the key is not registered again under its eyes, the statuses of a watch move forward. -/
theorem forwardOnly_of_notReplaced {descriptors : ℕ → SessionDescriptor} {acts : List Action}
    (hrun : run (step liveId) (new descriptors) acts = some w)
    (hc : EachStep (step liveId) (NotReplaced liveId) (new descriptors) acts) : ForwardOnly w.reports := by
  refine (tracked_run hrun).forwardOnly_iff.mpr ((oneSession_iff_eachStep hrun).mpr ?_)
  refine EachStep.imp (I := fun w => Tracked liveId w ∧ Loyal liveId w) (fun w a w' h hc hstep => ?_)
    ⟨tracked_new liveId descriptors, .fresh (fun _ => nofun) rfl⟩ hc
  have hstepped := stepped_of_step hstep
  obtain ⟨hloyal, hcontinues⟩ := h.2.step h.1 hc hstepped
  exact ⟨⟨h.1.step hstepped, hloyal⟩, hcontinues⟩

end Watch
end LivestreamRs.Sessions
