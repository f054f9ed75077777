import LivestreamRs.Sessions.State

/-! # The session registry

`SessionRegistry` of `livestream-transport/src/registry/session.rs` with everything its callers can do to it:
register descriptors under any tokens, update states, cancel tokens, in any interleaving with the cleanup tasks
that `register_session` spawns. Descriptors are shared handles: an `update_state` between its lookup and its
write, and a cleanup task, hold one after the entry it came from is gone.
-/
namespace LivestreamRs.Sessions
open Foundations
set_option autoImplicit false

def SessionState.rank : SessionState → ℕ
  | .pending => 0
  | .connecting => 1
  | .connected => 2
  | .disconnected => 3

theorem SessionState.rank_le (s : SessionState) : s.rank ≤ SessionState.rank .disconnected := by
  cases s <;> decide

theorem SessionState.rank_le_update {s new s' : SessionState} (h : s.update new = some s') : s.rank ≤ s'.rank := by
  revert s'
  cases s <;> cases new <;> decide

theorem SessionState.eq_disconnected {s : SessionState} (h : SessionState.rank .disconnected ≤ s.rank) :
    s = .disconnected := by
  revert h
  cases s <;> decide

structure SessionDescriptor where
  id : LiveId
  state : SessionState := .pending
  deriving DecidableEq

/-- An entry of the map; the descriptor is the handle of an `Arc<RwLock<SessionDescriptor>>`. -/
structure SessionEntry where
  descriptor : ℕ
  cancelToken : Token
  -- history: which successful `register_session` inserted it
  call : ℕ
  deriving DecidableEq

inductive RegistryTask
  -- `update_state` between its lookup and its write
  | updating (descriptor : ℕ) (newState : SessionState)
  -- the cleanup task: before its token is cancelled, and in the grace period
  | cleanupWait (streamKey : LiveId) (entry : SessionEntry)
  | cleanupGrace (streamKey : LiveId) (entry : SessionEntry)
  | done
  deriving DecidableEq

structure SessionRegistry where
  descriptors : ℕ → SessionDescriptor
  sessions : List (LiveId × SessionEntry) := []
  fired : List Token := []
  tasks : ℕ → RegistryTask := fun _ => .done
  taskCount : ℕ := 0
  -- history: how many registrations have succeeded
  calls : ℕ := 0

namespace SessionRegistry

/-- An empty registry; the descriptors its callers will ever make are there from the start. -/
def new (descriptors : ℕ → SessionDescriptor) : SessionRegistry := { descriptors }

section Operations
variable (r : SessionRegistry)

def get (streamKey : LiveId) : Option SessionEntry := r.sessions.lookup streamKey

def spawn (task : RegistryTask) : SessionRegistry :=
  { r with tasks := Function.update r.tasks r.taskCount task, taskCount := r.taskCount + 1 }

def setState (descriptor : ℕ) (state : SessionState) : SessionRegistry :=
  { r with descriptors := Function.update r.descriptors descriptor { r.descriptors descriptor with state } }

def remove (streamKey : LiveId) : SessionRegistry :=
  { r with sessions := r.sessions.filter fun p => p.1 != streamKey }

def registerSession (session : ℕ) (ct : Token) : SessionRegistry × Except String Unit :=
  let streamKey := (r.descriptors session).id
  match r.get streamKey with
  | some _ => (r, .error ("Stream key " ++ streamKey ++ " is already in use"))
  | none =>
    let entry := { descriptor := session, cancelToken := ct, call := r.calls }
    let r := { r with sessions := (streamKey, entry) :: r.sessions, calls := r.calls + 1 }
    (r.spawn (.cleanupWait streamKey entry), .ok ())

/-- The first half of `update_state`; without an error its write is still to come. -/
def findSession (streamKey : LiveId) (newState : SessionState) : SessionRegistry × Except String Unit :=
  match r.get streamKey with
  | none => (r, .error ("No session found for stream key " ++ streamKey))
  | some entry => (r.spawn (.updating entry.descriptor newState), .ok ())

/-- The second half, under the write lock of the descriptor. -/
def writeState (session : ℕ) (newState : SessionState) : SessionRegistry × Except String Unit :=
  let currentState := (r.descriptors session).state
  if currentState = .disconnected then (r, .error "Cannot update state of a disconnected session")
  else
    match currentState.update newState with
    | some state => (r.setState session state, .ok ())
    | none => (r, .error "Invalid state transition")

end Operations

inductive Action
  | registerSession (session : ℕ) (ct : Token)
  | updateState (streamKey : LiveId) (newState : SessionState)
  | cancel (token : Token)
  | run (task : ℕ)
  deriving DecidableEq

def setTask (r : SessionRegistry) (i : ℕ) (task : RegistryTask) : SessionRegistry :=
  { r with tasks := Function.update r.tasks i task }

theorem tasks_spawn (r : SessionRegistry) (task : RegistryTask) (i : ℕ) :
    (r.spawn task).tasks i = if i = r.taskCount then task else r.tasks i :=
  Function.update_apply ..

theorem tasks_setTask (r : SessionRegistry) (i : ℕ) (task : RegistryTask) (j : ℕ) :
    (r.setTask i task).tasks j = if j = i then task else r.tasks j :=
  Function.update_apply ..

theorem descriptors_setState (r : SessionRegistry) (session : ℕ) (state : SessionState) (other : ℕ) :
    ((r.setState session state).descriptors other).state =
      if other = session then state else (r.descriptors other).state := by
  simp only [setState, Function.update_apply]
  split <;> rfl

theorem id_setState (r : SessionRegistry) (session : ℕ) (state : SessionState) (other : ℕ) :
    ((r.setState session state).descriptors other).id = (r.descriptors other).id := by
  simp only [setState, Function.update_apply]
  split
  · next heq => rw [heq]
  · rfl

/-- The registry after an action, with the result of the call if the action ends one. -/
def perform (r : SessionRegistry) : Action → Option (SessionRegistry × Except String Unit)
  | .registerSession session ct => some (r.registerSession session ct)
  | .updateState streamKey newState => some (r.findSession streamKey newState)
  | .cancel token => some ({ r with fired := token :: r.fired }, .ok ())
  | .run i =>
    match r.tasks i with
    | .updating session newState =>
      let (r, result) := r.writeState session newState
      some (r.setTask i .done, result)
    | .cleanupWait streamKey entry =>
      if cancelled r.fired entry.cancelToken then
        some ((r.setState entry.descriptor .disconnected).setTask i (.cleanupGrace streamKey entry), .ok ())
      else none
    | .cleanupGrace streamKey _ => some ((r.remove streamKey).setTask i .done, .ok ())
    | .done => none

def step (r : SessionRegistry) (a : Action) : Option SessionRegistry := (r.perform a).map Prod.fst

/-! ## What an action can do -/

inductive Performed (r : SessionRegistry) : Action → SessionRegistry → Except String Unit → Prop
  | refused (session : ℕ) (ct : Token) (message : String) :
      Performed r (.registerSession session ct) r (.error message)
  | registered (session : ℕ) (ct : Token) (entry : SessionEntry)
      (hentry : entry = { descriptor := session, cancelToken := ct, call := r.calls })
      (hvacant : r.get (r.descriptors session).id = none) :
      Performed r (.registerSession session ct)
        (({ r with
            sessions := ((r.descriptors session).id, entry) :: r.sessions
            calls := r.calls + 1 } : SessionRegistry).spawn (.cleanupWait (r.descriptors session).id entry))
        (.ok ())
  | notFound (streamKey : LiveId) (newState : SessionState) (message : String) :
      Performed r (.updateState streamKey newState) r (.error message)
  | found (streamKey : LiveId) (newState : SessionState) (entry : SessionEntry)
      (hentry : r.get streamKey = some entry) :
      Performed r (.updateState streamKey newState) (r.spawn (.updating entry.descriptor newState)) (.ok ())
  | cancelled (token : Token) : Performed r (.cancel token) { r with fired := token :: r.fired } (.ok ())
  | failed (i session : ℕ) (newState : SessionState) (message : String)
      (htask : r.tasks i = .updating session newState) :
      Performed r (.run i) (r.setTask i .done) (.error message)
  | written (i session : ℕ) (newState state : SessionState) (htask : r.tasks i = .updating session newState)
      (hopen : (r.descriptors session).state ≠ .disconnected)
      (hstate : (r.descriptors session).state.update newState = some state) :
      Performed r (.run i) ((r.setState session state).setTask i .done) (.ok ())
  | disconnected (i : ℕ) (streamKey : LiveId) (entry : SessionEntry)
      (htask : r.tasks i = .cleanupWait streamKey entry) :
      Performed r (.run i)
        ((r.setState entry.descriptor .disconnected).setTask i (.cleanupGrace streamKey entry)) (.ok ())
  | removed (i : ℕ) (streamKey : LiveId) (entry : SessionEntry)
      (htask : r.tasks i = .cleanupGrace streamKey entry) :
      Performed r (.run i) ((r.remove streamKey).setTask i .done) (.ok ())

theorem performed_of_perform {r r' : SessionRegistry} {a : Action} {result : Except String Unit}
    (h : r.perform a = some (r', result)) : Performed r a r' result := by
  cases a with
  | registerSession session ct =>
    simp only [perform, registerSession, Option.some.injEq] at h
    cases hget : r.get (r.descriptors session).id with
    | some entry =>
      simp only [hget, Prod.mk.injEq] at h
      obtain ⟨rfl, rfl⟩ := h
      exact .refused session ct _
    | none =>
      simp only [hget, Prod.mk.injEq] at h
      obtain ⟨rfl, rfl⟩ := h
      exact .registered session ct _ rfl hget
  | updateState streamKey newState =>
    simp only [perform, findSession, Option.some.injEq] at h
    cases hget : r.get streamKey with
    | none =>
      simp only [hget, Prod.mk.injEq] at h
      obtain ⟨rfl, rfl⟩ := h
      exact .notFound streamKey newState _
    | some entry =>
      simp only [hget, Prod.mk.injEq] at h
      obtain ⟨rfl, rfl⟩ := h
      exact .found streamKey newState entry hget
  | cancel token =>
    obtain ⟨rfl, rfl⟩ := Prod.mk.inj (Option.some.inj h)
    exact .cancelled token
  | run i =>
    cases htask : r.tasks i with
    | updating session newState =>
      simp only [perform, htask, writeState] at h
      split at h
      · obtain ⟨rfl, rfl⟩ := Prod.mk.inj (Option.some.inj h)
        exact .failed i session newState _ htask
      · next hopen =>
        cases hstate : (r.descriptors session).state.update newState with
        | none =>
          simp only [hstate] at h
          obtain ⟨rfl, rfl⟩ := Prod.mk.inj (Option.some.inj h)
          exact .failed i session newState _ htask
        | some state =>
          simp only [hstate] at h
          obtain ⟨rfl, rfl⟩ := Prod.mk.inj (Option.some.inj h)
          exact .written i session newState state htask hopen hstate
    | cleanupWait streamKey entry =>
      simp only [perform, htask] at h
      split at h
      · obtain ⟨rfl, rfl⟩ := Prod.mk.inj (Option.some.inj h)
        exact .disconnected i streamKey entry htask
      · cases h
    | cleanupGrace streamKey entry =>
      simp only [perform, htask] at h
      obtain ⟨rfl, rfl⟩ := Prod.mk.inj (Option.some.inj h)
      exact .removed i streamKey entry htask
    | done =>
      simp only [perform, htask] at h
      cases h

theorem perform_of_step {r r' : SessionRegistry} {a : Action} (h : r.step a = some r') :
    ∃ result, r.perform a = some (r', result) := by
  rw [step, Option.map_eq_some_iff] at h
  obtain ⟨⟨r₁, result⟩, hperform, rfl⟩ := h
  exact ⟨result, hperform⟩

/-! ## Keys, entries and their cleanup tasks -/

theorem get_eq_some {r : SessionRegistry} {streamKey : LiveId} {entry : SessionEntry}
    (h : r.get streamKey = some entry) : (streamKey, entry) ∈ r.sessions := by
  obtain ⟨l₁, l₂, heq, -⟩ := List.lookup_eq_some_iff.mp h
  rw [heq]
  simp

theorem not_mem_keys {r : SessionRegistry} {streamKey : LiveId} (h : r.get streamKey = none) :
    streamKey ∉ r.sessions.map Prod.fst := by
  intro hmem
  obtain ⟨p, hp, rfl⟩ := List.mem_map.mp hmem
  exact absurd (List.lookup_eq_none_iff.mp h p hp) (by simp)

theorem entry_unique {r : SessionRegistry} (hkeys : (r.sessions.map Prod.fst).Nodup) {streamKey : LiveId}
    {e e' : SessionEntry} (h : (streamKey, e) ∈ r.sessions) (h' : (streamKey, e') ∈ r.sessions) : e = e' :=
  congrArg Prod.snd (List.inj_on_of_nodup_map hkeys h h' rfl)

theorem get_of_mem {r : SessionRegistry} (hkeys : (r.sessions.map Prod.fst).Nodup) {streamKey : LiveId}
    {entry : SessionEntry} (h : (streamKey, entry) ∈ r.sessions) : r.get streamKey = some entry := by
  cases hget : r.get streamKey with
  | none => exact absurd (List.mem_map_of_mem h) (not_mem_keys hget)
  | some entry' => rw [entry_unique hkeys (get_eq_some hget) h]

theorem mem_remove {r : SessionRegistry} {streamKey : LiveId} {p : LiveId × SessionEntry} :
    p ∈ (r.remove streamKey).sessions ↔ p ∈ r.sessions ∧ p.1 ≠ streamKey := by
  simp [remove]

end SessionRegistry

/-- What a cleanup task was spawned for. -/
def RegistryTask.cleans : RegistryTask → Option (LiveId × SessionEntry)
  | .cleanupWait streamKey entry | .cleanupGrace streamKey entry => some (streamKey, entry)
  | _ => none

namespace SessionRegistry

/-- No state ever goes back, whoever writes it. -/
theorem Performed.rank_le {r r' : SessionRegistry} {a : Action} {result : Except String Unit}
    (h : Performed r a r' result) (session : ℕ) :
    (r.descriptors session).state.rank ≤ (r'.descriptors session).state.rank := by
  have hset : ∀ (written : ℕ) (state : SessionState), (r.descriptors written).state.rank ≤ state.rank →
      (r.descriptors session).state.rank ≤ ((r.setState written state).descriptors session).state.rank := by
    intro written state hle
    rw [descriptors_setState]
    split
    · next heq => exact heq ▸ hle
    · exact le_rfl
  cases h with
  | refused | registered | notFound | found | cancelled | failed | removed => exact le_rfl
  | written i written newState state htask hopen hstate => exact hset written state (SessionState.rank_le_update hstate)
  | disconnected i streamKey entry => exact hset entry.descriptor .disconnected (SessionState.rank_le _)

theorem Performed.disconnected_stays {r r' : SessionRegistry} {a : Action} {result : Except String Unit}
    (h : Performed r a r' result) {session : ℕ} (hs : (r.descriptors session).state = .disconnected) :
    (r'.descriptors session).state = .disconnected :=
  SessionState.eq_disconnected (hs ▸ h.rank_le session)

structure Consistent (r : SessionRegistry) : Prop where
  keys : (r.sessions.map Prod.fst).Nodup
  idle : ∀ i, r.taskCount ≤ i → r.tasks i = .done
  calls : ∀ p ∈ r.sessions, p.2.call < r.calls
  keyed : ∀ p ∈ r.sessions, (r.descriptors p.2.descriptor).id = p.1
  -- an entry stays until its own cleanup task is through, and has only one
  owned : ∀ i p, (r.tasks i).cleans = some p → p ∈ r.sessions
  once : ∀ i j p, (r.tasks i).cleans = some p → (r.tasks j).cleans = some p → i = j
  graced : ∀ i streamKey entry, r.tasks i = .cleanupGrace streamKey entry →
    (r.descriptors entry.descriptor).state = .disconnected
  -- the session an `update_state` has found is still registered, or disconnected for good
  held : ∀ i session newState, r.tasks i = .updating session newState →
    (∃ p ∈ r.sessions, p.2.descriptor = session) ∨ (r.descriptors session).state = .disconnected

theorem consistent_new (descriptors : ℕ → SessionDescriptor) : Consistent (new descriptors) where
  keys := List.nodup_nil
  idle _ _ := rfl
  calls _ hp := by cases hp
  keyed _ hp := by cases hp
  owned _ _ h := by cases h
  once _ _ _ h := by cases h
  graced _ _ _ h := by cases h
  held _ _ _ h := by cases h

section Keeps
variable {r : SessionRegistry} (h : Consistent r)
include h

theorem Consistent.lt_taskCount {i : ℕ} (hi : r.tasks i ≠ .done) : i < r.taskCount := by
  by_contra hge
  exact hi (h.idle i (not_lt.mp hge))

/-- A new task that cleans an entry is the only one to do so. -/
theorem Consistent.spawn (task : RegistryTask)
    (hcleans : ∀ p, task.cleans = some p → p ∈ r.sessions ∧ ∀ j, (r.tasks j).cleans ≠ some p)
    (hgrace : ∀ streamKey entry, task ≠ .cleanupGrace streamKey entry)
    (hheld : ∀ session newState, task = .updating session newState → ∃ p ∈ r.sessions, p.2.descriptor = session) :
    Consistent (r.spawn task) where
  keys := h.keys
  idle i hi := by
    rw [tasks_spawn, if_neg (Nat.ne_of_gt hi)]
    exact h.idle i (Nat.le_of_succ_le hi)
  calls := h.calls
  keyed := h.keyed
  owned i p hp := by
    rw [tasks_spawn] at hp
    split at hp
    · exact (hcleans p hp).1
    · exact h.owned i p hp
  once i j p hi hj := by
    rw [tasks_spawn] at hi hj
    split at hi <;> split at hj
    · next hi' hj' => exact hi'.trans hj'.symm
    · exact absurd hj ((hcleans p hi).2 j)
    · exact absurd hi ((hcleans p hj).2 i)
    · exact h.once i j p hi hj
  graced i streamKey entry hi := by
    rw [tasks_spawn] at hi
    split at hi
    · exact absurd hi (hgrace streamKey entry)
    · exact h.graced i streamKey entry hi
  held i session newState hi := by
    rw [tasks_spawn] at hi
    split at hi
    · exact .inl (hheld session newState hi)
    · exact h.held i session newState hi

/-- A task that goes on cleans what it cleaned before, or nothing any more. -/
theorem Consistent.setTask (i : ℕ) (task : RegistryTask) (hi : r.tasks i ≠ .done)
    (hcleans : ∀ p, task.cleans = some p → (r.tasks i).cleans = some p)
    (hgrace : ∀ streamKey entry, task = .cleanupGrace streamKey entry →
      (r.descriptors entry.descriptor).state = .disconnected)
    (hheld : ∀ session newState, task ≠ .updating session newState) : Consistent (r.setTask i task) := by
  have hback : ∀ j p, ((r.setTask i task).tasks j).cleans = some p → (r.tasks j).cleans = some p := by
    intro j p hj
    rw [tasks_setTask] at hj
    split at hj
    · next heq => exact heq ▸ hcleans p hj
    · exact hj
  exact {
    keys := h.keys
    idle := fun j hj => by
      rw [tasks_setTask, if_neg (Nat.ne_of_gt (Nat.lt_of_lt_of_le (h.lt_taskCount hi) hj))]
      exact h.idle j hj
    calls := h.calls
    keyed := h.keyed
    owned := fun j p hj => h.owned j p (hback j p hj)
    once := fun j k p hj hk => h.once j k p (hback j p hj) (hback k p hk)
    graced := fun j streamKey entry hj => by
      rw [tasks_setTask] at hj
      split at hj
      · exact hgrace streamKey entry hj
      · exact h.graced j streamKey entry hj
    held := fun j session newState hj => by
      rw [tasks_setTask] at hj
      split at hj
      · exact absurd hj (hheld session newState)
      · exact h.held j session newState hj }

theorem Consistent.finish {i : ℕ} (hi : r.tasks i ≠ .done) : Consistent (r.setTask i .done) :=
  h.setTask i .done hi (fun _ hp => by cases hp) (fun _ _ heq => by cases heq) (fun _ _ heq => by cases heq)

theorem Consistent.setState (session : ℕ) (state : SessionState)
    (hopen : (r.descriptors session).state = .disconnected → state = .disconnected) :
    Consistent (r.setState session state) := by
  have hstays : ∀ other, (r.descriptors other).state = .disconnected →
      ((r.setState session state).descriptors other).state = .disconnected := by
    intro other hother
    rw [descriptors_setState]
    split
    · next heq => exact hopen (heq ▸ hother)
    · exact hother
  exact {
    keys := h.keys
    idle := h.idle
    calls := h.calls
    keyed := fun p hp => (id_setState r session state _).trans (h.keyed p hp)
    owned := h.owned
    once := h.once
    graced := fun i streamKey entry hi => hstays _ (h.graced i streamKey entry hi)
    held := fun i other newState hi => (h.held i other newState hi).imp_right (hstays other) }

theorem Consistent.insert (streamKey : LiveId) (entry : SessionEntry) (hvacant : r.get streamKey = none)
    (hcall : entry.call = r.calls) (hkey : (r.descriptors entry.descriptor).id = streamKey) :
    Consistent { r with sessions := (streamKey, entry) :: r.sessions, calls := r.calls + 1 } where
  keys := List.nodup_cons.mpr ⟨not_mem_keys hvacant, h.keys⟩
  idle := h.idle
  calls p hp := by
    rcases List.mem_cons.mp hp with rfl | hp
    · exact hcall ▸ Nat.lt_succ_self _
    · exact Nat.lt_succ_of_lt (h.calls p hp)
  keyed p hp := by
    rcases List.mem_cons.mp hp with rfl | hp
    · exact hkey
    · exact h.keyed p hp
  owned i p hi := List.mem_cons_of_mem _ (h.owned i p hi)
  once := h.once
  graced := h.graced
  held i session newState hi := by
    refine (h.held i session newState hi).imp_left ?_
    rintro ⟨p, hp, hdescriptor⟩
    exact ⟨p, List.mem_cons_of_mem _ hp, hdescriptor⟩

/-- Removing a key keeps what is needed if no cleanup task is left for it and its session is disconnected. -/
theorem Consistent.remove (streamKey : LiveId) (hfree : ∀ i p, (r.tasks i).cleans = some p → p.1 ≠ streamKey)
    (hended : ∀ entry, (streamKey, entry) ∈ r.sessions →
      (r.descriptors entry.descriptor).state = .disconnected) : Consistent (r.remove streamKey) where
  keys := h.keys.sublist (List.filter_sublist.map _)
  idle := h.idle
  calls p hp := h.calls p (mem_remove.mp hp).1
  keyed p hp := h.keyed p (mem_remove.mp hp).1
  owned i p hi := mem_remove.mpr ⟨h.owned i p hi, hfree i p hi⟩
  once := h.once
  graced := h.graced
  held i session newState hi := by
    rcases h.held i session newState hi with ⟨⟨key, entry⟩, hp, rfl⟩ | hdisconnected
    · by_cases hkey : key = streamKey
      · exact .inr (hended entry (hkey ▸ hp))
      · exact .inl ⟨_, mem_remove.mpr ⟨hp, hkey⟩, rfl⟩
    · exact .inr hdisconnected

theorem Consistent.performed {r' : SessionRegistry} {a : Action} {result : Except String Unit}
    (hperformed : Performed r a r' result) : Consistent r' := by
  cases hperformed with
  | refused | notFound => exact h
  | registered session ct entry hentry hvacant =>
    have hcall : entry.call = r.calls := by rw [hentry]
    refine (h.insert _ entry hvacant hcall (by rw [hentry])).spawn _ ?_ (fun _ _ heq => by cases heq) (fun _ _ heq => by cases heq)
    intro p hp
    obtain rfl := Option.some.inj hp
    refine ⟨List.mem_cons_self, fun j hj => ?_⟩
    exact absurd (h.calls _ (h.owned j _ hj)) (by simp [hcall])
  | found streamKey newState entry hentry =>
    refine h.spawn _ (fun _ hp => by cases hp) (fun _ _ heq => by cases heq) ?_
    intro session newState' heq
    cases heq
    exact ⟨_, get_eq_some hentry, rfl⟩
  | cancelled token =>
    exact { keys := h.keys, idle := h.idle, calls := h.calls, keyed := h.keyed, owned := h.owned, once := h.once,
            graced := h.graced, held := h.held }
  | failed i session newState message htask => exact h.finish (by simp [htask])
  | written i session newState state htask hopen hstate =>
    have htask' : (r.setState session state).tasks i ≠ .done := by rw [SessionRegistry.setState, htask]; simp
    exact (h.setState session state (fun hd => absurd hd hopen)).finish htask'
  | disconnected i streamKey entry htask =>
    refine (h.setState entry.descriptor .disconnected (fun _ => rfl)).setTask i _ ?_ ?_ ?_
      (fun _ _ heq => by cases heq)
    · simp [SessionRegistry.setState, htask]
    · simp [SessionRegistry.setState, htask, RegistryTask.cleans]
    · intro key entry' heq
      cases heq
      simp [SessionRegistry.setState]
  | removed i streamKey entry htask =>
    have hcleans : (r.tasks i).cleans = some (streamKey, entry) := by rw [htask]; rfl
    have hentry := h.owned i _ hcleans
    refine (h.finish (i := i) (by simp [htask])).remove streamKey ?_ ?_
    · rintro j ⟨key, entry'⟩ hj rfl
      rcases eq_or_ne j i with rfl | hne
      · simp [SessionRegistry.setTask, RegistryTask.cleans] at hj
      · have hj : (r.tasks j).cleans = some (key, entry') := by simpa [SessionRegistry.setTask, hne] using hj
        obtain rfl := entry_unique h.keys hentry (h.owned j _ hj)
        exact hne (h.once j i _ hj hcleans)
    · intro entry' hentry'
      obtain rfl := entry_unique h.keys hentry hentry'
      exact h.graced i streamKey entry htask

end Keeps

theorem consistent_run {descriptors : ℕ → SessionDescriptor} {acts : List Action} {r : SessionRegistry}
    (hrun : run step (new descriptors) acts = some r) : Consistent r := by
  refine run_invariant (I := Consistent) (fun r a r' h _ hstep => ?_) (consistent_new descriptors)
    (eachStep_trivial _ acts) hrun
  obtain ⟨result, hperform⟩ := perform_of_step hstep
  exact h.performed (performed_of_perform hperform)

/-! ## The contract -/

/-- What one action may do to the entries. -/
structure Orderly (r : SessionRegistry) (a : Action) (r' : SessionRegistry) (result : Except String Unit) :
    Prop where
  forward : ∀ session, (r.descriptors session).state.rank ≤ (r'.descriptors session).state.rank
  disconnected : ∀ session, (r.descriptors session).state = .disconnected →
    (r'.descriptors session).state = .disconnected
  failed : ∀ message, result = .error message → r'.sessions = r.sessions ∧ r'.descriptors = r.descriptors
  -- so an `update_state` that fails at its write has changed nothing either
  lookup : ∀ streamKey newState, a = .updateState streamKey newState →
    r'.sessions = r.sessions ∧ r'.descriptors = r.descriptors
  -- a write that succeeds is to the session a lookup would find at that moment
  written : ∀ i session newState, a = .run i → r.tasks i = .updating session newState → result = .ok () →
    ∃ entry, r.get (r.descriptors session).id = some entry ∧ entry.descriptor = session
  -- an entry goes only by the cleanup task of the call that inserted it, which removes nothing else
  removed : ∀ streamKey entry, (streamKey, entry) ∈ r.sessions → (streamKey, entry) ∉ r'.sessions →
    ∃ i, a = .run i ∧ r.tasks i = .cleanupGrace streamKey entry

theorem Consistent.exists_get_of_updating {r : SessionRegistry} (hr : Consistent r) {i session : ℕ}
    {newState : SessionState} (htask : r.tasks i = .updating session newState)
    (hopen : (r.descriptors session).state ≠ .disconnected) :
    ∃ entry, r.get (r.descriptors session).id = some entry ∧ entry.descriptor = session := by
  rcases hr.held i session newState htask with ⟨⟨key, entry⟩, hmem, rfl⟩ | hdisconnected
  · rw [hr.keyed _ hmem]
    exact ⟨entry, get_of_mem hr.keys hmem, rfl⟩
  · exact absurd hdisconnected hopen

theorem Performed.orderly {r r' : SessionRegistry} {a : Action} {result : Except String Unit}
    (h : Performed r a r' result) (hr : Consistent r) : Orderly r a r' result where
  forward := h.rank_le
  disconnected _ := h.disconnected_stays
  failed message hmessage := by
    cases h with
    | refused | notFound | failed => exact ⟨rfl, rfl⟩
    | registered | found | cancelled | written | disconnected | removed => cases hmessage
  lookup streamKey newState ha := by
    subst ha
    cases h with
    | notFound | found => exact ⟨rfl, rfl⟩
  written i session newState ha htask hresult := by
    subst ha
    cases h with
    | failed => cases hresult
    | written _ session' _ _ htask' hopen =>
      obtain ⟨rfl, -⟩ := RegistryTask.updating.inj (htask.symm.trans htask')
      exact hr.exists_get_of_updating htask hopen
    | disconnected _ _ _ htask' | removed _ _ _ htask' =>
      rw [htask] at htask'
      cases htask'
  removed streamKey entry hin hout := by
    cases h with
    | refused | notFound | found | cancelled | failed | written | disconnected => exact absurd hin hout
    | registered => exact absurd (List.mem_cons_of_mem _ hin) hout
    | removed i key entry' htask =>
      have hkey : streamKey = key := by
        by_contra hne
        exact hout (mem_remove.mpr ⟨hin, hne⟩)
      subst hkey
      obtain rfl := entry_unique hr.keys hin (hr.owned i _ (by rw [htask]; rfl))
      exact ⟨i, rfl, htask⟩

/-- In every interleaving a key has at most one entry, states only move forward, a call that fails changes no entry at
any of its steps, one that writes a state writes that of the session under the key, and a cleanup task removes the entry
of its own call and no other. -/
theorem registry_orderly (descriptors : ℕ → SessionDescriptor) (acts : List Action) (r : SessionRegistry)
    (hrun : run step (new descriptors) acts = some r) :
    (r.sessions.map Prod.fst).Nodup ∧
      ∀ a r' result, r.perform a = some (r', result) → Orderly r a r' result := by
  have hr := consistent_run hrun
  exact ⟨hr.keys, fun a r' result hperform => (performed_of_perform hperform).orderly hr⟩

/-- Two sessions want the key `a`: the second is refused, the first is updated, cancelled and, in its grace period,
updated once more in vain. -/
def contested : List Action :=
  [.registerSession 0 (.root 0), .updateState "a" .connecting, .registerSession 1 (.root 1), .run 1,
    .cancel (.root 0), .run 0, .updateState "a" .connected, .run 2]

theorem registry_orderly_contested : ∃ r ∈ run step (new fun _ => { id := "a" }) contested,
    (r.sessions.map Prod.fst).Nodup ∧ r.sessions.length = 1 ∧
      ∃ p ∈ r.perform (.run 0), p.1.sessions = [] ∧ Orderly r (.run 0) p.1 p.2 := by
  have hsample : ∃ r ∈ run step (new fun _ => { id := "a" }) contested, r.sessions.length = 1 ∧
      ∃ p ∈ r.perform (.run 0), p.1.sessions = [] := by
    decide +kernel
  obtain ⟨r, hr, hlength, p, hp, hempty⟩ := hsample
  obtain ⟨hkeys, horderly⟩ := registry_orderly (fun _ => { id := "a" }) contested r hr
  exact ⟨r, hr, hkeys, hlength, p, hp, hempty, horderly _ p.1 p.2 hp⟩

end SessionRegistry
end LivestreamRs.Sessions
