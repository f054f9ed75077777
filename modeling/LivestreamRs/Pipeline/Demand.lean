import LivestreamRs.Foundations.HolderCount
import LivestreamRs.Foundations.Transitions
import LivestreamRs.Pipeline.Tasks

/-! # Demand signals and handles

`DemandSignal` and `DemandHandle` of `livestream-core/src/pad.rs`. Clones of a signal, and handles with their clones, share
a counter through an `Arc`. Every method touches the counter at most once, so the interleavings of any number of threads are
the sequences of whole calls. Beside it stands what the counters are for: the live handles, each with the signal it comes
from.
-/
namespace LivestreamRs.Demand
open Foundations
set_option autoImplicit false

/-! ## Signals, handles and their counters -/

/-- `count` is the address of the counter. -/
structure DemandSignal where
  count : ℕ
  alwaysWanted : Bool
  deriving DecidableEq

structure DemandHandle where
  count : ℕ
  detached : Bool
  deriving DecidableEq

/-- The counters, and the signals and handles that are alive. -/
structure Memory where
  -- the `AtomicUsize` at each address
  counters : ℕ → ℕ := fun _ => 0
  allocated : ℕ := 0
  signals : List DemandSignal := []
  handles : List DemandHandle := []

inductive Action
  | newSignal
  | newAlwaysWanted
  -- the live signals and handles are known by their positions
  | cloneSignal (i : ℕ)
  | dropSignal (i : ℕ)
  | newHandle (i : ℕ)
  | empty
  | cloneHandle (i : ℕ)
  | dropHandle (i : ℕ)
  deriving DecidableEq

namespace Memory
variable (m : Memory)

def isWanted (sig : DemandSignal) : Bool := sig.alwaysWanted || decide (0 < m.counters sig.count)

def fetchAdd (count : ℕ) : Memory :=
  { m with counters := Function.update m.counters count ((m.counters count + 1) % 2 ^ 64) }

def fetchSub (count : ℕ) : Memory :=
  { m with counters := Function.update m.counters count ((m.counters count + (2 ^ 64 - 1)) % 2 ^ 64) }

def allocate (value : ℕ) : Memory :=
  { m with counters := Function.update m.counters m.allocated value, allocated := m.allocated + 1 }

/-- The number of `Arc`s to a counter. -/
def strongCount (count : ℕ) : ℕ :=
  holders (fun sig : DemandSignal => some sig.count) m.signals count +
    holders (fun handle : DemandHandle => some handle.count) m.handles count

/-- A handle that is not detached is counted. -/
def countUp (handle : DemandHandle) : Memory := if !handle.detached then m.fetchAdd handle.count else m

def countDown (handle : DemandHandle) : Memory := if !handle.detached then m.fetchSub handle.count else m

def addSignal (sig : DemandSignal) : Memory := { m with signals := m.signals ++ [sig] }

def addHandle (handle : DemandHandle) : Memory := { m with handles := m.handles ++ [handle] }

/-- `Arc::clone` aborts the process when the strong count is above `isize::MAX`. -/
def step : Action → Option Memory
  | .newSignal => some ((m.allocate 0).addSignal { count := m.allocated, alwaysWanted := false })
  | .newAlwaysWanted => some ((m.allocate 1).addSignal { count := m.allocated, alwaysWanted := true })
  | .cloneSignal i =>
    match m.signals[i]? with
    | some sig => if m.strongCount sig.count < 2 ^ 63 then some (m.addSignal sig) else none
    | none => none
  | .dropSignal i =>
    match m.signals[i]? with
    | some _ => some { m with signals := m.signals.eraseIdx i }
    | none => none
  | .newHandle i =>
    match m.signals[i]? with
    | some sig =>
      if m.strongCount sig.count < 2 ^ 63 then
        some ((m.fetchAdd sig.count).addHandle { count := sig.count, detached := false })
      else none
    | none => none
  | .empty => some ((m.allocate 0).addHandle { count := m.allocated, detached := true })
  | .cloneHandle i =>
    match m.handles[i]? with
    | some handle => if m.strongCount handle.count < 2 ^ 63 then some ((m.countUp handle).addHandle handle) else none
    | none => none
  | .dropHandle i =>
    match m.handles[i]? with
    | some handle => some { m.countDown handle with handles := m.handles.eraseIdx i }
    | none => none

/-- All that a step can do. -/
inductive Stepped (m : Memory) : Action → Memory → Prop
  | newSignal : Stepped m .newSignal ((m.allocate 0).addSignal { count := m.allocated, alwaysWanted := false })
  | newAlwaysWanted :
      Stepped m .newAlwaysWanted ((m.allocate 1).addSignal { count := m.allocated, alwaysWanted := true })
  | cloneSignal (i : ℕ) (sig : DemandSignal) (hi : m.signals[i]? = some sig) (hfew : m.strongCount sig.count < 2 ^ 63) :
      Stepped m (.cloneSignal i) (m.addSignal sig)
  | dropSignal (i : ℕ) (sig : DemandSignal) (hi : m.signals[i]? = some sig) :
      Stepped m (.dropSignal i) { m with signals := m.signals.eraseIdx i }
  | newHandle (i : ℕ) (sig : DemandSignal) (handle : DemandHandle) (hi : m.signals[i]? = some sig)
      (hhandle : handle = { count := sig.count, detached := false }) (hfew : m.strongCount handle.count < 2 ^ 63) :
      Stepped m (.newHandle i) ((m.countUp handle).addHandle handle)
  | empty : Stepped m .empty ((m.allocate 0).addHandle { count := m.allocated, detached := true })
  | cloneHandle (i : ℕ) (handle : DemandHandle) (hi : m.handles[i]? = some handle)
      (hfew : m.strongCount handle.count < 2 ^ 63) : Stepped m (.cloneHandle i) ((m.countUp handle).addHandle handle)
  | dropHandle (i : ℕ) (handle : DemandHandle) (hi : m.handles[i]? = some handle) :
      Stepped m (.dropHandle i) { m.countDown handle with handles := m.handles.eraseIdx i }

theorem stepped_of_step {m n : Memory} {a : Action} (h : m.step a = some n) : Stepped m a n := by
  cases a with
  | newSignal =>
    cases h
    exact .newSignal
  | newAlwaysWanted =>
    cases h
    exact .newAlwaysWanted
  | cloneSignal i =>
    simp only [step] at h
    split at h
    · next sig hi =>
      split at h <;> cases h
      next hfew => exact .cloneSignal i sig hi hfew
    · cases h
  | dropSignal i =>
    simp only [step] at h
    split at h <;> cases h
    next sig hi => exact .dropSignal i sig hi
  | newHandle i =>
    simp only [step] at h
    split at h
    · next sig hi =>
      split at h <;> cases h
      next hfew => exact .newHandle i sig _ hi rfl hfew
    · cases h
  | empty =>
    cases h
    exact .empty
  | cloneHandle i =>
    simp only [step] at h
    split at h
    · next handle hi =>
      split at h <;> cases h
      next hfew => exact .cloneHandle i handle hi hfew
    · cases h
  | dropHandle i =>
    simp only [step] at h
    split at h <;> cases h
    next handle hi => exact .dropHandle i handle hi

@[simp] theorem allocated_countUp (handle : DemandHandle) : (m.countUp handle).allocated = m.allocated := by
  unfold countUp; split <;> rfl

@[simp] theorem signals_countUp (handle : DemandHandle) : (m.countUp handle).signals = m.signals := by
  unfold countUp; split <;> rfl

@[simp] theorem handles_countUp (handle : DemandHandle) : (m.countUp handle).handles = m.handles := by
  unfold countUp; split <;> rfl

@[simp] theorem allocated_countDown (handle : DemandHandle) : (m.countDown handle).allocated = m.allocated := by
  unfold countDown; split <;> rfl

@[simp] theorem signals_countDown (handle : DemandHandle) : (m.countDown handle).signals = m.signals := by
  unfold countDown; split <;> rfl

end Memory

/-! ## What is counted -/

/-- The live signals and handles by where they come from. Signals and `empty` handles are numbered in the order in which
they are made; a clone has the number of the original, and a handle that of its signal. -/
structure Demands where
  made : ℕ := 0
  -- with whether `new_always_wanted` made it
  signals : List (ℕ × Bool) := []
  handles : List (Option ℕ) := []
  deriving DecidableEq

def Demands.step (d : Demands) : Action → Option Demands
  | .newSignal => some { d with made := d.made + 1, signals := d.signals ++ [(d.made, false)] }
  | .newAlwaysWanted => some { d with made := d.made + 1, signals := d.signals ++ [(d.made, true)] }
  | .cloneSignal i => d.signals[i]?.map fun signal => { d with signals := d.signals ++ [signal] }
  | .dropSignal i => d.signals[i]?.map fun _ => { d with signals := d.signals.eraseIdx i }
  | .newHandle i => d.signals[i]?.map fun signal => { d with handles := d.handles ++ [some signal.1] }
  | .empty => some { d with made := d.made + 1, handles := d.handles ++ [none] }
  | .cloneHandle i => d.handles[i]?.map fun handle => { d with handles := d.handles ++ [handle] }
  | .dropHandle i => d.handles[i]?.map fun _ => { d with handles := d.handles.eraseIdx i }

/-- The signal a handle comes from. -/
def DemandHandle.signal (handle : DemandHandle) : Option ℕ := if handle.detached then none else some handle.count

def Memory.demands (m : Memory) : Demands where
  made := m.allocated
  signals := m.signals.map fun sig => (sig.count, sig.alwaysWanted)
  handles := m.handles.map DemandHandle.signal

theorem Memory.count_demands (m : Memory) (made : ℕ) :
    m.demands.handles.count (some made) = holders DemandHandle.signal m.handles made := by
  rw [demands, List.count, List.countP_map, holders]
  refine List.countP_congr fun handle _ => ?_
  simp

/-- The counters play no part in where things come from. -/
theorem Memory.demands_step {m n : Memory} {a : Action} (h : m.step a = some n) : m.demands.step a = some n.demands := by
  cases stepped_of_step h with
  | newSignal | newAlwaysWanted => simp [Demands.step, demands, allocate, addSignal]
  | cloneSignal i sig hi hfew => simp [Demands.step, demands, addSignal, hi]
  | dropSignal i sig hi => simp [Demands.step, demands, hi, List.eraseIdx_map]
  | newHandle i sig handle hi hhandle hfew => simp [Demands.step, demands, addHandle, DemandHandle.signal, hi, hhandle]
  | empty => simp [Demands.step, demands, allocate, addHandle, DemandHandle.signal]
  | cloneHandle i handle hi hfew => simp [Demands.step, demands, addHandle, hi]
  | dropHandle i handle hi => simp [Demands.step, demands, hi, List.eraseIdx_map]

/-! ## The counters are right -/

/-- What holds of the memory, with what `new_always_wanted` has reserved in each counter. -/
structure Counted (reserved : ℕ → ℕ) (m : Memory) : Prop where
  right : CountersRight DemandHandle.signal m.counters reserved m.handles
  always : ∀ sig ∈ m.signals, reserved sig.count = if sig.alwaysWanted then 1 else 0
  reserved_le : ∀ count, reserved count ≤ 1
  references : ∀ count, m.strongCount count ≤ 2 ^ 63
  -- the addresses in use are allocated
  signals : ∀ sig ∈ m.signals, sig.count < m.allocated
  handles : ∀ handle ∈ m.handles, handle.count < m.allocated

namespace Counted
variable {reserved : ℕ → ℕ} {m : Memory}

theorem initial : Counted (fun _ => 0) {} where
  right _ := rfl
  always _ h := by cases h
  reserved_le _ := Nat.zero_le 1
  references _ := Nat.zero_le _
  signals _ h := by cases h
  handles _ h := by cases h

theorem holders_le (handles : List DemandHandle) (count : ℕ) :
    holders DemandHandle.signal handles count ≤
      holders (fun handle : DemandHandle => some handle.count) handles count := by
  refine List.countP_mono_left fun handle _ hholds => ?_
  have hsignal : handle.signal = some count := of_decide_eq_true hholds
  rw [DemandHandle.signal] at hsignal
  split at hsignal
  · cases hsignal
  · exact decide_eq_true hsignal

variable (h : Counted reserved m)
include h

/-- There are too few references to a counter for it to wrap. -/
theorem counters_le (count : ℕ) : m.counters count ≤ 2 ^ 63 + 1 := by
  have hle := holders_le m.handles count
  have hreferences := h.references count
  rw [Memory.strongCount] at hreferences
  rw [h.right count]
  have := h.reserved_le count
  omega

theorem strongCount_allocated : m.strongCount m.allocated = 0 := by
  have hsignals : ¬ 0 < holders (fun sig : DemandSignal => some sig.count) m.signals m.allocated := by
    rw [holders_pos_iff]
    rintro ⟨sig, hsig, heq⟩
    exact absurd (Option.some.inj heq) (h.signals sig hsig).ne
  have hhandles : ¬ 0 < holders (fun handle : DemandHandle => some handle.count) m.handles m.allocated := by
    rw [holders_pos_iff]
    rintro ⟨handle, hhandle, heq⟩
    exact absurd (Option.some.inj heq) (h.handles handle hhandle).ne
  rw [Memory.strongCount]
  omega

theorem addSignal {sig : DemandSignal} (halways : reserved sig.count = if sig.alwaysWanted then 1 else 0)
    (hsig : sig.count < m.allocated) (hfew : m.strongCount sig.count < 2 ^ 63) : Counted reserved (m.addSignal sig) where
  right := h.right
  always := List.forall_mem_append.mpr ⟨h.always, by simpa using halways⟩
  reserved_le := h.reserved_le
  references count := by
    have hreferences := h.references count
    simp only [Memory.addSignal, Memory.strongCount, holders_concat] at hfew hreferences ⊢
    split
    · next heq =>
      obtain rfl := Option.some.inj heq
      omega
    · omega
  signals := List.forall_mem_append.mpr ⟨h.signals, List.forall_mem_singleton.mpr hsig⟩
  handles := h.handles

theorem allocate (value : ℕ) (hvalue : value ≤ 1) :
    Counted (Function.update reserved m.allocated value) (m.allocate value) where
  right := by
    refine h.right.allocate ?_ value
    have hnone := h.strongCount_allocated
    have hle := holders_le m.handles m.allocated
    rw [Memory.strongCount] at hnone
    omega
  always sig hsig := by
    rw [Function.update_of_ne (h.signals sig hsig).ne]
    exact h.always sig hsig
  reserved_le count := by
    rw [Function.update_apply]
    split
    · exact hvalue
    · exact h.reserved_le count
  references := h.references
  signals sig hsig := Nat.lt_succ_of_lt (h.signals sig hsig)
  handles handle hhandle := Nat.lt_succ_of_lt (h.handles handle hhandle)

theorem dropSignal {i : ℕ} {sig : DemandSignal} (hi : m.signals[i]? = some sig) :
    Counted reserved { m with signals := m.signals.eraseIdx i } where
  right := h.right
  always sig hsig := h.always sig (List.mem_of_mem_eraseIdx hsig)
  reserved_le := h.reserved_le
  references count := by
    have hreferences := h.references count
    have herase := holders_eraseIdx (fun sig : DemandSignal => some sig.count) hi count
    simp only [Memory.strongCount] at hreferences ⊢
    omega
  signals sig hsig := h.signals sig (List.mem_of_mem_eraseIdx hsig)
  handles := h.handles

theorem right_countUp (handle : DemandHandle) :
    CountersRight DemandHandle.signal (m.countUp handle).counters reserved (m.handles ++ [handle]) := by
  rw [Memory.countUp]
  cases hdetached : handle.detached with
  | true => exact h.right.concat_idle (by simp [DemandHandle.signal, hdetached])
  | false =>
    have hright := h.right.acquire (a := handle) (k := handle.count) (by simp [DemandHandle.signal, hdetached])
    have hlt := h.counters_le handle.count
    simpa only [Memory.fetchAdd, Bool.not_false, if_true, Nat.mod_eq_of_lt (by omega : m.counters handle.count + 1 < 2 ^ 64)]
      using hright

theorem addHandle (handle : DemandHandle) (hhandle : handle.count < m.allocated)
    (hfew : m.strongCount handle.count < 2 ^ 63) : Counted reserved ((m.countUp handle).addHandle handle) where
  right := by simpa only [Memory.addHandle, Memory.handles_countUp] using h.right_countUp handle
  always := by simpa only [Memory.addHandle, Memory.signals_countUp] using h.always
  reserved_le := h.reserved_le
  references count := by
    have hreferences := h.references count
    simp only [Memory.addHandle, Memory.strongCount, Memory.signals_countUp, Memory.handles_countUp, holders_concat]
      at hfew hreferences ⊢
    split
    · next heq =>
      obtain rfl := Option.some.inj heq
      omega
    · omega
  signals := by simpa only [Memory.addHandle, Memory.signals_countUp, Memory.allocated_countUp] using h.signals
  handles := by
    simp only [Memory.addHandle, Memory.handles_countUp, Memory.allocated_countUp]
    exact List.forall_mem_append.mpr ⟨h.handles, by simpa using hhandle⟩

/-- The counter a handle is counted in is not zero. -/
theorem counters_pos {handle : DemandHandle} (hhandle : handle ∈ m.handles) (hattached : handle.detached = false) :
    0 < m.counters handle.count :=
  h.right.pos hhandle (by simp [DemandHandle.signal, hattached])

theorem right_countDown {i : ℕ} {handle : DemandHandle} (hi : m.handles[i]? = some handle) :
    CountersRight DemandHandle.signal (m.countDown handle).counters reserved (m.handles.eraseIdx i) := by
  rw [Memory.countDown]
  cases hdetached : handle.detached with
  | true => exact h.right.eraseIdx_idle hi (by simp [DemandHandle.signal, hdetached])
  | false =>
    have hright := h.right.release (k := handle.count) hi (by simp [DemandHandle.signal, hdetached])
    have hpos := h.counters_pos (List.mem_of_getElem? hi) hdetached
    have hle := h.counters_le handle.count
    have hsub : (m.counters handle.count + (2 ^ 64 - 1)) % 2 ^ 64 = m.counters handle.count - 1 := by omega
    simpa only [Memory.fetchSub, Bool.not_false, if_true, hsub] using hright

theorem dropHandle {i : ℕ} {handle : DemandHandle} (hi : m.handles[i]? = some handle) :
    Counted reserved { m.countDown handle with handles := m.handles.eraseIdx i } where
  right := h.right_countDown hi
  always := by simpa only [Memory.signals_countDown] using h.always
  reserved_le := h.reserved_le
  references count := by
    have hreferences := h.references count
    have herase := holders_eraseIdx (fun handle : DemandHandle => some handle.count) hi count
    simp only [Memory.strongCount, Memory.signals_countDown] at hreferences ⊢
    omega
  signals := by simpa only [Memory.signals_countDown, Memory.allocated_countDown] using h.signals
  handles handle hhandle := by
    simpa only [Memory.allocated_countDown] using h.handles handle (List.mem_of_mem_eraseIdx hhandle)

theorem step {n : Memory} {a : Action} (hstep : m.step a = some n) : ∃ reserved', Counted reserved' n := by
  cases Memory.stepped_of_step hstep with
  | newSignal =>
    refine ⟨_, (h.allocate 0 (by norm_num)).addSignal ?_ (Nat.lt_succ_self _) ?_⟩
    · simp
    · exact lt_of_eq_of_lt h.strongCount_allocated (by norm_num)
  | newAlwaysWanted =>
    refine ⟨_, (h.allocate 1 le_rfl).addSignal ?_ (Nat.lt_succ_self _) ?_⟩
    · simp
    · exact lt_of_eq_of_lt h.strongCount_allocated (by norm_num)
  | cloneSignal i sig hi hfew =>
    have hsig := List.mem_of_getElem? hi
    exact ⟨reserved, h.addSignal (h.always sig hsig) (h.signals sig hsig) hfew⟩
  | dropSignal i sig hi => exact ⟨reserved, h.dropSignal hi⟩
  | newHandle i sig handle hi hhandle hfew =>
    refine ⟨reserved, h.addHandle handle ?_ hfew⟩
    rw [hhandle]
    exact h.signals sig (List.mem_of_getElem? hi)
  | empty =>
    refine ⟨_, (h.allocate 0 (by norm_num)).addHandle ⟨m.allocated, true⟩ (Nat.lt_succ_self _) ?_⟩
    exact lt_of_eq_of_lt h.strongCount_allocated (by norm_num)
  | cloneHandle i handle hi hfew => exact ⟨reserved, h.addHandle handle (h.handles handle (List.mem_of_getElem? hi)) hfew⟩
  | dropHandle i handle hi => exact ⟨reserved, h.dropHandle hi⟩

end Counted

/-- After any calls on any signals and handles, each signal's counter is the number of the live handles that come from it or
its clones, and one for `new_always_wanted`; the signal is wanted exactly if it always is or such a handle is alive; and no
drop of a handle finds its counter at zero. -/
theorem demand_counted {actions : List Action} {m : Memory} (hrun : run Memory.step {} actions = some m) :
    ∃ d, run Demands.step {} actions = some d ∧
      (∀ (i : ℕ) (sig : DemandSignal), m.signals[i]? = some sig → ∃ made, d.signals[i]? = some (made, sig.alwaysWanted) ∧
        m.counters sig.count = d.handles.count (some made) + (if sig.alwaysWanted then 1 else 0) ∧
        (m.isWanted sig = true ↔ sig.alwaysWanted = true ∨ some made ∈ d.handles)) ∧
      ∀ handle ∈ m.handles, handle.detached = false → 0 < m.counters handle.count := by
  have hdemands : run Demands.step {} actions = some m.demands :=
    run_map Memory.demands (fun _ _ _ => Memory.demands_step) hrun
  obtain ⟨reserved, h⟩ : ∃ reserved, Counted reserved m :=
    run_invariant (I := fun m => ∃ reserved, Counted reserved m) (fun _ _ _ h _ hstep => h.choose_spec.step hstep)
      ⟨_, Counted.initial⟩ (eachStep_trivial _ _) hrun
  refine ⟨m.demands, hdemands, fun i sig hi => ?_, fun handle => h.counters_pos⟩
  have hcount : m.counters sig.count = m.demands.handles.count (some sig.count) + (if sig.alwaysWanted then 1 else 0) := by
    rw [h.right sig.count, h.always sig (List.mem_of_getElem? hi), Memory.count_demands]
  refine ⟨sig.count, by simp [Memory.demands, hi], hcount, ?_⟩
  rw [Memory.isWanted, Bool.or_eq_true, decide_eq_true_eq, hcount, ← List.count_pos_iff]
  cases sig.alwaysWanted <;> simp

/-- A handle from a clone of the first signal, and its clone; an `empty` handle comes and goes. -/
def sharedCalls : List Action :=
  [.newSignal, .newAlwaysWanted, .cloneSignal 0, .newHandle 2, .cloneHandle 0, .empty, .dropHandle 2]

theorem demand_counted_shared :
    ∃ m, run Memory.step {} sharedCalls = some m ∧ m.signals[0]? = some ⟨0, false⟩ ∧
      ∃ d : Demands, run Demands.step {} sharedCalls = some d ∧ ∃ made, d.signals[0]? = some (made, false) ∧
        m.counters 0 = d.handles.count (some made) + 0 ∧
        (m.isWanted ⟨0, false⟩ = true ↔ false = true ∨ some made ∈ d.handles) := by
  refine ⟨_, rfl, rfl, ?_⟩
  obtain ⟨d, hd, hsignals, -⟩ := demand_counted (rfl : run Memory.step {} sharedCalls = some _)
  exact ⟨d, hd, hsignals 0 ⟨0, false⟩ rfl⟩

/-! ## The signals of the pipeline's model -/

/-- What the model of the tasks keeps of a signal. -/
def Memory.view (m : Memory) (sig : DemandSignal) : Pipeline.DemandSignal where
  count := m.counters sig.count
  alwaysWanted := sig.alwaysWanted

theorem isWanted_view (m : Memory) (sig : DemandSignal) : (m.view sig).isWanted = m.isWanted sig := rfl

section View
variable {reserved : ℕ → ℕ} {m n : Memory} {sig : DemandSignal} (h : Counted reserved m)
include h

theorem view_newHandle {i : ℕ} (hi : m.signals[i]? = some sig) (hstep : m.step (.newHandle i) = some n) :
    n.view sig = (m.view sig).newHandle := by
  have hle := h.counters_le sig.count
  have hadd : (m.counters sig.count + 1) % 2 ^ 64 = m.counters sig.count + 1 := Nat.mod_eq_of_lt (by omega)
  simp only [Memory.step, hi] at hstep
  split at hstep <;> cases hstep
  simp only [Memory.view, Memory.addHandle, Memory.fetchAdd, Function.update_self, hadd, Pipeline.DemandSignal.newHandle]

theorem view_dropHandle {i : ℕ} {handle : DemandHandle} (hi : m.handles[i]? = some handle)
    (hhandle : handle.signal = some sig.count) (hstep : m.step (.dropHandle i) = some n) :
    n.view sig = (m.view sig).dropHandle := by
  obtain ⟨hattached, hcount⟩ : handle.detached = false ∧ handle.count = sig.count := by
    cases hdetached : handle.detached <;> simp_all [DemandHandle.signal]
  have hpos := h.counters_pos (List.mem_of_getElem? hi) hattached
  have hle := h.counters_le sig.count
  rw [hcount] at hpos
  have hsub : (m.counters sig.count + (2 ^ 64 - 1)) % 2 ^ 64 = m.counters sig.count - 1 := by omega
  simp only [Memory.step, hi] at hstep
  cases hstep
  simp only [Memory.view, Memory.countDown, hattached, Bool.not_false, if_true, Memory.fetchSub, hcount,
    Function.update_self, hsub, Pipeline.DemandSignal.dropHandle]

end View
end LivestreamRs.Demand
