import Mathlib.Tactic

/-! # Broadcast channels

Channels whose every value goes to all receivers that exist when it is sent. A channel keeps its last
`capacity` values; a receiver that falls further behind skips to the oldest one kept. A channel without senders
is closed for a receiver that has read all of it. Channels and receivers are numbered in the order in which they
are made, and never reused.
-/
namespace LivestreamRs.Foundations
set_option autoImplicit false

structure Channel (α : Type) where
  capacity : ℕ
  -- all values sent so far
  values : List α := []
  isOpen : Bool := true

structure Receiver (α : Type) where
  channel : ℕ
  -- the position of the next value to be read
  next : ℕ
  alive : Bool := true
  -- the values read so far
  received : List α := []

structure Broadcasts (α : Type) where
  channels : ℕ → Channel α := fun _ => { capacity := 1 }
  channelCount : ℕ := 0
  receivers : ℕ → Receiver α := fun _ => { channel := 0, next := 0, alive := false }
  receiverCount : ℕ := 0

inductive BroadcastRecv (α : Type)
  | item (a : α)
  | lagged
  | empty
  | closed
  deriving DecidableEq

/-- The values a receive returns. -/
def BroadcastRecv.read {α : Type} : BroadcastRecv α → List α
  | .item a => [a]
  | .lagged | .empty | .closed => []

namespace Broadcasts
variable {α : Type} (b : Broadcasts α)

def newChannel (capacity : ℕ) : Broadcasts α :=
  { b with
    channels := Function.update b.channels b.channelCount { capacity := capacity }
    channelCount := b.channelCount + 1 }

def subscribe (ch : ℕ) : Broadcasts α :=
  { b with
    receivers := Function.update b.receivers b.receiverCount { channel := ch, next := (b.channels ch).values.length }
    receiverCount := b.receiverCount + 1 }

/-- The number of receivers a value sent now goes to. -/
def liveReceivers (ch : ℕ) : ℕ :=
  (List.range b.receiverCount).countP fun r => (b.receivers r).alive && (b.receivers r).channel == ch

/-- A value without receivers is not kept. -/
def send (ch : ℕ) (a : α) : Broadcasts α :=
  if b.liveReceivers ch = 0 then b
  else
    let c := b.channels ch
    { b with channels := Function.update b.channels ch { c with values := c.values ++ [a] } }

def dropSender (ch : ℕ) : Broadcasts α :=
  { b with channels := Function.update b.channels ch { b.channels ch with isOpen := false } }

def dropReceiver (r : ℕ) : Broadcasts α :=
  { b with receivers := Function.update b.receivers r { b.receivers r with alive := false } }

/-- The values a receiver has not read. -/
def unread (r : ℕ) : List α := (b.channels (b.receivers r).channel).values.drop (b.receivers r).next

def recvResult (r : ℕ) : BroadcastRecv α :=
  let c := b.channels (b.receivers r).channel
  match b.unread r with
  | [] => if c.isOpen then .empty else .closed
  | a :: rest => if c.capacity < rest.length + 1 then .lagged else .item a

def setReceiver (r : ℕ) (receiver : Receiver α) : Broadcasts α :=
  { b with receivers := Function.update b.receivers r receiver }

/-- One receive; `none` while there is nothing to return. -/
def recv (r : ℕ) : Option (Broadcasts α) :=
  let receiver := b.receivers r
  let c := b.channels receiver.channel
  match b.recvResult r with
  | .item a => some (b.setReceiver r { receiver with next := receiver.next + 1, received := receiver.received ++ [a] })
  | .lagged => some (b.setReceiver r { receiver with next := c.values.length - c.capacity })
  | .closed => some b
  | .empty => none

@[simp] theorem channelCount_send (ch : ℕ) (a : α) : (b.send ch a).channelCount = b.channelCount := by
  unfold send
  split <;> rfl

theorem channels_send_other {ch ch' : ℕ} (h : ch' ≠ ch) (a : α) : (b.send ch' a).channels ch = b.channels ch := by
  unfold send
  split
  · rfl
  · simp [Function.update_of_ne h.symm]

@[simp] theorem capacity_send (ch ch' : ℕ) (a : α) :
    ((b.send ch' a).channels ch).capacity = (b.channels ch).capacity := by
  unfold send
  split
  · rfl
  · by_cases h : ch = ch'
    · simp [h]
    · simp [Function.update_of_ne h]

@[simp] theorem isOpen_send (ch ch' : ℕ) (a : α) :
    ((b.send ch' a).channels ch).isOpen = (b.channels ch).isOpen := by
  unfold send
  split
  · rfl
  · by_cases h : ch = ch'
    · simp [h]
    · simp [Function.update_of_ne h]

theorem channels_recv {b b' : Broadcasts α} {r : ℕ} (h : b.recv r = some b') :
    b'.channels = b.channels ∧ b'.channelCount = b.channelCount := by
  unfold recv at h
  simp only at h
  split at h
  all_goals cases h
  all_goals exact ⟨rfl, rfl⟩

theorem alive_recv {b b' : Broadcasts α} {r : ℕ} (h : b.recv r = some b') (r' : ℕ) :
    b'.receiverCount = b.receiverCount ∧ (b'.receivers r').alive = (b.receivers r').alive := by
  have hset : ∀ receiver : Receiver α, receiver.alive = (b.receivers r).alive →
      ((b.setReceiver r receiver).receivers r').alive = (b.receivers r').alive := by
    intro receiver halive
    by_cases heq : r' = r
    · simp [setReceiver, heq, halive]
    · simp [setReceiver, Function.update_of_ne heq]
  unfold recv at h
  simp only at h
  split at h
  all_goals cases h
  · exact ⟨rfl, hset _ rfl⟩
  · exact ⟨rfl, hset _ rfl⟩
  · exact ⟨rfl, rfl⟩

theorem receivers_recv_other {b b' : Broadcasts α} {r r' : ℕ} (hr : r' ≠ r) (h : b.recv r' = some b') :
    b'.receivers r = b.receivers r := by
  unfold recv at h
  simp only at h
  split at h
  all_goals cases h
  all_goals first | exact Function.update_of_ne hr.symm _ _ | rfl

@[simp] theorem receivers_send (ch : ℕ) (a : α) : (b.send ch a).receivers = b.receivers := by
  unfold send
  split <;> rfl

@[simp] theorem receiverCount_send (ch : ℕ) (a : α) : (b.send ch a).receiverCount = b.receiverCount := by
  unfold send
  split <;> rfl

/-! ## One receiver -/

/-- A living receiver of a channel, with the values it has read or will read. -/
structure Follows (r ch : ℕ) (log : List α) : Prop where
  lt_count : r < b.receiverCount
  alive : (b.receivers r).alive = true
  channel : (b.receivers r).channel = ch
  next_le : (b.receivers r).next ≤ (b.channels ch).values.length
  log : (b.receivers r).received ++ b.unread r = log

variable {b} {b' : Broadcasts α} {r ch : ℕ} {log : List α}

/-- Only what happens to its channel or to itself concerns a receiver. -/
theorem Follows.frame (h : b.Follows r ch log) (hreceiver : b'.receivers r = b.receivers r)
    (hvalues : (b'.channels ch).values = (b.channels ch).values) (hcount : b.receiverCount ≤ b'.receiverCount) :
    b'.Follows r ch log where
  lt_count := h.lt_count.trans_le hcount
  alive := by rw [hreceiver, h.alive]
  channel := by rw [hreceiver, h.channel]
  next_le := by rw [hreceiver, hvalues]; exact h.next_le
  log := by
    have hunread : b'.unread r = b.unread r := by rw [unread, unread, hreceiver, h.channel, hvalues]
    rw [hunread, hreceiver, h.log]

theorem follows_subscribe (b : Broadcasts α) (ch : ℕ) : (b.subscribe ch).Follows b.receiverCount ch [] where
  lt_count := Nat.lt_succ_self _
  alive := by simp [subscribe]
  channel := by simp [subscribe]
  next_le := by simp [subscribe]
  log := by simp [subscribe, unread]

theorem Follows.liveReceivers_pos (h : b.Follows r ch log) : b.liveReceivers ch ≠ 0 := by
  unfold liveReceivers
  rw [← Nat.pos_iff_ne_zero, List.countP_pos_iff]
  exact ⟨r, List.mem_range.mpr h.lt_count, by simp [h.alive, h.channel]⟩

theorem Follows.subscribe (h : b.Follows r ch log) (ch' : ℕ) : (b.subscribe ch').Follows r ch log :=
  h.frame (Function.update_of_ne h.lt_count.ne _ _) rfl (Nat.le_succ _)

theorem Follows.newChannel (h : b.Follows r ch log) (hch : ch < b.channelCount) (capacity : ℕ) :
    (b.newChannel capacity).Follows r ch log :=
  h.frame rfl (by simp [Broadcasts.newChannel, Function.update_of_ne hch.ne]) le_rfl

theorem Follows.dropSender (h : b.Follows r ch log) (ch' : ℕ) : (b.dropSender ch').Follows r ch log := by
  refine h.frame rfl ?_ le_rfl
  by_cases heq : ch = ch'
  · simp [Broadcasts.dropSender, heq]
  · simp [Broadcasts.dropSender, Function.update_of_ne heq]

theorem Follows.dropReceiver (h : b.Follows r ch log) {r' : ℕ} (hr : r' ≠ r) :
    (b.dropReceiver r').Follows r ch log :=
  h.frame (Function.update_of_ne hr.symm _ _) rfl le_rfl

theorem Follows.send_other (h : b.Follows r ch log) {ch' : ℕ} (hch : ch' ≠ ch) (a : α) :
    (b.send ch' a).Follows r ch log := by
  unfold send
  split
  · exact h
  · exact h.frame rfl (by simp [Function.update_of_ne hch.symm]) le_rfl

theorem Follows.send (h : b.Follows r ch log) (a : α) : (b.send ch a).Follows r ch (log ++ [a]) := by
  rw [Broadcasts.send, if_neg h.liveReceivers_pos]
  refine ⟨h.lt_count, h.alive, h.channel, ?_, ?_⟩
  · simp only [Function.update_self, List.length_append]
    exact h.next_le.trans (Nat.le_add_right _ _)
  · have hlog := h.log
    rw [unread, h.channel] at hlog
    rw [unread]
    simp only [h.channel, Function.update_self, List.drop_append_of_le_length h.next_le]
    rw [← List.append_assoc, hlog]

/-- A receiver that has not fallen behind by more than the capacity reads the next value. -/
theorem Follows.recvResult_eq (h : b.Follows r ch log) (hlag : (b.unread r).length ≤ (b.channels ch).capacity) :
    b.recvResult r = match b.unread r with
      | [] => if (b.channels ch).isOpen then .empty else .closed
      | a :: _ => .item a := by
  unfold recvResult
  rw [h.channel]
  split
  · rfl
  · next a rest hunread =>
    rw [hunread, List.length_cons] at hlag
    rw [if_neg (Nat.not_lt.mpr hlag)]

theorem Follows.recv_cons (h : b.Follows r ch log) (hlag : (b.unread r).length ≤ (b.channels ch).capacity)
    {a : α} {rest : List α} (hunread : b.unread r = a :: rest) :
    ∃ b', b.recv r = some b' ∧ b'.Follows r ch log ∧ b'.unread r = rest ∧ b'.channels = b.channels := by
  have hresult := h.recvResult_eq hlag
  rw [hunread] at hresult
  have hrest : (b.channels ch).values.drop ((b.receivers r).next + 1) = rest := by
    rw [unread, h.channel] at hunread
    rw [← List.tail_drop, hunread, List.tail_cons]
  have hlt : (b.receivers r).next < (b.channels ch).values.length := by
    rw [unread, h.channel] at hunread
    by_contra hge
    rw [List.drop_of_length_le (Nat.not_lt.mp hge)] at hunread
    cases hunread
  have hrecv : b.recv r = some (b.setReceiver r { b.receivers r with
      next := (b.receivers r).next + 1, received := (b.receivers r).received ++ [a] }) := by
    simp only [recv, hresult]
  refine ⟨_, hrecv, ⟨h.lt_count, ?_, ?_, ?_, ?_⟩, ?_, rfl⟩
  · simp [setReceiver, h.alive]
  · simp [setReceiver, h.channel]
  · simp only [setReceiver, Function.update_self]
    exact hlt
  · have hlog := h.log
    rw [hunread] at hlog
    simp only [unread, setReceiver, Function.update_self, h.channel, hrest]
    simpa using hlog
  · simp only [unread, setReceiver, Function.update_self, h.channel, hrest]

theorem Follows.recv_self (h : b.Follows r ch log) (hlag : (b.unread r).length ≤ (b.channels ch).capacity)
    (hrecv : b.recv r = some b') : b'.Follows r ch log := by
  cases hunread : b.unread r with
  | cons a rest =>
    obtain ⟨b'', hrecv', hfollows, -⟩ := h.recv_cons hlag hunread
    obtain rfl := Option.some.inj (hrecv.symm.trans hrecv')
    exact hfollows
  | nil =>
    have hresult := h.recvResult_eq hlag
    rw [hunread] at hresult
    simp only [recv, hresult] at hrecv
    split at hrecv
    · next heq => split at heq <;> cases heq
    · next heq => split at heq <;> cases heq
    · obtain rfl := Option.some.inj hrecv
      exact h
    · cases hrecv

theorem received_recv (hrecv : b.recv r = some b') :
    (b'.receivers r).received = (b.receivers r).received ++ (b.recvResult r).read := by
  unfold recv at hrecv
  simp only at hrecv
  split at hrecv
  · next a ha =>
    obtain rfl := Option.some.inj hrecv
    simp [setReceiver, ha, BroadcastRecv.read]
  · next ha =>
    obtain rfl := Option.some.inj hrecv
    simp [setReceiver, ha, BroadcastRecv.read]
  · next ha =>
    obtain rfl := Option.some.inj hrecv
    simp [ha, BroadcastRecv.read]
  · cases hrecv

/-- However far behind, a receiver goes on with later values only. -/
theorem Follows.recv_behind (h : b.Follows r ch log) (hrecv : b.recv r = some b') :
    ∃ log', b'.Follows r ch log' ∧ log'.Sublist log := by
  by_cases hlag : (b.unread r).length ≤ (b.channels ch).capacity
  · exact ⟨log, h.recv_self hlag hrecv, List.Sublist.refl _⟩
  · have hresult : b.recvResult r = .lagged := by
      unfold recvResult
      rw [h.channel]
      split
      · next hnil => simp [hnil] at hlag
      · next a rest hunread =>
        rw [hunread, List.length_cons] at hlag
        rw [if_pos (Nat.not_le.mp hlag)]
    simp only [recv, hresult, h.channel] at hrecv
    obtain rfl := Option.some.inj hrecv
    have hunread : b.unread r = (b.channels ch).values.drop (b.receivers r).next := by rw [unread, h.channel]
    have hnext : (b.receivers r).next ≤ (b.channels ch).values.length - (b.channels ch).capacity := by
      rw [hunread, List.length_drop] at hlag
      omega
    refine ⟨(b.receivers r).received ++ (b.channels ch).values.drop ((b.channels ch).values.length -
      (b.channels ch).capacity), ⟨h.lt_count, ?_, ?_, ?_, ?_⟩, ?_⟩
    · simp [setReceiver, h.alive]
    · simp [setReceiver]
    · simp [setReceiver]
    · simp [unread, setReceiver]
    · rw [← h.log, hunread]
      exact (List.drop_sublist_drop_left _ hnext).append_left _

theorem Follows.recv_other {r' : ℕ} (h : b.Follows r ch log) (hr : r' ≠ r) (hrecv : b.recv r' = some b') :
    b'.Follows r ch log := by
  unfold recv at hrecv
  simp only at hrecv
  split at hrecv
  · obtain rfl := Option.some.inj hrecv
    exact h.frame (Function.update_of_ne hr.symm _ _) rfl le_rfl
  · obtain rfl := Option.some.inj hrecv
    exact h.frame (Function.update_of_ne hr.symm _ _) rfl le_rfl
  · obtain rfl := Option.some.inj hrecv
    exact h
  · cases hrecv

/-! ## What a receive depends on -/

/-- The result of a receive, from what the receiver has not read. -/
def recvOf (capacity : ℕ) (isOpen : Bool) : List α → BroadcastRecv α
  | [] => if isOpen then .empty else .closed
  | a :: rest => if capacity < rest.length + 1 then .lagged else .item a

/-- What it has not read after a receive. -/
def unreadAfter (capacity : ℕ) (unread : List α) : List α :=
  if capacity < unread.length then unread.drop (unread.length - capacity) else unread.tail

theorem Follows.recvResult_eq_recvOf (h : b.Follows r ch log) :
    b.recvResult r = recvOf (b.channels ch).capacity (b.channels ch).isOpen (b.unread r) := by
  unfold recvResult
  rw [h.channel]
  split
  · next hunread => rw [hunread, recvOf]
  · next a rest hunread => rw [hunread, recvOf]

theorem exists_recv (h : b.recvResult r ≠ .empty) : ∃ b', b.recv r = some b' := by
  unfold recv
  simp only
  split
  · exact ⟨_, rfl⟩
  · exact ⟨_, rfl⟩
  · exact ⟨_, rfl⟩
  · next hempty => exact absurd hempty h

theorem Follows.unread_recv (h : b.Follows r ch log) (hrecv : b.recv r = some b') :
    b'.unread r = unreadAfter (b.channels ch).capacity (b.unread r) := by
  have hchannel := h.channel
  have hunread : b.unread r = (b.channels ch).values.drop (b.receivers r).next := by rw [unread, hchannel]
  have hset : ∀ next received, (b.setReceiver r { b.receivers r with next := next, received := received }).unread r =
      (b.channels ch).values.drop next := by
    intro next received
    simp [unread, setReceiver, hchannel]
  cases hrest : b.unread r with
  | nil =>
    have hsame : b' = b := by
      simp only [recv, h.recvResult_eq_recvOf, hrest, recvOf] at hrecv
      split at hrecv
      · next hitem => split at hitem <;> cases hitem
      · next hlag => split at hlag <;> cases hlag
      · exact (Option.some.inj hrecv).symm
      · cases hrecv
    simp [hsame, hrest, unreadAfter]
  | cons a rest =>
    by_cases hlag : (b.channels ch).capacity < rest.length + 1
    · simp only [recv, h.recvResult_eq_recvOf, hrest, recvOf, if_pos hlag] at hrecv
      obtain rfl := Option.some.inj hrecv
      have hlength : rest.length + 1 = (b.channels ch).values.length - (b.receivers r).next := by
        rw [← List.length_cons (a := a), ← hrest, hunread, List.length_drop]
      rw [hset, hchannel, unreadAfter, if_pos (by simpa using hlag), ← hrest, hunread, List.drop_drop, List.length_drop]
      congr 1
      omega
    · simp only [recv, h.recvResult_eq_recvOf, hrest, recvOf, if_neg hlag] at hrecv
      obtain rfl := Option.some.inj hrecv
      rw [hset, unreadAfter, if_neg (by simpa using hlag), ← hrest, hunread, List.tail_drop]

end Broadcasts
end LivestreamRs.Foundations
