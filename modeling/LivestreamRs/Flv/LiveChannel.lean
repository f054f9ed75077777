import LivestreamRs.Foundations.Broadcast
import LivestreamRs.Foundations.KeyedLog
import LivestreamRs.Foundations.Transitions
import LivestreamRs.Media.FlvTag

/-! # The FLV live channel

`FlvLiveChannel` (`livestream-transport/src/flv/channel.rs`) sends the tags of a stream to all subscribers and keeps
the last sequence header of each kind for those who join later. `broadcast` is two atomic steps, the update of a slot
and the send; `subscribe` is four, the new receiver and one read for each slot. There is one broadcaster and any
number of subscribers.
-/
namespace LivestreamRs.Flv
open Media Foundations
set_option autoImplicit false

/-! ## The channel -/

inductive HeaderKind
  | metadata
  | video
  | audio
  deriving DecidableEq

def kindOf : FlvTag → HeaderKind
  | .video .. => .video
  | .audio .. => .audio
  | .scriptData _ => .metadata

/-- The slot a tag is cached in, if any. -/
def headerKind (tag : FlvTag) : Option HeaderKind :=
  if tag.isSequenceHeader then some (kindOf tag) else none

structure FlvLiveChannel where
  sender : Broadcasts FlvTag := ({} : Broadcasts FlvTag).newChannel 1024
  videoSeq : Option FlvTag := none
  audioSeq : Option FlvTag := none
  metadata : Option FlvTag := none

namespace FlvLiveChannel
variable (c : FlvLiveChannel)

def slot : HeaderKind → Option FlvTag
  | .metadata => c.metadata
  | .video => c.videoSeq
  | .audio => c.audioSeq

def cacheSeqHeader (tag : FlvTag) : FlvLiveChannel :=
  if !tag.isSequenceHeader then c
  else
    match tag with
    | .video .. => { c with videoSeq := some tag }
    | .audio .. => { c with audioSeq := some tag }
    | .scriptData _ => { c with metadata := some tag }

def send (tag : FlvTag) : FlvLiveChannel := { c with sender := c.sender.send 0 tag }

def broadcast (tag : FlvTag) : FlvLiveChannel := (c.cacheSeqHeader tag).send tag

/-- The first step of `subscribe`; the receiver is the one numbered `receiverCount`. -/
def attach : FlvLiveChannel := { c with sender := c.sender.subscribe 0 }

/-- The order in which `subscribe` reads the slots. -/
def slotOrder : List HeaderKind := [.metadata, .video, .audio]

def subscribe : FlvLiveChannel × ℕ × List FlvTag :=
  (c.attach, c.sender.receiverCount, slotOrder.flatMap fun k => (c.slot k).toList)

theorem slot_cacheSeqHeader (tag : FlvTag) (k : HeaderKind) :
    (c.cacheSeqHeader tag).slot k = if headerKind tag = some k then some tag else c.slot k := by
  unfold cacheSeqHeader headerKind
  cases htag : tag.isSequenceHeader with
  | false => simp
  | true => cases tag <;> cases k <;> simp [kindOf, slot]

@[simp]
theorem sender_cacheSeqHeader (tag : FlvTag) : (c.cacheSeqHeader tag).sender = c.sender := by
  unfold cacheSeqHeader
  split
  · rfl
  · cases tag <;> rfl

@[simp]
theorem slot_send (tag : FlvTag) (k : HeaderKind) : (c.send tag).slot k = c.slot k := by cases k <;> rfl

@[simp]
theorem slot_attach (k : HeaderKind) : c.attach.slot k = c.slot k := by cases k <;> rfl

end FlvLiveChannel

/-! ## The steps of its users -/

/-- A subscriber, known by the number of its receiver: the slots it has still to read and what it was given. -/
structure Subscriber where
  toRead : List HeaderKind := FlvLiveChannel.slotOrder
  cached : List FlvTag := []

structure LiveState where
  channel : FlvLiveChannel := {}
  -- the tag `broadcast` has cached and not yet sent
  sending : Option FlvTag := none
  subscribers : ℕ → Subscriber := fun _ => {}
  -- history, read by no one: the tags whose `broadcast` has returned
  completed : List FlvTag := []

inductive LiveAction
  -- the two steps of `broadcast`
  | cache (tag : FlvTag)
  | send
  -- the steps of `subscribe`
  | attach
  | readSlot (r : ℕ)
  -- the subscriber after it
  | recv (r : ℕ)
  | dropReceiver (r : ℕ)
  deriving DecidableEq

namespace LiveState
variable (s : LiveState)

/-- The tags whose `broadcast` has begun. -/
def begun : List FlvTag := s.completed ++ s.sending.toList

def setSender (sender : Broadcasts FlvTag) : LiveState := { s with channel := { s.channel with sender := sender } }

/-- What a subscriber is after reading a slot. -/
def readSlot (k : HeaderKind) (rest : List HeaderKind) (r : ℕ) : Subscriber where
  toRead := rest
  cached := (s.subscribers r).cached ++ (s.channel.slot k).toList

def step : LiveAction → Option LiveState
  | .cache tag =>
    match s.sending with
    | none => some { s with channel := s.channel.cacheSeqHeader tag, sending := some tag }
    | some _ => none
  | .send =>
    match s.sending with
    | none => none
    | some tag => some { s with
        channel := s.channel.send tag, sending := none, completed := s.completed ++ [tag] }
  | .attach => some { s with
      channel := s.channel.attach
      subscribers := Function.update s.subscribers s.channel.sender.receiverCount {} }
  | .readSlot r =>
    match (s.subscribers r).toRead with
    | [] => none
    | k :: rest => some { s with subscribers := Function.update s.subscribers r (s.readSlot k rest r) }
  | .recv r => (s.channel.sender.recv r).map s.setSender
  | .dropReceiver r => some (s.setSender (s.channel.sender.dropReceiver r))

/-- Without steps of others in between, `broadcast` and `subscribe` are their steps. -/
theorem run_broadcast (hs : s.sending = none) (tag : FlvTag) :
    run step s [.cache tag, .send] =
      some { s with channel := s.channel.broadcast tag, completed := s.completed ++ [tag] } := by
  obtain ⟨channel, sending, subscribers, completed⟩ := s
  subst hs
  rfl

theorem run_subscribe :
    let (channel, r, cached) := s.channel.subscribe
    run step s [.attach, .readSlot r, .readSlot r, .readSlot r] =
      some { s with
        channel := channel
        subscribers := Function.update s.subscribers r { toRead := [], cached := cached } } := by
  simp [run, step, readSlot, FlvLiveChannel.subscribe, FlvLiveChannel.slotOrder]

theorem step_cases {s t : LiveState} {a : LiveAction} (h : s.step a = some t) :
    (∃ tag, a = .cache tag ∧ s.sending = none ∧
      t = { s with channel := s.channel.cacheSeqHeader tag, sending := some tag }) ∨
    (∃ tag, a = .send ∧ s.sending = some tag ∧
      t = { s with channel := s.channel.send tag, sending := none, completed := s.completed ++ [tag] }) ∨
    (a = .attach ∧ t = { s with
      channel := s.channel.attach
      subscribers := Function.update s.subscribers s.channel.sender.receiverCount {} }) ∨
    (∃ r k rest, a = .readSlot r ∧ (s.subscribers r).toRead = k :: rest ∧
      t = { s with subscribers := Function.update s.subscribers r (s.readSlot k rest r) }) ∨
    (∃ r sender, a = .recv r ∧ s.channel.sender.recv r = some sender ∧ t = s.setSender sender) ∨
    ∃ r, a = .dropReceiver r ∧ t = s.setSender (s.channel.sender.dropReceiver r) := by
  cases a with
  | cache tag =>
    simp only [step] at h
    split at h
    · next hnone => exact .inl ⟨tag, rfl, hnone, (Option.some.inj h).symm⟩
    · cases h
  | send =>
    simp only [step] at h
    split at h
    · cases h
    · next tag htag => exact .inr (.inl ⟨tag, rfl, htag, (Option.some.inj h).symm⟩)
  | attach => exact .inr (.inr (.inl ⟨rfl, (Option.some.inj h).symm⟩))
  | readSlot r =>
    simp only [step] at h
    split at h
    · cases h
    · next k rest hread => exact .inr (.inr (.inr (.inl ⟨r, k, rest, rfl, hread, (Option.some.inj h).symm⟩)))
  | recv r =>
    obtain ⟨sender, hrecv, rfl⟩ := Option.map_eq_some_iff.mp h
    exact .inr (.inr (.inr (.inr (.inl ⟨r, sender, rfl, hrecv, rfl⟩))))
  | dropReceiver r => exact .inr (.inr (.inr (.inr (.inr ⟨r, rfl, (Option.some.inj h).symm⟩))))

/-- Only `subscribe` changes what subscribers were given. -/
theorem subscribers_step {s t : LiveState} {a : LiveAction} (h : s.step a = some t) (hattach : a ≠ .attach)
    (hread : ∀ r, a ≠ .readSlot r) : t.subscribers = s.subscribers := by
  obtain ⟨tag, rfl, hnone, rfl⟩ | ⟨tag, rfl, htag, rfl⟩ | ⟨rfl, rfl⟩ | ⟨r, k, rest, rfl, hcons, rfl⟩ |
    ⟨r, sender, rfl, hrecv, rfl⟩ | ⟨r, rfl, rfl⟩ := step_cases h
  · rfl
  · rfl
  · exact absurd rfl hattach
  · exact absurd rfl (hread r)
  · rfl
  · rfl

/-! ## What the slots hold -/

/-- Each slot holds the last header of its kind whose `broadcast` has begun. -/
def SlotsLatest : Prop := ∀ k, s.channel.slot k = latest headerKind k s.begun

theorem slotsLatest_step {s t : LiveState} {a : LiveAction} (hs : s.SlotsLatest) (h : s.step a = some t) :
    t.SlotsLatest := by
  intro k
  obtain ⟨tag, rfl, hnone, rfl⟩ | ⟨tag, rfl, htag, rfl⟩ | ⟨rfl, rfl⟩ | ⟨r, j, rest, rfl, hread, rfl⟩ |
    ⟨r, sender, rfl, hrecv, rfl⟩ | ⟨r, rfl, rfl⟩ := step_cases h
  · have hk := hs k
    rw [begun, hnone, Option.toList_none, List.append_nil] at hk
    rw [FlvLiveChannel.slot_cacheSeqHeader, hk, begun, Option.toList_some, latest_append]
  · have hk := hs k
    rw [begun, htag] at hk
    rw [FlvLiveChannel.slot_send, hk]
    simp [begun]
  · rw [FlvLiveChannel.slot_attach, hs k]
    rfl
  · exact hs k
  · exact hs k
  · exact hs k

/-! ## What a subscriber holds -/

/-- A subscriber that was attached after `start` broadcasts had returned: it receives all that return after that,
and what it has read of a slot was the last header of a moment not before. -/
structure Joined (r start : ℕ) : Prop where
  start_le : start ≤ s.completed.length
  follows : s.channel.sender.Follows r 0 (s.completed.drop start)
  read : ∀ k, k ∉ (s.subscribers r).toRead →
    ∃ m, start ≤ m ∧ m ≤ s.begun.length ∧ ∀ tag ∈ latest headerKind k (s.begun.take m), tag ∈ (s.subscribers r).cached

/-- A receive of the subscriber finds it no further behind than the channel's capacity. -/
def KeepsUp (r : ℕ) (s : LiveState) (a : LiveAction) : Prop :=
  a = .recv r → (s.channel.sender.unread r).length ≤ (s.channel.sender.channels 0).capacity

instance (r : ℕ) (s : LiveState) (a : LiveAction) : Decidable (KeepsUp r s a) :=
  inferInstanceAs (Decidable (_ → _))

/-- The receiver exists and is not dropped. -/
def Attached (r : ℕ) : Prop := r < s.channel.sender.receiverCount ∧ (s.channel.sender.receivers r).alive = true

variable {s} {t : LiveState} {a : LiveAction} {r start : ℕ}

/-- A step that leaves alone what the subscriber has read. -/
theorem Joined.frame (h : s.Joined r start) (hcompleted : s.completed.length ≤ t.completed.length)
    (hfollows : t.channel.sender.Follows r 0 (t.completed.drop start)) (hbegun : s.begun <+: t.begun)
    (hsubscriber : t.subscribers r = s.subscribers r) : t.Joined r start where
  start_le := h.start_le.trans hcompleted
  follows := hfollows
  read k hk := by
    rw [hsubscriber] at hk
    obtain ⟨m, hstart, hm, hread⟩ := h.read k hk
    obtain ⟨later, hlater⟩ := hbegun
    refine ⟨m, hstart, ?_, ?_⟩
    · rw [← hlater, List.length_append]
      exact Nat.le_add_right_of_le hm
    · rw [hsubscriber, ← hlater, List.take_append_of_le_length hm]
      exact hread

theorem Joined.send (h : s.Joined r start) {tag : FlvTag} (htag : s.sending = some tag) :
    { s with channel := s.channel.send tag, sending := none, completed := s.completed ++ [tag] : LiveState }.Joined
      r start := by
  have hbegun : s.begun = s.completed ++ [tag] := by rw [begun, htag, Option.toList_some]
  refine h.frame ?_ ?_ ?_ rfl
  · rw [List.length_append]
    exact Nat.le_add_right _ _
  · rw [List.drop_append_of_le_length h.start_le]
    exact h.follows.send tag
  · rw [hbegun, begun, Option.toList_none, List.append_nil]

/-- The slot is read when it holds the last header of its kind so far. -/
theorem Joined.readSlot (h : s.Joined r start) (hslots : s.SlotsLatest) {k : HeaderKind} {rest : List HeaderKind}
    (hread : (s.subscribers r).toRead = k :: rest) :
    { s with subscribers := Function.update s.subscribers r (s.readSlot k rest r) : LiveState }.Joined r start where
  start_le := h.start_le
  follows := h.follows
  read j hj := by
    simp only [Function.update_self, LiveState.readSlot] at hj ⊢
    by_cases hjk : j = k
    · refine ⟨s.begun.length, ?_, le_rfl, fun tag htag => ?_⟩
      · rw [begun, List.length_append]
        exact Nat.le_add_right_of_le h.start_le
      · have hslot : s.channel.slot k = some tag := by
          rw [hslots k, ← hjk, ← List.take_length (l := s.begun)]
          exact htag
        simp [hslot]
    · obtain ⟨m, hstart, hm, hold⟩ := h.read j (by simp [hread, hj, hjk])
      exact ⟨m, hstart, hm, fun tag htag => List.mem_append_left _ (hold tag htag)⟩

theorem joined_attach (s : LiveState) :
    { s with
      channel := s.channel.attach
      subscribers := Function.update s.subscribers s.channel.sender.receiverCount {} : LiveState }.Joined
      s.channel.sender.receiverCount s.completed.length where
  start_le := le_rfl
  follows := by
    rw [List.drop_length]
    exact Broadcasts.follows_subscribe _ _
  read k hk := by
    simp only [Function.update_self] at hk
    cases k <;> exact absurd (by decide) hk

theorem Joined.step (h : s.Joined r start) (hslots : s.SlotsLatest) (hkeep : KeepsUp r s a)
    (hstep : s.step a = some t) (ht : t.Attached r) : t.Joined r start := by
  obtain ⟨tag, rfl, hnone, rfl⟩ | ⟨tag, rfl, htag, rfl⟩ | ⟨rfl, rfl⟩ | ⟨r', j, rest, rfl, hread, rfl⟩ |
    ⟨r', sender, rfl, hrecv, rfl⟩ | ⟨r', rfl, rfl⟩ := step_cases hstep
  · refine h.frame le_rfl ?_ ?_ rfl
    · rw [FlvLiveChannel.sender_cacheSeqHeader]
      exact h.follows
    · rw [begun, begun, hnone, Option.toList_none, List.append_nil]
      exact List.prefix_append _ _
  · exact h.send htag
  · exact h.frame le_rfl (h.follows.subscribe 0) (List.prefix_refl _)
      (Function.update_of_ne h.follows.lt_count.ne ..)
  · by_cases hr : r' = r
    · subst hr
      exact h.readSlot hslots hread
    · exact h.frame le_rfl h.follows (List.prefix_refl _) (Function.update_of_ne (Ne.symm hr) ..)
  · refine h.frame le_rfl ?_ (List.prefix_refl _) rfl
    by_cases hr : r' = r
    · subst hr
      exact h.follows.recv_self (hkeep rfl) hrecv
    · exact h.follows.recv_other hr hrecv
  · refine h.frame le_rfl (h.follows.dropReceiver ?_) (List.prefix_refl _) rfl
    rintro rfl
    have hdead := ht.2
    simp [setSender, Broadcasts.dropReceiver] at hdead

/-- A receiver is attached by `subscribe` only. -/
theorem Attached.before (hstep : s.step a = some t) (ht : t.Attached r) :
    s.Attached r ∨ a = .attach ∧ r = s.channel.sender.receiverCount := by
  obtain ⟨hlt, halive⟩ := ht
  obtain ⟨tag, rfl, hnone, rfl⟩ | ⟨tag, rfl, htag, rfl⟩ | ⟨rfl, rfl⟩ | ⟨r', j, rest, rfl, hread, rfl⟩ |
    ⟨r', sender, rfl, hrecv, rfl⟩ | ⟨r', rfl, rfl⟩ := step_cases hstep
  · rw [FlvLiveChannel.sender_cacheSeqHeader] at hlt halive
    exact .inl ⟨hlt, halive⟩
  · simp only [FlvLiveChannel.send, Broadcasts.send] at hlt halive
    refine .inl ⟨?_, ?_⟩
    · split at hlt <;> exact hlt
    · split at halive <;> exact halive
  · rcases Nat.lt_succ_iff_lt_or_eq.mp hlt with hlt | heq
    · simp only [FlvLiveChannel.attach, Broadcasts.subscribe, Function.update_of_ne hlt.ne] at halive
      exact .inl ⟨hlt, halive⟩
    · exact .inr ⟨rfl, heq⟩
  · exact .inl ⟨hlt, halive⟩
  · obtain ⟨hcount, hsame⟩ := Broadcasts.alive_recv hrecv r
    exact .inl ⟨hcount ▸ hlt, hsame ▸ halive⟩
  · by_cases hr : r = r'
    · subst hr
      simp [setSender, Broadcasts.dropReceiver] at halive
    · simp only [setSender, Broadcasts.dropReceiver, Function.update_of_ne hr] at hlt halive
      exact .inl ⟨hlt, halive⟩

/-! ## Whole runs -/

structure Invariant (r : ℕ) (s : LiveState) : Prop where
  slots : s.SlotsLatest
  joined : s.Attached r → ∃ start, s.Joined r start

theorem invariant_initial (r : ℕ) : Invariant r {} where
  slots k := by cases k <;> rfl
  joined h := absurd h.1 (Nat.not_lt_zero _)

theorem Invariant.step (h : Invariant r s) (hkeep : KeepsUp r s a) (hstep : s.step a = some t) : Invariant r t where
  slots := slotsLatest_step h.slots hstep
  joined ht := by
    rcases ht.before hstep with hs | ⟨rfl, rfl⟩
    · obtain ⟨start, hjoined⟩ := h.joined hs
      exact ⟨start, hjoined.step h.slots hkeep hstep ht⟩
    · obtain rfl := Option.some.inj hstep
      exact ⟨_, joined_attach s⟩

/-- The `n`-th tag is among what the receiver has read or will read: all from some earlier one on. -/
def Delivered (s : LiveState) (r n : ℕ) : Prop :=
  ∃ start ≤ n, (s.channel.sender.receivers r).received ++ s.channel.sender.unread r = s.completed.drop start

/-- `subscribe` has returned, and its receiver still exists. -/
def Subscribed (s : LiveState) (r : ℕ) : Prop := s.Attached r ∧ (s.subscribers r).toRead = []

/-- A subscriber misses no header whose `broadcast` has returned: it is delivered, or what the subscriber was given
at the start has it or a later one of its kind. -/
theorem header_delivered_or_cached {acts : List LiveAction} {s : LiveState} (r : ℕ)
    (hrun : run LiveState.step {} acts = some s) (hkeep : EachStep LiveState.step (KeepsUp r) {} acts)
    (hsub : s.Subscribed r) {n : ℕ} {h : FlvTag} (hn : s.completed[n]? = some h) (hh : h.isSequenceHeader = true) :
    s.Delivered r n ∨ ∃ m ≥ n, ∃ tag ∈ (s.subscribers r).cached,
      s.begun[m]? = some tag ∧ tag.isSequenceHeader = true ∧ kindOf tag = kindOf h := by
  have hinv : Invariant r s :=
    run_invariant (fun _ _ _ hs hc hstep => Invariant.step hs hc hstep) (invariant_initial r) hkeep hrun
  obtain ⟨start, hjoined⟩ := hinv.joined hsub.1
  by_cases hstart : start ≤ n
  · exact .inl ⟨start, hstart, hjoined.follows.log⟩
  · obtain ⟨m, hm, hlen, hread⟩ := hjoined.read (kindOf h) (by rw [hsub.2]; exact List.not_mem_nil)
    have hbefore : (s.begun.take m)[n]? = some h := by
      rw [List.getElem?_take_of_lt ((Nat.not_le.mp hstart).trans_le hm), begun,
        List.getElem?_append_left (List.getElem?_eq_some_iff.mp hn).1, hn]
    have hkind : headerKind h = some (kindOf h) := by rw [headerKind, if_pos hh]
    obtain ⟨j, hj, tag, htag, htagKind, hlatest⟩ := exists_latest hbefore hkind
    refine .inr ⟨j, hj, tag, hread tag hlatest, ?_, ?_⟩
    · rw [List.getElem?_take] at htag
      split at htag
      · exact htag
      · cases htag
    · rw [headerKind] at htagKind
      split at htagKind
      · next htrue => exact ⟨htrue, Option.some.inj htagKind⟩
      · cases htagKind

/-- The subscriber comes when the second header of a kind is cached and not yet sent. -/
def lateJoin : List LiveAction :=
  [.cache (.audio 0 [0xaf, 0, 1]), .send, .cache (.audio 5 [0xaf, 0, 2]), .attach, .readSlot 0, .readSlot 0, .readSlot 0,
    .send, .recv 0]

theorem header_cached_lateJoin : ∃ s ∈ run LiveState.step {} lateJoin,
    s.Delivered 0 0 ∨ ∃ m ≥ 0, ∃ tag ∈ (s.subscribers 0).cached,
      s.begun[m]? = some tag ∧ tag.isSequenceHeader = true ∧ kindOf tag = .audio := by
  have hrun : ∃ s ∈ run LiveState.step {} lateJoin,
      (0 < s.channel.sender.receiverCount ∧ (s.channel.sender.receivers 0).alive = true) ∧
        (s.subscribers 0).toRead = [] ∧ s.completed[0]? = some (.audio 0 [0xaf, 0, 1]) := by
    decide +kernel
  obtain ⟨s, hs, hattached, hread, hfirst⟩ := hrun
  exact ⟨s, hs, header_delivered_or_cached 0 hs (by decide +kernel) ⟨hattached, hread⟩ hfirst (by decide)⟩

end LiveState
end LivestreamRs.Flv
