import LivestreamRs.Foundations.Broadcast
import LivestreamRs.Foundations.Transitions
import LivestreamRs.Sessions.State

/-! # Delivery of session events

`EventDispatcher` (`livestream-transport/src/dispatcher/mod.rs`) over the broadcast channels of
`livestream-core/src/channel/broadcast.rs`. The entry of the `DashMap` is held during `subscribe` and during the
first half of `send`, so each is one step; receivers read and are dropped at any time.
-/
namespace LivestreamRs.Sessions
open Foundations
set_option autoImplicit false

def SessionEvent.id : SessionEvent → LiveId
  | sessionStarted x _ | sessionInit x | sessionEnded x _ _ => x

def SessionEvent.isEnded : SessionEvent → Bool
  | sessionEnded _ _ _ => true
  | _ => false

structure EventDispatcher where
  bus : Broadcasts SessionEvent
  -- the channel of all events, and those of the streams
  channel : ℕ
  senders : LiveId → Option ℕ

namespace EventDispatcher

def channelCapacity : ℕ := 256

def new : EventDispatcher where
  bus := ({} : Broadcasts SessionEvent).newChannel channelCapacity
  channel := 0
  senders _ := none

variable (d : EventDispatcher)

def subscribeGlobal : EventDispatcher := { d with bus := d.bus.subscribe d.channel }

def subscribe (x : LiveId) : EventDispatcher :=
  match d.senders x with
  | some ch => { d with bus := d.bus.subscribe ch }
  | none =>
    let ch := d.bus.channelCount
    { d with
      bus := (d.bus.newChannel channelCapacity).subscribe ch
      senders := Function.update d.senders x (some ch) }

/-- The part of `send` under the entry of the event's stream. -/
def sendToStream (event : SessionEvent) : EventDispatcher :=
  match d.senders event.id with
  | some ch =>
    let bus := d.bus.send ch event
    -- no receiver was left, or the stream is over
    if d.bus.liveReceivers ch = 0 || event.isEnded then
      { d with bus := bus.dropSender ch, senders := Function.update d.senders event.id none }
    else { d with bus := bus }
  | none => d

def send (event : SessionEvent) : EventDispatcher :=
  let d := d.sendToStream event
  { d with bus := d.bus.send d.channel event }

inductive Action
  | subscribe (x : LiveId)
  | subscribeGlobal
  | send (event : SessionEvent)
  | recv (r : ℕ)
  | dropReceiver (r : ℕ)
  deriving DecidableEq

def step : Action → Option EventDispatcher
  | .subscribe x => some (d.subscribe x)
  | .subscribeGlobal => some d.subscribeGlobal
  | .send event => some (d.send event)
  | .recv r => (d.bus.recv r).map fun bus => { d with bus := bus }
  | .dropReceiver r => some { d with bus := d.bus.dropReceiver r }

/-! ## What a subscriber is to receive -/

/-- The events up to and including the first `SessionEnded`. -/
def upToEnd : List SessionEvent → List SessionEvent
  | [] => []
  | event :: events => if event.isEnded then [event] else event :: upToEnd events

/-- The events of one stream that are sent in a run. -/
def eventsOf (x : LiveId) (acts : List Action) : List SessionEvent :=
  acts.filterMap fun
    | .send event => if event.id = x then some event else none
    | _ => none

theorem upToEnd_append (events : List SessionEvent) (event : SessionEvent) :
    upToEnd (events ++ [event]) =
      if events.any SessionEvent.isEnded then upToEnd events else upToEnd events ++ [event] := by
  induction events with
  | nil => simp [upToEnd]
  | cons e events ih =>
    by_cases he : e.isEnded = true
    · simp [upToEnd, he]
    · simp only [List.cons_append, upToEnd, he, if_false, ih, List.any_cons, Bool.false_or, Bool.false_eq_true]
      split <;> simp

/-! ## The invariant -/

/-- The channels of the streams are open, and different from each other and from the channel of all events. -/
structure Tidy (d : EventDispatcher) : Prop where
  channel : d.channel < d.bus.channelCount
  sender : ∀ x ch, d.senders x = some ch → ch < d.bus.channelCount ∧ ch ≠ d.channel
  opened : ∀ x ch, d.senders x = some ch →
    (d.bus.channels ch).capacity = channelCapacity ∧ (d.bus.channels ch).isOpen = true
  inj : ∀ x y ch, d.senders x = some ch → d.senders y = some ch → x = y

theorem tidy_new : Tidy new := by
  refine ⟨by decide, ?_, ?_, ?_⟩
  all_goals
    intros
    contradiction

theorem Tidy.sendToStream {d : EventDispatcher} (h : Tidy d) (event : SessionEvent) : Tidy (d.sendToStream event) := by
  unfold EventDispatcher.sendToStream
  split
  · next ch hch =>
    dsimp only
    split
    · -- the entry goes
      have hold : ∀ y ch', Function.update d.senders event.id none y = some ch' →
          d.senders y = some ch' ∧ ch' ≠ ch := by
        intro y ch' hy
        by_cases heq : y = event.id
        · simp [heq] at hy
        · rw [Function.update_of_ne heq] at hy
          refine ⟨hy, fun hsame => heq (h.inj y event.id ch ?_ hch)⟩
          rwa [← hsame]
      refine ⟨by simpa [Broadcasts.dropSender] using h.channel, fun x ch' hx => ?_, fun x ch' hx => ?_,
        fun x y ch' hx hy => h.inj x y ch' (hold x ch' hx).1 (hold y ch' hy).1⟩
      · simpa [Broadcasts.dropSender] using h.sender x ch' (hold x ch' hx).1
      · simpa [Broadcasts.dropSender, Function.update_of_ne (hold x ch' hx).2] using h.opened x ch' (hold x ch' hx).1
    · exact ⟨by simpa using h.channel, by simpa using h.sender, by simpa using h.opened, h.inj⟩
  · exact h

theorem Tidy.subscribe {d : EventDispatcher} (h : Tidy d) (x : LiveId) : Tidy (d.subscribe x) := by
  unfold EventDispatcher.subscribe
  split
  · exact ⟨h.channel, h.sender, h.opened, h.inj⟩
  · have hnew : ∀ y ch, Function.update d.senders x (some d.bus.channelCount) y = some ch →
        (y = x ∧ ch = d.bus.channelCount) ∨ (d.senders y = some ch ∧ ch < d.bus.channelCount) := by
      intro y ch hy
      by_cases heq : y = x
      · subst heq
        rw [Function.update_self] at hy
        exact .inl ⟨rfl, (Option.some.inj hy).symm⟩
      · rw [Function.update_of_ne heq] at hy
        exact .inr ⟨hy, (h.sender y ch hy).1⟩
    refine ⟨Nat.lt_succ_of_lt h.channel, fun y ch hy => ?_, fun y ch hy => ?_, fun y z ch hy hz => ?_⟩
    · obtain ⟨-, rfl⟩ | ⟨hold, hlt⟩ := hnew y ch hy
      · exact ⟨Nat.lt_succ_self _, h.channel.ne'⟩
      · exact ⟨Nat.lt_succ_of_lt hlt, (h.sender y ch hold).2⟩
    · obtain ⟨-, rfl⟩ | ⟨hold, hlt⟩ := hnew y ch hy
      · simp [Broadcasts.subscribe, Broadcasts.newChannel]
      · simpa [Broadcasts.subscribe, Broadcasts.newChannel, Function.update_of_ne hlt.ne] using h.opened y ch hold
    · obtain ⟨rfl, rfl⟩ | ⟨holdy, hlty⟩ := hnew y ch hy
      · obtain ⟨rfl, -⟩ | ⟨-, hltz⟩ := hnew z _ hz
        · rfl
        · exact absurd hltz (lt_irrefl _)
      · obtain ⟨rfl, rfl⟩ | ⟨holdz, -⟩ := hnew z ch hz
        · exact absurd hlty (lt_irrefl _)
        · exact h.inj y z ch holdy holdz

theorem Tidy.step {d d' : EventDispatcher} {a : Action} (h : Tidy d) (hstep : d.step a = some d') : Tidy d' := by
  cases a with
  | subscribe x =>
    obtain rfl := Option.some.inj hstep
    exact h.subscribe x
  | subscribeGlobal =>
    obtain rfl := Option.some.inj hstep
    exact ⟨h.channel, h.sender, h.opened, h.inj⟩
  | send event =>
    obtain rfl := Option.some.inj hstep
    have hsent := h.sendToStream event
    exact ⟨by simpa [EventDispatcher.send] using hsent.channel, by simpa [EventDispatcher.send] using hsent.sender,
      by simpa [EventDispatcher.send] using hsent.opened, hsent.inj⟩
  | recv r =>
    obtain ⟨bus, hbus, rfl⟩ := Option.map_eq_some_iff.mp hstep
    obtain ⟨hchannels, hcount⟩ := Broadcasts.channels_recv hbus
    refine ⟨?_, fun x ch hx => ?_, fun x ch hx => ?_, h.inj⟩
    · rw [hcount]
      exact h.channel
    · rw [hcount]
      exact h.sender x ch hx
    · rw [hchannels]
      exact h.opened x ch hx
  | dropReceiver r =>
    obtain rfl := Option.some.inj hstep
    exact ⟨h.channel, h.sender, h.opened, h.inj⟩

/-- A subscriber of a stream, with its channel and the events of the stream sent since it subscribed. -/
structure Tracks (d : EventDispatcher) (r : ℕ) (x : LiveId) (ch : ℕ) (events : List SessionEvent) : Prop where
  follows : d.bus.Follows r ch (upToEnd events)
  lt_count : ch < d.bus.channelCount
  ne_channel : d.channel ≠ ch
  capacity : (d.bus.channels ch).capacity = channelCapacity
  isOpen : (d.bus.channels ch).isOpen = !events.any SessionEvent.isEnded
  current : events.any SessionEvent.isEnded = false → d.senders x = some ch
  removed : events.any SessionEvent.isEnded = true → ∀ y, d.senders y ≠ some ch

section Steps
variable {d d' : EventDispatcher} {r ch : ℕ} {x : LiveId} {events : List SessionEvent}

/-- The entry of the subscriber's stream is the one it has subscribed to, until the stream ends. -/
theorem Tracks.eq_of_current (h : Tracks d r x ch events) (ht : Tidy d) {y : LiveId} (hy : d.senders y = some ch) :
    events.any SessionEvent.isEnded = false ∧ y = x := by
  have hopen : events.any SessionEvent.isEnded = false := by
    by_contra hended
    exact h.removed (by simpa using hended) y hy
  exact ⟨hopen, ht.inj y x ch hy (h.current hopen)⟩

/-- After the end of the stream no event of its id concerns the subscriber. -/
theorem Tracks.after_end (h : Tracks d r x ch events) (hended : events.any SessionEvent.isEnded = true)
    (event : SessionEvent) : Tracks d r x ch (events ++ [event]) where
  follows := by rw [upToEnd_append, if_pos hended]; exact h.follows
  lt_count := h.lt_count
  ne_channel := h.ne_channel
  capacity := h.capacity
  isOpen := by rw [h.isOpen, List.any_append, hended]; rfl
  current hopen := by rw [List.any_append, hended] at hopen; cases hopen
  removed _ := h.removed hended

/-- Steps that keep the subscriber's channel and the entry of its stream. -/
theorem Tracks.frame (h : Tracks d r x ch events) (hfollows : d'.bus.Follows r ch (upToEnd events))
    (hcount : d.bus.channelCount ≤ d'.bus.channelCount) (hchannel : d'.channel = d.channel)
    (hcapacity : (d'.bus.channels ch).capacity = (d.bus.channels ch).capacity)
    (hisOpen : (d'.bus.channels ch).isOpen = (d.bus.channels ch).isOpen)
    (hsenders : ∀ y, d'.senders y = some ch ↔ d.senders y = some ch) : Tracks d' r x ch events where
  follows := hfollows
  lt_count := h.lt_count.trans_le hcount
  ne_channel := by rw [hchannel]; exact h.ne_channel
  capacity := hcapacity.trans h.capacity
  isOpen := hisOpen.trans h.isOpen
  current hopen := (hsenders x).mpr (h.current hopen)
  removed hended y hy := h.removed hended y ((hsenders y).mp hy)

theorem Tracks.sendToStream_own (h : Tracks d r x ch events) (ht : Tidy d) (event : SessionEvent)
    (hs : d.senders event.id = some ch) : Tracks (d.sendToStream event) r x ch (events ++ [event]) := by
  obtain ⟨hopen, rfl⟩ := h.eq_of_current ht hs
  have hlive : (d.bus.liveReceivers ch = 0) = False := by simpa using h.follows.liveReceivers_pos
  have hfollows : (d.bus.send ch event).Follows r ch (upToEnd (events ++ [event])) := by
    rw [upToEnd_append, if_neg (by simp [hopen])]
    exact h.follows.send event
  have hany : (events ++ [event]).any SessionEvent.isEnded = event.isEnded := by simp [hopen]
  simp only [EventDispatcher.sendToStream, hs, hlive, decide_false, Bool.false_or]
  by_cases hended : event.isEnded = true
  · rw [if_pos hended]
    refine ⟨hfollows.dropSender ch, by simpa [Broadcasts.dropSender] using h.lt_count, h.ne_channel, ?_, ?_, ?_, ?_⟩
    · simpa [Broadcasts.dropSender] using h.capacity
    · rw [hany, hended]
      simp [Broadcasts.dropSender]
    · intro hfalse
      rw [hany, hended] at hfalse
      cases hfalse
    · intro _ y hy
      by_cases heq : y = event.id
      · simp [heq] at hy
      · exact heq (ht.inj y event.id ch ((Function.update_of_ne heq none d.senders).symm.trans hy) hs)
  · rw [if_neg hended]
    refine ⟨hfollows, by simpa using h.lt_count, h.ne_channel, by simpa using h.capacity, ?_, fun _ => hs, ?_⟩
    · rw [hany]
      simpa [hended, hopen] using h.isOpen
    · intro htrue
      rw [hany] at htrue
      exact absurd htrue hended

theorem Tracks.sendToStream_other (h : Tracks d r x ch events) (event : SessionEvent) {ch' : ℕ}
    (hs : d.senders event.id = some ch') (hch : ch' ≠ ch) : Tracks (d.sendToStream event) r x ch events := by
  have hfollows := h.follows.send_other hch event
  have hchannel := d.bus.channels_send_other hch event
  simp only [EventDispatcher.sendToStream, hs]
  split
  · refine h.frame (hfollows.dropSender ch') (by simp [Broadcasts.dropSender]) rfl ?_ ?_ ?_
    · simp [Broadcasts.dropSender, Function.update_of_ne hch.symm]
    · simp [Broadcasts.dropSender, Function.update_of_ne hch.symm]
    · intro y
      by_cases heq : y = event.id
      · simp [heq, hs, hch]
      · simp [Function.update_of_ne heq]
  · exact h.frame hfollows (by simp) rfl (by simp) (by simp) fun y => Iff.rfl

theorem Tracks.sendToStream (h : Tracks d r x ch events) (ht : Tidy d) (event : SessionEvent) :
    Tracks (d.sendToStream event) r x ch (events ++ eventsOf x [.send event]) := by
  have hevents : eventsOf x [.send event] = if event.id = x then [event] else [] := by
    by_cases hx : event.id = x <;> simp [eventsOf, hx]
  rw [hevents]
  -- an event of the stream that does not reach the subscriber's channel comes after the stream's end
  have hlate : d.senders event.id ≠ some ch → Tracks (d.sendToStream event) r x ch events →
      Tracks (d.sendToStream event) r x ch (events ++ if event.id = x then [event] else []) := by
    intro hs hkept
    split
    · next hx =>
      refine hkept.after_end ?_ event
      by_contra hopen
      exact hs (hx ▸ h.current (by simpa using hopen))
    · simpa using hkept
  cases hs : d.senders event.id with
  | none =>
    refine hlate (by simp [hs]) ?_
    simpa [EventDispatcher.sendToStream, hs] using h
  | some ch' =>
    by_cases hch : ch' = ch
    · subst hch
      rw [if_pos (h.eq_of_current ht hs).2]
      exact h.sendToStream_own ht event hs
    · exact hlate (by simpa [hs] using hch) (h.sendToStream_other event hs hch)

theorem Tracks.subscribe (h : Tracks d r x ch events) (y : LiveId) : Tracks (d.subscribe y) r x ch events := by
  unfold EventDispatcher.subscribe
  split
  · exact h.frame (h.follows.subscribe _) le_rfl rfl rfl rfl fun z => Iff.rfl
  · next hy =>
    have hne := h.lt_count.ne
    refine h.frame ((h.follows.newChannel h.lt_count _).subscribe _) (Nat.le_succ _) rfl ?_ ?_ ?_
    · simp [Broadcasts.subscribe, Broadcasts.newChannel, Function.update_of_ne hne]
    · simp [Broadcasts.subscribe, Broadcasts.newChannel, Function.update_of_ne hne]
    · intro z
      by_cases heq : z = y
      · simp [heq, hy, hne.symm]
      · simp [Function.update_of_ne heq]

/-- The subscriber is not the one dropped, and has not fallen behind by more than the capacity. -/
def KeepsUp (r : ℕ) (d : EventDispatcher) (a : Action) : Prop :=
  a ≠ .dropReceiver r ∧ (d.bus.unread r).length ≤ channelCapacity

instance (r : ℕ) (d : EventDispatcher) (a : Action) : Decidable (KeepsUp r d a) := inferInstanceAs (Decidable (_ ∧ _))

theorem Tracks.step {a : Action} (h : Tracks d r x ch events) (ht : Tidy d) (ha : KeepsUp r d a)
    (hstep : d.step a = some d') : Tracks d' r x ch (events ++ eventsOf x [a]) := by
  cases a with
  | subscribe y =>
    obtain rfl := Option.some.inj hstep
    simpa [eventsOf] using h.subscribe y
  | subscribeGlobal =>
    obtain rfl := Option.some.inj hstep
    have hkept : Tracks d.subscribeGlobal r x ch events :=
      h.frame (h.follows.subscribe _) le_rfl rfl rfl rfl fun y => Iff.rfl
    simpa [eventsOf] using hkept
  | send event =>
    obtain rfl := Option.some.inj hstep
    have hsent := h.sendToStream ht event
    exact hsent.frame (hsent.follows.send_other hsent.ne_channel event) (by simp [EventDispatcher.send]) rfl
      (by simp [EventDispatcher.send]) (by simp [EventDispatcher.send]) fun y => Iff.rfl
  | recv r' =>
    obtain ⟨bus, hbus, rfl⟩ := Option.map_eq_some_iff.mp hstep
    obtain ⟨hchannels, hcount⟩ := Broadcasts.channels_recv hbus
    have hfollows : bus.Follows r ch (upToEnd events) := by
      by_cases heq : r' = r
      · subst heq
        exact h.follows.recv_self (by rw [h.capacity]; exact ha.2) hbus
      · exact h.follows.recv_other heq hbus
    have hkept : Tracks { d with bus := bus } r x ch events :=
      h.frame hfollows hcount.ge rfl (by rw [hchannels]) (by rw [hchannels]) fun y => Iff.rfl
    simpa [eventsOf] using hkept
  | dropReceiver r' =>
    obtain rfl := Option.some.inj hstep
    have hne : r' ≠ r := fun heq => ha.1 (heq ▸ rfl)
    have hkept : Tracks { d with bus := d.bus.dropReceiver r' } r x ch events :=
      h.frame (h.follows.dropReceiver hne) le_rfl rfl rfl rfl fun y => Iff.rfl
    simpa [eventsOf] using hkept

/-- A new subscriber follows the channel of its stream, with nothing to read yet. -/
theorem tracks_subscribe (ht : Tidy d) (x : LiveId) :
    ∃ ch, Tracks (d.subscribe x) d.bus.receiverCount x ch [] := by
  unfold EventDispatcher.subscribe
  split
  · next ch hch =>
    obtain ⟨hlt, hne⟩ := ht.sender x ch hch
    obtain ⟨hcap, hopen⟩ := ht.opened x ch hch
    exact ⟨ch, Broadcasts.follows_subscribe d.bus ch, hlt, hne.symm, hcap, hopen, fun _ => hch,
      by simp⟩
  · refine ⟨d.bus.channelCount, Broadcasts.follows_subscribe _ _, Nat.lt_succ_self _, ht.channel.ne, ?_, ?_, ?_, ?_⟩
    · simp [Broadcasts.subscribe, Broadcasts.newChannel]
    · simp [Broadcasts.subscribe, Broadcasts.newChannel]
    · exact fun _ => Function.update_self _ _ _
    · simp

/-! ## Whole runs -/

theorem eventsOf_cons (x : LiveId) (a : Action) (acts : List Action) :
    eventsOf x (a :: acts) = eventsOf x [a] ++ eventsOf x acts := by
  rw [← List.singleton_append, eventsOf, List.filterMap_append]
  rfl

theorem tracks_run {acts : List Action} (h : Tracks d r x ch events) (ht : Tidy d)
    (hacts : EachStep EventDispatcher.step (KeepsUp r) d acts) (hrun : run EventDispatcher.step d acts = some d') :
    Tracks d' r x ch (events ++ eventsOf x acts) := by
  induction acts generalizing d events with
  | nil =>
    obtain rfl := Option.some.inj hrun
    simpa [eventsOf] using h
  | cons a acts ih =>
    obtain ⟨d₁, hstep, hrest⟩ := run_cons.mp hrun
    obtain ⟨ha, hacts⟩ := hacts d₁ hstep
    rw [eventsOf_cons, ← List.append_assoc]
    exact ih (h.step ht ha hstep) (ht.step hstep) hacts hrest

/-- A subscriber that reads on has read everything, and is told the end of its stream. -/
theorem Tracks.drain (h : Tracks d r x ch events) (ht : Tidy d) (hlag : (d.bus.unread r).length ≤ channelCapacity) :
    ∃ d', run EventDispatcher.step d (List.replicate (d.bus.unread r).length (.recv r)) = some d' ∧
      (d'.bus.receivers r).received = upToEnd events ∧
      d'.bus.recvResult r = if events.any SessionEvent.isEnded then .closed else .empty := by
  induction hunread : d.bus.unread r generalizing d with
  | nil =>
    refine ⟨d, rfl, ?_, ?_⟩
    · have hlog := h.follows.log
      rwa [hunread, List.append_nil] at hlog
    · rw [h.follows.recvResult_eq (by rw [h.capacity]; exact hlag), hunread]
      simp only [h.isOpen]
      cases events.any SessionEvent.isEnded <;> rfl
  | cons event rest ih =>
    obtain ⟨bus, hbus, -, hrest, -⟩ := h.follows.recv_cons (by rw [h.capacity]; exact hlag) hunread
    have hstep : d.step (.recv r) = some { d with bus := bus } := by simp only [EventDispatcher.step, hbus, Option.map_some]
    have hkept := h.step ht ⟨by simp, hlag⟩ hstep
    have hshort : (bus.unread r).length ≤ channelCapacity := by
      rw [hunread, List.length_cons] at hlag
      rw [hrest]
      omega
    obtain ⟨d', hrun, hreceived, hresult⟩ := ih (by simpa [eventsOf] using hkept) (ht.step hstep) hshort hrest
    exact ⟨d', run_cons.mpr ⟨_, hstep, hrun⟩, hreceived, hresult⟩

end Steps

/-- A subscriber of a stream that is kept and keeps up receives exactly the stream's events sent after its
subscription, in their order, up to and including the first `SessionEnded`; then its channel is closed. -/
theorem subscriber_receives_exactly (before after : List Action) (x : LiveId) (d₀ d : EventDispatcher)
    (hbefore : run step new before = some d₀) (hafter : run step (d₀.subscribe x) after = some d)
    (hkept : EachStep step (KeepsUp d₀.bus.receiverCount) (d₀.subscribe x) after)
    (hlast : (d.bus.unread d₀.bus.receiverCount).length ≤ channelCapacity) :
    (d.bus.receivers d₀.bus.receiverCount).received ++ d.bus.unread d₀.bus.receiverCount =
        upToEnd (eventsOf x after) ∧
      ∃ d', run step d (List.replicate (d.bus.unread d₀.bus.receiverCount).length (.recv d₀.bus.receiverCount)) =
          some d' ∧
        (d'.bus.receivers d₀.bus.receiverCount).received = upToEnd (eventsOf x after) ∧
        d'.bus.recvResult d₀.bus.receiverCount =
          if (eventsOf x after).any SessionEvent.isEnded then .closed else .empty := by
  have htidy : Tidy d₀ := run_invariant (fun d a d' h _ hstep => h.step hstep) tidy_new
    (eachStep_trivial new before) hbefore
  obtain ⟨ch, hnew⟩ := tracks_subscribe htidy x
  have hend := tracks_run hnew (htidy.subscribe x) hkept hafter
  have htidy' : Tidy d := run_invariant (fun d a d' h _ hstep => h.step hstep) (htidy.subscribe x)
    (eachStep_trivial _ after) hafter
  rw [List.nil_append] at hend
  exact ⟨hend.follows.log, hend.drain htidy' hlast⟩

/-- Two streams and two subscribers of one of them; the second comes and goes, and the first misses nothing and
gets nothing of the time after the end. -/
def sampleEvents : List Action :=
  [.subscribe "a", .send (.sessionStarted "a" .rtmp), .send (.sessionStarted "b" .rtsp), .dropReceiver 1, .recv 0,
    .send (.sessionEnded "a" .rtmp .clientDisconnect), .subscribe "a", .send (.sessionStarted "a" .rtmp), .recv 0]

theorem subscriber_receives_sample : ∃ d ∈ run step (new.subscribe "a") sampleEvents,
    (d.bus.receivers 0).received ++ d.bus.unread 0 =
      [.sessionStarted "a" .rtmp, .sessionEnded "a" .rtmp .clientDisconnect] := by
  have hrun : ∃ d ∈ run step (new.subscribe "a") sampleEvents, (d.bus.unread 0).length ≤ channelCapacity := by
    decide +kernel
  obtain ⟨d, hd, hlast⟩ := hrun
  refine ⟨d, hd, (subscriber_receives_exactly [] sampleEvents "a" new d rfl hd ?_ hlast).1⟩
  decide +kernel

end EventDispatcher
end LivestreamRs.Sessions
