import LivestreamRs.Flv.FileHeader

/-! # What viewers are sent

Any number of viewers at one live channel: HTTP-FLV responses (`stream_response`, `livestream-transport/src/http_flv/server.rs`)
and RTMP play sessions (`PlayHandler`, `rtmp/handler/play.rs`). A viewer subscribes, is sent the cached headers and then
what it receives, but for the video tags it skips after a lag. Whether a socket takes what is written to it is left open.
-/
namespace LivestreamRs.Flv
open Media Foundations
set_option autoImplicit false

/-! ## Viewers -/

structure Playback where
  player : Player
  -- `subscribe` has returned and the cached tags are written
  started : Bool := false
  waitingKeyframe : Bool := false
  ended : Bool := false
  -- the tags written to the client
  sent : List FlvTag := []
  -- history: how many broadcasts had returned when it subscribed
  joinedAt : ℕ

namespace Playback
variable (v : Playback)

/-- `encode_cached_tags` for a response, all of them or none; `send_cached_tags` for a play session, one after the other
until one cannot be sent. -/
def start (cached : List FlvTag) (written : ℕ) : Playback :=
  match v.player with
  | .httpFlv amf =>
    if cached.all fun tag => (encodeFlvTag amf tag).isOk then { v with started := true, sent := cached }
    else { v with ended := true }
  | .rtmpPlay =>
    if cached.length ≤ written then { v with started := true, sent := cached }
    else { v with sent := cached.take written, ended := true }

/-- One turn of the loop of `next_live_chunk`, or `handle_tag_recv`. -/
def onRecv (written : Bool) (result : RecvResult) : Playback :=
  match v.player.turn written v.waitingKeyframe result with
  | (waitingKeyframe, .waits) => { v with waitingKeyframe := waitingKeyframe }
  | (waitingKeyframe, .forwards tag) => { v with waitingKeyframe := waitingKeyframe, sent := v.sent ++ [tag] }
  | (waitingKeyframe, .ends) => { v with waitingKeyframe := waitingKeyframe, ended := true }

end Playback

structure Audience where
  live : LiveState := {}
  -- by the number of its receiver
  viewers : ℕ → Option Playback := fun _ => none

inductive AudienceAction
  -- the two steps of `broadcast`
  | cache (tag : FlvTag)
  | send
  -- `remove_channel`: the channel loses its sender
  | close
  | attach (player : Player)
  | readSlot (r : ℕ)
  | start (r written : ℕ)
  | recv (r : ℕ) (written : Bool)
  -- the client goes or its token is cancelled
  | leave (r : ℕ)

namespace Audience
variable (s : Audience)

def setViewer (r : ℕ) (v : Playback) : Audience := { s with viewers := Function.update s.viewers r (some v) }

def step : AudienceAction → Option Audience
  | .cache tag => (s.live.step (.cache tag)).map fun live => { s with live := live }
  | .send => (s.live.step .send).map fun live => { s with live := live }
  | .close => some { s with live := s.live.setSender (s.live.channel.sender.dropSender 0) }
  | .attach player =>
    (s.live.step .attach).map fun live =>
      { s with live := live }.setViewer s.live.channel.sender.receiverCount
        { player := player, joinedAt := s.live.completed.length }
  | .readSlot r =>
    (s.viewers r).bind fun _ => (s.live.step (.readSlot r)).map fun live => { s with live := live }
  | .start r written =>
    (s.viewers r).bind fun v =>
      if (s.live.subscribers r).toRead = [] ∧ v.started = false ∧ v.ended = false then
        some (s.setViewer r (v.start (s.live.subscribers r).cached written))
      else none
  | .recv r written =>
    (s.viewers r).bind fun v =>
      if v.started = true ∧ v.ended = false then
        (HttpFlvResponse.recvResult (s.live.channel.sender.recvResult r)).bind fun result =>
          (s.live.step (.recv r)).map fun live => { s with live := live }.setViewer r (v.onRecv written result)
      else none
  | .leave r =>
    (s.viewers r).bind fun v =>
      (s.live.step (.dropReceiver r)).map fun live => { s with live := live }.setViewer r { v with ended := true }

/-- All that a step can do. -/
inductive Stepped (s : Audience) : AudienceAction → Audience → Prop
  | cached (tag : FlvTag) (hsending : s.live.sending = none) :
      Stepped s (.cache tag)
        { s with live := { s.live with channel := s.live.channel.cacheSeqHeader tag, sending := some tag } }
  | sent (tag : FlvTag) (hsending : s.live.sending = some tag) :
      Stepped s .send { s with live := { s.live with
        channel := s.live.channel.send tag, sending := none, completed := s.live.completed ++ [tag] } }
  | closed : Stepped s .close { s with live := s.live.setSender (s.live.channel.sender.dropSender 0) }
  | attached (player : Player) :
      Stepped s (.attach player) ({ s with live := { s.live with
        channel := s.live.channel.attach
        subscribers := Function.update s.live.subscribers s.live.channel.sender.receiverCount {} } }.setViewer
          s.live.channel.sender.receiverCount { player := player, joinedAt := s.live.completed.length })
  | slotRead (r : ℕ) (v : Playback) (k : HeaderKind) (rest : List HeaderKind) (hv : s.viewers r = some v)
      (hread : (s.live.subscribers r).toRead = k :: rest) :
      Stepped s (.readSlot r) { s with live := { s.live with
        subscribers := Function.update s.live.subscribers r (s.live.readSlot k rest r) } }
  | started (r written : ℕ) (v : Playback) (hv : s.viewers r = some v)
      (hready : (s.live.subscribers r).toRead = [] ∧ v.started = false ∧ v.ended = false) :
      Stepped s (.start r written) (s.setViewer r (v.start (s.live.subscribers r).cached written))
  | received (r : ℕ) (written : Bool) (v : Playback) (result : RecvResult) (sender : Broadcasts FlvTag)
      (hv : s.viewers r = some v) (hready : v.started = true ∧ v.ended = false)
      (hresult : HttpFlvResponse.recvResult (s.live.channel.sender.recvResult r) = some result)
      (hrecv : s.live.channel.sender.recv r = some sender) :
      Stepped s (.recv r written) ({ s with live := s.live.setSender sender }.setViewer r (v.onRecv written result))
  | left (r : ℕ) (v : Playback) (hv : s.viewers r = some v) :
      Stepped s (.leave r) ({ s with live := s.live.setSender (s.live.channel.sender.dropReceiver r) }.setViewer r
        { v with ended := true })

theorem stepped_of_step {s t : Audience} {a : AudienceAction} (h : s.step a = some t) : Stepped s a t := by
  cases a with
  | cache tag =>
    obtain ⟨live, hlive, rfl⟩ := Option.map_eq_some_iff.mp h
    simp only [LiveState.step] at hlive
    split at hlive
    · next hsending =>
      obtain rfl := Option.some.inj hlive
      exact .cached tag hsending
    · cases hlive
  | send =>
    obtain ⟨live, hlive, rfl⟩ := Option.map_eq_some_iff.mp h
    simp only [LiveState.step] at hlive
    split at hlive
    · cases hlive
    · next tag hsending =>
      obtain rfl := Option.some.inj hlive
      exact .sent tag hsending
  | close =>
    obtain rfl := Option.some.inj h
    exact .closed
  | attach player =>
    obtain rfl := Option.some.inj h
    exact .attached player
  | readSlot r =>
    obtain ⟨v, hv, h⟩ := Option.bind_eq_some_iff.mp h
    obtain ⟨live, hlive, rfl⟩ := Option.map_eq_some_iff.mp h
    simp only [LiveState.step] at hlive
    split at hlive
    · cases hlive
    · next k rest hread =>
      obtain rfl := Option.some.inj hlive
      exact .slotRead r v k rest hv hread
  | start r written =>
    obtain ⟨v, hv, h⟩ := Option.bind_eq_some_iff.mp h
    split at h
    · next hready =>
      obtain rfl := Option.some.inj h
      exact .started r written v hv hready
    · cases h
  | recv r written =>
    obtain ⟨v, hv, h⟩ := Option.bind_eq_some_iff.mp h
    split at h
    · next hready =>
      obtain ⟨result, hresult, h⟩ := Option.bind_eq_some_iff.mp h
      obtain ⟨live, hlive, rfl⟩ := Option.map_eq_some_iff.mp h
      obtain ⟨sender, hrecv, rfl⟩ := Option.map_eq_some_iff.mp hlive
      exact .received r written v result sender hv hready hresult hrecv
    · cases h
  | leave r =>
    obtain ⟨v, hv, h⟩ := Option.bind_eq_some_iff.mp h
    obtain rfl := Option.some.inj h
    exact .left r v hv

end Audience

/-! ## What a viewer was sent -/

theorem LiveState.slot_setSender (live : LiveState) (sender : Broadcasts FlvTag) :
    (live.setSender sender).channel.slot = live.channel.slot :=
  funext fun k => by cases k <;> rfl

theorem LiveState.SlotsLatest.setSender {live : LiveState} (h : live.SlotsLatest) (sender : Broadcasts FlvTag) :
    (live.setSender sender).SlotsLatest := fun k => (congrFun (live.slot_setSender sender) k).trans (h k)

/-- A viewer was sent what it was given at the start, or a first part of it, and then some of what it received, which is
some of what was broadcast since it subscribed, all in order. -/
structure Serves (live : LiveState) (r : ℕ) (v : Playback) : Prop where
  lt_count : r < live.channel.sender.receiverCount
  joined_le : v.joinedAt ≤ live.completed.length
  follows : v.ended = false →
    ∃ log, live.channel.sender.Follows r 0 log ∧ log.Sublist (live.completed.drop v.joinedAt)
  received : (live.channel.sender.receivers r).received.Sublist (live.completed.drop v.joinedAt)
  sent : ∃ cached heard, v.sent = cached ++ heard ∧ cached <+: (live.subscribers r).cached ∧
    heard.Sublist (live.channel.sender.receivers r).received

namespace Serves
variable {live live' : LiveState} {r r' : ℕ} {v : Playback}

/-- A step that leaves the viewer and its receiver alone. -/
theorem frame (h : Serves live r v) (hreceiver : live'.channel.sender.receivers r = live.channel.sender.receivers r)
    (hcount : live.channel.sender.receiverCount ≤ live'.channel.sender.receiverCount)
    (hcompleted : live'.completed = live.completed) (hcached : live'.subscribers r = live.subscribers r)
    (hvalues : (live'.channel.sender.channels 0).values = (live.channel.sender.channels 0).values) :
    Serves live' r v where
  lt_count := h.lt_count.trans_le hcount
  joined_le := hcompleted ▸ h.joined_le
  follows hended := by
    obtain ⟨log, hfollows, hlog⟩ := h.follows hended
    exact ⟨log, hfollows.frame hreceiver hvalues hcount, hcompleted ▸ hlog⟩
  received := hcompleted ▸ hreceiver ▸ h.received
  sent := hcached ▸ hreceiver ▸ h.sent

theorem send (h : Serves live r v) {tag : FlvTag} :
    Serves { live with channel := live.channel.send tag, sending := none, completed := live.completed ++ [tag] } r v where
  lt_count := by simpa [FlvLiveChannel.send] using h.lt_count
  joined_le := by
    rw [List.length_append]
    exact h.joined_le.trans (Nat.le_add_right _ _)
  follows hended := by
    obtain ⟨log, hfollows, hlog⟩ := h.follows hended
    refine ⟨log ++ [tag], hfollows.send tag, ?_⟩
    rw [List.drop_append_of_le_length h.joined_le]
    exact hlog.append_right _
  received := by
    simp only [FlvLiveChannel.send, Broadcasts.receivers_send, List.drop_append_of_le_length h.joined_le]
    exact h.received.trans (List.sublist_append_left _ _)
  sent := by simpa [FlvLiveChannel.send] using h.sent

theorem attach (player : Player) :
    Serves { live with
        channel := live.channel.attach
        subscribers := Function.update live.subscribers live.channel.sender.receiverCount {} }
      live.channel.sender.receiverCount { player := player, joinedAt := live.completed.length } where
  lt_count := Nat.lt_succ_self _
  joined_le := le_rfl
  follows _ := ⟨[], Broadcasts.follows_subscribe _ _, List.nil_sublist _⟩
  received := by simp [FlvLiveChannel.attach, Broadcasts.subscribe]
  sent := ⟨[], [], rfl, List.nil_prefix, List.nil_sublist _⟩

theorem readSlot (h : Serves live r v) (k : HeaderKind) (rest : List HeaderKind) :
    Serves { live with subscribers := Function.update live.subscribers r (live.readSlot k rest r) } r v where
  lt_count := h.lt_count
  joined_le := h.joined_le
  follows := h.follows
  received := h.received
  sent := by
    obtain ⟨cached, heard, hsent, hcached, hheard⟩ := h.sent
    refine ⟨cached, heard, hsent, ?_, hheard⟩
    simp only [Function.update_self, LiveState.readSlot]
    exact hcached.trans (List.prefix_append _ _)

theorem start (h : Serves live r v) (hended : v.ended = false) (written : ℕ) :
    Serves live r (v.start (live.subscribers r).cached written) := by
  have hfollows := h.follows hended
  unfold Playback.start
  split
  · split
    · exact { h with sent := ⟨_, [], (List.append_nil _).symm, List.prefix_refl _, List.nil_sublist _⟩ }
    · exact { h with follows := fun _ => hfollows }
  · split
    · exact { h with sent := ⟨_, [], (List.append_nil _).symm, List.prefix_refl _, List.nil_sublist _⟩ }
    · exact { h with
        follows := fun _ => hfollows
        sent := ⟨_, [], (List.append_nil _).symm, List.take_prefix _ _, List.nil_sublist _⟩ }

/-- What a turn writes is what was received in it, or nothing. -/
theorem sent_onRecv (v : Playback) (written : Bool) {received : BroadcastRecv FlvTag} {result : RecvResult}
    (hresult : HttpFlvResponse.recvResult received = some result) :
    ∃ heard, (v.onRecv written result).sent = v.sent ++ heard ∧ heard.Sublist received.read := by
  unfold Playback.onRecv
  split
  · exact ⟨[], (List.append_nil _).symm, List.nil_sublist _⟩
  · next tag hturn =>
    refine ⟨[tag], rfl, ?_⟩
    rw [Player.turn_eq] at hturn
    cases received with
    | item a =>
      obtain rfl := Option.some.inj hresult
      have htag : tag = a := by
        simp only [onRecv] at hturn
        split at hturn
        · cases hturn
        · split at hturn
          · exact (Turn.forwards.inj (Prod.mk.inj hturn).2).symm
          · cases hturn
      rw [htag]
      exact List.Sublist.refl _
    | lagged | closed =>
      obtain rfl := Option.some.inj hresult
      cases hturn
    | empty => cases hresult
  · exact ⟨[], (List.append_nil _).symm, List.nil_sublist _⟩

theorem joinedAt_onRecv (v : Playback) (written : Bool) (result : RecvResult) :
    (v.onRecv written result).joinedAt = v.joinedAt := by
  unfold Playback.onRecv
  split <;> rfl

theorem recv (h : Serves live r v) (hended : v.ended = false) (written : Bool) {result : RecvResult}
    {sender : Broadcasts FlvTag}
    (hresult : HttpFlvResponse.recvResult (live.channel.sender.recvResult r) = some result)
    (hrecv : live.channel.sender.recv r = some sender) :
    Serves (live.setSender sender) r (v.onRecv written result) := by
  obtain ⟨log, hfollows, hlog⟩ := h.follows hended
  obtain ⟨log', hfollows', hlog'⟩ := hfollows.recv_behind hrecv
  have hreceived := Broadcasts.received_recv hrecv
  have hjoined := joinedAt_onRecv v written result
  refine ⟨hfollows'.lt_count, hjoined ▸ h.joined_le, fun _ => ?_, ?_, ?_⟩
  · rw [hjoined]
    exact ⟨log', hfollows', hlog'.trans hlog⟩
  · rw [hjoined]
    refine List.Sublist.trans ?_ (hlog'.trans hlog)
    rw [← hfollows'.log]
    exact List.sublist_append_left _ _
  · obtain ⟨cached, heard, hsent, hcached, hheard⟩ := h.sent
    obtain ⟨more, hmore, hread⟩ := sent_onRecv v written hresult
    refine ⟨cached, heard ++ more, ?_, hcached, ?_⟩
    · rw [hmore, hsent, List.append_assoc]
    · simp only [LiveState.setSender, hreceived]
      exact hheard.append hread

theorem leave (h : Serves live r v) :
    Serves (live.setSender (live.channel.sender.dropReceiver r)) r { v with ended := true } where
  lt_count := h.lt_count
  joined_le := h.joined_le
  follows := nofun
  received := by simpa [LiveState.setSender, Broadcasts.dropReceiver] using h.received
  sent := by simpa [LiveState.setSender, Broadcasts.dropReceiver] using h.sent

end Serves

namespace Audience
variable {s t : Audience} {a : AudienceAction}

def Served (s : Audience) : Prop := ∀ r v, s.viewers r = some v → Serves s.live r v

/-- A step of another viewer, or one that only touches this viewer. -/
theorem Served.setViewer {live : LiveState} {r : ℕ} {v : Playback} (hr : Serves live r v)
    (hother : ∀ r' v', r' ≠ r → s.viewers r' = some v' → Serves live r' v') :
    ({ s with live := live }.setViewer r v).Served := by
  intro r' v' hv'
  by_cases heq : r' = r
  · subst heq
    simp only [Audience.setViewer, Function.update_self] at hv'
    exact Option.some.inj hv' ▸ hr
  · simp only [Audience.setViewer, Function.update_of_ne heq] at hv'
    exact hother r' v' heq hv'

theorem Served.step (h : s.Served) (hstep : s.step a = some t) : t.Served := by
  cases stepped_of_step hstep with
  | cached tag => exact fun r v hv => (h r v hv).frame (by simp) (by simp) rfl rfl (by simp)
  | sent tag => exact fun r v hv => (h r v hv).send
  | closed => exact fun r v hv => (h r v hv).frame rfl le_rfl rfl rfl (by simp [LiveState.setSender, Broadcasts.dropSender])
  | attached player =>
    refine Served.setViewer (Serves.attach player) fun r v hr hv => ?_
    exact (h r v hv).frame (Function.update_of_ne hr _ _) (Nat.le_succ _) rfl (Function.update_of_ne hr _ _) rfl
  | slotRead r v k rest hv hread =>
    intro r' v' hv'
    by_cases heq : r' = r
    · subst heq
      exact (h r' v' hv').readSlot k rest
    · exact (h r' v' hv').frame rfl le_rfl rfl (Function.update_of_ne heq _ _) rfl
  | started r written v hv hready =>
    exact Served.setViewer ((h r v hv).start hready.2.2 written) fun r' v' _ hv' => h r' v' hv'
  | received r written v result sender hv hready hresult hrecv =>
    refine Served.setViewer ((h r v hv).recv hready.2 written hresult hrecv) fun r' v' hr hv' => ?_
    obtain ⟨hchannels, -⟩ := Broadcasts.channels_recv hrecv
    exact (h r' v' hv').frame (Broadcasts.receivers_recv_other hr.symm hrecv) (Broadcasts.alive_recv hrecv r').1.ge rfl rfl
      (congrArg (fun channels => (channels 0).values) hchannels)
  | left r v hv =>
    refine Served.setViewer (h r v hv).leave fun r' v' hr hv' => ?_
    exact (h r' v' hv').frame (Function.update_of_ne hr _ _) le_rfl rfl rfl rfl

theorem served_of_run {acts : List AudienceAction} (hrun : run Audience.step {} acts = some s) : s.Served :=
  run_invariant (I := Served) (C := fun _ _ => True) (fun _ _ _ hs _ hstep => Served.step hs hstep)
    (fun _ _ hv => by cases hv) (eachStep_trivial _ _) hrun

/-- Whatever the others do and however far it falls behind, a viewer is sent the headers it was given at the start, or a
first part of them, and then tags broadcast after it subscribed, each once and in their order. -/
theorem viewer_sent_sublist (acts : List AudienceAction) (s : Audience) (r : ℕ) (v : Playback)
    (hrun : run Audience.step {} acts = some s) (hv : s.viewers r = some v) :
    ∃ cached heard, v.sent = cached ++ heard ∧ cached <+: (s.live.subscribers r).cached ∧
      heard.Sublist (s.live.completed.drop v.joinedAt) := by
  have hserves := served_of_run hrun r v hv
  obtain ⟨cached, heard, hsent, hcached, hheard⟩ := hserves.sent
  exact ⟨cached, heard, hsent, hcached, hheard.trans hserves.received⟩

/-- A response and a play session come after the first header; the response reads, and the play session goes. -/
def twoViewers : List AudienceAction :=
  [.cache (.audio 0 [0xaf, 0, 1]), .send, .attach (.httpFlv noMetadata), .attach .rtmpPlay, .readSlot 0, .readSlot 0,
    .readSlot 1, .readSlot 0, .start 0 0, .cache (.audio 5 [0xaf, 1, 2]), .send, .leave 1, .recv 0 true,
    .cache (.audio 9 [0xaf, 1, 3]), .send]

theorem viewer_sent_sublist_twoViewers :
    ∃ s ∈ run Audience.step {} twoViewers, ∃ v ∈ s.viewers 0, v.sent = [.audio 0 [0xaf, 0, 1], .audio 5 [0xaf, 1, 2]] ∧
      ∃ cached heard, v.sent = cached ++ heard ∧ cached <+: (s.live.subscribers 0).cached ∧
        heard.Sublist (s.live.completed.drop v.joinedAt) := by
  have hrun : ∃ s ∈ run Audience.step {} twoViewers, ∃ v ∈ s.viewers 0,
      v.sent = [.audio 0 [0xaf, 0, 1], .audio 5 [0xaf, 1, 2]] := by
    decide +kernel
  obtain ⟨s, hs, v, hv, hsent⟩ := hrun
  exact ⟨s, hs, v, hv, hsent, viewer_sent_sublist twoViewers s 0 v hs hv⟩

end Audience

/-! ## A viewer that keeps up -/

/-- A viewer that has missed nothing: it reads all that is broadcast since it subscribed, and has been sent what it was
given at the start and all that it has read. -/
structure Gapless (live : LiveState) (r : ℕ) (v : Playback) : Prop where
  joined_le : v.joinedAt ≤ live.completed.length
  follows : live.channel.sender.Follows r 0 (live.completed.drop v.joinedAt)
  waiting : v.waitingKeyframe = false
  unstarted : v.started = false → (live.channel.sender.receivers r).received = []
  sent : v.started = true → (live.subscribers r).toRead = [] ∧
    v.sent = (live.subscribers r).cached ++ (live.channel.sender.receivers r).received

namespace Gapless
variable {live live' : LiveState} {r : ℕ} {v : Playback}

theorem frame (h : Gapless live r v) (hreceiver : live'.channel.sender.receivers r = live.channel.sender.receivers r)
    (hcount : live.channel.sender.receiverCount ≤ live'.channel.sender.receiverCount)
    (hcompleted : live'.completed = live.completed) (hcached : live'.subscribers r = live.subscribers r)
    (hvalues : (live'.channel.sender.channels 0).values = (live.channel.sender.channels 0).values) :
    Gapless live' r v where
  joined_le := hcompleted ▸ h.joined_le
  follows := hcompleted ▸ h.follows.frame hreceiver hvalues hcount
  waiting := h.waiting
  unstarted := hreceiver ▸ h.unstarted
  sent := hcached ▸ hreceiver ▸ h.sent

theorem send (h : Gapless live r v) {tag : FlvTag} :
    Gapless { live with channel := live.channel.send tag, sending := none, completed := live.completed ++ [tag] } r v where
  joined_le := by
    rw [List.length_append]
    exact h.joined_le.trans (Nat.le_add_right _ _)
  follows := by
    rw [List.drop_append_of_le_length h.joined_le]
    exact h.follows.send tag
  waiting := h.waiting
  unstarted := by simpa [FlvLiveChannel.send] using h.unstarted
  sent := by simpa [FlvLiveChannel.send] using h.sent

theorem attach (player : Player) :
    Gapless { live with
        channel := live.channel.attach
        subscribers := Function.update live.subscribers live.channel.sender.receiverCount {} }
      live.channel.sender.receiverCount { player := player, joinedAt := live.completed.length } where
  joined_le := le_rfl
  follows := by
    rw [List.drop_length]
    exact Broadcasts.follows_subscribe _ _
  waiting := rfl
  unstarted _ := by simp [FlvLiveChannel.attach, Broadcasts.subscribe]
  sent := nofun

theorem start (h : Gapless live r v) (hread : (live.subscribers r).toRead = []) (hstarted : v.started = false)
    (written : ℕ) (hended : (v.start (live.subscribers r).cached written).ended = false) :
    Gapless live r (v.start (live.subscribers r).cached written) := by
  have hsent : (live.subscribers r).cached =
      (live.subscribers r).cached ++ (live.channel.sender.receivers r).received := by
    rw [h.unstarted hstarted, List.append_nil]
  unfold Playback.start at hended ⊢
  split at hended
  · split at hended
    · next hencoded =>
      simp only [hencoded, if_true]
      exact { h with unstarted := nofun, sent := fun _ => ⟨hread, hsent⟩ }
    · cases hended
  · split at hended
    · next hwritten =>
      simp only [hwritten, if_true]
      exact { h with unstarted := nofun, sent := fun _ => ⟨hread, hsent⟩ }
    · cases hended

/-- A turn that neither waits for a keyframe nor ends the stream sends the tag it has read. -/
theorem onRecv_ok (hwaiting : v.waitingKeyframe = false) {written : Bool} {tag : FlvTag}
    (hended : (v.onRecv written (.ok tag)).ended = false) :
    v.onRecv written (.ok tag) = { v with sent := v.sent ++ [tag] } := by
  have hturn : v.player.turn written v.waitingKeyframe (.ok tag) =
      (v.waitingKeyframe, if v.player.delivers written tag then .forwards tag else .ends) := by
    rw [Player.turn_eq, hwaiting]
    rfl
  unfold Playback.onRecv at hended ⊢
  rw [hturn] at hended ⊢
  cases hdelivers : v.player.delivers written tag with
  | true => rfl
  | false =>
    rw [hdelivers] at hended
    cases hended

theorem recv (h : Gapless live r v) (hstarted : v.started = true) {written : Bool} {result : RecvResult}
    {sender : Broadcasts FlvTag}
    (hlag : (live.channel.sender.unread r).length ≤ (live.channel.sender.channels 0).capacity)
    (hresult : HttpFlvResponse.recvResult (live.channel.sender.recvResult r) = some result)
    (hrecv : live.channel.sender.recv r = some sender) (hended : (v.onRecv written result).ended = false) :
    Gapless (live.setSender sender) r (v.onRecv written result) := by
  have hfollows := h.follows.recv_self hlag hrecv
  have hreceived := Broadcasts.received_recv hrecv
  cases hread : live.channel.sender.recvResult r with
  | item tag =>
    rw [hread] at hresult hreceived
    obtain rfl := Option.some.inj hresult
    rw [onRecv_ok h.waiting hended]
    refine ⟨h.joined_le, hfollows, h.waiting, fun hunstarted => ?_, fun _ => ⟨(h.sent hstarted).1, ?_⟩⟩
    · rw [hstarted] at hunstarted
      cases hunstarted
    · simp only [LiveState.setSender, hreceived, (h.sent hstarted).2, BroadcastRecv.read, List.append_assoc]
  | lagged =>
    have hbehind := h.follows.recvResult_eq hlag
    rw [hread] at hbehind
    split at hbehind
    · split at hbehind <;> cases hbehind
    · cases hbehind
  | closed =>
    rw [hread] at hresult
    obtain rfl := Option.some.inj hresult
    have hturn : v.player.turn written v.waitingKeyframe .closed = (v.waitingKeyframe, .ends) := by
      rw [Player.turn_eq]
      rfl
    rw [Playback.onRecv, hturn] at hended
    cases hended
  | empty =>
    rw [hread] at hresult
    cases hresult

end Gapless

namespace Audience
variable {s t : Audience} {a : AudienceAction}

/-- A receive of the viewer finds it no further behind than the channel's capacity. -/
def KeepsUp (r : ℕ) (s : Audience) : AudienceAction → Prop
  | .recv r' _ => r' = r → (s.live.channel.sender.unread r).length ≤ (s.live.channel.sender.channels 0).capacity
  | _ => True

instance (r : ℕ) (s : Audience) : (a : AudienceAction) → Decidable (KeepsUp r s a)
  | .recv _ _ => inferInstanceAs (Decidable (_ → _))
  | .cache _ | .send | .close | .attach _ | .readSlot _ | .start _ _ | .leave _ => isTrue trivial

/-- The viewer has missed nothing unless it has ended. -/
def Keeping (r : ℕ) (s : Audience) : Prop := ∀ v, s.viewers r = some v → v.ended = false → Gapless s.live r v

theorem Keeping.step {r : ℕ} (h : Keeping r s) (hkeeps : KeepsUp r s a) (hstep : s.step a = some t) :
    Keeping r t := by
  cases stepped_of_step hstep with
  | cached tag => exact fun v hv hended => (h v hv hended).frame (by simp) (by simp) rfl rfl (by simp)
  | sent tag => exact fun v hv hended => (h v hv hended).send
  | closed =>
    exact fun v hv hended =>
      (h v hv hended).frame rfl le_rfl rfl rfl (by simp [LiveState.setSender, Broadcasts.dropSender])
  | attached player =>
    intro v hv hended
    by_cases hr : r = s.live.channel.sender.receiverCount
    · subst hr
      simp only [Audience.setViewer, Function.update_self] at hv
      obtain rfl := Option.some.inj hv
      exact Gapless.attach player
    · simp only [Audience.setViewer, Function.update_of_ne hr] at hv
      exact (h v hv hended).frame (Function.update_of_ne hr _ _) (Nat.le_succ _) rfl (Function.update_of_ne hr _ _) rfl
  | slotRead r' v' k rest hv' hread =>
    intro v hv hended
    by_cases hr : r = r'
    · subst hr
      have hgapless := h v hv hended
      refine { hgapless with sent := fun hstarted => ?_ }
      rw [(hgapless.sent hstarted).1] at hread
      cases hread
    · exact (h v hv hended).frame rfl le_rfl rfl (Function.update_of_ne hr _ _) rfl
  | started r' written v' hv' hready =>
    intro v hv hended
    by_cases hr : r = r'
    · subst hr
      simp only [Audience.setViewer, Function.update_self] at hv
      obtain rfl := Option.some.inj hv
      exact (h v' hv' hready.2.2).start hready.1 hready.2.1 written hended
    · simp only [Audience.setViewer, Function.update_of_ne hr] at hv
      exact h v hv hended
  | received r' written v' result sender hv' hready hresult hrecv =>
    intro v hv hended
    by_cases hr : r = r'
    · subst hr
      simp only [Audience.setViewer, Function.update_self] at hv
      obtain rfl := Option.some.inj hv
      exact (h v' hv' hready.2).recv hready.1 (hkeeps rfl) hresult hrecv hended
    · simp only [Audience.setViewer, Function.update_of_ne hr] at hv
      obtain ⟨hchannels, -⟩ := Broadcasts.channels_recv hrecv
      exact (h v hv hended).frame (Broadcasts.receivers_recv_other (Ne.symm hr) hrecv)
        (Broadcasts.alive_recv hrecv r).1.ge rfl rfl (congrArg (fun channels => (channels 0).values) hchannels)
  | left r' v' hv' =>
    intro v hv hended
    by_cases hr : r = r'
    · subst hr
      simp only [Audience.setViewer, Function.update_self] at hv
      obtain rfl := Option.some.inj hv
      cases hended
    · simp only [Audience.setViewer, Function.update_of_ne hr] at hv
      exact (h v hv hended).frame (Function.update_of_ne hr _ _) le_rfl rfl rfl rfl

theorem keeping_of_run {acts : List AudienceAction} {r : ℕ} (hrun : run Audience.step {} acts = some s)
    (hkeeps : EachStep Audience.step (KeepsUp r) {} acts) : Keeping r s :=
  run_invariant (I := Keeping r) (C := KeepsUp r) (fun _ _ _ hs hk hstep => Keeping.step hs hk hstep)
    (fun _ hv _ => by cases hv) hkeeps hrun

theorem Gapless.sent_append_unread {live : LiveState} {r : ℕ} {v : Playback} (h : Gapless live r v)
    (hstarted : v.started = true) :
    v.sent ++ live.channel.sender.unread r = (live.subscribers r).cached ++ live.completed.drop v.joinedAt := by
  rw [(h.sent hstarted).2, List.append_assoc, h.follows.log]

/-- A viewer that never falls behind by more than the channel keeps misses nothing: what it was sent and has still to
read are the headers it was given at the start and all that was broadcast since it subscribed. -/
theorem viewer_sent_gapless (acts : List AudienceAction) (s : Audience) (r : ℕ) (v : Playback)
    (hrun : run Audience.step {} acts = some s) (hkeeps : EachStep Audience.step (KeepsUp r) {} acts)
    (hv : s.viewers r = some v) (hstarted : v.started = true) (hended : v.ended = false) :
    v.sent ++ s.live.channel.sender.unread r =
      (s.live.subscribers r).cached ++ s.live.completed.drop v.joinedAt := by
  exact Gapless.sent_append_unread (keeping_of_run hrun hkeeps v hv hended) hstarted

theorem viewer_sent_gapless_twoViewers :
    ∃ s ∈ run Audience.step {} twoViewers, ∃ v ∈ s.viewers 0,
      v.sent ++ s.live.channel.sender.unread 0 =
        (s.live.subscribers 0).cached ++ s.live.completed.drop v.joinedAt := by
  have hrun : ∃ s ∈ run Audience.step {} twoViewers, ∃ v ∈ s.viewers 0, v.started = true ∧ v.ended = false := by
    decide +kernel
  obtain ⟨s, hs, v, hv, hstarted, hended⟩ := hrun
  exact ⟨s, hs, v, hv, viewer_sent_gapless twoViewers s 0 v hs (by decide +kernel) hv hstarted hended⟩

end Audience

/-! ## The other viewers -/

/-- What matters to a viewer: the channel's slots and history, its own state, and what its receiver has read and not
read while it watches. -/
structure Outlook where
  sending : Option FlvTag
  completed : List FlvTag
  slots : HeaderKind → Option FlvTag
  capacity : ℕ
  isOpen : Bool
  -- the number of the next receiver
  receiverCount : ℕ
  subscriber : Subscriber
  viewer : Option Playback
  feed : Option (List FlvTag × List FlvTag)

namespace Audience

def outlook (r : ℕ) (s : Audience) : Outlook where
  sending := s.live.sending
  completed := s.live.completed
  slots := s.live.channel.slot
  capacity := (s.live.channel.sender.channels 0).capacity
  isOpen := (s.live.channel.sender.channels 0).isOpen
  receiverCount := s.live.channel.sender.receiverCount
  subscriber := s.live.subscribers r
  viewer := s.viewers r
  feed := (s.viewers r).bind fun v =>
    if v.ended then none
    else some ((s.live.channel.sender.receivers r).received, s.live.channel.sender.unread r)

/-- A step of another viewer after it has subscribed. -/
def ofOther (r : ℕ) : AudienceAction → Bool
  | .readSlot r' | .start r' _ | .recv r' _ | .leave r' => r' != r
  | .cache _ | .send | .close | .attach _ => false

variable {s t u : Audience} {a : AudienceAction} {r : ℕ}

theorem outlook_ext (hsending : t.live.sending = s.live.sending) (hcompleted : t.live.completed = s.live.completed)
    (hslots : t.live.channel.slot = s.live.channel.slot)
    (hcapacity : (t.live.channel.sender.channels 0).capacity = (s.live.channel.sender.channels 0).capacity)
    (hopen : (t.live.channel.sender.channels 0).isOpen = (s.live.channel.sender.channels 0).isOpen)
    (hcount : t.live.channel.sender.receiverCount = s.live.channel.sender.receiverCount)
    (hsubscriber : t.live.subscribers r = s.live.subscribers r) (hviewer : t.viewers r = s.viewers r)
    (hfeed : ∀ v, s.viewers r = some v → v.ended = false →
      (t.live.channel.sender.receivers r).received = (s.live.channel.sender.receivers r).received ∧
        t.live.channel.sender.unread r = s.live.channel.sender.unread r) :
    t.outlook r = s.outlook r := by
  simp only [outlook, hsending, hcompleted, hslots, hcapacity, hopen, hcount, hsubscriber, hviewer, Outlook.mk.injEq,
    true_and]
  refine Option.bind_congr fun v hv => ?_
  cases hended : v.ended with
  | true => rfl
  | false =>
    obtain ⟨hreceived, hunread⟩ := hfeed v hv hended
    rw [hreceived, hunread]

/-- A viewer sees nothing of a step that leaves its receiver, the channel and its own state alone. -/
theorem outlook_eq (hserved : s.Served) (hsending : t.live.sending = s.live.sending)
    (hcompleted : t.live.completed = s.live.completed) (hslots : t.live.channel.slot = s.live.channel.slot)
    (hchannel : t.live.channel.sender.channels 0 = s.live.channel.sender.channels 0)
    (hcount : t.live.channel.sender.receiverCount = s.live.channel.sender.receiverCount)
    (hsubscriber : t.live.subscribers r = s.live.subscribers r) (hviewer : t.viewers r = s.viewers r)
    (hreceiver : t.live.channel.sender.receivers r = s.live.channel.sender.receivers r) :
    t.outlook r = s.outlook r := by
  refine outlook_ext hsending hcompleted hslots (by rw [hchannel]) (by rw [hchannel]) hcount hsubscriber hviewer ?_
  intro v hv hended
  obtain ⟨log, hfollows, -⟩ := (hserved r v hv).follows hended
  simp only [Broadcasts.unread, hreceiver, hfollows.channel, hchannel, and_self]

theorem outlook_of_other (h : s.Served) (ha : ofOther r a = true) (hstep : s.step a = some t) :
    t.outlook r = s.outlook r := by
  cases stepped_of_step hstep with
  | cached | sent | closed | attached => cases ha
  | slotRead r' v' k rest hv' hread =>
    have hr : r' ≠ r := by simpa [ofOther] using ha
    exact outlook_eq h rfl rfl rfl rfl rfl (Function.update_of_ne hr.symm _ _) rfl rfl
  | started r' written v' hv' hready =>
    have hr : r' ≠ r := by simpa [ofOther] using ha
    exact outlook_eq h rfl rfl rfl rfl rfl rfl (Function.update_of_ne hr.symm _ _) rfl
  | received r' written v' result sender hv' hready hresult hrecv =>
    have hr : r' ≠ r := by simpa [ofOther] using ha
    obtain ⟨hchannels, -⟩ := Broadcasts.channels_recv hrecv
    exact outlook_eq h rfl rfl (LiveState.slot_setSender _ _) (congrFun hchannels 0)
      (Broadcasts.alive_recv hrecv r).1 rfl (Function.update_of_ne hr.symm _ _)
      (Broadcasts.receivers_recv_other hr hrecv)
  | left r' v' hv' =>
    have hr : r' ≠ r := by simpa [ofOther] using ha
    exact outlook_eq h rfl rfl (LiveState.slot_setSender _ _) rfl rfl rfl (Function.update_of_ne hr.symm _ _)
      (Function.update_of_ne hr.symm _ _)

/-- Two states a viewer cannot tell apart. -/
structure Alike (r : ℕ) (s t : Audience) : Prop where
  sending : t.live.sending = s.live.sending
  completed : t.live.completed = s.live.completed
  slots : t.live.channel.slot = s.live.channel.slot
  capacity : (t.live.channel.sender.channels 0).capacity = (s.live.channel.sender.channels 0).capacity
  isOpen : (t.live.channel.sender.channels 0).isOpen = (s.live.channel.sender.channels 0).isOpen
  receiverCount : t.live.channel.sender.receiverCount = s.live.channel.sender.receiverCount
  subscriber : t.live.subscribers r = s.live.subscribers r
  viewer : t.viewers r = s.viewers r
  feed : ∀ v, s.viewers r = some v → v.ended = false →
    ∃ log log', s.live.channel.sender.Follows r 0 log ∧ t.live.channel.sender.Follows r 0 log' ∧
      (t.live.channel.sender.receivers r).received = (s.live.channel.sender.receivers r).received ∧
      t.live.channel.sender.unread r = s.live.channel.sender.unread r

theorem alike_of_outlook (hs : s.Served) (ht : t.Served) (h : s.outlook r = t.outlook r) : Alike r s t := by
  simp only [outlook, Outlook.mk.injEq] at h
  obtain ⟨hsending, hcompleted, hslots, hcapacity, hopen, hcount, hsubscriber, hviewer, hfeed⟩ := h
  refine ⟨hsending.symm, hcompleted.symm, hslots.symm, hcapacity.symm, hopen.symm, hcount.symm, hsubscriber.symm,
    hviewer.symm, fun v hv hended => ?_⟩
  obtain ⟨log, hfollows, -⟩ := (hs r v hv).follows hended
  obtain ⟨log', hfollows', -⟩ := (ht r v (hviewer ▸ hv)).follows hended
  rw [← hviewer, hv] at hfeed
  simp only [Option.bind_some, hended, Bool.false_eq_true, if_false, Option.some.injEq, Prod.mk.injEq] at hfeed
  exact ⟨log, log', hfollows, hfollows', hfeed.1.symm, hfeed.2.symm⟩

/-- What a receiver has not read, from what it will have read in all. -/
theorem unread_of_log {b b' : Broadcasts FlvTag} {more log log' : List FlvTag} (h : b.Follows r 0 log)
    (h' : b'.Follows r 0 log') (hreceived : (b'.receivers r).received = (b.receivers r).received)
    (hlog : log' = log ++ more) : b'.unread r = b.unread r ++ more := by
  have hfull := h'.log
  rw [hlog, ← h.log, hreceived, List.append_assoc] at hfull
  exact List.append_cancel_left hfull

/-- A step the viewer can see is one in both states, and they look alike to it afterwards. -/
theorem Alike.step (h : Alike r s t) (ha : ofOther r a = false) (hstep : s.step a = some u) :
    ∃ w, t.step a = some w ∧ w.outlook r = u.outlook r := by
  cases stepped_of_step hstep with
  | cached tag hsending =>
    refine ⟨_, by rw [Audience.step, LiveState.step, h.sending, hsending]; rfl, ?_⟩
    refine outlook_ext rfl h.completed (funext fun k => ?_) ?_ ?_ ?_ h.subscriber h.viewer fun v hv hended => ?_
    · simp only [FlvLiveChannel.slot_cacheSeqHeader, h.slots]
    · simpa using h.capacity
    · simpa using h.isOpen
    · simpa using h.receiverCount
    · obtain ⟨_, _, -, -, hfeed⟩ := h.feed v hv hended
      simpa using hfeed
  | sent tag hsending =>
    refine ⟨_, by rw [Audience.step, LiveState.step, h.sending, hsending]; rfl, ?_⟩
    refine outlook_ext rfl (by rw [h.completed]) (funext fun k => ?_) ?_ ?_ ?_ h.subscriber h.viewer
      fun v hv hended => ?_
    · simp only [FlvLiveChannel.slot_send, h.slots]
    · simpa [FlvLiveChannel.send] using h.capacity
    · simpa [FlvLiveChannel.send] using h.isOpen
    · simpa [FlvLiveChannel.send] using h.receiverCount
    · obtain ⟨log, log', hfollows, hfollows', hreceived, hunread⟩ := h.feed v hv hended
      refine ⟨by simpa [FlvLiveChannel.send] using hreceived, ?_⟩
      have hsent := unread_of_log hfollows (hfollows.send tag) (by simp) rfl
      have hsent' := unread_of_log hfollows' (hfollows'.send tag) (by simp) rfl
      simp only [FlvLiveChannel.send, hsent, hsent', hunread]
  | closed =>
    refine ⟨_, rfl, outlook_ext h.sending h.completed ?_ ?_ ?_ h.receiverCount h.subscriber h.viewer
      fun v hv hended => ?_⟩
    · simpa only [LiveState.slot_setSender] using h.slots
    · simpa [LiveState.setSender, Broadcasts.dropSender] using h.capacity
    · simp [LiveState.setSender, Broadcasts.dropSender]
    · obtain ⟨log, log', hfollows, hfollows', hreceived, hunread⟩ := h.feed v hv hended
      have hsame := unread_of_log hfollows (hfollows.dropSender 0) rfl (List.append_nil _).symm
      have hsame' := unread_of_log hfollows' (hfollows'.dropSender 0) rfl (List.append_nil _).symm
      refine ⟨hreceived, ?_⟩
      simp only [LiveState.setSender, hsame, hsame', hunread]
  | attached player =>
    refine ⟨_, rfl, ?_⟩
    simp only [h.receiverCount, h.completed]
    by_cases hr : r = s.live.channel.sender.receiverCount
    · subst hr
      refine outlook_ext h.sending rfl (funext fun k => ?_) h.capacity h.isOpen ?_ ?_ ?_ fun v hv hended => ?_
      · simpa [setViewer] using congrFun h.slots k
      · exact congrArg (· + 1) h.receiverCount
      · simp [setViewer]
      · simp [setViewer]
      · simp [setViewer, FlvLiveChannel.attach, Broadcasts.subscribe, Broadcasts.unread, h.receiverCount]
    · refine outlook_ext h.sending rfl (funext fun k => ?_) h.capacity h.isOpen ?_ ?_ ?_ fun v hv hended => ?_
      · simpa [setViewer] using congrFun h.slots k
      · exact congrArg (· + 1) h.receiverCount
      · simpa [setViewer, Function.update_of_ne hr] using h.subscriber
      · simpa [setViewer, Function.update_of_ne hr] using h.viewer
      · simp only [setViewer, Function.update_of_ne hr] at hv
        obtain ⟨log, log', hfollows, hfollows', hreceived, hunread⟩ := h.feed v hv hended
        have hr' : r ≠ t.live.channel.sender.receiverCount := h.receiverCount ▸ hr
        simpa [setViewer, FlvLiveChannel.attach, Broadcasts.subscribe, Broadcasts.unread, Function.update_of_ne hr,
          Function.update_of_ne hr'] using And.intro hreceived hunread
  | slotRead r' v k rest hv hread =>
    obtain rfl : r' = r := by simpa [ofOther] using ha
    have hviewer : t.viewers r' = some v := h.viewer.trans hv
    refine ⟨_, by simp only [Audience.step, hviewer, Option.bind_some, LiveState.step, h.subscriber, hread]; rfl, ?_⟩
    refine outlook_ext h.sending h.completed h.slots h.capacity h.isOpen h.receiverCount ?_ h.viewer fun v hv hended => ?_
    · simp [LiveState.readSlot, h.subscriber, h.slots]
    · obtain ⟨_, _, -, -, hfeed⟩ := h.feed v hv hended
      exact hfeed
  | started r' written v hv hready =>
    obtain rfl : r' = r := by simpa [ofOther] using ha
    have hviewer : t.viewers r' = some v := h.viewer.trans hv
    refine ⟨_, by simp only [Audience.step, hviewer, Option.bind_some, h.subscriber, if_pos hready]; rfl, ?_⟩
    refine outlook_ext h.sending h.completed h.slots h.capacity h.isOpen h.receiverCount h.subscriber ?_
      fun v' hv' hended => ?_
    · simp [setViewer]
    · obtain ⟨_, _, -, -, hfeed⟩ := h.feed v hv hready.2.2
      exact hfeed
  | received r' written v result sender hv hready hresult hrecv =>
    obtain rfl : r' = r := by simpa [ofOther] using ha
    have hviewer : t.viewers r' = some v := h.viewer.trans hv
    obtain ⟨log, log', hfollows, hfollows', hreceived, hunread⟩ := h.feed v hv hready.2
    have hsame : t.live.channel.sender.recvResult r' = s.live.channel.sender.recvResult r' := by
      rw [hfollows.recvResult_eq_recvOf, hfollows'.recvResult_eq_recvOf, h.capacity, h.isOpen, hunread]
    obtain ⟨sender', hrecv'⟩ : ∃ sender', t.live.channel.sender.recv r' = some sender' := by
      refine Broadcasts.exists_recv fun hempty => ?_
      rw [← hsame, hempty] at hresult
      cases hresult
    refine ⟨_, by
      simp only [Audience.step, hviewer, Option.bind_some, if_pos hready, hsame, hresult, LiveState.step, hrecv',
        Option.map_some]
      rfl, ?_⟩
    have hchannels := (Broadcasts.channels_recv hrecv).1
    have hchannels' := (Broadcasts.channels_recv hrecv').1
    refine outlook_ext h.sending h.completed ?_ ?_ ?_ ?_ h.subscriber ?_ fun v' hv' hended => ?_
    · simpa only [setViewer, LiveState.slot_setSender] using h.slots
    · simpa [setViewer, LiveState.setSender, hchannels, hchannels'] using h.capacity
    · simpa [setViewer, LiveState.setSender, hchannels, hchannels'] using h.isOpen
    · exact (Broadcasts.alive_recv hrecv' r').1.trans (h.receiverCount.trans (Broadcasts.alive_recv hrecv r').1.symm)
    · simp [setViewer]
    · simp only [setViewer, LiveState.setSender, Broadcasts.received_recv hrecv, Broadcasts.received_recv hrecv',
        hfollows.unread_recv hrecv, hfollows'.unread_recv hrecv', hsame, hreceived, hunread, h.capacity, and_self]
  | left r' v hv =>
    obtain rfl : r' = r := by simpa [ofOther] using ha
    have hviewer : t.viewers r' = some v := h.viewer.trans hv
    refine ⟨_, by simp only [Audience.step, hviewer, Option.bind_some, LiveState.step, Option.map_some]; rfl, ?_⟩
    refine outlook_ext h.sending h.completed ?_ h.capacity h.isOpen h.receiverCount h.subscriber ?_
      fun v' hv' hended => ?_
    · simpa only [setViewer, LiveState.slot_setSender] using h.slots
    · simp [setViewer]
    · simp only [setViewer, Function.update_self, Option.some.injEq] at hv'
      rw [← hv'] at hended
      cases hended

/-- What the other viewers do once they have subscribed makes no difference to a viewer: whether they read or stall, are
cancelled or go, it is where it would be had none of them taken a step. -/
theorem viewer_unaffected (acts : List AudienceAction) (s : Audience) (r : ℕ)
    (hrun : run Audience.step {} acts = some s) :
    ∃ t, run Audience.step {} (acts.filter fun a => !ofOther r a) = some t ∧ t.outlook r = s.outlook r := by
  have hserved : Served {} := fun _ _ hv => by cases hv
  refine exists_run_filter_unseen (I := Served) ?_ ?_ ?_ hserved hserved rfl hrun
  · exact fun _ _ _ hs hstep => hs.step hstep
  · exact fun _ _ _ hs ha hstep => outlook_of_other hs ha hstep
  · exact fun _ _ _ _ hs ht hst ha hstep => (alike_of_outlook hs ht hst).step ha hstep

theorem viewer_unaffected_twoViewers :
    ∃ s ∈ run Audience.step {} twoViewers, ∃ t,
      run Audience.step {} (twoViewers.filter fun a => !ofOther 0 a) = some t ∧ t.outlook 0 = s.outlook 0 := by
  have hrun : ∃ s ∈ run Audience.step {} twoViewers, (s.viewers 0).isSome = true := by decide +kernel
  obtain ⟨s, hs, -⟩ := hrun
  exact ⟨s, hs, viewer_unaffected twoViewers s 0 hs⟩

end Audience
/-! ## The body of a response -/

/-- The bytes of an HTTP-FLV response that was sent these tags after it was given the cached ones. -/
def httpFlvBody (amf : ScriptDataCodec) (cached sent : List FlvTag) : Bytes :=
  buildFlvHeader cached ++ (sent.map fun tag => (encodeFlvTag amf tag).toOption.getD []).flatten

/-- An audio or video tag as its constructor makes it. -/
def IsMedia (tag : FlvTag) : Prop := ∃ (kind : MediaKind) (timestamp : UInt32) (payload : Bytes),
  tag = kind.build timestamp payload

theorem length_buildFlvHeader (cached : List FlvTag) : (buildFlvHeader cached).length = 13 := by
  simp [buildFlvHeader, encodeFlvHeader, putU32]

/-- A client that takes the header off a body and splits the rest finds the tags. -/
theorem splitTags_httpFlvBody {amf : ScriptDataCodec} (cached : List FlvTag) {sent : List FlvTag}
    (hmedia : ∀ tag ∈ sent, IsMedia tag) (hencoded : ∀ tag ∈ sent, (encodeFlvTag amf tag).isOk = true) :
    splitTags amf ((httpFlvBody amf cached sent).drop 13) = some sent := by
  have hwords : List.Forall₂ (IsTagBytes amf) sent
      (sent.map fun tag => (encodeFlvTag amf tag).toOption.getD []) := by
    rw [List.forall₂_map_right_iff, List.forall₂_same]
    intro tag htag
    refine ⟨hmedia tag htag, ?_⟩
    have hok := hencoded tag htag
    cases hbytes : encodeFlvTag amf tag with
    | error e =>
      rw [hbytes] at hok
      cases hok
    | ok bytes => rfl
  rw [httpFlvBody, List.drop_left' (length_buildFlvHeader cached)]
  exact readAll_words readTag_isTagBytes hwords le_rfl

namespace Playback
variable {v : Playback} {amf : ScriptDataCodec}

@[simp] theorem player_start (cached : List FlvTag) (written : ℕ) : (v.start cached written).player = v.player := by
  unfold start
  split <;> split <;> rfl

@[simp] theorem player_onRecv (written : Bool) (result : RecvResult) :
    (v.onRecv written result).player = v.player := by
  unfold onRecv
  split <;> rfl

/-- A response writes only what can be encoded. -/
def Encodes (v : Playback) : Prop :=
  ∀ amf, v.player = .httpFlv amf → ∀ tag ∈ v.sent, (encodeFlvTag amf tag).isOk = true

theorem Encodes.start (h : v.Encodes) (cached : List FlvTag) (written : ℕ) : (v.start cached written).Encodes := by
  intro amf hplayer
  rw [player_start] at hplayer
  simp only [Playback.start, hplayer]
  split
  · next hall => exact fun tag htag => List.all_eq_true.mp hall tag htag
  · exact h amf hplayer

theorem Encodes.onRecv (h : v.Encodes) (written : Bool) (result : RecvResult) : (v.onRecv written result).Encodes := by
  intro amf hplayer
  rw [player_onRecv] at hplayer
  have hsent := h amf hplayer
  unfold Playback.onRecv
  split
  · exact hsent
  · next tag hturn =>
    intro tag' htag'
    rcases List.mem_append.mp htag' with hold | hnew
    · exact hsent tag' hold
    · rw [List.mem_singleton.mp hnew]
      rw [hplayer] at hturn
      simp only [Player.turn, nextLiveChunk, Flv.onRecv] at hturn
      split at hturn
      · split at hturn
        · cases hturn
        · split at hturn
          · next hok =>
            obtain rfl := Turn.forwards.inj (Prod.mk.inj hturn).2
            exact hok
          · cases hturn
      · cases hturn
      · cases hturn
  · exact hsent

end Playback

namespace Audience
variable {s t : Audience} {a : AudienceAction}

theorem encodes_step (h : ∀ r v, s.viewers r = some v → v.Encodes) (hstep : s.step a = some t) (r : ℕ) (v : Playback)
    (hv : t.viewers r = some v) : v.Encodes := by
  have hset : ∀ (live : LiveState) (r' : ℕ) (v' : Playback), v'.Encodes →
      ({ s with live := live }.setViewer r' v').viewers r = some v → v.Encodes := by
    intro live r' v' hv' hviewer
    by_cases hr : r = r'
    · subst hr
      simp only [setViewer, Function.update_self] at hviewer
      exact Option.some.inj hviewer ▸ hv'
    · simp only [setViewer, Function.update_of_ne hr] at hviewer
      exact h r v hviewer
  cases stepped_of_step hstep with
  | cached | sent | closed | slotRead => exact h r v hv
  | attached player => exact hset _ _ _ (by simp [Playback.Encodes]) hv
  | started r' written v' hv' => exact hset s.live _ _ ((h r' v' hv').start _ _) hv
  | received r' written v' result _ hv' => exact hset _ _ _ ((h r' v' hv').onRecv _ _) hv
  | left r' v' hv' =>
    refine hset _ _ _ ?_ hv
    exact h r' v' hv'

/-- The slots hold the last headers, and what a viewer was given at the start was in them, read in their order. -/
structure Known (s : Audience) : Prop where
  slots : s.live.SlotsLatest
  cached : ∀ r, ∀ tag ∈ (s.live.subscribers r).cached, tag ∈ s.live.begun ∧ tag.isSequenceHeader = true
  kinds : ∀ r, ∃ read, read ++ (s.live.subscribers r).toRead = FlvLiveChannel.slotOrder ∧
    ((s.live.subscribers r).cached.map kindOf).Sublist read

theorem Known.frame (h : s.Known) (hslots : t.live.SlotsLatest) (hsame : t.live.subscribers = s.live.subscribers)
    (hbegun : s.live.begun <+: t.live.begun) : t.Known where
  slots := hslots
  cached r tag htag := (h.cached r tag (hsame ▸ htag)).imp_left hbegun.mem
  kinds := hsame ▸ h.kinds

theorem Known.step (h : s.Known) (hstep : s.step a = some t) : t.Known := by
  cases stepped_of_step hstep with
  | cached tag hsending =>
    refine h.frame (LiveState.slotsLatest_step h.slots (a := .cache tag) (by rw [LiveState.step, hsending])) rfl ?_
    simp [LiveState.begun, hsending]
  | sent tag hsending =>
    refine h.frame (LiveState.slotsLatest_step h.slots (a := .send) (by rw [LiveState.step, hsending])) rfl ?_
    simp [LiveState.begun, hsending]
  | closed | started | received | left => exact h.frame (h.slots.setSender _) rfl (List.prefix_refl _)
  | attached player =>
    refine ⟨LiveState.slotsLatest_step h.slots (a := .attach) rfl, fun r => ?_, fun r => ?_⟩
    · by_cases hr : r = s.live.channel.sender.receiverCount
      · subst hr
        simp [setViewer]
      · simp only [setViewer, Function.update_of_ne hr]
        exact h.cached r
    · by_cases hr : r = s.live.channel.sender.receiverCount
      · subst hr
        simp [setViewer]
      · simp only [setViewer, Function.update_of_ne hr]
        exact h.kinds r
  | slotRead r' v k rest hv hread =>
    have hslot : ∀ tag, s.live.channel.slot k = some tag →
        tag ∈ s.live.begun ∧ tag.isSequenceHeader = true ∧ kindOf tag = k := by
      intro tag htag
      have hlatest := (h.slots k).symm.trans htag
      exact ⟨(mem_of_latest hlatest).1, of_latest hlatest⟩
    refine ⟨h.slots, fun r tag htag => ?_, fun r => ?_⟩
    · by_cases hr : r = r'
      · subst hr
        simp only [Function.update_self, LiveState.readSlot] at htag
        rcases List.mem_append.mp htag with hold | hnew
        · exact h.cached r tag hold
        · obtain ⟨hbegun, hheader, -⟩ := hslot tag (Option.mem_toList.mp hnew)
          exact ⟨hbegun, hheader⟩
      · simp only [Function.update_of_ne hr] at htag
        exact h.cached r tag htag
    · by_cases hr : r = r'
      · subst hr
        obtain ⟨read, horder, hkinds⟩ := h.kinds r
        refine ⟨read ++ [k], by simpa [hread, LiveState.readSlot] using horder, ?_⟩
        simp only [Function.update_self, LiveState.readSlot, List.map_append]
        refine hkinds.append ?_
        cases hk : s.live.channel.slot k with
        | none => simp
        | some tag => simp [(hslot tag hk).2.2]
      · simpa only [Function.update_of_ne hr] using h.kinds r

theorem known_of_run {acts : List AudienceAction} (hrun : run Audience.step {} acts = some s) : s.Known :=
  run_invariant (I := Known) (C := fun _ _ => True) (fun _ _ _ h _ hstep => Known.step h hstep)
    ⟨fun k => by cases k <;> rfl, by simp, fun _ => ⟨[], rfl, List.Sublist.refl _⟩⟩ (eachStep_trivial _ _) hrun

/-- An HTTP-FLV client reads from the body it is sent exactly the tags it was sent, when what is broadcast are audio and
video tags. -/
theorem httpFlv_body_splits (acts : List AudienceAction) (s : Audience) (r : ℕ) (v : Playback) (amf : ScriptDataCodec)
    (hrun : run Audience.step {} acts = some s) (hv : s.viewers r = some v) (hplayer : v.player = .httpFlv amf)
    (hmedia : ∀ tag ∈ s.live.begun, IsMedia tag) :
    splitTags amf ((httpFlvBody amf (s.live.subscribers r).cached v.sent).drop 13) = some v.sent := by
  have hserves := served_of_run hrun r v hv
  have hencodes : ∀ r v, s.viewers r = some v → v.Encodes :=
    run_invariant (I := fun s => ∀ r v, s.viewers r = some v → v.Encodes) (C := fun _ _ => True)
      (fun _ _ _ h _ hstep => encodes_step h hstep) (by simp) (eachStep_trivial _ _) hrun
  refine splitTags_httpFlvBody _ (fun tag htag => hmedia tag ?_) (hencodes r v hv amf hplayer)
  obtain ⟨cached, heard, hsent, hcached, hheard⟩ := hserves.sent
  rw [hsent] at htag
  rcases List.mem_append.mp htag with hstart | hlater
  · exact ((known_of_run hrun).cached r tag (hcached.subset hstart)).1
  · exact List.mem_append_left _ (List.mem_of_mem_drop ((hheard.trans hserves.received).subset hlater))

theorem httpFlv_body_splits_twoViewers :
    ∃ s ∈ run Audience.step {} twoViewers, ∃ v ∈ s.viewers 0,
      splitTags noMetadata ((httpFlvBody noMetadata (s.live.subscribers 0).cached v.sent).drop 13) = some v.sent := by
  refine ⟨_, rfl, _, rfl, httpFlv_body_splits twoViewers _ 0 _ noMetadata rfl rfl rfl ?_⟩
  intro tag htag
  fin_cases htag <;> exact ⟨.audio, _, _, rfl⟩

end Audience
end LivestreamRs.Flv
