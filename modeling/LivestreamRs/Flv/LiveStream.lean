import LivestreamRs.Flv.Playback
import LivestreamRs.Rtmp.Publish

/-! # A live stream, from its publisher to its viewers

The tasks of an RTMP publisher (`Rtmp.Publish`) with the viewers of its live channel (`Flv.Playback`). They meet where
`FlvSink::consume` calls `FlvEgressHub::broadcast`, in the two steps of the channel's `broadcast`, and where the channel
is removed: by `spawn_connection_handler` after the publisher's handler has returned, or by a `StopStream` or the TTL
watcher at any time. `broadcast` holds its entry of the hub's map, so the channel is not removed between its two steps. A
channel made again under the identifier is another one, with viewers of its own.
-/
namespace LivestreamRs.Flv
open Media Foundations Pipeline Rtmp RtmpIngest
set_option autoImplicit false

structure LiveStream where
  ingest : RtmpIngest
  audience : Audience := {}
  -- `remove_channel` has run
  removed : Bool := false

inductive StreamAction
  -- a step of the publisher's tasks, but for `consume`
  | ingest (a : IngestAction)
  -- the two steps of `broadcast` in `consume`
  | cache
  | send
  -- `consume` when the hub has no channel
  | discard
  | viewer (a : AudienceAction)
  | removeChannel

namespace LiveStream

/-- The channel is made with the pipeline. -/
def initial (streamKey : String) (events : List PublishEvent) : LiveStream where
  ingest := RtmpIngest.initial streamKey events

variable (l : LiveStream)

/-- The tag `FlvSink` is broadcasting. -/
def consuming : Option FlvTag :=
  match l.ingest.chain.flvSinkTask with
  | .consuming tag => some tag
  | _ => none

def isConsume : IngestAction → Bool
  | .chain (.flvSink _) => true
  | _ => false

/-- The task of `FlvSink` goes on after `consume`. -/
def consumed : Option LiveStream :=
  (l.ingest.step (.chain (.flvSink .input))).map fun ingest => { l with ingest := ingest }

def step : StreamAction → Option LiveStream
  | .ingest a =>
    if isConsume a ∧ l.consuming.isSome then none
    else (l.ingest.step a).map fun ingest => { l with ingest := ingest }
  | .cache =>
    l.consuming.bind fun tag =>
      if l.removed then none
      else (l.audience.step (.cache tag)).map fun audience => { l with audience := audience }
  | .send => (l.audience.step .send).bind fun audience => { l with audience := audience }.consumed
  | .discard =>
    if l.removed ∧ l.consuming.isSome then l.consumed else none
  | .viewer a =>
    match a with
    | .cache _ | .send | .close => none
    | .attach player =>
      if l.removed then none
      else (l.audience.step (.attach player)).map fun audience => { l with audience := audience }
    | a => (l.audience.step a).map fun audience => { l with audience := audience }
  | .removeChannel =>
    if l.audience.live.sending = none then
      (l.audience.step .close).map fun audience => { l with audience := audience, removed := true }
    else none

/-- All that a step can do. -/
inductive Stepped (l : LiveStream) : StreamAction → LiveStream → Prop
  | ingest (a : IngestAction) (ingest : RtmpIngest) (hconsume : isConsume a = true → l.consuming = none)
      (h : l.ingest.step a = some ingest) : Stepped l (.ingest a) { l with ingest := ingest }
  | cached (tag : FlvTag) (audience : Audience) (hconsuming : l.consuming = some tag) (hremoved : l.removed = false)
      (h : l.audience.step (.cache tag) = some audience) : Stepped l .cache { l with audience := audience }
  | sent (audience : Audience) (ingest : RtmpIngest) (haudience : l.audience.step .send = some audience)
      (h : l.ingest.step (.chain (.flvSink .input)) = some ingest) :
      Stepped l .send { l with audience := audience, ingest := ingest }
  | discarded (ingest : RtmpIngest) (hremoved : l.removed = true)
      (h : l.ingest.step (.chain (.flvSink .input)) = some ingest) : Stepped l .discard { l with ingest := ingest }
  | viewer (a : AudienceAction) (audience : Audience) (hcache : ∀ tag, a ≠ .cache tag) (hsend : a ≠ .send)
      (h : l.audience.step a = some audience) : Stepped l (.viewer a) { l with audience := audience }
  | removedChannel (audience : Audience) (hsending : l.audience.live.sending = none)
      (h : l.audience.step .close = some audience) :
      Stepped l .removeChannel { l with audience := audience, removed := true }

theorem stepped_of_step {l l' : LiveStream} {a : StreamAction} (h : l.step a = some l') : Stepped l a l' := by
  cases a with
  | ingest a =>
    simp only [step] at h
    split at h
    · cases h
    · next hconsume =>
      obtain ⟨ingest, hingest, rfl⟩ := Option.map_eq_some_iff.mp h
      refine .ingest a ingest (fun ha => ?_) hingest
      simpa [ha] using hconsume
  | cache =>
    obtain ⟨tag, htag, h⟩ := Option.bind_eq_some_iff.mp h
    split at h
    · cases h
    · next hremoved =>
      obtain ⟨audience, haudience, rfl⟩ := Option.map_eq_some_iff.mp h
      exact .cached tag audience htag (by simpa using hremoved) haudience
  | send =>
    obtain ⟨audience, haudience, h⟩ := Option.bind_eq_some_iff.mp h
    obtain ⟨ingest, hingest, rfl⟩ := Option.map_eq_some_iff.mp h
    exact .sent audience ingest haudience hingest
  | discard =>
    simp only [step] at h
    split at h
    · next hready =>
      obtain ⟨ingest, hingest, rfl⟩ := Option.map_eq_some_iff.mp h
      exact .discarded ingest hready.1 hingest
    · cases h
  | viewer a =>
    simp only [step] at h
    split at h
    · cases h
    · cases h
    · cases h
    · split at h
      · cases h
      · obtain ⟨audience, haudience, rfl⟩ := Option.map_eq_some_iff.mp h
        exact .viewer _ audience (by simp) (by simp) haudience
    · next hcache hsend _ _ =>
      obtain ⟨audience, haudience, rfl⟩ := Option.map_eq_some_iff.mp h
      exact .viewer a audience hcache hsend haudience
  | removeChannel =>
    simp only [step] at h
    split at h
    · next hsending =>
      obtain ⟨audience, haudience, rfl⟩ := Option.map_eq_some_iff.mp h
      exact .removedChannel audience hsending haudience
    · cases h

end LiveStream

/-! ## Where the two meet -/

/-- Only `consume` broadcasts, and only its step ends it. -/
theorem broadcasts_step {c c' : Chain} {a : ChainAction} (h : c.step a = some c') :
    (c'.state.broadcasts = c.state.broadcasts ∧
      ∀ tag, c.flvSinkTask = .consuming tag → c'.flvSinkTask = .consuming tag ∧ ∀ wake, a ≠ .flvSink wake) ∨
    ∃ wake tag, a = .flvSink wake ∧ c.flvSinkTask = .consuming tag ∧
      c' = { c with flvSinkTask := .looping, state := { c.state with broadcasts := c.state.broadcasts ++ [tag] } } := by
  cases Chain.stepped_of_step h with
  | send | closeSource | cancel | hlsRecv | hlsDrop => exact .inl ⟨rfl, fun _ htag => ⟨htag, by simp⟩⟩
  | otel wake task s htask =>
    refine .inl ⟨?_, fun _ htag => ⟨htag, by simp⟩⟩
    exact Processor.step_keeps (I := fun s => s.broadcasts = c.state.broadcasts) (fun _ => id) (fun _ _ => id)
      (fun _ _ _ => id) (fun _ => rfl) rfl htask
  | seqCache wake task s htask =>
    refine .inl ⟨?_, fun _ htag => ⟨htag, by simp⟩⟩
    refine Processor.step_keeps (I := fun s => s.broadcasts = c.state.broadcasts) (fun _ => id) (fun _ _ => id)
      (fun pad _ s hs => ?_) (fun _ => rfl) rfl htask
    simp only [seqCacheProbe]
    split <;> exact hs
  | flvMux wake task s htask =>
    refine .inl ⟨?_, fun _ htag => ⟨htag, by simp⟩⟩
    exact Processor.step_keeps (I := fun s => s.broadcasts = c.state.broadcasts) (fun _ => id) (fun _ _ => id)
      (fun _ _ _ => id) (fun _ => rfl) rfl htask
  | flvSink wake task s htask =>
    generalize c.flvSinkTask = before at htask
    cases htask with
    | ended | received => exact .inl ⟨rfl, fun _ htag => by cases htag⟩
    | consumed _ tag => exact .inr ⟨wake, tag, rfl, rfl, rfl⟩

/-- The same of the publisher's tasks. -/
theorem ingest_broadcasts_step {i i' : RtmpIngest} {a : IngestAction} (h : i.step a = some i') :
    (i'.chain.state.broadcasts = i.chain.state.broadcasts ∧
      ∀ tag, i.chain.flvSinkTask = .consuming tag →
        i'.chain.flvSinkTask = .consuming tag ∧ LiveStream.isConsume a = false) ∨
    ∃ tag, LiveStream.isConsume a = true ∧ i.chain.flvSinkTask = .consuming tag ∧
      i'.chain.state.broadcasts = i.chain.state.broadcasts ++ [tag] := by
  cases RtmpIngest.stepped_of_step h with
  | chain a c _ _ hc =>
    rcases broadcasts_step hc with ⟨hbroadcasts, hsink⟩ | ⟨wake, tag, rfl, htag, rfl⟩
    · refine .inl ⟨hbroadcasts, fun tag htag => ⟨(hsink tag htag).1, ?_⟩⟩
      cases a with
      | flvSink wake => exact absurd rfl ((hsink tag htag).2 wake)
      | _ => rfl
    · exact .inr ⟨tag, rfl, htag, rfl⟩
  | cancelled a hchain =>
    refine .inl ⟨rfl, fun _ htag => ⟨htag, ?_⟩⟩
    cases a with
    | chain a => exact absurd rfl (hchain a)
    | _ => rfl
  | _ => exact .inl ⟨rfl, fun _ htag => ⟨htag, rfl⟩⟩

theorem consuming_prefix_leaving (c : Chain) :
    c.state.broadcasts ++ c.flvSinkTask.inFlight <+: c.leaving := by
  simp only [Chain.leaving, Chain.fromOtel, Chain.fromSeqCache, Chain.fromMux, List.append_assoc]
  rw [← List.append_assoc]
  exact List.prefix_append _ _

namespace LiveStream
variable {l l' : LiveStream} {a : StreamAction}

/-- The channel has sent what the sink has broadcast, up to the removal of the channel, and is sending what the sink is
broadcasting. -/
structure Bridged (l : LiveStream) : Prop where
  sending : ∀ tag, l.audience.live.sending = some tag → l.ingest.chain.flvSinkTask = .consuming tag ∧ l.removed = false
  sent : l.audience.live.completed <+: l.ingest.chain.state.broadcasts
  all : l.removed = false → l.audience.live.completed = l.ingest.chain.state.broadcasts

theorem consuming_eq_some {tag : FlvTag} (h : l.consuming = some tag) :
    l.ingest.chain.flvSinkTask = .consuming tag := by
  unfold consuming at h
  split at h
  · next tag' htag =>
    obtain rfl := Option.some.inj h
    exact htag
  · cases h

theorem consuming_ne_none {tag : FlvTag} (h : l.ingest.chain.flvSinkTask = .consuming tag) : l.consuming ≠ none := by
  simp [consuming, h]

/-- A step of a viewer is none of the broadcaster. -/
theorem live_of_viewer {s t : Audience} {a : AudienceAction} (hcache : ∀ tag, a ≠ .cache tag) (hsend : a ≠ .send)
    (h : s.step a = some t) : t.live.sending = s.live.sending ∧ t.live.completed = s.live.completed := by
  cases Audience.stepped_of_step h with
  | cached tag => exact absurd rfl (hcache tag)
  | sent => exact absurd rfl hsend
  | closed | attached | slotRead | started | received | left => exact ⟨rfl, rfl⟩

theorem Bridged.step (h : l.Bridged) (hstep : l.step a = some l') : l'.Bridged := by
  cases stepped_of_step hstep with
  | ingest a ingest hconsume hingest =>
    rcases ingest_broadcasts_step hingest with ⟨hbroadcasts, hsink⟩ | ⟨tag, ha, htag, -⟩
    · refine ⟨fun tag htag => ?_, hbroadcasts ▸ h.sent, fun hremoved => (h.all hremoved).trans hbroadcasts.symm⟩
      exact ⟨(hsink tag (h.sending tag htag).1).1, (h.sending tag htag).2⟩
    · exact absurd (hconsume ha) (consuming_ne_none htag)
  | cached tag audience hconsuming hremoved haudience =>
    cases Audience.stepped_of_step haudience with
    | cached =>
      refine ⟨fun tag' htag' => ?_, h.sent, h.all⟩
      obtain rfl := Option.some.inj htag'
      exact ⟨consuming_eq_some hconsuming, hremoved⟩
  | sent audience ingest haudience hingest =>
    cases Audience.stepped_of_step haudience with
    | sent tag hsending =>
      obtain ⟨hsink, hremoved⟩ := h.sending tag hsending
      have hbroadcasts : ingest.chain.state.broadcasts = l.ingest.chain.state.broadcasts ++ [tag] := by
        rcases ingest_broadcasts_step hingest with ⟨-, hother⟩ | ⟨tag', -, htag', hbroadcasts⟩
        · cases (hother tag hsink).2
        · rw [hsink] at htag'
          rw [hbroadcasts, SinkTask.consuming.inj htag']
      refine ⟨by simp, ?_, fun _ => ?_⟩
      · rw [hbroadcasts, h.all hremoved]
      · rw [hbroadcasts, h.all hremoved]
  | discarded ingest hremoved hingest =>
    refine ⟨fun tag htag => ?_, ?_, fun hremoved' => ?_⟩
    · have hfalse := (h.sending tag htag).2
      rw [hremoved] at hfalse
      cases hfalse
    · rcases ingest_broadcasts_step hingest with ⟨hbroadcasts, -⟩ | ⟨tag, -, -, hbroadcasts⟩
      · exact hbroadcasts ▸ h.sent
      · exact hbroadcasts ▸ h.sent.trans (List.prefix_append _ _)
    · rw [hremoved] at hremoved'
      cases hremoved'
  | viewer a audience hcache hsend haudience =>
    obtain ⟨hsending, hcompleted⟩ := live_of_viewer hcache hsend haudience
    exact ⟨hsending ▸ h.sending, hcompleted ▸ h.sent, hcompleted ▸ h.all⟩
  | removedChannel audience hsending haudience =>
    obtain ⟨hsending', hcompleted⟩ := live_of_viewer (by simp) (by simp) haudience
    refine ⟨fun tag htag => ?_, hcompleted ▸ h.sent, by simp⟩
    rw [hsending', hsending] at htag
    cases htag

theorem Bridged.begun (h : l.Bridged) :
    l.audience.live.begun <+: l.ingest.chain.state.broadcasts ++ l.ingest.chain.flvSinkTask.inFlight := by
  rw [LiveState.begun]
  cases hsending : l.audience.live.sending with
  | none =>
    rw [Option.toList_none, List.append_nil]
    exact h.sent.trans (List.prefix_append _ _)
  | some tag =>
    obtain ⟨hsink, hremoved⟩ := h.sending tag hsending
    rw [hsink, h.all hremoved]
    exact List.prefix_refl _

/-! ## Whole runs -/

/-- The step makes no send to a full pad behind the source pad. -/
def Unfilled (l : LiveStream) : StreamAction → Prop
  | .ingest a => l.ingest.Unfilled a
  | _ => True

/-- The step does not find the viewer further behind than the channel's capacity. -/
def KeepsUp (r : ℕ) (l : LiveStream) : StreamAction → Prop
  | .viewer a => l.audience.KeepsUp r a
  | _ => True

instance (l : LiveStream) : (a : StreamAction) → Decidable (l.Unfilled a)
  | .ingest a => inferInstanceAs (Decidable (l.ingest.Unfilled a))
  | .cache | .send | .discard | .viewer _ | .removeChannel => isTrue trivial

instance (r : ℕ) (l : LiveStream) : (a : StreamAction) → Decidable (l.KeepsUp r a)
  | .viewer a => inferInstanceAs (Decidable (l.audience.KeepsUp r a))
  | .ingest _ | .cache | .send | .discard | .removeChannel => isTrue trivial

/-- What the relay makes of the published frames. -/
def published (events : List PublishEvent) : List FlvTag := (relay {} (events.filterMap PublishEvent.frame)).2

section Runs
variable {streamKey : String} {events : List PublishEvent} {acts : List StreamAction} {r : ℕ}

theorem bridged_of_run (hrun : run LiveStream.step (initial streamKey events) acts = some l) : l.Bridged :=
  run_invariant (I := Bridged) (C := fun _ _ => True) (fun _ _ _ h _ hstep => h.step hstep)
    ⟨by simp [initial], List.prefix_refl _, fun _ => rfl⟩ (eachStep_trivial _ _) hrun

/-- The publisher's tasks do not see the viewers. -/
theorem exists_run_ingest (hrun : run LiveStream.step (initial streamKey events) acts = some l)
    (hroom : EachStep LiveStream.step Unfilled (initial streamKey events) acts) :
    ∃ acts', run RtmpIngest.step (RtmpIngest.initial streamKey events) acts' = some l.ingest ∧
      EachStep RtmpIngest.step RtmpIngest.Unfilled (RtmpIngest.initial streamKey events) acts' := by
  refine exists_run_component (I := fun _ => True) (f := LiveStream.ingest) (fun _ _ _ _ _ => trivial) ?_ trivial hroom hrun
  intro l a l' _ ha hstep
  cases stepped_of_step hstep with
  | ingest a ingest _ hingest => exact .inr ⟨a, hingest, ha⟩
  | sent _ ingest _ hingest | discarded ingest _ hingest => exact .inr ⟨_, hingest, trivial⟩
  | cached | viewer | removedChannel => exact .inl rfl

/-- Nor do the viewers see more of the publisher than the broadcasts and the end of the channel. -/
theorem audience_of_step (hstep : l.step a = some l') :
    l'.audience = l.audience ∨
      ∃ b, l.audience.step b = some l'.audience ∧ (l.KeepsUp r a → l.audience.KeepsUp r b) := by
  cases stepped_of_step hstep with
  | cached _ _ _ _ haudience | sent _ _ haudience | removedChannel _ _ haudience =>
    exact .inr ⟨_, haudience, fun _ => trivial⟩
  | viewer a _ _ _ haudience => exact .inr ⟨a, haudience, id⟩
  | ingest | discarded => exact .inl rfl

theorem exists_run_audience (hrun : run LiveStream.step (initial streamKey events) acts = some l) :
    ∃ acts', run Audience.step {} acts' = some l.audience := by
  obtain ⟨acts', haudience, -⟩ := exists_run_component (I := fun _ => True) (C := fun _ _ => True)
    (E := fun _ _ => True) LiveStream.audience (fun _ _ _ _ _ => trivial)
    (fun _ _ _ _ _ hstep => (audience_of_step (r := 0) hstep).imp_right fun ⟨b, hb, _⟩ => ⟨b, hb, trivial⟩)
    trivial (eachStep_trivial _ _) hrun
  exact ⟨acts', haudience⟩

theorem exists_run_audience_keepsUp (hrun : run LiveStream.step (initial streamKey events) acts = some l)
    (hkeeps : EachStep LiveStream.step (KeepsUp r) (initial streamKey events) acts) :
    ∃ acts', run Audience.step {} acts' = some l.audience ∧ EachStep Audience.step (Audience.KeepsUp r) {} acts' :=
  exists_run_component (I := fun _ => True) (f := LiveStream.audience) (fun _ _ _ _ _ => trivial)
    (fun _ _ _ _ ha hstep => (audience_of_step hstep).imp_right fun ⟨b, hb, hkeep⟩ => ⟨b, hb, hkeep ha⟩) trivial hkeeps hrun

theorem begun_prefix_published (hrun : run LiveStream.step (initial streamKey events) acts = some l)
    (hroom : EachStep LiveStream.step Unfilled (initial streamKey events) acts) :
    l.audience.live.begun <+: published events := by
  obtain ⟨acts', hingest, hroom'⟩ := exists_run_ingest hrun hroom
  calc l.audience.live.begun
    _ <+: l.ingest.chain.state.broadcasts ++ l.ingest.chain.flvSinkTask.inFlight := (bridged_of_run hrun).begun
    _ <+: l.ingest.toChain.leaving := consuming_prefix_leaving l.ingest.toChain
    _ <+: published events := (RtmpIngest.relaying_of_run hingest hroom').shorter

end Runs

/-- A play session comes between the two steps of the first broadcast. -/
def liveSchedule : List StreamAction :=
  (publishSchedule.take 24).map .ingest ++
    [.cache, .viewer (.attach .rtmpPlay), .viewer (.readSlot 0), .viewer (.readSlot 0), .viewer (.readSlot 0), .send,
      .viewer (.start 0 1), .viewer (.recv 0 true), .ingest (.chain (.flvSink .input)), .cache, .send]

end LiveStream
end LivestreamRs.Flv
