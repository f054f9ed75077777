import LivestreamRs.Flv.KeyframeRecovery
import LivestreamRs.Flv.LiveChannel
import LivestreamRs.Sessions.State

/-! # The FLV file header of a response

`stream_response` (`livestream-transport/src/http_flv/server.rs`) subscribes to the live channel, sends a file header
made from what `subscribe` returned, then the cached tags and then all that is broadcast. The two flags of the file
header say which kinds of tags follow, but they are fixed when the slots are read: a session is `Connected` before its
first frame reaches the pipeline (`send_to_source`, `rtmp/handler/publish.rs`), so a viewer can read the slots before
anything is in them.
-/
namespace LivestreamRs.Flv
open Media Foundations Sessions
set_option autoImplicit false

/-! ## The header -/

def encodeFlvHeader (hasAudio hasVideo : Bool) : Bytes :=
  let flags : UInt8 := (if hasAudio then 0b00000100 else 0) ||| (if hasVideo then 0b00000001 else 0)
  [0x46, 0x4C, 0x56] ++ [1] ++ [flags] ++ putU32 9 ++ putU32 0

/-- `has_audio` and `has_video` after a metadata tag. -/
def applyMetadataTracks (metadata : StreamMetadata) (tracks : Bool × Bool) : Bool × Bool :=
  (tracks.1 || metadata.audioCodecId.isSome, tracks.2 || metadata.videoCodecId.isSome)

/-- `has_audio` and `has_video` after one turn of the loop of `build_flv_header`. -/
def applyTag (tracks : Bool × Bool) : FlvTag → Bool × Bool
  | .audio .. => (true, tracks.2)
  | .video .. => (tracks.1, true)
  | .scriptData metadata => applyMetadataTracks metadata tracks

def buildFlvHeader (cachedTags : List FlvTag) : Bytes :=
  let (hasAudio, hasVideo) := cachedTags.foldl applyTag (false, false)
  encodeFlvHeader hasAudio hasVideo

namespace MediaKind

/-- The bit of the flags byte that announces the kind. -/
def flag : MediaKind → UInt8
  | .audio => 0b00000100
  | .video => 0b00000001

/-- The flag is set in a file header. -/
def announcedBy (kind : MediaKind) (header : Bytes) : Bool := header.getD 4 0 &&& kind.flag != 0

def carriedBy : MediaKind → FlvTag → Bool
  | .audio, .audio .. => true
  | .video, .video .. => true
  | _, _ => false

/-- The metadata has a codec for the kind. -/
def namedBy : MediaKind → StreamMetadata → Bool
  | .audio, metadata => metadata.audioCodecId.isSome
  | .video, metadata => metadata.videoCodecId.isSome

def slot : MediaKind → HeaderKind
  | .audio => .audio
  | .video => .video

/-- A cached tag that sets the kind's flag. -/
def setBy (kind : MediaKind) : FlvTag → Bool
  | .scriptData metadata => kind.namedBy metadata
  | tag => kind.carriedBy tag

end MediaKind

theorem foldl_applyTag (cached : List FlvTag) (tracks : Bool × Bool) :
    cached.foldl applyTag tracks =
      (tracks.1 || cached.any MediaKind.audio.setBy, tracks.2 || cached.any MediaKind.video.setBy) := by
  induction cached generalizing tracks with
  | nil => simp
  | cons tag cached ih =>
    rw [List.foldl_cons, ih, List.any_cons, List.any_cons]
    cases tag <;>
      simp [applyTag, applyMetadataTracks, MediaKind.setBy, MediaKind.carriedBy, MediaKind.namedBy, Bool.or_assoc]

theorem announcedBy_buildFlvHeader (kind : MediaKind) (cached : List FlvTag) :
    kind.announcedBy (buildFlvHeader cached) = cached.any kind.setBy := by
  have hflags : ∀ hasAudio hasVideo, MediaKind.audio.announcedBy (encodeFlvHeader hasAudio hasVideo) = hasAudio ∧
      MediaKind.video.announcedBy (encodeFlvHeader hasAudio hasVideo) = hasVideo := by
    decide
  simp only [buildFlvHeader, foldl_applyTag, Bool.false_or]
  cases kind with
  | audio => exact (hflags _ _).1
  | video => exact (hflags _ _).2

/-! ## The response -/

structure HttpFlvResponse where
  receiver : ℕ
  -- the first bytes of the body, once `subscribe` has returned
  header : Option Bytes := none
  -- the tags whose encodings follow them
  body : List FlvTag := []
  waitingKeyframe : Bool := false
  ended : Bool := false
  -- history: the tags whose broadcast had begun when each slot was read
  begunAt : HeaderKind → List FlvTag := fun _ => []

structure HttpFlvState where
  state : SessionState := .pending
  live : LiveState := {}
  -- `get_state` has answered `Connected`
  accepted : Bool := false
  response : Option HttpFlvResponse := none

inductive HttpFlvAction
  | update (new : SessionState)
  -- the two steps of `broadcast`
  | cache (tag : FlvTag)
  | send
  -- `handle_http_flv` asks for the state of the session
  | getState
  -- `subscribe` makes the receiver
  | request
  | readSlot
  -- the body up to the cached tags
  | start
  -- one turn of the loop of `next_live_chunk`
  | recv
  -- the server is cancelled or the channel is closed
  | finish

namespace HttpFlvResponse
variable (amf : ScriptDataCodec) (r : HttpFlvResponse)

/-- The body up to the cached tags: all of them, or none if one cannot be encoded. -/
def start (cachedTags : List FlvTag) : HttpFlvResponse :=
  let header := some (buildFlvHeader cachedTags)
  if cachedTags.all fun tag => (encodeFlvTag amf tag).isOk then { r with header := header, body := cachedTags }
  else { r with header := header, ended := true }

def recvResult : BroadcastRecv FlvTag → Option RecvResult
  | .item tag => some (.ok tag)
  -- how many were skipped goes to a metric only
  | .lagged => some (.lagged 0)
  | .closed => some .closed
  | .empty => none

def onRecv (result : RecvResult) : HttpFlvResponse :=
  match nextLiveChunk amf r.waitingKeyframe result with
  | (waitingKeyframe, .waits) => { r with waitingKeyframe := waitingKeyframe }
  | (waitingKeyframe, .forwards tag) => { r with waitingKeyframe := waitingKeyframe, body := r.body ++ [tag] }
  | (waitingKeyframe, .ends) => { r with waitingKeyframe := waitingKeyframe, ended := true }

end HttpFlvResponse

namespace HttpFlvState
variable (amf : ScriptDataCodec) (s : HttpFlvState)

def step : HttpFlvAction → Option HttpFlvState
  | .update new => (s.state.update new).map fun state => { s with state := state }
  | .cache tag => (s.live.step (.cache tag)).map fun live => { s with live := live }
  | .send => (s.live.step .send).map fun live => { s with live := live }
  -- in any other state it answers and is done
  | .getState => if s.state = .connected then some { s with accepted := true } else none
  | .request =>
    if s.accepted ∧ s.response.isNone then
      (s.live.step .attach).map fun live =>
        { s with live := live, response := some { receiver := s.live.channel.sender.receiverCount } }
    else none
  | .readSlot =>
    s.response.bind fun r =>
      (s.live.subscribers r.receiver).toRead.head?.bind fun k =>
        (s.live.step (.readSlot r.receiver)).map fun live =>
          { s with live := live, response := some { r with begunAt := Function.update r.begunAt k s.live.begun } }
  | .start =>
    s.response.bind fun r =>
      let subscriber := s.live.subscribers r.receiver
      if subscriber.toRead = [] ∧ r.header = none then
        some { s with response := some (r.start amf subscriber.cached) }
      else none
  | .recv =>
    s.response.bind fun r =>
      if r.header.isSome ∧ r.ended = false then
        (HttpFlvResponse.recvResult (s.live.channel.sender.recvResult r.receiver)).bind fun result =>
          (s.live.step (.recv r.receiver)).map fun live =>
            { s with live := live, response := some (r.onRecv amf result) }
      else none
  | .finish => s.response.map fun r => { s with response := some { r with ended := true } }

end HttpFlvState

/-! ## What the header is made from -/

/-- What a response is, given the channel: it was given of each slot it has read the last header begun until then, and
its header is made from all three. -/
structure HttpFlvResponse.Recorded (live : LiveState) (r : HttpFlvResponse) : Prop where
  read : ∃ done, FlvLiveChannel.slotOrder = done ++ (live.subscribers r.receiver).toRead ∧
    (live.subscribers r.receiver).cached = done.flatMap fun k => (latest headerKind k (r.begunAt k)).toList
  header : ∀ header ∈ r.header, (live.subscribers r.receiver).toRead = [] ∧
    header = buildFlvHeader (live.subscribers r.receiver).cached
  body : r.header = none → r.body = []

namespace HttpFlvResponse
variable {amf : ScriptDataCodec} {live live' : LiveState} {r : HttpFlvResponse}

theorem recorded_new (hnew : live.subscribers r.receiver = {}) (hheader : r.header = none) (hbody : r.body = []) :
    r.Recorded live where
  read := ⟨[], by rw [hnew]; rfl, by rw [hnew]; rfl⟩
  header header h := by rw [hheader] at h; cases h
  body _ := hbody

theorem Recorded.frame (h : r.Recorded live) (hsame : live'.subscribers = live.subscribers) : r.Recorded live' where
  read := hsame ▸ h.read
  header := hsame ▸ h.header
  body := h.body

/-- The slot read is the next one, so what was read before stays as it is. -/
theorem Recorded.readSlot (h : r.Recorded live) (hslots : live.SlotsLatest) {k : HeaderKind} {rest : List HeaderKind}
    (hread : (live.subscribers r.receiver).toRead = k :: rest) :
    { r with begunAt := Function.update r.begunAt k live.begun }.Recorded
      { live with subscribers := Function.update live.subscribers r.receiver (live.readSlot k rest r.receiver) } where
  read := by
    obtain ⟨done, horder, hcached⟩ := h.read
    rw [hread] at horder
    have hnodup : (done ++ k :: rest).Nodup := horder ▸ by decide
    have hk : k ∉ done := fun hmem => (List.nodup_append.mp hnodup).2.2 k hmem k List.mem_cons_self rfl
    have hdone : ∀ j ∈ done, Function.update r.begunAt k live.begun j = r.begunAt j := by
      intro j hj
      exact Function.update_of_ne (fun hjk : j = k => hk (hjk ▸ hj)) ..
    refine ⟨done ++ [k], ?_, ?_⟩
    · simp only [Function.update_self, LiveState.readSlot, List.append_assoc, List.cons_append, List.nil_append]
      exact horder
    · simp only [Function.update_self, LiveState.readSlot, List.flatMap_append, List.flatMap_singleton]
      rw [hcached, hslots k]
      congr 1
      exact List.flatMap_congr fun j hj => by rw [hdone j hj]
  header header hheader := by
    have hnil := (h.header header hheader).1
    rw [hread] at hnil
    cases hnil
  body := h.body

theorem Recorded.start (h : r.Recorded live) (hread : (live.subscribers r.receiver).toRead = [])
    (hnew : r.header = none) :
    (r.start amf (live.subscribers r.receiver).cached).Recorded live := by
  unfold HttpFlvResponse.start
  split
  · exact ⟨h.read, fun header hheader => ⟨hread, (Option.some.inj hheader).symm⟩, fun hnone => absurd hnone (by simp)⟩
  · exact ⟨h.read, fun header hheader => ⟨hread, (Option.some.inj hheader).symm⟩, fun _ => h.body hnew⟩

theorem Recorded.onRecv (h : r.Recorded live) (hsame : live'.subscribers = live.subscribers)
    (hheader : r.header.isSome) (result : RecvResult) : (r.onRecv amf result).Recorded live' := by
  have hnone : r.header ≠ none := Option.isSome_iff_ne_none.mp hheader
  have hframe := h.frame hsame
  unfold HttpFlvResponse.onRecv
  split
  · exact ⟨hframe.read, hframe.header, fun hn => absurd hn hnone⟩
  · exact ⟨hframe.read, hframe.header, fun hn => absurd hn hnone⟩
  · exact ⟨hframe.read, hframe.header, fun hn => absurd hn hnone⟩

end HttpFlvResponse

namespace HttpFlvState
variable {amf : ScriptDataCodec} {s t : HttpFlvState} {a : HttpFlvAction}

structure Invariant (s : HttpFlvState) : Prop where
  slots : s.live.SlotsLatest
  recorded : ∀ r ∈ s.response, r.Recorded s.live

theorem invariant_initial : Invariant {} where
  slots k := by cases k <;> rfl
  recorded r hr := by cases hr

/-- A step of the channel that is not one of `subscribe`. -/
theorem Invariant.frame (h : s.Invariant) {a : LiveAction} {live : LiveState} (hstep : s.live.step a = some live)
    (hsame : live.subscribers = s.live.subscribers) : { s with live := live }.Invariant where
  slots := LiveState.slotsLatest_step h.slots hstep
  recorded r hr := (h.recorded r hr).frame hsame

theorem Invariant.step (h : s.Invariant) (hstep : s.step amf a = some t) : t.Invariant := by
  cases a with
  | update new =>
    obtain ⟨state, -, rfl⟩ := Option.map_eq_some_iff.mp hstep
    exact ⟨h.slots, h.recorded⟩
  | cache | send =>
    obtain ⟨live, hlive, rfl⟩ := Option.map_eq_some_iff.mp hstep
    exact h.frame hlive (LiveState.subscribers_step hlive (by simp) (by simp))
  | getState =>
    simp only [HttpFlvState.step] at hstep
    split at hstep
    · obtain rfl := Option.some.inj hstep
      exact ⟨h.slots, h.recorded⟩
    · cases hstep
  | request =>
    simp only [HttpFlvState.step] at hstep
    split at hstep
    · obtain ⟨live, hlive, rfl⟩ := Option.map_eq_some_iff.mp hstep
      refine ⟨LiveState.slotsLatest_step h.slots hlive, fun r hr => ?_⟩
      obtain rfl := Option.some.inj hr
      obtain rfl := Option.some.inj hlive
      exact HttpFlvResponse.recorded_new (Function.update_self ..) rfl rfl
    · cases hstep
  | readSlot =>
    obtain ⟨r, hr, hstep⟩ := Option.bind_eq_some_iff.mp hstep
    obtain ⟨k, hk, hstep⟩ := Option.bind_eq_some_iff.mp hstep
    obtain ⟨live, hlive, rfl⟩ := Option.map_eq_some_iff.mp hstep
    obtain ⟨rest, hread⟩ := List.head?_eq_some_iff.mp hk
    refine ⟨LiveState.slotsLatest_step h.slots hlive, fun r' hr' => ?_⟩
    obtain rfl := Option.some.inj hr'
    simp only [LiveState.step, hread] at hlive
    obtain rfl := Option.some.inj hlive
    exact (h.recorded r hr).readSlot h.slots hread
  | start =>
    obtain ⟨r, hr, hstep⟩ := Option.bind_eq_some_iff.mp hstep
    simp only at hstep
    split at hstep
    · next hready =>
      obtain rfl := Option.some.inj hstep
      refine ⟨h.slots, fun r' hr' => ?_⟩
      obtain rfl := Option.some.inj hr'
      exact (h.recorded r hr).start hready.1 hready.2
    · cases hstep
  | recv =>
    obtain ⟨r, hr, hstep⟩ := Option.bind_eq_some_iff.mp hstep
    split at hstep
    · next hready =>
      obtain ⟨result, -, hstep⟩ := Option.bind_eq_some_iff.mp hstep
      obtain ⟨live, hlive, rfl⟩ := Option.map_eq_some_iff.mp hstep
      refine ⟨LiveState.slotsLatest_step h.slots hlive, fun r' hr' => ?_⟩
      obtain rfl := Option.some.inj hr'
      exact (h.recorded r hr).onRecv (LiveState.subscribers_step hlive (by simp) (by simp)) hready.1 result
    · cases hstep
  | finish =>
    obtain ⟨r, hr, rfl⟩ := Option.map_eq_some_iff.mp hstep
    refine ⟨h.slots, fun r' hr' => ?_⟩
    obtain rfl := Option.some.inj hr'
    exact ⟨(h.recorded r hr).read, (h.recorded r hr).header, (h.recorded r hr).body⟩

end HttpFlvState

/-! ## What the header announces -/

/-- The broadcast of a sequence header of the kind had begun when its slot was read, or the metadata cached when that
slot was read has a codec for it. -/
def MediaKind.Heard (kind : MediaKind) (begunAt : HeaderKind → List FlvTag) : Prop :=
  (∃ tag ∈ begunAt kind.slot, headerKind tag = some kind.slot) ∨
    ∃ metadata, latest headerKind .metadata (begunAt .metadata) = some (.scriptData metadata) ∧
      kind.namedBy metadata = true

/-- Every kind of tag in the body is announced by the header. -/
def HttpFlvResponse.Announces (r : HttpFlvResponse) : Prop :=
  ∀ header ∈ r.header, ∀ kind : MediaKind, (∃ tag ∈ r.body, kind.carriedBy tag = true) → kind.announcedBy header = true

theorem of_latest {k : HeaderKind} {log : List FlvTag} {tag : FlvTag} (h : latest headerKind k log = some tag) :
    tag.isSequenceHeader = true ∧ kindOf tag = k := by
  have hkind := (mem_of_latest h).2
  rw [headerKind] at hkind
  split at hkind
  · next hheader => exact ⟨hheader, Option.some.inj hkind⟩
  · cases hkind

/-- A tag sets the flag of its own kind only, unless it is metadata. -/
theorem MediaKind.setBy_iff (kind : MediaKind) (tag : FlvTag) :
    kind.setBy tag = true ↔ kindOf tag = kind.slot ∨ ∃ metadata, tag = .scriptData metadata ∧ kind.namedBy metadata = true := by
  cases kind <;> cases tag <;> simp [setBy, carriedBy, kindOf, slot]

theorem any_setBy_iff_heard (kind : MediaKind) (begunAt : HeaderKind → List FlvTag) :
    (FlvLiveChannel.slotOrder.flatMap fun k => (latest headerKind k (begunAt k)).toList).any kind.setBy = true ↔
      kind.Heard begunAt := by
  rw [List.any_eq_true]
  simp only [List.mem_flatMap, Option.mem_toList]
  constructor
  · rintro ⟨tag, ⟨k, -, hk⟩, hset⟩
    have hkind := (of_latest hk).2
    rcases (kind.setBy_iff tag).mp hset with hslot | ⟨metadata, rfl, hnamed⟩
    · obtain rfl : k = kind.slot := hkind.symm.trans hslot
      exact .inl ⟨tag, mem_of_latest hk⟩
    · obtain rfl : .metadata = k := hkind
      exact .inr ⟨metadata, hk, hnamed⟩
  · have hall : ∀ k, k ∈ FlvLiveChannel.slotOrder := by
      intro k
      cases k <;> decide
    rintro (hheader | ⟨metadata, hlatest, hnamed⟩)
    · obtain ⟨tag, htag⟩ := exists_eq_latest_iff.mpr hheader
      exact ⟨tag, ⟨kind.slot, hall _, htag⟩, (kind.setBy_iff tag).mpr (.inl (of_latest htag).2)⟩
    · exact ⟨_, ⟨.metadata, hall _, hlatest⟩, (kind.setBy_iff _).mpr (.inr ⟨metadata, rfl, hnamed⟩)⟩

theorem HttpFlvResponse.Recorded.announcedBy_iff {live : LiveState} {r : HttpFlvResponse} (h : r.Recorded live)
    {header : Bytes} (hheader : r.header = some header) (kind : MediaKind) :
    kind.announcedBy header = true ↔ kind.Heard r.begunAt := by
  obtain ⟨hnil, rfl⟩ := h.header header hheader
  obtain ⟨done, horder, hcached⟩ := h.read
  rw [hnil, List.append_nil] at horder
  rw [announcedBy_buildFlvHeader, hcached, ← horder, any_setBy_iff_heard]

/-- The header announces what follows exactly when every kind of tag in the body was heard of when the slots were
read. -/
theorem fileHeader_announces_iff (amf : ScriptDataCodec) {acts : List HttpFlvAction} {s : HttpFlvState}
    {r : HttpFlvResponse} (hrun : run (HttpFlvState.step amf) {} acts = some s) (hr : s.response = some r) :
    r.Announces ↔ ∀ kind : MediaKind, (∃ tag ∈ r.body, kind.carriedBy tag = true) → kind.Heard r.begunAt := by
  have hinv : s.Invariant :=
    run_invariant (fun _ _ _ hs _ hstep => HttpFlvState.Invariant.step hs hstep) HttpFlvState.invariant_initial
      (eachStep_trivial _ acts) hrun
  have hrecorded := hinv.recorded r hr
  cases hheader : r.header with
  | none =>
    have hbody := hrecorded.body hheader
    simp [HttpFlvResponse.Announces, hheader, hbody]
  | some header =>
    constructor
    · intro h kind hcarried
      exact (hrecorded.announcedBy_iff hheader kind).mp (h header hheader kind hcarried)
    · intro h header' hheader' kind hcarried
      exact (hrecorded.announcedBy_iff hheader' kind).mpr (h kind hcarried)

/-- A codec without metadata. -/
def noMetadata : ScriptDataCodec where
  encodeScriptData _ := .error "no metadata"
  parseScriptDataMetadata _ := .error "no metadata"

/-- The viewer comes after the video header. -/
def lateRequest : List HttpFlvAction :=
  [.update .connected, .cache (.video 0 [0x17, 0, 1] true), .send, .getState, .request, .readSlot, .readSlot, .readSlot,
    .start, .cache (.video 0 [0x17, 1] true), .send, .recv]

theorem fileHeader_announces_lateRequest : ∃ s ∈ run (HttpFlvState.step noMetadata) {} lateRequest,
    ∃ r ∈ s.response, r.body = [.video 0 [0x17, 0, 1] true, .video 0 [0x17, 1] true] ∧ r.Announces := by
  have hrun : ∃ s ∈ run (HttpFlvState.step noMetadata) {} lateRequest, ∃ r ∈ s.response,
      r.body = [.video 0 [0x17, 0, 1] true, .video 0 [0x17, 1] true] ∧
        r.begunAt .video = [.video 0 [0x17, 0, 1] true] := by
    decide +kernel
  obtain ⟨s, hs, r, hr, hbody, hbegun⟩ := hrun
  refine ⟨s, hs, r, hr, hbody, (fileHeader_announces_iff noMetadata hs hr).mpr fun kind hcarried => ?_⟩
  cases kind with
  | audio =>
    rw [hbody] at hcarried
    exact absurd hcarried (by decide)
  | video => exact .inl ⟨_, by rw [MediaKind.slot, hbegun]; exact List.mem_singleton_self _, by decide⟩

/-- The viewer comes when the session is connected and nothing is broadcast yet. -/
def earlyRequest : List HttpFlvAction :=
  [.update .connected, .getState, .request, .readSlot, .readSlot, .readSlot, .start,
    .cache (.video 0 [0x17, 0, 1] true), .send, .cache (.audio 0 [0xaf, 0, 1]), .send, .recv, .recv]

/-- A header without flags is followed by tags of both kinds. -/
theorem fileHeader_omits_both_kinds : ∃ s ∈ run (HttpFlvState.step noMetadata) {} earlyRequest,
    ∃ r ∈ s.response, r.header = some (encodeFlvHeader false false) ∧
      r.body = [.video 0 [0x17, 0, 1] true, .audio 0 [0xaf, 0, 1]] ∧ ¬ r.Announces := by
  have hrun : ∃ s ∈ run (HttpFlvState.step noMetadata) {} earlyRequest, ∃ r ∈ s.response,
      r.header = some (encodeFlvHeader false false) ∧
        r.body = [.video 0 [0x17, 0, 1] true, .audio 0 [0xaf, 0, 1]] := by
    decide +kernel
  obtain ⟨s, hs, r, hr, hheader, hbody⟩ := hrun
  refine ⟨s, hs, r, hr, hheader, hbody, fun h => ?_⟩
  have hflag : MediaKind.audio.announcedBy (encodeFlvHeader false false) = true :=
    h _ hheader .audio (by rw [hbody]; decide)
  exact absurd hflag (by decide)
end LivestreamRs.Flv
