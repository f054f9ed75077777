import LivestreamRs.Media.CodecConfig

/-! # The deferred start of the HLS branch

An RTMP stream brings its codec configuration in-band. `deferred_hls_init` (`livestream-pipeline/src/factory.rs`)
reads the packets meant for the HLS branch until it has the parameters of both media types, or of one when the first
media packet comes; then it builds the branch and hands it the channel it was reading from. Here packets are
delivered one at a time, to whoever reads the channel, and the branch can be built.
-/
namespace LivestreamRs.Hls
open Media
set_option autoImplicit false

/-! ## The task -/

structure DeferredHls where
  videoParams : Option CodecParams := none
  audioParams : Option CodecParams := none
  -- the channel is handed over and the task has returned
  started : Bool := false
  -- history: the parameters of each `try_build_hls`, and the packets its segmenter received
  built : List (List CodecParams) := []
  received : List EncodedPacket := []

namespace DeferredHls
variable (s : DeferredHls)

/-- Whether both media types are known, after the header. -/
def recordSequenceHeader (pkt : EncodedPacket) : DeferredHls × Bool :=
  match codecParamsFromSequenceHeader pkt with
  | none => (s, false)
  | some (.video, params) =>
    let s := { s with videoParams := s.videoParams.or (some params) }
    (s, s.videoParams.isSome && s.audioParams.isSome)
  | some (.audio, params) =>
    let s := { s with audioParams := s.audioParams.or (some params) }
    (s, s.videoParams.isSome && s.audioParams.isSome)

def params : List CodecParams := s.videoParams.toList ++ s.audioParams.toList

/-- `spawn_deferred_hls`, after which the task returns; nothing is built from no parameters. -/
def spawnDeferredHls : DeferredHls :=
  if s.params.isEmpty then { s with started := true }
  else { s with started := true, built := s.built ++ [s.params] }

/-- One packet from the channel: an iteration of the loop of `deferred_hls_init`, or of the segmenter's. -/
def deliver (pkt : EncodedPacket) : DeferredHls :=
  if s.started then { s with received := s.received ++ [pkt] }
  else if pkt.isSequenceHeader then
    let (s, both) := s.recordSequenceHeader pkt
    if both then s.spawnDeferredHls else s
  -- the packet that starts the branch is not handed over
  else if s.videoParams.isSome || s.audioParams.isSome then s.spawnDeferredHls
  else s

def deliverAll (pkts : List EncodedPacket) : DeferredHls := pkts.foldl deliver s

end DeferredHls

/-! ## What the branch is to be given -/

/-- The parameters a packet configures a media type with. -/
def headerParams (media : MediaType) (pkt : EncodedPacket) : Option CodecParams :=
  if pkt.isSequenceHeader then
    match codecParamsFromSequenceHeader pkt with
    | some (m, params) => if m = media then some params else none
    | none => none
  else none

/-- Those of the first header that has any. -/
def firstParams (media : MediaType) (pkts : List EncodedPacket) : Option CodecParams := pkts.findSome? (headerParams media)

/-- The media packets that come when some header has been recorded; `recorded` says whether one was before. -/
def mediaDue (recorded : Bool) : List EncodedPacket → List EncodedPacket
  | [] => []
  | pkt :: pkts =>
    if pkt.isSequenceHeader then mediaDue (recorded || (configurationBytes pkt).isSome) pkts
    else if recorded then pkt :: mediaDue recorded pkts
    else mediaDue recorded pkts

/-- Each media packet comes when both media types are known, or neither; the flags say which are known before. -/
def KnownTogether (video audio : Bool) : List EncodedPacket → Prop
  | [] => True
  | pkt :: pkts =>
    if pkt.isSequenceHeader then
      KnownTogether (video || (headerParams .video pkt).isSome) (audio || (headerParams .audio pkt).isSome) pkts
    else video = audio ∧ KnownTogether video audio pkts

def media (pkts : List EncodedPacket) : List EncodedPacket := pkts.filter fun pkt => !pkt.isSequenceHeader

/-! ## One packet -/

namespace DeferredHls
variable {s : DeferredHls} {pkt : EncodedPacket}

/-- The task while it collects parameters: not both are known, and nothing is built. -/
structure Collecting (s : DeferredHls) : Prop where
  started : s.started = false
  not_both : (s.videoParams.isSome && s.audioParams.isSome) = false
  built : s.built = []
  received : s.received = []

/-- The state after a header: at most one parameter is new. -/
def recorded (s : DeferredHls) (pkt : EncodedPacket) : DeferredHls :=
  { s with
    videoParams := s.videoParams.or (headerParams .video pkt)
    audioParams := s.audioParams.or (headerParams .audio pkt) }

theorem Collecting.recordSequenceHeader (hs : s.Collecting) (h : pkt.isSequenceHeader = true) :
    s.recordSequenceHeader pkt =
      (s.recorded pkt, (s.recorded pkt).videoParams.isSome && (s.recorded pkt).audioParams.isSome) := by
  have hno := hs.not_both
  simp only [DeferredHls.recordSequenceHeader, recorded, headerParams, h, if_true]
  split
  · next hnone => simp [hnone, hno]
  · next params hsome => simp [hsome]
  · next params hsome => simp [hsome]

/-- What the loop does with a packet, in its four cases. -/
theorem Collecting.deliver_cases (hs : s.Collecting) (pkt : EncodedPacket) :
    (pkt.isSequenceHeader = true ∧ (s.recorded pkt).Collecting ∧ s.deliver pkt = s.recorded pkt) ∨
    (pkt.isSequenceHeader = true ∧ (s.recorded pkt).videoParams.isSome = true ∧
      (s.recorded pkt).audioParams.isSome = true ∧
      s.deliver pkt = { s.recorded pkt with started := true, built := [(s.recorded pkt).params] }) ∨
    (pkt.isSequenceHeader = false ∧ s.videoParams.isSome ≠ s.audioParams.isSome ∧
      s.deliver pkt = { s with started := true, built := [s.params] }) ∨
    (pkt.isSequenceHeader = false ∧ s.videoParams = none ∧ s.audioParams = none ∧ s.deliver pkt = s) := by
  cases hheader : pkt.isSequenceHeader with
  | true =>
    have hdeliver : s.deliver pkt = if (s.recorded pkt).videoParams.isSome && (s.recorded pkt).audioParams.isSome
        then (s.recorded pkt).spawnDeferredHls else s.recorded pkt := by
      simp only [deliver, hs.started, hheader, hs.recordSequenceHeader hheader, if_true, Bool.false_eq_true, if_false]
    cases hboth : (s.recorded pkt).videoParams.isSome && (s.recorded pkt).audioParams.isSome with
    | false =>
      rw [hboth, if_neg Bool.false_ne_true] at hdeliver
      exact .inl ⟨rfl, ⟨hs.started, hboth, hs.built, hs.received⟩, hdeliver⟩
    | true =>
      rw [hboth, if_pos rfl] at hdeliver
      obtain ⟨hvideo, haudio⟩ := Bool.and_eq_true_iff.mp hboth
      have hparams : (s.recorded pkt).params.isEmpty = false := by
        rw [params]
        obtain ⟨v, hv⟩ := Option.isSome_iff_exists.mp hvideo
        simp [hv]
      have hbuilt : (s.recorded pkt).built = [] := hs.built
      rw [spawnDeferredHls, hparams, if_neg Bool.false_ne_true, hbuilt, List.nil_append] at hdeliver
      exact .inr (.inl ⟨rfl, hvideo, haudio, hdeliver⟩)
  | false =>
    have hno := hs.not_both
    have hbuilt := hs.built
    have hdeliver : s.deliver pkt = if s.videoParams.isSome || s.audioParams.isSome then s.spawnDeferredHls else s := by
      simp only [deliver, hs.started, hheader, Bool.false_eq_true, if_false]
    cases hvideo : s.videoParams with
    | none =>
      cases haudio : s.audioParams with
      | none => exact .inr (.inr (.inr ⟨rfl, rfl, rfl, by simp [hdeliver, hvideo, haudio]⟩))
      | some a =>
        exact .inr (.inr (.inl ⟨rfl, by simp, by simp [hdeliver, spawnDeferredHls, params, hvideo, haudio, hbuilt]⟩))
    | some v =>
      cases haudio : s.audioParams with
      | none =>
        exact .inr (.inr (.inl ⟨rfl, by simp, by simp [hdeliver, spawnDeferredHls, params, hvideo, haudio, hbuilt]⟩))
      | some a => simp [hvideo, haudio] at hno

theorem deliverAll_started (h : s.started = true) (pkts : List EncodedPacket) :
    s.deliverAll pkts = { s with received := s.received ++ pkts } := by
  induction pkts generalizing s with
  | nil => simp [deliverAll]
  | cons pkt pkts ih =>
    have hdeliver : s.deliver pkt = { s with received := s.received ++ [pkt] } := by rw [deliver, if_pos h]
    have hrest : (s.deliver pkt).deliverAll pkts =
        { s.deliver pkt with received := (s.deliver pkt).received ++ pkts } := ih (by rw [hdeliver]; exact h)
    rw [deliverAll, List.foldl_cons]
    rw [deliverAll, hdeliver] at hrest
    rw [hdeliver, hrest, List.append_assoc, List.singleton_append]

/-! ## All packets -/

/-- Either the branch is not built yet, or it was built once, from the first parameters among the packets before, and
its segmenter receives all packets after. -/
theorem Collecting.deliverAll_cases (hs : s.Collecting) (pkts : List EncodedPacket) :
    ((s.deliverAll pkts).built = [] ∧ (s.deliverAll pkts).received = []) ∨
    ∃ before after, pkts = before ++ after ∧ (s.deliverAll pkts).received = after ∧
      (s.deliverAll pkts).built = [(s.videoParams.or (firstParams .video before)).toList ++
        (s.audioParams.or (firstParams .audio before)).toList] := by
  induction pkts generalizing s with
  | nil => exact .inl ⟨hs.built, hs.received⟩
  | cons pkt pkts ih =>
    have hrest : s.deliverAll (pkt :: pkts) = (s.deliver pkt).deliverAll pkts := rfl
    have hfirst : ∀ m before, firstParams m (pkt :: before) = (headerParams m pkt).or (firstParams m before) := by
      intro m before
      rw [firstParams, List.findSome?_cons]
      cases headerParams m pkt <;> rfl
    rw [hrest]
    rcases hs.deliver_cases pkt with ⟨-, hcollect, hdeliver⟩ | ⟨-, -, -, hdeliver⟩ | ⟨hmedia, -, hdeliver⟩ |
      ⟨hmedia, -, -, hdeliver⟩
    · rw [hdeliver]
      rcases ih hcollect with hnone | ⟨before, after, rfl, hreceived, hbuilt⟩
      · exact .inl hnone
      · refine .inr ⟨pkt :: before, after, rfl, hreceived, ?_⟩
        rw [hbuilt, hfirst, hfirst, ← Option.or_assoc, ← Option.or_assoc]
        rfl
    · rw [hdeliver, deliverAll_started rfl]
      refine .inr ⟨[pkt], pkts, rfl, ?_, ?_⟩
      · simp [recorded, hs.received]
      · rw [hfirst, hfirst]
        simp [firstParams, params, recorded]
    · rw [hdeliver, deliverAll_started rfl]
      refine .inr ⟨[pkt], pkts, rfl, ?_, ?_⟩
      · simp [hs.received]
      · rw [hfirst, hfirst]
        simp [firstParams, headerParams, hmedia, params]
    · rw [hdeliver]
      rcases ih hs with hnone | ⟨before, after, rfl, hreceived, hbuilt⟩
      · exact .inl hnone
      · refine .inr ⟨pkt :: before, after, rfl, hreceived, ?_⟩
        rw [hbuilt, hfirst, hfirst]
        simp [headerParams, hmedia]

theorem mediaDue_true (pkts : List EncodedPacket) : mediaDue true pkts = media pkts := by
  induction pkts with
  | nil => rfl
  | cons pkt pkts ih => cases h : pkt.isSequenceHeader <;> simp [mediaDue, media, h, ih]

theorem knownTogether_true (pkts : List EncodedPacket) : KnownTogether true true pkts := by
  induction pkts with
  | nil => trivial
  | cons pkt pkts ih => cases h : pkt.isSequenceHeader <;> simp [KnownTogether, h, ih]

/-- A header is recorded if it has parameters for one of the media types. -/
theorem isSome_recorded (h : pkt.isSequenceHeader = true) :
    ((s.recorded pkt).videoParams.isSome || (s.recorded pkt).audioParams.isSome) =
      ((s.videoParams.isSome || s.audioParams.isSome) || (configurationBytes pkt).isSome) := by
  have hparams : (configurationBytes pkt).isSome =
      ((headerParams .video pkt).isSome || (headerParams .audio pkt).isSome) := by
    simp only [headerParams, h, if_true, codecParamsFromSequenceHeader]
    cases configurationBytes pkt with
    | none => rfl
    | some c => cases pkt.codec.mediaType <;> simp
  rw [hparams, recorded, Option.isSome_or, Option.isSome_or]
  ac_rfl

theorem Collecting.received_iff (hs : s.Collecting) (pkts : List EncodedPacket) :
    media (s.deliverAll pkts).received = mediaDue (s.videoParams.isSome || s.audioParams.isSome) pkts ↔
      KnownTogether s.videoParams.isSome s.audioParams.isSome pkts := by
  induction pkts generalizing s with
  | nil => simp [deliverAll, hs.received, media, mediaDue, KnownTogether]
  | cons pkt pkts ih =>
    have hrest : s.deliverAll (pkt :: pkts) = (s.deliver pkt).deliverAll pkts := rfl
    have hrecorded : ∀ m, (s.recorded m).videoParams.isSome = (s.videoParams.isSome || (headerParams .video m).isSome) ∧
        (s.recorded m).audioParams.isSome = (s.audioParams.isSome || (headerParams .audio m).isSome) :=
      fun m => ⟨Option.isSome_or .., Option.isSome_or ..⟩
    rw [hrest]
    rcases hs.deliver_cases pkt with ⟨hheader, hcollect, hdeliver⟩ | ⟨hheader, hvideo, haudio, hdeliver⟩ |
      ⟨hmedia, hone, hdeliver⟩ | ⟨hmedia, hvideo, haudio, hdeliver⟩
    · rw [hdeliver, mediaDue, if_pos hheader, KnownTogether, if_pos hheader, ← isSome_recorded hheader,
        ← (hrecorded pkt).1, ← (hrecorded pkt).2]
      exact ih hcollect
    · rw [hdeliver, deliverAll_started rfl, mediaDue, if_pos hheader, KnownTogether, if_pos hheader,
        ← isSome_recorded hheader, ← (hrecorded pkt).1, ← (hrecorded pkt).2, hvideo, haudio, Bool.or_true, mediaDue_true]
      simp [recorded, hs.received, knownTogether_true]
    · -- the packet that starts the branch is lost
      have hrec : (s.videoParams.isSome || s.audioParams.isSome) = true := by
        cases hv : s.videoParams.isSome <;> cases ha : s.audioParams.isSome <;> simp_all
      rw [hdeliver, deliverAll_started rfl, mediaDue, KnownTogether, hrec, mediaDue_true]
      simp only [hmedia, hs.received, List.nil_append, Bool.false_eq_true, if_false, if_true, hone, false_and, iff_false]
      intro heq
      exact absurd (congrArg List.length heq) (by simp)
    · rw [hdeliver, mediaDue, KnownTogether]
      simp only [hmedia, Bool.false_eq_true, if_false]
      have hrec : (s.videoParams.isSome || s.audioParams.isSome) = false := by simp [hvideo, haudio]
      rw [hrec, if_neg Bool.false_ne_true, ← hrec, ih hs]
      simp [hvideo, haudio]

theorem collecting_initial : Collecting {} := ⟨rfl, rfl, rfl, rfl⟩

/-- The branch is built at most once, from the first parameters of each media type before the start. Its segmenter
gets every media packet since the first recorded header exactly when none of them comes while one media type is known
and the other is not: the first such packet starts the branch and is lost. -/
theorem deferred_start (pkts : List EncodedPacket) :
    let s := deliverAll {} pkts
    s.built.length ≤ 1 ∧
    (∀ params ∈ s.built, ∃ before after, pkts = before ++ after ∧ s.received = after ∧
      params = (firstParams .video before).toList ++ (firstParams .audio before).toList) ∧
    (media s.received = mediaDue false pkts ↔ KnownTogether false false pkts) := by
  intro s
  refine ⟨?_, ?_, collecting_initial.received_iff pkts⟩
  · rcases collecting_initial.deliverAll_cases pkts with ⟨hbuilt, -⟩ | ⟨before, after, -, -, hbuilt⟩
    · simp [s, hbuilt]
    · simp [s, hbuilt]
  · intro params hparams
    rcases collecting_initial.deliverAll_cases pkts with ⟨hbuilt, -⟩ | ⟨before, after, hsplit, hreceived, hbuilt⟩
    · rw [hbuilt] at hparams
      cases hparams
    · rw [hbuilt, List.mem_singleton] at hparams
      exact ⟨before, after, hsplit, hreceived, hparams⟩

/-- A frame of a stream without audio. -/
def videoOnly (isSequenceHeader isKeyframe : Bool) (ptsMs : ℤ) : EncodedPacket where
  codec := .h265
  streamIndex := 0
  data := .annexB [0x40]
  ptsMs := some ptsMs
  dtsMs := some ptsMs
  isKeyframe := isKeyframe
  isSequenceHeader := isSequenceHeader
  isScriptData := false
  extradata := if isSequenceHeader then some [1] else none

/-- The first keyframe of a stream without audio starts the branch and does not reach the segmenter. -/
theorem deferred_start_loses_keyframe :
    let s := deliverAll {} [videoOnly true true 0, videoOnly false true 0, videoOnly false false 40]
    s.built.length = 1 ∧ media s.received = [videoOnly false false 40] ∧
    mediaDue false [videoOnly true true 0, videoOnly false true 0, videoOnly false false 40] =
      [videoOnly false true 0, videoOnly false false 40] := by
  decide

end DeferredHls
end LivestreamRs.Hls
