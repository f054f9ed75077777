import LivestreamRs.Flv.TagCodec
import LivestreamRs.Foundations.FirstAfter
import LivestreamRs.Foundations.Transitions

/-! # Keyframe recovery of a player that lagged

`should_skip_while_waiting_keyframe` (`livestream-transport/src/play_keyframe.rs`) and its two callers,
`next_live_chunk` (`http_flv/server.rs`) and `PlayHandler::handle_tag_recv` (`rtmp/handler/play.rs`). After a lag a
player drops video tags until one is flagged as a keyframe. The flag is taken from the frame type alone, and sequence
headers have the frame type of a keyframe.
-/
namespace LivestreamRs.Flv
open Media Foundations
set_option autoImplicit false

/-! ## The players -/

/-- Whether the tag is skipped, and `waiting_keyframe` after it. -/
def shouldSkipWhileWaitingKeyframe (waitingKeyframe : Bool) (tag : FlvTag) : Bool × Bool :=
  if !waitingKeyframe then (false, waitingKeyframe)
  else
    match tag with
    | .video _ _ true => (false, false)
    | .video .. => (true, waitingKeyframe)
    | _ => (false, waitingKeyframe)

/-- What `recv` of the tag channel returns. -/
inductive RecvResult
  | ok (tag : FlvTag)
  | lagged (skipped : ℕ)
  | closed
  deriving DecidableEq

inductive Turn
  | waits
  | forwards (tag : FlvTag)
  | ends
  deriving DecidableEq

/-- What a player does with a result, and `waiting_keyframe` after it. A tag that cannot be delivered ends the
stream. -/
def onRecv (delivers : FlvTag → Bool) (waitingKeyframe : Bool) : RecvResult → Bool × Turn
  | .ok tag =>
    match shouldSkipWhileWaitingKeyframe waitingKeyframe tag with
    | (true, waitingKeyframe) => (waitingKeyframe, .waits)
    | (false, waitingKeyframe) => (waitingKeyframe, if delivers tag then .forwards tag else .ends)
  | .lagged _ => (true, .waits)
  | .closed => (waitingKeyframe, .ends)

/-- One turn of the loop of `next_live_chunk`. -/
def nextLiveChunk (amf : ScriptDataCodec) : Bool → RecvResult → Bool × Turn :=
  onRecv fun tag => (encodeFlvTag amf tag).isOk

/-- `handle_tag_recv`, where `send_flv_tag` succeeds or not. -/
def handleTagRecv (sent : Bool) : Bool → RecvResult → Bool × Turn := onRecv fun _ => sent

inductive Player
  | httpFlv (amf : ScriptDataCodec)
  | rtmpPlay

def Player.delivers (player : Player) (sent : Bool) (tag : FlvTag) : Bool :=
  match player with
  | .httpFlv amf => (encodeFlvTag amf tag).isOk
  | .rtmpPlay => sent

def Player.turn (player : Player) (sent : Bool) : Bool → RecvResult → Bool × Turn :=
  match player with
  | .httpFlv amf => nextLiveChunk amf
  | .rtmpPlay => handleTagRecv sent

theorem Player.turn_eq (player : Player) (sent : Bool) : player.turn sent = onRecv (player.delivers sent) := by
  cases player <;> rfl

/-! ## A stream of results -/

/-- What a viewer sees: lags and tags. -/
inductive Shown
  | lag
  | tag (tag : FlvTag)
  deriving DecidableEq

def Shown.isLag : Shown → Bool
  | .lag => true
  | .tag _ => false

def Shown.isCodedVideo : Shown → Bool
  | .lag => false
  | .tag t => t.isCodedVideo

def Shown.isKeyframe : Shown → Bool
  | .lag => false
  | .tag t => t.isKeyframe

structure Viewer where
  waitingKeyframe : Bool := false
  ended : Bool := false
  -- history: what was shown, whether no coded video was since the last lag, and whether a keyframe header was
  log : List Shown := []
  awaited : Bool := false
  headerSeen : Bool := false
  deriving DecidableEq

inductive ViewerAction
  | recv (result : RecvResult) (sent : Bool)
  | cancel
  deriving DecidableEq

namespace Viewer

def afterLag (s : Viewer) : Viewer :=
  { s with waitingKeyframe := true, log := s.log ++ [.lag], awaited := true, headerSeen := false }

def afterTag (s : Viewer) (waitingKeyframe : Bool) (tag : FlvTag) : Viewer :=
  { s with
    waitingKeyframe := waitingKeyframe
    log := s.log ++ [.tag tag]
    awaited := s.awaited && !tag.isCodedVideo
    headerSeen := s.headerSeen || (tag.isKeyframe && !tag.isCodedVideo) }

def step (player : Player) (s : Viewer) : ViewerAction → Option Viewer
  | .cancel => if s.ended then none else some { s with ended := true }
  | .recv result sent =>
    if s.ended then none
    else
      match player.turn sent s.waitingKeyframe result, result with
      | (waitingKeyframe, .forwards tag), _ => some (s.afterTag waitingKeyframe tag)
      | (waitingKeyframe, .ends), _ => some { s with waitingKeyframe := waitingKeyframe, ended := true }
      | (_, .waits), .lagged _ => some s.afterLag
      | (waitingKeyframe, .waits), _ => some { s with waitingKeyframe := waitingKeyframe }

variable {player : Player} {s t : Viewer} {a : ViewerAction}

theorem shouldSkip_eq (waitingKeyframe : Bool) (tag : FlvTag) :
    shouldSkipWhileWaitingKeyframe waitingKeyframe tag =
      (waitingKeyframe && tag.isVideo && !tag.isKeyframe, waitingKeyframe && !tag.isKeyframe) := by
  cases waitingKeyframe with
  | false => rfl
  | true =>
    match tag with
    | .video _ _ true => rfl
    | .video _ _ false => rfl
    | .audio .. => rfl
    | .scriptData _ => rfl

/-- What a step is: the end of the stream, a skipped tag, a lag or a forwarded tag. -/
theorem step_cases (h : s.step player a = some t) :
    (∃ waitingKeyframe, t = { s with waitingKeyframe := waitingKeyframe, ended := true } ∧
      ∀ tag sent, a = .recv (.ok tag) sent → player.delivers sent tag = false) ∨
    (∃ tag sent, a = .recv (.ok tag) sent ∧ s.waitingKeyframe = true ∧ tag.isVideo = true ∧ tag.isKeyframe = false ∧
      t = s) ∨
    (∃ skipped sent, a = .recv (.lagged skipped) sent ∧ t = s.afterLag) ∨
    ∃ tag sent, a = .recv (.ok tag) sent ∧ player.delivers sent tag = true ∧
      (s.waitingKeyframe = true → tag.isVideo = true → tag.isKeyframe = true) ∧
      t = s.afterTag (s.waitingKeyframe && !tag.isKeyframe) tag := by
  cases hended : s.ended with
  | true => cases a <;> simp [step, hended] at h
  | false =>
    cases a with
    | cancel =>
      simp only [step, hended] at h
      exact .inl ⟨s.waitingKeyframe, (Option.some.inj h).symm, fun _ _ h => nomatch h⟩
    | recv result sent =>
      cases result with
      | lagged skipped =>
        simp only [step, hended, Player.turn_eq, onRecv] at h
        exact .inr (.inr (.inl ⟨skipped, sent, rfl, (Option.some.inj h).symm⟩))
      | closed =>
        simp only [step, hended, Player.turn_eq, onRecv] at h
        exact .inl ⟨s.waitingKeyframe, (Option.some.inj h).symm, fun _ _ h => nomatch h⟩
      | ok tag =>
        simp only [step, hended, Player.turn_eq, onRecv, shouldSkip_eq] at h
        cases hskip : s.waitingKeyframe && tag.isVideo && !tag.isKeyframe with
        | true =>
          simp only [hskip] at h
          simp only [Bool.and_eq_true, Bool.not_eq_true'] at hskip
          obtain ⟨⟨hwaiting, hvideo⟩, hkey⟩ := hskip
          refine .inr (.inl ⟨tag, sent, rfl, hwaiting, hvideo, hkey, ?_⟩)
          rw [← Option.some.inj h, hkey, Bool.not_false, Bool.and_true, ← hended]
        | false =>
          simp only [hskip] at h
          cases hdelivers : player.delivers sent tag with
          | false =>
            rw [hdelivers] at h
            refine .inl ⟨_, (Option.some.inj h).symm, fun tag' sent' heq => ?_⟩
            cases heq
            exact hdelivers
          | true =>
            rw [hdelivers] at h
            refine .inr (.inr (.inr ⟨tag, sent, rfl, hdelivers, fun hwaiting hvideo => ?_, (Option.some.inj h).symm⟩))
            simpa [hwaiting, hvideo] using hskip

/-! ## When a player recovers at a keyframe -/

/-- The first coded video tag after each lag is a keyframe. -/
def RecoversAtKeyframe (log : List Shown) : Prop := FirstAfter Shown.isLag Shown.isCodedVideo Shown.isKeyframe log

/-- No coded frame other than a keyframe follows a lag and a keyframe header before the next coded video. -/
def NoFrameAfterHeader (player : Player) (s : Viewer) : ViewerAction → Prop
  | .recv (.ok tag) sent => s.awaited = true → s.headerSeen = true → tag.isCodedVideo = true →
      player.delivers sent tag = true → tag.isKeyframe = true
  | _ => True

instance (player : Player) (s : Viewer) : (a : ViewerAction) → Decidable (NoFrameAfterHeader player s a)
  | .recv (.ok tag) sent => inferInstanceAs (Decidable (s.awaited = true → s.headerSeen = true →
      tag.isCodedVideo = true → player.delivers sent tag = true → tag.isKeyframe = true))
  | .recv (.lagged _) _ => isTrue trivial
  | .recv .closed _ => isTrue trivial
  | .cancel => isTrue trivial

/-- Between a lag and the next coded video, a player waits unless it has seen a keyframe header. -/
structure Tracks (s : Viewer) : Prop where
  awaited : s.awaited = true ↔ Pending Shown.isLag Shown.isCodedVideo s.log
  waiting : s.ended = false → s.awaited = true → s.waitingKeyframe = !s.headerSeen

theorem tracks_init : Tracks {} where
  awaited := ⟨nofun, fun h => absurd h not_pending_nil⟩
  waiting _ := nofun

theorem isVideo_of_coded {tag : FlvTag} (h : tag.isCodedVideo = true) : tag.isVideo = true := by
  cases tag with
  | video => rfl
  | audio => cases h
  | scriptData => cases h

theorem not_ended (h : s.step player a = some t) : s.ended = false := by
  cases hended : s.ended with
  | true => cases a <;> simp [step, hended] at h
  | false => rfl

theorem tracks_step (hs : s.Tracks) (h : s.step player a = some t) : t.Tracks := by
  have hended := not_ended h
  obtain ⟨_, rfl, -⟩ | ⟨tag, sent, rfl, hwaiting, hvideo, hkey, rfl⟩ | ⟨skipped, sent, rfl, rfl⟩ |
    ⟨tag, sent, rfl, hdelivers, hkey, rfl⟩ := step_cases h
  · exact ⟨hs.awaited, nofun⟩
  · exact hs
  · refine ⟨?_, fun _ _ => rfl⟩
    simp [afterLag, pending_concat, Shown.isLag]
  · refine ⟨?_, fun _ hawaited => ?_⟩
    · simp only [afterTag, pending_concat, Shown.isLag, Shown.isCodedVideo, ← hs.awaited, Bool.and_eq_true,
        Bool.not_eq_true', Bool.false_eq_true, false_or]
      exact and_comm
    · simp only [afterTag, Bool.and_eq_true, Bool.not_eq_true'] at hawaited ⊢
      rw [hs.waiting hended hawaited.1, hawaited.2]
      cases s.headerSeen <;> cases tag.isKeyframe <;> rfl

theorem recovers_step_iff (hs : s.Tracks) (h : s.step player a = some t) :
    RecoversAtKeyframe t.log ↔ RecoversAtKeyframe s.log ∧ NoFrameAfterHeader player s a := by
  have hended := not_ended h
  obtain ⟨_, rfl, hlost⟩ | ⟨tag, sent, rfl, hwaiting, hvideo, hkey, rfl⟩ | ⟨skipped, sent, rfl, rfl⟩ |
    ⟨tag, sent, rfl, hdelivers, hkey, rfl⟩ := step_cases h
  · refine (and_iff_left ?_).symm
    match a with
    | .recv (.ok tag) sent =>
      intro _ _ _ hdelivers
      rw [hlost tag sent rfl] at hdelivers
      cases hdelivers
    | .recv (.lagged _) _ => trivial
    | .recv .closed _ => trivial
    | .cancel => trivial
  · refine (and_iff_left fun hawaited hseen => ?_).symm
    -- a player that skips has seen no header
    have hflag := hs.waiting hended hawaited
    rw [hwaiting, hseen] at hflag
    cases hflag
  · simp [RecoversAtKeyframe, afterLag, firstAfter_concat, Shown.isCodedVideo, NoFrameAfterHeader]
  · rw [RecoversAtKeyframe, afterTag, firstAfter_concat, ← RecoversAtKeyframe, ← hs.awaited]
    refine and_congr_right fun _ => ⟨fun hnew hawaited _ hcoded _ => hnew hawaited hcoded, fun hnew hawaited hcoded => ?_⟩
    cases hseen : s.headerSeen with
    | true => exact hnew hawaited hseen hcoded hdelivers
    | false => exact hkey (by rw [hs.waiting hended hawaited, hseen]; rfl) (isVideo_of_coded hcoded)

end Viewer

open Viewer in
/-- Both players recover from every lag at a coded keyframe exactly when no other coded frame follows a sequence
header, flagged as a keyframe, that came after the lag. -/
theorem keyframe_recovery_iff (player : Player) (acts : List ViewerAction) (s : Viewer)
    (hrun : run (step player) {} acts = some s) :
    RecoversAtKeyframe s.log ↔ EachStep (step player) (NoFrameAfterHeader player) {} acts := by
  rw [last_iff_eachStep (I := Tracks) (P := fun s => RecoversAtKeyframe s.log) (C := NoFrameAfterHeader player)
    (fun _ _ _ hs h => tracks_step hs h) (fun _ _ _ hs h => recovers_step_iff hs h) tracks_init hrun]
  exact and_iff_right firstAfter_nil

/-- An H.264 sequence header, a keyframe and a frame that depends on others. -/
def headerTag : FlvTag := .ofVideo 0 [0x17, 0x00, 0, 0, 0, 0x01]
def keyTag : FlvTag := .ofVideo 40 [0x17, 0x01, 0, 0, 0, 0x65]
def interTag : FlvTag := .ofVideo 80 [0x27, 0x01, 0, 0, 0, 0x41]

/-- A player that lagged drops a frame, and goes on with header and keyframe. -/
theorem keyframe_recovery_lag :
    ∃ s, run (Viewer.step .rtmpPlay) {} [.recv (.lagged 3) true, .recv (.ok interTag) true,
        .recv (.ok headerTag) true, .recv (.ok keyTag) true, .recv (.ok interTag) true] = some s ∧
      s.log = [.lag, .tag headerTag, .tag keyTag, .tag interTag] ∧ Viewer.RecoversAtKeyframe s.log :=
  ⟨_, rfl, rfl, (keyframe_recovery_iff .rtmpPlay [.recv (.lagged 3) true, .recv (.ok interTag) true,
    .recv (.ok headerTag) true, .recv (.ok keyTag) true, .recv (.ok interTag) true] _ rfl).mpr (by decide)⟩

/-- A sequence header after the lag ends the wait, and the frame after it is forwarded without a keyframe, to players of
both kinds. -/
theorem inter_frame_after_header :
    (∃ s, run (Viewer.step .rtmpPlay) {} [.recv (.lagged 3) true, .recv (.ok headerTag) true,
        .recv (.ok interTag) true] = some s ∧
      s.log = [.lag, .tag headerTag, .tag interTag] ∧ ¬ Viewer.RecoversAtKeyframe s.log) ∧
    ∀ amf, ∃ s, run (Viewer.step (.httpFlv amf)) {} [.recv (.lagged 3) true, .recv (.ok headerTag) true,
        .recv (.ok interTag) true] = some s ∧
      s.log = [.lag, .tag headerTag, .tag interTag] ∧ ¬ Viewer.RecoversAtKeyframe s.log := by
  have hlost : ¬ Viewer.RecoversAtKeyframe [.lag, .tag headerTag, .tag interTag] := by
    intro h
    have hkey := h [] .lag [.tag headerTag] (.tag interTag) [] rfl rfl (by decide) (by decide)
    exact absurd hkey (by decide)
  exact ⟨⟨_, rfl, rfl, hlost⟩, fun amf => ⟨_, rfl, rfl, hlost⟩⟩

end LivestreamRs.Flv
