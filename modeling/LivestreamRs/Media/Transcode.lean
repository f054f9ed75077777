import LivestreamRs.Foundations.Rounding
import LivestreamRs.Foundations.Transitions

/-! # The transcoder

`TranscodeProcessor` (`livestream-pipeline/src/processor/transcode.rs`), from the frames its MJPEG decoder returns to the
calls of the scaler and of the H.264 encoder. Encoder, scaler and destination frame are made when they are first needed
and then kept; only the encoder is ever made again, when the measured frame rate is far from the assumed one. The
operations of FFmpeg succeed. The numbers of type `f64` are rationals, and each operation on them is followed by a
rounding: `binary64` is that of the program. It has no infinities, which the casts saturate as they do the numbers from
`2 ^ 63` on.
-/
namespace LivestreamRs.Media
open Foundations
set_option autoImplicit false

/-! ## Frames, scaler and encoder -/

/-- `AVPixelFormat::AV_PIX_FMT_YUV420P` -/
def yuv420p : ℤ := 0

structure Frame where
  width : ℤ
  height : ℤ
  format : ℤ
  pts : Option ℤ
  deriving DecidableEq

/-- What a scaler is made for; it writes `yuv420p`. -/
structure Scaler where
  srcW : ℤ
  srcH : ℤ
  srcFmt : ℤ
  dstW : ℤ
  dstH : ℤ
  deriving DecidableEq

/-- An `AVRational` whose parts are the results of casts, which may wrap. -/
structure FrameRate where
  num : ℤ
  den : ℤ
  deriving DecidableEq

/-- What `libx264` is opened with, besides its time base of a millisecond and `tune=zerolatency`. -/
structure Encoder where
  width : ℤ
  height : ℤ
  bitRate : ℤ
  gopFrames : ℤ
  framerate : FrameRate
  preset : String
  deriving DecidableEq

structure TranscodeConfig where
  bitrateKbps : ℕ := 4096
  preset : String := "medium"
  gopSecs : ℚ := 2
  -- otherwise that of the source
  fps : Option ℚ := none

/-! ## The arithmetic of `f64` and of casts -/

/-- `f64 as i64` and `f64 as i32`: towards zero, and saturating. -/
def truncTo (bits : ℕ) (x : ℚ) : ℤ := max (-2 ^ (bits - 1)) (min (2 ^ (bits - 1) - 1) (x.num.tdiv x.den))

/-- `f64::round`: halves away from zero. -/
def roundAway (x : ℚ) : ℚ := if 0 ≤ x then ⌊x + 1 / 2⌋ else -⌊-x + 1 / 2⌋

/-- The `while` loop of `fps_to_rational`. -/
def gcdLoop : ℕ → ℕ → ℕ
  | a, 0 => a
  | a, b + 1 => gcdLoop (b + 1) (a % (b + 1))
termination_by _ b => b
decreasing_by exact Nat.mod_lt _ (Nat.succ_pos _)

def fpsToRational (fl : Rounding) (fps : ℚ) : FrameRate :=
  let num := (truncTo 64 (max 1 (roundAway (fl (fps * 1000))))).toNat
  let a := gcdLoop num 1000
  { num := Int.bmod (num / a) (2 ^ 32), den := Int.bmod (1000 / a) (2 ^ 32) }

def TranscodeConfig.createEncoder (fl : Rounding) (cfg : TranscodeConfig) (ew eh : ℤ) (fps : ℚ) : Encoder :=
  { width := ew
    height := eh
    bitRate := Int.bmod (cfg.bitrateKbps * 1000 % 2 ^ 64) (2 ^ 64)
    gopFrames := truncTo 32 (max 1 (roundAway (fl (cfg.gopSecs * fps))))
    framerate := fpsToRational fl fps
    preset := cfg.preset }

/-- The `interval_ms` of `should_keep_frame`. -/
def intervalMs (fl : Rounding) (fps : ℚ) : ℤ := truncTo 64 (fl (1000 / fps))

/-! ## The processor -/

structure TranscodeState where
  encoder : Option Encoder := none
  scaler : Option Scaler := none
  dstFrame : Option Frame := none
  lastPts : ℤ := 0
  framesSinceInit : ℕ := 0
  -- `i64::MIN`
  lastKeptSlot : ℤ := -2 ^ 63
  fpsAssumed : ℚ := 30
  minDeltaMs : Option ℤ := none
  deriving DecidableEq

/-- `n & !1` -/
def evenFloor (n : ℤ) : ℤ := n - n % 2

/-- A frame the encoder takes as it is. -/
def Frame.direct (frame : Frame) : Bool :=
  frame.format == yuv420p && frame.width == evenFloor frame.width && frame.height == evenFloor frame.height

namespace TranscodeState
variable (fl : Rounding) (cfg : TranscodeConfig) (s : TranscodeState)

/-- The frame rate `maybe_recalibrate_encoder` opens a new encoder with, if it does. -/
def recalibratedFps : Option ℚ :=
  if cfg.fps.isSome || decide (5 < s.framesSinceInit) then none
  else
    s.minDeltaMs.bind fun delta =>
      let derived := fl (1000 / fl delta)
      let drift := fl (|fl (derived - s.fpsAssumed)| / s.fpsAssumed)
      if drift ≤ fl (1 / 10) then none else some derived

def openEncoder (ew eh : ℤ) (fps : ℚ) : TranscodeState × Encoder :=
  let encoder := cfg.createEncoder fl ew eh fps
  ({ s with encoder := some encoder, fpsAssumed := fps }, encoder)

/-- The encoder of a frame: the first one, one with another frame rate, or the one there is. -/
def frameEncoder (ew eh : ℤ) : TranscodeState × Encoder :=
  match s.encoder with
  | none => s.openEncoder fl cfg ew eh (cfg.fps.getD 30)
  | some encoder =>
    match s.recalibratedFps fl cfg with
    | some derived => s.openEncoder fl cfg ew eh derived
    | none => (s, encoder)

/-- The calls `encode_frame` makes for a frame: the scaler and what it is given, the encoder and what it is sent. -/
structure Calls where
  scale : Option (Scaler × Frame)
  encoder : Encoder
  sent : Frame
  deriving DecidableEq

/-- The conversion of a frame that is not direct, and its result. -/
def convert (frame : Frame) (ew eh : ℤ) : TranscodeState × Scaler × Frame :=
  let scaler := s.scaler.getD
    { srcW := frame.width, srcH := frame.height, srcFmt := frame.format, dstW := ew, dstH := eh }
  let dst := s.dstFrame.getD { width := ew, height := eh, format := yuv420p, pts := none }
  -- the scaler does not copy the timestamp
  let dst := { dst with pts := some (frame.pts.getD s.lastPts) }
  ({ s with scaler := some scaler, dstFrame := some dst }, scaler, dst)

/-- `encode_frame`; `none` where it bails out. -/
def encodeFrame (frame : Frame) : Option (TranscodeState × Calls) :=
  if frame.width ≤ 0 ∨ frame.height ≤ 0 then none
  else
    let ew := evenFloor frame.width
    let eh := evenFloor frame.height
    let (s, encoder) := s.frameEncoder fl cfg ew eh
    if frame.direct then some (s, { scale := none, encoder := encoder, sent := frame })
    else
      let (s, scaler, dst) := s.convert frame ew eh
      some (s, { scale := some (scaler, frame), encoder := encoder, sent := dst })

/-- What `should_keep_frame` does with a frame: `last_kept_slot` is set for one that is kept. -/
inductive Kept
  | keep (s : TranscodeState)
  | drop
  -- division by an interval of zero
  | panic

def shouldKeepFrame (pts : ℤ) : Kept :=
  match cfg.fps with
  | none => .keep s
  | some fps =>
    if intervalMs fl fps = 0 then .panic
    else
      let slot := pts.tdiv (intervalMs fl fps)
      if 0 < s.framesSinceInit ∧ slot ≤ s.lastKeptSlot then .drop else .keep { s with lastKeptSlot := slot }

/-- The cadence of the source, measured while the encoder is young. -/
def measureCadence (prevPts pts : ℤ) : TranscodeState :=
  if cfg.fps = none ∧ 0 < s.framesSinceInit ∧ s.framesSinceInit ≤ 5 ∧ 5 ≤ pts - prevPts then
    { s with minDeltaMs := some ((s.minDeltaMs.map (min · (pts - prevPts))).getD (pts - prevPts)) }
  else s

inductive Prepared
  | encode (s : TranscodeState) (frame : Frame)
  | drop (s : TranscodeState)
  | panic

/-- `process_frame` before it calls `encode_frame`, and what it calls it with. -/
def prepareFrame (frame : Frame) : Prepared :=
  let pts := frame.pts.getD (s.lastPts + 33)
  let s' := { s with lastPts := pts }
  match s'.shouldKeepFrame fl cfg pts with
  | .panic => .panic
  | .drop => .drop s'
  | .keep s' => .encode (s'.measureCadence cfg s.lastPts pts) { frame with pts := some pts }

/-- `process_frame`: the state after a frame and the calls made for it; `none` where it panics. -/
def processFrame (frame : Frame) : Option (TranscodeState × Option Calls) :=
  match s.prepareFrame fl cfg frame with
  | .panic => none
  | .drop s => some (s, none)
  | .encode s frame =>
    match s.encodeFrame fl cfg frame with
    -- logged, and the frame is dropped
    | none => some (s, none)
    | some (s, calls) => some ({ s with framesSinceInit := s.framesSinceInit + 1 }, some calls)

def step (frame : Frame) : Option TranscodeState := (s.processFrame fl cfg frame).map Prod.fst

/-! ## One frame -/

variable {fl cfg s}

/-- The encoder, scaler and destination frame of one state are those of another. -/
structure SameCodecs (s t : TranscodeState) : Prop where
  encoder : t.encoder = s.encoder
  scaler : t.scaler = s.scaler
  dstFrame : t.dstFrame = s.dstFrame

/-- A frame has the size and format of another. -/
def SameShape (shape frame : Frame) : Prop :=
  frame.width = shape.width ∧ frame.height = shape.height ∧ frame.format = shape.format

theorem SameShape.symm {shape frame : Frame} (h : SameShape shape frame) : SameShape frame shape :=
  ⟨h.1.symm, h.2.1.symm, h.2.2.symm⟩

theorem SameShape.trans {shape frame frame' : Frame} (h : SameShape shape frame) (h' : SameShape frame frame') :
    SameShape shape frame' := ⟨h'.1.trans h.1, h'.2.1.trans h.2.1, h'.2.2.trans h.2.2⟩

theorem prepareFrame_encode {frame frame' : Frame} {s' : TranscodeState}
    (h : s.prepareFrame fl cfg frame = .encode s' frame') :
    SameCodecs s s' ∧ SameShape frame frame' := by
  simp only [prepareFrame, shouldKeepFrame] at h
  split at h
  · cases h
  · cases h
  · next s'' hkept =>
    injection h with hs hframe
    have hsame : SameCodecs s s'' := by
      split at hkept
      · injection hkept with hkept
        subst hkept
        exact ⟨rfl, rfl, rfl⟩
      · split at hkept
        · cases hkept
        · split at hkept
          · cases hkept
          · injection hkept with hkept
            subst hkept
            exact ⟨rfl, rfl, rfl⟩
    subst hs hframe
    refine ⟨?_, rfl, rfl, rfl⟩
    unfold measureCadence
    split
    · exact ⟨hsame.encoder, hsame.scaler, hsame.dstFrame⟩
    · exact hsame

theorem prepareFrame_drop {frame : Frame} {s' : TranscodeState} (h : s.prepareFrame fl cfg frame = .drop s') :
    SameCodecs s s' := by
  simp only [prepareFrame] at h
  split at h
  · cases h
  · injection h with h
    subst h
    exact ⟨rfl, rfl, rfl⟩
  · cases h

/-- What a frame can do: nothing to the codecs, or a call of `encode_frame`. -/
theorem processFrame_cases {frame : Frame} {t : TranscodeState} {calls : Option Calls}
    (h : s.processFrame fl cfg frame = some (t, calls)) :
    (calls = none ∧ SameCodecs s t) ∨
    ∃ s' frame' t' made, s.prepareFrame fl cfg frame = .encode s' frame' ∧ s'.encodeFrame fl cfg frame' = some (t', made) ∧
      calls = some made ∧ SameCodecs t' t := by
  simp only [processFrame] at h
  split at h
  · cases h
  · next hprepare =>
    obtain ⟨hs, hcalls⟩ := Prod.mk.inj (Option.some.inj h)
    exact .inl ⟨hcalls.symm, hs ▸ prepareFrame_drop hprepare⟩
  · next s' frame' hprepare =>
    split at h
    · injection h with h
      injection h with hs hcalls
      exact .inl ⟨hcalls.symm, hs ▸ (prepareFrame_encode hprepare).1⟩
    · next t' made hencode =>
      obtain ⟨hs, hcalls⟩ := Prod.mk.inj (Option.some.inj h)
      refine .inr ⟨s', frame', t', made, hprepare, hencode, hcalls.symm, ?_⟩
      subst hs
      exact ⟨rfl, rfl, rfl⟩

/-- What depends on the codecs only and is kept by `encode_frame` is kept by every frame. -/
theorem step_keeps {I : TranscodeState → Prop} {frame : Frame} {t : TranscodeState}
    (hcodecs : ∀ u v, SameCodecs u v → I u → I v)
    (hencode : ∀ u frame' v calls, SameShape frame frame' → u.encodeFrame fl cfg frame' = some (v, calls) → I u → I v)
    (hs : I s) (h : s.step fl cfg frame = some t) : I t := by
  obtain ⟨⟨t', calls⟩, hprocess, rfl⟩ := Option.map_eq_some_iff.mp h
  rcases processFrame_cases hprocess with ⟨-, hsame⟩ | ⟨s', frame', v, made, hprepare, hmade, -, hsame⟩
  · exact hcodecs _ _ hsame hs
  · obtain ⟨hsame', hshape⟩ := prepareFrame_encode hprepare
    exact hcodecs _ _ hsame (hencode _ _ _ _ hshape hmade (hcodecs _ _ hsame' hs))

/-! ## Geometry -/

/-- The scaler was made for frames like this one. -/
def MadeFor (scaler : Scaler) (frame : Frame) : Prop :=
  frame.width = scaler.srcW ∧ frame.height = scaler.srcH ∧ frame.format = scaler.srcFmt

/-- The encoder was opened for the size of the frame, rounded down to even. -/
def OpenedFor (encoder : Encoder) (frame : Frame) : Prop :=
  encoder.width = evenFloor frame.width ∧ encoder.height = evenFloor frame.height

/-- Scaler and encoder are given what they were made for, and the encoder is one for this frame. -/
structure Calls.Consistent (calls : Calls) (frame : Frame) : Prop where
  scale : ∀ scaler source, calls.scale = some (scaler, source) → MadeFor scaler source
  sent : calls.sent.width = calls.encoder.width ∧ calls.sent.height = calls.encoder.height
  encoder : OpenedFor calls.encoder frame

/-- The frame fits the encoder that stays open, and the scaler if it has to be converted. -/
structure Fits (fl : Rounding) (cfg : TranscodeConfig) (s : TranscodeState) (frame : Frame) : Prop where
  encoder : ∀ encoder, s.encoder = some encoder → s.recalibratedFps fl cfg = none → OpenedFor encoder frame
  scaler : frame.direct = false → ∀ scaler, s.scaler = some scaler → MadeFor scaler frame

/-- The destination frame is made together with the scaler, for its rounded source. -/
inductive Paired : Option Scaler → Option Frame → Prop
  | neither : Paired none none
  | both {scaler : Scaler} {dst : Frame} (hwidth : dst.width = evenFloor scaler.srcW)
      (hheight : dst.height = evenFloor scaler.srcH) : Paired (some scaler) (some dst)

theorem frameEncoder_kept (fl : Rounding) (cfg : TranscodeConfig) (s : TranscodeState) (ew eh : ℤ) :
    (s.frameEncoder fl cfg ew eh).1.scaler = s.scaler ∧ (s.frameEncoder fl cfg ew eh).1.dstFrame = s.dstFrame := by
  unfold frameEncoder
  split
  · exact ⟨rfl, rfl⟩
  · split <;> exact ⟨rfl, rfl⟩

theorem frameEncoder_openedFor (frame : Frame) :
    OpenedFor (s.frameEncoder fl cfg (evenFloor frame.width) (evenFloor frame.height)).2 frame ↔
      ∀ encoder, s.encoder = some encoder → s.recalibratedFps fl cfg = none → OpenedFor encoder frame := by
  unfold frameEncoder
  split
  · next hnone => exact iff_of_true ⟨rfl, rfl⟩ fun encoder h => by rw [hnone] at h; cases h
  · next encoder hencoder =>
    split
    · next hfps => exact iff_of_true ⟨rfl, rfl⟩ fun encoder _ h => by rw [hfps] at h; cases h
    · next hfps =>
      refine ⟨fun h other hother _ => ?_, fun h => h encoder hencoder hfps⟩
      obtain rfl := Option.some.inj (hencoder.symm.trans hother)
      exact h

/-- Frames eleven milliseconds apart, then ten: the drift of a tenth is rounded up, and the encoder is opened again. -/
example : (({ framesSinceInit := 2, fpsAssumed := Rounding.binary64 (1000 / 11), minDeltaMs := some 10 } :
    TranscodeState).recalibratedFps .binary64 {}).isSome = true := by
  decide +kernel

theorem direct_even {frame : Frame} (h : frame.direct = true) :
    frame.width = evenFloor frame.width ∧ frame.height = evenFloor frame.height := by
  simp only [Frame.direct, Bool.and_eq_true, beq_iff_eq] at h
  exact ⟨h.1.2, h.2⟩

/-- `encode_frame` where it does not bail out. -/
theorem encodeFrame_cases {frame : Frame} {t : TranscodeState} {calls : Calls}
    (h : s.encodeFrame fl cfg frame = some (t, calls)) :
    let opened := s.frameEncoder fl cfg (evenFloor frame.width) (evenFloor frame.height)
    let converted := opened.1.convert frame (evenFloor frame.width) (evenFloor frame.height)
    (frame.direct = true ∧ t = opened.1 ∧ calls = { scale := none, encoder := opened.2, sent := frame }) ∨
    (frame.direct = false ∧ t = converted.1 ∧
      calls = { scale := some (converted.2.1, frame), encoder := opened.2, sent := converted.2.2 }) := by
  simp only [encodeFrame] at h
  split at h
  · cases h
  · split at h
    · next hdirect =>
      obtain ⟨ht, hcalls⟩ := Prod.mk.inj (Option.some.inj h)
      exact .inl ⟨hdirect, ht.symm, hcalls.symm⟩
    · next hdirect =>
      obtain ⟨ht, hcalls⟩ := Prod.mk.inj (Option.some.inj h)
      exact .inr ⟨Bool.eq_false_iff.mpr hdirect, ht.symm, hcalls.symm⟩

theorem convert_paired (h : Paired s.scaler s.dstFrame) (frame : Frame) :
    let converted := s.convert frame (evenFloor frame.width) (evenFloor frame.height)
    Paired converted.1.scaler converted.1.dstFrame ∧
      converted.2.2.width = evenFloor converted.2.1.srcW ∧ converted.2.2.height = evenFloor converted.2.1.srcH := by
  unfold convert
  generalize s.scaler = scaler at h ⊢
  generalize s.dstFrame = dst at h ⊢
  cases h with
  | neither => exact ⟨.both rfl rfl, rfl, rfl⟩
  | both hwidth hheight => exact ⟨.both hwidth hheight, hwidth, hheight⟩

theorem convert_madeFor (frame : Frame) (ew eh : ℤ) :
    MadeFor (s.convert frame ew eh).2.1 frame ↔ ∀ scaler, s.scaler = some scaler → MadeFor scaler frame := by
  cases hscaler : s.scaler with
  | none => exact iff_of_true (by simp [convert, hscaler, MadeFor]) nofun
  | some scaler => simp [convert, hscaler]

/-- The calls for a frame are consistent exactly when the frame fits. -/
theorem consistent_iff_fits {frame : Frame} {t : TranscodeState} {calls : Calls} (hpaired : Paired s.scaler s.dstFrame)
    (h : s.encodeFrame fl cfg frame = some (t, calls)) : calls.Consistent frame ↔ s.Fits fl cfg frame := by
  obtain ⟨hscaler, hdst⟩ := frameEncoder_kept fl cfg s (evenFloor frame.width) (evenFloor frame.height)
  rcases encodeFrame_cases h with ⟨hdirect, -, rfl⟩ | ⟨hdirect, -, rfl⟩
  · obtain ⟨hwidth, hheight⟩ := direct_even hdirect
    constructor
    · exact fun hc => ⟨(frameEncoder_openedFor frame).mp hc.encoder, fun hnot => by rw [hdirect] at hnot; cases hnot⟩
    · intro hfits
      have hopened := (frameEncoder_openedFor frame).mpr hfits.encoder
      refine ⟨fun scaler source hscale => ?_, ⟨hwidth.trans hopened.1.symm, hheight.trans hopened.2.symm⟩, hopened⟩
      cases hscale
  · rw [← hscaler, ← hdst] at hpaired
    obtain ⟨-, hwidth, hheight⟩ := convert_paired hpaired frame
    constructor
    · intro hc
      refine ⟨(frameEncoder_openedFor frame).mp hc.encoder, fun _ => ?_⟩
      rw [← hscaler, ← convert_madeFor frame (evenFloor frame.width) (evenFloor frame.height)]
      exact hc.scale _ frame rfl
    · intro hfits
      have hopened := (frameEncoder_openedFor frame).mpr hfits.encoder
      have hmade := (convert_madeFor frame (evenFloor frame.width) (evenFloor frame.height)).mpr
        (hscaler ▸ hfits.scaler hdirect)
      refine ⟨fun scaler source hscale => ?_, ⟨?_, ?_⟩, hopened⟩
      · obtain ⟨rfl, rfl⟩ := Prod.mk.inj (Option.some.inj hscale)
        exact hmade
      -- what is sent has the rounded size of the scaler's source, which is the frame
      · rw [hwidth, ← hmade.1]
        exact hopened.1.symm
      · rw [hheight, ← hmade.2.1]
        exact hopened.2.symm

theorem encodeFrame_paired {frame : Frame} {t : TranscodeState} {calls : Calls} (hpaired : Paired s.scaler s.dstFrame)
    (h : s.encodeFrame fl cfg frame = some (t, calls)) : Paired t.scaler t.dstFrame := by
  obtain ⟨hscaler, hdst⟩ := frameEncoder_kept fl cfg s (evenFloor frame.width) (evenFloor frame.height)
  rw [← hscaler, ← hdst] at hpaired
  rcases encodeFrame_cases h with ⟨-, rfl, -⟩ | ⟨-, rfl, -⟩
  · exact hpaired
  · exact (convert_paired hpaired frame).1

theorem step_paired {frame : Frame} {t : TranscodeState} (hpaired : Paired s.scaler s.dstFrame)
    (h : s.step fl cfg frame = some t) : Paired t.scaler t.dstFrame := by
  refine step_keeps (I := fun s => Paired s.scaler s.dstFrame) (fun u v hsame hu => ?_)
    (fun u frame' v calls _ hmade hu => encodeFrame_paired hu hmade) hpaired h
  rw [hsame.scaler, hsame.dstFrame]
  exact hu

/-! ## Whole streams -/

/-- The calls made for a frame, if any, are consistent. -/
def KeepsGeometry (fl : Rounding) (cfg : TranscodeConfig) (s : TranscodeState) (frame : Frame) : Prop :=
  ∀ t calls, s.processFrame fl cfg frame = some (t, some calls) → calls.Consistent frame

/-- A frame that is encoded fits the codecs it finds. -/
def FrameFits (fl : Rounding) (cfg : TranscodeConfig) (s : TranscodeState) (frame : Frame) : Prop :=
  ∀ s' frame', s.prepareFrame fl cfg frame = .encode s' frame' → 0 < frame.width → 0 < frame.height → s'.Fits fl cfg frame'

theorem encodeFrame_isSome (fl : Rounding) (cfg : TranscodeConfig) (s : TranscodeState) {frame : Frame} (hwidth : 0 < frame.width)
    (hheight : 0 < frame.height) :
    ∃ t calls, s.encodeFrame fl cfg frame = some (t, calls) := by
  unfold encodeFrame
  rw [if_neg (by omega)]
  cases frame.direct <;> exact ⟨_, _, rfl⟩

theorem pos_of_encodeFrame {frame : Frame} {t : TranscodeState} {calls : Calls}
    (h : s.encodeFrame fl cfg frame = some (t, calls)) : 0 < frame.width ∧ 0 < frame.height := by
  simp only [encodeFrame] at h
  split at h
  · cases h
  · omega

theorem Calls.Consistent.congr {calls : Calls} {frame frame' : Frame} (h : calls.Consistent frame)
    (hwidth : frame'.width = frame.width) (hheight : frame'.height = frame.height) : calls.Consistent frame' :=
  ⟨h.scale, h.sent, ⟨hwidth ▸ h.encoder.1, hheight ▸ h.encoder.2⟩⟩

theorem keepsGeometry_iff_frameFits (hpaired : Paired s.scaler s.dstFrame) (frame : Frame) :
    KeepsGeometry fl cfg s frame ↔ FrameFits fl cfg s frame := by
  constructor
  · intro hkeeps s' frame' hprepare hpos hpos'
    obtain ⟨hsame, hwidth, hheight, -⟩ := prepareFrame_encode hprepare
    obtain ⟨t', calls, hencode⟩ := encodeFrame_isSome fl cfg s' (hwidth ▸ hpos) (hheight ▸ hpos')
    have hprocess := hkeeps _ calls (by simp only [processFrame, hprepare, hencode]; rfl)
    rw [← hsame.scaler, ← hsame.dstFrame] at hpaired
    exact (consistent_iff_fits hpaired hencode).mp (hprocess.congr hwidth hheight)
  · intro hfits t calls hprocess
    rcases processFrame_cases hprocess with ⟨hnone, -⟩ | ⟨s', frame', t', made, hprepare, hencode, hcalls, -⟩
    · cases hnone
    · obtain rfl := Option.some.inj hcalls
      obtain ⟨hsame, hwidth, hheight, -⟩ := prepareFrame_encode hprepare
      obtain ⟨hpos, hpos'⟩ := pos_of_encodeFrame hencode
      rw [← hsame.scaler, ← hsame.dstFrame] at hpaired
      have hfits' := hfits s' frame' hprepare (hwidth ▸ hpos) (hheight ▸ hpos')
      exact ((consistent_iff_fits hpaired hencode).mpr hfits').congr hwidth.symm hheight.symm

/-- Every call of a stream gets what its scaler and its encoder were made for, and every frame an encoder of its size,
exactly when each frame fits the encoder and the scaler that earlier frames left. -/
theorem geometry_kept_iff (fl : Rounding) (cfg : TranscodeConfig) (frames : List Frame) :
    EachStep (step fl cfg) (KeepsGeometry fl cfg) {} frames ↔ EachStep (step fl cfg) (FrameFits fl cfg) {} frames := by
  have hinit : Paired ({} : TranscodeState).scaler ({} : TranscodeState).dstFrame := .neither
  constructor
  · refine EachStep.imp (fun s frame t (hpaired : Paired s.scaler s.dstFrame) hkeeps ht => ?_) hinit
    exact ⟨step_paired hpaired ht, (keepsGeometry_iff_frameFits hpaired frame).mp hkeeps⟩
  · refine EachStep.imp (fun s frame t (hpaired : Paired s.scaler s.dstFrame) hfits ht => ?_) hinit
    exact ⟨step_paired hpaired ht, (keepsGeometry_iff_frameFits hpaired frame).mpr hfits⟩

/-- The calls made for a frame that follows others. -/
def callsAfter (fl : Rounding) (cfg : TranscodeConfig) (frames : List Frame) (frame : Frame) : Option Calls :=
  (run (step fl cfg) {} frames).bind fun s => (s.processFrame fl cfg frame).bind Prod.snd

/-- A frame of MJPEG, in the full-range format `AV_PIX_FMT_YUVJ420P`. -/
def mjpegFrame (width height pts : ℤ) : Frame := { width := width, height := height, format := 12, pts := some pts }

/-- A camera turns from 641×480 to 321×240: the second frame is given to the scaler made for the first, and what the
encoder gets is of the first one's size. -/
theorem geometry_lost_on_resize :
    (callsAfter .binary64 {} [mjpegFrame 641 480 0] (mjpegFrame 321 240 33)).map (fun calls =>
        (calls.scale.map fun call => ((call.1.srcW, call.1.srcH), (call.2.width, call.2.height)),
          (calls.encoder.width, calls.encoder.height), (calls.sent.width, calls.sent.height))) =
      some (some ((641, 480), (321, 240)), (640, 480), (640, 480)) ∧
    ¬ EachStep (step .binary64 {}) (KeepsGeometry .binary64 {}) {} [mjpegFrame 641 480 0, mjpegFrame 321 240 33] := by
  have hcalls : (callsAfter .binary64 {} [mjpegFrame 641 480 0] (mjpegFrame 321 240 33)).map (fun calls =>
        (calls.scale.map fun call => ((call.1.srcW, call.1.srcH), (call.2.width, call.2.height)),
          (calls.encoder.width, calls.encoder.height), (calls.sent.width, calls.sent.height))) =
      some (some ((641, 480), (321, 240)), (640, 480), (640, 480)) := by
    decide +kernel
  refine ⟨hcalls, fun hkeeps => ?_⟩
  obtain ⟨calls, hafter, hsizes⟩ := Option.map_eq_some_iff.mp hcalls
  obtain ⟨s, hrun, hcall⟩ := Option.bind_eq_some_iff.mp hafter
  obtain ⟨⟨t, made⟩, hprocess, rfl⟩ := Option.bind_eq_some_iff.mp hcall
  obtain ⟨u, hfirst, hsame⟩ := run_cons.mp hrun
  obtain rfl := Option.some.inj hsame
  have hconsistent := ((hkeeps u hfirst).2 t (by rw [step, hprocess]; rfl)).1 t calls hprocess
  have hwidth : calls.encoder.width = 640 := congrArg (fun sizes => sizes.2.1.1) hsizes
  exact absurd (hwidth.symm.trans hconsistent.encoder.1) (by decide)

/-! ## Streams of one shape -/

/-- The encoder and the scaler there are were made for frames of a shape. -/
structure ForShape (shape : Frame) (s : TranscodeState) : Prop where
  encoder : ∀ encoder, s.encoder = some encoder → OpenedFor encoder shape
  scaler : ∀ scaler, s.scaler = some scaler → MadeFor scaler shape

theorem OpenedFor.congr {encoder : Encoder} {shape frame : Frame} (h : OpenedFor encoder shape)
    (hshape : SameShape shape frame) : OpenedFor encoder frame := ⟨hshape.1 ▸ h.1, hshape.2.1 ▸ h.2⟩

theorem MadeFor.congr {scaler : Scaler} {shape frame : Frame} (h : MadeFor scaler shape)
    (hshape : SameShape shape frame) : MadeFor scaler frame :=
  ⟨hshape.1.trans h.1, hshape.2.1.trans h.2.1, hshape.2.2.trans h.2.2⟩

theorem ForShape.of_sameCodecs {shape : Frame} {t : TranscodeState} (h : ForShape shape s) (hsame : SameCodecs s t) :
    ForShape shape t :=
  ⟨fun encoder he => h.encoder encoder (hsame.encoder ▸ he), fun scaler hs => h.scaler scaler (hsame.scaler ▸ hs)⟩

theorem ForShape.fits {shape frame : Frame} (h : ForShape shape s) (hshape : SameShape shape frame) :
    s.Fits fl cfg frame :=
  ⟨fun encoder he _ => (h.encoder encoder he).congr hshape, fun _ scaler hs => (h.scaler scaler hs).congr hshape⟩

theorem frameEncoder_encoder (fl : Rounding) (cfg : TranscodeConfig) (s : TranscodeState) (ew eh : ℤ) :
    (s.frameEncoder fl cfg ew eh).1.encoder = some (s.frameEncoder fl cfg ew eh).2 := by
  unfold frameEncoder
  split
  · rfl
  · next hencoder =>
    split
    · rfl
    · exact hencoder

theorem ForShape.encodeFrame {shape frame : Frame} {t : TranscodeState} {calls : Calls} (h : ForShape shape s)
    (hshape : SameShape shape frame) (hencode : s.encodeFrame fl cfg frame = some (t, calls)) : ForShape shape t := by
  obtain ⟨hscaler, -⟩ := frameEncoder_kept fl cfg s (evenFloor frame.width) (evenFloor frame.height)
  have hopened : ForShape shape (s.frameEncoder fl cfg (evenFloor frame.width) (evenFloor frame.height)).1 := by
    refine ⟨fun encoder he => ?_, fun scaler hs => h.scaler scaler (hscaler ▸ hs)⟩
    obtain rfl := Option.some.inj ((frameEncoder_encoder ..).symm.trans he)
    exact ((frameEncoder_openedFor frame).mpr (h.fits hshape).encoder).congr hshape.symm
  rcases encodeFrame_cases hencode with ⟨-, rfl, -⟩ | ⟨-, rfl, -⟩
  · exact hopened
  · refine ⟨hopened.encoder, fun scaler hs => ?_⟩
    obtain rfl := Option.some.inj hs
    refine ((convert_madeFor frame _ _).mpr fun scaler hs => ?_).congr hshape.symm
    exact (hopened.scaler scaler hs).congr hshape

theorem ForShape.step {shape frame : Frame} {t : TranscodeState} (h : ForShape shape s) (hshape : SameShape shape frame)
    (hstep : s.step fl cfg frame = some t) : ForShape shape t :=
  step_keeps (fun _ _ hsame hu => hu.of_sameCodecs hsame)
    (fun _ _ _ _ hsame hmade hu => hu.encodeFrame (hshape.trans hsame) hmade) h hstep

/-- A source that keeps its size and format is transcoded consistently, whatever its timestamps. -/
theorem geometry_kept_of_sameShape (fl : Rounding) (cfg : TranscodeConfig) {shape : Frame} {frames : List Frame}
    (h : ∀ frame ∈ frames, SameShape shape frame) :
    EachStep (TranscodeState.step fl cfg) (KeepsGeometry fl cfg) {} frames := by
  have hinit : Paired ({} : TranscodeState).scaler ({} : TranscodeState).dstFrame ∧ ForShape shape {} :=
    ⟨.neither, ⟨nofun, nofun⟩⟩
  refine EachStep.imp (fun s frame t (hs : Paired s.scaler s.dstFrame ∧ ForShape shape s) hshape ht => ?_) hinit
    (eachStep_of_forall_mem h _)
  obtain ⟨hpaired, hfor⟩ := hs
  refine ⟨⟨step_paired hpaired ht, hfor.step hshape ht⟩, (keepsGeometry_iff_frameFits hpaired frame).mpr ?_⟩
  intro s' frame' hprepare _ _
  obtain ⟨hsame, hshape'⟩ := prepareFrame_encode hprepare
  exact (hfor.of_sameCodecs hsame).fits (hshape.trans hshape')

end TranscodeState
end LivestreamRs.Media
