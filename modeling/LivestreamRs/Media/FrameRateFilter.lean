import LivestreamRs.Foundations.Records
import LivestreamRs.Media.TranscodeSettings

/-! # The frame rate filter

With a configured frame rate the transcoder keeps a frame if it is in a later interval than the last one it kept. The
kept frames are the records of the interval numbers, so their times increase and no two are in one interval. The interval
is a rounded quotient cut to whole milliseconds: where it is cut, more frames are kept than the frame rate says, and where
it is rounded up to a whole number, its bounds are not those of the exact one.
-/
namespace LivestreamRs.Media
open Foundations
set_option autoImplicit false

/-- A frame the encoder takes, with a time that is not negative. -/
structure Frame.Encodable (frame : Frame) : Prop where
  width : 0 < frame.width
  height : 0 < frame.height
  pts : ∃ p, frame.pts = some p ∧ 0 ≤ p ∧ p < 2 ^ 63

def Frame.time (frame : Frame) : ℤ := frame.pts.getD 0

/-- The interval a frame is in. -/
def slotOf (fl : Rounding) (fps : ℚ) (frame : Frame) : ℤ := frame.time / intervalMs fl fps

namespace TranscodeState

/-- The frames for which `encode_frame` is called and succeeds, up to a panic. -/
def keptFrames (fl : Rounding) (cfg : TranscodeConfig) : TranscodeState → List Frame → List Frame
  | _, [] => []
  | s, frame :: frames =>
    match s.processFrame fl cfg frame with
    | none => []
    | some (t, none) => t.keptFrames fl cfg frames
    | some (t, some _) => frame :: t.keptFrames fl cfg frames

/-- The interval of the last frame that was kept. -/
def reachedSlot (s : TranscodeState) : Option ℤ := if s.framesSinceInit = 0 then none else some s.lastKeptSlot

variable {fl : Rounding} {cfg : TranscodeConfig} {s t : TranscodeState} {fps : ℚ} {frame : Frame}

theorem frameEncoder_counts (fl : Rounding) (cfg : TranscodeConfig) (s : TranscodeState) (ew eh : ℤ) :
    (s.frameEncoder fl cfg ew eh).1.framesSinceInit = s.framesSinceInit ∧
      (s.frameEncoder fl cfg ew eh).1.lastKeptSlot = s.lastKeptSlot := by
  unfold frameEncoder openEncoder
  split
  · exact ⟨rfl, rfl⟩
  · split <;> exact ⟨rfl, rfl⟩

theorem encodeFrame_counts {calls : Calls} (h : s.encodeFrame fl cfg frame = some (t, calls)) :
    t.framesSinceInit = s.framesSinceInit ∧ t.lastKeptSlot = s.lastKeptSlot := by
  have hcounts := frameEncoder_counts fl cfg s (evenFloor frame.width) (evenFloor frame.height)
  simp only [encodeFrame] at h
  split at h
  · cases h
  split at h
  · obtain ⟨rfl, -⟩ := Prod.mk.inj (Option.some.inj h)
    exact hcounts
  · obtain ⟨rfl, -⟩ := Prod.mk.inj (Option.some.inj h)
    exact hcounts

theorem measureCadence_counts (cfg : TranscodeConfig) (s : TranscodeState) (prevPts pts : ℤ) :
    (s.measureCadence cfg prevPts pts).framesSinceInit = s.framesSinceInit ∧
      (s.measureCadence cfg prevPts pts).lastKeptSlot = s.lastKeptSlot := by
  unfold measureCadence
  split <;> exact ⟨rfl, rfl⟩

theorem shouldKeepFrame_eq (hcfg : cfg.fps = some fps) (hinterval : 0 < intervalMs fl fps) (s : TranscodeState) {pts : ℤ}
    (hpts : 0 ≤ pts) :
    s.shouldKeepFrame fl cfg pts =
      if 0 < s.framesSinceInit ∧ pts / intervalMs fl fps ≤ s.lastKeptSlot then .drop
      else .keep { s with lastKeptSlot := pts / intervalMs fl fps } := by
  simp only [shouldKeepFrame, hcfg, if_neg hinterval.ne', Int.tdiv_eq_ediv_of_nonneg hpts]

theorem processFrame_drop (hcfg : cfg.fps = some fps) (hinterval : 0 < intervalMs fl fps) (hframe : frame.Encodable)
    (hcount : 0 < s.framesSinceInit) (hslot : slotOf fl fps frame ≤ s.lastKeptSlot) :
    ∃ t, s.processFrame fl cfg frame = some (t, none) ∧ t.framesSinceInit = s.framesSinceInit ∧
      t.lastKeptSlot = s.lastKeptSlot := by
  obtain ⟨p, hp, hpos, -⟩ := hframe.pts
  have htime : frame.time = p := by rw [Frame.time, hp, Option.getD_some]
  have hprepare : s.prepareFrame fl cfg frame = .drop { s with lastPts := p } := by
    have hdrop : 0 < s.framesSinceInit ∧ p / intervalMs fl fps ≤ s.lastKeptSlot := by
      rw [slotOf, htime] at hslot
      exact ⟨hcount, hslot⟩
    simp only [prepareFrame, hp, Option.getD_some, shouldKeepFrame_eq hcfg hinterval _ hpos, if_pos hdrop]
  exact ⟨{ s with lastPts := p }, by simp only [processFrame, hprepare], rfl, rfl⟩

theorem processFrame_keep (hcfg : cfg.fps = some fps) (hinterval : 0 < intervalMs fl fps) (hframe : frame.Encodable)
    (hnew : ¬ (0 < s.framesSinceInit ∧ slotOf fl fps frame ≤ s.lastKeptSlot)) :
    ∃ t calls, s.processFrame fl cfg frame = some (t, some calls) ∧ 0 < t.framesSinceInit ∧
      t.lastKeptSlot = slotOf fl fps frame := by
  obtain ⟨p, hp, hpos, -⟩ := hframe.pts
  have htime : frame.time = p := by rw [Frame.time, hp, Option.getD_some]
  rw [slotOf, htime] at hnew ⊢
  obtain ⟨t, hprepare, hslot⟩ : ∃ t, s.prepareFrame fl cfg frame = .encode t { frame with pts := some p } ∧
      t.lastKeptSlot = p / intervalMs fl fps := by
    simp only [prepareFrame, hp, Option.getD_some, shouldKeepFrame_eq hcfg hinterval _ hpos, if_neg hnew]
    exact ⟨_, rfl, (measureCadence_counts ..).2⟩
  obtain ⟨u, calls, hencode⟩ : ∃ u calls, t.encodeFrame fl cfg { frame with pts := some p } = some (u, calls) :=
    encodeFrame_isSome fl cfg t hframe.width hframe.height
  refine ⟨{ u with framesSinceInit := u.framesSinceInit + 1 }, calls, by simp only [processFrame, hprepare, hencode],
    Nat.succ_pos _, ?_⟩
  exact (encodeFrame_counts hencode).2.trans hslot

/-- The frames that are kept are the records of the intervals. -/
theorem keptFrames_eq_records (hcfg : cfg.fps = some fps) (hinterval : 0 < intervalMs fl fps) {frames : List Frame}
    (hframes : ∀ frame ∈ frames, frame.Encodable) (s : TranscodeState) :
    s.keptFrames fl cfg frames = records (slotOf fl fps) s.reachedSlot frames := by
  induction frames generalizing s with
  | nil => cases s.reachedSlot <;> rfl
  | cons frame frames ih =>
    obtain ⟨hframe, hframes⟩ := List.forall_mem_cons.mp hframes
    by_cases hdrop : 0 < s.framesSinceInit ∧ slotOf fl fps frame ≤ s.lastKeptSlot
    · obtain ⟨t, hprocess, hcount, hslot⟩ := processFrame_drop hcfg hinterval hframe hdrop.1 hdrop.2
      have hreached : s.reachedSlot = some s.lastKeptSlot := if_neg hdrop.1.ne'
      have hreached' : t.reachedSlot = some s.lastKeptSlot := by
        rw [reachedSlot, hcount, hslot, if_neg hdrop.1.ne']
      rw [hreached, records, if_pos hdrop.2, ← hreached', ← ih hframes t]
      simp only [keptFrames, hprocess]
    · obtain ⟨t, calls, hprocess, hcount, hslot⟩ := processFrame_keep hcfg hinterval hframe hdrop
      have hreached' : t.reachedSlot = some (slotOf fl fps frame) := by rw [reachedSlot, if_neg hcount.ne', hslot]
      have hrecords : records (slotOf fl fps) s.reachedSlot (frame :: frames) =
          frame :: records (slotOf fl fps) (some (slotOf fl fps frame)) frames := by
        by_cases hzero : s.framesSinceInit = 0
        · rw [reachedSlot, if_pos hzero, records]
        · rw [reachedSlot, if_neg hzero, records, if_neg fun hle => hdrop ⟨Nat.pos_of_ne_zero hzero, hle⟩]
      rw [hrecords, ← hreached', ← ih hframes t]
      simp only [keptFrames, hprocess]

end TranscodeState

/-! ## Down-sampling -/

/-- The frames a new transcoder keeps. -/
def kept (fl : Rounding) (cfg : TranscodeConfig) (frames : List Frame) : List Frame := ({} : TranscodeState).keptFrames fl cfg frames

/-- Below `2 ^ 53` milliseconds rounding does not take the interval above the next whole number. -/
theorem intervalMs_le_ceil (fl : Rounding) {fps : ℚ} (hpos : 0 < fps) (hlong : 1000 / fps ≤ 2 ^ 53) :
    intervalMs fl fps ≤ ⌈1000 / fps⌉ := by
  have hceil : ⌈1000 / fps⌉₊ ≤ 2 ^ 53 := Nat.ceil_le.mpr (by exact_mod_cast hlong)
  have hround := fl.le_natCast hceil (Nat.le_ceil _)
  have hcast : ((⌈1000 / fps⌉₊ : ℤ)) = ⌈1000 / fps⌉ := Int.natCast_ceil_eq_ceil (by positivity)
  rw [intervalMs_eq fl hpos, ← hcast]
  refine (min_le_right _ _).trans ?_
  exact_mod_cast (Int.floor_le _).trans hround

/-- A frame of four pixels. -/
def frameAt (pts : ℤ) : Frame := { width := 2, height := 2, format := yuv420p, pts := some pts }

@[simp] theorem time_frameAt (pts : ℤ) : (frameAt pts).time = pts := rfl

theorem encodable_frameAt {pts : ℤ} (hpos : 0 ≤ pts) (hlt : pts < 2 ^ 63) : (frameAt pts).Encodable :=
  ⟨two_pos, two_pos, pts, rfl, hpos, hlt⟩

theorem encodable_framesAt {times : List ℤ} (h : ∀ pts ∈ times, 0 ≤ pts ∧ pts < 2 ^ 63) :
    ∀ frame ∈ times.map frameAt, frame.Encodable := by
  intro frame hframe
  obtain ⟨pts, hpts, rfl⟩ := List.mem_map.mp hframe
  exact encodable_frameAt (h pts hpts).1 (h pts hpts).2

section Filter
variable {fl : Rounding} {cfg : TranscodeConfig} {fps : ℚ} {frames : List Frame}

theorem kept_eq_records (hcfg : cfg.fps = some fps) (hpos : 0 < fps) (hle : fps ≤ 1000)
    (hframes : ∀ frame ∈ frames, frame.Encodable) : kept fl cfg frames = records (slotOf fl fps) none frames :=
  TranscodeState.keptFrames_eq_records hcfg (intervalMs_pos fl hpos hle) hframes {}

theorem slot_lt_of_gap (hinterval : 0 < intervalMs fl fps) {a b : Frame} (hgap : intervalMs fl fps ≤ b.time - a.time) :
    slotOf fl fps a < slotOf fl fps b := by
  have hapart : a.time + 1 * intervalMs fl fps ≤ b.time := by omega
  calc slotOf fl fps a < a.time / intervalMs fl fps + 1 := Int.lt_succ_self _
    _ = (a.time + 1 * intervalMs fl fps) / intervalMs fl fps := (Int.add_mul_ediv_right _ _ hinterval.ne').symm
    _ ≤ slotOf fl fps b := Int.ediv_le_ediv hinterval hapart

theorem time_lt_of_slot_lt (hinterval : 0 < intervalMs fl fps) {a b : Frame} (h : slotOf fl fps a < slotOf fl fps b) :
    a.time < b.time := by
  by_contra hnot
  exact absurd (Int.ediv_le_ediv hinterval (not_lt.mp hnot)) (not_le.mpr h)

theorem kept_eq_self (hcfg : cfg.fps = some fps) (hpos : 0 < fps) (hle : fps ≤ 1000)
    (hframes : ∀ frame ∈ frames, frame.Encodable) (hslots : frames.Pairwise fun a b => slotOf fl fps a < slotOf fl fps b) :
    kept fl cfg frames = frames := by
  rw [kept_eq_records hcfg hpos hle hframes]
  exact records_eq_self _ hslots none (by simp)

/-- Every frame is kept of a source without two frames closer than the exact interval. -/
def KeepsApart (fl : Rounding) (cfg : TranscodeConfig) (fps : ℚ) : Prop :=
  ∀ frames, (∀ frame ∈ frames, frame.Encodable) →
    frames.IsChain (fun a b => 1000 / fps ≤ (b.time - a.time : ℚ)) → kept fl cfg frames = frames

/-- No two frames that are kept are in one exact interval, cut to whole milliseconds. -/
def KeepsOneEach (fl : Rounding) (cfg : TranscodeConfig) (fps : ℚ) : Prop :=
  ∀ frames, (∀ frame ∈ frames, frame.Encodable) →
    (kept fl cfg frames).Pairwise fun a b => a.time / ⌊1000 / fps⌋ ≠ b.time / ⌊1000 / fps⌋

theorem keepsApart_iff (hcfg : cfg.fps = some fps) (hpos : 0 < fps) (hle : fps ≤ 1000) :
    KeepsApart fl cfg fps ↔ intervalMs fl fps ≤ ⌈1000 / fps⌉ := by
  have hinterval := intervalMs_pos fl hpos hle
  constructor
  · intro hkeeps
    by_contra hlong
    -- frames at 0 and at the next whole number of milliseconds are then in the first interval
    have hlong := not_le.mp hlong
    have hceil : 0 ≤ ⌈1000 / fps⌉ := Int.ceil_nonneg (by positivity)
    have hmax : intervalMs fl fps ≤ 2 ^ 63 - 1 := (intervalMs_eq fl hpos).le.trans (min_le_left _ _)
    have hframes : ∀ frame ∈ [0, ⌈1000 / fps⌉].map frameAt, frame.Encodable := encodable_framesAt (by
      simp only [List.forall_mem_cons, List.not_mem_nil, false_imp_iff, implies_true, and_true]
      omega)
    have hkept := hkeeps _ hframes (by
      simp only [List.map_cons, List.map_nil, List.isChain_cons_cons, List.isChain_singleton, and_true]
      simpa [frameAt, Frame.time] using Int.le_ceil (1000 / fps))
    have hslots := pairwise_records (slotOf fl fps) none ([0, ⌈1000 / fps⌉].map frameAt)
    rw [← kept_eq_records hcfg hpos hle hframes, hkept, List.map_cons, List.map_singleton, List.pairwise_pair] at hslots
    have hzero : ∀ t, 0 ≤ t → t < intervalMs fl fps → slotOf fl fps (frameAt t) = 0 := fun t ht hlt =>
      Int.ediv_eq_zero_of_lt ht hlt
    rw [hzero 0 le_rfl hinterval, hzero _ hceil hlong] at hslots
    exact absurd hslots (lt_irrefl 0)
  · intro hshort frames hframes hchain
    have hslots : (frames.map (slotOf fl fps)).IsChain (· < ·) := by
      refine (List.isChain_map _).mpr (hchain.imp fun a b hgap => slot_lt_of_gap hinterval (hshort.trans ?_))
      exact Int.ceil_le.mpr (by push_cast; exact hgap)
    exact kept_eq_self hcfg hpos hle hframes (List.pairwise_map.mp (List.isChain_iff_pairwise.mp hslots))

theorem keepsApart_of_le (hcfg : cfg.fps = some fps) (hpos : 0 < fps) (hle : fps ≤ 1000) (hlong : 1000 / fps ≤ 2 ^ 53) :
    KeepsApart fl cfg fps :=
  (keepsApart_iff hcfg hpos hle).mpr (intervalMs_le_ceil fl hpos hlong)

/-- The quotient goes up at the multiples of the divisor only. -/
theorem dvd_of_pred_ediv_ne {n d : ℤ} (hd : 0 < d) (h : (n - 1) / d ≠ n / d) : d ∣ n := by
  by_contra hdvd
  have hpos : 0 < n % d := lt_of_le_of_ne (Int.emod_nonneg n hd.ne') fun hzero => hdvd (Int.dvd_of_emod_eq_zero hzero.symm)
  have hlt := Int.emod_lt_of_pos n hd
  have hsum := Int.emod_add_mul_ediv n d
  exact h ((Int.ediv_emod_unique hd (r := n % d - 1)).mpr ⟨by omega, by omega, by omega⟩).1

theorem keepsOneEach_iff (hcfg : cfg.fps = some fps) (hpos : 0 < fps) (hle : fps ≤ 1000) :
    KeepsOneEach fl cfg fps ↔ ⌊1000 / fps⌋ ∣ intervalMs fl fps := by
  have hinterval := intervalMs_pos fl hpos hle
  have hfloor : 0 < ⌊1000 / fps⌋ := Int.floor_pos.mpr ((one_le_div hpos).mpr hle)
  constructor
  · intro hone
    -- the last frame of the first interval and the first of the second
    have hmax : intervalMs fl fps ≤ 2 ^ 63 - 1 := (intervalMs_eq fl hpos).le.trans (min_le_left _ _)
    have hframes : ∀ frame ∈ [intervalMs fl fps - 1, intervalMs fl fps].map frameAt, frame.Encodable :=
      encodable_framesAt (by
        simp only [List.forall_mem_cons, List.not_mem_nil, false_imp_iff, implies_true, and_true]
        omega)
    have hslots : ([intervalMs fl fps - 1, intervalMs fl fps].map frameAt).Pairwise
        fun a b => slotOf fl fps a < slotOf fl fps b := by
      rw [List.map_cons, List.map_singleton, List.pairwise_pair]
      rw [slotOf, slotOf, time_frameAt, time_frameAt, Int.ediv_eq_zero_of_lt (by omega) (by omega),
        Int.ediv_self hinterval.ne']
      exact one_pos
    have hpair := hone _ hframes
    rw [kept_eq_self hcfg hpos hle hframes hslots, List.map_cons, List.map_singleton, List.pairwise_pair] at hpair
    rw [time_frameAt, time_frameAt] at hpair
    exact dvd_of_pred_ediv_ne hfloor hpair
  · rintro ⟨k, hk⟩ frames hframes
    rw [kept_eq_records hcfg hpos hle hframes]
    refine (pairwise_records _ _ _).imp fun {a b} hslots heq => hslots.ne ?_
    -- an interval is `k` exact ones
    rw [slotOf, slotOf, hk, ← Int.ediv_ediv_of_nonneg hfloor.le, heq, Int.ediv_ediv_of_nonneg hfloor.le]

/-- The times of the frames that are kept increase. All frames at least `1000 / fps` milliseconds apart are kept exactly
when the interval of the filter is not above the next whole number, and no two that are kept are in one interval of
`⌊1000 / fps⌋` milliseconds exactly when this number divides the filter's. -/
theorem filter_downsamples_iff (fl : Rounding) (hcfg : cfg.fps = some fps) (hpos : 0 < fps) (hle : fps ≤ 1000) :
    (∀ frames, (∀ frame ∈ frames, frame.Encodable) → (kept fl cfg frames).Pairwise fun a b => a.time < b.time) ∧
    (KeepsApart fl cfg fps ↔ intervalMs fl fps ≤ ⌈1000 / fps⌉) ∧
    (KeepsOneEach fl cfg fps ↔ ⌊1000 / fps⌋ ∣ intervalMs fl fps) := by
  refine ⟨fun frames hframes => ?_, keepsApart_iff hcfg hpos hle, keepsOneEach_iff hcfg hpos hle⟩
  rw [kept_eq_records hcfg hpos hle hframes]
  exact (pairwise_records (slotOf fl fps) none frames).imp fun h => time_lt_of_slot_lt (intervalMs_pos fl hpos hle) h

theorem filter_downsamples_pal :
    KeepsApart .binary64 { fps := some 25 } 25 ∧ KeepsOneEach .binary64 { fps := some 25 } 25 := by
  have hcfg : ({ fps := some 25 } : TranscodeConfig).fps = some 25 := rfl
  obtain ⟨-, hkeeps, hone⟩ := filter_downsamples_iff .binary64 hcfg (by norm_num) (by norm_num)
  exact ⟨hkeeps.mpr (by decide +kernel), hone.mpr (by decide +kernel)⟩

/-- The `f64` nearest to a thousand sevenths: its quotient is rounded up to seven milliseconds, and two frames are kept in
one interval of six. -/
theorem filter_keeps_two_in_interval :
    kept .binary64 { fps := some (5026338869833143 / 35184372088832) } ([6, 7, 12, 13, 14].map frameAt) =
      [6, 7, 14].map frameAt ∧
    ⌊(1000 / (5026338869833143 / 35184372088832) : ℚ)⌋ = 6 ∧ (frameAt 6).time / 6 = (frameAt 7).time / 6 := by
  decide +kernel

/-! ## The frame rate -/

/-- The number of kept frames with a time in the window of `length` milliseconds from `start`. -/
def keptIn (fl : Rounding) (cfg : TranscodeConfig) (frames : List Frame) (start length : ℚ) : ℕ :=
  ((kept fl cfg frames).filter fun frame => start ≤ frame.time ∧ (frame.time : ℚ) < start + length).length

/-- Kept frames with `m` others between them are more than `m` intervals apart, and the later one is after as many. -/
theorem apart_of_between (hinterval : 0 < intervalMs fl fps) {a b : Frame} {m : ℤ} (ha : 0 ≤ a.time)
    (hslots : slotOf fl fps a + m + 1 ≤ slotOf fl fps b) :
    intervalMs fl fps * m + 1 ≤ b.time - a.time ∧ (m + 1) * intervalMs fl fps ≤ b.time := by
  have hnonneg : 0 ≤ slotOf fl fps a := Int.ediv_nonneg ha hinterval.le
  have hbefore : a.time < (slotOf fl fps a + 1) * intervalMs fl fps := Int.lt_ediv_add_one_mul_self _ hinterval
  have hafter : slotOf fl fps b * intervalMs fl fps ≤ b.time := Int.ediv_mul_le _ hinterval.ne'
  have hmul : (slotOf fl fps a + m + 1) * intervalMs fl fps ≤ slotOf fl fps b * intervalMs fl fps :=
    mul_le_mul_of_nonneg_right hslots hinterval.le
  have hmul' : 0 ≤ slotOf fl fps a * intervalMs fl fps := mul_nonneg hnonneg hinterval.le
  constructor <;> linarith

theorem keptIn_le (hcfg : cfg.fps = some fps) (hpos : 0 < fps) (hle : fps ≤ 1000)
    (hframes : ∀ frame ∈ frames, frame.Encodable)
    (hexact : ∀ m : ℕ, (m + 1) * intervalMs fl fps < 2 ^ 63 → m * (1000 - intervalMs fl fps * fps) ≤ fps)
    (start : ℚ) {length : ℚ} (hlength : 0 ≤ length) : (keptIn fl cfg frames start length : ℚ) ≤ length * fps / 1000 + 2 := by
  have hinterval := intervalMs_pos fl hpos hle
  have hbound : 0 ≤ length * fps / 1000 := by positivity
  rw [keptIn, kept_eq_records hcfg hpos hle hframes]
  have hslots := (pairwise_records (slotOf fl fps) none frames).filter
    fun frame => decide (start ≤ frame.time ∧ (frame.time : ℚ) < start + length)
  have hmem : ∀ frame ∈ (records (slotOf fl fps) none frames).filter
      fun frame => decide (start ≤ frame.time ∧ (frame.time : ℚ) < start + length),
      frame.Encodable ∧ start ≤ frame.time ∧ (frame.time : ℚ) < start + length := by
    intro frame hframe
    obtain ⟨hrecord, hwindow⟩ := List.mem_filter.mp hframe
    exact ⟨hframes _ (records_subset _ _ _ hrecord), of_decide_eq_true hwindow⟩
  generalize (records (slotOf fl fps) none frames).filter _ = window at hslots hmem ⊢
  -- the first frame in the window, the last one and those between them
  cases window with
  | nil =>
    simp only [List.length_nil]
    push_cast
    linarith
  | cons a rest =>
    obtain rfl | ⟨between, b, rfl⟩ := rest.eq_nil_or_concat'
    · simp only [List.length_singleton]
      push_cast
      linarith
    · obtain ⟨⟨-, -, p, hp, hnonneg, -⟩, hstart, -⟩ := hmem a (by simp)
      obtain ⟨⟨-, -, q, hq, -, hlt⟩, -, hend⟩ := hmem b (by simp)
      have ha : a.time = p := by rw [Frame.time, hp, Option.getD_some]
      have hb : b.time = q := by rw [Frame.time, hq, Option.getD_some]
      obtain ⟨happart, hlate⟩ := apart_of_between hinterval (ha ▸ hnonneg)
        (add_length_le_of_pairwise (slotOf fl fps) a b between hslots)
      have hrounding := hexact between.length (hlate.trans_lt (hb ▸ hlt))
      have happart' : (intervalMs fl fps * between.length + 1 : ℚ) ≤ b.time - a.time := by exact_mod_cast happart
      have hspan : fps * (intervalMs fl fps * between.length + 1) ≤ fps * length :=
        mul_le_mul_of_nonneg_left (by linarith) hpos.le
      simp only [List.length_cons, List.length_append, List.length_nil]
      push_cast
      linarith

/-- The last time of the first interval, then the first times of the next ones. -/
def boundaryFrames (fl : Rounding) (fps : ℚ) (m : ℕ) : List Frame :=
  (List.range (m + 2)).map fun k : ℕ => frameAt (max (intervalMs fl fps - 1) (k * intervalMs fl fps))

theorem slotOf_boundary (hinterval : 0 < intervalMs fl fps) (k : ℕ) :
    slotOf fl fps (frameAt (max (intervalMs fl fps - 1) (k * intervalMs fl fps))) = k := by
  have htime : (frameAt (max (intervalMs fl fps - 1) (k * intervalMs fl fps))).time = max (intervalMs fl fps - 1) (k * intervalMs fl fps) :=
    rfl
  rw [slotOf, htime]
  cases k with
  | zero =>
    rw [Nat.cast_zero, zero_mul, max_eq_left (by omega)]
    exact Int.ediv_eq_zero_of_lt (by omega) (by omega)
  | succ k =>
    have hle : intervalMs fl fps - 1 ≤ (k + 1 : ℕ) * intervalMs fl fps := by
      have : 0 ≤ (k : ℤ) * intervalMs fl fps := by positivity
      push_cast
      linarith
    rw [max_eq_right hle, Int.mul_ediv_cancel _ hinterval.ne']

theorem keptIn_boundary (hcfg : cfg.fps = some fps) (hpos : 0 < fps) (hle : fps ≤ 1000) {m : ℕ}
    (hm : (m + 1) * intervalMs fl fps < 2 ^ 63) {ε : ℚ} (hε : 0 < ε) :
    (∀ frame ∈ boundaryFrames fl fps m, frame.Encodable) ∧
      (boundaryFrames fl fps m).Pairwise (fun a b => a.time ≤ b.time) ∧
      keptIn fl cfg (boundaryFrames fl fps m) (intervalMs fl fps - 1) (m * intervalMs fl fps + 1 + ε) = m + 2 := by
  have hinterval := intervalMs_pos fl hpos hle
  have htimes : ∀ k < m + 2, max (intervalMs fl fps - 1) (k * intervalMs fl fps) ≤ (m + 1) * intervalMs fl fps := by
    intro k hk
    have hmul : (k : ℤ) * intervalMs fl fps ≤ (m + 1) * intervalMs fl fps :=
      mul_le_mul_of_nonneg_right (by omega) hinterval.le
    have hmul' : 0 ≤ (m : ℤ) * intervalMs fl fps := by positivity
    exact max_le (by linarith) hmul
  have hframes : ∀ frame ∈ boundaryFrames fl fps m, frame.Encodable := by
    intro frame hframe
    obtain ⟨k, hk, rfl⟩ := List.mem_map.mp hframe
    have := htimes k (List.mem_range.mp hk)
    exact encodable_frameAt (le_max_of_le_left (by omega)) (by omega)
  have hslots : (boundaryFrames fl fps m).Pairwise fun a b => slotOf fl fps a < slotOf fl fps b := by
    refine List.pairwise_map.mpr (List.pairwise_lt_range.imp fun h => ?_)
    rw [slotOf_boundary hinterval, slotOf_boundary hinterval]
    exact_mod_cast h
  refine ⟨hframes, hslots.imp fun h => (time_lt_of_slot_lt hinterval h).le, ?_⟩
  rw [keptIn, kept_eq_self hcfg hpos hle hframes hslots, List.filter_eq_self.mpr, boundaryFrames, List.length_map,
    List.length_range]
  intro frame hframe
  obtain ⟨k, hk, rfl⟩ := List.mem_map.mp hframe
  have hlow : ((intervalMs fl fps - 1 : ℤ) : ℚ) ≤ (max (intervalMs fl fps - 1) (k * intervalMs fl fps) : ℤ) :=
    Int.cast_le.mpr (le_max_left _ _)
  have hhigh : ((max (intervalMs fl fps - 1) (k * intervalMs fl fps) : ℤ) : ℚ) ≤ ((m + 1) * intervalMs fl fps : ℤ) :=
    Int.cast_le.mpr (htimes k (List.mem_range.mp hk))
  push_cast at hlow hhigh
  refine decide_eq_true ?_
  simp only [frameAt, Frame.time, Option.getD_some]
  push_cast
  constructor <;> linarith

/-- No window holds more kept frames than the frame rate allows, and two, exactly when the part of a millisecond that the
interval of the filter is short of does not add up to one more frame while the times are in `i64`. -/
theorem frame_rate_capped_iff (fl : Rounding) (hcfg : cfg.fps = some fps) (hpos : 0 < fps) (hle : fps ≤ 1000) :
    (∀ frames, (∀ frame ∈ frames, frame.Encodable) → frames.Pairwise (fun a b => a.time ≤ b.time) →
      ∀ start length : ℚ, 0 ≤ length → (keptIn fl cfg frames start length : ℚ) ≤ length * fps / 1000 + 2) ↔
    ∀ m : ℕ, (m + 1) * intervalMs fl fps < 2 ^ 63 → m * (1000 - intervalMs fl fps * fps) ≤ fps := by
  refine ⟨fun hcap m hm => ?_, fun hexact frames hframes _ start length hlength =>
    keptIn_le hcfg hpos hle hframes hexact start hlength⟩
  have hinterval := intervalMs_pos fl hpos hle
  have hwindow : ∀ ε : ℚ, 0 < ε → (m : ℚ) * 1000 / fps ≤ m * intervalMs fl fps + 1 + ε := by
    intro ε hε
    obtain ⟨hframes, htimes, hcount⟩ := keptIn_boundary hcfg hpos hle hm hε
    have hlength : (0 : ℚ) ≤ m * intervalMs fl fps + 1 + ε := by positivity
    have hbound := hcap _ hframes htimes (intervalMs fl fps - 1) _ hlength
    rw [hcount] at hbound
    push_cast at hbound
    rw [div_le_iff₀ hpos]
    linarith
  have hlimit := (div_le_iff₀ hpos).mp (le_of_forall_pos_le_add hwindow)
  linarith

theorem frame_rate_capped_pal :
    keptIn .binary64 { fps := some 25 } ([0, 20, 40, 60, 80].map frameAt) 0 100 ≤ (100 * 25 / 1000 + 2 : ℚ) := by
  have hinterval : intervalMs .binary64 25 = 40 := by decide +kernel
  have hcfg : ({ fps := some 25 } : TranscodeConfig).fps = some 25 := rfl
  refine (frame_rate_capped_iff .binary64 hcfg (by norm_num) (by norm_num)).mpr ?_ _ ?_ ?_ 0 100 (by norm_num)
  · intro m _
    rw [hinterval]
    norm_num
  · exact encodable_framesAt (by decide)
  · decide +kernel

/-- At thirty frames in a second the interval is 33 milliseconds. -/
theorem frame_rate_not_capped :
    (133.1 * 30 / 1000 + 2 : ℚ) < keptIn .binary64 { fps := some 30 } ([32, 33, 66, 99, 132, 165].map frameAt) 32 133.1 := by
  have hcount : keptIn .binary64 { fps := some 30 } ([32, 33, 66, 99, 132, 165].map frameAt) 32 133.1 = 6 := by decide +kernel
  rw [hcount]
  norm_num

end Filter
end LivestreamRs.Media
