import LivestreamRs.Media.Transcode

/-! # Settings of the transcoder

`TranscodeConfig::validate` (`livestream-core/src/config.rs`) asks for positive settings and sets no upper bound. The
transcoder divides by the frame interval in whole milliseconds, multiplies the bit rate and casts the parts of the frame
rate; read over the rationals, all of this is exact up to 1000 frames per second and a bit rate that fits.
-/
namespace LivestreamRs.Media
open Foundations
set_option autoImplicit false

def TranscodeConfig.validate (cfg : TranscodeConfig) : Except String Unit :=
  if cfg.bitrateKbps = 0 then .error "transcode.bitrate_kbps must be greater than 0"
  else if cfg.gopSecs ≤ 0 then .error "transcode.gop_secs must be greater than 0"
  else if cfg.preset.isEmpty then .error "transcode.preset must not be empty"
  else
    match cfg.fps with
    | some fps => if fps ≤ 0 then .error "transcode.fps must be greater than 0 when set" else .ok ()
    | none => .ok ()

theorem validate_ok {cfg : TranscodeConfig} (h : cfg.validate = .ok ()) :
    0 < cfg.bitrateKbps ∧ ∀ fps, cfg.fps = some fps → 0 < fps := by
  simp only [TranscodeConfig.validate] at h
  split at h
  · cases h
  next hbitrate =>
  split at h
  · cases h
  split at h
  · cases h
  refine ⟨Nat.pos_of_ne_zero hbitrate, fun fps hfps => ?_⟩
  rw [hfps] at h
  simp only at h
  split at h
  · cases h
  · next hpos => exact not_le.mp hpos

/-! ## Casts -/

theorem truncTo_of_nonneg (bits : ℕ) {x : ℚ} (hx : 0 ≤ x) : truncTo bits x = min (2 ^ (bits - 1) - 1) ⌊x⌋ := by
  have hdiv : x.num.tdiv x.den = ⌊x⌋ := by
    rw [Int.tdiv_eq_ediv_of_nonneg (Rat.num_nonneg.mpr hx), Rat.floor_def']
  have hpow : (1 : ℤ) ≤ 2 ^ (bits - 1) := one_le_pow₀ (by norm_num)
  have hfloor : 0 ≤ ⌊x⌋ := Int.floor_nonneg.mpr hx
  rw [truncTo, hdiv]
  exact max_eq_right (by omega)

theorem intervalMs_eq (fl : Rounding) {fps : ℚ} (hfps : 0 < fps) :
    intervalMs fl fps = min (2 ^ 63 - 1) ⌊fl (1000 / fps)⌋ :=
  truncTo_of_nonneg 64 (fl.nonneg (by positivity))

theorem intervalMs_nonneg (fl : Rounding) {fps : ℚ} (hfps : 0 < fps) : 0 ≤ intervalMs fl fps := by
  rw [intervalMs_eq fl hfps]
  exact le_min (by norm_num) (Int.floor_nonneg.mpr (fl.nonneg (by positivity)))

/-- Up to 1000 frames per second the interval is at least a millisecond, however the quotient is rounded. -/
theorem intervalMs_pos (fl : Rounding) {fps : ℚ} (hfps : 0 < fps) (hle : fps ≤ 1000) : 0 < intervalMs fl fps := by
  have hone : ((1 : ℕ) : ℚ) ≤ fl (1000 / fps) :=
    fl.natCast_le (by norm_num) (by rw [Nat.cast_one]; exact (one_le_div hfps).mpr hle)
  rw [intervalMs_eq fl hfps]
  exact lt_min (by norm_num) (Int.floor_pos.mpr (by exact_mod_cast hone))

/-- Without rounding it is zero above. -/
theorem intervalMs_exact_pos_iff {fps : ℚ} (hfps : 0 < fps) : 0 < intervalMs .exact fps ↔ fps ≤ 1000 := by
  refine ⟨fun h => ?_, intervalMs_pos .exact hfps⟩
  rw [intervalMs_eq .exact hfps, lt_min_iff] at h
  exact (one_le_div hfps).mp (Int.floor_pos.mp h.2)

theorem shouldKeepFrame_panics_iff (fl : Rounding) {cfg : TranscodeConfig} {fps : ℚ} (hcfg : cfg.fps = some fps)
    (s : TranscodeState) (pts : ℤ) : s.shouldKeepFrame fl cfg pts = .panic ↔ intervalMs fl fps = 0 := by
  simp only [TranscodeState.shouldKeepFrame, hcfg]
  split
  · next h => exact ⟨fun _ => h, fun _ => rfl⟩
  · next h =>
    refine ⟨fun hkept => ?_, fun hzero => absurd hzero h⟩
    split at hkept <;> cases hkept

/-! ## The frame rate as a fraction -/

theorem gcdLoop_eq (a b : ℕ) : gcdLoop a b = Nat.gcd b a := by
  fun_induction gcdLoop a b with
  | case1 a => exact (Nat.gcd_zero_left a).symm
  | case2 a b ih => rw [ih, ← Nat.gcd_rec]

/-- The fraction of the frame rate rounded to thousandths, and at least one. -/
structure FrameRate.Represents (r : FrameRate) (fps : ℚ) : Prop where
  num_pos : 0 < r.num
  den_pos : 0 < r.den
  lowest : Int.gcd r.num r.den = 1
  value : (r.num : ℚ) / r.den = max 1 (roundAway (fps * 1000)) / 1000

theorem bmod_of_small {n : ℕ} (h : n < 2 ^ 31) : Int.bmod (n : ℤ) (2 ^ 32) = n :=
  Int.bmod_eq_of_le (by omega) (by omega)

theorem thousandths_eq {fps : ℚ} (hfps : 0 < fps) :
    ∃ n : ℕ, 0 < n ∧ max 1 (roundAway (fps * 1000)) = (n : ℚ) ∧ (fps ≤ 1000 → n ≤ 1000000) := by
  have hpos : 0 ≤ fps * 1000 := by positivity
  have hfloor : 0 ≤ ⌊fps * 1000 + 1 / 2⌋ := Int.floor_nonneg.mpr (by positivity)
  obtain ⟨k, hk⟩ := Int.eq_ofNat_of_zero_le hfloor
  refine ⟨max 1 k, by omega, ?_, fun hle => ?_⟩
  · rw [roundAway, if_pos hpos, hk]
    push_cast
    rfl
  · have hlt : ⌊fps * 1000 + 1 / 2⌋ < 1000001 := Int.floor_lt.mpr (by push_cast; linarith)
    omega

theorem fpsToRational_represents {fps : ℚ} (hfps : 0 < fps) (hle : fps ≤ 1000) :
    (fpsToRational .exact fps).Represents fps := by
  obtain ⟨n, hn, hvalue, hbound⟩ := thousandths_eq hfps
  have hn' := hbound hle
  have htrunc : truncTo 64 (max 1 (roundAway (fps * 1000))) = (n : ℤ) := by
    rw [hvalue, truncTo_of_nonneg 64 (by positivity), Int.floor_natCast]
    exact min_eq_right (by omega)
  have hnum : n / Nat.gcd 1000 n < 2 ^ 31 := (Nat.div_le_self _ _).trans_lt (hn'.trans_lt (by norm_num))
  have hden : 1000 / Nat.gcd 1000 n < 2 ^ 31 := (Nat.div_le_self _ _).trans_lt (by norm_num)
  have hnum_eq : (fpsToRational .exact fps).num = ((n / Nat.gcd 1000 n : ℕ) : ℤ) := by
    unfold fpsToRational
    rw [Rounding.exact_apply, htrunc, Int.toNat_natCast]
    dsimp only
    rw [gcdLoop_eq, ← Int.natCast_ediv, bmod_of_small hnum]
  have hden_eq : (fpsToRational .exact fps).den = ((1000 / Nat.gcd 1000 n : ℕ) : ℤ) := by
    unfold fpsToRational
    rw [Rounding.exact_apply, htrunc, Int.toNat_natCast]
    dsimp only
    rw [gcdLoop_eq, ← Nat.cast_ofNat (R := ℤ) (n := 1000), ← Int.natCast_ediv, bmod_of_small hden]
  have hgcd : 0 < Nat.gcd 1000 n := Nat.gcd_pos_of_pos_left n (by norm_num)
  have hnum_pos : 0 < n / Nat.gcd 1000 n := Nat.div_pos (Nat.le_of_dvd hn (Nat.gcd_dvd_right 1000 n)) hgcd
  have hden_pos : 0 < 1000 / Nat.gcd 1000 n :=
    Nat.div_pos (Nat.le_of_dvd (by norm_num) (Nat.gcd_dvd_left 1000 n)) hgcd
  refine ⟨?_, ?_, ?_, ?_⟩
  · rw [hnum_eq]
    exact Int.natCast_pos.mpr hnum_pos
  · rw [hden_eq]
    exact Int.natCast_pos.mpr hden_pos
  · rw [hnum_eq, hden_eq, Int.gcd_natCast_natCast]
    exact (Nat.coprime_div_gcd_div_gcd hgcd).symm
  · have hgcd' : ((Nat.gcd 1000 n : ℕ) : ℚ) ≠ 0 := Nat.cast_ne_zero.mpr hgcd.ne'
    rw [hnum_eq, hden_eq, hvalue, Int.cast_natCast, Int.cast_natCast, Nat.cast_div (Nat.gcd_dvd_right 1000 n) hgcd',
      Nat.cast_div (Nat.gcd_dvd_left 1000 n) hgcd', div_div_div_cancel_right₀ hgcd']
    norm_num

/-! ## Settings within their ranges -/

/-- The arithmetic of the transcoder with these settings: no division by zero, a bit rate that fits, and the frame rate
of the encoder as a fraction in lowest terms. -/
structure TranscodeConfig.Safe (cfg : TranscodeConfig) : Prop where
  divides : ∀ (s : TranscodeState) (pts : ℤ), s.shouldKeepFrame .exact cfg pts ≠ .panic
  bitrate : cfg.bitrateKbps * 1000 < 2 ^ 64
  bitRate_pos : ∀ ew eh fps, 0 < (cfg.createEncoder .exact ew eh fps).bitRate
  frameRate : (fpsToRational .exact (cfg.fps.getD 30)).Represents (cfg.fps.getD 30)

theorem bitRate_pos_iff {cfg : TranscodeConfig} (hpos : 0 < cfg.bitrateKbps) (hbitrate : cfg.bitrateKbps * 1000 < 2 ^ 64)
    (ew eh : ℤ) (fps : ℚ) : 0 < (cfg.createEncoder .exact ew eh fps).bitRate ↔ cfg.bitrateKbps * 1000 < 2 ^ 63 := by
  have hmod : (cfg.bitrateKbps : ℤ) * 1000 % 2 ^ 64 = cfg.bitrateKbps * 1000 := Int.emod_eq_of_lt (by omega) (by omega)
  have hmod' : (cfg.bitrateKbps : ℤ) * 1000 % ((2 ^ 64 : ℕ) : ℤ) = cfg.bitrateKbps * 1000 := hmod
  simp only [TranscodeConfig.createEncoder, hmod, Int.bmod_def, hmod']
  split <;> omega

/-- Validated settings are safe exactly up to 1000 frames per second and 9223372036854775 kbps. -/
theorem validated_settings_safe_iff {cfg : TranscodeConfig} (h : cfg.validate = .ok ()) :
    cfg.Safe ↔ cfg.bitrateKbps ≤ 9223372036854775 ∧ ∀ fps, cfg.fps = some fps → fps ≤ 1000 := by
  obtain ⟨hbitrate, hfps⟩ := validate_ok h
  constructor
  · intro hsafe
    have hbits := (bitRate_pos_iff hbitrate hsafe.bitrate 0 0 0).mp (hsafe.bitRate_pos 0 0 0)
    refine ⟨by omega, fun fps hcfg => (intervalMs_exact_pos_iff (hfps fps hcfg)).mp ?_⟩
    have hne : intervalMs .exact fps ≠ 0 := fun hzero =>
      hsafe.divides {} 0 ((shouldKeepFrame_panics_iff .exact hcfg {} 0).mpr hzero)
    exact lt_of_le_of_ne (intervalMs_nonneg .exact (hfps fps hcfg)) hne.symm
  · rintro ⟨hbits, hle⟩
    refine ⟨fun s pts => ?_, by omega, fun ew eh fps => (bitRate_pos_iff hbitrate (by omega) ew eh fps).mpr (by omega), ?_⟩
    · cases hcfg : cfg.fps with
      | none => simp [TranscodeState.shouldKeepFrame, hcfg]
      | some fps =>
        rw [ne_eq, shouldKeepFrame_panics_iff .exact hcfg]
        exact ((intervalMs_exact_pos_iff (hfps fps hcfg)).mpr (hle fps hcfg)).ne'
    · cases hcfg : cfg.fps with
      | none => exact fpsToRational_represents (by norm_num) (by norm_num)
      | some fps => exact fpsToRational_represents (hfps fps hcfg) (hle fps hcfg)

theorem validated_settings_safe_ntsc :
    ({ fps := some (30000 / 1001) } : TranscodeConfig).validate = .ok () ∧
      ({ fps := some (30000 / 1001) } : TranscodeConfig).Safe := by
  have hvalid : ({ fps := some (30000 / 1001) } : TranscodeConfig).validate = .ok () := by decide +kernel
  refine ⟨hvalid, (validated_settings_safe_iff hvalid).mpr ⟨by norm_num, fun fps hfps => ?_⟩⟩
  obtain rfl := Option.some.inj hfps
  norm_num

/-- Settings that pass validation: 2000 frames per second divide by zero, 2^63 kbps wrap to a bit rate of zero, and the
numerator of 3000000.001 frames per second is cast to a negative number. -/
theorem validated_settings_unsafe :
    ({ fps := some 2000 } : TranscodeConfig).validate = .ok () ∧
      ({} : TranscodeState).shouldKeepFrame .exact { fps := some 2000 } 0 = .panic ∧
    ({ bitrateKbps := 2 ^ 63 } : TranscodeConfig).validate = .ok () ∧
      (({ bitrateKbps := 2 ^ 63 } : TranscodeConfig).createEncoder .exact 2 2 30).bitRate = 0 ∧
    ({ fps := some 3000000.001 } : TranscodeConfig).validate = .ok () ∧ (fpsToRational .exact 3000000.001).num < 0 := by
  have hzero : intervalMs .exact 2000 = 0 := by decide +kernel
  exact ⟨by decide +kernel, (shouldKeepFrame_panics_iff .exact rfl {} 0).mpr hzero, by decide +kernel, by decide +kernel,
    by decide +kernel, by decide +kernel⟩

end LivestreamRs.Media
