import Mathlib.Tactic
import Mathlib.Data.Int.Log
import Mathlib.Data.Rat.Floor

/-! # Rounding of rationals

The results of an arithmetic with finitely many digits are the exact ones after a rounding. A rounding is monotone and
leaves whole numbers up to a bound as they are; a program over it is read exactly with the rounding that changes nothing,
and as the machine runs it with binary floating point, to the nearest number and in a tie to the even one.
-/
namespace LivestreamRs.Foundations
set_option autoImplicit false

/-! ## To a whole number -/

/-- The nearest whole number, and of two the even one. -/
def roundEven (x : ℚ) : ℤ :=
  if Int.fract x < 1 / 2 then ⌊x⌋
  else if 1 / 2 < Int.fract x then ⌊x⌋ + 1
  else if Even ⌊x⌋ then ⌊x⌋ else ⌊x⌋ + 1

@[simp] theorem roundEven_intCast (n : ℤ) : roundEven n = n := by
  rw [roundEven, Int.fract_intCast, if_pos (by norm_num), Int.floor_intCast]

theorem floor_le_roundEven (x : ℚ) : ⌊x⌋ ≤ roundEven x := by
  unfold roundEven
  split_ifs <;> omega

theorem roundEven_le_floor_add_one (x : ℚ) : roundEven x ≤ ⌊x⌋ + 1 := by
  unfold roundEven
  split_ifs <;> omega

theorem roundEven_mono : Monotone roundEven := by
  intro x y hxy
  rcases (Int.floor_mono hxy).lt_or_eq with hfloor | hfloor
  · exact (roundEven_le_floor_add_one x).trans ((Int.add_one_le_of_lt hfloor).trans (floor_le_roundEven y))
  · -- between two whole numbers the fraction decides, and a tie goes the same way for both
    have hfract : Int.fract x ≤ Int.fract y := by
      rw [Int.fract, Int.fract, hfloor]
      exact sub_le_sub_right hxy _
    simp only [roundEven, hfloor]
    split_ifs <;> first | omega | (exfalso; linarith)

/-! ## To a number of binary digits -/

/-- The exponent of the last digit of a positive number: of `precision` digits, but not below `least`. -/
def lastExponent (precision : ℕ) (least : ℤ) (x : ℚ) : ℤ := max least (Int.log 2 x + 1 - precision)

def nearestOfNonneg (precision : ℕ) (least : ℤ) (x : ℚ) : ℚ :=
  roundEven (x / 2 ^ lastExponent precision least x) * 2 ^ lastExponent precision least x

/-- The nearest number with `precision` binary digits, the last of them not below the exponent `least`. -/
def nearest (precision : ℕ) (least : ℤ) (x : ℚ) : ℚ :=
  if 0 ≤ x then nearestOfNonneg precision least x else -nearestOfNonneg precision least (-x)

section Nearest
variable {precision : ℕ} {least : ℤ} {x y : ℚ}

theorem nearestOfNonneg_eq_self {n : ℤ} (h : x / 2 ^ lastExponent precision least x = n) :
    nearestOfNonneg precision least x = x := by
  have hpos : (2 : ℚ) ^ lastExponent precision least x ≠ 0 := zpow_ne_zero _ two_ne_zero
  rw [nearestOfNonneg, h, roundEven_intCast, ← h, div_mul_cancel₀ _ hpos]

theorem nearestOfNonneg_nonneg (hx : 0 ≤ x) : 0 ≤ nearestOfNonneg precision least x := by
  have hround := roundEven_mono (show 0 ≤ x / 2 ^ lastExponent precision least x by positivity)
  rw [← Int.cast_zero, roundEven_intCast] at hround
  exact mul_nonneg (by exact_mod_cast hround) (by positivity)

theorem div_zpow_eq_zpow {k e : ℤ} (h : e ≤ k) : (2 : ℚ) ^ k / 2 ^ e = ((2 ^ (k - e).toNat : ℤ) : ℚ) := by
  rw [← zpow_sub₀ two_ne_zero, Int.cast_pow, Int.cast_ofNat, ← zpow_natCast, Int.toNat_of_nonneg (by omega)]

theorem nearestOfNonneg_le_zpow {k : ℤ} (hx : x ≤ 2 ^ k) (hk : lastExponent precision least x ≤ k) :
    nearestOfNonneg precision least x ≤ 2 ^ k := by
  have hdiv : x / 2 ^ lastExponent precision least x ≤ ((2 ^ (k - lastExponent precision least x).toNat : ℤ) : ℚ) := by
    rw [← div_zpow_eq_zpow hk]
    gcongr
  have hround := roundEven_mono hdiv
  rw [roundEven_intCast, ← Int.cast_le (R := ℚ), ← div_zpow_eq_zpow hk] at hround
  exact (le_div_iff₀ (by positivity)).mp hround

theorem zpow_le_nearestOfNonneg {k : ℤ} (hx : 2 ^ k ≤ x) (hk : lastExponent precision least x ≤ k) :
    2 ^ k ≤ nearestOfNonneg precision least x := by
  have hdiv : ((2 ^ (k - lastExponent precision least x).toNat : ℤ) : ℚ) ≤ x / 2 ^ lastExponent precision least x := by
    rw [← div_zpow_eq_zpow hk]
    gcongr
  have hround := roundEven_mono hdiv
  rw [roundEven_intCast, ← Int.cast_le (R := ℚ), ← div_zpow_eq_zpow hk] at hround
  exact (div_le_iff₀ (by positivity)).mp hround

theorem nearestOfNonneg_mono (hprecision : 0 < precision) (hx : 0 ≤ x) (hxy : x ≤ y) :
    nearestOfNonneg precision least x ≤ nearestOfNonneg precision least y := by
  rcases hx.eq_or_lt with rfl | hx
  · rw [nearestOfNonneg_eq_self (n := 0) (by simp)]
    exact nearestOfNonneg_nonneg hxy
  have hlog := Int.log_mono_right (b := 2) hx hxy
  have hexponent : lastExponent precision least x ≤ lastExponent precision least y :=
    max_le_max_left least (by omega)
  rcases hexponent.eq_or_lt with heq | hlt
  · rw [nearestOfNonneg, nearestOfNonneg, heq]
    have hdiv : x / 2 ^ lastExponent precision least y ≤ y / 2 ^ lastExponent precision least y := by gcongr
    exact mul_le_mul_of_nonneg_right (by exact_mod_cast roundEven_mono hdiv) (by positivity)
  · -- the power of two at or below `y` is above `x`, and both are rounded to their side of it
    have hlast : lastExponent precision least x ≤ Int.log 2 y ∧ lastExponent precision least y ≤ Int.log 2 y ∧
        Int.log 2 x + 1 ≤ Int.log 2 y := by
      unfold lastExponent at hlt ⊢
      omega
    have hbelow : x ≤ 2 ^ Int.log 2 y :=
      (Int.lt_zpow_succ_log_self Nat.one_lt_two x).le.trans (zpow_le_zpow_right₀ one_le_two hlast.2.2)
    have habove : (2 : ℚ) ^ Int.log 2 y ≤ y := Int.zpow_log_le_self Nat.one_lt_two (hx.trans_le hxy)
    exact (nearestOfNonneg_le_zpow hbelow hlast.1).trans (zpow_le_nearestOfNonneg habove hlast.2.1)

theorem nearest_mono (hprecision : 0 < precision) : Monotone (nearest precision least) := by
  intro x y hxy
  unfold nearest
  split_ifs with hx hy hy
  · exact nearestOfNonneg_mono hprecision hx hxy
  · exact absurd (hx.trans hxy) hy
  · exact (neg_nonpos.mpr (nearestOfNonneg_nonneg (by linarith))).trans (nearestOfNonneg_nonneg hy)
  · exact neg_le_neg (nearestOfNonneg_mono hprecision (by linarith) (by linarith))

/-- Whole numbers of `precision` digits, and the power of two after them, are not changed. -/
theorem nearest_natCast (hprecision : 0 < precision) (hleast : least ≤ 0) {n : ℕ} (hn : n ≤ 2 ^ precision) :
    nearest precision least n = n := by
  rw [nearest, if_pos (Nat.cast_nonneg n)]
  rcases hn.eq_or_lt with rfl | hn
  · have hlast : lastExponent precision least ((2 ^ precision : ℕ) : ℚ) ≤ precision := by
      rw [lastExponent, Int.log_natCast, Nat.log_pow Nat.one_lt_two]
      omega
    have hdiv := div_zpow_eq_zpow hlast
    rw [zpow_natCast, ← Nat.cast_ofNat (n := 2), ← Nat.cast_pow] at hdiv
    exact nearestOfNonneg_eq_self hdiv
  · have hlast : lastExponent precision least (n : ℚ) ≤ 0 := by
      have hlog := Nat.log_lt_of_lt_pow' hprecision.ne' hn
      rw [lastExponent, Int.log_natCast]
      omega
    refine nearestOfNonneg_eq_self (n := n * 2 ^ (0 - lastExponent precision least (n : ℚ)).toNat) ?_
    rw [Int.cast_mul, ← div_zpow_eq_zpow hlast, zpow_zero, Int.cast_natCast, mul_one_div]

end Nearest

/-! ## Roundings -/

/-- A rounding that whole numbers up to `2 ^ 53` go through. -/
structure Rounding where
  round : ℚ → ℚ
  mono : Monotone round
  natCast : ∀ n : ℕ, n ≤ 2 ^ 53 → round n = n

namespace Rounding

instance : CoeFun Rounding fun _ => ℚ → ℚ := ⟨Rounding.round⟩

theorem nonneg (fl : Rounding) {x : ℚ} (hx : 0 ≤ x) : 0 ≤ fl x := by
  have hzero := fl.natCast 0 (by norm_num)
  rw [Nat.cast_zero] at hzero
  exact hzero.symm.le.trans (fl.mono hx)

theorem natCast_le (fl : Rounding) {n : ℕ} (hn : n ≤ 2 ^ 53) {x : ℚ} (hx : n ≤ x) : n ≤ fl x :=
  (fl.natCast n hn).symm.le.trans (fl.mono hx)

theorem le_natCast (fl : Rounding) {n : ℕ} (hn : n ≤ 2 ^ 53) {x : ℚ} (hx : x ≤ n) : fl x ≤ n :=
  (fl.mono hx).trans (fl.natCast n hn).le

/-- The arithmetic of rationals. -/
def exact : Rounding where
  round x := x
  mono := monotone_id
  natCast _ _ := rfl

@[simp] theorem exact_apply (x : ℚ) : exact x = x := rfl

/-- Double precision, without a largest number. -/
def binary64 : Rounding where
  round := nearest 53 (-1074)
  mono := nearest_mono (by norm_num)
  natCast _ h := nearest_natCast (by norm_num) (by norm_num) h

end Rounding
end LivestreamRs.Foundations
