import Mathlib.Tactic

/-! # Big-endian byte words

Fixed-width big-endian coding of natural numbers as byte lists: `toBe k n` is the word of the `k` low
bytes of `n`, `fromBe w` the number a word spells. Nothing here knows about media formats.
-/
namespace LivestreamRs.BigEndian
set_option autoImplicit false

/-- The `k` low bytes of `n`, most significant byte first. -/
def toBe : ℕ → ℕ → List UInt8
  | 0, _ => []
  | k + 1, n => UInt8.ofNat (n / 256 ^ k) :: toBe k n

/-- The number a byte word spells, most significant byte first. -/
def fromBe : List UInt8 → ℕ
  | [] => 0
  | b :: w => b.toNat * 256 ^ w.length + fromBe w

@[simp] theorem toBe_length (k n : ℕ) : (toBe k n).length = k := by
  induction k with
  | zero => rfl
  | succ k ih => simp [toBe, ih]

theorem fromBe_toBe_mod (k n : ℕ) : fromBe (toBe k n) = n % 256 ^ k := by
  induction k with
  | zero => simp [toBe, fromBe, Nat.mod_one]
  | succ k ih =>
    simp only [toBe, fromBe, toBe_length, ih, UInt8.toNat_ofNat']
    rw [show 256 ^ (k + 1) = 256 ^ k * 256 from pow_succ 256 k, Nat.mod_mul, Nat.add_comm, Nat.mul_comm]

theorem fromBe_toBe {k n : ℕ} (h : n < 256 ^ k) : fromBe (toBe k n) = n := by
  rw [fromBe_toBe_mod, Nat.mod_eq_of_lt h]

theorem toBe_inj {k a b : ℕ} (ha : a < 256 ^ k) (hb : b < 256 ^ k) : toBe k a = toBe k b ↔ a = b := by
  refine ⟨fun h => ?_, fun h => h ▸ rfl⟩
  rw [← fromBe_toBe ha, ← fromBe_toBe hb, h]

theorem fromBe_lt (w : List UInt8) : fromBe w < 256 ^ w.length := by
  induction w with
  | nil => simp [fromBe]
  | cons b w ih =>
    have hb := b.toNat_lt
    rw [fromBe, List.length_cons, pow_succ]
    nlinarith

theorem toBe_add_mul (k n m : ℕ) : toBe k (m * 256 ^ k + n) = toBe k n := by
  induction k generalizing m with
  | zero => rfl
  | succ k ih =>
    have hpow : m * 256 ^ (k + 1) = m * 256 * 256 ^ k := by ring
    have hdiv : (m * 256 * 256 ^ k + n) / 256 ^ k = m * 256 + n / 256 ^ k := by
      rw [Nat.add_comm, Nat.add_mul_div_right _ _ (by positivity), Nat.add_comm]
    rw [toBe, toBe, hpow, hdiv, ih]
    congr 1
    rw [← UInt8.toNat_inj]
    simp [UInt8.toNat_ofNat']

theorem toBe_mod (k n : ℕ) : toBe k (n % 256 ^ k) = toBe k n := by
  rw [← toBe_add_mul k (n % 256 ^ k) (n / 256 ^ k), Nat.div_add_mod']

theorem toBe_fromBe (w : List UInt8) : toBe w.length (fromBe w) = w := by
  induction w with
  | nil => rfl
  | cons b w ih =>
    have hdiv : (b.toNat * 256 ^ w.length + fromBe w) / 256 ^ w.length = b.toNat := by
      rw [Nat.add_comm, Nat.add_mul_div_right _ _ (by positivity), Nat.div_eq_of_lt (fromBe_lt w), Nat.zero_add]
    rw [List.length_cons, toBe, fromBe, hdiv, toBe_add_mul, ih, UInt8.ofNat_toNat]

theorem exists_toBe {w : List UInt8} {k : ℕ} (hw : w.length = k) : ∃ v < 256 ^ k, toBe k v = w :=
  ⟨fromBe w, hw ▸ fromBe_lt w, hw ▸ toBe_fromBe w⟩

theorem toBe_eq_iff {k n : ℕ} {w : List UInt8} (hn : n < 256 ^ k) (hw : w.length = k) :
    toBe k n = w ↔ n = fromBe w := by
  constructor
  · intro h
    rw [← h, fromBe_toBe hn]
  · intro h
    rw [h, ← hw, toBe_fromBe]

/-- Three bytes put together with shifts are the number they spell. -/
theorem shiftOr_eq_fromBe (b₀ b₁ b₂ : UInt8) :
    (b₀.toNat <<< 16 ||| b₁.toNat <<< 8) ||| b₂.toNat = fromBe [b₀, b₁, b₂] := by
  have h₁ : b₁.toNat < 2 ^ 8 := b₁.toNat_lt
  have h₂ : b₂.toNat < 2 ^ 8 := b₂.toNat_lt
  have hhi : b₀.toNat <<< 16 ||| b₁.toNat <<< 8 = (b₀.toNat <<< 8 + b₁.toNat) <<< 8 := by
    rw [Nat.shiftLeft_add_eq_or_of_lt h₁, Nat.shiftLeft_or_distrib, ← Nat.shiftLeft_add]
  rw [hhi, ← Nat.shiftLeft_add_eq_or_of_lt h₂]
  simp only [Nat.shiftLeft_eq, fromBe, List.length_cons, List.length_nil]
  ring

end LivestreamRs.BigEndian
