import Mathlib.Data.List.Chain
import Mathlib.Tactic

/-! # A clock that wraps around

Readings of a clock that counts modulo `m`. `travelled` is the time that passes over a list of readings if each
advance is less than a whole turn. It is the difference of the last and the first reading as long as the readings do
not go down (`travelled_of_isChain`), and a turn or more once they do and come back (`le_travelled_of_not_isChain`).
-/
namespace LivestreamRs.Foundations
set_option autoImplicit false

/-- The time from one reading to the next. -/
def advance (m a b : ℕ) : ℕ := (((b : ℤ) - a) % m).toNat

def travelled (m : ℕ) : List ℕ → ℕ
  | a :: b :: l => advance m a b + travelled m (b :: l)
  | _ => 0

variable {m a b c z : ℕ} {l : List ℕ}

theorem advance_of_le (hle : a ≤ b) (hb : b < m) : advance m a b = b - a := by
  have hmod : ((b : ℤ) - a) % m = b - a := Int.emod_eq_of_lt (by omega) (by omega)
  rw [advance, hmod]
  omega

theorem advance_of_gt (hlt : b < a) (ha : a < m) : advance m a b = b + m - a := by
  have hmod : ((b : ℤ) - a) % m = b - a + m := by
    rw [← Int.add_emod_right]
    exact Int.emod_eq_of_lt (by omega) (by omega)
  rw [advance, hmod]
  omega

theorem travelled_append_cons (m : ℕ) (pre : List ℕ) (a : ℕ) (post : List ℕ) :
    travelled m (pre ++ a :: post) = travelled m (pre ++ [a]) + travelled m (a :: post) := by
  induction pre with
  | nil => exact (Nat.zero_add _).symm
  | cons p pre ih =>
    cases pre with
    | nil => simp [travelled]
    | cons q pre =>
      simp only [List.cons_append, travelled] at ih ⊢
      rw [ih, Nat.add_assoc]

/-! ## With and without a wrap -/

theorem travelled_of_isChain (hm : ∀ x ∈ l ++ [z], x < m) (h : (a :: (l ++ [z])).IsChain (· ≤ ·)) :
    a + travelled m (a :: (l ++ [z])) = z := by
  induction l generalizing a with
  | nil =>
    have haz : a ≤ z := by simpa using h
    simp only [List.nil_append, travelled, advance_of_le haz (hm z (by simp))]
    omega
  | cons b l ih =>
    obtain ⟨hab, hchain⟩ := List.isChain_cons_cons.mp h
    have hrest := ih (fun x hx => hm x (List.mem_cons_of_mem b hx)) hchain
    simp only [List.cons_append, travelled, advance_of_le hab (hm b List.mem_cons_self)]
    omega

theorem le_add_travelled (hm : ∀ x ∈ a :: (l ++ [z]), x < m) : z ≤ a + travelled m (a :: (l ++ [z])) := by
  induction l generalizing a with
  | nil =>
    have haz : travelled m [a, z] = advance m a z := rfl
    rw [List.nil_append, haz]
    rcases Nat.lt_or_ge z a with hlt | hle
    · omega
    · rw [advance_of_le hle (hm z (by simp))]
      omega
  | cons b l ih =>
    have hrest := ih fun x hx => hm x (List.mem_cons_of_mem a hx)
    simp only [List.cons_append, travelled]
    rcases Nat.lt_or_ge b a with hlt | hle
    · omega
    · rw [advance_of_le hle (hm b (by simp))]
      omega

/-- Readings that go down and come back to the first have gone around. -/
theorem le_travelled_of_not_isChain (hm : ∀ x ∈ a :: (l ++ [z]), x < m) (h : ¬ (a :: (l ++ [z])).IsChain (· ≤ ·)) :
    z + m ≤ a + travelled m (a :: (l ++ [z])) := by
  induction l generalizing a with
  | nil =>
    have hza : z < a := by simpa using h
    simp only [List.nil_append, travelled, advance_of_gt hza (hm a (by simp))]
    omega
  | cons b l ih =>
    have hm' : ∀ x ∈ b :: (l ++ [z]), x < m := fun x hx => hm x (List.mem_cons_of_mem a hx)
    simp only [List.cons_append, travelled]
    rcases Nat.lt_or_ge b a with hlt | hle
    · have hrest := le_add_travelled hm'
      rw [advance_of_gt hlt (hm a (by simp))]
      have hb := hm' b (by simp)
      omega
    · have hrest := ih hm' fun hchain => h (List.isChain_cons_cons.mpr ⟨hle, hchain⟩)
      rw [advance_of_le hle (hm' b (by simp))]
      omega

/-! ## Fewer readings -/

theorem advance_triangle (ha : a < m) (hb : b < m) (hc : c < m) : advance m a c ≤ advance m a b + advance m b c := by
  have key : ∀ x y, x < m → y < m → advance m x y = if x ≤ y then y - x else y + m - x := by
    intro x y hx hy
    split
    · exact advance_of_le ‹_› hy
    · exact advance_of_gt (not_le.mp ‹_›) hx
  rw [key a c ha hc, key a b ha hb, key b c hb hc]
  split_ifs <;> omega

theorem travelled_skip (hm : ∀ x ∈ a :: b :: l, x < m) : travelled m (a :: l) ≤ travelled m (a :: b :: l) := by
  cases l with
  | nil => exact Nat.zero_le _
  | cons c l =>
    have htri : advance m a c ≤ advance m a b + advance m b c :=
      advance_triangle (hm a (by simp)) (hm b (by simp)) (hm c (by simp))
    simp only [travelled]
    omega

theorem travelled_cons_sublist {l' : List ℕ} (h : l'.Sublist l) (hm : ∀ x ∈ a :: l, x < m) :
    travelled m (a :: l') ≤ travelled m (a :: l) := by
  induction h generalizing a with
  | slnil => exact le_rfl
  | cons b _ ih =>
    refine (ih fun x hx => hm x ?_).trans (travelled_skip hm)
    exact List.cons_subset_cons a (List.subset_cons_self b _) hx
  | cons_cons b _ ih => exact Nat.add_le_add_left (ih fun x hx => hm x (List.mem_cons_of_mem a hx)) _

theorem travelled_sublist {l' : List ℕ} (h : l'.Sublist l) (hm : ∀ x ∈ l, x < m) : travelled m l' ≤ travelled m l := by
  induction h with
  | slnil => exact le_rfl
  | @cons _ l b _ ih =>
    refine (ih fun x hx => hm x (List.mem_cons_of_mem b hx)).trans ?_
    cases l with
    | nil => exact le_rfl
    | cons c l => exact Nat.le_add_left _ _
  | cons_cons b h _ => exact travelled_cons_sublist h hm

end LivestreamRs.Foundations
