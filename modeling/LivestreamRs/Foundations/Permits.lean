import Mathlib.Tactic

/-! # Permits

A counter of what is left under a limit, `none` where there is no limit, and a list of tasks of which some hold a permit.
The counter and the holders are in balance when what is left is what the holders leave of the limit. A task that comes with
a permit, one that comes without, one that gives its permit back and one that goes on all keep the balance, and a permit is
refused exactly when the holders have reached the limit.
-/
namespace LivestreamRs.Foundations
set_option autoImplicit false

/-- What is left after a permit is taken; `none` if there was none to take. -/
def tryAcquire : Option ℕ → Option (Option ℕ)
  | none => some none
  | some 0 => none
  | some (n + 1) => some (some n)

theorem isSome_of_tryAcquire {left left' : Option ℕ} (h : tryAcquire left = some left') : left'.isSome = left.isSome := by
  cases left with
  | none =>
    obtain rfl := Option.some.inj h
    rfl
  | some n =>
    cases n with
    | zero => cases h
    | succ n =>
      obtain rfl := Option.some.inj h
      rfl

def releasePermit (left : Option ℕ) : Option ℕ := left.map (· + 1)

/-- What `held` permits leave of a limit. -/
structure Balanced (limit left : Option ℕ) (held : ℕ) : Prop where
  left_eq : left = limit.map (· - held)
  held_le : ∀ l, limit = some l → held ≤ l

namespace Balanced
variable {limit left left' : Option ℕ} {held : ℕ}

theorem initial (limit : Option ℕ) : Balanced limit limit 0 := by
  refine ⟨?_, fun l _ => Nat.zero_le l⟩
  cases limit <;> simp

/-- A permit is refused exactly when the limit is reached. -/
theorem refused_iff (h : Balanced limit left held) : tryAcquire left = none ↔ limit = some held := by
  rw [h.left_eq]
  cases limit with
  | none => simp [tryAcquire]
  | some l =>
    have hle := h.held_le l rfl
    rw [Option.map_some, Option.some.injEq]
    cases hn : l - held with
    | zero => exact iff_of_true rfl (by omega)
    | succ n => exact iff_of_false (by simp [tryAcquire]) (by omega)

/-- What happens where a permit is refused, and nowhere else, happens exactly at the limit. -/
theorem iff_of_refused {l : ℕ} {P : Prop} (h : Balanced (some l) left held) (hrefused : tryAcquire left = none → P)
    (hacquired : ∀ left', tryAcquire left = some left' → ¬ P) : P ↔ held = l := by
  constructor
  · intro hP
    cases hacquire : tryAcquire left with
    | none => exact (Option.some.inj (h.refused_iff.mp hacquire)).symm
    | some left' => exact absurd hP (hacquired left' hacquire)
  · intro heq
    exact hrefused (h.refused_iff.mpr (congrArg some heq.symm))

theorem acquire (h : Balanced limit left held) (hleft : tryAcquire left = some left') : Balanced limit left' (held + 1) := by
  rw [h.left_eq] at hleft
  cases limit with
  | none => exact ⟨by simpa [tryAcquire, eq_comm] using hleft, fun l hl => by cases hl⟩
  | some l =>
    have hle := h.held_le l rfl
    rw [Option.map_some] at hleft
    cases hn : l - held with
    | zero =>
      rw [hn] at hleft
      cases hleft
    | succ n =>
      rw [hn, tryAcquire, Option.some.injEq] at hleft
      refine ⟨?_, fun l' hl' => ?_⟩
      · rw [← hleft, Option.map_some, Option.some.injEq]
        omega
      · obtain rfl := Option.some.inj hl'
        omega

theorem release (h : Balanced limit left (held + 1)) : Balanced limit (releasePermit left) held := by
  refine ⟨?_, fun l hl => (Nat.le_succ held).trans (h.held_le l hl)⟩
  rw [h.left_eq, releasePermit]
  cases limit with
  | none => rfl
  | some l =>
    have hle := h.held_le l rfl
    simp only [Option.map_some, Option.some.injEq]
    omega

/-! ## Tasks that hold permits -/

section Tasks
variable {τ : Type} {holds : τ → Bool} {tasks : List τ} {i : ℕ} {t t' : τ}

theorem enter (h : Balanced limit left (tasks.countP holds)) (hleft : tryAcquire left = some left')
    (ht : holds t = true) : Balanced limit left' ((tasks ++ [t]).countP holds) := by
  rw [List.countP_append, List.countP_singleton, ht]
  exact h.acquire hleft

theorem pass (h : Balanced limit left (tasks.countP holds)) (ht : holds t = false) :
    Balanced limit left ((tasks ++ [t]).countP holds) := by
  rw [List.countP_append, List.countP_singleton, ht]
  exact h

theorem goOn (h : Balanced limit left (tasks.countP holds)) (hi : tasks[i]? = some t) (ht : holds t' = holds t) :
    Balanced limit left ((tasks.set i t').countP holds) := by
  obtain ⟨hlt, rfl⟩ := List.getElem?_eq_some_iff.mp hi
  have hmem : holds tasks[i] = true → 0 < tasks.countP holds := fun hp =>
    List.countP_pos_iff.mpr ⟨_, List.getElem_mem hlt, hp⟩
  rw [List.countP_set hlt, ht]
  split
  · next hp => rwa [Nat.sub_add_cancel (hmem hp)]
  · exact h

theorem leave (h : Balanced limit left (tasks.countP holds)) (hi : tasks[i]? = some t) (ht : holds t = true)
    (ht' : holds t' = false) : Balanced limit (releasePermit left) ((tasks.set i t').countP holds) := by
  obtain ⟨hlt, rfl⟩ := List.getElem?_eq_some_iff.mp hi
  have hpos : 0 < tasks.countP holds := List.countP_pos_iff.mpr ⟨_, List.getElem_mem hlt, ht⟩
  rw [List.countP_set hlt, ht, ht']
  refine release ?_
  simpa [Nat.sub_add_cancel hpos] using h

end Tasks

end Balanced

end LivestreamRs.Foundations
