import Mathlib.Tactic

/-! # Counting holders

A list of owners, each of which holds one resource or none, and a counter for each resource. The counters are right if each
is the number of the owners that hold its resource, and what was reserved when it was made. Taking on an owner and letting one
go keep them right when the counter of what it holds moves by one.
-/
namespace LivestreamRs.Foundations
set_option autoImplicit false

section Holders
variable {α κ : Type} [DecidableEq κ] (holds : α → Option κ)

/-- The number of owners that hold a resource. -/
def holders (owners : List α) (k : κ) : ℕ := owners.countP fun a => holds a = some k

theorem holders_concat (owners : List α) (a : α) (k : κ) :
    holders holds (owners ++ [a]) k = holders holds owners k + if holds a = some k then 1 else 0 := by
  simp [holders, List.countP_append, List.countP_singleton]

theorem holders_eraseIdx {owners : List α} {i : ℕ} {a : α} (h : owners[i]? = some a) (k : κ) :
    holders holds (owners.eraseIdx i) k + (if holds a = some k then 1 else 0) = holders holds owners k := by
  obtain ⟨hi, rfl⟩ := List.getElem?_eq_some_iff.mp h
  have hcons := (List.getElem_cons_eraseIdx_perm hi).countP_eq fun a => decide (holds a = some k)
  rw [List.countP_cons] at hcons
  simpa only [holders, decide_eq_true_eq] using hcons

theorem holders_pos_iff {owners : List α} {k : κ} : 0 < holders holds owners k ↔ ∃ a ∈ owners, holds a = some k := by
  simp [holders, List.countP_pos_iff]

/-- Each counter is the number of the holders and what was reserved. -/
def CountersRight (counters reserved : κ → ℕ) (owners : List α) : Prop :=
  ∀ k, counters k = holders holds owners k + reserved k

namespace CountersRight
variable {holds} {counters reserved : κ → ℕ} {owners : List α} {i : ℕ} {a : α} {k : κ}

theorem acquire (h : CountersRight holds counters reserved owners) (ha : holds a = some k) :
    CountersRight holds (Function.update counters k (counters k + 1)) reserved (owners ++ [a]) := by
  intro k'
  rw [holders_concat, ha, Function.update_apply]
  by_cases hk : k' = k
  · subst hk
    rw [if_pos rfl, if_pos rfl, h k']
    omega
  · rw [if_neg hk, if_neg fun heq => hk (Option.some.inj heq).symm, h k', Nat.add_zero]

theorem pos (h : CountersRight holds counters reserved owners) (ha : a ∈ owners) (hk : holds a = some k) :
    0 < counters k := by
  have := (holders_pos_iff holds).mpr ⟨a, ha, hk⟩
  have := h k
  omega

theorem release (h : CountersRight holds counters reserved owners) (hi : owners[i]? = some a) (ha : holds a = some k) :
    CountersRight holds (Function.update counters k (counters k - 1)) reserved (owners.eraseIdx i) := by
  intro k'
  have hright := h k'
  have herase := holders_eraseIdx holds hi k'
  rw [Function.update_apply]
  by_cases hk : k' = k
  · subst hk
    rw [if_pos ha] at herase
    rw [if_pos rfl]
    omega
  · rw [ha, if_neg fun heq => hk (Option.some.inj heq).symm] at herase
    rw [if_neg hk]
    omega

/-- An owner that holds nothing. -/
theorem concat_idle (h : CountersRight holds counters reserved owners) (ha : holds a = none) :
    CountersRight holds counters reserved (owners ++ [a]) := by
  intro k
  rw [holders_concat, ha, if_neg (by simp), h k, Nat.add_zero]

theorem eraseIdx_idle (h : CountersRight holds counters reserved owners) (hi : owners[i]? = some a) (ha : holds a = none) :
    CountersRight holds counters reserved (owners.eraseIdx i) := by
  intro k
  have herase := holders_eraseIdx holds hi k
  rw [ha, if_neg (by simp), Nat.add_zero] at herase
  rw [herase, h k]

/-- A new counter, for a resource that no one holds. -/
theorem allocate (h : CountersRight holds counters reserved owners) (hk : holders holds owners k = 0) (value : ℕ) :
    CountersRight holds (Function.update counters k value) (Function.update reserved k value) owners := by
  intro k'
  rw [Function.update_apply, Function.update_apply]
  split
  · next heq => rw [heq, hk, Nat.zero_add]
  · exact h k'

end CountersRight
end Holders
end LivestreamRs.Foundations
