import Mathlib.Tactic

/-! # Fields of a list

The fields of a list are the parts between its separators, one more than there are separators. An iterator hands them out
one at a time and looks no further than the next separator; what it still has to hand out is a list of fields again.
-/
namespace LivestreamRs.Foundations
set_option autoImplicit false

section Fields
variable {α : Type}

/-- No field holds a separator. -/
theorem not_mem_of_mem_splitOnP {p : α → Bool} {items field : List α} (h : field ∈ items.splitOnP p) {a : α}
    (ha : p a = true) : a ∉ field := by
  induction items generalizing field with
  | nil =>
    rw [List.splitOnP_nil, List.mem_singleton] at h
    simp [h]
  | cons item items ih =>
    rw [List.splitOnP_cons_eq_if_modifyHead] at h
    split at h
    · rcases List.mem_cons.mp h with rfl | h
      · exact List.not_mem_nil
      · exact ih h
    · next hitem =>
      obtain ⟨first, rest, hfields⟩ := List.exists_cons_of_ne_nil (List.splitOnP_ne_nil p items)
      rw [hfields] at ih h
      rw [List.modifyHead_cons] at h
      rcases List.mem_cons.mp h with rfl | h
      · rw [List.mem_cons, not_or]
        exact ⟨fun heq => hitem (heq ▸ ha), ih List.mem_cons_self⟩
      · exact ih (List.mem_cons_of_mem _ h)

variable [DecidableEq α] (sep : α)

theorem length_splitOn (items : List α) : (items.splitOn sep).length = items.count sep + 1 := by
  induction items with
  | nil => rfl
  | cons item items ih =>
    rw [List.splitOn] at ih ⊢
    rw [List.splitOnP_cons_eq_if_modifyHead, List.count_cons]
    split
    · rw [List.length_cons, ih]
    · rw [List.length_modifyHead, ih, Nat.add_zero]

/-- An iterator over the fields of `v`. -/
structure Split (α : Type) where
  v : List α
  finished : Bool := false

namespace Split

def next (s : Split α) : Option (List α) × Split α :=
  if s.finished then (none, s)
  else
    match s.v.findIdx? (· == sep) with
    | none => (some s.v, { s with finished := true })
    | some i => (some (s.v.take i), { s with v := s.v.drop (i + 1) })

/-- The fields still to come. -/
def fields (s : Split α) : List (List α) := if s.finished then [] else s.v.splitOn sep

variable {sep} {s : Split α}

theorem next_of_nil (h : s.fields sep = []) : s.next sep = (none, s) := by
  unfold fields at h
  split at h
  · next hfinished => rw [next, if_pos hfinished]
  · exact absurd h (List.splitOnP_ne_nil _ _)

/-- A call returns the next field and leaves those after it. -/
theorem next_of_cons {field : List α} {more : List (List α)} (h : s.fields sep = field :: more) :
    ∃ s', s.next sep = (some field, s') ∧ s'.fields sep = more := by
  unfold fields at h
  split at h
  · cases h
  next hopen =>
  rw [next, if_neg hopen]
  cases hfound : s.v.findIdx? (· == sep) with
  | none =>
    have hsep : sep ∉ s.v := fun hmem => by
      have := List.findIdx?_eq_none_iff.mp hfound sep hmem
      simp at this
    rw [List.splitOn_eq_singleton hsep] at h
    obtain ⟨rfl, rfl⟩ := List.cons.inj h
    exact ⟨_, rfl, if_pos rfl⟩
  | some i =>
    obtain ⟨hi, heq, hbefore⟩ := List.findIdx?_eq_some_iff_getElem.mp hfound
    have hv : s.v.take i ++ sep :: s.v.drop (i + 1) = s.v := by
      rw [← beq_iff_eq.mp heq, List.getElem_cons_drop, List.take_append_drop]
    have hsep : sep ∉ s.v.take i := fun hmem => by
      obtain ⟨j, hj, hjsep⟩ := List.mem_iff_getElem.mp hmem
      rw [List.length_take] at hj
      rw [List.getElem_take] at hjsep
      exact hbefore j (by omega) (beq_iff_eq.mpr hjsep)
    rw [← hv, List.splitOn_append_cons_self, List.splitOn_eq_singleton hsep] at h
    obtain ⟨rfl, rfl⟩ := List.cons.inj h
    exact ⟨_, rfl, if_neg hopen⟩

end Split
end Fields
end LivestreamRs.Foundations
