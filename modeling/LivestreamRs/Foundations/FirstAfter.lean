import Mathlib.Tactic

/-! # The first marked element after a trigger

A property of histories: after each trigger, the first marked element is good. As a history grows it is enough to know
whether a trigger is still pending, that is, has no marked element after it.
-/
namespace LivestreamRs.Foundations
set_option autoImplicit false

section History
variable {α : Type} (trigger marked good : α → Bool)

def FirstAfter (log : List α) : Prop :=
  ∀ pre x mid y post, log = pre ++ x :: (mid ++ y :: post) → trigger x = true → (∀ z ∈ mid, marked z = false) →
    marked y = true → good y = true

def Pending (log : List α) : Prop :=
  ∃ pre x mid, log = pre ++ x :: mid ∧ trigger x = true ∧ ∀ z ∈ mid, marked z = false

variable {trigger marked good}

theorem firstAfter_nil : FirstAfter trigger marked good [] := by
  intro pre x mid y post h
  simp at h

theorem not_pending_nil : ¬ Pending trigger marked [] := by
  rintro ⟨pre, x, mid, h, -⟩
  simp at h

theorem pending_concat {log : List α} {y : α} :
    Pending trigger marked (log ++ [y]) ↔ trigger y = true ∨ marked y = false ∧ Pending trigger marked log := by
  constructor
  · rintro ⟨pre, x, mid, h, hx, hmid⟩
    rcases List.eq_nil_or_concat' mid with rfl | ⟨mid, z, rfl⟩
    · obtain ⟨-, hy⟩ := List.append_inj' h rfl
      exact .inl (List.singleton_inj.mp hy ▸ hx)
    · rw [← List.cons_append, ← List.append_assoc] at h
      obtain ⟨hlog, hy⟩ := List.append_inj' h rfl
      obtain rfl := List.singleton_inj.mp hy
      refine .inr ⟨hmid y (by simp), pre, x, mid, hlog, hx, fun z hz => hmid z (by simp [hz])⟩
  · rintro (hy | ⟨hy, pre, x, mid, rfl, hx, hmid⟩)
    · exact ⟨log, y, [], rfl, hy, fun z hz => absurd hz List.not_mem_nil⟩
    · refine ⟨pre, x, mid ++ [y], by simp, hx, fun z hz => ?_⟩
      rcases List.mem_append.mp hz with hz | hz
      · exact hmid z hz
      · rw [List.mem_singleton.mp hz, hy]

theorem firstAfter_concat {log : List α} {y : α} :
    FirstAfter trigger marked good (log ++ [y]) ↔
      FirstAfter trigger marked good log ∧ (Pending trigger marked log → marked y = true → good y = true) := by
  constructor
  · refine fun h => ⟨fun pre x mid z post hlog hx hmid hz => ?_, ?_⟩
    · exact h pre x mid z (post ++ [y]) (by simp [hlog]) hx hmid hz
    · rintro ⟨pre, x, mid, rfl, hx, hmid⟩ hy
      exact h pre x mid y [] (by simp) hx hmid hy
  · rintro ⟨hlog, hnew⟩ pre x mid z post h hx hmid hz
    rcases List.eq_nil_or_concat' post with rfl | ⟨post, last, rfl⟩
    · rw [← List.cons_append, ← List.append_assoc] at h
      obtain ⟨hpre, hy⟩ := List.append_inj' h rfl
      obtain rfl := List.singleton_inj.mp hy
      exact hnew ⟨pre, x, mid, hpre, hx, hmid⟩ hz
    · have hsplit : pre ++ x :: (mid ++ z :: (post ++ [last])) = (pre ++ x :: (mid ++ z :: post)) ++ [last] := by simp
      rw [hsplit] at h
      obtain ⟨hpre, -⟩ := List.append_inj' h rfl
      exact hlog pre x mid z post hpre hx hmid hz

end History
end LivestreamRs.Foundations
