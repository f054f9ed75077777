import Mathlib.Data.List.Chain
import Mathlib.Tactic

/-! # A log cut into segments

A log that is written item by item and cut now and then: `closed` are the segments cut off so far,
`current` the open one. Cutting and writing lose and duplicate nothing (`flatten_step`), a segment only
grows (`Grows`), and a relation between neighbouring segments can be kept up one step at a time
(`isChain_step`).
-/
namespace LivestreamRs.Foundations
set_option autoImplicit false

structure Cuts (π : Type) where
  closed : List (List π) := []
  current : List π := []

namespace Cuts
variable {π : Type}

def segments (c : Cuts π) : List (List π) := c.closed ++ [c.current]

def cut (c : Cuts π) : Cuts π where
  closed := c.closed ++ [c.current]
  current := []

def put (c : Cuts π) (p : π) : Cuts π where
  closed := c.closed
  current := c.current ++ [p]

/-- One item: the log may be cut before it, and the item may be skipped. -/
def step (c : Cuts π) (cutBefore keep : Bool) (p : π) : Cuts π :=
  let c := if cutBefore then c.cut else c
  if keep then c.put p else c

theorem segments_cut (c : Cuts π) : c.cut.segments = c.segments ++ [[]] := rfl

theorem segments_put (c : Cuts π) (p : π) : (c.put p).segments = c.closed ++ [c.current ++ [p]] := rfl

theorem flatten_cut (c : Cuts π) : c.cut.segments.flatten = c.segments.flatten := by
  simp [segments, cut]

theorem flatten_put (c : Cuts π) (p : π) : (c.put p).segments.flatten = c.segments.flatten ++ [p] := by
  simp [segments, put]

theorem flatten_step (c : Cuts π) (cutBefore keep : Bool) (p : π) :
    (c.step cutBefore keep p).segments.flatten = c.segments.flatten ++ [p].filter fun _ => keep := by
  cases cutBefore <;> cases keep <;> simp [step, flatten_cut, flatten_put]

/-- What is in the open segment after a step: the item itself, and what was there unless it was cut off. -/
theorem mem_current_step (c : Cuts π) (cutBefore keep : Bool) (p q : π)
    (h : q ∈ (c.step cutBefore keep p).current) :
    (keep = true ∧ q = p) ∨ (cutBefore = false ∧ q ∈ c.current) := by
  cases cutBefore <;> cases keep <;> simp_all [step, cut, put, or_comm]

/-! ## Segments only grow -/

/-- Every segment of the first log is the beginning of the segment at its place in the second. -/
def Grows (c c' : Cuts π) : Prop :=
  ∀ (i : ℕ) (l : List π), c.segments[i]? = some l → ∃ l', c'.segments[i]? = some l' ∧ l <+: l'

theorem Grows.refl (c : Cuts π) : c.Grows c := fun _ l h => ⟨l, h, List.prefix_rfl⟩

theorem Grows.trans {c₁ c₂ c₃ : Cuts π} (h₁ : c₁.Grows c₂) (h₂ : c₂.Grows c₃) : c₁.Grows c₃ := by
  intro i l hl
  obtain ⟨l', hl', hp⟩ := h₁ i l hl
  obtain ⟨l'', hl'', hp'⟩ := h₂ i l' hl'
  exact ⟨l'', hl'', hp.trans hp'⟩

theorem grows_cut (c : Cuts π) : c.Grows c.cut := by
  intro i l hl
  refine ⟨l, ?_, List.prefix_rfl⟩
  rw [segments_cut, List.getElem?_append_left (List.getElem?_eq_some_iff.mp hl).1, hl]

theorem grows_put (c : Cuts π) (p : π) : c.Grows (c.put p) := by
  intro i l hl
  rw [segments_put]
  obtain hi | hi := Nat.lt_or_ge i c.closed.length
  · refine ⟨l, ?_, List.prefix_rfl⟩
    rwa [segments, List.getElem?_append_left hi, ← List.getElem?_append_left hi] at hl
  · have hlast : i = c.closed.length := by
      have hlt := (List.getElem?_eq_some_iff.mp hl).1
      simp only [segments, List.length_append, List.length_singleton] at hlt
      omega
    subst hlast
    rw [segments, List.getElem?_concat_length, Option.some_inj] at hl
    exact ⟨c.current ++ [p], List.getElem?_concat_length, hl ▸ List.prefix_append _ _⟩

theorem grows_step (c : Cuts π) (cutBefore keep : Bool) (p : π) : c.Grows (c.step cutBefore keep p) := by
  cases cutBefore <;> cases keep
  · exact .refl c
  · exact grows_put c p
  · exact grows_cut c
  · exact (grows_cut c).trans (grows_put c.cut p)

/-! ## Neighbouring segments -/

variable {R : List π → List π → Prop}

theorem isChain_segments_append (c : Cuts π) (l : List π) (h : c.segments.IsChain R) (hnew : R c.current l) :
    (c.segments ++ [l]).IsChain R := by
  rw [List.isChain_append]
  exact ⟨h, List.isChain_singleton _, by simpa [segments] using hnew⟩

theorem isChain_put (c : Cuts π) (p : π) (h : c.segments.IsChain R)
    (hgrow : ∀ a, R a c.current → R a (c.current ++ [p])) : (c.put p).segments.IsChain R := by
  rw [segments, List.isChain_append] at h
  rw [segments_put, List.isChain_append]
  refine ⟨h.1, List.isChain_singleton _, fun a ha b hb => ?_⟩
  obtain rfl : c.current ++ [p] = b := by simpa using hb
  exact hgrow a (h.2.2 a ha c.current rfl)

/-- One step keeps neighbouring segments related if the new segment it may start is related to the one
it closes, and the one it extends stays related to its predecessor. -/
theorem isChain_step (c : Cuts π) (cutBefore keep : Bool) (p : π) (h : c.segments.IsChain R)
    (hnew : cutBefore = true → R c.current ([p].filter fun _ => keep))
    (hgrow : ∀ a, R a c.current → R a (c.current ++ [p])) : (c.step cutBefore keep p).segments.IsChain R := by
  cases cutBefore with
  | false =>
    cases keep with
    | false => exact h
    | true => exact isChain_put c p h hgrow
  | true =>
    have hsnoc := isChain_segments_append c _ h (hnew rfl)
    cases keep with
    | false => exact hsnoc
    | true => exact hsnoc

end Cuts
end LivestreamRs.Foundations
