import Mathlib.Tactic

/-! # Patterns with capture groups

Regular patterns over any alphabet, with greedy repetition of a class and greedy optional parts. A pattern can match
the front of an input in several ways; `parses` lists them in the order in which a backtracking matcher prefers them,
each with what the groups captured and what is left. An anchored match is the first one that leaves nothing.
-/
namespace LivestreamRs.Foundations
set_option autoImplicit false

/-- `ι` names the groups. -/
inductive Pattern (α ι : Type)
  -- one element of a class
  | one (p : α → Bool)
  -- `p*`
  | star (p : α → Bool)
  -- `p+`
  | plus (p : α → Bool)
  | seq (r s : Pattern α ι)
  -- `r?`
  | opt (r : Pattern α ι)
  | group (name : ι) (r : Pattern α ι)

namespace Pattern
variable {α ι : Type}

abbrev Captures (α ι : Type) := List (ι × List α)

/-- What `p*` leaves, the longest match first. -/
def starRests (p : α → Bool) : List α → List (List α)
  | [] => [[]]
  | a :: input => if p a then starRests p input ++ [a :: input] else [a :: input]

def parses : Pattern α ι → List α → List (Captures α ι × List α)
  | .one p, input =>
    match input with
    | [] => []
    | a :: rest => if p a then [([], rest)] else []
  | .star p, input => (starRests p input).map fun rest => ([], rest)
  | .plus p, input =>
    match input with
    | [] => []
    | a :: rest => if p a then (starRests p rest).map fun rest => ([], rest) else []
  | .seq r s, input =>
    (parses r input).flatMap fun (caps, mid) => (parses s mid).map fun (caps', rest) => (caps ++ caps', rest)
  | .opt r, input => parses r input ++ [([], input)]
  | .group name r, input =>
    (parses r input).map fun (caps, rest) => ((name, input.take (input.length - rest.length)) :: caps, rest)

/-- The captures of `^r$`. -/
def fullMatch (r : Pattern α ι) (input : List α) : Option (Captures α ι) :=
  ((parses r input).find? fun parse => parse.2.isEmpty).map Prod.fst

/-! ## What can match -/

/-- A non-empty run of a class at the front of a non-empty input. -/
theorem exists_run_cons {p : α → Bool} {a : α} {input rest : List α} :
    (∃ w, w ≠ [] ∧ a :: input = w ++ rest ∧ ∀ b ∈ w, p b = true) ↔
      p a = true ∧ ∃ w, input = w ++ rest ∧ ∀ b ∈ w, p b = true := by
  constructor
  · rintro ⟨_ | ⟨b, w⟩, hne, h, hw⟩
    · exact absurd rfl hne
    · obtain ⟨rfl, hinput⟩ := List.cons.inj h
      exact ⟨hw a (by simp), w, hinput, fun c hc => hw c (by simp [hc])⟩
  · rintro ⟨ha, w, rfl, hw⟩
    refine ⟨a :: w, List.cons_ne_nil a w, rfl, fun c hc => ?_⟩
    rcases List.mem_cons.mp hc with rfl | hc
    · exact ha
    · exact hw c hc

theorem mem_starRests {p : α → Bool} {input rest : List α} :
    rest ∈ starRests p input ↔ ∃ w, input = w ++ rest ∧ ∀ a ∈ w, p a = true := by
  induction input with
  | nil =>
    simp only [starRests, List.mem_singleton]
    constructor
    · rintro rfl
      exact ⟨[], rfl, fun a ha => absurd ha List.not_mem_nil⟩
    · rintro ⟨w, h, -⟩
      exact (List.append_eq_nil_iff.mp h.symm).2
  | cons a input ih =>
    have hsplit : (∃ w, a :: input = w ++ rest ∧ ∀ b ∈ w, p b = true) ↔
        rest = a :: input ∨ p a = true ∧ rest ∈ starRests p input := by
      rw [ih, ← exists_run_cons]
      constructor
      · rintro ⟨w, h, hw⟩
        by_cases hnil : w = []
        · exact .inl (by rw [h, hnil, List.nil_append])
        · exact .inr ⟨w, hnil, h, hw⟩
      · rintro (rfl | ⟨w, -, h, hw⟩)
        · exact ⟨[], rfl, fun a ha => absurd ha List.not_mem_nil⟩
        · exact ⟨w, h, hw⟩
    rw [hsplit, starRests]
    split
    · next ha => simp [ha, or_comm]
    · next ha => simp [ha]

theorem mem_one {p : α → Bool} {input rest : List α} {caps : Captures α ι} :
    (caps, rest) ∈ parses (.one p) input ↔ caps = [] ∧ ∃ a, input = a :: rest ∧ p a = true := by
  cases input with
  | nil => simp [parses]
  | cons a input =>
    rw [parses]
    split
    · next ha =>
      rw [List.mem_singleton, Prod.mk.injEq]
      refine and_congr_right fun _ => ⟨fun h => ⟨a, by rw [h], ha⟩, ?_⟩
      rintro ⟨b, h, -⟩
      exact (List.cons.inj h).2.symm
    · next ha =>
      refine ⟨fun h => absurd h List.not_mem_nil, ?_⟩
      rintro ⟨-, b, h, hb⟩
      exact absurd ((List.cons.inj h).1 ▸ hb) ha

theorem mem_star {p : α → Bool} {input rest : List α} {caps : Captures α ι} :
    (caps, rest) ∈ parses (.star p) input ↔ caps = [] ∧ ∃ w, input = w ++ rest ∧ ∀ a ∈ w, p a = true := by
  rw [parses, List.mem_map, ← mem_starRests]
  simp [Prod.ext_iff, eq_comm, and_comm]

theorem mem_plus {p : α → Bool} {input rest : List α} {caps : Captures α ι} :
    (caps, rest) ∈ parses (.plus p) input ↔ caps = [] ∧ ∃ w, w ≠ [] ∧ input = w ++ rest ∧ ∀ a ∈ w, p a = true := by
  cases input with
  | nil => simp [parses]
  | cons a input =>
    rw [parses, exists_run_cons, ← mem_starRests]
    split
    · next ha => simp [Prod.ext_iff, ha, eq_comm, and_comm]
    · next ha => simp [ha]

theorem mem_seq {r s : Pattern α ι} {input rest : List α} {caps : Captures α ι} :
    (caps, rest) ∈ parses (.seq r s) input ↔
      ∃ caps₁ mid caps₂, (caps₁, mid) ∈ parses r input ∧ (caps₂, rest) ∈ parses s mid ∧ caps = caps₁ ++ caps₂ := by
  rw [parses, List.mem_flatMap]
  constructor
  · rintro ⟨⟨caps₁, mid⟩, h₁, h₂⟩
    obtain ⟨⟨caps₂, rest'⟩, h₂, heq⟩ := List.mem_map.mp h₂
    cases heq
    exact ⟨caps₁, mid, caps₂, h₁, h₂, rfl⟩
  · rintro ⟨caps₁, mid, caps₂, h₁, h₂, rfl⟩
    exact ⟨(caps₁, mid), h₁, List.mem_map.mpr ⟨(caps₂, rest), h₂, rfl⟩⟩

theorem mem_opt {r : Pattern α ι} {input rest : List α} {caps : Captures α ι} :
    (caps, rest) ∈ parses (.opt r) input ↔ (caps, rest) ∈ parses r input ∨ caps = [] ∧ rest = input := by
  rw [parses, List.mem_append, List.mem_singleton, Prod.mk.injEq]

/-- A match leaves a tail of the input. -/
theorem exists_append {r : Pattern α ι} {input rest : List α} {caps : Captures α ι}
    (h : (caps, rest) ∈ parses r input) : ∃ w, input = w ++ rest := by
  induction r generalizing input rest caps with
  | one p =>
    obtain ⟨-, a, rfl, -⟩ := mem_one.mp h
    exact ⟨[a], rfl⟩
  | star p =>
    obtain ⟨-, w, rfl, -⟩ := mem_star.mp h
    exact ⟨w, rfl⟩
  | plus p =>
    obtain ⟨-, w, -, rfl, -⟩ := mem_plus.mp h
    exact ⟨w, rfl⟩
  | seq r s ihr ihs =>
    obtain ⟨caps₁, mid, caps₂, h₁, h₂, -⟩ := mem_seq.mp h
    obtain ⟨w₁, rfl⟩ := ihr h₁
    obtain ⟨w₂, rfl⟩ := ihs h₂
    exact ⟨w₁ ++ w₂, (List.append_assoc ..).symm⟩
  | opt r ih =>
    rcases mem_opt.mp h with h | ⟨-, rfl⟩
    · exact ih h
    · exact ⟨[], rfl⟩
  | group name r ih =>
    obtain ⟨⟨caps', rest'⟩, h', heq⟩ := List.mem_map.mp h
    cases heq
    exact ih h'

theorem mem_group {name : ι} {r : Pattern α ι} {input rest : List α} {caps : Captures α ι} :
    (caps, rest) ∈ parses (.group name r) input ↔
      ∃ w caps', input = w ++ rest ∧ (caps', rest) ∈ parses r input ∧ caps = (name, w) :: caps' := by
  have htext : ∀ w : List α, (w ++ rest).take ((w ++ rest).length - rest.length) = w := by
    intro w
    rw [List.length_append, Nat.add_sub_cancel, List.take_left]
  rw [parses, List.mem_map]
  constructor
  · rintro ⟨⟨caps', rest'⟩, h, heq⟩
    cases heq
    obtain ⟨w, rfl⟩ := exists_append h
    exact ⟨w, caps', rfl, h, by rw [htext]⟩
  · rintro ⟨w, caps', rfl, h, rfl⟩
    exact ⟨(caps', rest), h, by simp only [htext]⟩

/-! ## Anchored matches -/

theorem mem_of_fullMatch {r : Pattern α ι} {input : List α} {caps : Captures α ι} (h : fullMatch r input = some caps) :
    (caps, []) ∈ parses r input := by
  obtain ⟨⟨caps', rest⟩, hfind, rfl⟩ := Option.map_eq_some_iff.mp h
  have hempty := List.find?_some hfind
  obtain rfl : rest = [] := List.isEmpty_iff.mp hempty
  exact List.mem_of_find?_eq_some hfind

/-- Where there is only one way to match, its preference does not matter. -/
theorem fullMatch_of_unique {r : Pattern α ι} {input : List α} {caps : Captures α ι} (h : (caps, []) ∈ parses r input)
    (hunique : ∀ caps', (caps', []) ∈ parses r input → caps' = caps) : fullMatch r input = some caps := by
  cases hmatch : fullMatch r input with
  | none =>
    rw [fullMatch, Option.map_eq_none_iff, List.find?_eq_none] at hmatch
    exact absurd rfl (hmatch _ h)
  | some caps' => rw [hunique caps' (mem_of_fullMatch hmatch)]

end Pattern
end LivestreamRs.Foundations
