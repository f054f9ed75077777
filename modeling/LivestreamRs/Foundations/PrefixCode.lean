import Mathlib.Tactic

/-! # Words read off the front of an input

A code writes values as words. A reader looks at the front of an input and finds a value there, with the length of its
word. If it does so whatever follows the word, then words put one after the other are read back in turn, and in no
other way. If it finds nothing but words, then every input is some words, as many as can be, and a rest it finds none in.
-/
namespace LivestreamRs.Foundations
set_option autoImplicit false

section Reading
variable {α β : Type} (read : List β → Option (α × ℕ))

/-- Reads values up to the end of the input, at most `fuel` of them. -/
def readAll : ℕ → List β → Option (List α)
  | _, [] => some []
  | 0, _ :: _ => none
  | fuel + 1, b :: input =>
    match read (b :: input) with
    | none => none
    | some (a, n) => (readAll fuel ((b :: input).drop n)).map (a :: ·)

/-- The reader finds the words of a code whatever follows them. -/
structure Reads (IsWord : α → List β → Prop) : Prop where
  ne_nil : ∀ a w, IsWord a w → w ≠ []
  read_append : ∀ a w rest, IsWord a w → read (w ++ rest) = some (a, w.length)

/-- It finds nothing else. -/
structure ReadsOnly (IsWord : α → List β → Prop) : Prop extends Reads read IsWord where
  exact : ∀ input a n, read input = some (a, n) → ∃ w rest, input = w ++ rest ∧ IsWord a w

end Reading

section Rules
variable {α β : Type} {read : List β → Option (α × ℕ)} {IsWord : α → List β → Prop}

theorem readAll_append (hread : Reads read IsWord) {a : α} {w : List β} (hw : IsWord a w) (fuel : ℕ) (rest : List β) :
    readAll read (fuel + 1) (w ++ rest) = (readAll read fuel rest).map (a :: ·) := by
  have hfound := hread.read_append a w rest hw
  cases w with
  | nil => exact absurd rfl (hread.ne_nil a [] hw)
  | cons b w =>
    rw [List.cons_append] at hfound ⊢
    rw [readAll, hfound]
    change (readAll read fuel ((b :: w ++ rest).drop (b :: w).length)).map _ = _
    rw [List.drop_left]

/-- Words put one after the other are read back in turn. -/
theorem readAll_words (hread : Reads read IsWord) {as : List α} {ws : List (List β)} (hws : List.Forall₂ IsWord as ws)
    {fuel : ℕ} (hfuel : ws.flatten.length ≤ fuel) : readAll read fuel ws.flatten = some as := by
  induction hws generalizing fuel with
  | nil => cases fuel <;> rfl
  | @cons a w as ws hw _ ih =>
    rw [List.flatten_cons, List.length_append] at hfuel
    have hpos : 0 < w.length := List.length_pos_iff.mpr (hread.ne_nil a w hw)
    obtain ⟨fuel, rfl⟩ : ∃ n, fuel = n + 1 := ⟨fuel - 1, by omega⟩
    rw [List.flatten_cons, readAll_append hread hw, ih (by omega), Option.map_some]

/-- An input is the words of at most one list of values. -/
theorem words_unique (hread : Reads read IsWord) {as as' : List α} {ws ws' : List (List β)}
    (hws : List.Forall₂ IsWord as ws) (hws' : List.Forall₂ IsWord as' ws') (h : ws.flatten = ws'.flatten) :
    as = as' := by
  have has := readAll_words hread hws le_rfl
  rw [h, readAll_words hread hws' le_rfl] at has
  exact (Option.some.inj has).symm

theorem exists_words (hread : ReadsOnly read IsWord) (input : List β) :
    ∃ as ws rest, List.Forall₂ IsWord as ws ∧ input = ws.flatten ++ rest ∧ read rest = none := by
  induction hlen : input.length using Nat.strong_induction_on generalizing input with
  | _ n ih =>
    cases hfound : read input with
    | none => exact ⟨[], [], input, .nil, rfl, hfound⟩
    | some found =>
      obtain ⟨w, rest, rfl, hw⟩ := hread.exact input found.1 found.2 hfound
      have hpos : 0 < w.length := List.length_pos_iff.mpr (hread.ne_nil _ w hw)
      rw [List.length_append] at hlen
      obtain ⟨as, ws, last, hws, hrest, hlast⟩ := ih rest.length (by omega) rest rfl
      exact ⟨found.1 :: as, w :: ws, last, .cons hw hws, by rw [hrest, List.flatten_cons, List.append_assoc], hlast⟩

/-- Any words an input begins with are the first of those that leave a rest without a word. -/
theorem words_isPrefix (hread : Reads read IsWord) {as as' : List α} {ws ws' : List (List β)} {rest rest' : List β}
    (hws : List.Forall₂ IsWord as ws) (hws' : List.Forall₂ IsWord as' ws')
    (h : ws.flatten ++ rest = ws'.flatten ++ rest') (hlast : read rest = none) : as' <+: as ∧ ws' <+: ws := by
  induction hws' generalizing as ws with
  | nil => exact ⟨List.nil_prefix, List.nil_prefix⟩
  | @cons a' w' as' ws' hw' _ ih =>
    rw [List.flatten_cons, List.append_assoc] at h
    have hfound' := hread.read_append a' w' (ws'.flatten ++ rest') hw'
    cases hws with
    | nil =>
      rw [← h, List.flatten_nil, List.nil_append, hlast] at hfound'
      cases hfound'
    | @cons a w as ws hw hws =>
      rw [List.flatten_cons, List.append_assoc] at h
      have hfound := hread.read_append a w (ws.flatten ++ rest) hw
      rw [h, hfound'] at hfound
      obtain ⟨rfl, hlen⟩ := Prod.mk.inj (Option.some.inj hfound)
      obtain ⟨rfl, hrest⟩ := List.append_inj h hlen.symm
      obtain ⟨has, hwords⟩ := ih hws hrest
      exact ⟨List.cons_prefix_cons.mpr ⟨rfl, has⟩, List.cons_prefix_cons.mpr ⟨rfl, hwords⟩⟩

end Rules
end LivestreamRs.Foundations
