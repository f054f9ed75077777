import Mathlib.Tactic

/-! # Records of a sequence

The records of a list are its first element and every later one whose key is above those of all records before it. A
filter that keeps the last key it let through, and lets through what is above it, returns the records.
-/
namespace LivestreamRs.Foundations
set_option autoImplicit false

section Records
variable {α κ : Type} [LinearOrder κ] (key : α → κ)

/-- The records, above the key reached so far if there is one. -/
def records : Option κ → List α → List α
  | _, [] => []
  | none, a :: as => a :: records (some (key a)) as
  | some k, a :: as => if key a ≤ k then records (some k) as else a :: records (some (key a)) as

theorem records_subset (reached : Option κ) (as : List α) : records key reached as ⊆ as := by
  induction as generalizing reached with
  | nil => cases reached <;> exact List.Subset.refl []
  | cons a as ih =>
    cases reached with
    | none => exact List.cons_subset_cons a (ih _)
    | some k =>
      rw [records]
      split
      · exact List.subset_cons_of_subset a (ih _)
      · exact List.cons_subset_cons a (ih _)

theorem lt_of_mem_records {k : κ} {as : List α} : ∀ a ∈ records key (some k) as, k < key a := by
  induction as generalizing k with
  | nil => simp [records]
  | cons b as ih =>
    rw [records]
    split
    · exact ih
    · next hb =>
      have hlt := not_le.mp hb
      exact List.forall_mem_cons.mpr ⟨hlt, fun a ha => hlt.trans (ih a ha)⟩

/-- The keys of the records increase. -/
theorem pairwise_records (reached : Option κ) (as : List α) :
    (records key reached as).Pairwise fun a b => key a < key b := by
  induction as generalizing reached with
  | nil => cases reached <;> exact List.Pairwise.nil
  | cons a as ih =>
    cases reached with
    | none => exact List.Pairwise.cons (lt_of_mem_records key) (ih _)
    | some k =>
      rw [records]
      split
      · exact ih _
      · exact List.Pairwise.cons (lt_of_mem_records key) (ih _)

/-- A list whose keys increase consists of records. -/
theorem records_eq_self {as : List α} (h : as.Pairwise fun a b => key a < key b) (reached : Option κ)
    (hreached : ∀ k ∈ reached, ∀ a ∈ as, k < key a) : records key reached as = as := by
  induction as generalizing reached with
  | nil => cases reached <;> rfl
  | cons a as ih =>
    obtain ⟨hlater, has⟩ := List.pairwise_cons.mp h
    have hrest : records key (some (key a)) as = as := ih has _ (by simpa using hlater)
    cases reached with
    | none => rw [records, hrest]
    | some k => rw [records, if_neg (not_le.mpr (hreached k rfl a List.mem_cons_self)), hrest]

end Records

/-- Increasing integer keys span at least as many integers as there are elements. -/
theorem add_length_le_of_pairwise {α : Type} (key : α → ℤ) (a b : α) (as : List α)
    (h : (a :: as ++ [b]).Pairwise fun x y => key x < key y) : key a + as.length + 1 ≤ key b := by
  induction as generalizing a with
  | nil =>
    have hlt := (List.pairwise_cons.mp h).1 b (by simp)
    simp only [List.length_nil]
    omega
  | cons c as ih =>
    obtain ⟨hlater, hrest⟩ := List.pairwise_cons.mp h
    have hlt := hlater c (by simp)
    have hle := ih c hrest
    simp only [List.length_cons]
    omega

end LivestreamRs.Foundations
