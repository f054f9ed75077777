import Mathlib.Tactic

/-! # The last entry under a key

A log whose entries may carry a key, and the last entry under each. Whoever reads the last entry of a prefix has
read, for every entry of that prefix, the entry itself or a later one of the same key. Where the keys differ, entries
of a log are in its order as soon as their keys are.
-/
namespace LivestreamRs.Foundations
set_option autoImplicit false

section KeyedLog
variable {α κ : Type} [DecidableEq κ] (key : α → Option κ)

def latest (k : κ) (log : List α) : Option α := (log.filter fun a => key a = some k).getLast?

@[simp]
theorem latest_nil (k : κ) : latest key k [] = none := rfl

theorem latest_append (k : κ) (log : List α) (a : α) :
    latest key k (log ++ [a]) = if key a = some k then some a else latest key k log := by
  rw [latest, List.filter_append]
  by_cases ha : key a = some k
  · simp [ha]
  · simp [ha, latest]

theorem mem_of_latest {key : α → Option κ} {k : κ} {log : List α} {a : α} (h : latest key k log = some a) :
    a ∈ log ∧ key a = some k := by
  have hmem := List.mem_of_getLast? h
  rwa [List.mem_filter, decide_eq_true_iff] at hmem

theorem exists_latest {key : α → Option κ} {k : κ} {log : List α} {n : ℕ} {a : α} (hn : log[n]? = some a)
    (ha : key a = some k) : ∃ m ≥ n, ∃ b, log[m]? = some b ∧ key b = some k ∧ latest key k log = some b := by
  induction log using List.reverseRecOn with
  | nil => cases hn
  | append_singleton log last ih =>
    rw [latest_append]
    have hlt : n < (log ++ [last]).length := (List.getElem?_eq_some_iff.mp hn).1
    rw [List.length_append, List.length_singleton] at hlt
    by_cases hlast : key last = some k
    · exact ⟨log.length, Nat.le_of_lt_succ hlt, last, List.getElem?_concat_length, hlast, if_pos hlast⟩
    · have hold : log[n]? = some a := by
        rcases Nat.lt_succ_iff_lt_or_eq.mp hlt with hlt | rfl
        · rwa [List.getElem?_append_left hlt] at hn
        · rw [List.getElem?_concat_length] at hn
          obtain rfl := Option.some.inj hn
          exact absurd ha hlast
      obtain ⟨m, hm, b, hb, hkey, hlatest⟩ := ih hold
      refine ⟨m, hm, b, ?_, hkey, by rw [if_neg hlast, hlatest]⟩
      rw [List.getElem?_append_left (List.getElem?_eq_some_iff.mp hb).1]
      exact hb

theorem exists_eq_latest_iff {key : α → Option κ} {k : κ} {log : List α} :
    (∃ a, latest key k log = some a) ↔ ∃ a ∈ log, key a = some k := by
  constructor
  · rintro ⟨a, ha⟩
    exact ⟨a, mem_of_latest ha⟩
  · rintro ⟨a, hmem, hkey⟩
    obtain ⟨n, hn⟩ := List.getElem?_of_mem hmem
    obtain ⟨m, -, b, -, -, hb⟩ := exists_latest hn hkey
    exact ⟨b, hb⟩

end KeyedLog

section DistinctKeys
variable {κ β : Type}

theorem mem_tail_of_key {entry first : κ × β} {log : List (κ × β)} (hfirst : first.1 ∉ log.map Prod.fst)
    (hkey : entry.1 ∈ log.map Prod.fst) (hmem : entry ∈ first :: log) : entry ∈ log := by
  rcases List.mem_cons.mp hmem with rfl | hmem
  · exact absurd hkey hfirst
  · exact hmem

/-- Entries of a log with distinct keys, taken in the order of the keys. -/
theorem sublist_of_keys {entries log : List (κ × β)} (hnodup : (log.map Prod.fst).Nodup)
    (hkeys : (entries.map Prod.fst).Sublist (log.map Prod.fst)) (hmem : ∀ entry ∈ entries, entry ∈ log) :
    entries.Sublist log := by
  induction log generalizing entries with
  | nil => exact List.sublist_nil.mpr (List.map_eq_nil_iff.mp (List.sublist_nil.mp hkeys))
  | cons first log ih =>
    obtain ⟨hfirst, hnodup⟩ := List.nodup_cons.mp hnodup
    cases entries with
    | nil => exact List.nil_sublist _
    | cons entry entries =>
      rcases List.cons_sublist_cons'.mp hkeys with hkeys | ⟨hkey, hkeys⟩
      · rw [← List.map_cons] at hkeys
        exact (ih hnodup hkeys fun e he =>
          mem_tail_of_key hfirst (hkeys.subset (List.mem_map_of_mem he)) (hmem e he)).cons first
      · have hentry : entry = first := by
          rcases List.mem_cons.mp (hmem entry List.mem_cons_self) with heq | hlog
          · exact heq
          · exact absurd (hkey ▸ List.mem_map_of_mem hlog) hfirst
        rw [hentry]
        exact (ih hnodup hkeys fun e he => mem_tail_of_key hfirst (hkeys.subset (List.mem_map_of_mem he))
          (hmem e (List.mem_cons_of_mem _ he))).cons_cons first

end DistinctKeys
end LivestreamRs.Foundations
