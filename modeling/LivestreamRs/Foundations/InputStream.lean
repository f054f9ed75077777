import Mathlib.Tactic

/-! # Streams read in pieces

A read of an input stream returns some of the items still to come, at least one unless none are left. How many
is up to the stream: a socket returns what has arrived, a buffered reader what it holds. `readExact` reads on
until it has a given number of items. A program that reads with `readExact` alone cannot tell how the stream is
cut into pieces: it simulates the same program on the plain list of the items (`Simulates`).
-/
namespace LivestreamRs.Foundations
set_option autoImplicit false

class InputStream (σ : Type) (β : outParam Type) where
  read : ℕ → σ → List β × σ
  /-- the items still to come -/
  contents : σ → List β
  read_append : ∀ n s, (read n s).1 ++ contents (read n s).2 = contents s
  length_read_le : ∀ n s, (read n s).1.length ≤ n
  read_ne_nil : ∀ n s, 0 < n → contents s ≠ [] → (read n s).1 ≠ []

export InputStream (read contents)

theorem contents_eq_nil_of_read {σ β : Type} [InputStream σ β] {n : ℕ} {s : σ} (hn : 0 < n)
    (h : (read n s).1 = []) : contents s = [] := by
  by_contra hne
  exact InputStream.read_ne_nil n s hn hne h

section Pieces
variable {σ β : Type} [InputStream σ β]

/-- One read after the other, each asking for the given number of items. -/
def readPieces : List ℕ → σ → List (List β) × σ
  | [], s => ([], s)
  | n :: sizes, s => ((read n s).1 :: (readPieces sizes (read n s).2).1, (readPieces sizes (read n s).2).2)

theorem readPieces_append (sizes : List ℕ) (s : σ) :
    (readPieces sizes s).1.flatten ++ contents (readPieces sizes s).2 = contents s := by
  induction sizes generalizing s with
  | nil => rfl
  | cons n sizes ih =>
    simp only [readPieces, List.flatten_cons, List.append_assoc, ih]
    exact InputStream.read_append n s

/-- More reads return more. -/
theorem readPieces_mono (sizes more : List ℕ) (s : σ) :
    (readPieces sizes s).1.flatten <+: (readPieces (sizes ++ more) s).1.flatten := by
  induction sizes generalizing s with
  | nil => exact List.nil_prefix
  | cons n sizes ih =>
    simp only [List.cons_append, readPieces, List.flatten_cons]
    exact (List.prefix_append_right_inj _).mpr (ih _)

/-- Reads that ask for `n` items each, and none of which finds the end, return these pieces. -/
inductive ReadsInto (n : ℕ) : σ → List (List β) → σ → Prop
  | done (s : σ) : ReadsInto n s [] s
  | next (s t : σ) (pieces : List (List β)) (hne : (read n s).1 ≠ []) (rest : ReadsInto n (read n s).2 pieces t) :
      ReadsInto n s ((read n s).1 :: pieces) t

/-- Every stream is read to its end in such pieces. -/
theorem exists_readsInto {n : ℕ} (hn : 0 < n) (s : σ) :
    ∃ pieces t, ReadsInto n s pieces t ∧ pieces.flatten = contents s := by
  generalize hlength : (contents s).length = k
  induction k using Nat.strong_induction_on generalizing s with
  | _ k ih =>
    have happend := InputStream.read_append n s
    by_cases hnil : contents s = []
    · exact ⟨[], s, .done s, hnil.symm⟩
    · have hne := InputStream.read_ne_nil n s hn hnil
      have hpos := List.length_pos_iff.mpr hne
      have hsum := congrArg List.length happend
      rw [List.length_append, hlength] at hsum
      obtain ⟨pieces, t, hreads, hflatten⟩ := ih _ (by omega) (read n s).2 rfl
      exact ⟨_, t, .next s t pieces hne hreads, by rw [List.flatten_cons, hflatten, happend]⟩

end Pieces

/-! ## Streams -/

instance listStream (β : Type) : InputStream (List β) β where
  read n s := (s.take n, s.drop n)
  contents s := s
  read_append := List.take_append_drop
  length_read_le n s := by simp
  read_ne_nil n s hn hs := by simp [hs, hn.ne']

/-- A socket: what each read to come finds, if it asks for enough. -/
structure Socket (β : Type) where
  chunks : List (List β)
  ne_nil : ∀ c ∈ chunks, c ≠ []

namespace Socket
variable {β : Type}

def read (n : ℕ) (s : Socket β) : List β × Socket β :=
  match h : s.chunks with
  | [] => ([], s)
  | c :: cs =>
    have hmem : ∀ d ∈ c :: cs, d ≠ [] := h ▸ s.ne_nil
    if hlong : n < c.length then
      (c.take n, ⟨c.drop n :: cs, List.forall_mem_cons.mpr
        ⟨by simpa using hlong, (List.forall_mem_cons.mp hmem).2⟩⟩)
    else (c, ⟨cs, (List.forall_mem_cons.mp hmem).2⟩)

theorem read_nil {n : ℕ} {s : Socket β} (h : s.chunks = []) : s.read n = ([], s) := by
  unfold read
  split
  · rfl
  · next heq => rw [h] at heq; cases heq

/-- A read that asks for enough takes the next chunk. -/
theorem read_cons {n : ℕ} {s : Socket β} {c : List β} {cs : List (List β)} (h : s.chunks = c :: cs)
    (hlong : c.length ≤ n) : (s.read n).1 = c ∧ (s.read n).2.chunks = cs := by
  unfold read
  split
  · next heq => rw [h] at heq; cases heq
  · next d ds heq =>
    obtain ⟨rfl, rfl⟩ := List.cons.inj (h.symm.trans heq)
    dsimp only
    rw [dif_neg (Nat.not_lt.mpr hlong)]
    exact ⟨rfl, rfl⟩

instance : InputStream (Socket β) β where
  read := read
  contents s := s.chunks.flatten
  read_append n s := by
    unfold read
    split
    · next h => simp [h]
    · next c cs h =>
      dsimp only
      split <;> simp [h, ← List.append_assoc]
  length_read_le n s := by
    unfold read
    split
    · simp
    · dsimp only
      split
      · simp
      · next hlong => exact Nat.not_lt.mp hlong
  read_ne_nil n s hn hs := by
    unfold read
    split
    · next h => simp [h] at hs
    · next c cs h =>
      have hc : c ≠ [] := s.ne_nil c (h ▸ List.mem_cons_self)
      dsimp only
      split
      · simp [hc, hn.ne']
      · exact hc

end Socket

/-- A buffered reader over another stream. -/
structure BufReader (σ β : Type) where
  capacity : ℕ
  capacity_pos : 0 < capacity
  buffer : List β
  inner : σ

namespace BufReader
variable {σ β : Type} [InputStream σ β]

/-- An empty buffer is filled by one read of the inner stream, or passed by if the read asks for no less. -/
def read (n : ℕ) (r : BufReader σ β) : List β × BufReader σ β :=
  if r.buffer.isEmpty && decide (r.capacity ≤ n) then
    ((Foundations.read n r.inner).1, { r with inner := (Foundations.read n r.inner).2 })
  else if r.buffer.isEmpty then
    let (filled, inner) := Foundations.read r.capacity r.inner
    (filled.take n, { r with buffer := filled.drop n, inner := inner })
  else (r.buffer.take n, { r with buffer := r.buffer.drop n })

instance : InputStream (BufReader σ β) β where
  read := read
  contents r := r.buffer ++ contents r.inner
  read_append n r := by
    unfold read
    split
    · next h =>
      have hempty : r.buffer = [] := by simpa using (Bool.and_eq_true_iff.mp h).1
      simp [hempty, InputStream.read_append]
    · split
      · next h =>
        have hempty : r.buffer = [] := by simpa using h
        simp [hempty, ← List.append_assoc, InputStream.read_append]
      · simp [← List.append_assoc]
  length_read_le n r := by
    unfold read
    split
    · exact InputStream.length_read_le n r.inner
    · split <;> simp
  read_ne_nil n r hn hr := by
    unfold read
    split
    · next h =>
      have hempty : r.buffer = [] := by simpa using (Bool.and_eq_true_iff.mp h).1
      exact InputStream.read_ne_nil n r.inner hn (by simpa [hempty] using hr)
    · split
      · next h =>
        have hempty : r.buffer = [] := by simpa using h
        have hfilled := InputStream.read_ne_nil r.capacity r.inner r.capacity_pos (by simpa [hempty] using hr)
        simp [hn.ne', hfilled]
      · next h => simpa [hn.ne'] using h

end BufReader

/-! ## Reading programs -/

inductive ReadError (ε : Type)
  -- the stream ended before the items asked for
  | eof
  | failed (error : ε)
  deriving DecidableEq

abbrev Reader (ε σ α : Type) := StateT σ (Except (ReadError ε)) α

section Programs
variable {ε σ β α γ : Type}

theorem bind_apply (p : Reader ε σ α) (k : α → Reader ε σ γ) (s : σ) :
    (p >>= k) s = (p s).bind fun r => k r.1 r.2 := rfl

theorem bind_eq_ok {p : Reader ε σ α} {k : α → Reader ε σ γ} {s t : σ} {c : γ} :
    (p >>= k) s = .ok (c, t) ↔ ∃ a u, p s = .ok (a, u) ∧ k a u = .ok (c, t) := by
  rw [bind_apply]
  cases p s with
  | error e => simp [Except.bind]
  | ok r => simp [Except.bind, Prod.ext_iff, and_assoc]

theorem bind_of_ok {p : Reader ε σ α} {k : α → Reader ε σ γ} {s t : σ} {a : α} (h : p s = .ok (a, t)) :
    (p >>= k) s = k a t := by
  rw [bind_apply, h]
  rfl

variable [InputStream σ β]

theorem read_bind (n : ℕ) (k : List β → Reader ε σ α) (s : σ) :
    ((modifyGet (read n) : Reader ε σ (List β)) >>= k) s = k (read n s).1 (read n s).2 := rfl

/-- The loop of `readExact`: no read asks for more than is missing, and each one returns something. -/
def readExactLoop : ℕ → ℕ → Reader ε σ (List β)
  | _, 0 => pure []
  | 0, _ + 1 => throw .eof
  | fuel + 1, n + 1 => do
    let piece ← modifyGet (read (n + 1))
    if piece.isEmpty then throw .eof
    else
      let rest ← readExactLoop fuel (n + 1 - piece.length)
      pure (piece ++ rest)

def readExact (n : ℕ) : Reader ε σ (List β) := readExactLoop n n

/-- The next item. -/
def readOne : Reader ε σ β := do
  match ← readExact 1 with
  | item :: _ => pure item
  | [] => throw .eof

/-- What a program does, seen on the items alone. -/
def observed (result : Except (ReadError ε) (α × σ)) : Except (ReadError ε) (α × List β) :=
  result.map fun r => (r.1, contents r.2)

/-- On every stream with the same items, the first program does what the second does on their list. -/
def Simulates (p : Reader ε σ α) (q : Reader ε (List β) α) : Prop :=
  ∀ s, observed (p s) = q (contents s)

theorem simulates_pure (a : α) : Simulates (pure a : Reader ε σ α) (pure a) := fun _ => rfl

theorem simulates_throw (e : ReadError ε) : Simulates (throw e : Reader ε σ α) (throw e) := fun _ => rfl

theorem Simulates.bind {p : Reader ε σ α} {q : Reader ε (List β) α} {k : α → Reader ε σ γ}
    {l : α → Reader ε (List β) γ} (hp : Simulates p q) (hk : ∀ a, Simulates (k a) (l a)) :
    Simulates (p >>= k) (q >>= l) := by
  intro s
  rw [bind_apply, bind_apply, ← hp s]
  cases p s with
  | error e => rfl
  | ok r => exact hk r.1 r.2

/-- What the second program returns, the first one does. -/
theorem Simulates.eq_ok {p : Reader ε σ α} {q : Reader ε (List β) α} (h : Simulates p q) {s : σ} {a : α}
    {rest : List β} (hq : q (contents s) = .ok (a, rest)) : ∃ t, p s = .ok (a, t) ∧ contents t = rest := by
  have hobserved := (h s).trans hq
  cases hp : p s with
  | error e =>
    rw [hp] at hobserved
    cases hobserved
  | ok r =>
    rw [hp] at hobserved
    obtain ⟨rfl, rfl⟩ := Prod.mk.inj (Except.ok.inj hobserved)
    exact ⟨r.2, rfl, rfl⟩

theorem readExactLoop_zero (fuel : ℕ) (s : σ) : (readExactLoop fuel 0 : Reader ε σ (List β)) s = .ok ([], s) := by
  cases fuel <;> rfl

theorem readExactLoop_succ (fuel n : ℕ) (s : σ) :
    (readExactLoop (fuel + 1) (n + 1) : Reader ε σ (List β)) s =
      if (read (n + 1) s).1 = [] then .error .eof
      else ((readExactLoop fuel (n + 1 - (read (n + 1) s).1.length) : Reader ε σ (List β)) (read (n + 1) s).2).map
        fun r => ((read (n + 1) s).1 ++ r.1, r.2) := by
  rw [readExactLoop, read_bind]
  by_cases h : (read (n + 1) s).1 = []
  · rw [if_pos h, if_pos (by simpa using h)]
    rfl
  · rw [if_neg h, if_neg (by simpa using h)]
    rfl

/-- With fuel for the items asked for, the loop takes exactly these off the stream, or finds its end. -/
theorem observed_readExactLoop (fuel n : ℕ) (s : σ) (hfuel : n ≤ fuel) :
    observed ((readExactLoop fuel n : Reader ε σ (List β)) s) =
      if n ≤ (contents s).length then .ok ((contents s).take n, (contents s).drop n) else .error .eof := by
  induction fuel generalizing n s with
  | zero =>
    obtain rfl := Nat.le_zero.mp hfuel
    rw [readExactLoop_zero, if_pos (Nat.zero_le _)]
    rfl
  | succ fuel ih =>
    cases n with
    | zero =>
      rw [readExactLoop_zero, if_pos (Nat.zero_le _)]
      rfl
    | succ n =>
      have happend := InputStream.read_append (n + 1) s
      have hle := InputStream.length_read_le (n + 1) s
      rw [readExactLoop_succ]
      by_cases hpiece : (read (n + 1) s).1 = []
      · rw [if_pos hpiece, contents_eq_nil_of_read (Nat.succ_pos n) hpiece]
        rfl
      · have hpos := List.length_pos_iff.mpr hpiece
        have hrest := ih (n + 1 - (read (n + 1) s).1.length) (read (n + 1) s).2 (by omega)
        rw [if_neg hpiece, ← happend]
        generalize (read (n + 1) s).1 = piece at *
        generalize (read (n + 1) s).2 = t at *
        generalize (readExactLoop fuel (n + 1 - piece.length) : Reader ε σ (List β)) t = result at *
        have hlength : n + 1 ≤ (piece ++ contents t).length ↔ n + 1 - piece.length ≤ (contents t).length := by
          rw [List.length_append]
          omega
        simp only [hlength, List.take_append, List.drop_append, List.take_of_length_le hle,
          List.drop_of_length_le hle, List.nil_append]
        cases result with
        | error e =>
          simp only [observed, Except.map] at hrest ⊢
          split at hrest
          · cases hrest
          · next hshort => rw [if_neg hshort, hrest]
        | ok r =>
          simp only [observed, Except.map] at hrest ⊢
          split at hrest
          · next hlong =>
            obtain ⟨hr, ht⟩ := Prod.mk.inj (Except.ok.inj hrest)
            rw [if_pos hlong, hr, ht]
          · cases hrest

theorem observed_readExact (n : ℕ) (s : σ) :
    observed ((readExact n : Reader ε σ (List β)) s) =
      if n ≤ (contents s).length then .ok ((contents s).take n, (contents s).drop n) else .error .eof :=
  observed_readExactLoop n n s le_rfl

theorem readExact_list (n : ℕ) (items : List β) :
    (readExact n : Reader ε (List β) (List β)) items =
      if n ≤ items.length then .ok (items.take n, items.drop n) else .error .eof := by
  have h : observed ((readExact n : Reader ε (List β) (List β)) items) = _ := observed_readExact n items
  cases hr : (readExact n : Reader ε (List β) (List β)) items with
  | error e => rw [hr] at h; exact h
  | ok r => rw [hr] at h; exact h

theorem readExact_eq_ok {n : ℕ} {items piece rest : List β}
    (h : (readExact n : Reader ε (List β) (List β)) items = .ok (piece, rest)) :
    items = piece ++ rest ∧ piece.length = n := by
  rw [readExact_list] at h
  split at h
  · next hle =>
    obtain ⟨rfl, rfl⟩ := Prod.mk.inj (Except.ok.inj h)
    exact ⟨(List.take_append_drop n items).symm, List.length_take_of_le hle⟩
  · cases h

theorem readExact_append (piece rest : List β) :
    (readExact piece.length : Reader ε (List β) (List β)) (piece ++ rest) = .ok (piece, rest) := by
  rw [readExact_list, if_pos (by simp)]
  simp

theorem simulates_readExact (n : ℕ) : Simulates (readExact n : Reader ε σ (List β)) (readExact n) := by
  intro s
  rw [observed_readExact, readExact_list]

theorem readOne_nil : (readOne : Reader ε (List β) β) [] = .error .eof := by
  rw [readOne, bind_apply, readExact_list]
  rfl

theorem readOne_cons (item : β) (items : List β) :
    (readOne : Reader ε (List β) β) (item :: items) = .ok (item, items) := by
  rw [readOne, bind_apply, readExact_list]
  rfl

theorem readOne_eq_ok {items rest : List β} {item : β}
    (h : (readOne : Reader ε (List β) β) items = .ok (item, rest)) : items = item :: rest := by
  cases items with
  | nil => rw [readOne_nil] at h; cases h
  | cons first items =>
    rw [readOne_cons] at h
    obtain ⟨rfl, rfl⟩ := Prod.mk.inj (Except.ok.inj h)
    rfl

theorem simulates_readOne : Simulates (readOne : Reader ε σ β) readOne := by
  refine (simulates_readExact 1).bind fun items => ?_
  cases items with
  | nil => exact simulates_throw .eof
  | cons item items => exact simulates_pure item

end Programs
end LivestreamRs.Foundations
