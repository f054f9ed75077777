import Mathlib.Tactic

/-! # Trees of cancellation tokens

A token is a root or a child of another token. Cancelling a token cancels its whole subtree, so a token is
cancelled when it or one of its ancestors has been fired. Nothing un-fires a token.
-/
namespace LivestreamRs.Foundations
set_option autoImplicit false

inductive Token
  | root (id : ℕ)
  | child (id : ℕ) (parent : Token)
  deriving DecidableEq

namespace Token

def rootId : Token → ℕ
  | root id => id
  | child _ parent => parent.rootId

def depth : Token → ℕ
  | root _ => 0
  | child _ parent => parent.depth + 1

/-- `t` is `u` or an ancestor of `u`. -/
def covers (t : Token) : Token → Bool
  | root id => t == root id
  | child id parent => t == child id parent || t.covers parent

theorem rootId_eq_of_covers {t u : Token} (h : t.covers u = true) : t.rootId = u.rootId := by
  induction u with
  | root id => rw [covers, beq_iff_eq] at h; rw [h]
  | child id parent ih =>
    rw [covers, Bool.or_eq_true, beq_iff_eq] at h
    rcases h with rfl | h
    · rfl
    · exact ih h

theorem eq_or_depth_lt_of_covers {t u : Token} (h : t.covers u = true) : t = u ∨ t.depth < u.depth := by
  induction u with
  | root id => rw [covers, beq_iff_eq] at h; exact .inl h
  | child id parent ih =>
    rw [covers, Bool.or_eq_true, beq_iff_eq] at h
    rcases h with rfl | h
    · exact .inl rfl
    · right
      rcases ih h with rfl | hlt
      · exact Nat.lt_succ_self _
      · exact Nat.lt_succ_of_lt hlt

/-- Two tokens at one level of the tree cover each other only if they are the same. -/
theorem eq_of_covers {t u : Token} (hdepth : u.depth ≤ t.depth) (h : t.covers u = true) : t = u := by
  rcases eq_or_depth_lt_of_covers h with heq | hlt
  · exact heq
  · omega

end Token

def cancelled (fired : List Token) (t : Token) : Bool :=
  fired.any fun f => f.covers t

@[simp]
theorem cancelled_nil (t : Token) : cancelled [] t = false := rfl

theorem cancelled_cons (f : Token) (fired : List Token) (t : Token) :
    cancelled (f :: fired) t = (f.covers t || cancelled fired t) := rfl

end LivestreamRs.Foundations
