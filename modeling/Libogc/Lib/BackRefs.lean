import Mathlib.Tactic.Common
/-!
# BackRefs — literals and back references

A text as a list of tokens: an element of its own, or a number of elements that are copied from further back.  A copy may run into what
it has copied itself.
-/
namespace Libogc

inductive LzToken (α : Type) where
  | lit (a : α)
  | ref (distance length : Nat)
  deriving DecidableEq, Repr

namespace LzToken

variable {α : Type} [Inhabited α]

/-- `n` elements, one after the other, each from `d` back. -/
def copyBack (d : Nat) : Nat → List α → List α
  | 0, out => out
  | n + 1, out => copyBack d n (out ++ [out.getD (out.length - d) default])

/-- What a token adds. -/
def emit (out : List α) : LzToken α → List α
  | .lit a => out ++ [a]
  | .ref d n => copyBack d n out

def expand (tokens : List (LzToken α)) : List α := tokens.foldl emit []

/-- How much it adds. -/
def size : LzToken α → Nat
  | .lit _ => 1
  | .ref _ n => n

/-- The tokens that `out` goes on with are allowed: each has `ok`, and none goes back to before the start. -/
def Allowed (ok : LzToken α → Prop) : List α → List (LzToken α) → Prop
  | _, [] => True
  | out, t :: ts => (ok t ∧ ∀ d n, t = .ref d n → 1 ≤ d ∧ d ≤ out.length) ∧ Allowed ok (emit out t) ts

theorem copyBack_length (d n : Nat) : ∀ out : List α, (copyBack d n out).length = out.length + n := by
  induction n with
  | zero => exact fun _ => rfl
  | succ n ih =>
    intro out
    rw [copyBack, ih, List.length_append, List.length_singleton]
    omega

theorem emit_length (out : List α) (t : LzToken α) : (emit out t).length = out.length + t.size := by
  cases t with
  | lit a => exact List.length_append
  | ref d n => exact copyBack_length d n out

theorem foldl_emit_length (ts : List (LzToken α)) : ∀ out : List α, out.length ≤ (ts.foldl emit out).length := by
  induction ts with
  | nil => exact fun out => Nat.le_refl _
  | cons t ts ih =>
    intro out
    have hle := ih (emit out t)
    rw [emit_length] at hle
    exact Nat.le_of_add_right_le hle

theorem expand_append (ts ts' : List (LzToken α)) : expand (ts ++ ts') = ts'.foldl emit (expand ts) := List.foldl_append

end LzToken

end Libogc
