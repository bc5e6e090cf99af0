import Mathlib.Data.List.Nodup
import Mathlib.Logic.Function.Basic
/-!
# Singly — singly linked lists

`nx` gives the node behind a node.  A list that ends is known from its first node, and has no node twice.
-/
namespace Singly

variable {N : Type} {nx nx' : N → Option N}

/-- **The nodes of a list**, which ends behind the last one. -/
def Listed (nx : N → Option N) : Option N → List N → Prop
  | p, [] => p = none
  | p, x :: xs => p = some x ∧ Listed nx (nx x) xs

theorem Listed.congr : ∀ {xs : List N} {p : Option N}, Listed nx p xs → (∀ x ∈ xs, nx' x = nx x) → Listed nx' p xs
  | [], _, h, _ => h
  | x :: xs, _, h, hx => by
    refine ⟨h.1, ?_⟩
    rw [hx x List.mem_cons_self]
    exact h.2.congr fun y hy => hx y (List.mem_cons_of_mem _ hy)

theorem Listed.unique : ∀ {xs ys : List N} {p : Option N}, Listed nx p xs → Listed nx p ys → xs = ys
  | [], [], _, _, _ => rfl
  | [], y :: ys, p, h, h' => by
    cases h.symm.trans h'.1
  | x :: xs, [], p, h, h' => by
    cases h.1.symm.trans h'
  | x :: xs, y :: ys, p, h, h' => by
    cases h.1.symm.trans h'.1
    rw [h.2.unique h'.2]

theorem Listed.drop {x : N} {ys : List N} : ∀ {xs : List N} {p : Option N}, Listed nx p (xs ++ x :: ys) → Listed nx (some x) (x :: ys)
  | [], _, h => ⟨rfl, h.2⟩
  | _ :: _, _, h => Listed.drop h.2

theorem Listed.nodup : ∀ {xs : List N} {p : Option N}, Listed nx p xs → xs.Nodup
  | [], _, _ => List.nodup_nil
  | x :: xs, p, h => by
    refine List.nodup_cons.2 ⟨fun hx => ?_, h.2.nodup⟩
    obtain ⟨l, r, rfl⟩ := List.append_of_mem hx
    -- the list behind `x` would be the one behind its second place
    have hself : Listed nx (some x) (x :: (l ++ x :: r)) := ⟨rfl, h.2⟩
    have hsame := hself.unique h.2.drop
    have hlen := congrArg List.length hsame
    simp only [List.length_cons, List.length_append] at hlen
    omega

section Update
variable [DecidableEq N]

theorem Listed.push {p : Option N} {x : N} {xs : List N} (h : Listed nx p xs) (hx : x ∉ xs) :
    Listed (Function.update nx x p) (some x) (x :: xs) := by
  refine ⟨rfl, ?_⟩
  rw [Function.update_self]
  refine h.congr fun y hy => Function.update_of_ne ?_ _ _
  rintro rfl
  exact hx hy

theorem Listed.unlink {e f : N} {post : List N} : ∀ {pre : List N} {p : Option N}, Listed nx p (pre ++ e :: f :: post) →
    Listed (Function.update nx e (nx f)) p (pre ++ e :: post)
  | [], p, h => by
    have hnd := h.nodup
    refine ⟨h.1, ?_⟩
    rw [Function.update_self]
    refine Listed.congr h.2.2 fun y hy => Function.update_of_ne ?_ _ _
    rintro rfl
    exact (List.nodup_cons.1 hnd).1 (List.mem_cons_of_mem _ hy)
  | x :: pre, p, h => by
    have hnd := h.nodup
    refine ⟨h.1, ?_⟩
    rw [Function.update_of_ne]
    · exact h.2.unlink
    · rintro rfl
      exact (List.nodup_cons.1 hnd).1 (by simp)

end Update

end Singly
