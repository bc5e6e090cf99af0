import Mathlib.Data.Nat.ModEq
import Mathlib.Logic.Function.Basic
import Mathlib.Tactic.Common
/-!
# Rings — a queue in a circular buffer

`Holds n buf start xs` says that `n` slots of a buffer, read round from `start` on, hold the list `xs`.
-/
namespace Rings

variable {α : Type} {n start : Nat} {buf : Nat → Option α} {xs : List α} {x : α}

structure Holds (n : Nat) (buf : Nat → Option α) (start : Nat) (xs : List α) : Prop where
  fits : xs.length ≤ n
  inside : start < n
  slot : ∀ i y, xs[i]? = some y → buf ((start + i) % n) = some y

theorem mod_ne {n start i j : Nat} (hi : i < n) (hj : j < n) (hne : i ≠ j) : (start + i) % n ≠ (start + j) % n := by
  intro he
  have hmod : i % n = j % n := Nat.ModEq.add_left_cancel' start he
  rw [Nat.mod_eq_of_lt hi, Nat.mod_eq_of_lt hj] at hmod
  exact hne hmod

/-- **Writing behind the last entry** appends to the list, unless the ring is full. -/
theorem Holds.push (h : Holds n buf start xs) (hlt : xs.length < n) (x : α) :
    Holds n (Function.update buf ((start + xs.length) % n) (some x)) start (xs ++ [x]) := by
  refine ⟨by rw [List.length_append]; exact hlt, h.inside, fun i y hy => ?_⟩
  rcases lt_trichotomy i xs.length with hi | rfl | hi
  · rw [List.getElem?_append_left hi] at hy
    rw [Function.update_of_ne (mod_ne (hi.trans hlt) hlt hi.ne)]
    exact h.slot i y hy
  · rw [List.getElem?_concat_length] at hy
    rw [Function.update_self, hy]
  · rw [List.getElem?_eq_none (by rw [List.length_append]; exact hi)] at hy
    cases hy

theorem Holds.head (h : Holds n buf start (x :: xs)) : buf start = some x := by
  have := h.slot 0 x rfl
  rw [Nat.add_zero, Nat.mod_eq_of_lt h.inside] at this
  exact this

theorem Holds.pop (h : Holds n buf start (x :: xs)) : Holds n buf ((start + 1) % n) xs := by
  refine ⟨(Nat.le_succ _).trans h.fits, Nat.mod_lt _ (Nat.zero_lt_of_lt h.inside), fun i y hy => ?_⟩
  rw [Nat.mod_add_mod, Nat.add_assoc, Nat.add_comm 1 i]
  exact h.slot (i + 1) y hy

end Rings
