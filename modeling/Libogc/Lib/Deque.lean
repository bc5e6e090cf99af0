import Mathlib.Data.List.Perm.Basic
import Mathlib.Tactic.Common
/-!
# Deque — the law of a double-ended queue

A history says what was put in, at the front or the back, and what was taken from the front and by whom.  `Run ops d` is a
history that a double-ended queue allows and that leaves it with `d`.
-/
namespace Deque

inductive Op (A M : Type) where
  | put (front : Bool) (m : M)
  | take (a : A) (m : M)
  deriving DecidableEq, Repr

variable {A M : Type}

def Step (d : List M) : Op A M → List M → Prop
  | .put front m, d' => d' = if front then m :: d else d ++ [m]
  | .take _ m, d' => d = m :: d'

inductive Run : List (Op A M) → List M → Prop
  | nil : Run [] []
  | step {ops : List (Op A M)} {d d' : List M} {op : Op A M} (run : Run ops d) (step : Step d op d') : Run (ops ++ [op]) d'

theorem Run.put {ops : List (Op A M)} {d : List M} (h : Run ops d) (front : Bool) (m : M) :
    Run (ops ++ [.put front m]) (if front then m :: d else d ++ [m]) := h.step rfl

theorem Run.take {ops : List (Op A M)} {d : List M} {m : M} (h : Run ops (m :: d)) (a : A) : Run (ops ++ [.take a m]) d :=
  h.step rfl

/-- What was put in, and what was taken out. -/
def puts (ops : List (Op A M)) : List M := ops.filterMap fun op => match op with
  | .put _ m => some m
  | .take _ _ => none

def takes (ops : List (Op A M)) : List M := ops.filterMap fun op => match op with
  | .put _ _ => none
  | .take _ m => some m

/-- **Nothing is lost and nothing is taken twice**: what was put in is what was taken out and what is left. -/
theorem Run.puts_perm {ops : List (Op A M)} {d : List M} (h : Run ops d) : (puts ops).Perm (takes ops ++ d) := by
  induction h with
  | nil => exact List.Perm.refl _
  | @step ops d d' op _ hs ih =>
    have hp : puts (ops ++ [op]) = puts ops ++ puts [op] := List.filterMap_append
    have ht : takes (ops ++ [op]) = takes ops ++ takes [op] := List.filterMap_append
    rw [hp, ht]
    cases op with
    | put front m =>
      have hd : d'.Perm (d ++ [m]) := by
        rw [show d' = if front then m :: d else d ++ [m] from hs]
        cases front
        · exact List.Perm.refl _
        · exact (List.perm_append_singleton m d).symm
      show (puts ops ++ [m]).Perm (takes ops ++ [] ++ d')
      rw [List.append_nil]
      calc (puts ops ++ [m]).Perm (takes ops ++ d ++ [m]) := ih.append_right _
        _ = takes ops ++ (d ++ [m]) := List.append_assoc ..
        List.Perm _ (takes ops ++ d') := hd.symm.append_left _
    | take a m =>
      have hd : d = m :: d' := hs
      show (puts ops ++ []).Perm (takes ops ++ [m] ++ d')
      rw [List.append_nil, List.append_assoc]
      rw [hd] at ih
      exact ih

end Deque
