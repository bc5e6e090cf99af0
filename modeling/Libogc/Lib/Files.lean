import Libogc.Lib.Bytes
/-!
# Files — a byte array with a position

A plain file: what stands in it, how long it is, and where the next call begins.  A write overwrites or appends; it goes on where the last
one ended.
-/
namespace Libogc
namespace Files

open Bytes

inductive Whence where
  | set
  | cur
  | «end»
  | other
  deriving DecidableEq, Repr

inductive Call where
  | read (n : Nat)
  | write (xs : List UInt8)
  | seek (whence : Whence) (offset : Int)
  deriving DecidableEq, Repr

@[ext] structure PlainFile where
  bytes : Nat → UInt8
  size : Nat
  pos : Nat

/-- The bytes from the position on, up to the end. -/
def PlainFile.next (p : PlainFile) (n : Nat) : List UInt8 := read p.bytes p.pos (min n (p.size - p.pos))

def PlainFile.write (p : PlainFile) (xs : List UInt8) : PlainFile where
  bytes := Bytes.write p.bytes p.pos xs
  size := max p.size (p.pos + xs.length)
  pos := p.pos + xs.length

/-- Where a seek leads to. -/
def PlainFile.place (p : PlainFile) (offset : Int) : Whence → Option Int
  | .set => some offset
  | .cur => some (p.pos + offset)
  | .end => some (p.size + offset)
  | .other => none

/-- A seek, which is refused when it leads before the file. -/
def PlainFile.seek (p : PlainFile) (whence : Whence) (offset : Int) : PlainFile :=
  match p.place offset whence with
  | none => p
  | some position => if position < 0 then p else { p with pos := position.toNat }

/-- A call and the bytes that it returns.  Behind the end nothing is written. -/
def PlainFile.call (p : PlainFile) : Call → PlainFile × List UInt8
  | .read n => ({ p with pos := p.pos + (p.next n).length }, p.next n)
  | .write xs => (if p.size < p.pos then p else p.write xs, [])
  | .seek whence offset => (p.seek whence offset, [])

theorem PlainFile.write_append (p : PlainFile) (xs ys : List UInt8) : (p.write xs).write ys = p.write (xs ++ ys) := by
  have hsize : max (max p.size (p.pos + xs.length)) (p.pos + xs.length + ys.length) = max p.size (p.pos + (xs.length + ys.length)) := by
    omega
  unfold PlainFile.write
  rw [Bytes.write_append, List.length_append, hsize, Nat.add_assoc]

theorem PlainFile.write_nil {p : PlainFile} (h : p.pos ≤ p.size) : p.write [] = p := by
  unfold PlainFile.write
  rw [Bytes.write_nil, List.length_nil, Nat.add_zero, Nat.max_eq_left h]

/-! ## Bytes with their positions -/

/-- The bytes, each with its position, from `o` on. -/
def placed (o : Nat) : List UInt8 → List (Nat × UInt8)
  | [] => []
  | x :: xs => (o, x) :: placed (o + 1) xs

theorem placed_append (o : Nat) (xs ys : List UInt8) : placed o (xs ++ ys) = placed o xs ++ placed (o + xs.length) ys := by
  induction xs generalizing o with
  | nil => rfl
  | cons x xs ih => rw [List.cons_append, placed, placed, ih, List.cons_append, List.length_cons, Nat.add_assoc, Nat.add_comm 1]

end Files
end Libogc
