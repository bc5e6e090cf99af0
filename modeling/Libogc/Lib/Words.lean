import Libogc.Lib.Numerals
import Mathlib.Tactic.Common
/-!
# Words — machine words as numbers

What is left of a result in a word of 32 or 64 bits, and how such a word is read as a signed number.
-/
namespace Libogc

/-- What 32 bits keep of a result. -/
def u32 (n : Nat) : Nat := n % 2 ^ 32

theorem u32_of_lt {n : Nat} (hn : n < 2 ^ 32) : u32 n = n := Nat.mod_eq_of_lt hn

theorem u32_add (a b : Nat) : u32 (u32 a + b) = u32 (a + b) := Nat.mod_add_mod ..

/-- One less, around the end of 32 bits. -/
def u32Pred (n : Nat) : Nat := if n = 0 then 2 ^ 32 - 1 else n - 1

/-- A word of 64 bits read as a signed one. -/
def s64 (n : Nat) : Int := if n < 2 ^ 63 then n else n - 2 ^ 64

/-- A number as a signed word of 32 bits. -/
def s32 (n : Int) : Int := Int.bmod n (2 ^ 32)

theorem s32_of_range {n : Int} (h : -2 ^ 31 ≤ n) (h' : n < 2 ^ 31) : s32 n = n := by
  unfold s32
  rw [Int.bmod_def]
  split <;> omega

theorem s32_range (n : Int) : -2 ^ 31 ≤ s32 n ∧ s32 n < 2 ^ 31 := by
  unfold s32
  rw [Int.bmod_def]
  split <;> omega

/-- A number as a word of 32 bits. -/
def uint32 (n : Int) : Nat := (n % 2 ^ 32).toNat

theorem uint32_natCast (n : Nat) : uint32 n = n % 2 ^ 32 := by
  unfold uint32
  omega

theorem uint32_of_range {n : Int} (h : 0 ≤ n) (h' : n < 2 ^ 32) : uint32 n = n.toNat := by
  unfold uint32
  rw [Int.emod_eq_of_lt h h']

theorem uint32_s32 (n : Nat) : uint32 (s32 n) = n % 2 ^ 32 := by
  unfold uint32 s32
  rw [Int.bmod_def]
  split <;> omega

/-- A number as a word of 64 bits. -/
def u64 (n : Int) : Nat := (n % 2 ^ 64).toNat

end Libogc
