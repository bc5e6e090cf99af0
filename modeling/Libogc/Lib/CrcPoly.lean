import Libogc.Lib.Crc
import Mathlib.Algebra.CharP.Two
import Mathlib.Algebra.Field.ZMod
import Mathlib.Algebra.Polynomial.Div
import Mathlib.RingTheory.Polynomial.Basic
import Mathlib.Tactic.LinearCombination
/-!
# CrcPoly — a check is a remainder

The bits of a word are the coefficients of a polynomial over the field of two elements.  A check of `w` bits is the remainder of the message's
polynomial, times `X ^ w`, by the generator's.
-/
namespace Crc

open Polynomial

variable {w : Nat}

noncomputable def bitPoly (b : Bool) : (ZMod 2)[X] := if b = true then 1 else 0

/-- The polynomial of a word. -/
noncomputable def toPoly (x : BitVec w) : (ZMod 2)[X] := ∑ i ∈ Finset.range w, bitPoly (x.getLsbD i) * X ^ i

/-- The polynomial of a message, whose first bit is the highest coefficient. -/
noncomputable def message (bs : List Bool) : (ZMod 2)[X] := bs.foldl (fun p b => p * X + bitPoly b) 0

/-- The polynomial of a generator, with its highest power. -/
noncomputable def generator (g : BitVec w) : (ZMod 2)[X] := X ^ w + toPoly g

theorem bitPoly_xor (a b : Bool) : bitPoly (a ^^ b) = bitPoly a + bitPoly b := by
  cases a <;> cases b <;> simp [bitPoly, CharTwo.add_self_eq_zero]

theorem toPoly_xor (x y : BitVec w) : toPoly (x ^^^ y) = toPoly x + toPoly y := by
  unfold toPoly
  rw [← Finset.sum_add_distrib]
  refine Finset.sum_congr rfl fun i _ => ?_
  rw [BitVec.getLsbD_xor, bitPoly_xor, add_mul]

@[simp] theorem toPoly_zero : toPoly (0#w) = 0 := by simp [toPoly, bitPoly]

theorem toPoly_shiftLeft (hw : 0 < w) (c : BitVec w) : toPoly (c <<< 1) + bitPoly c.msb * X ^ w = toPoly c * X := by
  obtain ⟨n, rfl⟩ := Nat.exists_eq_succ_of_ne_zero (Nat.ne_of_gt hw)
  have hmsb : c.msb = c.getLsbD n := BitVec.msb_eq_getLsbD_last c
  unfold toPoly
  rw [Finset.sum_range_succ', Finset.sum_range_succ, hmsb, add_mul, Finset.sum_mul]
  have hlow : bitPoly ((c <<< 1).getLsbD 0) = 0 := by simp [bitPoly]
  rw [hlow, zero_mul, add_zero, mul_assoc, ← pow_succ]
  congr 1
  refine Finset.sum_congr rfl fun i hi => ?_
  have hin : i + 1 < n + 1 := Nat.succ_lt_succ (Finset.mem_range.1 hi)
  rw [mul_assoc, ← pow_succ, BitVec.getLsbD_shiftLeft]
  simp [hin]

/-- A bit that is taken is added behind the others, and a multiple of the generator is left out. -/
theorem toPoly_bit (hw : 0 < w) (g c : BitVec w) (b : Bool) :
    toPoly c * X + bitPoly b * X ^ w = toPoly (bit g c b) + bitPoly (c.msb ^^ b) * generator g := by
  have hbit : toPoly (bit g c b) = toPoly (c <<< 1) + bitPoly (c.msb ^^ b) * toPoly g := by
    unfold bit
    cases c.msb ^^ b
    · simp [bitPoly]
    · simp [bitPoly, toPoly_xor]
  have htwice : bitPoly (c.msb ^^ b) * toPoly g + bitPoly (c.msb ^^ b) * toPoly g = 0 := CharTwo.add_self_eq_zero _
  have htop : bitPoly c.msb * X ^ w + bitPoly c.msb * X ^ w = 0 := CharTwo.add_self_eq_zero _
  have hxor := bitPoly_xor c.msb b
  unfold generator
  rw [hbit, ← toPoly_shiftLeft hw]
  linear_combination - htwice - X ^ w * hxor

theorem foldl_dvd (hw : 0 < w) (g : BitVec w) : ∀ (bs : List Bool) (c : BitVec w) (p : (ZMod 2)[X]), generator g ∣ p * X ^ w - toPoly c →
    generator g ∣ bs.foldl (fun p b => p * X + bitPoly b) p * X ^ w - toPoly (bs.foldl (bit g) c)
  | [], _, _, h => h
  | b :: bs, c, p, h => by
    refine foldl_dvd hw g bs _ _ ?_
    have hbit := toPoly_bit hw g c b
    have hsplit : (p * X + bitPoly b) * X ^ w - toPoly (bit g c b) =
        X * (p * X ^ w - toPoly c) + bitPoly (c.msb ^^ b) * generator g := by
      linear_combination hbit
    rw [hsplit]
    exact dvd_add (Dvd.dvd.mul_left h X) (Dvd.intro_left _ rfl)

theorem degree_toPoly_lt (x : BitVec w) : (toPoly x).degree < w := by
  refine mem_degreeLT.1 (Submodule.sum_mem _ fun i hi => mem_degreeLT.2 ?_)
  have hiw : ((i : Nat) : WithBot Nat) < w := Nat.cast_lt.2 (Finset.mem_range.1 hi)
  cases x.getLsbD i
  · simp [bitPoly, bot_lt_iff_ne_bot]
  · simpa [bitPoly] using hiw

theorem generator_monic (g : BitVec w) : (generator g).Monic := monic_X_pow_add (degree_toPoly_lt g)

theorem degree_generator (g : BitVec w) : (generator g).degree = w := by
  unfold generator
  rw [degree_add_eq_left_of_degree_lt (by rw [degree_X_pow]; exact degree_toPoly_lt g), degree_X_pow]

theorem toPoly_crc (hw : 0 < w) (g : BitVec w) (bs : List Bool) : toPoly (crc g bs) = (message bs * X ^ w) %ₘ generator g := by
  have hdvd : generator g ∣ message bs * X ^ w - toPoly (crc g bs) := foldl_dvd hw g bs 0 0 (by simp)
  obtain ⟨q, hq⟩ := hdvd
  have hrem : toPoly (crc g bs) + generator g * q = message bs * X ^ w := by rw [← hq, add_sub_cancel]
  have hdegree : (toPoly (crc g bs)).degree < (generator g).degree := by
    rw [degree_generator]
    exact degree_toPoly_lt _
  exact (div_modByMonic_unique q _ (generator_monic g) ⟨hrem, hdegree⟩).2.symm

end Crc
