import Libogc.Lib.Numerals
import Mathlib.Tactic.Common
/-!
# Rounding — multiples of an alignment, and the masks that compute them

`n &&& ~~~(a - 1)` rounds a machine word down to a multiple of a power of two `a`.
-/
namespace Libogc

/-- The largest multiple of `a` up to `n`. -/
def roundDown (n a : Nat) : Nat := n - n % a

/-- The smallest multiple of `a` from `n` on. -/
def roundUp (n a : Nat) : Nat := roundDown (n + (a - 1)) a

section Round
variable {n a : Nat}

theorem roundDown_le : roundDown n a ≤ n := Nat.sub_le n _

theorem dvd_roundDown : a ∣ roundDown n a := Nat.dvd_sub_mod n

theorem lt_roundDown_add (ha : 0 < a) : n < roundDown n a + a := by
  have := Nat.mod_lt n ha
  unfold roundDown
  omega

theorem le_roundDown {m : Nat} (hm : a ∣ m) (hmn : m ≤ n) : m ≤ roundDown n a := by
  obtain rfl | ha := Nat.eq_zero_or_pos a
  · rw [Nat.eq_zero_of_zero_dvd hm]
    exact Nat.zero_le _
  · by_contra hlt
    obtain ⟨d, hd⟩ := Nat.dvd_sub hm (dvd_roundDown (n := n) (a := a))
    have hd0 : 0 < d := Nat.pos_of_ne_zero fun h0 => by subst h0; omega
    have hle : a ≤ a * d := Nat.le_mul_of_pos_right a hd0
    have := lt_roundDown_add (n := n) ha
    omega

theorem le_roundUp (ha : 0 < a) : n ≤ roundUp n a := by
  have := lt_roundDown_add (n := n + (a - 1)) ha
  unfold roundUp
  omega

theorem dvd_roundUp : a ∣ roundUp n a := dvd_roundDown

theorem roundUp_zero : roundUp 0 a = 0 := by
  obtain rfl | ha := Nat.eq_zero_or_pos a
  · rfl
  · unfold roundUp roundDown
    rw [Nat.zero_add, Nat.mod_eq_of_lt (by omega), Nat.sub_self]

end Round

theorem roundDown_mod {n a m : Nat} (hm : a ∣ m) : roundDown (n % m) a = roundDown n a % m := by
  obtain ⟨q, rfl⟩ := hm
  obtain h0 | h0 := Nat.eq_zero_or_pos (a * q)
  · rw [h0, Nat.mod_zero, Nat.mod_zero]
  · have hsplit : a * q * (n / (a * q)) + n % (a * q) = n := Nat.div_add_mod n (a * q)
    have hmod : n % a = n % (a * q) % a := (Nat.mod_mul_right_mod n a q).symm
    have hle : n % (a * q) % a ≤ n % (a * q) := Nat.mod_le _ _
    have hlt : n % (a * q) < a * q := Nat.mod_lt _ h0
    have he : roundDown n a = a * q * (n / (a * q)) + roundDown (n % (a * q)) a := by
      unfold roundDown
      omega
    rw [he, Nat.mul_add_mod, Nat.mod_eq_of_lt (Nat.lt_of_le_of_lt roundDown_le hlt)]

section Words
variable {w : Nat}

theorem and_not_eq_sub (x m : BitVec w) : x &&& ~~~m = x - (x &&& m) := by
  have h : (x &&& ~~~m) + (x &&& m) = x := by
    rw [BitVec.add_eq_or_of_and_eq_zero]
    · ext i hi
      simp only [BitVec.getElem_or, BitVec.getElem_and, BitVec.getElem_not]
      cases x[i] <;> cases m[i] <;> rfl
    · ext i hi
      simp only [BitVec.getElem_and, BitVec.getElem_not, BitVec.getElem_zero]
      cases x[i] <;> cases m[i] <;> rfl
  exact (BitVec.sub_eq_iff_eq_add.2 h.symm).symm

theorem twoPow_sub_one_toNat {n : Nat} (hn : n < w) : (BitVec.twoPow w n - 1).toNat = 2 ^ n - 1 := by
  have h1 : (BitVec.twoPow w n).toNat = 2 ^ n := BitVec.toNat_twoPow_of_lt hn
  have h2 : 0 < 2 ^ n := Nat.two_pow_pos n
  have h3 : 1 < 2 ^ w := Nat.one_lt_two_pow (by omega)
  have hone : (1 : BitVec w).toNat = 1 := by
    show 1 % 2 ^ w = 1
    exact Nat.mod_eq_of_lt h3
  rw [BitVec.toNat_sub_of_le, h1, hone]
  rw [BitVec.le_def, h1, hone]
  exact h2

theorem and_not_mask_toNat (x : BitVec w) {n : Nat} (hn : n < w) :
    (x &&& ~~~(BitVec.twoPow w n - 1)).toNat = roundDown x.toNat (2 ^ n) := by
  have hand : (x &&& (BitVec.twoPow w n - 1)).toNat = x.toNat % 2 ^ n := by
    rw [BitVec.toNat_and, twoPow_sub_one_toNat hn, Nat.and_two_pow_sub_one_eq_mod]
  rw [and_not_eq_sub, BitVec.toNat_sub_of_le, hand]
  · rfl
  · rw [BitVec.le_def, hand]
    exact Nat.mod_le _ _

end Words

end Libogc
