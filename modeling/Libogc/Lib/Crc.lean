import Mathlib.Logic.Function.Iterate
import Mathlib.Tactic.Common
/-!
# Crc — cyclic redundancy checks

A check is a register that takes the bits of a message one by one, and a generator that is added whenever a bit leaves it.  Shifts of the
register are linear, so it may as well take a word at its high end and be shifted by the length of the word (`foldl_bits`), and a table of
shifted words may stand for the shifts.
-/
namespace Crc

variable {w : Nat}

/-- The register takes a bit. -/
def bit (g c : BitVec w) (b : Bool) : BitVec w := if (c.msb ^^ b) = true then (c <<< 1) ^^^ g else c <<< 1

/-- **The check** of the bits of a message. -/
def crc (g : BitVec w) (bs : List Bool) : BitVec w := bs.foldl (bit g) 0

/-- The bits of a word, the highest one first. -/
def bits {n : Nat} (x : BitVec n) : List Bool := (List.range n).map x.getMsbD

/-- The register is shifted. -/
def shift (g c : BitVec w) : BitVec w := if c.msb = true then (c <<< 1) ^^^ g else c <<< 1

/-- The bits of a list at the high end of a word. -/
def top : List Bool → BitVec w
  | [] => 0
  | b :: bs => (if b = true then BitVec.intMin w else 0) ||| top bs >>> 1

section Shift
variable {g a b c : BitVec w} {n : Nat}

theorem shift_xor (g a b : BitVec w) : shift g (a ^^^ b) = shift g a ^^^ shift g b := by
  unfold shift
  rw [BitVec.msb_xor, BitVec.shiftLeft_xor_distrib]
  cases a.msb <;> cases b.msb
  · rfl
  · exact BitVec.xor_assoc ..
  · simp only [Bool.xor_false, if_true, Bool.false_eq_true, if_false]
    ac_rfl
  · -- the generator goes out
    have hout : a <<< 1 ^^^ g ^^^ (b <<< 1 ^^^ g) = a <<< 1 ^^^ b <<< 1 ^^^ (g ^^^ g) := by ac_rfl
    simp only [Bool.xor_true, Bool.not_true, if_true, Bool.false_eq_true, if_false]
    rw [hout, BitVec.xor_self, BitVec.xor_zero]

theorem shifts_xor (g : BitVec w) (n : Nat) : ∀ a b : BitVec w, (shift g)^[n] (a ^^^ b) = (shift g)^[n] a ^^^ (shift g)^[n] b := by
  induction n with
  | zero => exact fun _ _ => rfl
  | succ n ih =>
    intro a b
    rw [Function.iterate_succ_apply, Function.iterate_succ_apply, Function.iterate_succ_apply, shift_xor, ih]

theorem shifts_low (h : ∀ i < n, c.getMsbD i = false) : (shift g)^[n] c = c <<< n := by
  induction n generalizing c with
  | zero => simp
  | succ n ih =>
    have hmsb : c.msb = false := h 0 (Nat.succ_pos n)
    have hshift : shift g c = c <<< 1 := by
      unfold shift
      rw [hmsb]
      rfl
    rw [Function.iterate_succ_apply, hshift, ih, ← BitVec.shiftLeft_add, Nat.add_comm]
    intro i hi
    rw [BitVec.getMsbD_shiftLeft]
    exact h _ (by omega)

theorem and_intMin_ne_zero (hw : 0 < w) : c &&& BitVec.intMin w ≠ 0#w ↔ c.msb = true := by
  have hand : c &&& BitVec.intMin w = if c.msb = true then BitVec.intMin w else 0#w := by
    apply BitVec.eq_of_getLsbD_eq
    intro i hi
    rw [BitVec.getLsbD_and, BitVec.getLsbD_intMin, BitVec.msb_eq_getLsbD_last]
    by_cases hlast : i + 1 = w
    · have hi : i = w - 1 := by omega
      cases hm : c.getLsbD (w - 1) <;> simp [hi, hm, BitVec.getLsbD_intMin]
    · split <;> simp [hlast, BitVec.getLsbD_intMin]
  rw [hand]
  cases c.msb
  · simp
  · simpa [BitVec.intMin_eq_zero_iff] using Nat.ne_of_gt hw

end Shift

/-! ## Words at the high end -/

section Words
variable {g c : BitVec w} {b : Bool} {bs : List Bool} {i n : Nat}

theorem top_getMsbD : ∀ {bs : List Bool} {i : Nat}, (top bs : BitVec w).getMsbD i = (decide (i < w) && bs.getD i false)
  | [], i => by simp [top]
  | b :: bs, 0 => by
    have hmin : (BitVec.intMin w).getMsbD 0 = decide (0 < w) := BitVec.msb_intMin
    rw [top, BitVec.getMsbD_or, BitVec.getMsbD_ushiftRight]
    cases b <;> simp [hmin]
  | b :: bs, i + 1 => by
    have hmin : (BitVec.intMin w).getMsbD (i + 1) = false := by
      simp [BitVec.getMsbD_eq_getLsbD, BitVec.getLsbD_intMin]
      omega
    rw [top, BitVec.getMsbD_or, BitVec.getMsbD_ushiftRight, Nat.add_sub_cancel, top_getMsbD]
    have hin : (decide (i + 1 < w) && decide (i < w)) = decide (i + 1 < w) := by
      rw [← Bool.decide_and]
      exact decide_eq_decide.2 ⟨fun h => h.1, fun h => ⟨h, by omega⟩⟩
    cases b <;> simp [hmin, ← Bool.and_assoc, hin]

theorem shift_top (h : bs.length < w) : shift g (c ^^^ top (b :: bs)) = bit g c b ^^^ top bs := by
  have hmsb : (top (b :: bs) : BitVec w).msb = b := by
    show (top (b :: bs) : BitVec w).getMsbD 0 = b
    rw [top_getMsbD]
    simp
    omega
  have hshift : (top (b :: bs) : BitVec w) <<< 1 = top bs := by
    apply BitVec.eq_of_getMsbD_eq
    intro i hi
    rw [BitVec.getMsbD_shiftLeft, top_getMsbD, top_getMsbD, List.getD_cons_succ]
    by_cases hlast : i + 1 < w
    · simp [hlast, hi]
    · -- the last place is not reached by the bits
      have hout : bs.length ≤ i := by omega
      simp [hlast, List.getElem?_eq_none hout]
  unfold shift bit
  rw [BitVec.msb_xor, hmsb, BitVec.shiftLeft_xor_distrib, hshift]
  split
  · ac_rfl
  · rfl

theorem shifts_top (g : BitVec w) : ∀ (bs : List Bool) (c : BitVec w), bs.length ≤ w → (shift g)^[bs.length] (c ^^^ top bs) = bs.foldl (bit g) c
  | [], c, _ => BitVec.xor_zero
  | b :: bs, c, h => by
    rw [List.length_cons, Function.iterate_succ_apply, shift_top h, shifts_top g bs (bit g c b) (Nat.le_of_succ_le h)]
    rfl

@[simp] theorem bits_length {n : Nat} (x : BitVec n) : (bits x).length = n := by simp [bits]

theorem top_bits (x : BitVec w) : top (bits x) = x := by
  apply BitVec.eq_of_getMsbD_eq
  intro i hi
  rw [top_getMsbD]
  simp [bits, hi]

theorem foldl_bits (g c x : BitVec w) : (bits x).foldl (bit g) c = (shift g)^[w] (c ^^^ x) := by
  have htop := shifts_top g (bits x) c (Nat.le_of_eq (bits_length x))
  rw [bits_length, top_bits] at htop
  exact htop.symm

theorem bits_append {m n : Nat} (x : BitVec m) (y : BitVec n) : bits (x ++ y) = bits x ++ bits y := by
  unfold bits
  rw [List.range_add, List.map_append, List.map_map]
  congr 1
  · apply List.map_congr_left
    intro i hi
    rw [BitVec.getMsbD_append, if_neg (by simpa using hi)]
  · apply List.map_congr_left
    intro i hi
    simp

theorem bit_append (hw : 0 < w) (g c : BitVec w) (b : Bool) : bit (g ++ 0#n) (c ++ 0#n) b = bit g c b ++ 0#n := by
  have hshift : (c ++ 0#n) <<< 1 = c <<< 1 ++ 0#n := by
    apply BitVec.eq_of_getMsbD_eq
    intro i hi
    rw [BitVec.getMsbD_shiftLeft, BitVec.getMsbD_append, BitVec.getMsbD_append, BitVec.getMsbD_shiftLeft]
    by_cases hin : w ≤ i
    · simp [hin, Nat.le_succ_of_le hin]
    · by_cases hlast : w ≤ i + 1
      · simp [hin, hlast]
      · simp [hin, hlast]
  unfold bit
  rw [BitVec.msb_append, if_neg (Nat.ne_of_gt hw), hshift]
  split
  · rw [BitVec.xor_append, BitVec.xor_zero]
  · rfl

theorem foldl_bit_append (hw : 0 < w) (g : BitVec w) (bs : List Bool) : ∀ c : BitVec w,
    bs.foldl (bit (g ++ 0#n)) (c ++ 0#n) = bs.foldl (bit g) c ++ 0#n := by
  induction bs with
  | nil => exact fun _ => rfl
  | cons b bs ih =>
    intro c
    rw [List.foldl_cons, List.foldl_cons, bit_append hw, ih]

end Words

end Crc
