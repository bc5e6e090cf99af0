import Mathlib.Logic.Function.Iterate
import Mathlib.Tactic.Common
/-!
# Cipher — the key stream that unlocks a card

The first transfer of an unlock takes its key from a register that is shifted to the right, those behind it from one that is shifted to the
left, and `bitrev` takes the one to the other.  The two streams are one, in opposite orders of the bits (`card_stream_reverse`).
-/
namespace Libogc

/-- What is fed back into the register of `exnor_1st` -/
def exnor1stEqv (a : BitVec 32) : BitVec 32 :=
  let d := a >>> 23
  let e := a >>> 15
  let f := a >>> 7
  let r1 := a ^^^ f
  let r2 := e ^^^ r1
  ~~~(d ^^^ r2)

/-- A pass of `exnor_1st` -/
def exnor1stStep (a : BitVec 32) : BitVec 32 :=
  let r3 := exnor1stEqv a
  let e := a >>> 1
  let r4 := (r3 <<< 30) &&& 0x40000000
  e ||| r4

/-- `exnor_1st` -/
def exnor1st (a : BitVec 32) (b : Nat) : BitVec 32 := exnor1stStep^[b] a

/-- What is fed back into the register of `exnor` -/
def exnorEqv (a : BitVec 32) : BitVec 32 :=
  let d := a <<< 23
  let e := a <<< 15
  let f := a <<< 7
  let r1 := a ^^^ f
  let r2 := e ^^^ r1
  ~~~(d ^^^ r2)

/-- A pass of `exnor` -/
def exnorStep (a : BitVec 32) : BitVec 32 :=
  let r3 := exnorEqv a
  let e := a <<< 1
  let r4 := (r3 >>> 30) &&& 0x02
  e ||| r4

/-- `exnor` -/
def exnor (a : BitVec 32) (b : Nat) : BitVec 32 := exnorStep^[b] a

/-- The variables of `bitrev`'s loop -/
structure Bitrev where
  ret : BitVec 32
  shift : Nat
  shift1 : Nat

/-- A pass of it -/
def bitrevStep (val : BitVec 32) (s : Bitrev) (cnt : Nat) : Bitrev :=
  if cnt ≤ 15 then
    let val1 := val &&& 1#32 <<< cnt
    { s with ret := s.ret ||| val1 <<< (31 - cnt - s.shift1), shift1 := s.shift1 + 1 }
  else if cnt = 31 then { s with ret := s.ret ||| val >>> 31 }
  else
    let val1 := val &&& 1#32 <<< cnt
    { s with ret := s.ret ||| val1 >>> s.shift, shift := s.shift + 2 }

def bitrevLoop (val : BitVec 32) (n : Nat) : Bitrev := (List.range n).foldl (bitrevStep val) ⟨0, 1, 0⟩

/-- `bitrev` -/
def bitrev (val : BitVec 32) : BitVec 32 := (bitrevLoop val 32).ret

/-- `__dounlock`: the key behind the first transfer, for a register and the number of its shifts -/
def cardCipher1st (a : BitVec 32) (n : Nat) : BitVec 32 :=
  let val := exnor1st a n
  bitrev (val ||| exnor1stEqv val <<< 31)

/-- `__dounlock` and `__finishdsp`: the key behind another one -/
def cardCipherNext (cipher : BitVec 32) (n : Nat) : BitVec 32 :=
  let val := exnor cipher n
  val ||| exnorEqv val >>> 31

/-- `__dounlock`: the words of the second transfer, each by the key that the register has for it, and the key behind them.  `len` and `len'` are
the dummies of the two transfers. -/
def dounlock (array_addr : BitVec 32) (len len' : Nat) (a b c d e : BitVec 32) : BitVec 32 × List (BitVec 32) :=
  let cipher := cardCipher1st array_addr (len <<< 3 + 1)
  let a := a ^^^ cipher
  let cipher := cardCipherNext cipher 32
  let b := b ^^^ cipher
  let cipher := cardCipherNext cipher 32
  let c := c ^^^ cipher
  let cipher := cardCipherNext cipher 32
  let d := d ^^^ cipher
  let cipher := cardCipherNext cipher 32
  let e := e ^^^ cipher
  let cipher := cardCipherNext cipher (len' <<< 3)
  (cardCipherNext cipher 33, [a, b, c, d, e])

/-! ## The reversal -/

section Bits
variable {val : BitVec 32} {c i : Nat}

theorem getLsbD_and_bit (hc : c < 32) : (val &&& 1#32 <<< c).getLsbD i = (decide (i = c) && val.getLsbD c) := by
  rw [BitVec.getLsbD_and, BitVec.getLsbD_shiftLeft, BitVec.getLsbD_one]
  by_cases h : i = c
  · subst h
    simp [hc]
  · rcases Nat.lt_or_gt_of_ne h with hlt | hgt
    · simp [h, hlt]
    · simp [h, show i - c ≠ 0 by omega]

end Bits

/-- The bits that the loop has put in their places. -/
structure Bitrev.Done (val : BitVec 32) (n : Nat) (s : Bitrev) : Prop where
  ret : ∀ j < 32, s.ret.getLsbD j = (decide (31 - j < n) && val.getLsbD (31 - j))
  shift1 : s.shift1 = min n 16
  shift : s.shift = 1 + 2 * (n - 16)

theorem bitrevLoop_done (val : BitVec 32) {n : Nat} (hn : n ≤ 31) : (bitrevLoop val n).Done val n := by
  induction n with
  | zero => exact ⟨fun j _ => by simp [bitrevLoop], rfl, rfl⟩
  | succ n ih =>
    obtain ⟨hret, hshift1, hshift⟩ := ih (by omega)
    unfold bitrevLoop at hret hshift1 hshift ⊢
    rw [List.range_succ, List.foldl_append, List.foldl_cons, List.foldl_nil]
    generalize (List.range n).foldl (bitrevStep val) ⟨0, 1, 0⟩ = s at hret hshift1 hshift ⊢
    have hor {j : Nat} (hj : j < 32) (b : Bool) (hb : b = (decide (31 - j = n) && val.getLsbD n)) :
        (s.ret.getLsbD j || b) = (decide (31 - j < n + 1) && val.getLsbD (31 - j)) := by
      rw [hb, hret j hj]
      by_cases he : 31 - j = n
      · simp [he]
      · have hlt : 31 - j < n + 1 ↔ 31 - j < n := by omega
        rw [decide_eq_false he, Bool.false_and, Bool.or_false, decide_eq_decide.2 hlt]
    unfold bitrevStep
    by_cases h15 : n ≤ 15
    · rw [if_pos h15]
      refine ⟨fun j hj => ?_, by simp [hshift1]; omega, by simp [hshift]; omega⟩
      dsimp only
      rw [BitVec.getLsbD_or]
      refine hor hj _ ?_
      rw [BitVec.getLsbD_shiftLeft, getLsbD_and_bit (by omega), hshift1, Nat.min_eq_left (by omega)]
      by_cases he : 31 - j = n
      · have hout : ¬ j < 31 - n - n := by omega
        have hplace : j - (31 - n - n) = n := by omega
        simp [he, hj, hout, hplace]
      · simp [he]
        omega
    · rw [if_neg h15, if_neg (by omega)]
      refine ⟨fun j hj => ?_, by simp [hshift1]; omega, by simp [hshift]; omega⟩
      dsimp only
      rw [BitVec.getLsbD_or]
      refine hor hj _ ?_
      rw [BitVec.getLsbD_ushiftRight, getLsbD_and_bit (by omega), hshift]
      congr 2
      exact propext ⟨fun h => by omega, fun h => by omega⟩

theorem bitrev_eq (val : BitVec 32) : bitrev val = val.reverse := by
  obtain ⟨hret, -, -⟩ := bitrevLoop_done val (Nat.le_refl 31)
  apply BitVec.eq_of_getLsbD_eq
  intro j hj
  unfold bitrev bitrevLoop at *
  rw [List.range_succ, List.foldl_append, List.foldl_cons, List.foldl_nil]
  generalize (List.range 31).foldl (bitrevStep val) ⟨0, 1, 0⟩ = s at hret ⊢
  rw [BitVec.getLsbD_reverse, BitVec.getMsbD_eq_getLsbD]
  show (s.ret ||| val >>> 31).getLsbD j = _
  rw [BitVec.getLsbD_or, BitVec.getLsbD_ushiftRight, hret j hj]
  by_cases h0 : j = 0
  · simp [h0]
  · simp [hj, show 31 - j < 31 by omega, BitVec.getLsbD_of_ge val (31 + j) (by omega)]

/-! ## The streams -/

section Streams
variable {a : BitVec 32} {i : Nat}

theorem exnorEqv_reverse (a : BitVec 32) : (exnorEqv a.reverse).getLsbD 31 = (exnor1stEqv a).getLsbD 0 := by
  unfold exnorEqv exnor1stEqv
  simp only [BitVec.getLsbD_not, BitVec.getLsbD_xor, BitVec.getLsbD_shiftLeft, BitVec.getLsbD_ushiftRight, BitVec.getLsbD_reverse,
    BitVec.getMsbD_eq_getLsbD]
  simp

theorem exnorStep_getLsbD (hi : i < 32) : (exnorStep a).getLsbD i =
    ((decide (1 ≤ i) && a.getLsbD (i - 1)) || (decide (i = 1) && (exnorEqv a).getLsbD 31)) := by
  have hbit : (0x02 : BitVec 32) = 1#32 <<< 1 := by decide
  unfold exnorStep
  dsimp only
  rw [hbit, BitVec.getLsbD_or, getLsbD_and_bit (by decide), BitVec.getLsbD_shiftLeft, BitVec.getLsbD_ushiftRight]
  simp [hi, Nat.one_le_iff_ne_zero]

theorem exnor1stStep_getLsbD : (exnor1stStep a).getLsbD i = (a.getLsbD (1 + i) || (decide (i = 30) && (exnor1stEqv a).getLsbD 0)) := by
  have hbit : (0x40000000 : BitVec 32) = 1#32 <<< 30 := by decide
  unfold exnor1stStep
  dsimp only
  rw [hbit, BitVec.getLsbD_or, getLsbD_and_bit (by decide), BitVec.getLsbD_shiftLeft, BitVec.getLsbD_ushiftRight]
  simp

theorem exnorStep_reverse (a : BitVec 32) : exnorStep a.reverse = (exnor1stStep a).reverse := by
  apply BitVec.eq_of_getLsbD_eq
  intro i hi
  rw [exnorStep_getLsbD hi, exnorEqv_reverse, BitVec.getLsbD_reverse, BitVec.getLsbD_reverse, BitVec.getMsbD_eq_getLsbD,
    BitVec.getMsbD_eq_getLsbD, exnor1stStep_getLsbD]
  by_cases h0 : i = 0
  · subst h0
    simp
  · have hplace : 32 - 1 - (i - 1) = 1 + (32 - 1 - i) := by omega
    have hin : i - 1 < 32 := by omega
    have hfed : 32 - 1 - i = 30 ↔ i = 1 := by omega
    simp [hi, hin, hplace, hfed, Nat.one_le_iff_ne_zero, h0]

theorem exnor_reverse (a : BitVec 32) (n : Nat) : exnor a.reverse n = (exnor1st a n).reverse := by
  have hstep : Function.Semiconj BitVec.reverse exnor1stStep exnorStep := fun a => (exnorStep_reverse a).symm
  exact ((hstep.iterate_right n).eq a).symm

/-- **The streams of an unlock**: `bitrev` reverses the bits of a word, and takes the one stream to the other. -/
theorem card_stream_reverse (a : BitVec 32) (n : Nat) : bitrev a = a.reverse ∧ bitrev (exnor1st a n) = exnor (bitrev a) n := by
  refine ⟨bitrev_eq a, ?_⟩
  rw [bitrev_eq, bitrev_eq, exnor_reverse]

theorem cardCipher1st_eq (a : BitVec 32) (n : Nat) : cardCipher1st a n = cardCipherNext a.reverse n := by
  unfold cardCipher1st cardCipherNext
  dsimp only
  rw [bitrev_eq, exnor_reverse]
  generalize exnor1st a n = val
  apply BitVec.eq_of_getLsbD_eq
  intro i hi
  rw [BitVec.getLsbD_reverse, BitVec.getMsbD_eq_getLsbD, BitVec.getLsbD_or, BitVec.getLsbD_or, BitVec.getLsbD_shiftLeft,
    BitVec.getLsbD_ushiftRight, BitVec.getLsbD_reverse, BitVec.getMsbD_eq_getLsbD]
  by_cases h0 : i = 0
  · subst h0
    rw [exnorEqv_reverse]
    simp
  · have hin : 32 - 1 - i < 31 := by omega
    simp [hi, hin, BitVec.getLsbD_of_ge _ (31 + i) (by omega : 32 ≤ 31 + i)]

theorem exnorEqv_top : (exnorEqv a).getLsbD 31 = !(a.getLsbD 8 ^^ (a.getLsbD 16 ^^ (a.getLsbD 31 ^^ a.getLsbD 24))) := by
  simp [exnorEqv]

/-- A key has what is fed back in its lowest bit, where the next pass would put it. -/
theorem cardCipherNext_getLsbD (hi : i < 32) (n : Nat) : (cardCipherNext a n).getLsbD i =
    ((exnor a n).getLsbD i || (decide (i = 0) && (exnorEqv (exnor a n)).getLsbD 31)) := by
  unfold cardCipherNext
  dsimp only
  rw [BitVec.getLsbD_or, BitVec.getLsbD_ushiftRight]
  by_cases h0 : i = 0
  · subst h0
    simp
  · simp [h0, BitVec.getLsbD_of_ge _ (31 + i) (by omega : 32 ≤ 31 + i)]

theorem exnorEqv_next (n : Nat) : (exnorEqv (cardCipherNext a n)).getLsbD 31 = (exnorEqv (exnor a n)).getLsbD 31 := by
  have hbit (i : Nat) (hi : i < 32) (h0 : i ≠ 0) : (cardCipherNext a n).getLsbD i = (exnor a n).getLsbD i := by
    rw [cardCipherNext_getLsbD hi, decide_eq_false h0, Bool.false_and, Bool.or_false]
  rw [exnorEqv_top, exnorEqv_top, hbit 8 (by decide) (by decide), hbit 16 (by decide) (by decide), hbit 24 (by decide) (by decide),
    hbit 31 (by decide) (by decide)]

theorem exnorStep_next (n : Nat) : exnorStep (cardCipherNext a n) = exnor a (n + 1) := by
  rw [show exnor a (n + 1) = exnorStep (exnor a n) from Function.iterate_succ_apply' ..]
  apply BitVec.eq_of_getLsbD_eq
  intro i hi
  rw [exnorStep_getLsbD hi, exnorStep_getLsbD hi, exnorEqv_next, cardCipherNext_getLsbD (Nat.lt_of_le_of_lt (Nat.sub_le ..) hi)]
  by_cases h1 : i = 1
  · simp [h1]
  · by_cases h0 : i = 0
    · simp [h0]
    · simp [h1, show i - 1 ≠ 0 by omega]

/-- **A key goes on with the stream** that it was taken from. -/
theorem cardCipherNext_next (a : BitVec 32) (m n : Nat) : cardCipherNext (cardCipherNext a m) n = cardCipherNext a (m + n) := by
  cases n with
  | zero =>
    apply BitVec.eq_of_getLsbD_eq
    intro i hi
    rw [cardCipherNext_getLsbD hi]
    show ((cardCipherNext a m).getLsbD i || (decide (i = 0) && (exnorEqv (cardCipherNext a m)).getLsbD 31)) = _
    rw [exnorEqv_next, Nat.add_zero, cardCipherNext_getLsbD hi, Bool.or_assoc, Bool.or_self]
  | succ n =>
    have hrest : exnor (cardCipherNext a m) (n + 1) = exnor a (m + (n + 1)) := by
      rw [show exnor (cardCipherNext a m) (n + 1) = exnor (exnorStep (cardCipherNext a m)) n from Function.iterate_succ_apply .., exnorStep_next,
        show m + (n + 1) = n + (m + 1) by omega]
      exact (Function.iterate_add_apply ..).symm
    unfold cardCipherNext at hrest ⊢
    dsimp only at hrest ⊢
    rw [hrest]

/-- **An unlock has one stream**: each word has the key at its place in what was clocked, and the last one is behind it all. -/
theorem card_unlock_stream (array_addr : BitVec 32) (len len' : Nat) (a b c d e : BitVec 32) :
    let key i := cardCipherNext (bitrev array_addr) (8 * len + 1 + i)
    dounlock array_addr len len' a b c d e =
      (key (8 * (20 + len') + 1), [a ^^^ key 0, b ^^^ key 32, c ^^^ key 64, d ^^^ key 96, e ^^^ key 128]) := by
  intro key
  unfold dounlock
  simp only [cardCipher1st_eq, cardCipherNext_next, Nat.shiftLeft_eq, bitrev_eq, key]
  rw [Nat.mul_comm len]
  have hlast : 8 * len + 1 + 32 + 32 + 32 + 32 + len' * 2 ^ 3 + 33 = 8 * len + 1 + (8 * (20 + len') + 1) := by omega
  rw [hlast]

end Streams

end Libogc
