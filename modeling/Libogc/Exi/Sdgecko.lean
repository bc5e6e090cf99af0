import Libogc.Lib.CrcPoly
/-!
# Sdgecko — the checksums of an SD card

`sdgecko.c` makes the checksums of commands and of data with tables.  That of a command is one of seven bits at the high end of a byte; that of
data takes two bytes at a time, the first one with a table that is made of the other (`sd_crc`).
-/
namespace Libogc

open Crc

/-- The inner loop of `__init_crc7` -/
def crc7Step (crc7 : BitVec 8) : BitVec 8 := if crc7 &&& 0x80 ≠ 0 then crc7 <<< 1 ^^^ 0x12 else crc7 <<< 1

/-- `_ioCrc7Table`, as `__init_crc7` makes it -/
def ioCrc7Table (i : BitVec 8) : BitVec 8 := crc7Step^[8] i

/-- `__make_crc7` -/
def makeCrc7 (buffer : List (BitVec 8)) : BitVec 8 := buffer.foldl (fun crc7 b => ioCrc7Table (crc7 ^^^ b)) 0

/-- The inner loop of `__init_crc16` -/
def crc16Step (crc16 : BitVec 16) : BitVec 16 := if crc16 &&& 0x8000 ≠ 0 then crc16 <<< 1 ^^^ 0x1021 else crc16 <<< 1

/-- `_ioCrc16Table[0]`, as `__init_crc16` makes it -/
def ioCrc16Table0 (i : BitVec 8) : BitVec 16 := crc16Step^[8] (i.setWidth 16 <<< 8)

/-- `_ioCrc16Table[1]`, which is made of the first one -/
def ioCrc16Table1 (i : BitVec 8) : BitVec 16 :=
  let crc16 := ioCrc16Table0 i
  ioCrc16Table0 ((crc16 >>> 8).setWidth 8) ^^^ crc16 <<< 8

/-- The words of a buffer. -/
def bufferWords : List (BitVec 8) → List (BitVec 16)
  | hi :: lo :: buffer => (hi ++ lo) :: bufferWords buffer
  | _ => []

/-- A pass of `__make_crc16` -/
def makeCrc16Step (crc16 word : BitVec 16) : BitVec 16 :=
  let crc16 := crc16 ^^^ word
  ioCrc16Table1 ((crc16 >>> 8).setWidth 8) ^^^ ioCrc16Table0 (crc16.setWidth 8)

/-- `__make_crc16` -/
def makeCrc16 (buffer : List (BitVec 8)) : BitVec 16 := (bufferWords buffer).foldl makeCrc16Step 0

/-- The bits of a buffer, in the order in which they are sent. -/
def bufferBits (buffer : List (BitVec 8)) : List Bool := buffer.flatMap bits

/-! ## Tables -/

theorem crc7Step_eq : crc7Step = shift 0x12 := by
  funext c
  have hmask : (0x80 : BitVec 8) = BitVec.intMin 8 := by decide
  unfold crc7Step shift
  rw [hmask]
  exact if_congr (and_intMin_ne_zero (by decide : 0 < 8)) rfl rfl

theorem crc16Step_eq : crc16Step = shift 0x1021 := by
  funext c
  have hmask : (0x8000 : BitVec 16) = BitVec.intMin 16 := by decide
  unfold crc16Step shift
  rw [hmask]
  exact if_congr (and_intMin_ne_zero (by decide : 0 < 16)) rfl rfl

theorem crc16_split (c : BitVec 16) : c = (c >>> 8).setWidth 8 ++ c.setWidth 8 := by
  apply BitVec.eq_of_getLsbD_eq
  intro i hi
  rw [BitVec.getLsbD_append]
  by_cases h8 : i < 8
  · simp [h8]
  · have hin : i - 8 < 8 := by omega
    have hplace : 8 + (i - 8) = i := by omega
    simp [h8, hin, hplace]

theorem append_eq_xor (x y : BitVec 8) : x ++ y = (x.setWidth 16 <<< 8) ^^^ y.setWidth 16 := by
  apply BitVec.eq_of_getLsbD_eq
  intro i hi
  rw [BitVec.getLsbD_append, BitVec.getLsbD_xor, BitVec.getLsbD_shiftLeft, BitVec.getLsbD_setWidth, BitVec.getLsbD_setWidth]
  by_cases h8 : i < 8
  · simp [h8, hi]
  · have hin : i - 8 < 16 := by omega
    simp [h8, hi, hin, BitVec.getLsbD_of_ge y i (by omega)]

theorem shifts_low_byte (y : BitVec 8) : (shift (0x1021 : BitVec 16))^[8] (y.setWidth 16) = y.setWidth 16 <<< 8 := by
  refine shifts_low fun i hi => ?_
  rw [BitVec.getMsbD_eq_getLsbD, BitVec.getLsbD_setWidth, BitVec.getLsbD_of_ge y _ (by omega)]
  simp

theorem ioCrc16Table0_eq (i : BitVec 8) : ioCrc16Table0 i = (shift 0x1021)^[8] (i.setWidth 16 <<< 8) := by
  unfold ioCrc16Table0
  rw [crc16Step_eq]

theorem shifts8_eq (x y : BitVec 8) : (shift (0x1021 : BitVec 16))^[8] (x ++ y) = ioCrc16Table0 x ^^^ y.setWidth 16 <<< 8 := by
  rw [append_eq_xor, shifts_xor, shifts_low_byte, ioCrc16Table0_eq]

theorem ioCrc16Table1_eq (i : BitVec 8) : ioCrc16Table1 i = (shift 0x1021)^[16] (i.setWidth 16 <<< 8) := by
  unfold ioCrc16Table1
  dsimp only
  have hiter : (shift (0x1021 : BitVec 16))^[16] (i.setWidth 16 <<< 8) = (shift 0x1021)^[8] (ioCrc16Table0 i) := by
    rw [ioCrc16Table0_eq, ← Function.iterate_add_apply]
  rw [hiter]
  generalize ioCrc16Table0 i = c
  have hlow : c <<< 8 = (c.setWidth 8).setWidth 16 <<< 8 := by
    apply BitVec.eq_of_getLsbD_eq
    intro j hj
    simp only [BitVec.getLsbD_shiftLeft, BitVec.getLsbD_setWidth]
    by_cases h8 : j < 8
    · simp [h8]
    · have hin : j - 8 < 8 := by omega
      have hword : j - 8 < 16 := by omega
      simp [h8, hin, hword]
  conv_rhs => rw [crc16_split c]
  rw [shifts8_eq, hlow]

theorem crc16_tables (c : BitVec 16) : ioCrc16Table1 ((c >>> 8).setWidth 8) ^^^ ioCrc16Table0 (c.setWidth 8) = (shift 0x1021)^[16] c := by
  conv_rhs => rw [crc16_split c, append_eq_xor, shifts_xor, ← ioCrc16Table1_eq]
  rw [ioCrc16Table0_eq, ← shifts_low_byte, ← Function.iterate_add_apply]

/-! ## Buffers -/

theorem makeCrc7_foldl (buffer : List (BitVec 8)) : ∀ c : BitVec 8,
    buffer.foldl (fun crc7 b => ioCrc7Table (crc7 ^^^ b)) c = (bufferBits buffer).foldl (bit 0x12) c := by
  unfold bufferBits
  induction buffer with
  | nil => exact fun _ => rfl
  | cons b buffer ih =>
    intro c
    rw [List.foldl_cons, List.flatMap_cons, List.foldl_append, foldl_bits, ih]
    unfold ioCrc7Table
    rw [crc7Step_eq]

theorem makeCrc16_foldl : ∀ (buffer : List (BitVec 8)) (c : BitVec 16), buffer.length % 2 = 0 →
    (bufferWords buffer).foldl makeCrc16Step c = (bufferBits buffer).foldl (bit 0x1021) c
  | [], _, _ => rfl
  | [_], _, h => absurd h (by decide : ¬ 1 % 2 = 0)
  | hi :: lo :: buffer, c, h => by
    have hbits : bufferBits (hi :: lo :: buffer) = bits (hi ++ lo) ++ bufferBits buffer := by
      rw [bits_append, List.append_assoc]
      rfl
    have hstep : makeCrc16Step c (hi ++ lo) = (shift 0x1021)^[16] (c ^^^ (hi ++ lo)) := crc16_tables _
    have hrest : buffer.length % 2 = 0 := by
      rw [List.length_cons, List.length_cons] at h
      omega
    rw [bufferWords, List.foldl_cons, makeCrc16_foldl buffer _ hrest, hbits, List.foldl_append, foldl_bits, hstep]

theorem makeCrc7_eq (buffer : List (BitVec 8)) : makeCrc7 buffer = crc (0x09 : BitVec 7) (bufferBits buffer) ++ 0#1 := by
  have halign : (0x12 : BitVec 8) = (0x09 : BitVec 7) ++ 0#1 := by decide
  unfold makeCrc7 crc
  rw [makeCrc7_foldl, halign]
  exact foldl_bit_append (by decide : 0 < 7) 0x09 (bufferBits buffer) 0#7

/-- **The checksums by tables are those by bits.** -/
theorem sd_crc (buffer : List (BitVec 8)) : makeCrc7 buffer = crc (0x09 : BitVec 7) (bufferBits buffer) ++ 0#1 ∧
    (buffer.length % 2 = 0 → makeCrc16 buffer = crc 0x1021 (bufferBits buffer)) :=
  ⟨makeCrc7_eq buffer, makeCrc16_foldl buffer 0⟩

/-- The command that resets a card, and two bytes of data. -/
theorem sd_crc_sample : makeCrc7 [0x40, 0, 0, 0, 0] = crc (0x09 : BitVec 7) (bufferBits [0x40, 0, 0, 0, 0]) ++ 0#1 ∧
    makeCrc16 [0xff, 0xff] = crc 0x1021 (bufferBits [0xff, 0xff]) :=
  ⟨(sd_crc [0x40, 0, 0, 0, 0]).1, (sd_crc [0xff, 0xff]).2 (by decide)⟩

section Remainders

open Polynomial

theorem generator_crc7 : generator (0x09 : BitVec 7) = X ^ 7 + (X ^ 3 + 1) := by
  have hpoly : toPoly (0x09 : BitVec 7) = X ^ 3 + 1 := by
    simp [toPoly, Finset.sum_range_succ, bitPoly]
    ring
  rw [generator, hpoly]

theorem generator_crc16 : generator (0x1021 : BitVec 16) = X ^ 16 + (X ^ 12 + X ^ 5 + 1) := by
  have hpoly : toPoly (0x1021 : BitVec 16) = X ^ 12 + X ^ 5 + 1 := by
    simp [toPoly, Finset.sum_range_succ, bitPoly]
    ring
  rw [generator, hpoly]

/-- **A checksum is a remainder**: that of a command by `x^7 + x^3 + 1`, and that of data by `x^16 + x^12 + x^5 + 1`. -/
theorem sd_crc_remainder (buffer : List (BitVec 8)) :
    (∃ r : BitVec 7, makeCrc7 buffer = r ++ 0#1 ∧ toPoly r = (message (bufferBits buffer) * X ^ 7) %ₘ (X ^ 7 + (X ^ 3 + 1))) ∧
      (buffer.length % 2 = 0 →
        toPoly (makeCrc16 buffer) = (message (bufferBits buffer) * X ^ 16) %ₘ (X ^ 16 + (X ^ 12 + X ^ 5 + 1))) := by
  refine ⟨⟨_, makeCrc7_eq buffer, ?_⟩, fun heven => ?_⟩
  · rw [← generator_crc7]
    exact toPoly_crc (by decide) _ _
  · have hcrc : makeCrc16 buffer = crc 0x1021 (bufferBits buffer) := makeCrc16_foldl buffer 0 heven
    rw [hcrc, ← generator_crc16]
    exact toPoly_crc (by decide) _ _

end Remainders

end Libogc
