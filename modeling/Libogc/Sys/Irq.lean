import Libogc.Lwp.Priority
import Libogc.Sys.Timespec
/-!
# Irq — the interrupt masks of `irq.c`

An interrupt is enabled by a bit of one of seven registers; `prevIrqMask` and `currIrqMask` say which are masked.  A call rewrites the
registers of the interrupts that it masks or unmasks, a register at a time, from the first of them on.
-/
namespace Libogc

def IRQ_MEMADDRESS : Nat := 4
def IRQ_DSP_AI : Nat := 5
def IRQ_DSP_DSP : Nat := 7
def IRQ_AI : Nat := 8
def IRQ_EXI0_EXI : Nat := 9
def IRQ_EXI0_EXT : Nat := 11
def IRQ_EXI1_EXI : Nat := 12
def IRQ_EXI1_EXT : Nat := 14
def IRQ_EXI2_EXI : Nat := 15
def IRQ_EXI2_TC : Nat := 16
def IRQ_PI_CP : Nat := 17
def IRQ_PI_HSP : Nat := 26
def IRQ_PI_ACR : Nat := 27

/-- `_memReg[14]`, `_dspReg[5]`, `_aiReg[0]`, `_exiReg[0]`, `_exiReg[5]`, `_exiReg[10]`, `_piReg[1]` -/
inductive IrqReg where
  | mem
  | dsp
  | ai
  | exi0
  | exi1
  | exi2
  | pi
  deriving DecidableEq, Repr

/-- The registers and the masks. -/
structure IrqState where
  reg : IrqReg → BitVec 32
  prevIrqMask : BitVec 32
  currIrqMask : BitVec 32

def irqMask (irq : Nat) : BitVec 32 := 0x80000000#32 >>> irq

/-- The last interrupt there is. -/
def irqLast : Hw → Nat
  | .dol => IRQ_PI_HSP
  | .rvl => IRQ_PI_ACR

/-- The interrupts of a register, each with its enable bit, in the order of the tests. -/
def irqLines (hw : Hw) : IrqReg → List (Nat × BitVec 32)
  | .mem => [(0, 0x0001), (1, 0x0002), (2, 0x0004), (3, 0x0008), (4, 0x0010)]
  | .dsp => [(5, 0x0010), (6, 0x0040), (7, 0x0100)]
  | .ai => [(8, 0x0004)]
  | .exi0 => [(9, 0x0001), (10, 0x0004), (11, 0x0400)]
  | .exi1 => [(12, 0x0001), (13, 0x0004), (14, 0x0400)]
  | .exi2 => [(15, 0x0001), (16, 0x0004)]
  | .pi => [(23, 0x0001), (22, 0x0002), (21, 0x0004), (20, 0x0008), (24, 0x0100), (18, 0x0200), (19, 0x0400), (17, 0x0800),
      (25, 0x1000), (26, 0x2000)] ++
      match hw with
      | .dol => []
      | .rvl => [(27, 0x4000)]

/-- `IM_MEM`, `IM_DSP`, `IM_AI`, `IM_EXI0`, `IM_EXI1`, `IM_EXI2`, `IM_PI` -/
def irqGroup (hw : Hw) (r : IrqReg) : BitVec 32 := (irqLines hw r).foldl (fun m l => m ||| irqMask l.1) 0

/-- The bits of the interrupts that are not masked. -/
def irqEnable (nMask : BitVec 32) (imask : BitVec 32) (lines : List (Nat × BitVec 32)) : BitVec 32 :=
  lines.foldl (fun imask l => if nMask &&& irqMask l.1 = 0 then imask ||| l.2 else imask) imask

/-- What a register is given, from what it has. -/
def irqValue (hw : Hw) (nMask : BitVec 32) (old : BitVec 32) : IrqReg → BitVec 32
  | .mem => irqEnable nMask 0 (irqLines hw .mem) &&& 0xffff
  | .dsp => irqEnable nMask (old &&& ~~~0x1f8) (irqLines hw .dsp) &&& 0xffff
  | .ai => irqEnable nMask (old &&& ~~~0x2c) (irqLines hw .ai)
  | .exi0 => irqEnable nMask (old &&& ~~~0x2c0f) (irqLines hw .exi0)
  | .exi1 => irqEnable nMask (old &&& ~~~0x0c0f) (irqLines hw .exi1)
  | .exi2 => irqEnable nMask (old &&& ~~~0x000f) (irqLines hw .exi2)
  | .pi => irqEnable nMask 0xf0 (irqLines hw .pi)

def irqWrite (hw : Hw) (nMask : BitVec 32) (s : IrqState) (r : IrqReg) : IrqState :=
  { s with reg := Function.update s.reg r (irqValue hw nMask (s.reg r) r) }

/-- `__SetInterrupts` -/
def setInterrupts (hw : Hw) (s : IrqState) (iMask nMask : BitVec 32) : IrqState × BitVec 32 :=
  let irq := cntlzw iMask
  if irq ≤ IRQ_MEMADDRESS then (irqWrite hw nMask s .mem, iMask &&& ~~~irqGroup hw .mem)
  else if IRQ_DSP_AI ≤ irq ∧ irq ≤ IRQ_DSP_DSP then (irqWrite hw nMask s .dsp, iMask &&& ~~~irqGroup hw .dsp)
  else if irq = IRQ_AI then (irqWrite hw nMask s .ai, iMask &&& ~~~irqGroup hw .ai)
  else if IRQ_EXI0_EXI ≤ irq ∧ irq ≤ IRQ_EXI0_EXT then (irqWrite hw nMask s .exi0, iMask &&& ~~~irqGroup hw .exi0)
  else if IRQ_EXI1_EXI ≤ irq ∧ irq ≤ IRQ_EXI1_EXT then (irqWrite hw nMask s .exi1, iMask &&& ~~~irqGroup hw .exi1)
  else if IRQ_EXI2_EXI ≤ irq ∧ irq ≤ IRQ_EXI2_TC then (irqWrite hw nMask s .exi2, iMask &&& ~~~irqGroup hw .exi2)
  else if IRQ_PI_CP ≤ irq ∧ irq ≤ irqLast hw then (irqWrite hw nMask s .pi, iMask &&& ~~~irqGroup hw .pi)
  else (s, 0)

/-- The loop of `__MaskIrq` and `__UnmaskIrq`, `n` rounds at most. -/
def irqUpdate (hw : Hw) (nMask : BitVec 32) : Nat → IrqState → BitVec 32 → Option IrqState
  | 0, _, _ => none
  | n + 1, s, mask =>
    let r := setInterrupts hw s mask nMask
    if r.2 ≠ 0 then irqUpdate hw nMask n r.1 r.2 else some r.1

def unmaskIrq (hw : Hw) (s : IrqState) (nMask : BitVec 32) : Option IrqState :=
  let mask := nMask &&& (s.prevIrqMask ||| s.currIrqMask)
  let nMask := s.prevIrqMask &&& ~~~nMask
  irqUpdate hw (nMask ||| s.currIrqMask) 32 { s with prevIrqMask := nMask } mask

def maskIrq (hw : Hw) (s : IrqState) (nMask : BitVec 32) : Option IrqState :=
  let mask := nMask &&& ~~~(s.prevIrqMask ||| s.currIrqMask)
  let nMask := nMask ||| s.prevIrqMask
  irqUpdate hw (nMask ||| s.currIrqMask) 32 { s with prevIrqMask := nMask } mask

/-- What of `__irq_init` concerns the masks. -/
def irqInit (hw : Hw) (reg : IrqReg → BitVec 32) : Option IrqState :=
  maskIrq hw ⟨Function.update reg .pi 0xf0, 0, 0⟩ (BitVec.ofInt 32 (-32))

inductive IrqCall where
  | mask (nMask : BitVec 32)
  | unmask (nMask : BitVec 32)

def irqCall (hw : Hw) (s : IrqState) : IrqCall → Option IrqState
  | .mask nMask => maskIrq hw s nMask
  | .unmask nMask => unmaskIrq hw s nMask

/-- After `__irq_init`, one call after the other. -/
def irqRun (hw : Hw) (reg : IrqReg → BitVec 32) (calls : List IrqCall) : Option IrqState :=
  calls.foldlM (irqCall hw) =<< irqInit hw reg

/-- The interrupt is masked. -/
def IrqState.masked (s : IrqState) (irq : Nat) : Bool := (s.prevIrqMask ||| s.currIrqMask).getMsbD irq

/-- **The registers mirror the masks**: each interrupt's bit is set exactly when it is not masked. -/
def IrqMirror (hw : Hw) (s : IrqState) : Prop := ∀ r, ∀ l ∈ irqLines hw r, s.reg r &&& l.2 ≠ 0 ↔ s.masked l.1 = false

/-- The call's mask has bits of interrupts only. -/
def IrqCall.defined (hw : Hw) : IrqCall → Prop
  | .mask nMask => ∀ i < 32, nMask.getMsbD i = true → i ≤ irqLast hw
  | .unmask nMask => ∀ i < 32, nMask.getMsbD i = true → i ≤ irqLast hw

/-! ## A register -/

variable {hw : Hw} {s : IrqState} {nMask mask : BitVec 32}

theorem or_and_ne_zero (x y b : BitVec 32) : (x ||| y) &&& b ≠ 0 ↔ x &&& b ≠ 0 ∨ y &&& b ≠ 0 := by
  rw [BitVec.and_or_distrib_right]
  exact (not_congr BitVec.or_eq_zero_iff).trans not_and_or

theorem irqEnable_and (nMask b : BitVec 32) (lines : List (Nat × BitVec 32)) : ∀ imask : BitVec 32,
    irqEnable nMask imask lines &&& b ≠ 0 ↔ imask &&& b ≠ 0 ∨ ∃ l ∈ lines, nMask &&& irqMask l.1 = 0 ∧ l.2 &&& b ≠ 0 := by
  induction lines with
  | nil => simp [irqEnable]
  | cons l lines ih =>
    intro imask
    have hcons : irqEnable nMask imask (l :: lines) =
        irqEnable nMask (if nMask &&& irqMask l.1 = 0 then imask ||| l.2 else imask) lines := rfl
    rw [hcons, ih, List.exists_mem_cons_iff]
    by_cases hl : nMask &&& irqMask l.1 = 0
    · rw [if_pos hl, or_and_ne_zero, and_iff_right hl, or_assoc]
    · rw [if_neg hl]
      exact or_congr_right (or_iff_right fun h => hl h.1).symm

theorem irqLines_bits (hw : Hw) (r : IrqReg) : ∀ l ∈ irqLines hw r, ∀ l' ∈ irqLines hw r, l'.2 &&& l.2 ≠ 0 ↔ l' = l := by
  cases hw <;> cases r <;> decide

variable {r r₀ : IrqReg} {l : Nat × BitVec 32} {b : BitVec 32} {i : Nat} {s' : IrqState}

/-- From a register without the bits of its interrupts, those that are not masked get theirs. -/
theorem irqEnable_line {imask : BitVec 32} (hl : l ∈ irqLines hw r) (himask : imask &&& l.2 = 0) :
    irqEnable nMask imask (irqLines hw r) &&& l.2 ≠ 0 ↔ nMask &&& irqMask l.1 = 0 := by
  rw [irqEnable_and]
  constructor
  · rintro (h | ⟨l', hl', hm, hb⟩)
    · exact absurd himask h
    · rwa [(irqLines_bits hw r l hl l' hl').mp hb] at hm
  · exact fun hm => .inr ⟨l, hl, hm, (irqLines_bits hw r l hl l hl).mpr rfl⟩

theorem and_cleared {keep : BitVec 32} (old : BitVec 32) (h : keep &&& b = 0) : old &&& keep &&& b = 0 := by
  rw [BitVec.and_assoc, h]
  exact BitVec.and_zero

theorem and_low (x : BitVec 32) (h : 0xffff &&& b = b) : x &&& 0xffff &&& b = x &&& b := by
  rw [BitVec.and_assoc, h]

theorem irqValue_line (old : BitVec 32) : ∀ l ∈ irqLines hw r, irqValue hw nMask old r &&& l.2 ≠ 0 ↔ nMask &&& irqMask l.1 = 0 := by
  have hclear : ∀ {keep : BitVec 32} {r : IrqReg}, (∀ l ∈ irqLines hw r, keep &&& l.2 = 0) → ∀ l ∈ irqLines hw r,
      irqEnable nMask (old &&& keep) (irqLines hw r) &&& l.2 ≠ 0 ↔ nMask &&& irqMask l.1 = 0 :=
    fun hkeep l hl => irqEnable_line hl (and_cleared old (hkeep l hl))
  intro l hl
  cases r with
  | mem =>
    have hlow : ∀ l ∈ irqLines hw .mem, (0xffff : BitVec 32) &&& l.2 = l.2 := by cases hw <;> decide
    rw [irqValue, and_low _ (hlow l hl)]
    exact irqEnable_line hl BitVec.zero_and
  | dsp =>
    have hlow : ∀ l ∈ irqLines hw .dsp, (0xffff : BitVec 32) &&& l.2 = l.2 := by cases hw <;> decide
    rw [irqValue, and_low _ (hlow l hl)]
    exact hclear (by cases hw <;> decide) l hl
  | ai => exact hclear (by cases hw <;> decide) l hl
  | exi0 => exact hclear (by cases hw <;> decide) l hl
  | exi1 => exact hclear (by cases hw <;> decide) l hl
  | exi2 => exact hclear (by cases hw <;> decide) l hl
  | pi =>
    have hbase : ∀ l ∈ irqLines hw .pi, (0xf0 : BitVec 32) &&& l.2 = 0 := by cases hw <;> decide
    exact irqEnable_line hl (hbase l hl)

/-! ## The interrupts -/

theorem irqMask_bit {j : Nat} (hi : i < 32) (hj : j < 32) : (irqMask i).getMsbD j = decide (j = i) := by
  have hbit : ∀ i j : Fin 32, (irqMask i).getMsbD j = decide (j.val = i.val) := by decide +kernel
  exact hbit ⟨i, hi⟩ ⟨j, hj⟩

theorem irqMask_zero (hi : i < 32) : nMask &&& irqMask i = 0 ↔ nMask.getMsbD i = false := by
  constructor
  · intro h
    have hbit : (nMask &&& irqMask i).getMsbD i = false := by
      rw [h]
      exact BitVec.getMsbD_zero
    rwa [BitVec.getMsbD_and, irqMask_bit hi hi, decide_eq_true rfl, Bool.and_true] at hbit
  · intro h
    refine eq_zero_of_getMsbD fun j hj => ?_
    rw [BitVec.getMsbD_and, irqMask_bit hi hj]
    by_cases hji : j = i
    · rw [hji, h, Bool.false_and]
    · rw [decide_eq_false hji, Bool.and_false]

theorem irqLines_lt (hw : Hw) (r : IrqReg) : ∀ l ∈ irqLines hw r, l.1 < 32 := by
  cases hw <;> cases r <;> decide

theorem irqLines_reg (hw : Hw) (r r' : IrqReg) : ∀ l ∈ irqLines hw r, ∀ l' ∈ irqLines hw r', l.1 = l'.1 → r = r' := by
  cases hw <;> cases r <;> cases r' <;> decide

theorem irqGroup_bit (hw : Hw) (r : IrqReg) : ∀ i < 32, (irqGroup hw r).getMsbD i = decide (∃ l ∈ irqLines hw r, l.1 = i) := by
  cases hw <;> cases r <;> decide +kernel

theorem cntlzw_bit (h : mask ≠ 0) : mask.getMsbD (cntlzw mask) = true ∧ cntlzw mask < 32 := by
  obtain ⟨i, hi⟩ := getMsbD_of_ne_zero h
  obtain ⟨hbit, -⟩ := cntlzw_spec hi
  refine ⟨hbit, ?_⟩
  by_contra hge
  rw [BitVec.getMsbD_of_ge _ _ (Nat.le_of_not_lt hge)] at hbit
  exact absurd hbit Bool.false_ne_true

/-- The interrupts that a test of `__SetInterrupts` lets through are those of its register. -/
theorem irqLines_range (hw : Hw) :
    (∀ i < 5, ∃ l ∈ irqLines hw .mem, l.1 = i) ∧ (∀ i < 8, 5 ≤ i → ∃ l ∈ irqLines hw .dsp, l.1 = i) ∧
      (∃ l ∈ irqLines hw .ai, l.1 = 8) ∧ (∀ i < 12, 9 ≤ i → ∃ l ∈ irqLines hw .exi0, l.1 = i) ∧
      (∀ i < 15, 12 ≤ i → ∃ l ∈ irqLines hw .exi1, l.1 = i) ∧ (∀ i < 17, 15 ≤ i → ∃ l ∈ irqLines hw .exi2, l.1 = i) ∧
      ∀ i < irqLast hw + 1, 17 ≤ i → ∃ l ∈ irqLines hw .pi, l.1 = i := by
  cases hw <;> decide

/-- A round rewrites the register of the leading interrupt, and takes its interrupts off the mask. -/
theorem setInterrupts_spec (s : IrqState) (nMask : BitVec 32) (h : cntlzw mask ≤ irqLast hw) :
    ∃ r, (∃ l ∈ irqLines hw r, l.1 = cntlzw mask) ∧ setInterrupts hw s mask nMask = (irqWrite hw nMask s r, mask &&& ~~~irqGroup hw r) := by
  obtain ⟨hmem, hdsp, hai, hexi0, hexi1, hexi2, hpi⟩ := irqLines_range hw
  unfold setInterrupts IRQ_MEMADDRESS IRQ_DSP_AI IRQ_DSP_DSP IRQ_AI IRQ_EXI0_EXI IRQ_EXI0_EXT IRQ_EXI1_EXI IRQ_EXI1_EXT IRQ_EXI2_EXI
    IRQ_EXI2_TC IRQ_PI_CP
  generalize cntlzw mask = irq at h ⊢
  dsimp only
  split
  · exact ⟨.mem, hmem irq (by omega), rfl⟩
  split
  · exact ⟨.dsp, hdsp irq (by omega) (by omega), rfl⟩
  split
  · rename_i hirq
    exact ⟨.ai, hirq ▸ hai, rfl⟩
  split
  · exact ⟨.exi0, hexi0 irq (by omega) (by omega), rfl⟩
  split
  · exact ⟨.exi1, hexi1 irq (by omega) (by omega), rfl⟩
  split
  · exact ⟨.exi2, hexi2 irq (by omega) (by omega), rfl⟩
  split
  · exact ⟨.pi, hpi irq (by omega) (by omega), rfl⟩
  · omega

/-! ## The loop -/

/-- **A register after the loop**: rewritten, or left alone since none of its interrupts was in the mask. -/
def IrqSettled (hw : Hw) (nMask mask : BitVec 32) (s s' : IrqState) (r : IrqReg) : Prop :=
  (∀ l ∈ irqLines hw r, s'.reg r &&& l.2 ≠ 0 ↔ nMask.getMsbD l.1 = false) ∨
    (s'.reg r = s.reg r ∧ ∀ l ∈ irqLines hw r, mask.getMsbD l.1 = false)

theorem irqUpdate_zero (n : Nat) : irqUpdate hw nMask (n + 1) s 0 = some s := by
  have hset : setInterrupts hw s 0 nMask = (s, 0) := by
    unfold setInterrupts
    rw [show cntlzw 0 = 32 by decide]
    cases hw <;> rfl
  rw [irqUpdate, hset]
  exact if_neg (not_not_intro rfl)

theorem irqWrite_self (r : IrqReg) : ∀ l ∈ irqLines hw r, (irqWrite hw nMask s r).reg r &&& l.2 ≠ 0 ↔ nMask.getMsbD l.1 = false := by
  intro l hl
  unfold irqWrite
  dsimp only
  rw [Function.update_self, irqValue_line _ l hl, irqMask_zero (irqLines_lt hw r l hl)]

theorem irqWrite_other {r' : IrqReg} (h : r' ≠ r) : (irqWrite hw nMask s r).reg r' = s.reg r' := Function.update_of_ne h _ _

theorem irqMask_rest (hi : i < 32) :
    (mask &&& ~~~irqGroup hw r).getMsbD i = true ↔ mask.getMsbD i = true ∧ ¬ ∃ l ∈ irqLines hw r, l.1 = i := by
  rw [BitVec.getMsbD_and, BitVec.getMsbD_not, irqGroup_bit hw r i hi]
  simp [hi]

theorem irqMask_other (hr : r ≠ r₀) (hl : l ∈ irqLines hw r) (hbit : (mask &&& ~~~irqGroup hw r₀).getMsbD l.1 = false) :
    mask.getMsbD l.1 = false := by
  by_contra hm
  have hrest : (mask &&& ~~~irqGroup hw r₀).getMsbD l.1 = true :=
    (irqMask_rest (irqLines_lt hw r l hl)).mpr ⟨by simpa using hm, fun ⟨l', hl', he⟩ => hr (irqLines_reg hw r r₀ l hl l' hl' he.symm)⟩
  rw [hbit] at hrest
  exact absurd hrest Bool.false_ne_true

/-- A register is written, and the rest of the mask is dealt with after it. -/
theorem IrqSettled.write (h : ∀ r, IrqSettled hw nMask (mask &&& ~~~irqGroup hw r₀) (irqWrite hw nMask s r₀) s' r) (r : IrqReg) :
    IrqSettled hw nMask mask s s' r := by
  rcases h r with hset | ⟨hsame, hbits⟩
  · exact .inl hset
  · by_cases hr : r = r₀
    · subst hr
      refine .inl fun l hl => ?_
      rw [hsame]
      exact irqWrite_self r l hl
    · exact .inr ⟨hsame.trans (irqWrite_other hr), fun l hl => irqMask_other hr hl (hbits l hl)⟩

/-- The loop ends: a round takes the leading interrupt off the mask, so that fewer can follow. -/
theorem irqUpdate_spec (nMask : BitVec 32) (n : Nat) : ∀ (s : IrqState) (mask : BitVec 32), 1 ≤ n → 32 ≤ n + cntlzw mask →
    (∀ i < 32, mask.getMsbD i = true → i ≤ irqLast hw) →
    ∃ s', irqUpdate hw nMask n s mask = some s' ∧ s'.prevIrqMask = s.prevIrqMask ∧ s'.currIrqMask = s.currIrqMask ∧
      ∀ r, IrqSettled hw nMask mask s s' r := by
  induction n with
  | zero => exact fun _ _ h => absurd h (by decide)
  | succ n ih =>
    intro s mask _ hn hdef
    by_cases h0 : mask = 0
    · subst h0
      exact ⟨s, irqUpdate_zero n, rfl, rfl, fun r => .inr ⟨rfl, fun _ _ => BitVec.getMsbD_zero⟩⟩
    · obtain ⟨hlead, hlt⟩ := cntlzw_bit h0
      obtain ⟨r₀, hr₀, hset⟩ := setInterrupts_spec s nMask (hdef _ hlt hlead)
      rw [irqUpdate, hset]
      dsimp only
      by_cases hm : mask &&& ~~~irqGroup hw r₀ = 0
      · rw [if_neg (not_not_intro hm)]
        refine ⟨_, rfl, rfl, rfl, IrqSettled.write fun r => .inr ⟨rfl, fun l _ => ?_⟩⟩
        rw [hm]
        exact BitVec.getMsbD_zero
      · rw [if_pos hm]
        obtain ⟨hlead', hlt'⟩ := cntlzw_bit hm
        obtain ⟨hin, hout⟩ := (irqMask_rest hlt').mp hlead'
        have hle := (cntlzw_spec hin).2
        have hne : cntlzw (mask &&& ~~~irqGroup hw r₀) ≠ cntlzw mask := fun he => hout (he ▸ hr₀)
        obtain ⟨s', hs', hprev, hcurr, hreg⟩ := ih (irqWrite hw nMask s r₀) (mask &&& ~~~irqGroup hw r₀) (by omega)
          (by omega) fun i hi hbit => hdef i hi ((irqMask_rest hi).mp hbit).1
        exact ⟨s', hs', hprev, hcurr, IrqSettled.write hreg⟩

/-! ## The calls -/

theorem IrqMirror.settled (h : IrqMirror hw s) (hreg : ∀ r, IrqSettled hw nMask mask s s' r)
    (hmasked : s'.prevIrqMask ||| s'.currIrqMask = nMask) (hkeep : ∀ i < 32, mask.getMsbD i = false → nMask.getMsbD i = s.masked i) :
    IrqMirror hw s' := by
  intro r l hl
  unfold IrqState.masked
  rw [hmasked]
  rcases hreg r with hset | ⟨hsame, hbits⟩
  · exact hset l hl
  · rw [hsame, hkeep _ (irqLines_lt hw r l hl) (hbits l hl)]
    exact h r l hl

theorem IrqMirror.call_mask (h : IrqMirror hw s) (hdef : (IrqCall.mask nMask).defined hw) :
    ∃ s', maskIrq hw s nMask = some s' ∧ IrqMirror hw s' := by
  have hbits : ∀ n p c : Bool, (n && !(p || c)) = false → (n || p || c) = (p || c) := by decide
  obtain ⟨s', hs', hprev, hcurr, hreg⟩ := irqUpdate_spec (nMask ||| s.prevIrqMask ||| s.currIrqMask) 32
    { s with prevIrqMask := nMask ||| s.prevIrqMask } (nMask &&& ~~~(s.prevIrqMask ||| s.currIrqMask)) (by decide) (by omega)
    fun i hi hbit => hdef i hi (by
      rw [BitVec.getMsbD_and, Bool.and_eq_true] at hbit
      exact hbit.1)
  refine ⟨s', hs', h.settled hreg (by rw [hprev, hcurr]) fun i hi hbit => ?_⟩
  rw [BitVec.getMsbD_and, BitVec.getMsbD_not, BitVec.getMsbD_or, decide_eq_true hi, Bool.true_and] at hbit
  unfold IrqState.masked
  rw [BitVec.getMsbD_or, BitVec.getMsbD_or, BitVec.getMsbD_or]
  exact hbits _ _ _ hbit

theorem IrqMirror.call_unmask (h : IrqMirror hw s) (hdef : (IrqCall.unmask nMask).defined hw) :
    ∃ s', unmaskIrq hw s nMask = some s' ∧ IrqMirror hw s' := by
  have hbits : ∀ n p c : Bool, (n && (p || c)) = false → (p && !n || c) = (p || c) := by decide
  obtain ⟨s', hs', hprev, hcurr, hreg⟩ := irqUpdate_spec (s.prevIrqMask &&& ~~~nMask ||| s.currIrqMask) 32
    { s with prevIrqMask := s.prevIrqMask &&& ~~~nMask } (nMask &&& (s.prevIrqMask ||| s.currIrqMask)) (by decide) (by omega)
    fun i hi hbit => hdef i hi (by
      rw [BitVec.getMsbD_and, Bool.and_eq_true] at hbit
      exact hbit.1)
  refine ⟨s', hs', h.settled hreg (by rw [hprev, hcurr]) fun i hi hbit => ?_⟩
  rw [BitVec.getMsbD_and, BitVec.getMsbD_or] at hbit
  unfold IrqState.masked
  rw [BitVec.getMsbD_or, BitVec.getMsbD_or, BitVec.getMsbD_and, BitVec.getMsbD_not, decide_eq_true hi, Bool.true_and]
  exact hbits _ _ _ hbit

theorem IrqMirror.call (h : IrqMirror hw s) {c : IrqCall} (hdef : c.defined hw) : ∃ s', irqCall hw s c = some s' ∧ IrqMirror hw s' := by
  cases c with
  | mask nMask => exact h.call_mask hdef
  | unmask nMask => exact h.call_unmask hdef

/-- `__irq_init` masks an interrupt of each register, so that all of them are written. -/
theorem irqInit_mirror (hw : Hw) (reg : IrqReg → BitVec 32) : ∃ s, irqInit hw reg = some s ∧ IrqMirror hw s := by
  obtain ⟨s, hs, hprev, hcurr, hreg⟩ := @irqUpdate_spec hw (BitVec.ofInt 32 (-32) ||| 0 ||| 0) 32
    ⟨Function.update reg .pi 0xf0, BitVec.ofInt 32 (-32) ||| 0, 0⟩ (BitVec.ofInt 32 (-32) &&& ~~~(0 ||| 0)) (by decide)
    (by omega) (by cases hw <;> decide)
  have hall : ∀ r, ∃ l ∈ irqLines hw r, (BitVec.ofInt 32 (-32) &&& ~~~(0 ||| 0)).getMsbD l.1 = true := by
    intro r
    cases hw <;> cases r <;> decide
  refine ⟨s, hs, fun r l hl => ?_⟩
  unfold IrqState.masked
  rw [hprev, hcurr]
  rcases hreg r with hset | ⟨-, hbits⟩
  · exact hset l hl
  · obtain ⟨l', hl', hbit⟩ := hall r
    rw [hbits l' hl'] at hbit
    exact absurd hbit Bool.false_ne_true

/-- **The registers mirror the masks** after any sequence of calls, whatever was in them before `__irq_init`, and no call loops. -/
theorem irq_mirror (hw : Hw) (reg : IrqReg → BitVec 32) (calls : List IrqCall) (hdef : ∀ c ∈ calls, c.defined hw) :
    ∃ s, irqRun hw reg calls = some s ∧ IrqMirror hw s := by
  obtain ⟨s, hs, h⟩ := irqInit_mirror hw reg
  unfold irqRun
  rw [hs]
  show ∃ s', calls.foldlM (irqCall hw) s = some s' ∧ IrqMirror hw s'
  clear hs
  induction calls generalizing s with
  | nil => exact ⟨s, rfl, h⟩
  | cons c calls ih =>
    obtain ⟨s₁, hs₁, h₁⟩ := h.call (hdef c List.mem_cons_self)
    rw [List.foldlM_cons, hs₁]
    exact ih (fun c' hc' => hdef c' (List.mem_cons_of_mem _ hc')) s₁ h₁

/-- The timer of the video interface is unmasked, and masked again with the memory interrupts. -/
def irqSample : List IrqCall := [.unmask (irqMask 24), .mask (irqMask 24 ||| irqMask 0)]

theorem irq_mirror_sample : ∃ s, irqRun .rvl (fun _ => 0) irqSample = some s ∧ IrqMirror .rvl s :=
  irq_mirror .rvl (fun _ => 0) irqSample (by
    intro c hc
    rcases List.mem_cons.mp hc with rfl | hc
    · show ∀ i < 32, _
      decide
    · obtain rfl := List.mem_singleton.mp hc
      show ∀ i < 32, _
      decide)

end Libogc
