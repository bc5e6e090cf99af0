import Libogc.Lib.Numerals
import Mathlib.Data.Fintype.Basic
import Mathlib.Tactic.Common
import Mathlib.Tactic.IntervalCases
/-!
# Priority — `lwp_priority.inl` and `lwp_priority.c`: the two-level bitmap of ready priorities

Priority `p` is bit `p % 16` of the minor word `p / 16`, counted from the most significant bit; a major bit summarises one
minor word.  `Marks` says that the two levels agree on a set of priorities, and that the low halves of the words stay
clear, which is what lets `cntlzw` index the minor words.
-/
namespace Libogc

/-- `_prio_major_bitmap` and `_prio_bitmap`. -/
structure PrioBitmap where
  major : BitVec 32
  minor : Fin 16 → BitVec 32

/-- `prio_cntrl`: a priority's word and masks.  `minor` is the index of the word the source's field points at. -/
structure PrioCntrl where
  minor : Fin 16
  readyMinor : BitVec 32
  readyMajor : BitVec 32
  blockMinor : BitVec 32
  blockMajor : BitVec 32
  deriving DecidableEq, Repr

def prioMajor (p : Fin 256) : Fin 16 := ⟨p.val / 16, by omega⟩
def prioMinor (p : Fin 256) : Fin 16 := ⟨p.val % 16, by omega⟩

/-- The PowerPC instruction: the number of leading zero bits. -/
def cntlzw (x : BitVec 32) : Nat := ((List.range 32).find? (fun i => x.getMsbD i)).getD 32

def lwpPriorityInit : PrioBitmap := ⟨0, fun _ => 0⟩

/-- The mask of one bit, counted from the most significant. -/
def prioMask (i : Fin 16) : BitVec 32 := 0x80000000#32 >>> i.val

def lwpPriomapInit (prio : Fin 256) : PrioCntrl :=
  let major := prioMajor prio
  let minor := prioMinor prio
  { minor := major
    readyMajor := prioMask major
    blockMajor := ~~~prioMask major
    readyMinor := prioMask minor
    blockMinor := ~~~prioMask minor }

def lwpPriomapAddto (b : PrioBitmap) (c : PrioCntrl) : PrioBitmap :=
  { minor := Function.update b.minor c.minor (b.minor c.minor ||| c.readyMinor)
    major := b.major ||| c.readyMajor }

def lwpPriomapRemovefrom (b : PrioBitmap) (c : PrioCntrl) : PrioBitmap :=
  let minor := Function.update b.minor c.minor (b.minor c.minor &&& c.blockMinor)
  { minor := minor
    major := if minor c.minor = 0 then b.major &&& c.blockMajor else b.major }

/-- The minor words are sixteen; a count past them reads no word of the bitmap. -/
def PrioBitmap.word (b : PrioBitmap) (i : Nat) : BitVec 32 := if h : i < 16 then b.minor ⟨i, h⟩ else 0

def lwpPriomapHighest (b : PrioBitmap) : Nat :=
  let major := cntlzw b.major
  let minor := cntlzw (b.word major)
  (major <<< 4) + minor

/-! ## The bitmap as a set of priorities -/

/-- **The two levels record exactly the priorities in `S`.** -/
structure Marks (b : PrioBitmap) (S : Fin 256 → Prop) : Prop where
  minor : ∀ p, (b.minor (prioMajor p)).getMsbD (prioMinor p) = true ↔ S p
  major : ∀ j : Fin 16, b.major.getMsbD j = true ↔ b.minor j ≠ 0
  minorLow : ∀ j i, 16 ≤ i → (b.minor j).getMsbD i = false
  majorLow : ∀ i, 16 ≤ i → b.major.getMsbD i = false

/-- What the bitmap records for one priority: its bit in both levels. -/
def PrioBitmap.records (b : PrioBitmap) (p : Fin 256) : Bool :=
  b.major.getMsbD (prioMajor p) && (b.minor (prioMajor p)).getMsbD (prioMinor p)

theorem prio_eq_iff {p r : Fin 256} : p = r ↔ prioMajor p = prioMajor r ∧ prioMinor p = prioMinor r := by
  simp only [prioMajor, prioMinor, Fin.ext_iff]
  omega

@[simp] theorem getMsbD_prioMask (i : Fin 16) (j : Nat) : (prioMask i).getMsbD j = decide (j = i.val) := by
  by_cases hj : j < 32
  · interval_cases j <;> revert i <;> decide
  · rw [BitVec.getMsbD_eq_getLsbD]
    simp only [hj, decide_false, Bool.false_and]
    simp
    omega

variable {x : BitVec 32} {b : PrioBitmap} {S : Fin 256 → Prop}

theorem eq_zero_of_getMsbD (h : ∀ i < 32, x.getMsbD i = false) : x = 0 := by
  apply BitVec.eq_of_getMsbD_eq
  intro i hi
  rw [h i hi]
  simp

theorem getMsbD_of_ne_zero (h : x ≠ 0) : ∃ i, x.getMsbD i = true := by
  by_contra hn
  push Not at hn
  exact h (eq_zero_of_getMsbD fun i _ => by simpa using hn i)

theorem cntlzw_spec {i : Nat} (h : x.getMsbD i = true) : x.getMsbD (cntlzw x) = true ∧ cntlzw x ≤ i := by
  have hi : i < 32 := by
    by_contra hn
    rw [BitVec.getMsbD_eq_getLsbD] at h
    simp [hn] at h
  unfold cntlzw
  cases hf : (List.range 32).find? (fun i => x.getMsbD i) with
  | none =>
    have := List.find?_eq_none.1 hf i (List.mem_range.2 hi)
    exact absurd h this
  | some j =>
    have hj := List.find?_some hf
    refine ⟨hj, ?_⟩
    by_contra hlt
    have := (List.find?_range_eq_some.1 hf).2.2 i (by simpa using hlt)
    simp [h] at this

theorem Marks.init : Marks lwpPriorityInit (fun _ => False) := by
  refine ⟨fun p => ?_, fun j => ?_, fun j i _ => ?_, fun i _ => ?_⟩ <;> simp [lwpPriorityInit]

theorem Marks.congr {S' : Fin 256 → Prop} (h : Marks b S) (hS : ∀ p, S p ↔ S' p) : Marks b S' :=
  ⟨fun p => (h.minor p).trans (hS p), h.major, h.minorLow, h.majorLow⟩

theorem Marks.records (h : Marks b S) (p : Fin 256) : b.records p = true ↔ S p := by
  rw [PrioBitmap.records, Bool.and_eq_true, h.minor, h.major]
  refine ⟨fun hp => hp.2, fun hp => ⟨fun hz => ?_, hp⟩⟩
  have := (h.minor p).2 hp
  rw [hz] at this
  simp at this

theorem Marks.addto (h : Marks b S) (p : Fin 256) : Marks (lwpPriomapAddto b (lwpPriomapInit p)) (fun r => r = p ∨ S r) := by
  have hbit : ∀ j i, ((lwpPriomapAddto b (lwpPriomapInit p)).minor j).getMsbD i =
      (decide (j = prioMajor p ∧ i = (prioMinor p).val) || (b.minor j).getMsbD i) := by
    intro j i
    by_cases hj : j = prioMajor p
    · subst hj
      simp [lwpPriomapAddto, lwpPriomapInit, Bool.or_comm]
    · simp [lwpPriomapAddto, lwpPriomapInit, hj]
  refine ⟨fun r => ?_, fun j => ?_, fun j i hi => ?_, fun i hi => ?_⟩
  · rw [hbit, Bool.or_eq_true, h.minor, decide_eq_true_eq, prio_eq_iff, Fin.ext_iff (a := prioMinor r)]
  · simp only [lwpPriomapAddto, lwpPriomapInit, BitVec.getMsbD_or, Bool.or_eq_true, h.major,
      getMsbD_prioMask, decide_eq_true_eq]
    by_cases hj : j = prioMajor p
    · subst hj
      simp only [or_true, true_iff, Function.update_self]
      intro hz
      have : ((b.minor (prioMajor p)) ||| prioMask (prioMinor p)).getMsbD (prioMinor p) = false := by
        rw [hz]; simp
      simp  at this
    · have : ¬ (j.val = (prioMajor p).val) := fun e => hj (Fin.ext e)
      simp [hj, this]
  · rw [hbit, h.minorLow j i hi]
    have := (prioMinor p).isLt
    simp
    omega
  · simp only [lwpPriomapAddto, lwpPriomapInit, BitVec.getMsbD_or, h.majorLow i hi, getMsbD_prioMask, Bool.false_or]
    have := (prioMajor p).isLt
    simp
    omega

theorem Marks.removefrom (h : Marks b S) (p : Fin 256) :
    Marks (lwpPriomapRemovefrom b (lwpPriomapInit p)) (fun r => r ≠ p ∧ S r) := by
  have hbit : ∀ j i, i < 32 → ((lwpPriomapRemovefrom b (lwpPriomapInit p)).minor j).getMsbD i =
      (!decide (j = prioMajor p ∧ i = (prioMinor p).val) && (b.minor j).getMsbD i) := by
    intro j i hi
    by_cases hj : j = prioMajor p
    · subst hj
      simp [lwpPriomapRemovefrom, lwpPriomapInit, hi, Bool.and_comm]
    · simp [lwpPriomapRemovefrom, lwpPriomapInit, hj]
  refine ⟨fun r => ?_, fun j => ?_, fun j i hi => ?_, fun i hi => ?_⟩
  · rw [hbit _ _ (by have := (prioMinor r).isLt; omega), Bool.and_eq_true, h.minor, Bool.not_eq_true', decide_eq_false_iff_not,
      ne_eq, prio_eq_iff, Fin.ext_iff (a := prioMinor r)]
  · by_cases hj : j = prioMajor p
    · subst hj
      -- the major bit is cleared exactly when the minor word became zero
      have hz : (lwpPriomapRemovefrom b (lwpPriomapInit p)).minor (prioMajor p) =
          b.minor (prioMajor p) &&& ~~~prioMask (prioMinor p) := by
        simp [lwpPriomapRemovefrom, lwpPriomapInit]
      rw [hz]
      simp only [lwpPriomapRemovefrom, lwpPriomapInit, Function.update_self]
      split
      · rename_i h0
        simp [h0]
      · rename_i h0
        rw [h.major]
        refine ⟨fun _ => h0, fun _ he => h0 ?_⟩
        rw [he]
        simp
    · have hm : (lwpPriomapRemovefrom b (lwpPriomapInit p)).minor j = b.minor j := by
        simp [lwpPriomapRemovefrom, lwpPriomapInit, hj]
      have hne : ¬ (j.val = (prioMajor p).val) := fun e => hj (Fin.ext e)
      have hj32 : j.val < 32 := by omega
      rw [hm, ← h.major]
      simp only [lwpPriomapRemovefrom, lwpPriomapInit, Function.update_self]
      by_cases h0 : b.minor (prioMajor p) &&& ~~~prioMask (prioMinor p) = 0
      · rw [if_pos h0]
        simp [hne, hj32]
      · rw [if_neg h0]
  · by_cases hi' : i < 32
    · rw [hbit j i hi', h.minorLow j i hi, Bool.and_false]
    · rw [BitVec.getMsbD_eq_getLsbD]
      simp [hi']
  · simp only [lwpPriomapRemovefrom]
    split
    · simp [h.majorLow i hi]
    · exact h.majorLow i hi

/-- **The highest recorded priority** is the numerically smallest of the set. -/
theorem Marks.highest (h : Marks b S) {r : Fin 256} (hr : S r) : ∃ p, lwpPriomapHighest b = p.val ∧ S p ∧ ∀ r, S r → p ≤ r := by
  have hword : ∀ r, S r → b.minor (prioMajor r) ≠ 0 := by
    intro r hr hz
    have := (h.minor r).2 hr
    rw [hz] at this
    simp at this
  obtain ⟨hM, -⟩ := cntlzw_spec ((h.major _).2 (hword r hr))
  have hMlt : cntlzw b.major < 16 := by
    by_contra hn
    rw [h.majorLow _ (by omega)] at hM
    cases hM
  have hMne : b.minor ⟨cntlzw b.major, hMlt⟩ ≠ 0 := (h.major ⟨_, hMlt⟩).1 hM
  obtain ⟨i, hi⟩ := getMsbD_of_ne_zero hMne
  obtain ⟨hm, -⟩ := cntlzw_spec hi
  have hw : b.word (cntlzw b.major) = b.minor ⟨cntlzw b.major, hMlt⟩ := by simp [PrioBitmap.word, hMlt]
  have hmlt : cntlzw (b.minor ⟨cntlzw b.major, hMlt⟩) < 16 := by
    by_contra hn
    rw [h.minorLow _ _ (by omega)] at hm
    cases hm
  refine ⟨⟨16 * cntlzw b.major + cntlzw (b.minor ⟨cntlzw b.major, hMlt⟩), by omega⟩, ?_, ?_, fun r hr => ?_⟩
  · simp only [lwpPriomapHighest, hw, Nat.shiftLeft_eq]
    omega
  · rw [← h.minor]
    have e1 : prioMajor ⟨16 * cntlzw b.major + cntlzw (b.minor ⟨cntlzw b.major, hMlt⟩), by omega⟩ =
        ⟨cntlzw b.major, hMlt⟩ := by simp only [prioMajor, Fin.mk.injEq]; omega
    have e2 : (prioMinor ⟨16 * cntlzw b.major + cntlzw (b.minor ⟨cntlzw b.major, hMlt⟩), by omega⟩).val =
        cntlzw (b.minor ⟨cntlzw b.major, hMlt⟩) := by simp only [prioMinor]; omega
    rw [e1, e2]
    exact hm
  · obtain ⟨-, hle⟩ := cntlzw_spec ((h.major _).2 (hword r hr))
    rw [Fin.le_def]
    simp only [prioMajor] at hle
    rcases Nat.lt_or_eq_of_le hle with hlt | heq
    · simp only
      omega
    · have hr' := (h.minor r).2 hr
      have e : prioMajor r = ⟨cntlzw b.major, hMlt⟩ := Fin.ext heq.symm
      rw [e] at hr'
      obtain ⟨-, hle'⟩ := cntlzw_spec hr'
      simp only [prioMinor] at hle'
      simp only
      omega

end Libogc
