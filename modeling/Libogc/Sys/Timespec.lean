import Libogc.Sys.Alarm
/-!
# Timespec — timeouts in ticks, of `lwp_watchdog.inl` and `timesupp.h`

A timed call is given a `timespec` and waits for ticks of the time base.  The macros of `timesupp.h` multiply unsigned words of 64 bits;
the callers read the result as a signed one.  The clock is that of either console.
-/
namespace Libogc

/-- `HW_RVL` and `HW_DOL`. -/
inductive Hw where
  | rvl
  | dol
  deriving DecidableEq, Repr

def Hw.tbBusClock : Hw → Nat
  | .rvl => 243000000
  | .dol => 162000000

def Hw.tbTimerClock (hw : Hw) : Nat := hw.tbBusClock / 4000

def tbNsPerSec : Int := 1000000000

def Hw.secsToTicks (hw : Hw) (sec : Int) : Nat := u64 sec * u32 (hw.tbTimerClock * 1000) % 2 ^ 64

def Hw.nanosecsToTicks (hw : Hw) (nsec : Int) : Nat := u64 nsec * (hw.tbTimerClock / 125) % 2 ^ 64 / 8000

/-- `none` is a null pointer. -/
def lwpWdTimespecValid : Option Timespec → Bool
  | none => false
  | some time => ¬ (time.tvNsec < 0 ∨ time.tvNsec ≥ tbNsPerSec)

def Hw.lwpWdCalcTicks (hw : Hw) (time : Timespec) : Int :=
  let ticks := s64 (hw.secsToTicks time.tvSec)
  s64 ((u64 ticks + hw.nanosecsToTicks time.tvNsec) % 2 ^ 64)

/-! ## The exact number of ticks -/

variable {hw : Hw} {t t' : Timespec}

/-- The time-base frequency. -/
def Hw.tbFrequency (hw : Hw) : Int := hw.tbTimerClock * 1000

/-- A timeout that the timed calls accept, and not in the past.  `time_t` is a signed word of 64 bits. -/
structure Timespec.Timeout (t : Timespec) : Prop where
  valid : lwpWdTimespecValid (some t) = true
  future : 0 ≤ t.tvSec
  word : t.tvSec < 2 ^ 63

/-- A timeout is at most as long as another. -/
def Timespec.le (t t' : Timespec) : Prop := t.tvSec < t'.tvSec ∨ t.tvSec = t'.tvSec ∧ t.tvNsec ≤ t'.tvNsec

/-- The ticks of a timeout, scaled by the nanoseconds of a second so as to be exact. -/
def tickSpan (hw : Hw) (t : Timespec) : Int := t.tvSec * hw.tbFrequency * tbNsPerSec + t.tvNsec * hw.tbFrequency

/-- The whole ticks in it. -/
def tickCount (hw : Hw) (t : Timespec) : Int := tickSpan hw t / tbNsPerSec

theorem Timespec.Timeout.nsec (h : t.Timeout) : 0 ≤ t.tvNsec ∧ t.tvNsec < 1000000000 := by
  have := h.valid
  simp only [lwpWdTimespecValid, tbNsPerSec, decide_eq_true_eq, not_or] at this
  omega

theorem u64_of_range {n : Int} (h : 0 ≤ n) (h' : n < 2 ^ 64) : u64 n = n.toNat := by
  unfold u64
  rw [Int.emod_eq_of_lt h h']

theorem u64_natCast (n : Nat) : u64 n = n % 2 ^ 64 := by
  unfold u64
  omega

theorem u64_s64 {n : Nat} (hn : n < 2 ^ 64) : u64 (s64 n) = n := by
  unfold u64 s64
  split <;> omega

theorem s64_range {n : Nat} (hn : n < 2 ^ 64) : -2 ^ 63 ≤ s64 n ∧ s64 n < 2 ^ 63 := by
  unfold s64
  split <;> omega

theorem tickCount_eq (t : Timespec) : tickCount .rvl t = t.tvSec * 60750000 + t.tvNsec * 486 / 8000 ∧
    tickCount .dol t = t.tvSec * 40500000 + t.tvNsec * 324 / 8000 := by
  have hr : Hw.rvl.tbFrequency = 60750000 := rfl
  have hd : Hw.dol.tbFrequency = 40500000 := rfl
  unfold tickCount tickSpan tbNsPerSec
  rw [hr, hd]
  omega

theorem lwpWdCalcTicks_eq (h : t.Timeout) : hw.lwpWdCalcTicks t = s64 (u64 (tickCount hw t)) := by
  obtain ⟨h0, h1⟩ := h.nsec
  have h2 := h.future
  have h3 := h.word
  obtain ⟨hr, hd⟩ := tickCount_eq t
  unfold Hw.lwpWdCalcTicks
  dsimp only
  rw [u64_s64 (show hw.secsToTicks t.tvSec < 2 ^ 64 from Nat.mod_lt _ (by decide))]
  congr 1
  unfold Hw.secsToTicks Hw.nanosecsToTicks
  rw [u64_of_range h2 (by omega), u64_of_range h0 (by omega)]
  -- both factors are of few bits, so that only the seconds can wrap
  have key : ∀ f g : Nat, g < 1000 → (t.tvSec.toNat * f % 2 ^ 64 + t.tvNsec.toNat * g % 2 ^ 64 / 8000) % 2 ^ 64 =
      u64 (t.tvSec * f + t.tvNsec * g / 8000) := by
    intro f g hg
    have hlt : t.tvNsec.toNat * g < 2 ^ 64 := by
      have := Nat.mul_le_mul (show t.tvNsec.toNat ≤ 1000000000 by omega) (Nat.le_of_lt hg)
      omega
    have hsec : t.tvSec = (t.tvSec.toNat : Int) := (Int.toNat_of_nonneg h2).symm
    have hnsec : t.tvNsec = (t.tvNsec.toNat : Int) := (Int.toNat_of_nonneg h0).symm
    rw [Nat.mod_eq_of_lt hlt, Nat.mod_add_mod, ← u64_natCast]
    congr 1
    rw [Int.natCast_add, Int.natCast_mul, Int.natCast_ediv, Int.natCast_mul, ← hsec, ← hnsec]
    rfl
  cases hw with
  | rvl =>
    rw [hr]
    exact key 60750000 486 (by decide)
  | dol =>
    rw [hd]
    exact key 40500000 324 (by decide)

theorem lwpWdCalcTicks_dol (t : Timespec) : lwpWdCalcTicks t = Hw.dol.lwpWdCalcTicks t := by
  unfold lwpWdCalcTicks Hw.lwpWdCalcTicks
  dsimp only
  rw [u64_s64 (show Hw.dol.secsToTicks t.tvSec < 2 ^ 64 from Nat.mod_lt _ (by decide))]
  rfl

theorem tickCount_nonneg (hw : Hw) (h : t.Timeout) : 0 ≤ tickCount hw t := by
  obtain ⟨h0, -⟩ := h.nsec
  have h2 := h.future
  obtain ⟨hr, hd⟩ := tickCount_eq t
  cases hw <;> omega

theorem tickCount_mono (hw : Hw) (h : t.Timeout) (h' : t'.Timeout) (hle : t.le t') : tickCount hw t ≤ tickCount hw t' := by
  obtain ⟨h0, h1⟩ := h.nsec
  obtain ⟨h0', h1'⟩ := h'.nsec
  obtain ⟨hr, hd⟩ := tickCount_eq t
  obtain ⟨hr', hd'⟩ := tickCount_eq t'
  rcases hle with hlt | ⟨he, hle⟩
  · cases hw <;> omega
  · cases hw <;> omega

theorem tickCount_near (hw : Hw) (t : Timespec) : tickCount hw t * tbNsPerSec ≤ tickSpan hw t ∧
    tickSpan hw t < (tickCount hw t + 1) * tbNsPerSec := by
  unfold tickCount tbNsPerSec
  omega

theorem Timespec.le_total (t t' : Timespec) : t.le t' ∨ t'.le t := by
  unfold Timespec.le
  omega

/-! ## The conversion -/

/-- A timeout of as many ticks as a signed word of 64 bits holds. -/
def timespecTop : Hw → Timespec
  | .rvl => ⟨151825054104, 605363079⟩
  | .dol => ⟨227737581156, 908044618⟩

theorem timespecTop_timeout (hw : Hw) : (timespecTop hw).Timeout := by
  cases hw <;> exact ⟨by decide, by decide, by decide⟩

theorem tickCount_top (hw : Hw) : tickCount hw (timespecTop hw) = 2 ^ 63 - 1 := by
  cases hw <;> decide

/-- **What the conversion owes its callers**, of one timeout: ticks that are not negative, within one of the exact number where that
fits in 63 bits, and at least those of every shorter timeout. -/
structure TicksSound (hw : Hw) (t : Timespec) : Prop where
  nonneg : 0 ≤ hw.lwpWdCalcTicks t
  near : tickSpan hw t < 2 ^ 63 * tbNsPerSec → (hw.lwpWdCalcTicks t - 1) * tbNsPerSec ≤ tickSpan hw t ∧
    tickSpan hw t ≤ (hw.lwpWdCalcTicks t + 1) * tbNsPerSec
  mono : ∀ t' : Timespec, t'.Timeout → t'.le t → hw.lwpWdCalcTicks t' ≤ hw.lwpWdCalcTicks t

theorem u64_lt (n : Int) : u64 n < 2 ^ 64 := by
  unfold u64
  omega

theorem lwpWdCalcTicks_le (h : t.Timeout) : hw.lwpWdCalcTicks t ≤ 2 ^ 63 - 1 := by
  have := (s64_range (u64_lt (tickCount hw t))).2
  rw [lwpWdCalcTicks_eq h]
  omega

theorem lwpWdCalcTicks_exact (h : t.Timeout) (hlt : tickCount hw t < 2 ^ 63) : hw.lwpWdCalcTicks t = tickCount hw t := by
  have h0 := tickCount_nonneg hw h
  rw [lwpWdCalcTicks_eq h, u64_of_range h0 (by omega)]
  unfold s64
  split <;> omega

/-- **The conversion of timeouts**: it is sound of those whose ticks a signed word of 64 bits holds, and of others only where what is
left of the ticks happens to be the largest such number. -/
theorem ticks_sound_iff (hw : Hw) {t : Timespec} (h : t.Timeout) :
    TicksSound hw t ↔ tickCount hw t < 2 ^ 63 ∨ tickCount hw t % 2 ^ 64 = 2 ^ 63 - 1 := by
  have h0 := tickCount_nonneg hw h
  have hnear := tickCount_near hw t
  have hns : tbNsPerSec = 1000000000 := rfl
  rw [hns] at hnear
  constructor
  · intro hs
    by_contra hn
    obtain ⟨hbig, hodd⟩ := not_or.1 hn
    have hcalc := hs.nonneg
    -- the timeout of `2 ^ 63 - 1` ticks is shorter, and converted as it is
    have htop := timespecTop_timeout hw
    have hcount := tickCount_top hw
    have hle : (timespecTop hw).le t := by
      refine (Timespec.le_total _ _).resolve_right fun hle => ?_
      have := tickCount_mono hw h htop hle
      omega
    have hmono := hs.mono _ htop hle
    rw [lwpWdCalcTicks_exact htop (by omega), hcount] at hmono
    rw [lwpWdCalcTicks_eq h] at hmono
    unfold s64 u64 at hmono
    split at hmono <;> omega
  · rintro (hlt | hmax)
    · have he := lwpWdCalcTicks_exact h hlt
      refine ⟨by omega, fun _ => by rw [he, hns]; omega, fun t' h' hle => ?_⟩
      have hm := tickCount_mono hw h' h hle
      rw [he, lwpWdCalcTicks_exact h' (by omega)]
      exact hm
    · have he : hw.lwpWdCalcTicks t = 2 ^ 63 - 1 := by
        rw [lwpWdCalcTicks_eq h]
        unfold s64 u64
        split <;> omega
      refine ⟨by omega, fun hfit => ?_, fun t' h' _ => by rw [he]; exact lwpWdCalcTicks_le h'⟩
      rw [hns] at hfit
      rw [he, hns]
      omega

/-- One second. -/
def timespecSecond : Timespec := ⟨1, 0⟩

/-- `2 ^ 62` seconds. -/
def timespecLong : Timespec := ⟨2 ^ 62, 0⟩

theorem ticks_sound_second : TicksSound .dol timespecSecond ↔ tickCount .dol timespecSecond < 2 ^ 63 ∨
    tickCount .dol timespecSecond % 2 ^ 64 = 2 ^ 63 - 1 :=
  ticks_sound_iff .dol ⟨by decide, by decide, by decide⟩

/-- A timeout of `2 ^ 62` seconds is none at all. -/
theorem ticks_wrap : timespecLong.Timeout ∧ Hw.dol.lwpWdCalcTicks timespecLong = 0 ∧ ¬ TicksSound .dol timespecLong := by
  refine ⟨⟨by decide, by decide, by decide⟩, by decide, fun hs => ?_⟩
  have := hs.mono timespecSecond ⟨by decide, by decide, by decide⟩ (.inl (by decide))
  exact absurd this (by decide)

end Libogc
