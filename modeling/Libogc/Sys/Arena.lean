import Mathlib.Order.CompletePartialOrder
import Mathlib.Order.Interval.Set.Disjoint
import Libogc.Lib.Rounding
import Libogc.Lib.Runs
/-!
# Arena — the allocator of the memory arenas

`SYS_AllocArenaMem1Lo` and `SYS_AllocArenaMem1Hi` of `system.c`, and the same two for the second memory.  An arena gives blocks
away at both ends.  The addresses are words of 32 bits, and no rounding and no sum is checked for a wrap.
-/
namespace Libogc

open Runs

/-- What is left of an arena, from `lo` up to `hi`. -/
structure Arena where
  lo : BitVec 32
  hi : BitVec 32
  deriving DecidableEq, Repr

/-- `__sysarena1lo` and `__sysarena1hi`, and the same for the second memory. -/
structure SysArenas where
  arena1 : Arena
  arena2 : Arena
  deriving DecidableEq, Repr

/-- An allocation at the low end; it returns the block's address, or 0. -/
def allocArenaLo (a : Arena) (size align : BitVec 32) : Arena × BitVec 32 :=
  let ptr := (a.lo + (align - 1)) &&& ~~~(align - 1)
  let arenalo := (ptr + size + (align - 1)) &&& ~~~(align - 1)
  if a.hi < arenalo then (a, 0) else ({ a with lo := arenalo }, ptr)

/-- An allocation at the high end. -/
def allocArenaHi (a : Arena) (size align : BitVec 32) : Arena × BitVec 32 :=
  let arenahi := a.hi &&& ~~~(align - 1)
  let ptr := (arenahi - size) &&& ~~~(align - 1)
  if a.lo > ptr then (a, 0) else ({ a with hi := ptr }, ptr)

def sysAllocArenaMem1Lo (s : SysArenas) (size align : BitVec 32) : SysArenas × BitVec 32 :=
  ({ s with arena1 := (allocArenaLo s.arena1 size align).1 }, (allocArenaLo s.arena1 size align).2)

def sysAllocArenaMem1Hi (s : SysArenas) (size align : BitVec 32) : SysArenas × BitVec 32 :=
  ({ s with arena1 := (allocArenaHi s.arena1 size align).1 }, (allocArenaHi s.arena1 size align).2)

def sysAllocArenaMem2Lo (s : SysArenas) (size align : BitVec 32) : SysArenas × BitVec 32 :=
  ({ s with arena2 := (allocArenaLo s.arena2 size align).1 }, (allocArenaLo s.arena2 size align).2)

def sysAllocArenaMem2Hi (s : SysArenas) (size align : BitVec 32) : SysArenas × BitVec 32 :=
  ({ s with arena2 := (allocArenaHi s.arena2 size align).1 }, (allocArenaHi s.arena2 size align).2)

/-! ## The system -/

inductive ArenaId where
  | mem1
  | mem2
  deriving DecidableEq, Repr

inductive ArenaEnd where
  | lo
  | hi
  deriving DecidableEq, Repr

def SysArenas.get (s : SysArenas) : ArenaId → Arena
  | .mem1 => s.arena1
  | .mem2 => s.arena2

structure ArenaCall where
  mem : ArenaId
  side : ArenaEnd
  size : BitVec 32
  align : BitVec 32
  deriving DecidableEq, Repr

def SysArenas.alloc (s : SysArenas) (c : ArenaCall) : SysArenas × BitVec 32 :=
  match c.mem, c.side with
  | .mem1, .lo => sysAllocArenaMem1Lo s c.size c.align
  | .mem1, .hi => sysAllocArenaMem1Hi s c.size c.align
  | .mem2, .lo => sysAllocArenaMem2Lo s c.size c.align
  | .mem2, .hi => sysAllocArenaMem2Hi s c.size c.align

/-- A block that was returned, and what it was asked to be aligned to. -/
structure ArenaBlock where
  start : Nat
  size : Nat
  align : Nat
  deriving DecidableEq, Repr

def ArenaBlock.bytes (b : ArenaBlock) : Set Nat := Set.Ico b.start (b.start + b.size)

/-- The addresses that are left. -/
def Arena.bytes (a : Arena) : Set Nat := Set.Ico a.lo.toNat a.hi.toNat

/-- The arenas, and the blocks they returned so far. -/
structure ArenaState where
  arenas : SysArenas
  blocks : ArenaId → List ArenaBlock

def arenaNext (s : ArenaState) (c : ArenaCall) : ArenaState :=
  let (arenas, ptr) := s.arenas.alloc c
  { arenas := arenas
    blocks :=
      if ptr = 0 then s.blocks
      else Function.update s.blocks c.mem (⟨ptr.toNat, c.size.toNat, c.align.toNat⟩ :: s.blocks c.mem) }

/-- **The arenas and everybody who allocates.**  Alignments are powers of two. -/
def arenaSystem : System ArenaState ArenaCall where
  enabled _ c := ∃ n : Fin 32, c.align = BitVec.twoPow 32 n
  next := arenaNext

instance (s : ArenaState) (c : ArenaCall) : Decidable (arenaSystem.enabled s c) :=
  inferInstanceAs (Decidable (∃ n : Fin 32, c.align = BitVec.twoPow 32 n))

def arenaStart (arenas : SysArenas) : ArenaState := ⟨arenas, fun _ => []⟩

/-! ## One call -/

/-- **The call computes no wrapped address that it takes for a good one**: the new end of the arena is a number below 2^32, or the
wrapped one is refused; and no block is at address 0, which the caller would take for a refusal. -/
def Arena.fits (a : Arena) (size align : Nat) : ArenaEnd → Prop
  | .lo =>
    let e := roundUp (roundUp a.lo.toNat align + size) align
    (e < 2 ^ 32 ∧ (a.lo = 0 → size = 0)) ∨ a.hi.toNat < e % 2 ^ 32
  | .hi =>
    let h := roundDown a.hi.toNat align
    (size ≤ h ∧ (a.lo = 0 → a.hi = 0 ∨ align ≤ h - size)) ∨
      (h < size ∧ roundDown (2 ^ 32 + h - size) align < a.lo.toNat)

instance (a : Arena) (size align : Nat) : ∀ e, Decidable (a.fits size align e)
  | .lo => inferInstanceAs (Decidable ((_ ∧ (_ → _)) ∨ _))
  | .hi => inferInstanceAs (Decidable ((_ ∧ (_ → _)) ∨ _ ∧ _))

/-- **The ways such a call goes.** -/
inductive Allocated (a : Arena) (size align : Nat) : Arena × BitVec 32 → Prop
  | refused : Allocated a size align (a, 0)
  | low (ptr lo : BitVec 32) (ne : ptr ≠ 0) (dvd : align ∣ ptr.toNat) (le : a.lo.toNat ≤ ptr.toNat)
    (room : ptr.toNat + size ≤ lo.toNat) (hi : lo.toNat ≤ a.hi.toNat) : Allocated a size align ({ a with lo := lo }, ptr)
  | high (ptr : BitVec 32) (ne : ptr ≠ 0) (dvd : align ∣ ptr.toNat) (le : a.lo.toNat ≤ ptr.toNat)
    (room : ptr.toNat + size ≤ a.hi.toNat) : Allocated a size align ({ a with hi := ptr }, ptr)

section Calls
variable {n : Nat}

theorem two_pow_dvd_word (hn : n < 32) : 2 ^ n ∣ 2 ^ 32 := Nat.pow_dvd_pow 2 (by omega)

theorem word_roundUp (hn : n < 32) (x : BitVec 32) {m : Nat} (hx : x.toNat = m % 2 ^ 32) :
    ((x + (BitVec.twoPow 32 n - 1)) &&& ~~~(BitVec.twoPow 32 n - 1)).toNat = roundUp m (2 ^ n) % 2 ^ 32 := by
  rw [and_not_mask_toNat _ hn, BitVec.toNat_add, twoPow_sub_one_toNat hn, hx, Nat.mod_add_mod,
    roundDown_mod (two_pow_dvd_word hn)]
  rfl

variable {size : BitVec 32}

theorem allocArenaLo_spec (hn : n < 32) {a : Arena} (hf : a.fits size.toNat (2 ^ n) .lo) :
    Allocated a size.toNat (2 ^ n) (allocArenaLo a size (BitVec.twoPow 32 n)) := by
  have h2 : 0 < 2 ^ n := Nat.two_pow_pos n
  set p := roundUp a.lo.toNat (2 ^ n) with hp
  set e := roundUp (p + size.toNat) (2 ^ n) with he
  set ptr := (a.lo + (BitVec.twoPow 32 n - 1)) &&& ~~~(BitVec.twoPow 32 n - 1) with hptr
  set arenalo := (ptr + size + (BitVec.twoPow 32 n - 1)) &&& ~~~(BitVec.twoPow 32 n - 1) with hlo
  have hptr' : ptr.toNat = p % 2 ^ 32 := word_roundUp hn a.lo (Nat.mod_eq_of_lt a.lo.isLt).symm
  have hlo' : arenalo.toNat = e % 2 ^ 32 :=
    word_roundUp hn (ptr + size) (by rw [BitVec.toNat_add, hptr', Nat.mod_add_mod])
  have halloc : allocArenaLo a size (BitVec.twoPow 32 n) =
      if a.hi < arenalo then (a, 0) else ({ a with lo := arenalo }, ptr) := rfl
  have hgood : (e < 2 ^ 32 ∧ (a.lo = 0 → size.toNat = 0)) ∨ a.hi.toNat < e % 2 ^ 32 := hf
  rw [halloc]
  split
  · exact .refused
  · rename_i hle
    rw [BitVec.lt_def, hlo', not_lt] at hle
    rcases hgood with ⟨hlt, hzero⟩ | hlt
    · have hpe : p + size.toNat ≤ e := le_roundUp h2
      have hlop : a.lo.toNat ≤ p := le_roundUp h2
      rw [Nat.mod_eq_of_lt hlt] at hlo' hle
      rw [Nat.mod_eq_of_lt (by omega)] at hptr'
      by_cases h0 : a.lo = 0
      · -- an empty block at address 0: nothing changes
        have hp0 : p = 0 := by rw [hp, h0]; exact roundUp_zero
        have he0 : e = 0 := by rw [he, hp0, hzero h0]; exact roundUp_zero
        have h1 : ptr = 0 := BitVec.eq_of_toNat_eq (by rw [hptr', hp0]; rfl)
        have h1' : arenalo = a.lo := BitVec.eq_of_toNat_eq (by rw [hlo', he0, h0]; rfl)
        rw [h1, h1']
        exact .refused
      · have hpos : a.lo.toNat ≠ 0 := fun hz => h0 (BitVec.eq_of_toNat_eq hz)
        refine .low ptr arenalo (fun hz => ?_) ?_ ?_ ?_ ?_
        · rw [hz] at hptr'
          have : p = 0 := hptr'.symm
          omega
        · rw [hptr']; exact dvd_roundUp
        · rw [hptr']; exact hlop
        · rw [hptr', hlo']; exact hpe
        · rw [hlo']; exact hle
    · omega

theorem allocArenaHi_spec (hn : n < 32) {a : Arena} (hf : a.fits size.toNat (2 ^ n) .hi) :
    Allocated a size.toNat (2 ^ n) (allocArenaHi a size (BitVec.twoPow 32 n)) := by
  set h := roundDown a.hi.toNat (2 ^ n) with hh
  set arenahi := a.hi &&& ~~~(BitVec.twoPow 32 n - 1) with harena
  set ptr := (arenahi - size) &&& ~~~(BitVec.twoPow 32 n - 1) with hptr
  have harena' : arenahi.toNat = h := and_not_mask_toNat a.hi hn
  have hle : h ≤ a.hi.toNat := roundDown_le
  have halloc : allocArenaHi a size (BitVec.twoPow 32 n) = if a.lo > ptr then (a, 0) else ({ a with hi := ptr }, ptr) := rfl
  have hptr' : ptr.toNat = roundDown (arenahi - size).toNat (2 ^ n) := and_not_mask_toNat _ hn
  have hgood : (size.toNat ≤ h ∧ (a.lo = 0 → a.hi = 0 ∨ 2 ^ n ≤ h - size.toNat)) ∨
      (h < size.toNat ∧ roundDown (2 ^ 32 + h - size.toNat) (2 ^ n) < a.lo.toNat) := hf
  rw [halloc]
  split
  · exact .refused
  · rename_i hlo
    rw [gt_iff_lt, BitVec.lt_def, not_lt] at hlo
    rcases hgood with ⟨hsize, hzero⟩ | ⟨hsize, hlt⟩
    · have hsub : (arenahi - size).toNat = h - size.toNat := by
        rw [BitVec.toNat_sub_of_le (by rw [BitVec.le_def, harena']; exact hsize), harena']
      rw [hsub] at hptr'
      have hdown : roundDown (h - size.toNat) (2 ^ n) ≤ h - size.toNat := roundDown_le
      by_cases h0 : ptr = 0
      · -- the arena is empty and at address 0: nothing changes
        have hlo0 : a.lo = 0 := by
          rw [h0] at hlo
          exact BitVec.eq_of_toNat_eq (Nat.le_zero.1 hlo)
        rcases hzero hlo0 with hhi | hroom
        · have hsame : ({ a with hi := 0 } : Arena) = a := by rw [← hhi]
          rw [h0, hsame]
          exact .refused
        · have := le_roundDown (n := h - size.toNat) (Nat.dvd_refl (2 ^ n)) hroom
          rw [← hptr', h0] at this
          exact absurd (Nat.two_pow_pos n) (Nat.not_lt.2 this)
      · refine .high ptr h0 ?_ hlo ?_
        · rw [hptr']; exact dvd_roundDown
        · omega
    · have hsub : (arenahi - size).toNat = 2 ^ 32 + h - size.toNat := by
        have := size.isLt
        rw [BitVec.toNat_sub, harena']
        omega
      rw [hsub] at hptr'
      omega

end Calls

/-! ## Every run -/

/-- The allocation at one end of an arena. -/
def Arena.alloc (a : Arena) (size align : BitVec 32) : ArenaEnd → Arena × BitVec 32
  | .lo => allocArenaLo a size align
  | .hi => allocArenaHi a size align

theorem Arena.alloc_spec {n : Nat} (hn : n < 32) {a : Arena} {size : BitVec 32} {side : ArenaEnd}
    (hf : a.fits size.toNat (2 ^ n) side) : Allocated a size.toNat (2 ^ n) (a.alloc size (BitVec.twoPow 32 n) side) := by
  cases side with
  | lo => exact allocArenaLo_spec hn hf
  | hi => exact allocArenaHi_spec hn hf

theorem SysArenas.alloc_eq (s : SysArenas) (c : ArenaCall) :
    (s.alloc c).2 = ((s.get c.mem).alloc c.size c.align c.side).2 ∧
      (s.alloc c).1.get c.mem = ((s.get c.mem).alloc c.size c.align c.side).1 ∧
      ∀ m, m ≠ c.mem → (s.alloc c).1.get m = s.get m := by
  obtain ⟨mem, side, size, align⟩ := c
  cases mem <;> cases side <;> refine ⟨rfl, rfl, fun m hm => ?_⟩ <;> cases m <;> first | rfl | exact absurd rfl hm

theorem SysArenas.ext_get {s s' : SysArenas} (h : ∀ m, s.get m = s'.get m) : s = s' := by
  have h1 : s.arena1 = s'.arena1 := h .mem1
  have h2 : s.arena2 = s'.arena2 := h .mem2
  cases s
  cases s'
  cases h1
  cases h2
  rfl

/-- **What every run keeps** of an arena that began as `start`. -/
structure ArenaInv (start a : Arena) (blocks : List ArenaBlock) : Prop where
  lo : start.lo.toNat ≤ a.lo.toNat
  ends : a.lo.toNat ≤ a.hi.toNat
  hi : a.hi.toNat ≤ start.hi.toNat
  inside : ∀ b ∈ blocks, b.align ∣ b.start ∧ start.lo.toNat ≤ b.start ∧ b.start + b.size ≤ start.hi.toNat
  given : ∀ b ∈ blocks, b.start + b.size ≤ a.lo.toNat ∨ a.hi.toNat ≤ b.start
  apart : blocks.Pairwise fun b c => Disjoint b.bytes c.bytes

section Inv
variable {start a a' : Arena} {blocks : List ArenaBlock}

variable {b : ArenaBlock}

theorem ArenaInv.disjoint (h : ArenaInv start a blocks) (hb : b ∈ blocks) : Disjoint b.bytes a.bytes := by
  refine Set.disjoint_left.2 fun x hx hx' => ?_
  have h1 := h.given b hb
  have h2 : b.start ≤ x ∧ x < b.start + b.size := hx
  have h3 : a.lo.toNat ≤ x ∧ x < a.hi.toNat := hx'
  omega

theorem ArenaInv.cut (h : ArenaInv start a blocks) (hlo : a.lo.toNat ≤ a'.lo.toNat) (hends : a'.lo.toNat ≤ a'.hi.toNat)
    (hhi : a'.hi.toNat ≤ a.hi.toNat) (hdvd : b.align ∣ b.start) (hge : a.lo.toNat ≤ b.start) (hle : b.start + b.size ≤ a.hi.toNat)
    (hout : b.start + b.size ≤ a'.lo.toNat ∨ a'.hi.toNat ≤ b.start) : ArenaInv start a' (b :: blocks) := by
  have hlo₀ := h.lo
  have hhi₀ := h.hi
  refine ⟨by omega, hends, by omega, fun c hc => ?_, fun c hc => ?_, List.pairwise_cons.2 ⟨fun c hc => ?_, h.apart⟩⟩
  · rcases List.mem_cons.1 hc with rfl | hc
    · exact ⟨hdvd, by omega, by omega⟩
    · exact h.inside c hc
  · rcases List.mem_cons.1 hc with rfl | hc
    · exact hout
    · have := h.given c hc
      omega
  · refine Set.disjoint_of_subset_left (fun x hx => ?_) (h.disjoint hc).symm
    have hx' : b.start ≤ x ∧ x < b.start + b.size := hx
    exact ⟨by omega, by omega⟩

theorem ArenaInv.allocated (h : ArenaInv start a blocks) {size align : Nat} {r : Arena × BitVec 32} (hr : Allocated a size align r) :
    ArenaInv start r.1 (if r.2 = 0 then blocks else ⟨r.2.toNat, size, align⟩ :: blocks) := by
  have hends := h.ends
  cases hr with
  | refused =>
    rw [if_pos rfl]
    exact h
  | low ptr lo ne dvd le room hi =>
    rw [if_neg ne]
    exact h.cut (by simp only; omega) hi (le_refl _) dvd le (by simp only; omega) (.inl room)
  | high ptr ne dvd le room =>
    rw [if_neg ne]
    exact h.cut (le_refl _) le (by simp only; omega) dvd le room (.inr (le_refl _))

end Inv

/-- The call finds an arena of which it computes no wrapped address. -/
def arenaFits (s : ArenaState) (c : ArenaCall) : Prop := (s.arenas.get c.mem).fits c.size.toNat c.align.toNat c.side

instance (s : ArenaState) (c : ArenaCall) : Decidable (arenaFits s c) := inferInstanceAs (Decidable (Arena.fits ..))

variable {s : ArenaState} {c : ArenaCall}

theorem arenaNext_allocated (hg : arenaSystem.enabled s c) (hf : arenaFits s c) :
    Allocated (s.arenas.get c.mem) c.size.toNat c.align.toNat ((s.arenas.get c.mem).alloc c.size c.align c.side) := by
  obtain ⟨n, hn⟩ := hg
  have hpow : c.align.toNat = 2 ^ n.val := by rw [hn]; exact BitVec.toNat_twoPow_of_lt n.isLt
  unfold arenaFits at hf
  rw [hpow] at hf ⊢
  rw [hn]
  exact Arena.alloc_spec n.isLt hf

theorem arenaNext_inv {start : SysArenas} (h : ∀ m, ArenaInv (start.get m) (s.arenas.get m) (s.blocks m))
    (hg : arenaSystem.enabled s c) (hf : arenaFits s c) (m : ArenaId) :
    ArenaInv (start.get m) ((arenaNext s c).arenas.get m) ((arenaNext s c).blocks m) := by
  obtain ⟨hptr, hself, hother⟩ := s.arenas.alloc_eq c
  have hall := (h c.mem).allocated (arenaNext_allocated hg hf)
  have harenas : (arenaNext s c).arenas = (s.arenas.alloc c).1 := rfl
  have hblocks : (arenaNext s c).blocks = if ((s.arenas.get c.mem).alloc c.size c.align c.side).2 = 0 then s.blocks
      else Function.update s.blocks c.mem
        (⟨((s.arenas.get c.mem).alloc c.size c.align c.side).2.toNat, c.size.toNat, c.align.toNat⟩ :: s.blocks c.mem) := by
    rw [← hptr]
    rfl
  rw [harenas, hblocks]
  by_cases hm : m = c.mem
  · subst hm
    rw [hself]
    split <;> rename_i h0
    · rw [if_pos h0] at hall
      exact hall
    · rw [if_neg h0] at hall
      rw [Function.update_self]
      exact hall
  · rw [hother m hm]
    split
    · exact h m
    · rw [Function.update_of_ne hm]
      exact h m

/-- **The arenas give disjoint blocks of themselves away.**  In every run of allocations at both ends of both arenas of which no
call takes a wrapped address for a good one: every block that was returned is aligned as it was asked for and lies inside the
arena as it was at the start, the blocks are pairwise disjoint and disjoint from what is left, the ends of what is left are in
order, and a call that returns NULL leaves the arenas as they were. -/
theorem arena_allocation (start : SysArenas) (hstart : ∀ m, (start.get m).lo ≤ (start.get m).hi) (cs : List ArenaCall)
    (s : ArenaState) (hcs : (arenaSystem.restrict arenaFits).Legal (arenaStart start) cs)
    (hs : s = arenaSystem.run (arenaStart start) cs) (m : ArenaId) :
    (∀ b ∈ s.blocks m, b.align ∣ b.start ∧ (start.get m).lo.toNat ≤ b.start ∧ b.start + b.size ≤ (start.get m).hi.toNat) ∧
    ((s.blocks m).Pairwise fun b c => Disjoint b.bytes c.bytes) ∧
    (∀ b ∈ s.blocks m, Disjoint b.bytes (s.arenas.get m).bytes) ∧
    (s.arenas.get m).lo ≤ (s.arenas.get m).hi ∧
    ∀ c, arenaSystem.enabled s c → arenaFits s c → (s.arenas.alloc c).2 = 0 → (s.arenas.alloc c).1 = s.arenas := by
  have hrun : s = (arenaSystem.restrict arenaFits).run (arenaStart start) cs := hs
  have h : ∀ m, ArenaInv (start.get m) (s.arenas.get m) (s.blocks m) := by
    rw [hrun]
    refine System.Legal.invariant (I := fun s => ∀ m, ArenaInv (start.get m) (s.arenas.get m) (s.blocks m))
      (fun s c h hg m => ?_) (fun m => ?_) hcs
    · exact arenaNext_inv h hg.1 hg.2 m
    · exact ⟨le_refl _, hstart m, le_refl _, fun b hb => (by cases hb), fun b hb => (by cases hb), List.Pairwise.nil⟩
  refine ⟨(h m).inside, (h m).apart, fun b hb => (h m).disjoint hb, (h m).ends, fun c hg hf h0 => ?_⟩
  obtain ⟨hptr, hself, hother⟩ := s.arenas.alloc_eq c
  have hall := arenaNext_allocated hg hf
  rw [hptr] at h0
  refine SysArenas.ext_get fun m' => ?_
  by_cases hm : m' = c.mem
  · subst hm
    rw [hself]
    cases hr : (s.arenas.get c.mem).alloc c.size c.align c.side with
    | mk a ptr =>
      rw [hr] at hall h0
      cases hall with
      | refused => rfl
      | low _ _ ne => exact absurd h0 ne
      | high _ ne => exact absurd h0 ne
  · exact hother m' hm

/-- An arena of the first memory, and one of the second. -/
def arenaSample : SysArenas := ⟨⟨0x80003001, 0x81700000⟩, ⟨0x90002000, 0x93400000⟩⟩

def arenaSampleCalls : List ArenaCall :=
  [⟨.mem1, .lo, 100, 32⟩, ⟨.mem1, .hi, 0x1000, 0x4000⟩, ⟨.mem2, .hi, 7, 8⟩, ⟨.mem1, .lo, 0x2000000, 32⟩, ⟨.mem1, .lo, 0, 1⟩]

theorem arena_allocation_sample :
    (arenaSystem.restrict arenaFits).Legal (arenaStart arenaSample) arenaSampleCalls ∧
      ((arenaSystem.run (arenaStart arenaSample) arenaSampleCalls).blocks .mem1).length = 3 ∧
      ((arenaSystem.run (arenaStart arenaSample) arenaSampleCalls).blocks .mem1).Pairwise
        fun b c => Disjoint b.bytes c.bytes := by
  have hl : (arenaSystem.restrict arenaFits).Legal (arenaStart arenaSample) arenaSampleCalls := by decide +kernel
  obtain ⟨-, hp, -⟩ := arena_allocation arenaSample (fun m => by cases m <;> decide) arenaSampleCalls _ hl rfl .mem1
  exact ⟨hl, by decide +kernel, hp⟩

/-- **A size larger than what is left may be granted**: the end of the block wraps to an address below the arena, and the block
that is returned reaches beyond the arena. -/
theorem arena_allocation_wraps : ∃ b ∈ (arenaSystem.run (arenaStart arenaSample) [⟨.mem1, .lo, 0xf0000000, 32⟩]).blocks .mem1,
    arenaSystem.Legal (arenaStart arenaSample) [⟨.mem1, .lo, 0xf0000000, 32⟩] ∧
      arenaSample.arena1.hi.toNat < b.start + b.size ∧
      (arenaSystem.run (arenaStart arenaSample) [⟨.mem1, .lo, 0xf0000000, 32⟩]).arenas.arena1.lo = 0x70003020 := by
  refine ⟨⟨0x80003020, 0xf0000000, 32⟩, ?_⟩
  decide +kernel

end Libogc
