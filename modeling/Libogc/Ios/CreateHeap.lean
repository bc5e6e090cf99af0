import Libogc.Ios.Ipc
import Libogc.Lib.Rounding
import Libogc.Lwp.Heap
/-!
# CreateHeap — `iosCreateHeap` of `ipc.c`

The table of the IPC heaps, and the part of memory between `IPC_GetBufferLo` and `IPC_GetBufferHi` that new ones are cut from.  `ctrl i` is
where the control block of the heap `i` is.
-/
namespace Libogc

def ipcEnoheap : Int := -5
def ipcEnomem : Int := -22

def ipcNumheaps : Nat := 16
def ppcCacheAlignment : Nat := 32

structure IpcHeap where
  membase : Nat
  size : Nat
  deriving DecidableEq, Repr

structure IpcHeaps where
  heaps : Nat → IpcHeap
  bufferlo : Nat
  currbufferlo : Nat
  currbufferhi : Nat
  mem : Words
  /-- Whether interrupts are enabled. -/
  isr : Bool

def ipcSetBufferLo (s : IpcHeaps) (bufferlo : Nat) : IpcHeaps :=
  if s.bufferlo ≤ bufferlo then { s with currbufferlo := bufferlo } else s

/-- The first slot whose `membase` is null. -/
def ipcFreeSlot (s : IpcHeaps) : Option Nat := (List.range ipcNumheaps).find? fun i => (s.heaps i).membase = 0

/-- `((u32)IPC_GetBufferLo()+0x1f)&~0x1f`. -/
def IpcHeaps.ipclo (s : IpcHeaps) : Nat := roundDown (u32 (s.currbufferlo + 0x1f)) 32

/-- `ipchi - (ipclo + size)`, as a signed word. -/
def IpcHeaps.room (s : IpcHeaps) (size : Int) : Int := s32 (s.currbufferhi - (s.ipclo + size))

def iosCreateHeap (ctrl : Nat → Nat) (s : IpcHeaps) (size : Int) : IpcHeaps × Int :=
  let level := s.isr
  let s := { s with isr := false }
  match ipcFreeSlot s with
  | none => ({ s with isr := level }, ipcEnoheap)
  | some i =>
    let ipclo := s.ipclo
    if s.room size < 0 then (s, ipcEnomem)
    else
      let s := { s with heaps := Function.update s.heaps i ⟨ipclo, uint32 size⟩ }
      let got := lwpHeapInit s.mem (ctrl i) ipclo (uint32 size) ppcCacheAlignment
      let s := { s with mem := got.1 }
      if s32 got.2 ≤ 0 then (s, ipcEnomem)
      else ({ ipcSetBufferLo s (u32 (ipclo + uint32 size)) with isr := level }, i)

/-! ## What it owes -/

variable {ctrl : Nat → Nat} {s : IpcHeaps} {size : Int} {i : Nat}

def IpcHeap.apart (a b : IpcHeap) : Prop := a.membase + a.size ≤ b.membase ∨ b.membase + b.size ≤ a.membase

/-- **A heap is created or nothing happened**: the interrupt level is as before; a heap that is returned is between the bounds and apart
from all others; after an error the table and the bounds are as before. -/
structure IpcHeapCreated (ctrl : Nat → Nat) (s s' : IpcHeaps) (ret : Int) : Prop where
  level : s'.isr = s.isr
  heap : 0 ≤ ret → ∃ i : Nat, ret = i ∧ i < ipcNumheaps ∧ s.ipclo ≤ (s'.heaps i).membase ∧
    (s'.heaps i).membase + (s'.heaps i).size ≤ s.currbufferhi ∧
    ∀ j < ipcNumheaps, j ≠ i → (s'.heaps j).membase ≠ 0 → (s'.heaps j).apart (s'.heaps i)
  error : ret < 0 → s'.heaps = s.heaps ∧ s'.currbufferlo = s.currbufferlo ∧ s'.currbufferhi = s.currbufferhi ∧
    ∀ i < ipcNumheaps, ∀ a, ctrl i ≤ a → a < ctrl i + 24 → s'.mem a = s.mem a

/-- The sizes that `__lwp_heap_init` takes, with a result that is a positive signed word. -/
def ipcHeapSize (size : Int) : Prop := 24 ≤ uint32 size ∧ uint32 size < 2 ^ 31 + 16

/-- The new heap would be between the bounds, and apart from the others. -/
def IpcHeaps.fits (s : IpcHeaps) (size : Int) (i : Nat) : Prop :=
  s.ipclo + uint32 size ≤ s.currbufferhi ∧
    ∀ j < ipcNumheaps, j ≠ i → (s.heaps j).membase ≠ 0 → (s.heaps j).apart ⟨s.ipclo, uint32 size⟩

/-- The slot holds the heap already, and its control block what a new one holds. -/
def IpcHeaps.same (ctrl : Nat → Nat) (s : IpcHeaps) (size : Int) (i : Nat) : Prop :=
  s.heaps i = ⟨s.ipclo, uint32 size⟩ ∧ ∀ j < ipcNumheaps, ∀ a, ctrl j ≤ a → a < ctrl j + 24 →
    (lwpHeapInit s.mem (ctrl i) s.ipclo (uint32 size) ppcCacheAlignment).1 a = s.mem a

theorem ipcFreeSlot_some (h : ipcFreeSlot s = some i) : i < ipcNumheaps ∧ (s.heaps i).membase = 0 := by
  have hm := List.mem_of_find?_eq_some h
  have hp := List.find?_some h
  exact ⟨List.mem_range.1 hm, by simpa using hp⟩

theorem lwpHeapInit_size (m : Words) (h start : Nat) {n : Nat} :
    (lwpHeapInit m h start n ppcCacheAlignment).2 = if n < 24 then 0 else n - 16 := by
  unfold lwpHeapInit
  have hv : lwpHeapPgsizeValid ppcCacheAlignment = true := by decide
  rw [hv]
  by_cases hn : n < 24
  · rw [if_pos (.inr hn), if_pos hn]
  · have hmin : ¬ (true = false ∨ n < heapMinSize) := by
      rintro (hc | hc)
      · cases hc
      · exact hn hc
    rw [if_neg hmin, if_neg hn]
    show n - 8 - 8 = n - 16
    omega

theorem lwpHeapInit_positive (m : Words) (h start : Nat) (size : Int) :
    0 < s32 (lwpHeapInit m h start (uint32 size) ppcCacheAlignment).2 ↔ ipcHeapSize size := by
  have hlt : uint32 size < 2 ^ 32 := by
    unfold uint32
    omega
  rw [lwpHeapInit_size]
  unfold ipcHeapSize
  generalize uint32 size = n at hlt
  unfold s32
  rw [Int.bmod_def]
  split <;> split <;> omega

/-! ## Its four ends -/

theorem ipcEnoheap_neg : ipcEnoheap < 0 := by decide

theorem ipcEnomem_neg : ipcEnomem < 0 := by decide

/-- The slot as it is written, and the control block made. -/
def IpcHeaps.written (ctrl : Nat → Nat) (s : IpcHeaps) (size : Int) (i : Nat) : IpcHeaps :=
  { s with heaps := Function.update s.heaps i ⟨s.ipclo, uint32 size⟩
           mem := (lwpHeapInit s.mem (ctrl i) s.ipclo (uint32 size) ppcCacheAlignment).1
           isr := false }

theorem iosCreateHeap_none (hf : ipcFreeSlot s = none) : iosCreateHeap ctrl s size = (s, ipcEnoheap) := by
  unfold iosCreateHeap
  dsimp only
  rw [show ipcFreeSlot { s with isr := false } = none from hf]

theorem iosCreateHeap_room (hf : ipcFreeSlot s = some i) (hr : s.room size < 0) :
    iosCreateHeap ctrl s size = ({ s with isr := false }, ipcEnomem) := by
  unfold iosCreateHeap
  dsimp only
  rw [show ipcFreeSlot { s with isr := false } = some i from hf]
  exact if_pos hr

theorem iosCreateHeap_size (hf : ipcFreeSlot s = some i) (hr : 0 ≤ s.room size) (hz : ¬ ipcHeapSize size) :
    iosCreateHeap ctrl s size = (s.written ctrl size i, ipcEnomem) := by
  have hpos := (lwpHeapInit_positive s.mem (ctrl i) s.ipclo size).not.2 hz
  unfold iosCreateHeap
  dsimp only
  rw [show ipcFreeSlot { s with isr := false } = some i from hf]
  exact (if_neg (Int.not_lt.2 hr)).trans (if_pos (Int.not_lt.1 hpos))

theorem iosCreateHeap_done (hf : ipcFreeSlot s = some i) (hr : 0 ≤ s.room size) (hz : ipcHeapSize size) :
    iosCreateHeap ctrl s size =
      ({ ipcSetBufferLo (s.written ctrl size i) (u32 (s.ipclo + uint32 size)) with isr := s.isr }, (i : Int)) := by
  have hpos := (lwpHeapInit_positive s.mem (ctrl i) s.ipclo size).2 hz
  unfold iosCreateHeap
  dsimp only
  rw [show ipcFreeSlot { s with isr := false } = some i from hf]
  exact (if_neg (Int.not_lt.2 hr)).trans (if_neg (Int.not_le.2 hpos))

theorem ipcSetBufferLo_heaps (s : IpcHeaps) (lo : Nat) : (ipcSetBufferLo s lo).heaps = s.heaps := by
  unfold ipcSetBufferLo
  split <;> rfl

theorem created_done_iff (hi : i < ipcNumheaps) (hf : ipcFreeSlot s = some i) (hr : 0 ≤ s.room size) (hz : ipcHeapSize size) :
    IpcHeapCreated ctrl s (iosCreateHeap ctrl s size).1 (iosCreateHeap ctrl s size).2 ↔ s.fits size i := by
  rw [iosCreateHeap_done hf hr hz]
  have hheaps : ∀ lo, ({ ipcSetBufferLo (s.written ctrl size i) lo with isr := s.isr } : IpcHeaps).heaps =
      Function.update s.heaps i ⟨s.ipclo, uint32 size⟩ := fun lo => ipcSetBufferLo_heaps _ lo
  constructor
  · intro h
    obtain ⟨k, hk, -, -, htop, hap⟩ := h.heap (Int.natCast_nonneg i)
    obtain rfl : i = k := Int.ofNat.inj hk
    rw [hheaps, Function.update_self] at htop
    refine ⟨htop, fun j hj hne hb => ?_⟩
    have := hap j hj hne
    rw [hheaps, Function.update_self, Function.update_of_ne hne] at this
    exact this hb
  · rintro ⟨htop, hap⟩
    refine ⟨rfl, fun _ => ⟨i, rfl, hi, ?_, ?_, fun j hj hne hb => ?_⟩, fun h => absurd h (Int.not_lt.2 (Int.natCast_nonneg i))⟩
    · rw [hheaps, Function.update_self]
    · rw [hheaps, Function.update_self]
      exact htop
    · rw [hheaps, Function.update_of_ne hne] at hb
      rw [hheaps, Function.update_self, Function.update_of_ne hne]
      exact hap j hj hne hb

theorem created_size_iff (hf : ipcFreeSlot s = some i) (hr : 0 ≤ s.room size) (hz : ¬ ipcHeapSize size) :
    IpcHeapCreated ctrl s (iosCreateHeap ctrl s size).1 (iosCreateHeap ctrl s size).2 ↔ s.isr = false ∧ s.same ctrl size i := by
  rw [iosCreateHeap_size hf hr hz]
  constructor
  · intro h
    obtain ⟨he, -, -, hm⟩ := h.error ipcEnomem_neg
    refine ⟨h.level.symm, ?_, hm⟩
    have hi := congrFun he i
    rw [← hi]
    exact Function.update_self ..
  · rintro ⟨hisr, he, hm⟩
    refine ⟨hisr.symm, fun h => absurd h (Int.not_le.2 ipcEnomem_neg), fun _ => ⟨?_, rfl, rfl, hm⟩⟩
    show Function.update s.heaps i _ = s.heaps
    rw [← he, Function.update_eq_self]

/-- **`iosCreateHeap`** does what it should when no slot is free and when the heap it makes fits.  A size that is refused leaves
interrupts off, so that nothing shows only where they were off before; and after the slot was written, where it held the same. -/
theorem ios_create_heap (ctrl : Nat → Nat) (s : IpcHeaps) (size : Int) :
    IpcHeapCreated ctrl s (iosCreateHeap ctrl s size).1 (iosCreateHeap ctrl s size).2 ↔
      ∀ i, ipcFreeSlot s = some i →
        (0 ≤ s.room size ∧ ipcHeapSize size ∧ s.fits size i) ∨ (s.room size < 0 ∧ s.isr = false) ∨
          (0 ≤ s.room size ∧ ¬ ipcHeapSize size ∧ s.isr = false ∧ s.same ctrl size i) := by
  cases hf : ipcFreeSlot s with
  | none =>
    rw [iosCreateHeap_none hf]
    exact iff_of_true ⟨rfl, fun h => absurd h (Int.not_le.2 ipcEnoheap_neg), fun _ => ⟨rfl, rfl, rfl, fun _ _ _ _ _ => rfl⟩⟩ fun i hi => by cases hi
  | some i =>
    simp only [Option.some.injEq, forall_eq']
    rcases Int.lt_or_le (s.room size) 0 with hr | hr
    · rw [iosCreateHeap_room hf hr]
      constructor
      · exact fun h => .inr (.inl ⟨hr, h.level.symm⟩)
      · rintro (⟨hr', -⟩ | ⟨-, hisr⟩ | ⟨hr', -⟩)
        · omega
        · exact ⟨hisr.symm, fun h => absurd h (Int.not_le.2 ipcEnomem_neg), fun _ => ⟨rfl, rfl, rfl, fun _ _ _ _ _ => rfl⟩⟩
        · omega
    · have hr' : ¬ s.room size < 0 := Int.not_lt.2 hr
      by_cases hz : ipcHeapSize size
      · rw [created_done_iff (ipcFreeSlot_some hf).1 hf hr hz]
        simp only [hr, hr', hz, true_and, false_and, not_true_eq_false, and_false, or_false]
      · rw [created_size_iff hf hr hz]
        simp only [hr, hr', hz, true_and, false_and, not_false_eq_true, and_false, false_or]

/-- An empty table, and 64 bytes to cut heaps from. -/
def ipcEmpty : IpcHeaps := ⟨fun _ => ⟨0, 0⟩, 0x1000, 0x1000, 0x1040, fun _ => 0, true⟩

/-- A heap of more bytes than there are is refused with interrupts off. -/
theorem ios_create_heap_refused :
    ¬ IpcHeapCreated (fun i => 32 * i) ipcEmpty (iosCreateHeap (fun i => 32 * i) ipcEmpty 65).1
      (iosCreateHeap (fun i => 32 * i) ipcEmpty 65).2 := by
  intro h
  exact absurd h.level (by decide +kernel)

end Libogc
