import Libogc.Lib.Runs
import Libogc.Lib.Words
import Mathlib.Data.List.Perm.Basic
import Mathlib.Logic.Function.Basic
/-!
# Heap — `lwp_heap.c` and `lwp_heap.inl`

The heap that the kernel's workspace and the IPC heaps use.  Memory is words at addresses that are multiples of four.  A block
begins with two tags, the size of the block before it and its own, with the lowest bit set for a block in use; a free block
goes on with the links of the free list.  `heap_cntrl` is read as the two ends of that list: its head is the block at its
address `h`, its tail the one at `h + 4`.

The system is a heap with the programs that use it: they allocate, free what they have, and write in between.
-/
namespace Libogc

open Runs

/-- The words of memory. -/
abbrev Words := Nat → Nat

def Words.set (m : Words) (a v : Nat) : Words := Function.update m a v

/-- `system.h`: where the cached addresses start, and where the uncached ones do. -/
def sysBaseCached : Nat := 0x80000000
def sysBaseUncached : Nat := 0xC0000000

def heapBlockUsed : Nat := 1
def heapDummyFlag : Nat := 0 + heapBlockUsed
def heapOverhead : Nat := 4 * 2
def heapBlockUsedOverhead : Nat := 4 * 2
/-- `sizeof(heap_block)`. -/
def heapBlockSize : Nat := 16
def heapMinSize : Nat := heapOverhead + heapBlockSize

/-! ## Reading blocks -/

def lwpHeapHead (h : Nat) : Nat := h
def lwpHeapTail (h : Nat) : Nat := h + 4

/-- `flag & ~HEAP_BLOCK_USED`. -/
def flagSize (flag : Nat) : Nat := flag &&& (2 ^ 32 - 1 - heapBlockUsed)

def lwpHeapPrevblock (m : Words) (block : Nat) : Nat := u32 (block + (2 ^ 32 - flagSize (m block)))
def lwpHeapNextblock (m : Words) (block : Nat) : Nat := u32 (block + flagSize (m (block + 4)))
def lwpHeapBlockat (block offset : Nat) : Nat := u32 (block + offset)

def lwpHeapUsrblockat (m : Words) (ptr : Nat) : Nat :=
  let offset := m (ptr - 4)
  lwpHeapBlockat ptr (u32 ((2 ^ 32 - offset) + (2 ^ 32 - heapBlockUsedOverhead)))

def lwpHeapPrevBlockfree (m : Words) (block : Nat) : Bool := m block &&& heapBlockUsed = 0
def lwpHeapBlockfree (m : Words) (block : Nat) : Bool := m (block + 4) &&& heapBlockUsed = 0
def lwpHeapBlocksize (m : Words) (block : Nat) : Nat := flagSize (m (block + 4))
def lwpHeapStartuser (block : Nat) : Nat := block + 8
def lwpHeapBlockin (m : Words) (h block : Nat) : Bool := block ≥ m h ∧ block ≤ m (h + 4)
def lwpHeapPgsizeValid (pgsize : Nat) : Bool := pgsize ≠ 0 ∧ pgsize % 8 = 0
def lwpHeapBuildflag (size flag : Nat) : Nat := size ||| flag

/-! ## The operations -/

def lwpHeapInit (m : Words) (h startAddr size pgSize : Nat) : Words × Nat :=
  if lwpHeapPgsizeValid pgSize = false ∨ size < heapMinSize then (m, 0)
  else
    let m := m.set (h + 20) pgSize
    let dsize := size - heapOverhead
    let block := startAddr
    let m := m.set block heapDummyFlag
    let m := m.set (block + 4) dsize
    let m := m.set (block + 8) (lwpHeapTail h)
    let m := m.set (block + 12) (lwpHeapHead h)
    let m := m.set h block
    let m := m.set (h + 8) block
    let m := m.set (h + 12) 0
    let m := m.set (h + 16) block
    let block := lwpHeapNextblock m block
    let m := m.set block dsize
    let m := m.set (block + 4) heapDummyFlag
    let m := m.set (h + 4) block
    (m, dsize - heapBlockUsedOverhead)

/-- The size of the block that an allocation of `size` bytes takes. -/
def lwpHeapDsize (pgSize size : Nat) : Nat :=
  let excess := size % pgSize
  let dsize := u32 (size + pgSize + heapBlockUsedOverhead)
  let dsize := if excess ≠ 0 then u32 (dsize + (pgSize - excess)) else dsize
  if dsize < heapBlockSize then heapBlockSize else dsize

/-- The search of `__lwp_heap_allocate`; a free list is never longer than the heap's last address. -/
def lwpHeapFind (m : Words) (h dsize : Nat) : Nat → Nat → Option Nat
  | 0, _ => none
  | fuel + 1, block =>
    if block = lwpHeapTail h then none
    else if m (block + 4) ≥ dsize then some block
    else lwpHeapFind m h dsize fuel (m (block + 8))

/-- The end of the block found becomes a block in use, or the whole of it; the result is where its user part starts. -/
def lwpHeapTake (m : Words) (pgSize dsize block : Nat) : Words × Nat :=
  if m (block + 4) - dsize > u32 (pgSize + heapBlockUsedOverhead) then
    let m := m.set (block + 4) (m (block + 4) - dsize)
    let nextBlock := lwpHeapNextblock m block
    let m := m.set nextBlock (m (block + 4))
    let tmpBlock := lwpHeapBlockat nextBlock dsize
    let flag := lwpHeapBuildflag dsize heapBlockUsed
    let m := m.set (nextBlock + 4) flag
    let m := m.set tmpBlock flag
    (m, lwpHeapStartuser nextBlock)
  else
    let nextBlock := lwpHeapNextblock m block
    let m := m.set nextBlock (lwpHeapBuildflag (m (block + 4)) heapBlockUsed)
    let m := m.set (block + 4) (m nextBlock)
    let m := m.set (m (block + 8) + 12) (m (block + 12))
    let m := m.set (m (block + 12) + 8) (m (block + 8))
    (m, lwpHeapStartuser block)

def lwpHeapAllocate (m : Words) (h size : Nat) : Words × Option Nat :=
  if size ≥ 2 ^ 32 - 1 - heapBlockUsedOverhead then (m, none)
  else
    let pgSize := m (h + 20)
    let dsize := lwpHeapDsize pgSize size
    match lwpHeapFind m h dsize (m (h + 4)) (m (h + 8)) with
    | none => (m, none)
    | some block =>
      let (m, ptr) := lwpHeapTake m pgSize dsize block
      let offset := pgSize - (ptr &&& (pgSize - 1))
      let ptr := u32 (ptr + offset)
      (m.set (ptr - 4) offset, some ptr)

/-- `__lwp_heap_free` after its checks: the block becomes free, together with its free neighbours. -/
def lwpHeapRelease (m : Words) (h block nextBlock dsize : Nat) : Words :=
  if lwpHeapBlockfree m nextBlock then
    let m := m.set (block + 4) (u32 (dsize + m (nextBlock + 4)))
    let newNext := lwpHeapNextblock m block
    let m := m.set newNext (m (block + 4))
    let m := m.set (block + 8) (m (nextBlock + 8))
    let m := m.set (block + 12) (m (nextBlock + 12))
    let m := m.set (m (nextBlock + 12) + 8) block
    let m := m.set (m (nextBlock + 8) + 12) block
    if m (h + 8) = nextBlock then m.set (h + 8) block else m
  else
    let m := m.set (block + 4) dsize
    let m := m.set nextBlock dsize
    let m := m.set (block + 12) (lwpHeapHead h)
    let m := m.set (block + 8) (m (h + 8))
    let m := m.set (h + 8) block
    m.set (m (block + 8) + 12) block

/-- The same when the block before it is free. -/
def lwpHeapMergePrev (m : Words) (prevBlock nextBlock dsize : Nat) : Words :=
  if lwpHeapBlockfree m nextBlock then
    let m := m.set (prevBlock + 4) (u32 (m (prevBlock + 4) + u32 (m (nextBlock + 4) + dsize)))
    let tmpBlock := lwpHeapNextblock m prevBlock
    let m := m.set tmpBlock (m (prevBlock + 4))
    let m := m.set (m (nextBlock + 8) + 12) (m (nextBlock + 12))
    m.set (m (nextBlock + 12) + 8) (m (nextBlock + 8))
  else
    let flag := u32 (m (prevBlock + 4) + dsize)
    let m := m.set nextBlock flag
    m.set (prevBlock + 4) flag

def lwpHeapFree (m : Words) (h ptr : Nat) : Words × Bool :=
  let block := lwpHeapUsrblockat m ptr
  if lwpHeapBlockin m h block = false ∨ lwpHeapBlockfree m block then (m, false)
  else
    let dsize := lwpHeapBlocksize m block
    let nextBlock := lwpHeapBlockat block dsize
    if lwpHeapBlockin m h nextBlock = false ∨ m (block + 4) ≠ m nextBlock then (m, false)
    else if lwpHeapPrevBlockfree m block then
      let prevBlock := lwpHeapPrevblock m block
      if lwpHeapBlockin m h prevBlock = false then (m, false)
      else (lwpHeapMergePrev m prevBlock nextBlock dsize, true)
    else (lwpHeapRelease m h block nextBlock dsize, true)

/-! ## The system -/

/-- A heap and the pointers its users have, with the sizes they asked for. -/
structure HeapState where
  mem : Words
  live : List (Nat × Nat)

inductive HeapEvent where
  | allocate (size : Nat)
  | free (ptr : Nat)
  | write (a v : Nat)
  deriving DecidableEq, Repr

def heapNext (h : Nat) (s : HeapState) : HeapEvent → HeapState
  | .allocate size =>
    let (m, ptr) := lwpHeapAllocate s.mem h size
    { mem := m, live := (ptr.map (·, size)).toList ++ s.live }
  | .free ptr =>
    let (m, done) := lwpHeapFree s.mem h ptr
    { mem := m, live := if done then s.live.filter (·.1 ≠ ptr) else s.live }
  | .write a v => { s with mem := s.mem.set a v }

/-- What an allocation comes to: whole pages, the longest offset and the tags. -/
def heapRounding (pgSize size : Nat) : Nat := (size + (pgSize - 1)) / pgSize * pgSize + pgSize + heapBlockUsedOverhead

/-- What an allocation comes to does not exceed the address space; only live pointers are freed; users write to what they
have. -/
def heapGuard (h : Nat) (s : HeapState) : HeapEvent → Prop
  | .allocate size => size < 2 ^ 32 ∧ heapRounding (s.mem (h + 20)) size ≤ 2 ^ 32
  | .free ptr => ∃ p ∈ s.live, p.1 = ptr
  | .write a _ => a % 4 = 0 ∧ ∃ p ∈ s.live, p.1 ≤ a ∧ a < p.1 + p.2

instance (h : Nat) (s : HeapState) : ∀ e, Decidable (heapGuard h s e)
  | .allocate _ => inferInstanceAs (Decidable (_ ∧ _))
  | .free _ => inferInstanceAs (Decidable (∃ p ∈ s.live, _))
  | .write _ _ => inferInstanceAs (Decidable (_ ∧ ∃ p ∈ s.live, _))

/-- **A heap and everybody who uses it.** -/
def heapSystem (h : Nat) : System HeapState HeapEvent where
  enabled := heapGuard h
  next := heapNext h

instance (h : Nat) (s : HeapState) (e : HeapEvent) : Decidable ((heapSystem h).enabled s e) :=
  inferInstanceAs (Decidable (heapGuard h s e))

/-- What an allocation comes to is a number of 32 bits. -/
def heapFits (h : Nat) (s : HeapState) : HeapEvent → Prop
  | .allocate size => heapRounding (s.mem (h + 20)) size < 2 ^ 32
  | _ => True

instance (h : Nat) (s : HeapState) : ∀ e, Decidable (heapFits h s e)
  | .allocate _ => inferInstanceAs (Decidable (_ < _))
  | .free _ => inferInstanceAs (Decidable True)
  | .write _ _ => inferInstanceAs (Decidable True)

/-- A new heap on whatever its memory held before. -/
def heapStart (m : Words) (h startAddr size pgSize : Nat) : HeapState where
  mem := (lwpHeapInit m h startAddr size pgSize).1
  live := []

end Libogc
