import Libogc.Lib.Regions
import Libogc.Lwp.HeapSizes
import Libogc.Lwp.Messages
import Libogc.Lwp.ObjectRuns
/-!
# Mqbox — the buffers of a message box

`MQ_Init` of `message.c` with `__lwpmq_initialize` and `__lwp_queue_initialize`, on the words of the workspace: the slots of the class
are one block of it, and the buffers of a box are another.  What the buffers need is a product of 32 bits; the linking loop
counts them again.
-/
namespace Libogc

open Runs Chains

/-- `sizeof(mq_buffercntrl)`. -/
def mqBuffercntrlSize : Nat := 20

/-- Where the fields of an `mq_cntrl` are. -/
def mqMaxPendingmsgs : Nat := 68
def mqNumPendingmsgs : Nat := 72
def mqMaxMsgsize : Nat := 76
def mqPendingMsgs : Nat := 80
def mqMsqBuffers : Nat := 92
def mqNotifyHandler : Nat := 96
def mqNotifyArg : Nat := 100
def mqInactiveMsgs : Nat := 104

/-- `sizeof(lwp_obj)` and `sizeof(mqbox_st)`. -/
def lwpObjSize : Nat := 16
def mqboxStSize : Nat := lwpObjSize + 116

/-! ## Queues at addresses -/

/-- `__lwp_queue_init_empty`. -/
def lwpQueueInitEmptyAt (m : Words) (queue : Nat) : Words :=
  let m := m.set queue (queue + 4)
  let m := m.set (queue + 4) 0
  m.set (queue + 8) queue

/-- The loop of `__lwp_queue_initialize`, from `curr` and `next`. -/
def lwpQueueInitializeLoop (nodeSize : Nat) : Nat → Words → Nat → Nat → Words × Nat
  | 0, m, curr, _ => (m, curr)
  | count + 1, m, curr, next =>
    lwpQueueInitializeLoop nodeSize count ((m.set curr next).set (next + 4) curr) next (u32 (next + nodeSize))

def lwpQueueInitializeAt (m : Words) (queue startAddr numNodes nodeSize : Nat) : Words :=
  let m := m.set (queue + 4) 0
  let (m, curr) := lwpQueueInitializeLoop nodeSize numNodes m queue startAddr
  let m := m.set curr (queue + 4)
  m.set (queue + 8) curr

/-- `__lwp_threadqueue_init`. -/
def lwpThreadqueueInitAt (m : Words) (queue : Nat) (mode : ThreadqMode) (state timeoutStatus : Nat) : Words :=
  let m := m.set (queue + 56) state
  let m := m.set (queue + 52) (match mode with | .fifo => 0 | .priority => 1)
  let m := m.set (queue + 60) timeoutStatus
  let m := m.set (queue + 48) 0
  match mode with
  | .fifo => lwpQueueInitEmptyAt m queue
  | .priority => (List.range 4).foldl (fun m i => lwpQueueInitEmptyAt m (queue + 12 * i)) m

/-! ## The calls -/

def mqAllocMsgsize (maxMsgsize : Nat) : Nat :=
  if maxMsgsize &&& 3 ≠ 0 then u32 (maxMsgsize + 4) &&& (2 ^ 32 - 1 - 3) else maxMsgsize

/-- The size of a node, and what the buffers need. -/
def mqNodeSize (maxMsgsize : Nat) : Nat := u32 (mqAllocMsgsize maxMsgsize + mqBuffercntrlSize)
def mqBufferingReq (maxPendingmsgs maxMsgsize : Nat) : Nat := u32 (maxPendingmsgs * mqNodeSize maxMsgsize)

/-- The fields that `__lwpmq_initialize` sets first. -/
def lwpmqFields (m : Words) (mqueue maxPendingmsgs maxMsgsize : Nat) : Words :=
  let m := m.set (mqueue + mqMaxPendingmsgs) maxPendingmsgs
  let m := m.set (mqueue + mqNumPendingmsgs) 0
  let m := m.set (mqueue + mqMaxMsgsize) maxMsgsize
  let m := m.set (mqueue + mqNotifyHandler) 0
  m.set (mqueue + mqNotifyArg) 0

/-- `__lwpmq_initialize`, with the workspace at `h`. -/
def lwpmqInitializeAt (m : Words) (h mqueue : Nat) (mode : ThreadqMode) (maxPendingmsgs maxMsgsize : Nat) : Words × Bool :=
  let m := lwpmqFields m mqueue maxPendingmsgs maxMsgsize
  let (m, buffers) := lwpHeapAllocate m h (mqBufferingReq maxPendingmsgs maxMsgsize)
  let msqBuffers := buffers.getD 0
  let m := m.set (mqueue + mqMsqBuffers) msqBuffers
  if msqBuffers = 0 then (m, false)
  else
    let m := lwpQueueInitializeAt m (mqueue + mqInactiveMsgs) msqBuffers maxPendingmsgs (mqNodeSize maxMsgsize)
    let m := lwpQueueInitEmptyAt m (mqueue + mqPendingMsgs)
    (lwpThreadqueueInitAt m mqueue mode stWaitingForMessage.toNat mqTimeout.toNat, true)

inductive MqErrno where
  | einval
  | enospc
  deriving DecidableEq, Repr

/-- The memory, and the class of message boxes with its slots at `blocks`. -/
structure MqboxState (T : Type) where
  mem : Words
  objs : ObjCalls T
  blocks : Nat

/-- `&mqbox->mqueue` of a slot. -/
def MqboxState.mqueue {T : Type} (s : MqboxState T) (object : Nat) : Nat := s.blocks + object * mqboxStSize + lwpObjSize

/-- `MQ_Init`, and the handle that it stores. -/
def mqInit {T : Type} (h : Nat) (s : MqboxState T) (mqbox count : Nat) : MqboxState T × Except MqErrno Nat :=
  if mqbox = 0 then (s, .error .einval)
  else
    match lwpObjectAllocate s.objs.info with
    | (info, none) => ({ s with objs := { s.objs with info := info } }, .error .enospc)
    | (info, some ret) =>
      let (m, done) := lwpmqInitializeAt s.mem h (s.mqueue ret) .fifo count mqMsgSize.toNat
      if done = false then
        ({ s with mem := m, objs := { s.objs with info := lwpObjmgrFree (lwpObjmgrClose info ret) ret } }, .error .enospc)
      else
        ({ s with mem := m, objs := { s.objs with info := info, live := Function.update s.objs.live (info.handle .mbox ret) true } },
          .ok (info.handle .mbox ret))

/-- Its slots are those of an `Init` of the class, by whether the buffers were had. -/
theorem mqInit_objs {T : Type} (h : Nat) (s : MqboxState T) {mqbox : Nat} (hmq : mqbox ≠ 0) (count : Nat) :
    (mqInit h s mqbox count).1.objs = (lwpObjectInit .mbox s.objs (mqInit h s mqbox count).2.isOk).1 := by
  unfold mqInit lwpObjectInit
  rw [if_neg hmq]
  cases lwpObjectAllocate s.objs.info with
  | mk info object =>
    cases object with
    | none => rfl
    | some ret =>
      dsimp only
      by_cases hd : (lwpmqInitializeAt s.mem h (s.mqueue ret) .fifo count mqMsgSize.toNat).2 = false
      · simp only [if_pos hd]
        rfl
      · simp only [if_neg hd]
        rfl

/-! ## What is written where -/

/-- The words of a node that hold its links. -/
def lwpNodeNext (node : Nat) : Nat := node
def lwpNodePrev (node : Nat) : Nat := node + 4

section Writes
variable {m m' : Words}

variable {queue nodeSize k : Nat}

theorem lwpQueueInitEmptyAt_changed : ∀ a, lwpQueueInitEmptyAt m queue a ≠ m a → queue ≤ a ∧ a < queue + 12 := by
  unfold lwpQueueInitEmptyAt
  iterate 3 refine Words.changed_set (by omega) ?_
  exact fun a ha => absurd rfl ha

theorem lwpThreadqueueInitAt_changed {state timeoutStatus : Nat} :
    ∀ a, lwpThreadqueueInitAt m queue .fifo state timeoutStatus a ≠ m a → queue ≤ a ∧ a < queue + 64 := by
  unfold lwpThreadqueueInitAt
  refine Words.changed_trans (Words.changed_mono (fun a ha => by omega) lwpQueueInitEmptyAt_changed) ?_
  iterate 4 refine Words.changed_set (by omega) ?_
  exact fun a ha => absurd rfl ha

theorem lwpmqFields_changed {mqueue maxPendingmsgs maxMsgsize : Nat} :
    ∀ a, lwpmqFields m mqueue maxPendingmsgs maxMsgsize a ≠ m a → mqueue ≤ a ∧ a < mqueue + 116 := by
  unfold lwpmqFields mqMaxPendingmsgs mqNumPendingmsgs mqMaxMsgsize mqNotifyHandler mqNotifyArg
  iterate 5 refine Words.changed_set (by omega) ?_
  exact fun a ha => absurd rfl ha

/-- **The loop links the nodes** that lie in a row from `next`, behind `curr`, and writes nothing else.  The induction is on how
many there are to go. -/
theorem lwpQueueInitializeLoop_spec (h8 : 8 ≤ nodeSize) : ∀ (count : Nat) (m : Words) {curr next : Nat},
    next + count * nodeSize < 2 ^ 32 → (curr + 4 ≤ next ∨ next + count * nodeSize ≤ curr) →
      Linked lwpNodeNext lwpNodePrev (lwpQueueInitializeLoop nodeSize count m curr next).1
          (curr :: List.range' next count nodeSize) ∧
        (lwpQueueInitializeLoop nodeSize count m curr next).2 = (List.range' next count nodeSize).getLastD curr ∧
        ∀ a, (lwpQueueInitializeLoop nodeSize count m curr next).1 a ≠ m a →
          a = curr ∨ (next ≤ a ∧ a < next + count * nodeSize)
  | 0, _, _, _, _, _ => ⟨List.isChain_singleton _, rfl, fun a ha => absurd rfl ha⟩
  | count + 1, m, curr, next, hin, hcurr => by
    rw [Nat.add_mul, Nat.one_mul] at hin hcurr
    have hnext : u32 (next + nodeSize) = next + nodeSize := u32_of_lt (by omega)
    obtain ⟨hlist, hlast, hch⟩ := lwpQueueInitializeLoop_spec h8 count ((m.set curr next).set (next + 4) curr)
      (show (next + nodeSize) + count * nodeSize < 2 ^ 32 by omega) (.inl (show next + 4 ≤ next + nodeSize by omega))
    unfold lwpQueueInitializeLoop
    rw [hnext, List.range'_succ]
    refine ⟨List.isChain_cons_cons.2 ⟨⟨?_, ?_⟩, hlist⟩, ?_, fun a ha => ?_⟩
    · rw [lwpNodeNext, Words.kept hch (by omega), Words.set_ne _ _ (by omega), Words.set_self]
    · rw [lwpNodePrev, Words.kept hch (by omega), Words.set_self]
    · rw [hlast, List.getLastD_cons]
    · rw [Nat.add_mul, Nat.one_mul]
      revert a
      refine Words.changed_trans (Words.changed_mono (fun a ha => by omega) hch) ?_
      refine Words.changed_set (.inr (by omega)) ?_
      refine Words.changed_set (.inl rfl) ?_
      exact fun b hb => absurd rfl hb

theorem range'_apart : ∀ {s n : Nat}, (List.range' s n k).Pairwise fun a b => a + k ≤ b
  | _, 0 => List.Pairwise.nil
  | s, n + 1 => by
    rw [List.range'_succ, List.pairwise_cons]
    refine ⟨fun b hb => ?_, range'_apart⟩
    obtain ⟨i, -, rfl⟩ := List.mem_range'.1 hb
    exact Nat.le_add_right _ _

theorem range'_inside {s n a : Nat} (ha : a ∈ List.range' s n k) : s ≤ a ∧ a + k ≤ s + n * k := by
  obtain ⟨i, hi, rfl⟩ := List.mem_range'.1 ha
  have := Nat.mul_le_mul_left k (show i + 1 ≤ n by omega)
  rw [Nat.mul_add, Nat.mul_one, Nat.mul_comm k n] at this
  omega

theorem lwpQueueInitializeAt_spec (m : Words) {startAddr count : Nat} (h8 : 8 ≤ nodeSize)
    (hin : startAddr + count * nodeSize < 2 ^ 32) (hq : queue + 12 ≤ startAddr ∨ startAddr + count * nodeSize ≤ queue) :
    Linked lwpNodeNext lwpNodePrev (lwpQueueInitializeAt m queue startAddr count nodeSize)
        (queue :: (List.range' startAddr count nodeSize ++ [queue + 4])) ∧
      ∀ a, lwpQueueInitializeAt m queue startAddr count nodeSize a ≠ m a →
        (queue ≤ a ∧ a < queue + 12) ∨ (startAddr ≤ a ∧ a < startAddr + count * nodeSize) := by
  obtain ⟨hlist, hlast, hch⟩ := lwpQueueInitializeLoop_spec h8 count (m.set (queue + 4) 0) hin
    (hq.imp (fun h => show queue + 4 ≤ startAddr by omega) id)
  unfold lwpQueueInitializeAt
  dsimp only
  set got := lwpQueueInitializeLoop nodeSize count (m.set (queue + 4) 0) queue startAddr
  set nodes := List.range' startAddr count nodeSize
  -- the last node linked is the header or in the array
  obtain ⟨g, hg⟩ := exists_concat_getLastD queue nodes
  rw [← hlast] at hg
  have hmem : ∀ a ∈ queue :: nodes, a = queue ∨ (startAddr ≤ a ∧ a + nodeSize ≤ startAddr + count * nodeSize) := by
    intro a ha
    exact (List.mem_cons.1 ha).imp id range'_inside
  have hcurr := hmem got.2 (by rw [hg]; simp)
  constructor
  · have hapart : (queue :: nodes).Pairwise fun a b => a + 8 ≤ b ∨ b + 8 ≤ a := by
      refine List.pairwise_cons.2 ⟨fun a ha => ?_, range'_apart.imp fun h => .inl (by omega)⟩
      have := range'_inside ha
      omega
    rw [hg, List.pairwise_append] at hapart
    have hlist' : Linked lwpNodeNext lwpNodePrev ((got.1.set got.2 (queue + 4)).set (queue + 8) got.2) (g ++ [got.2]) := by
      rw [← hg]
      refine hlist.frame (fun u hu => ?_) (fun v hv => ?_)
      · rw [hg, List.dropLast_concat] at hu
        have h1 := hapart.2.2 u hu got.2 List.mem_cons_self
        have h2 := hmem u (by rw [hg]; exact List.mem_append_left _ hu)
        rw [lwpNodeNext, Words.set_ne _ _ (by omega), Words.set_ne _ _ (by omega)]
      · have h1 := range'_inside hv
        have h2 : v = got.2 ∨ v + 8 ≤ got.2 ∨ got.2 + 8 ≤ v := by
          have hv' : v ∈ g ++ [got.2] := by rw [← hg]; exact List.mem_cons_of_mem _ hv
          rcases List.mem_append.1 hv' with hv' | hv'
          · exact .inr (hapart.2.2 v hv' got.2 List.mem_cons_self)
          · exact .inl (List.mem_singleton.1 hv')
        rw [lwpNodePrev, Words.set_ne _ _ (by omega), Words.set_ne _ _ (by omega)]
    rw [← List.cons_append, hg]
    refine List.isChain_append.2 ⟨hlist', List.isChain_singleton _, fun x hx y hy => ?_⟩
    obtain rfl : got.2 = x := by simpa using hx
    obtain rfl : queue + 4 = y := by simpa using hy
    refine ⟨?_, ?_⟩
    · rw [lwpNodeNext, Words.set_ne _ _ (by omega), Words.set_self]
    · exact Words.set_self ..
  · refine Words.changed_set (.inl (by omega)) ?_
    refine Words.changed_set (by omega) ?_
    refine Words.changed_trans (Words.changed_mono (fun a ha => by omega) hch) ?_
    refine Words.changed_set (.inl (by omega)) ?_
    exact fun b hb => absurd rfl hb

end Writes

/-! ## The buffers -/

/-- **The buffers of a queue**: `count` nodes, linked from its header, that are apart from each other and in one range. -/
def MqBuffered (m : Words) (queue ptr size count : Nat) : Prop :=
  ∃ nodes : List Nat, nodes.length = count ∧ Linked lwpNodeNext lwpNodePrev m (queue :: (nodes ++ [queue + 4])) ∧
    (nodes.Pairwise fun a b => a + mqNodeSize mqMsgSize.toNat ≤ b ∨ b + mqNodeSize mqMsgSize.toNat ≤ a) ∧
    ∀ a ∈ nodes, ptr ≤ a ∧ a + mqNodeSize mqMsgSize.toNat ≤ ptr + size

theorem mqNodeSize_msg : mqNodeSize mqMsgSize.toNat = 24 := by decide

section Heap
variable {h start final mqueue count : Nat} {m : Words} {bs : List HeapBlock} {fl : List Nat} {live : List (Nat × Nat)}

variable {ptr maxMsgsize : Nat} {p : Nat × Nat}

theorem HeapInv.buffered_fits (hp : HeapPlace h start final 8) {queue size : Nat}
    (hi : HeapInv h start final 8 m bs fl ((ptr, size) :: live)) (hb : MqBuffered m queue ptr size count) :
    heapRounding 8 (count * mqNodeSize mqMsgSize.toNat) < 2 ^ 32 := by
  obtain ⟨nodes, rfl, -, hapart, hin⟩ := hb
  have htop := hp.top
  have hlive := hi.live_inside List.mem_cons_self
  dsimp only at hlive
  have hle := Regions.apart_length_le (by decide) hapart hin
  have hover : heapBlockUsedOverhead = 8 := rfl
  rw [mqNodeSize_msg] at hle ⊢
  unfold heapRounding
  omega

theorem HeapInv.fields (hp : HeapPlace h start final 8) (hi : HeapInv h start final 8 m bs fl live) (hpl : p ∈ live)
    (h1 : p.1 ≤ mqueue) (h2 : mqueue + 116 ≤ p.1 + p.2) (count maxMsgsize : Nat) :
    HeapInv h start final 8 (lwpmqFields m mqueue count maxMsgsize) bs fl live := by
  refine hi.users hp fun a ha => ⟨p, hpl, ?_⟩
  have := lwpmqFields_changed a ha
  omega

theorem HeapInv.mq_refused (hp : HeapPlace h start final 8) (hi : HeapInv h start final 8 m bs fl live) (hpl : p ∈ live)
    (h1 : p.1 ≤ mqueue) (h2 : mqueue + 116 ≤ p.1 + p.2)
    (hnone : (lwpHeapAllocate (lwpmqFields m mqueue count maxMsgsize) h (mqBufferingReq count maxMsgsize)).2 = none) :
    (lwpmqInitializeAt m h mqueue .fifo count maxMsgsize).2 = false ∧
      HeapInv h start final 8 (lwpmqInitializeAt m h mqueue .fifo count maxMsgsize).1 bs fl live := by
  unfold lwpmqInitializeAt
  simp only [lwpHeapAllocate_none hnone, Option.getD_none, if_true]
  refine ⟨trivial, (hi.fields hp hpl h1 h2 count maxMsgsize).write hp hpl ?_ ?_ 0⟩
  · unfold mqMsqBuffers
    omega
  · unfold mqMsqBuffers
    omega

theorem lwpmqInitializeAt_done (hne : ptr ≠ 0)
    (hsome : (lwpHeapAllocate (lwpmqFields m mqueue count maxMsgsize) h (mqBufferingReq count maxMsgsize)).2 = some ptr) :
    (lwpmqInitializeAt m h mqueue .fifo count maxMsgsize).2 = true := by
  unfold lwpmqInitializeAt
  simp only [hsome, Option.getD_some, if_neg hne]

/-- **With buffers** whose size is a number of 32 bits they are in the new block, and linked. -/
theorem HeapInv.mq_initialize (hp : HeapPlace h start final 8) (hi : HeapInv h start final 8 m bs fl live) (hpl : p ∈ live)
    (h1 : p.1 ≤ mqueue) (h2 : mqueue + 116 ≤ p.1 + p.2) (hfit : heapRounding 8 (count * mqNodeSize mqMsgSize.toNat) < 2 ^ 32)
    (hne : ptr ≠ 0)
    (hsome : (lwpHeapAllocate (lwpmqFields m mqueue count mqMsgSize.toNat) h (mqBufferingReq count mqMsgSize.toNat)).2 = some ptr) :
    (lwpmqInitializeAt m h mqueue .fifo count mqMsgSize.toNat).1 (mqueue + mqMsqBuffers) = ptr ∧
      MqBuffered (lwpmqInitializeAt m h mqueue .fifo count mqMsgSize.toNat).1 (mqueue + mqInactiveMsgs) ptr
        (count * mqNodeSize mqMsgSize.toNat) count ∧
      ∃ bs' fl', HeapInv h start final 8 (lwpmqInitializeAt m h mqueue .fifo count mqMsgSize.toNat).1 bs' fl'
        ((ptr, count * mqNodeSize mqMsgSize.toNat) :: live) := by
  have htop := hp.top
  have hsize := (heapRounding_bounds (show 8 % 8 = 0 from rfl) (by decide) (count * mqNodeSize mqMsgSize.toNat)).1
  have hreq : mqBufferingReq count mqMsgSize.toNat = count * mqNodeSize mqMsgSize.toNat := u32_of_lt (by omega)
  obtain ⟨bs', fl', hi'⟩ := (hi.fields hp hpl h1 h2 count mqMsgSize.toNat).allocate hp hfit
  rw [hreq] at hsome
  rw [hsome] at hi'
  have hi2 : HeapInv h start final 8 (lwpHeapAllocate (lwpmqFields m mqueue count mqMsgSize.toNat) h
      (count * mqNodeSize mqMsgSize.toNat)).1 bs' fl' ((ptr, count * mqNodeSize mqMsgSize.toNat) :: live) := hi'
  have hin := hi2.live_inside List.mem_cons_self
  have hapart := (List.pairwise_cons.1 hi2.live_apart).1 p hpl
  have hmsq : mqMsqBuffers = 92 := rfl
  have hinact : mqInactiveMsgs = 104 := rfl
  have hpend : mqPendingMsgs = 80 := rfl
  dsimp only at hin hapart
  unfold lwpmqInitializeAt
  simp only [hreq, hsome, Option.getD_some, if_neg hne]
  set m₂ := (lwpHeapAllocate (lwpmqFields m mqueue count mqMsgSize.toNat) h (count * mqNodeSize mqMsgSize.toNat)).1
  obtain ⟨hlist, hch⟩ := lwpQueueInitializeAt_spec (m₂.set (mqueue + mqMsqBuffers) ptr)
    (show 8 ≤ mqNodeSize mqMsgSize.toNat by decide) (show ptr + count * mqNodeSize mqMsgSize.toNat < 2 ^ 32 by omega)
    (show mqueue + mqInactiveMsgs + 12 ≤ ptr ∨ ptr + count * mqNodeSize mqMsgSize.toNat ≤ mqueue + mqInactiveMsgs by omega)
  set m₄ := lwpQueueInitializeAt (m₂.set (mqueue + mqMsqBuffers) ptr) (mqueue + mqInactiveMsgs) ptr count (mqNodeSize mqMsgSize.toNat)
  set m₆ := lwpThreadqueueInitAt (lwpQueueInitEmptyAt m₄ (mqueue + mqPendingMsgs)) mqueue .fifo stWaitingForMessage.toNat
    mqTimeout.toNat
  -- what follows the linking stays in the other fields
  have hlast : ∀ a, m₆ a ≠ m₄ a → mqueue ≤ a ∧ a < mqueue + 92 :=
    Words.changed_trans (Words.changed_mono (fun a ha => by omega) lwpThreadqueueInitAt_changed)
      (Words.changed_mono (fun a ha => by omega) lwpQueueInitEmptyAt_changed)
  have hnode := mqNodeSize_msg
  refine ⟨?_, ⟨List.range' ptr count (mqNodeSize mqMsgSize.toNat), List.length_range', ?_, ?_, ?_⟩, bs', fl', ?_⟩
  · rw [Words.kept hlast (by omega), Words.kept hch (by omega), Words.set_self]
  · refine hlist.frame (fun u hu => Words.kept hlast ?_) (fun v hv => Words.kept hlast ?_)
    · rw [← List.cons_append, List.dropLast_concat] at hu
      rcases List.mem_cons.1 hu with rfl | hu
      · unfold lwpNodeNext
        omega
      · have := range'_inside hu
        unfold lwpNodeNext
        omega
    · rcases List.mem_append.1 hv with hv | hv
      · have := range'_inside hv
        unfold lwpNodePrev
        omega
      · rw [List.mem_singleton.1 hv]
        unfold lwpNodePrev
        omega
  · exact range'_apart.imp fun hab => .inl hab
  · exact fun a ha => range'_inside ha
  · refine hi2.users hp ?_
    have hall : ∀ a, m₆ a ≠ m₂ a → (mqueue ≤ a ∧ a < mqueue + 116) ∨ (ptr ≤ a ∧ a < ptr + count * mqNodeSize mqMsgSize.toNat) := by
      refine Words.changed_trans (Words.changed_mono (fun a ha => by omega) hlast) ?_
      refine Words.changed_trans (Words.changed_mono (fun a ha => by omega) hch) ?_
      refine Words.changed_set (by omega) ?_
      exact fun a ha => absurd rfl ha
    intro a ha
    rcases hall a ha with hr | hr
    · exact ⟨p, List.mem_cons_of_mem _ hpl, by omega, by omega⟩
    · exact ⟨_, List.mem_cons_self, hr.1, hr.2⟩

end Heap

/-! ## MQ_Init -/

section Init
variable {T : Type} {h start final : Nat} {s : MqboxState T} {opened : Nat → Bool} {free : List Nat} {bs : List HeapBlock}
  {fl : List Nat} {live : List (Nat × Nat)}

/-- **What a caller is promised**: a queue whose buffers are in a block of their own, or that nothing is gone, neither a slot nor
a block. -/
structure MqInitKept (h start final : Nat) (s : MqboxState T) (opened : Nat → Bool) (free : List Nat) (bs : List HeapBlock)
    (fl : List Nat) (live : List (Nat × Nat)) (count : Nat) (got : MqboxState T × Except MqErrno Nat) : Prop where
  ok : ∀ hndl, got.2 = .ok hndl → ∃ ret ptr size bs' fl', got.1.objs.info.handle .mbox ret = hndl ∧
    got.1.mem (s.mqueue ret + mqMsqBuffers) = ptr ∧ MqBuffered got.1.mem (s.mqueue ret + mqInactiveMsgs) ptr size count ∧
    HeapInv h start final 8 got.1.mem bs' fl' ((ptr, size) :: live)
  error : ∀ e, got.2 = .error e → HeapInv h start final 8 got.1.mem bs fl live ∧
    ∃ opened' free', ObjSlots .mbox got.1.objs opened' free' ∧ free'.Perm free ∧ ∀ object, opened' object = opened object

theorem MqboxState.mqueue_inside (s : MqboxState T) {object : Nat} (ho : object < ObjClass.mbox.maxNodes) :
    s.blocks ≤ s.mqueue object ∧ s.mqueue object + 116 ≤ s.blocks + ObjClass.mbox.maxNodes * mqboxStSize := by
  have h1 : mqboxStSize = 132 := rfl
  have h2 : lwpObjSize = 16 := rfl
  have h3 : ObjClass.mbox.maxNodes = 64 := rfl
  unfold MqboxState.mqueue
  rw [h1, h2, h3]
  omega

theorem mqInit_slot (h count : Nat) {mqbox ret : Nat} {info : Objinfo} (hmq : mqbox ≠ 0)
    (hslot : lwpObjectAllocate s.objs.info = (info, some ret)) :
    (mqInit h s mqbox count).1.mem = (lwpmqInitializeAt s.mem h (s.mqueue ret) .fifo count mqMsgSize.toNat).1 ∧
      ((lwpmqInitializeAt s.mem h (s.mqueue ret) .fifo count mqMsgSize.toNat).2 = true →
        (mqInit h s mqbox count).2 = .ok (info.handle .mbox ret) ∧ (mqInit h s mqbox count).1.objs.info = info) ∧
      ((lwpmqInitializeAt s.mem h (s.mqueue ret) .fifo count mqMsgSize.toNat).2 = false →
        (mqInit h s mqbox count).2 = .error .enospc ∧
          (mqInit h s mqbox count).1.objs = { s.objs with info := lwpObjmgrFree (lwpObjmgrClose info ret) ret }) := by
  unfold mqInit
  rw [if_neg hmq, hslot]
  dsimp only
  cases hd : (lwpmqInitializeAt s.mem h (s.mqueue ret) .fifo count mqMsgSize.toNat).2 with
  | false =>
    rw [if_pos rfl]
    exact ⟨rfl, fun hn => by (cases hn), fun _ => ⟨rfl, rfl⟩⟩
  | true =>
    rw [if_neg (by decide)]
    exact ⟨rfl, fun _ => ⟨rfl, rfl⟩, fun hn => by (cases hn)⟩

/-- **The buffers of a message box.**  The promise is kept exactly when there is no handle to store or no slot, or what the
buffers come to is a number of 32 bits, or the workspace refuses what is left of it. -/
theorem mq_init_buffers {mqbox count : Nat} (hp : HeapPlace h start final 8) (hi : HeapInv h start final 8 s.mem bs fl live)
    (hs : ObjSlots .mbox s.objs opened free)
    (hblocks : s.objs.info.alloc = .both → (s.blocks, ObjClass.mbox.maxNodes * mqboxStSize) ∈ live) :
    MqInitKept h start final s opened free bs fl live count (mqInit h s mqbox count) ↔
      mqbox = 0 ∨ free = [] ∨ heapRounding 8 (count * mqNodeSize mqMsgSize.toNat) < 2 ^ 32 ∨
        2 ^ 32 - 1 - heapBlockUsedOverhead ≤ mqBufferingReq count mqMsgSize.toNat ∨
        ∀ b ∈ bs, b.use = none → b.size < lwpHeapDsize 8 (mqBufferingReq count mqMsgSize.toNat) := by
  by_cases hmq : mqbox = 0
  · refine ⟨fun _ => .inl hmq, fun _ => ?_⟩
    unfold mqInit
    rw [if_pos hmq]
    exact ⟨fun hndl he => by (cases he), fun _ _ => ⟨hi, opened, free, hs, List.Perm.refl _, fun _ => rfl⟩⟩
  cases free with
  | nil =>
    refine ⟨fun _ => .inr (.inl rfl), fun _ => ?_⟩
    unfold mqInit
    rw [if_neg hmq, lwpObjectAllocate_nil hs.rep]
    exact ⟨fun hndl he => by (cases he), fun _ _ => ⟨hi, opened, [], hs, List.Perm.refl _, fun _ => rfl⟩⟩
  | cons ret rest =>
    obtain ⟨ha, hlt⟩ := Objinfo.has_iff.1 (hs.mem ret List.mem_cons_self)
    rw [hs.nodes] at hlt
    obtain ⟨hq1, hq2⟩ := s.mqueue_inside hlt
    have hpl := hblocks ha
    obtain ⟨hmem, hok, herr⟩ := mqInit_slot h count hmq (lwpObjectAllocate_cons hs.rep)
    have hif := hi.fields hp hpl hq1 hq2 count mqMsgSize.toNat
    have hpage := hif.ctrl.2.2
    have htop := hp.top
    rcases hif.shape.allocate_cases hp.room (by rw [hpage]) (by rw [hpage]; decide) (by rw [hpage]; decide)
      (mqBufferingReq count mqMsgSize.toNat) with ⟨hnone, hwhy⟩ | ⟨b, hb, hlim, hu, hge, -, ptr, hsome, hne, -⟩
    · -- the slot goes back
      rw [hpage] at hwhy
      obtain ⟨hd, hinv⟩ := hi.mq_refused hp hpl hq1 hq2 hnone
      obtain ⟨hres, hobjs⟩ := herr hd
      refine ⟨fun _ => .inr (.inr (.inr hwhy)), fun _ => ⟨fun hndl he => by (rw [hres] at he; cases he), fun _ _ => ?_⟩⟩
      rw [hmem, hobjs]
      refine ⟨hinv, _, rest ++ [ret], hs.giveBack, List.perm_append_singleton .., fun object => ?_⟩
      by_cases hoo : object = ret
      · rw [hoo, Function.update_self]
        cases hop : opened ret with
        | false => rfl
        | true => exact absurd List.mem_cons_self (hs.openFree ret hop).1
      · rw [Function.update_of_ne hoo, Function.update_of_ne hoo]
    · rw [hpage] at hge hne
      have hne := hne (by omega)
      obtain ⟨hres, hinfo⟩ := hok (lwpmqInitializeAt_done hne hsome)
      constructor
      · intro hkept
        obtain ⟨_, ptr', size, bs', fl', -, -, hbuf, hinv⟩ := hkept.ok _ hres
        exact .inr (.inr (.inl (hinv.buffered_fits hp hbuf)))
      · rintro (h0 | hnil | hfit | hlarge | hsmall)
        · exact absurd h0 hmq
        · cases hnil
        · obtain ⟨hword, hbuf, bs', fl', hinv⟩ := hi.mq_initialize hp hpl hq1 hq2 hfit hne hsome
          refine ⟨fun hndl he => ?_, fun e he => by rw [hres] at he; cases he⟩
          rw [hres, Except.ok.injEq] at he
          rw [hmem, hinfo]
          exact ⟨ret, ptr, _, bs', fl', he, hword, hbuf, hinv⟩
        · omega
        · exact absurd (hsmall b hb hu) (by omega)

end Init

/-- A workspace of which the class of message boxes has its slots, and nobody anything else. -/
def mqboxSample : MqboxState (Fin 1) where
  mem := ((heapSystem 0).run (heapStart (fun _ => 0) 0 32 16384 8) [.allocate (ObjClass.mbox.maxNodes * mqboxStSize)]).mem
  objs := objCallStart .mbox (fun _ => .null) (fun _ => none) (fun _ => 0) (fun _ => false) .both
  blocks := 7960

/-- A queue of eight messages. -/
theorem mq_init_buffers_eight : ∃ opened free bs fl live,
    MqInitKept 0 32 16408 mqboxSample opened free bs fl live 8 (mqInit 0 mqboxSample 1 8) := by
  have hp : HeapPlace 0 32 (32 + (16384 - 8)) 8 := ⟨⟨3, rfl⟩, by decide, by decide, by decide, by decide⟩
  obtain ⟨bs, fl, hi⟩ := heap_run_inv (fun _ => 0) hp (by decide) (by decide)
    (show ((heapSystem 0).restrict (heapFits 0)).Legal _ [.allocate (ObjClass.mbox.maxNodes * mqboxStSize)] by decide +kernel)
  obtain ⟨free, hs⟩ := objCallStart_slots (T := Fin 1) .mbox (fun _ => .null) (fun _ => none) (fun _ => 0) (fun _ => false) .both
  have hblocks : mqboxSample.objs.info.alloc = .both → (mqboxSample.blocks, ObjClass.mbox.maxNodes * mqboxStSize) ∈
      ((heapSystem 0).run (heapStart (fun _ => 0) 0 32 16384 8) [.allocate (ObjClass.mbox.maxNodes * mqboxStSize)]).live :=
    fun _ => by decide +kernel
  have hfit : heapRounding 8 (8 * mqNodeSize mqMsgSize.toNat) < 2 ^ 32 := by decide
  exact ⟨_, _, _, _, _, (mq_init_buffers hp hi (s := mqboxSample) hs hblocks).2 (.inr (.inr (.inl hfit)))⟩

/-- A queue of 178956971 messages is made with a block of 24 bytes: what its buffers need is eight more than 32 bits count to. -/
theorem mq_init_wraps : ∃ hndl, (mqInit 0 mqboxSample 1 178956971).2 = .ok hndl ∧ ∀ opened free bs fl live,
    ¬ MqInitKept 0 32 16408 mqboxSample opened free bs fl live 178956971 (mqInit 0 mqboxSample 1 178956971) := by
  have hp : HeapPlace 0 32 16408 8 := ⟨⟨3, rfl⟩, by decide, by decide, by decide, by decide⟩
  have hfirst : (lwpObjectAllocate mqboxSample.objs.info).2 = some 0 := by decide +kernel
  have hslot : lwpObjectAllocate mqboxSample.objs.info = ((lwpObjectAllocate mqboxSample.objs.info).1, some 0) := by
    rw [← hfirst]
  have hsome : (lwpHeapAllocate (lwpmqFields mqboxSample.mem (mqboxSample.mqueue 0) 178956971 mqMsgSize.toNat) 0
      (mqBufferingReq 178956971 mqMsgSize.toNat)).2 = some 7936 := by decide +kernel
  obtain ⟨-, hok, -⟩ := mqInit_slot 0 178956971 (show 1 ≠ 0 by decide) hslot
  obtain ⟨hres, -⟩ := hok (lwpmqInitializeAt_done (by decide) hsome)
  refine ⟨_, hres, fun opened free bs fl live hkept => ?_⟩
  obtain ⟨_, ptr, size, bs', fl', -, -, hbuf, hinv⟩ := hkept.ok _ hres
  exact absurd (hinv.buffered_fits hp hbuf) (by decide +kernel)

end Libogc
