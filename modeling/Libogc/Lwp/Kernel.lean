import Libogc.Lwp.Priority
import Libogc.Lwp.Queue
import Mathlib.Data.List.FinRange
/-!
# Kernel — the thread control blocks and the scheduler's variables

One state for `lwp_threads.c` and everything above it.  Threads are a type `T` (the slots of the thread object table),
thread queues a type `W` (one for each semaphore, mutex, message queue and so on); both stay variables.  A thread's node
is on a ready queue, on a header list of a thread queue, or on the chain of another waiting thread, never on two of them,
and the same memory holds all of these.
-/
namespace Libogc

open Links

/-- `LWP_STATES_*`: the bits of `cur_state`. -/
def stReady : BitVec 32 := 0x00000000
def stDormant : BitVec 32 := 0x00000001
def stSuspended : BitVec 32 := 0x00000002
def stTransient : BitVec 32 := 0x00000004
def stDelaying : BitVec 32 := 0x00000008
def stWaitingForTime : BitVec 32 := 0x00000010
def stWaitingForBuffer : BitVec 32 := 0x00000020
def stWaitingForSegment : BitVec 32 := 0x00000040
def stWaitingForMessage : BitVec 32 := 0x00000080
def stWaitingForEvent : BitVec 32 := 0x00000100
def stWaitingForMutex : BitVec 32 := 0x00000200
def stWaitingForSemaphore : BitVec 32 := 0x00000400
def stWaitingForCondvar : BitVec 32 := 0x00000800
def stWaitingForJoin : BitVec 32 := 0x00001000
def stWaitingForRpcreply : BitVec 32 := 0x00002000
def stWaitingForPeriod : BitVec 32 := 0x00004000
def stWaitingForSignal : BitVec 32 := 0x00008000
def stWaitingForJoinatexit : BitVec 32 := 0x00010000
def stInterruptibleBySignal : BitVec 32 := 0x10000000

def stLocallyBlocked : BitVec 32 :=
  stWaitingForBuffer ||| stWaitingForSegment ||| stWaitingForMessage ||| stWaitingForSemaphore ||| stWaitingForMutex |||
    stWaitingForCondvar ||| stWaitingForJoin ||| stWaitingForSignal
def stWaitingOnThreadq : BitVec 32 := stLocallyBlocked ||| stWaitingForRpcreply
def stBlocked : BitVec 32 :=
  stDelaying ||| stWaitingForTime ||| stWaitingForPeriod ||| stWaitingForEvent ||| stWaitingOnThreadq |||
    stInterruptibleBySignal

/-! ## `lwp_states.inl` -/

def lwpSetstate (currState stateset : BitVec 32) : BitVec 32 := currState ||| stateset
def lwpClearstate (currState stateclear : BitVec 32) : BitVec 32 := currState &&& ~~~stateclear
def lwpStateready (currState : BitVec 32) : Bool := currState = stReady
def lwpStatedormant (currState : BitVec 32) : Bool := currState &&& stDormant ≠ 0
def lwpStatesuspended (currState : BitVec 32) : Bool := currState &&& stSuspended ≠ 0
def lwpStatewaitthreadqueue (currState : BitVec 32) : Bool := currState &&& stWaitingOnThreadq ≠ 0
def lwpStatesset (currState mask : BitVec 32) : Bool := currState &&& mask ≠ stReady

/-! ## The control blocks -/

/-- `LWP_THREADQ_*`: what happened to the thread that is about to be enqueued. -/
inductive SyncState where
  | synchronized
  | nothinghappend
  | timeout
  | satisfied
  deriving DecidableEq, Repr

inductive ThreadqMode where
  | fifo
  | priority
  deriving DecidableEq, Repr

/-- `LWP_WD_*`: the state of a thread's timer. -/
inductive WdState where
  | inactive
  | inserted
  | active
  | remove
  deriving DecidableEq, Repr

/-- The queues a thread's node can be on.  The fifo list of a thread queue is the first of its four priority headers, as
in the source's union. -/
inductive QId (T W : Type) where
  | ready (p : Fin 256)
  | wait (w : W) (i : Fin 4)
  | block2n (t : T)
  deriving DecidableEq, Repr

/-- `lwp_thrqueue`, its header lists apart. -/
structure ThrQueue where
  syncState : SyncState
  mode : ThreadqMode
  state : BitVec 32
  timeoutStatus : BitVec 32
  deriving DecidableEq, Repr

/-- `lwp_waitinfo`, its chain header apart. -/
structure WaitInfo (W : Type) where
  cnt : BitVec 32
  retCode : BitVec 32
  queue : Option W
  deriving DecidableEq, Repr

/-- `lwp_cntrl`.  `ready` is the index of the ready queue the source's field points at. -/
structure Lwp (W : Type) where
  curPrio : Fin 256
  realPrio : Fin 256
  suspendcnt : BitVec 32
  resCnt : BitVec 32
  curState : BitVec 32
  isPreemptible : Bool
  wait : WaitInfo W
  priomap : PrioCntrl
  timer : WdState
  ready : Fin 256
  deriving DecidableEq, Repr

structure Kernel (T W : Type) where
  mem : Mem (QId T W) T
  thr : T → Lwp W
  prio : PrioBitmap
  executing : T
  heir : Link (QId T W) T
  switchWant : Bool
  tq : W → ThrQueue

variable {T W : Type} [DecidableEq T] [DecidableEq W]

def Kernel.setThr (k : Kernel T W) (t : T) (f : Lwp W → Lwp W) : Kernel T W :=
  { k with thr := Function.update k.thr t (f (k.thr t)) }

def Kernel.setTq (k : Kernel T W) (w : W) (f : ThrQueue → ThrQueue) : Kernel T W :=
  { k with tq := Function.update k.tq w (f (k.tq w)) }

def Kernel.setState (k : Kernel T W) (t : T) (s : BitVec 32) : Kernel T W := k.setThr t ({ · with curState := s })

/-! ## `lwp_threads.inl` and `lwp_threads.c` -/

def lwpThreadIsexec (k : Kernel T W) (t : T) : Bool := t = k.executing
def lwpThreadIsheir (k : Kernel T W) (t : T) : Bool := .node t = k.heir

/-- `_lwp_thr_ready[i]`. -/
def readyAt (i : Nat) : QId T W := .ready (Fin.ofNat 256 i)

def lwpThreadCalcheir (k : Kernel T W) : Kernel T W :=
  { k with heir := k.mem (.first (readyAt (lwpPriomapHighest k.prio))) }

/-- The heir's priority is numerically larger than `p`.  The heir is read as a thread. -/
def heirBelow (k : Kernel T W) (p : Fin 256) : Bool :=
  match k.heir with
  | .node h => p < (k.thr h).curPrio
  | _ => false

/-- `_thr_heir->ready==ready`. -/
def heirReadyIs (k : Kernel T W) (p : Fin 256) : Bool :=
  match k.heir with
  | .node h => (k.thr h).ready = p
  | _ => false

def lwpThreadYield (k : Kernel T W) : Kernel T W :=
  let exec := k.executing
  let ready := (k.thr exec).ready
  if !lwpQueueOnenode k.mem (.ready ready) then
    let k := { k with mem := lwpQueueExtractI k.mem exec }
    let k := { k with mem := lwpQueueAppendI k.mem (.ready ready) exec }
    let k := if lwpThreadIsheir k exec then { k with heir := k.mem (.first (.ready ready)) } else k
    { k with switchWant := true }
  else if !lwpThreadIsheir k exec then { k with switchWant := true }
  else k

def lwpThreadResettimeslice (k : Kernel T W) : Kernel T W :=
  let exec := k.executing
  let ready := (k.thr exec).ready
  if lwpQueueOnenode k.mem (.ready ready) then k
  else
    let k := { k with mem := lwpQueueExtractI k.mem exec }
    let k := { k with mem := lwpQueueAppendI k.mem (.ready ready) exec }
    let k := if lwpThreadIsheir k exec then { k with heir := k.mem (.first (.ready ready)) } else k
    { k with switchWant := true }

/-- The node a link names, as the source's cast reads it. -/
def appendLink (m : Mem (QId T W) T) (q : QId T W) (a : Link (QId T W) T) : Mem (QId T W) T :=
  match a with
  | .node n => lwpQueueAppendI m q n
  | _ => m

/-- The first node of a ready queue goes to its back, unless it is alone. -/
def readyRotate (m : Mem (QId T W) T) (prio : Fin 256) : Mem (QId T W) T :=
  if !lwpQueueIsempty m (.ready prio) && !lwpQueueOnenode m (.ready prio) then
    let (m, node) := lwpQueueFirstnodeI m (.ready prio)
    appendLink m (.ready prio) node
  else m

def readyRotateHeir (k : Kernel T W) (prio : Fin 256) : Kernel T W :=
  if heirReadyIs k prio then { k with heir := k.mem (.first (.ready prio)) } else k

def lwpRotateReadyqueue (k : Kernel T W) (prio : Fin 256) : Kernel T W :=
  let exec := k.executing
  if (k.thr exec).ready = prio then lwpThreadYield k
  else
    let k := readyRotateHeir { k with mem := readyRotate k.mem prio } prio
    if !lwpThreadIsheir k exec then { k with switchWant := true } else k

/-- The removal every blocking operation inlines: the last thread of a priority also clears its bitmap mark. -/
def lwpReadyExtract (k : Kernel T W) (t : T) : Kernel T W :=
  let ready := (k.thr t).ready
  if lwpQueueOnenode k.mem (.ready ready) then
    { k with mem := lwpQueueInitEmpty k.mem (.ready ready), prio := lwpPriomapRemovefrom k.prio (k.thr t).priomap }
  else { k with mem := lwpQueueExtractI k.mem t }

/-- The insertion every unblocking operation inlines. -/
def lwpReadyAppend (k : Kernel T W) (t : T) : Kernel T W :=
  let k := { k with prio := lwpPriomapAddto k.prio (k.thr t).priomap }
  { k with mem := lwpQueueAppendI k.mem (.ready (k.thr t).ready) t }

/-- What the blocking operations do next: the heir is looked for again when it is the thread that left. -/
def lwpReadyBlock (k : Kernel T W) (t : T) : Kernel T W :=
  let k := lwpReadyExtract k t
  let k := if lwpThreadIsheir k t then lwpThreadCalcheir k else k
  if lwpThreadIsexec k t then { k with switchWant := true } else k

def lwpThreadSetstate (k : Kernel T W) (t : T) (state : BitVec 32) : Kernel T W :=
  if !lwpStateready (k.thr t).curState then k.setState t (lwpClearstate (k.thr t).curState state)
  else lwpReadyBlock (k.setState t state) t

/-- A thread that became ready takes over as heir only from a strictly less urgent one. -/
def lwpThreadPreempt (k : Kernel T W) (t : T) : Kernel T W :=
  if heirBelow k (k.thr t).curPrio then
    let k := { k with heir := .node t }
    if (k.thr k.executing).isPreemptible || (k.thr t).curPrio = 0 then { k with switchWant := true } else k
  else k

def lwpThreadClearstate (k : Kernel T W) (t : T) (state : BitVec 32) : Kernel T W :=
  if lwpStatesset (k.thr t).curState state then
    let curState := lwpClearstate (k.thr t).curState state
    let k := k.setState t curState
    if lwpStateready curState then lwpThreadPreempt (lwpReadyAppend k t) t else k
  else k

def lwpThreadUnblock (k : Kernel T W) (t : T) : Kernel T W := lwpThreadClearstate k t stBlocked

def lwpThreadSettransient (k : Kernel T W) (t : T) : Kernel T W :=
  let oldstates := (k.thr t).curState
  let k := k.setState t (lwpSetstate oldstates stTransient)
  if lwpStateready oldstates then lwpReadyExtract k t else k

def lwpThreadSetpriority (k : Kernel T W) (t : T) (prio : Fin 256) : Kernel T W :=
  k.setThr t ({ · with curPrio := prio, ready := prio, priomap := lwpPriomapInit prio })

def lwpThreadChangepriority (k : Kernel T W) (t : T) (prio : Fin 256) (prependit : Bool) : Kernel T W :=
  let k := lwpThreadSettransient k t
  let k := if (k.thr t).curPrio ≠ prio then lwpThreadSetpriority k t prio else k
  let k := k.setState t (lwpClearstate (k.thr t).curState stTransient)
  if !lwpStateready (k.thr t).curState then k
  else
    let k := { k with prio := lwpPriomapAddto k.prio (k.thr t).priomap }
    let k :=
      if prependit then { k with mem := lwpQueuePrependI k.mem (.ready (k.thr t).ready) t }
      else { k with mem := lwpQueueAppendI k.mem (.ready (k.thr t).ready) t }
    let k := lwpThreadCalcheir k
    if !lwpThreadIsheir k k.executing && (k.thr k.executing).isPreemptible then { k with switchWant := true } else k

def lwpThreadSuspend (k : Kernel T W) (t : T) : Kernel T W :=
  let k := k.setThr t (fun l => { l with suspendcnt := l.suspendcnt + 1 })
  if !lwpStateready (k.thr t).curState then k.setState t (lwpSetstate (k.thr t).curState stSuspended)
  else lwpReadyBlock (k.setState t stSuspended) t

def lwpThreadResume (k : Kernel T W) (t : T) (force : Bool) : Kernel T W :=
  let k := k.setThr t (fun l => { l with suspendcnt := if force then 0 else l.suspendcnt - 1 })
  if 0 < (k.thr t).suspendcnt then k
  else if lwpStatesuspended (k.thr t).curState then
    let state := lwpClearstate (k.thr t).curState stSuspended
    let k := k.setState t state
    if lwpStateready state then lwpThreadPreempt (lwpReadyAppend k t) t else k
  else k

def lwpThreadReady (k : Kernel T W) (t : T) : Kernel T W :=
  let k := k.setState t stReady
  let k := lwpReadyAppend k t
  let k := lwpThreadCalcheir k
  if !lwpThreadIsheir k k.executing && (k.thr k.executing).isPreemptible then { k with switchWant := true } else k

/-- `__thread_dispatch`: the heir becomes the executing thread, when a switch is wanted. -/
def threadDispatch (k : Kernel T W) : Kernel T W :=
  if k.switchWant then
    match k.heir with
    | .node h => { k with switchWant := false, executing := h }
    | _ => k
  else k

/-- `__lwp_thread_init`, of which the scheduler reads the priorities and the state. -/
def lwpThreadInit (k : Kernel T W) (t : T) (prio : Fin 256) (isPreemptible : Bool) : Kernel T W :=
  let k := k.setThr t (fun l => { l with
    wait := ⟨0, 0, none⟩, isPreemptible := isPreemptible, realPrio := prio, curState := stDormant, suspendcnt := 0,
    resCnt := 0 })
  lwpThreadSetpriority k t prio

/-- `__lwp_thread_coreinit`. -/
def lwpThreadCoreinit (k : Kernel T W) : Kernel T W :=
  { k with
    switchWant := false
    heir := .null
    mem := (List.finRange 256).foldl (fun m p => lwpQueueInitEmpty m (.ready p)) k.mem }

/-- `__lwp_priotocore(LWP_PRIO_IDLE)`. -/
def prioIdle : Fin 256 := 255

/-- `__lwp_sysinit` up to the start of the idle thread: the queues and the bitmap are empty, the idle thread runs. -/
def lwpSysinit (k : Kernel T W) (idle : T) : Kernel T W :=
  let k := { lwpThreadCoreinit k with prio := lwpPriorityInit }
  let k := lwpThreadInit k idle prioIdle true
  let k := { k with executing := idle, heir := .node idle }
  lwpThreadReady k idle

/-- The kernel's memory before anything ran: zeroed words and control blocks. -/
def zeroKernel (T W : Type) (t : T) : Kernel T W where
  mem := fun _ => .null
  thr := fun _ => ⟨0, 0, 0, 0, 0, false, ⟨0, 0, none⟩, lwpPriomapInit 0, .inactive, 0⟩
  prio := lwpPriorityInit
  executing := t
  heir := .null
  switchWant := false
  tq := fun _ => ⟨.synchronized, .fifo, 0, 0⟩

end Libogc
