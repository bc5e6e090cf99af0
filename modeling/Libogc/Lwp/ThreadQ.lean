import Libogc.Lwp.Threads
import Mathlib.Data.Fintype.Card
/-!
# ThreadQ — `lwp_threadq.c`: the queues threads block on

A thread queue is a fifo list, or four header lists of leaders, one for each quarter of the priorities; a leader carries
the chain of the threads of its priority that came after it.  `__lwp_threadqueue_enqueue` runs with dispatching disabled
but interrupts enabled: it sets the thread's state, starts its timer, searches its place and links it, and between any two
of these an interrupt may dequeue or time out, which it learns from `sync_state`.  `Enq` is where the thread is in it and
`enqNext` is what it does next; everything else here runs with interrupts disabled.
-/
namespace Libogc

open Links

set_option linter.unusedSectionVars false

variable {T W : Type} [DecidableEq T] [DecidableEq W]

/-! ## The thread's timer

`lwp_watchdog.c` keeps the timers in a list by expiry; of it the queues see only whether a timer can still fire. -/

def lwpWdInitialize (k : Kernel T W) (t : T) : Kernel T W := k.setThr t ({ · with timer := .inactive })
def lwpWdInsertTicks (k : Kernel T W) (t : T) : Kernel T W := k.setThr t ({ · with timer := .active })
def lwpWdDeactivate (k : Kernel T W) (t : T) : Kernel T W := k.setThr t ({ · with timer := .remove })
def lwpWdRemoveTicks (k : Kernel T W) (t : T) : Kernel T W := k.setThr t ({ · with timer := .inactive })
def lwpWdIsactive (k : Kernel T W) (t : T) : Bool := (k.thr t).timer = .active

/-- Every path that takes a thread off a queue stops its timer this way. -/
def stopTimer (k : Kernel T W) (t : T) : Kernel T W :=
  if !lwpWdIsactive k t then k else lwpWdRemoveTicks (lwpWdDeactivate k t) t

/-! ## Initialisation and inspection -/

def lwpThreadqueueInit (k : Kernel T W) (w : W) (mode : ThreadqMode) (state timeoutStatus : BitVec 32) : Kernel T W :=
  let k := k.setTq w (fun _ => { state, mode, timeoutStatus, syncState := .synchronized })
  match mode with
  | .fifo => { k with mem := lwpQueueInitEmpty k.mem (.wait w 0) }
  | .priority => { k with mem := (List.finRange 4).foldl (fun m i => lwpQueueInitEmpty m (.wait w i)) k.mem }

def lwpThreadqueueCsenter (k : Kernel T W) (w : W) : Kernel T W := k.setTq w ({ · with syncState := .nothinghappend })

/-- `thethread->wait.ret_code = thethread->wait.queue->timeout_status`. -/
def waitTimeout (k : Kernel T W) (t : T) : Kernel T W :=
  match (k.thr t).wait.queue with
  | some w => k.setThr t (fun l => { l with wait := { l.wait with retCode := (k.tq w).timeoutStatus } })
  | none => k

/-! ## Taking a thread off -/

/-- What a dequeue that finds no thread on the lists does. -/
def lwpThreadqueueNobody (k : Kernel T W) (w : W) : Kernel T W × Option T :=
  match (k.tq w).syncState with
  | .synchronized | .satisfied => (k, none)
  | .nothinghappend | .timeout => (k.setTq w ({ · with syncState := .satisfied }), some k.executing)

def lwpThreadqueueDequeuefifo (k : Kernel T W) (w : W) : Kernel T W × Option T :=
  if !lwpQueueIsempty k.mem (.wait w 0) then
    let (m, ret) := lwpQueueFirstnodeI k.mem (.wait w 0)
    match ret with
    | .node t => (lwpThreadUnblock (stopTimer { k with mem := m } t) t, some t)
    | _ => ({ k with mem := m }, none)
  else lwpThreadqueueNobody k w

/-- The unlinking `dequeuepriority` and `extractpriority` share: a leader's first chained thread takes its place and the
rest of the chain. -/
def lwpThreadqueueUnlink (m : Mem (QId T W) T) (t : T) : Mem (QId T W) T :=
  let newfirst := m (.first (.block2n t))
  let next := m (.next t)
  let prev := m (.prev t)
  if !lwpQueueIsempty m (.block2n t) then
    let last := m (.last (.block2n t))
    let newsec := m.next newfirst
    let m := m.setNext prev newfirst
    let m := m.setPrev next newfirst
    let m := m.setNext newfirst next
    let m := m.setPrev newfirst prev
    if !lwpQueueOnenode m (.block2n t) then
      match newfirst with
      | .node f =>
        let m := m.setPrev newsec (.head (.block2n f))
        let m := m.set (.first (.block2n f)) newsec
        let m := m.set (.last (.block2n f)) last
        m.setNext last (.tail (.block2n f))
      | _ => m
    else m
  else
    let m := m.setNext prev next
    m.setPrev next prev

/-- The first header list that is not empty. -/
def firstHeader (m : Mem (QId T W) T) (w : W) : Option (Fin 4) :=
  (List.finRange 4).find? (fun i => !lwpQueueIsempty m (.wait w i))

def lwpThreadqueueDequeuepriority (k : Kernel T W) (w : W) : Kernel T W × Option T :=
  match firstHeader k.mem w with
  | some i =>
    match k.mem (.first (.wait w i)) with
    | .node t => (lwpThreadUnblock (stopTimer { k with mem := lwpThreadqueueUnlink k.mem t } t) t, some t)
    | _ => (k, none)
  | none => lwpThreadqueueNobody k w

def lwpThreadqueueDequeue (k : Kernel T W) (w : W) : Kernel T W × Option T :=
  match (k.tq w).mode with
  | .fifo => lwpThreadqueueDequeuefifo k w
  | .priority => lwpThreadqueueDequeuepriority k w

/-- `__lwp_threadqueue_flush`.  Each round takes one thread off, so the number of threads bounds the loop. -/
def lwpThreadqueueFlush (w : W) (status : BitVec 32) : Nat → Kernel T W → Kernel T W
  | 0, k => k
  | n + 1, k =>
    match lwpThreadqueueDequeue k w with
    | (k, some t) =>
      lwpThreadqueueFlush w status n (k.setThr t (fun l => { l with wait := { l.wait with retCode := status } }))
    | (k, none) => k

def lwpThreadqueueExtractfifo (k : Kernel T W) (t : T) : Kernel T W :=
  if !lwpStatewaitthreadqueue (k.thr t).curState then k
  else lwpThreadUnblock (stopTimer { k with mem := lwpQueueExtractI k.mem t } t) t

def lwpThreadqueueExtractpriority (k : Kernel T W) (t : T) : Kernel T W :=
  if lwpStatewaitthreadqueue (k.thr t).curState then
    lwpThreadUnblock (stopTimer { k with mem := lwpThreadqueueUnlink k.mem t } t) t
  else k

def lwpThreadqueueExtract (k : Kernel T W) (w : W) (t : T) : Kernel T W :=
  match (k.tq w).mode with
  | .fifo => lwpThreadqueueExtractfifo k t
  | .priority => lwpThreadqueueExtractpriority k t

/-- `__lwp_threadqueue_timeout`: an expiry that finds its thread still on its way in leaves a note, any other takes the
thread off. -/
def lwpThreadqueueTimeout (k : Kernel T W) (t : T) : Kernel T W :=
  match (k.thr t).wait.queue with
  | some w =>
    if (k.tq w).syncState ≠ .synchronized ∧ lwpThreadIsexec k t then
      if (k.tq w).syncState ≠ .satisfied then k.setTq w ({ · with syncState := .timeout }) else k
    else lwpThreadqueueExtract (waitTimeout k t) w t
  | none => k

/-- `__lwp_wd_tickle` on a timer that is due: it is taken off the list, and its routine runs. -/
def lwpWdTickle (k : Kernel T W) (t : T) : Kernel T W := lwpThreadqueueTimeout (lwpWdRemoveTicks k t) t

/-! ## Putting a thread on -/

/-- What an enqueue does that was overtaken: the thread goes on at once. -/
def lwpThreadqueueSynchronize (k : Kernel T W) (w : W) (t : T) : Kernel T W :=
  let syncState := (k.tq w).syncState
  let k := k.setTq w ({ · with syncState := .synchronized })
  let k :=
    match syncState with
    | .synchronized | .nothinghappend => k
    | .timeout => waitTimeout k t
    | .satisfied => stopTimer k t
  lwpThreadUnblock k t

def lwpThreadqueueEnqueuefifo (k : Kernel T W) (w : W) (t : T) : Kernel T W :=
  match (k.tq w).syncState with
  | .nothinghappend =>
    let k := k.setTq w ({ · with syncState := .synchronized })
    { k with mem := lwpQueueAppendI k.mem (.wait w 0) t }
  | _ => lwpThreadqueueSynchronize k w t

/-- Four writes that link a node before another, and the four that link it after another. -/
def linkBefore (m : Mem (QId T W) T) (searchNode : Link (QId T W) T) (t : T) : Mem (QId T W) T :=
  let prevNode := m.prev searchNode
  let m := m.setNext (.node t) searchNode
  let m := m.setPrev (.node t) prevNode
  let m := m.setNext prevNode (.node t)
  m.setPrev searchNode (.node t)

def linkAfter (m : Mem (QId T W) T) (searchNode : Link (QId T W) T) (t : T) : Mem (QId T W) T :=
  let nextNode := m.next searchNode
  let m := m.setNext (.node t) nextNode
  let m := m.setPrev (.node t) searchNode
  let m := m.setNext searchNode (.node t)
  m.setPrev nextNode (.node t)

/-- `prio/LWP_THREADQ_PRIOPERHEADER` and `prio&LWP_THREADQ_REVERSESEARCHMASK`. -/
def headerIdx (prio : Fin 256) : Fin 4 := ⟨prio.val / 64, by omega⟩
def reverseSearch (prio : Fin 256) : Bool := prio.val &&& 0x20 ≠ 0

/-- Where the executing thread is in `__lwp_threadqueue_enqueue`: about to set its state, to start its timer, to enter the
queue's own function, or inside a search with interrupts let in while `search_thread` is `c`. -/
inductive EnqPc (T : Type) where
  | setstate
  | timer
  | link
  | search (c : T) (searchPrio : Nat)
  deriving DecidableEq, Repr

/-- A thread on its way into a queue. -/
structure Enq (T W : Type) where
  thread : T
  queue : W
  timeout : Bool
  pc : EnqPc T
  deriving DecidableEq, Repr

/-- The initial `search_prio` and `search_thread` of either search. -/
def searchStart (m : Mem (QId T W) T) (w : W) (prio : Fin 256) : Link (QId T W) T × Nat :=
  if reverseSearch prio then (m (.last (.wait w (headerIdx prio))), 256)
  else (m (.first (.wait w (headerIdx prio))), 0xffffffff)

/-- After the search: the thread is linked next to `search_thread`, or behind its chain when their priorities are equal,
unless it was overtaken. -/
def searchDone (k : Kernel T W) (w : W) (t : T) (a : Link (QId T W) T) (searchPrio : Nat) : Kernel T W :=
  if (k.tq w).syncState ≠ .nothinghappend then lwpThreadqueueSynchronize k w t
  else
    let k := k.setTq w ({ · with syncState := .synchronized })
    let prio := (k.thr t).curPrio
    if prio.val = searchPrio then
      match a with
      | .node c => { k with mem := linkBefore k.mem (.tail (.block2n c)) t }
      | _ => k
    else if reverseSearch prio then { k with mem := linkAfter k.mem a t }
    else { k with mem := linkBefore k.mem a t }

/-- The test that ends either search. -/
def searchStops (prio searchPrio : Fin 256) : Bool :=
  if reverseSearch prio then searchPrio ≤ prio else prio ≤ searchPrio

/-- One round of either search loop, up to the point where interrupts are let in. -/
def searchRound (k : Kernel T W) (e : Enq T W) (pos : Link (QId T W) T × Nat) : Kernel T W × Option (Enq T W) :=
  let prio := (k.thr e.thread).curPrio
  match pos.1 with
  | .node c =>
    let searchPrio := (k.thr c).curPrio
    if searchStops prio searchPrio then
      (searchDone k e.queue e.thread (.node c) searchPrio, none)
    else (k, some { e with pc := .search c searchPrio })
  | a => (searchDone k e.queue e.thread a pos.2, none)

/-- After the interrupts: a `search_thread` that was taken off meanwhile starts the search over. -/
def searchNext (k : Kernel T W) (e : Enq T W) (c : T) (searchPrio : Nat) : Link (QId T W) T × Nat :=
  let prio := (k.thr e.thread).curPrio
  if !lwpStatesset (k.thr c).curState (k.tq e.queue).state then searchStart k.mem e.queue prio
  else if reverseSearch prio then (k.mem (.prev c), searchPrio)
  else (k.mem (.next c), searchPrio)

/-- **What the executing thread does next in `__lwp_threadqueue_enqueue`**, with no thread left in it at the end. -/
def enqNext (k : Kernel T W) (e : Enq T W) : Kernel T W × Option (Enq T W) :=
  match e.pc with
  | .setstate => (lwpThreadSetstate k e.thread (k.tq e.queue).state, some { e with pc := .timer })
  | .timer =>
    let k := if e.timeout then lwpWdInsertTicks (lwpWdInitialize k e.thread) e.thread else k
    (k, some { e with pc := .link })
  | .link =>
    match (k.tq e.queue).mode with
    | .fifo => (lwpThreadqueueEnqueuefifo k e.queue e.thread, none)
    | .priority =>
      let k := { k with mem := lwpQueueInitEmpty k.mem (.block2n e.thread) }
      searchRound k e (searchStart k.mem e.queue (k.thr e.thread).curPrio)
  | .search c searchPrio => searchRound k e (searchNext k e c searchPrio)

/-- `__lwp_threadqueue_enqueue` when no interrupt comes in between. -/
def lwpThreadqueueEnqueue : Nat → Kernel T W → Enq T W → Kernel T W × Option (Enq T W)
  | 0, k, e => (k, some e)
  | n + 1, k, e =>
    match enqNext k e with
    | (k, some e) => lwpThreadqueueEnqueue n k e
    | (k, none) => (k, none)

end Libogc
