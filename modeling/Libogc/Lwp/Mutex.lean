import Libogc.Lwp.Sema
/-!
# Mutex — `lwp_mutex.c` and the calls of `mutex.c`

The owner, the nesting count and the wait queue of a mutex, and the system of all mutexes and their users: threads inside
`LWP_MutexLock` and its variants, threads that unlock, and expiring timers.  A thread may hold some mutexes while it waits
for another one.  One thread at a time is inside a kernel call (`MutexPhase`); interrupts come in between its steps.
-/
namespace Libogc

open Links Runs

set_option linter.unusedSectionVars false

variable {T W : Type} [DecidableEq T] [DecidableEq W]

/-- `LWP_MUTEX_*`: what `wait.ret_code` and the calls report. -/
def mutexSuccessful : BitVec 32 := 0
def mutexUnsatisfiedNowait : BitVec 32 := 1
def mutexNestNotallowed : BitVec 32 := 2
def mutexNotowner : BitVec 32 := 3
def mutexDeleted : BitVec 32 := 4
def mutexTimeout : BitVec 32 := 5
def mutexCeilingviol : BitVec 32 := 6

inductive MutexMode where
  | fifo
  | priority
  | inheritprio
  | priorityceil
  deriving DecidableEq, Repr

inductive NestBehavior where
  | acquire
  | error
  | block
  deriving DecidableEq, Repr

inductive MutexLock where
  | locked
  | unlocked
  deriving DecidableEq, Repr

/-- `lwp_mutex_attr`. -/
structure MutexAttr where
  mode : MutexMode
  nestBehavior : NestBehavior
  prioceil : Fin 256
  onlyownerrelease : Bool
  deriving DecidableEq, Repr

/-- `lwp_mutex`, its wait queue apart. -/
structure LwpMutex (T : Type) where
  attrs : MutexAttr
  lock : MutexLock
  nestCnt : BitVec 32
  blockedCnt : BitVec 32
  holder : Option T
  deriving DecidableEq, Repr

/-- `__lwp_mutex_isinheritprio(attrs) || __lwp_mutex_isprioceiling(attrs)`. -/
def MutexAttr.counts (a : MutexAttr) : Bool := a.mode = .inheritprio || a.mode = .priorityceil

def Kernel.addRes (k : Kernel T W) (t : T) (d : BitVec 32) : Kernel T W := k.setThr t (fun l => { l with resCnt := l.resCnt + d })

def MutexAttr.queueMode (a : MutexAttr) : ThreadqMode := if a.mode = .fifo then .fifo else .priority

/-- `__lwp_mutex_initialize` of an unlocked mutex. -/
def lwpMutexInitialize (k : Kernel T W) (w : W) (attrs : MutexAttr) : Kernel T W × LwpMutex T :=
  (lwpThreadqueueInit k w attrs.queueMode stWaitingForMutex mutexTimeout, ⟨attrs, .unlocked, 0, 0, none⟩)

/-- `__lwp_mutex_seize_irq_trylock`; it returns true when the caller has to wait. -/
def lwpMutexSeizeIrqTrylock (k : Kernel T W) (mutex : LwpMutex T) : Kernel T W × LwpMutex T × Bool :=
  let exec := k.executing
  let k := k.setRetCode exec mutexSuccessful
  if mutex.lock ≠ .locked then
    let mutex := { mutex with lock := .locked, holder := some exec, nestCnt := 1 }
    let k := if mutex.attrs.counts then k.addRes exec 1 else k
    if mutex.attrs.mode ≠ .priorityceil then (k, mutex, false)
    else
      let prioceiling := mutex.attrs.prioceil
      let priocurr := (k.thr exec).curPrio
      if priocurr = prioceiling then (k, mutex, false)
      else if priocurr > prioceiling then (lwpThreadChangepriority k exec prioceiling false, mutex, false)
      else ((k.setRetCode exec mutexCeilingviol).addRes exec (-1), { mutex with nestCnt := 0 }, false)
  else if mutex.holder = some exec then
    match mutex.attrs.nestBehavior with
    | .acquire => (k, { mutex with nestCnt := mutex.nestCnt + 1 }, false)
    | .error => (k.setRetCode exec mutexNestNotallowed, mutex, false)
    | .block => (k, mutex, true)
  else (k, mutex, true)

/-- `__lwp_mutex_seize` up to the call of `__lwp_mutex_seize_irq_blocking`, if it comes to that. -/
def lwpMutexSeize (k : Kernel T W) (mutex : LwpMutex T) (w : W) (waitStatus : BitVec 32) (timeout : Bool) :
    Kernel T W × LwpMutex T × Option (Enq T W) :=
  let (k, mutex, wait) := lwpMutexSeizeIrqTrylock k mutex
  if wait then
    if waitStatus ≠ 0 then (k.setRetCode k.executing waitStatus, mutex, none)
    else
      let exec := k.executing
      let k := lwpThreadqueueCsenter k w
      let k := k.setThr exec (fun l => { l with wait := { l.wait with queue := some w } })
      (k, mutex, some ⟨exec, w, timeout, .setstate⟩)
  else (k, mutex, none)

/-- What `__lwp_mutex_seize_irq_blocking` does before it enqueues the thread: the holder inherits its priority. -/
def lwpMutexInherit (k : Kernel T W) (mutex : LwpMutex T) : Kernel T W × LwpMutex T :=
  let exec := k.executing
  let k :=
    match mutex.attrs.mode, mutex.holder with
    | .inheritprio, some holder =>
      if (k.thr holder).curPrio > (k.thr exec).curPrio then lwpThreadChangepriority k holder (k.thr exec).curPrio false
      else k
    | _, _ => k
  (k, { mutex with blockedCnt := mutex.blockedCnt + 1 })

/-- What it does after: the priority ceiling of a mutex that was acquired. -/
def lwpMutexCeiling (k : Kernel T W) (mutex : LwpMutex T) : Kernel T W :=
  let exec := k.executing
  if (k.thr exec).wait.retCode = mutexSuccessful ∧ mutex.attrs.mode = .priorityceil ∧
      mutex.attrs.prioceil < (k.thr exec).curPrio then
    lwpThreadChangepriority k exec mutex.attrs.prioceil false
  else k

/-- `__lwp_mutex_surrender` up to the dequeue: a status when it returns before that. -/
def lwpMutexRelease (k : Kernel T W) (mutex : LwpMutex T) : Kernel T W × LwpMutex T × Option (BitVec 32) :=
  let holder := mutex.holder
  if mutex.attrs.onlyownerrelease ∧ holder ≠ some k.executing then (k, mutex, some mutexNotowner)
  else if mutex.nestCnt = 0 then (k, mutex, some mutexSuccessful)
  else
    let mutex := { mutex with nestCnt := mutex.nestCnt - 1 }
    if mutex.nestCnt ≠ 0 ∧ mutex.attrs.nestBehavior = .acquire then (k, mutex, some mutexSuccessful)
    else if mutex.nestCnt ≠ 0 ∧ mutex.attrs.nestBehavior = .error then (k, mutex, some mutexNestNotallowed)
    else
      let mutex := { mutex with holder := none }
      match holder with
      | some holder =>
        let k := if mutex.attrs.counts then k.addRes holder (-1) else k
        let k :=
          if mutex.attrs.counts ∧ (k.thr holder).resCnt = 0 ∧ (k.thr holder).realPrio ≠ (k.thr holder).curPrio then
            lwpThreadChangepriority k holder (k.thr holder).realPrio true
          else k
        (k, mutex, none)
      | none => (k, mutex, none)

/-- The rest of it: the mutex passes to the next thread, or is free. -/
def lwpMutexHandover (k : Kernel T W) (mutex : LwpMutex T) (w : W) : Kernel T W × LwpMutex T :=
  match lwpThreadqueueDequeue k w with
  | (k, some t) =>
    (if mutex.attrs.counts then k.addRes t 1 else k, { mutex with nestCnt := 1, holder := some t })
  | (k, none) => (k, { mutex with lock := .unlocked })

/-! ## The calls -/

/-- `LWP_MutexLock`, `LWP_MutexTimedLock` with a time to wait that is already over or not, and `LWP_MutexTryLock`. -/
inductive MutexCall where
  | lock
  | timedLock (due : Bool)
  | tryLock
  deriving DecidableEq, Repr

def MutexCall.waitStatus : MutexCall → BitVec 32
  | .lock => mutexSuccessful
  | .timedLock due => if due then mutexTimeout else mutexSuccessful
  | .tryLock => mutexUnsatisfiedNowait

def MutexCall.timeout : MutexCall → Bool
  | .timedLock _ => true
  | .lock | .tryLock => false

/-- The `switch` that ends `__lwp_mutex_locksupp` and `LWP_MutexUnlock`. -/
def mutexErrno (status : BitVec 32) : Errno :=
  if status = mutexUnsatisfiedNowait then .ebusy
  else if status = mutexNestNotallowed then .edeadlk
  else if status = mutexNotowner then .eperm
  else if status = mutexDeleted then .einval
  else if status = mutexTimeout then .etimedout
  else if status = mutexCeilingviol then .einval
  else .ok

/-- The attributes `LWP_MutexInit` gives a mutex. -/
def mutexAttr (useRecursive : Bool) : MutexAttr where
  mode := .inheritprio
  nestBehavior := if useRecursive then .acquire else .error
  prioceil := 1
  onlyownerrelease := true

/-! ## The system -/

/-- What the thread inside a kernel call is about to do. -/
inductive MutexPhase (T W : Type) where
  | idle
  | inheriting (e : Enq T W)
  | entering (e : Enq T W)
  | unlocking (w : W)
  deriving DecidableEq, Repr

def MutexPhase.enq : MutexPhase T W → Option (Enq T W)
  | .inheriting e | .entering e => some e
  | .idle | .unlocking _ => none

/-- The mutexes and their users.  `calls t` is the mutex that thread `t` is inside a lock call of, and `depth` counts the lock
calls of a mutex by a thread that returned 0 less the unlock calls that did. -/
structure MutexState (T W : Type) where
  kernel : Kernel T W
  mutex : W → LwpMutex T
  phase : MutexPhase T W
  calls : T → Option W
  depth : W → T → Nat

inductive MutexEvent (T W : Type) where
  | lock (t : T) (w : W) (call : MutexCall)
  | inherit
  | enqueue
  | ret (t : T)
  | unlock (t : T) (w : W)
  | handover
  | expire (t : T)
  deriving DecidableEq, Repr

def MutexState.setMutex (s : MutexState T W) (w : W) (mutex : LwpMutex T) : W → LwpMutex T := Function.update s.mutex w mutex

def MutexState.setDepth (s : MutexState T W) (w : W) (t : T) (n : Nat) : W → T → Nat :=
  Function.update s.depth w (Function.update (s.depth w) t n)

/-- What `LWP_MutexUnlock` of `w` by `t` returns. -/
def MutexState.unlockErrno (s : MutexState T W) (t : T) (w : W) : Errno :=
  mutexErrno ((lwpMutexRelease { s.kernel with executing := t } (s.mutex w)).2.2.getD mutexSuccessful)

def mutexNext (s : MutexState T W) : MutexEvent T W → MutexState T W
  | .lock t w call =>
    let (k, mutex, e) := lwpMutexSeize { s.kernel with executing := t } (s.mutex w) w call.waitStatus call.timeout
    { s with
      kernel := k, mutex := s.setMutex w mutex
      phase := (e.map MutexPhase.inheriting).getD .idle
      calls := Function.update s.calls t (some w) }
  | .inherit =>
    match s.phase with
    | .inheriting e =>
      let (k, mutex) := lwpMutexInherit s.kernel (s.mutex e.queue)
      { s with kernel := k, mutex := s.setMutex e.queue mutex, phase := .entering e }
    | _ => s
  | .enqueue =>
    match s.phase with
    | .entering e =>
      match enqNext s.kernel e with
      | (k, some e') => { s with kernel := k, phase := .entering e' }
      | (k, none) => { s with kernel := lwpMutexCeiling k (s.mutex e.queue), phase := .idle }
    | _ => s
  | .ret t =>
    match s.calls t with
    | some w =>
      { s with
        calls := Function.update s.calls t none
        depth :=
          if mutexErrno (s.kernel.thr t).wait.retCode = .ok then s.setDepth w t (s.depth w t + 1) else s.depth }
    | none => s
  | .unlock t w =>
    let (k, mutex, status) := lwpMutexRelease { s.kernel with executing := t } (s.mutex w)
    { s with
      kernel := k, mutex := s.setMutex w mutex
      phase := if status.isSome then .idle else .unlocking w
      depth := if s.unlockErrno t w = .ok then s.setDepth w t (s.depth w t - 1) else s.depth }
  | .handover =>
    match s.phase with
    | .unlocking w =>
      let (k, mutex) := lwpMutexHandover s.kernel (s.mutex w) w
      { s with kernel := k, mutex := s.setMutex w mutex, phase := .idle }
    | _ => s
  | .expire t => { s with kernel := lwpWdTickle s.kernel t }

theorem lwpMutexCeiling_eq (k : Kernel T W) {m : LwpMutex T} {r : Bool} (ha : m.attrs = mutexAttr r) : lwpMutexCeiling k m = k := by
  unfold lwpMutexCeiling
  rw [ha]
  exact if_neg fun h => by cases h.2.1

theorem mutexNext_enqueue {s : MutexState T W} {e : Enq T W} (hph : s.phase = .entering e) {r : Bool}
    (ha : (s.mutex e.queue).attrs = mutexAttr r) : mutexNext s .enqueue =
      { s with kernel := (enqNext s.kernel e).1, phase := ((enqNext s.kernel e).2.map MutexPhase.entering).getD .idle } := by
  simp only [mutexNext, hph]
  rcases enqNext s.kernel e with ⟨k, _ | e'⟩
  · dsimp only
    rw [lwpMutexCeiling_eq k ha]
    rfl
  · rfl

/-- A thread acts when it is ready and no other thread is inside a kernel call; timers expire at any time. -/
def mutexGuard (s : MutexState T W) : MutexEvent T W → Prop
  | .lock t _ _ => s.phase = .idle ∧ s.kernel.Ready t ∧ s.calls t = none
  | .inherit => ∃ e, s.phase = .inheriting e
  | .enqueue => ∃ e, s.phase = .entering e
  | .ret t => s.phase = .idle ∧ s.kernel.Ready t ∧ (s.calls t).isSome
  | .unlock t _ => s.phase = .idle ∧ s.kernel.Ready t ∧ s.calls t = none
  | .handover => ∃ w, s.phase = .unlocking w
  | .expire t => (s.kernel.thr t).timer = .active

instance (s : MutexState T W) : ∀ e, Decidable (mutexGuard s e)
  | .lock _ _ _ | .ret _ | .unlock _ _ => inferInstanceAs (Decidable (_ ∧ _ ∧ _))
  | .inherit =>
    match h : s.phase with
    | .inheriting e => isTrue ⟨e, h⟩
    | .idle | .entering _ | .unlocking _ => isFalse fun ⟨_, he⟩ => by rw [h] at he; cases he
  | .enqueue =>
    match h : s.phase with
    | .entering e => isTrue ⟨e, h⟩
    | .idle | .inheriting _ | .unlocking _ => isFalse fun ⟨_, he⟩ => by rw [h] at he; cases he
  | .handover =>
    match h : s.phase with
    | .unlocking w => isTrue ⟨w, h⟩
    | .idle | .inheriting _ | .entering _ => isFalse fun ⟨_, he⟩ => by rw [h] at he; cases he
  | .expire _ => inferInstanceAs (Decidable (_ = _))

/-- **The mutexes and everybody who uses them.** -/
def mutexSystem : System (MutexState T W) (MutexEvent T W) where
  enabled := mutexGuard
  next := mutexNext

instance (s : MutexState T W) (e : MutexEvent T W) : Decidable (mutexSystem.enabled s e) :=
  inferInstanceAs (Decidable (mutexGuard s e))

/-- The mutexes `ws` as `LWP_MutexInit` creates them, on a kernel without thread queues. -/
def mutexStart (k : Kernel T W) (ws : List W) (useRecursive : W → Bool) : MutexState T W where
  kernel := ws.foldl (fun k w => (lwpMutexInitialize k w (mutexAttr (useRecursive w))).1) k
  mutex w := (lwpMutexInitialize k w (mutexAttr (useRecursive w))).2
  phase := .idle
  calls _ := none
  depth _ _ := 0

end Libogc
