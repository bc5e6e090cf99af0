import Libogc.Lwp.Mutex
/-!
# Cond — condition variables of `cond.c`

A condition variable with the mutex it is bound to, the mutexes its users hold, and the system of these users: threads inside
`LWP_CondWait` and `LWP_CondTimedWait`, threads and interrupt handlers that signal and broadcast, expiring timers, and the calls of
`mutex.c` that the waits are made of.  One thread at a time is inside a kernel call (`CondPhase`); interrupts come in between its steps.
-/
namespace Libogc

open Links Runs

set_option linter.unusedSectionVars false

/-- The wait queue of the condition variable, and those of the mutexes. -/
inductive CondQueue (M : Type) where
  | cond
  | mutex (m : M)
  deriving DecidableEq, Repr

/-- `ETIMEDOUT`, as the C library has it. -/
def condTimedout : BitVec 32 := 116

/-- `LWP_CondWait`, and `LWP_CondTimedWait` with a time to wait that is already over or not. -/
inductive CondWait where
  | wait
  | timedWait (due : Bool)
  deriving DecidableEq, Repr

def CondWait.timeout : CondWait → Bool
  | .wait => false
  | .timedWait _ => true

/-- A wait call that was let in.  A mutex is null, or a handle. -/
structure CondWaiter (T M : Type) where
  thread : T
  mutex : Option M
  call : CondWait
  deriving DecidableEq, Repr

/-- What the thread inside a kernel call is about to do. -/
inductive CondPhase (T M : Type) where
  | idle
  | inheriting (e : Enq T (CondQueue M))
  | entering (e : Enq T (CondQueue M))
  | unlocking (m : M) (wait : Option (CondWaiter T M))
  | unlocked (c : CondWaiter T M)
  | bound (c : CondWaiter T M)
  | signalling (isbroadcast : Bool)
  | clearing
  deriving DecidableEq, Repr

def CondPhase.enq {T M : Type} : CondPhase T M → Option (Enq T (CondQueue M))
  | .inheriting e | .entering e => some e
  | .idle | .unlocking _ _ | .unlocked _ | .bound _ | .signalling _ | .clearing => none

/-- The call that a thread is inside of: a lock call, or a wait before or after its time on the queue. -/
inductive CondCall (M : Type) where
  | none
  | locking
  | waiting (mutex : Option M)
  | relocking (mutex : Option M)
  deriving DecidableEq, Repr

def CondCall.isWaiting {M : Type} : CondCall M → Bool
  | .waiting _ => true
  | _ => false

def CondCall.isRelocking {M : Type} : CondCall M → Bool
  | .relocking _ => true
  | _ => false

variable {T M : Type} [DecidableEq T] [DecidableEq M]

/-- The condition variable and everything its users touch.  `handler` is the signal that an interrupt handler is inside of. -/
structure CondState (T M : Type) where
  kernel : Kernel T (CondQueue M)
  /-- The mutexes that can be opened. -/
  mutex : M → Option (LwpMutex T)
  /-- `thecond->lock`. -/
  lock : Option M
  phase : CondPhase T M
  handler : Option Bool
  calls : T → CondCall M

inductive CondEvent (T M : Type) where
  | lock (t : T) (mutex : Option M) (call : MutexCall)
  | inherit
  | enqueue
  | ret (t : T)
  | unlock (t : T) (mutex : Option M)
  | handover
  | wait (t : T) (mutex : Option M) (call : CondWait)
  | bind
  | enter
  | wake (t : T)
  | relock (t : T)
  | signal (t : T) (isbroadcast : Bool)
  | round
  | clear
  | isrSignal (isbroadcast : Bool)
  | isrRound
  | expire (t : T)
  deriving DecidableEq, Repr

/-! ## The calls -/

/-- `__lwp_mutex_open`. -/
def CondState.open (s : CondState T M) (mutex : Option M) : Option (M × LwpMutex T) :=
  mutex.bind fun m => (s.mutex m).map fun p => (m, p)

def CondState.switch (s : CondState T M) (t : T) : CondState T M := { s with kernel := { s.kernel with executing := t } }

def CondState.setMutex (s : CondState T M) (m : M) (p : LwpMutex T) : M → Option (LwpMutex T) := Function.update s.mutex m (some p)

def CondState.setCall (s : CondState T M) (t : T) (call : CondCall M) : CondState T M :=
  { s with calls := Function.update s.calls t call }

/-- `LWP_MutexLock` and its variants, up to the wait. -/
def CondState.lockCall (s : CondState T M) (t : T) (mutex : Option M) (call : MutexCall) : CondState T M :=
  match s.open mutex with
  | none => (s.switch t).setCall t .none
  | some (m, p) =>
    let (k, p, e) := lwpMutexSeize { s.kernel with executing := t } p (.mutex m) call.waitStatus call.timeout
    { s.setCall t .locking with kernel := k, mutex := s.setMutex m p, phase := (e.map CondPhase.inheriting).getD .idle }

/-- Where `LWP_MutexUnlock` returns to. -/
def CondPhase.afterUnlock : Option (CondWaiter T M) → CondPhase T M
  | none => .idle
  | some c => .unlocked c

/-- `LWP_MutexUnlock`, up to the dequeue. -/
def CondState.unlockCall (s : CondState T M) (t : T) (mutex : Option M) (wait : Option (CondWaiter T M)) : CondState T M :=
  match s.open mutex with
  | none => { s.switch t with phase := .afterUnlock wait }
  | some (m, p) =>
    let (k, p, status) := lwpMutexRelease { s.kernel with executing := t } p
    { s with kernel := k, mutex := s.setMutex m p, phase := if status.isSome then .afterUnlock wait else .unlocking m wait }

/-- The test that opens `__lwp_cond_waitsupp`. -/
def CondState.Rejects (s : CondState T M) (mutex : Option M) : Prop := s.lock ≠ none ∧ s.lock ≠ mutex

instance (s : CondState T M) (mutex : Option M) : Decidable (s.Rejects mutex) := inferInstanceAs (Decidable (_ ∧ _))

/-- `__lwp_threadqueue_csenter` and the thread's wait fields. -/
def condEnter (k : Kernel T (CondQueue M)) (t : T) : Kernel T (CondQueue M) :=
  (lwpThreadqueueCsenter k .cond).setThr t fun l => { l with wait := { l.wait with retCode := 0, queue := some .cond } }

def condNext (s : CondState T M) : CondEvent T M → CondState T M
  | .lock t mutex call => s.lockCall t mutex call
  | .inherit =>
    match s.phase with
    | .inheriting e =>
      match e.queue with
      | .cond => s
      | .mutex m =>
        match s.mutex m with
        | none => s
        | some p =>
          let (k, p) := lwpMutexInherit s.kernel p
          { s with kernel := k, mutex := s.setMutex m p, phase := .entering e }
    | _ => s
  | .enqueue =>
    match s.phase with
    | .entering e =>
      match enqNext s.kernel e with
      | (k, some e) => { s with kernel := k, phase := .entering e }
      | (k, none) =>
        let k :=
          match e.queue with
          | .cond => k
          | .mutex m => ((s.mutex m).map (lwpMutexCeiling k)).getD k
        { s with kernel := k, phase := .idle }
    | _ => s
  | .ret t => s.setCall t .none
  | .unlock t mutex => s.unlockCall t mutex none
  | .handover =>
    match s.phase with
    | .unlocking m wait =>
      match s.mutex m with
      | none => s
      | some p =>
        let (k, p) := lwpMutexHandover s.kernel p (.mutex m)
        { s with kernel := k, mutex := s.setMutex m p, phase := .afterUnlock wait }
    | _ => s
  | .wait t mutex call =>
    if s.Rejects mutex then s.switch t else (s.unlockCall t mutex (some ⟨t, mutex, call⟩)).setCall t (.waiting mutex)
  | .bind =>
    match s.phase with
    | .unlocked c =>
      if c.call = .timedWait true then { s.setCall c.thread (.relocking c.mutex) with phase := .idle }
      else { s with lock := c.mutex, phase := .bound c }
    | _ => s
  | .enter =>
    match s.phase with
    | .bound c => { s with kernel := condEnter s.kernel c.thread, phase := .entering ⟨c.thread, .cond, c.call.timeout, .setstate⟩ }
    | _ => s
  | .wake t =>
    let status := (s.kernel.thr t).wait.retCode
    match s.calls t with
    | .waiting mutex => if status ≠ 0 ∧ status ≠ condTimedout then s.setCall t .none else s.lockCall t mutex .lock
    | _ => s
  | .relock t =>
    match s.calls t with
    | .relocking mutex => s.lockCall t mutex .lock
    | _ => s
  | .signal t isbroadcast => { s.switch t with phase := .signalling isbroadcast }
  | .round =>
    match s.phase with
    | .signalling isbroadcast =>
      match lwpThreadqueueDequeue s.kernel .cond with
      | (k, none) => { s with kernel := k, phase := .clearing }
      | (k, some _) => { s with kernel := k, phase := if isbroadcast then .signalling true else .idle }
    | _ => s
  | .clear => { s with lock := none, phase := .idle }
  | .isrSignal isbroadcast => { s with handler := some isbroadcast }
  | .isrRound =>
    match lwpThreadqueueDequeue s.kernel .cond with
    | (k, none) => { s with kernel := k, lock := none, handler := none }
    | (k, some _) => { s with kernel := k, handler := if s.handler = some true then some true else none }
  | .expire t => { s with kernel := lwpWdTickle s.kernel t }

/-- A thread may begin a call, or go on with one. -/
def CondState.MayAct (s : CondState T M) (t : T) : Prop := s.phase = .idle ∧ s.handler = none ∧ s.kernel.Ready t

instance (s : CondState T M) (t : T) : Decidable (s.MayAct t) := inferInstanceAs (Decidable (_ ∧ _ ∧ _))

/-- The phases that an event belongs to. -/
def CondPhase.at : CondPhase T M → CondEvent T M → Bool
  | .inheriting _, .inherit | .entering _, .enqueue | .unlocking _ _, .handover | .unlocked _, .bind | .bound _, .enter => true
  | .signalling _, .round | .clearing, .clear => true
  | _, _ => false

/-- A thread acts when it is ready and no other thread is inside a kernel call.  Interrupts come at any time but inside a handler. -/
def condGuard (s : CondState T M) : CondEvent T M → Prop
  | .lock t _ _ | .unlock t _ | .wait t _ _ | .signal t _ => s.MayAct t ∧ s.calls t = .none
  | .ret t => s.MayAct t ∧ s.calls t = .locking
  | .wake t => s.MayAct t ∧ (s.calls t).isWaiting = true
  | .relock t => s.MayAct t ∧ (s.calls t).isRelocking = true
  | .isrSignal _ => s.handler = none
  | .isrRound => s.handler ≠ none
  | .expire t => s.handler = none ∧ (s.kernel.thr t).timer = .active
  | e => s.handler = none ∧ s.phase.at e = true

instance (s : CondState T M) : ∀ e, Decidable (condGuard s e)
  | .lock _ _ _ | .unlock _ _ | .wait _ _ _ | .signal _ _ | .ret _ | .wake _ | .relock _ => inferInstanceAs (Decidable (_ ∧ _))
  | .isrSignal _ => inferInstanceAs (Decidable (_ = _))
  | .isrRound => inferInstanceAs (Decidable (¬ _ = _))
  | .expire _ => inferInstanceAs (Decidable (_ ∧ _))
  | .inherit | .enqueue | .handover | .bind | .enter | .round | .clear => inferInstanceAs (Decidable (_ ∧ _))

/-- **The condition variable and everybody who uses it.** -/
def condSystem : System (CondState T M) (CondEvent T M) where
  enabled := condGuard
  next := condNext

instance (s : CondState T M) (e : CondEvent T M) : Decidable (condSystem.enabled s e) := inferInstanceAs (Decidable (condGuard s e))

/-- The condition variable as `LWP_CondInit` creates it, and the mutexes as `LWP_MutexInit` does, on a kernel without thread queues.  Of the
handles `ms`, all that there are, `isMutex` are open. -/
def condStart (k : Kernel T (CondQueue M)) (ms : List M) (isMutex useRecursive : M → Bool) : CondState T M where
  kernel := lwpThreadqueueInit
    (ms.foldl (fun k m => (lwpMutexInitialize k (.mutex m) (mutexAttr (useRecursive m))).1) k) .cond .fifo stWaitingForCondvar condTimedout
  mutex m := if isMutex m then some (lwpMutexInitialize k (.mutex m) (mutexAttr (useRecursive m))).2 else none
  lock := none
  phase := .idle
  handler := none
  calls _ := .none

end Libogc
