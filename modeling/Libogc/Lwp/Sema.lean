import Libogc.Lib.Runs
import Libogc.Lwp.Wakeups
/-!
# Sema — `lwp_sema.c` and the calls of `semaphore.c`

The count and the wait queue of a semaphore, and the system of its users: threads inside `LWP_SemWait` and its variants,
threads and interrupt handlers that post, expiring timers, and a destroyer that flushes the queue.  A kernel call runs with
dispatching disabled, so one thread at a time is inside one (`SemaPhase`), but interrupts come in wherever the call lets
them: between any two steps of an enqueue, and between the dequeue of a post and its count.
-/
namespace Libogc

open Links Runs

set_option linter.unusedSectionVars false

variable {T W : Type} [DecidableEq T] [DecidableEq W]

/-- `LWP_SEMA_*`. -/
def semaSuccessful : BitVec 32 := 0
def semaUnsatisfiedNowait : BitVec 32 := 1
def semaDeleted : BitVec 32 := 2
def semaTimeout : BitVec 32 := 3
def semaMaxcntExceeded : BitVec 32 := 4

/-- `lwp_sema` with its `lwp_semattr`. -/
structure LwpSema (W : Type) where
  maxCnt : BitVec 32
  mode : ThreadqMode
  waitQueue : W
  count : BitVec 32
  deriving DecidableEq, Repr

def lwpSemaInitialize (k : Kernel T W) (w : W) (maxCnt : BitVec 32) (mode : ThreadqMode) (initCount : BitVec 32) :
    Kernel T W × LwpSema W :=
  (lwpThreadqueueInit k w mode stWaitingForSemaphore semaTimeout, ⟨maxCnt, mode, w, initCount⟩)

/-- `thethread->wait.ret_code = status`. -/
def Kernel.setRetCode (k : Kernel T W) (t : T) (status : BitVec 32) : Kernel T W :=
  k.setThr t (fun l => { l with wait := { l.wait with retCode := status } })

theorem setRetCode_sameBlock (l : Lwp W) (status : BitVec 32) :
    l.SameBlock { l with wait := { l.wait with retCode := status } } := ⟨⟨rfl, rfl, rfl⟩, rfl, rfl, id⟩

theorem setRetCode_thr_ne (k : Kernel T W) (t : T) (status : BitVec 32) {u : T} (hu : u ≠ t) :
    (k.setRetCode t status).thr u = k.thr u := setThr_thr_ne _ _ _ hu

theorem setRetCode_retCode (k : Kernel T W) (t : T) (status : BitVec 32) :
    ((k.setRetCode t status).thr t).wait.retCode = status := by rw [Kernel.setRetCode, setThr_thr_self]

theorem setRetCode_ready (k : Kernel T W) (t : T) (status : BitVec 32) : (k.setRetCode t status).Ready t ↔ k.Ready t := by
  rw [Kernel.Ready, Kernel.setRetCode, setThr_thr_self]
  rfl

theorem TqInv.setRetCode {k : Kernel T W} {Qs : QId T W → Option (List T)} {ph : Option (Enq T W)} (h : TqInv k Qs ph) (t : T)
    (status : BitVec 32) : TqInv (k.setRetCode t status) Qs ph := h.setThr (setRetCode_sameBlock _ _)

/-- What a post does that found no thread to serve. -/
def lwpSemaCountup (sema : LwpSema W) : LwpSema W × BitVec 32 :=
  if sema.count < sema.maxCnt then ({ sema with count := sema.count + 1 }, semaSuccessful) else (sema, semaMaxcntExceeded)

def lwpSemaSurrender (k : Kernel T W) (sema : LwpSema W) : Kernel T W × LwpSema W × BitVec 32 :=
  match lwpThreadqueueDequeue k sema.waitQueue with
  | (k, some _) => (k, sema, semaSuccessful)
  | (k, none) => (k, lwpSemaCountup sema)

/-- `__lwp_sema_seize` up to the call of `__lwp_threadqueue_enqueue`, if it comes to that. -/
def lwpSemaSeize (k : Kernel T W) (sema : LwpSema W) (waitStatus : BitVec 32) (timeout : Bool) :
    Kernel T W × LwpSema W × Option (Enq T W) :=
  let exec := k.executing
  let k := k.setRetCode exec semaSuccessful
  if sema.count ≠ 0 then (k, { sema with count := sema.count - 1 }, none)
  else if waitStatus ≠ 0 then (k.setRetCode exec waitStatus, sema, none)
  else
    let k := lwpThreadqueueCsenter k sema.waitQueue
    let k := k.setThr exec (fun l => { l with wait := { l.wait with queue := some sema.waitQueue } })
    (k, sema, some ⟨exec, sema.waitQueue, timeout, .setstate⟩)

/-! ## The calls -/

/-- `LWP_SemWait`, `LWP_SemTimedWait` with a time to wait that is already over or not, and `LWP_SemTryWait`. -/
inductive SemaWait where
  | wait
  | timedWait (due : Bool)
  | tryWait
  deriving DecidableEq, Repr

def SemaWait.waitStatus : SemaWait → BitVec 32
  | .wait => semaSuccessful
  | .timedWait due => if due then semaTimeout else semaSuccessful
  | .tryWait => semaUnsatisfiedNowait

def SemaWait.timeout : SemaWait → Bool
  | .timedWait _ => true
  | .wait | .tryWait => false

inductive Errno where
  | ok
  | eagain
  | einval
  | etimedout
  | eoverflow
  | eperm
  | edeadlk
  | ebusy
  deriving DecidableEq, Repr

/-- The `switch` that ends `__lwp_sema_waitsupp` and `LWP_SemPost`. -/
def semaErrno (status : BitVec 32) : Errno :=
  if status = semaUnsatisfiedNowait then .eagain
  else if status = semaDeleted then .einval
  else if status = semaTimeout then .etimedout
  else if status = semaMaxcntExceeded then .eoverflow
  else .ok

/-! ## The system -/

/-- What the thread inside a kernel call is about to do. -/
inductive SemaPhase (T W : Type) where
  | idle
  | entering (e : Enq T W)
  | posting
  deriving DecidableEq, Repr

def SemaPhase.enq : SemaPhase T W → Option (Enq T W)
  | .entering e => some e
  | .idle | .posting => none

/-- Whether a thread is inside a wait, and whether the wait had to block. -/
inductive SemaCall where
  | none
  | direct
  | blocking
  deriving DecidableEq, Repr

/-- The semaphore, its users, and what happened so far: `fed` counts the posts handed to a thread during its present call,
`seized` the waits that returned 0, `posted` the posts that did. -/
structure SemaState (T W : Type) where
  kernel : Kernel T W
  sema : LwpSema W
  phase : SemaPhase T W
  calls : T → SemaCall
  fed : T → Nat
  seized : Nat
  posted : Nat

inductive SemaEvent (T : Type) where
  | seize (t : T) (call : SemaWait)
  | enqueue
  | ret (t : T)
  | post (t : T)
  | postCount
  | isrPost
  | expire (t : T)
  | flush
  deriving DecidableEq, Repr

/-- The thread that a post was handed to has one more. -/
def SemaState.feed (s : SemaState T W) (ret : Option T) : T → Nat :=
  match ret with
  | some t => Function.update s.fed t (s.fed t + 1)
  | none => s.fed

def SemaState.countup (s : SemaState T W) : SemaState T W :=
  let (sema, status) := lwpSemaCountup s.sema
  { s with sema := sema, phase := .idle, posted := if semaErrno status = .ok then s.posted + 1 else s.posted }

def semaNext (s : SemaState T W) : SemaEvent T → SemaState T W
  | .seize t call =>
    let (k, sema, e) := lwpSemaSeize { s.kernel with executing := t } s.sema call.waitStatus call.timeout
    { s with
      kernel := k, sema := sema
      phase := (e.map SemaPhase.entering).getD .idle
      calls := Function.update s.calls t (if e.isSome then .blocking else .direct) }
  | .enqueue =>
    match s.phase with
    | .entering e =>
      let (k, e') := enqNext s.kernel e
      { s with kernel := k, phase := (e'.map SemaPhase.entering).getD .idle }
    | .idle | .posting => s
  | .ret t =>
    { s with
      calls := Function.update s.calls t .none
      fed := Function.update s.fed t 0
      seized := if semaErrno (s.kernel.thr t).wait.retCode = .ok then s.seized + 1 else s.seized }
  | .post t =>
    let (k, ret) := lwpThreadqueueDequeue { s.kernel with executing := t } s.sema.waitQueue
    { s with
      kernel := k, fed := s.feed ret
      phase := if ret.isSome then .idle else .posting
      posted := if ret.isSome then s.posted + 1 else s.posted }
  | .postCount => s.countup
  | .isrPost =>
    let (k, sema, status) := lwpSemaSurrender s.kernel s.sema
    { s with
      kernel := k, sema := sema
      fed := s.feed (lwpThreadqueueDequeue s.kernel s.sema.waitQueue).2
      posted := if semaErrno status = .ok then s.posted + 1 else s.posted }
  | .expire t => { s with kernel := lwpWdTickle s.kernel t }
  | .flush =>
    match lwpThreadqueueDequeue s.kernel s.sema.waitQueue with
    | (k, some t) => { s with kernel := k.setRetCode t semaDeleted }
    | (k, none) => { s with kernel := k }

/-- A thread acts when it is ready and no other thread is inside a kernel call; interrupts come at any time.  A flush is a
sequence of `flush` events, one for each round of its loop. -/
def semaGuard (s : SemaState T W) : SemaEvent T → Prop
  | .seize t _ => s.phase = .idle ∧ s.kernel.Ready t ∧ s.calls t = .none
  | .enqueue => s.phase.enq.isSome
  | .ret t => s.phase = .idle ∧ s.kernel.Ready t ∧ s.calls t ≠ .none
  | .post t => s.phase = .idle ∧ s.kernel.Ready t ∧ s.calls t = .none
  | .postCount => s.phase = .posting
  | .isrPost => True
  | .expire t => (s.kernel.thr t).timer = .active
  | .flush => s.phase = .idle

instance (s : SemaState T W) : ∀ e, Decidable (semaGuard s e)
  | .seize _ _ | .ret _ | .post _ => inferInstanceAs (Decidable (_ ∧ _ ∧ _))
  | .enqueue => inferInstanceAs (Decidable (_ = true))
  | .postCount | .expire _ | .flush => inferInstanceAs (Decidable (_ = _))
  | .isrPost => inferInstanceAs (Decidable True)

/-- **A semaphore and everybody who uses it.** -/
def semaSystem : System (SemaState T W) (SemaEvent T) where
  enabled := semaGuard
  next := semaNext

instance (s : SemaState T W) (e : SemaEvent T) : Decidable (semaSystem.enabled s e) :=
  inferInstanceAs (Decidable (semaGuard s e))

/-- A new semaphore: nobody is inside a call and nothing happened yet. -/
def semaStart (k : Kernel T W) (w : W) (maxCnt : BitVec 32) (mode : ThreadqMode) (initCount : BitVec 32) : SemaState T W :=
  let (k, sema) := lwpSemaInitialize k w maxCnt mode initCount
  { kernel := k, sema := sema, phase := .idle, calls := fun _ => .none, fed := fun _ => 0, seized := 0, posted := 0 }

end Libogc
