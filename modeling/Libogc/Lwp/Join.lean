import Libogc.Lib.Runs
import Libogc.Lwp.Wakeups
/-!
# Join — `LWP_JoinThread` and its variants, `LWP_DetachThread`, and the end of a thread

One thread, `thethread`, its `join_list` and everybody who joins or detaches it.  A join blocks on the list, or takes the value of a thread
that waits for it at the end (`WAITING_FOR_JOINATEXIT`); `__lwp_thread_exit` wakes the threads on the list one by one, or parks the thread
until somebody comes, and closes it.  The value goes through the memory that the joins point at.
-/
namespace Libogc

open Links Runs

set_option linter.unusedSectionVars false

/-- The C library's error numbers that the calls return. -/
def joinEsrch : BitVec 32 := 3
def joinEbusy : BitVec 32 := 16
def joinEinval : BitVec 32 := 22
def joinEdeadlk : BitVec 32 := 45
def joinEtimedout : BitVec 32 := 116

def lwpStatewaitjoinatexit (currState : BitVec 32) : Bool := currState &&& stWaitingForJoinatexit ≠ 0

/-- The time that `LWP_TimedJoinThread` is given: a null pointer, no valid time, one that is over at once, or a time to wait. -/
inductive JoinTime where
  | null
  | invalid
  | over
  | later
  deriving DecidableEq, Repr

inductive JoinCall where
  | join
  | timedJoin (reltime : JoinTime)
  | tryJoin
  deriving DecidableEq, Repr

/-- `wait_status`, and whether there is a timeout, as the calls give them to `__lwp_thread_joinsupp`; a call without them returns `EINVAL`. -/
def JoinCall.arguments : JoinCall → Option (BitVec 32 × Bool)
  | .join | .timedJoin .null => some (0, false)
  | .timedJoin .invalid => none
  | .timedJoin .over => some (joinEtimedout, true)
  | .timedJoin .later => some (0, true)
  | .tryJoin => some (joinEbusy, false)

/-- Where the thread is in `__lwp_thread_exit`: in its loop, with the value and whether it has woken somebody, or past it. -/
inductive ExitPc where
  | running
  | waking (valuePtr : BitVec 32) (woke : Bool)
  | parked
  | closed
  deriving DecidableEq, Repr

/-- The dispatcher is off. -/
def ExitPc.isWaking : ExitPc → Bool
  | .waking _ _ => true
  | .running | .parked | .closed => false

/-- A join that has returned, and the word at its pointer then. -/
structure JoinReturn (T : Type) where
  thread : T
  valuePtr : BitVec 32
  code : BitVec 32
  value : BitVec 32
  deriving DecidableEq, Repr

variable {T W : Type} [DecidableEq T] [DecidableEq W]

/-- The threads, and what happened so far: `phase` is the join on its way into the list, `calls` are the joins that had to block, `exited`
is the value the thread ended with. -/
structure JoinState (T W : Type) where
  kernel : Kernel T W
  /-- `detach_state`. -/
  detached : Bool
  pc : ExitPc
  phase : Option (Enq T W)
  /-- `wait.ret_arg`. -/
  retArg : T → BitVec 32
  /-- The words at the pointers of the joins. -/
  values : BitVec 32 → BitVec 32
  calls : T → Bool
  exited : Option (BitVec 32)
  returned : List (JoinReturn T)

inductive JoinEvent (T : Type) where
  | join (t : T) (valuePtr : BitVec 32) (call : JoinCall)
  | enqueue
  | ret (t : T)
  | detach (t : T)
  | exit (valuePtr : BitVec 32)
  | wake
  | resume
  | expire (t : T)
  deriving DecidableEq, Repr

/-! ## The calls -/

section Calls
variable (thethread : T) (joinList : W) (s : JoinState T W)

def JoinState.switch (t : T) : JoinState T W := { s with kernel := { s.kernel with executing := t } }

/-- `if(value_ptr) *value_ptr = value`. -/
def JoinState.setValue (valuePtr value : BitVec 32) : JoinState T W :=
  { s with values := if valuePtr ≠ 0 then Function.update s.values valuePtr value else s.values }

def JoinState.return (t : T) (valuePtr code : BitVec 32) : JoinState T W :=
  { s with returned := ⟨t, valuePtr, code, s.values valuePtr⟩ :: s.returned }

/-- `__lwp_threadqueue_csenter` and the thread's wait fields. -/
def joinEnter (k : Kernel T W) (exec : T) : Kernel T W :=
  (lwpThreadqueueCsenter k joinList).setThr exec fun l => { l with wait := { l.wait with retCode := 0, queue := some joinList } }

/-- `__lwp_thread_joinsupp` up to the call of `__lwp_threadqueue_enqueue`, if it comes to that. -/
def lwpThreadJoinsupp (valuePtr waitStatus : BitVec 32) (timeout : Bool) : JoinState T W × Option (BitVec 32) :=
  let exec := s.kernel.executing
  if s.pc = .closed then (s, some joinEsrch)
  else if s.detached then (s, some joinEinval)
  else if lwpThreadIsexec s.kernel thethread then (s, some joinEdeadlk)
  else if lwpStatewaitjoinatexit (s.kernel.thr thethread).curState then
    let s := s.setValue valuePtr (s.retArg thethread)
    ({ s with kernel := lwpThreadClearstate s.kernel thethread stWaitingForJoinatexit }, some 0)
  else if waitStatus ≠ 0 then (s, some waitStatus)
  else
    ({ s with
      kernel := joinEnter joinList s.kernel exec
      retArg := Function.update s.retArg exec valuePtr
      calls := Function.update s.calls exec true
      phase := some ⟨exec, joinList, timeout, .setstate⟩ }, none)

def lwpDetachThread : JoinState T W × BitVec 32 :=
  if s.pc = .closed then (s, joinEsrch)
  else if s.detached then (s, joinEinval)
  else ({ s with detached := true, kernel := lwpThreadClearstate s.kernel thethread stWaitingForJoinatexit }, 0)

/-- `__lwp_threadqueue_extractproxy`, and the timer of a thread that is on no queue. -/
def lwpThreadExtractproxy (k : Kernel T W) : Kernel T W :=
  if lwpStatewaitthreadqueue (k.thr thethread).curState then
    match (k.thr thethread).wait.queue with
    | some w => lwpThreadqueueExtract k w thethread
    | none => k
  else stopTimer k thethread

/-- `__lwp_thread_close`, after which there is no such thread. -/
def lwpThreadClose : JoinState T W :=
  { s with kernel := lwpThreadExtractproxy thethread (lwpThreadSetstate s.kernel thethread stTransient), pc := .closed }

/-- `__lwp_thread_exit` up to its loop. -/
def lwpThreadExit (valuePtr : BitVec 32) : JoinState T W :=
  let s := { s with retArg := Function.update s.retArg thethread valuePtr, exited := some valuePtr }
  if s.detached then lwpThreadClose thethread s else { s with pc := .waking valuePtr false }

/-- A round of the loop, and what comes after the last. -/
def lwpThreadExitRound (valuePtr : BitVec 32) (woke : Bool) : JoinState T W :=
  match lwpThreadqueueDequeue s.kernel joinList with
  | (k, some p) => { s.setValue (s.retArg p) valuePtr with kernel := k, pc := .waking valuePtr true }
  | (k, none) =>
    if woke then lwpThreadClose thethread { s with kernel := k }
    else { s with kernel := lwpThreadSetstate k thethread stWaitingForJoinatexit, pc := .parked }

/-! ## The system -/

def joinNext : JoinEvent T → JoinState T W
  | .join t valuePtr call =>
    match call.arguments with
    | none => (s.switch t).return t valuePtr joinEinval
    | some (waitStatus, timeout) =>
      match lwpThreadJoinsupp thethread joinList (s.switch t) valuePtr waitStatus timeout with
      | (s, some code) => s.return t valuePtr code
      | (s, none) => s
  | .enqueue =>
    match s.phase with
    | some e =>
      let (k, e) := enqNext s.kernel e
      { s with kernel := k, phase := e }
    | none => s
  | .ret t => { s.return t (s.retArg t) (s.kernel.thr t).wait.retCode with calls := Function.update s.calls t false }
  | .detach t => (lwpDetachThread thethread (s.switch t)).1
  | .exit valuePtr => lwpThreadExit thethread (s.switch thethread) valuePtr
  | .wake =>
    match s.pc with
    | .waking valuePtr woke => lwpThreadExitRound thethread joinList s valuePtr woke
    | _ => s
  | .resume => lwpThreadClose thethread (s.switch thethread)
  | .expire t => { s with kernel := lwpWdTickle s.kernel t }

/-- A thread may begin a call: it is ready and inside none, and the dispatcher is on.  Once the thread that is joined has begun to exit, it
does nothing else. -/
def JoinState.MayAct (t : T) : Prop :=
  s.phase = none ∧ s.pc.isWaking = false ∧ s.kernel.Ready t ∧ s.calls t = false ∧ (t = thethread → s.pc = .running)

instance instDecidableJoinMayAct (t : T) : Decidable (s.MayAct thethread t) := inferInstanceAs (Decidable (_ ∧ _ ∧ _ ∧ _ ∧ _))

/-- Interrupts come at any time.  The timer of a thread on the list of a closed thread is left out: it reads what was freed. -/
def joinGuard : JoinEvent T → Prop
  | .join t _ _ | .detach t => s.MayAct thethread t
  | .enqueue => s.phase.isSome
  | .ret t => s.phase = none ∧ s.pc.isWaking = false ∧ s.kernel.Ready t ∧ s.calls t = true
  | .exit _ => s.MayAct thethread thethread
  | .wake => s.pc.isWaking = true
  | .resume => s.phase = none ∧ s.pc = .parked ∧ s.kernel.Ready thethread
  | .expire t => (s.kernel.thr t).timer = .active ∧ (s.pc = .closed → (s.kernel.thr t).wait.queue ≠ some joinList)

instance : ∀ e, Decidable (joinGuard thethread joinList s e)
  | .join _ _ _ | .detach _ | .exit _ => inferInstanceAs (Decidable (s.MayAct _ _))
  | .enqueue | .wake => inferInstanceAs (Decidable (_ = _))
  | .ret _ => inferInstanceAs (Decidable (_ ∧ _ ∧ _ ∧ _))
  | .resume => inferInstanceAs (Decidable (_ ∧ _ ∧ _))
  | .expire _ => inferInstanceAs (Decidable (_ ∧ _))

end Calls

/-- **A thread and everybody who joins or detaches it.** -/
def joinSystem (thethread : T) (joinList : W) : System (JoinState T W) (JoinEvent T) where
  enabled := joinGuard thethread joinList
  next := joinNext thethread joinList

instance (thethread : T) (joinList : W) (s : JoinState T W) (e : JoinEvent T) : Decidable ((joinSystem thethread joinList).enabled s e) :=
  inferInstanceAs (Decidable (joinGuard _ _ s e))

/-- The thread as `__lwp_thread_init` leaves it, and nobody inside a join. -/
def joinStart (k : Kernel T W) (joinList : W) : JoinState T W where
  kernel := lwpThreadqueueInit k joinList .fifo stWaitingForJoin joinEtimedout
  detached := false
  pc := .running
  phase := none
  retArg _ := 0
  values _ := 0
  calls _ := false
  exited := none
  returned := []

/-- A join that returned 0 has the value that the thread ended with, unless it asked for none. -/
def JoinReturn.Obtained (exited : Option (BitVec 32)) (r : JoinReturn T) : Prop :=
  r.code = 0 → ∃ value, exited = some value ∧ (r.valuePtr ≠ 0 → r.value = value)

/-- **The law of the joins**: the thread is closed with nobody on its list, and a join that returned 0 has its value. -/
def JoinState.joined (s : JoinState T W) (joinList : W) : Prop :=
  (s.pc = .closed → lwpQueueIsempty s.kernel.mem (.wait joinList 0) = true) ∧ ∀ r ∈ s.returned, r.Obtained s.exited

/-- **The order that keeps it**: the thread is detached while nobody waits on its list, and once a join or a detach has released it from its
end nobody waits for it again. -/
def joinKeeps (thethread : T) (joinList : W) (s : JoinState T W) : JoinEvent T → Prop
  | .detach _ => lwpQueueIsempty s.kernel.mem (.wait joinList 0) = true
  | .join _ _ call =>
    s.pc = .parked → s.detached = true ∨ lwpStatewaitjoinatexit (s.kernel.thr thethread).curState = true ∨
      call.arguments.map Prod.fst ≠ some 0
  | _ => True

instance (thethread : T) (joinList : W) (s : JoinState T W) : ∀ e, Decidable (joinKeeps thethread joinList s e)
  | .detach _ => inferInstanceAs (Decidable (_ = _))
  | .join _ _ _ => inferInstanceAs (Decidable (_ → _ ∨ _ ∨ _))
  | .enqueue | .ret _ | .exit _ | .wake | .resume | .expire _ => inferInstanceAs (Decidable True)

end Libogc
