import Libogc.Lib.Deque
import Libogc.Lwp.Sema
/-!
# Messages — `lwp_messages.c` and the calls of `message.c`

A message queue keeps its buffers on two lists, pending and inactive, and has one wait queue for the threads that found it full
and those that found it empty.  The system is the queue with the threads that use it and their timers.  A call runs with
dispatching disabled, so one thread at a time is inside one (`MqPhase`); timers expire between any two of its steps.
-/
namespace Libogc

open Links Runs

set_option linter.unusedSectionVars false

variable {T W M : Type} [DecidableEq T] [DecidableEq W]

/-- `LWP_MQ_STATUS_*`. -/
def mqSuccessful : BitVec 32 := 0
def mqInvalidSize : BitVec 32 := 1
def mqTooMany : BitVec 32 := 2
def mqUnsatisfied : BitVec 32 := 3
def mqUnsatisfiedNowait : BitVec 32 := 4
def mqDeleted : BitVec 32 := 5
def mqTimeout : BitVec 32 := 6
def mqUnsatisfiedWait : BitVec 32 := 7

/-- `LWP_MQ_SEND_REQUEST` and `LWP_MQ_SEND_URGENT`, kept in unsigned words. -/
def mqSendRequest : BitVec 32 := 0x7fffffff
def mqSendUrgent : BitVec 32 := 0x80000000

/-- `sizeof(mqmsg_t)`. -/
def mqMsgSize : BitVec 32 := 4

inductive MqList where
  | pending
  | inactive
  deriving DecidableEq, Repr

/-- `mq_buffercntrl`, its links apart. -/
structure MqBuffercntrl (M : Type) where
  prio : BitVec 32
  size : BitVec 32
  buffer : M
  deriving DecidableEq, Repr

/-- `mq_cntrl`.  Buffer `b` of the array is the node `b` of one of the lists.  `message.c` sets no notify handler. -/
structure MqCntrl (W M : Type) where
  waitQueue : W
  maxPendingmsgs : BitVec 32
  numPendingmsgs : BitVec 32
  maxMsgsize : BitVec 32
  mem : Mem MqList Nat
  msgs : Nat → MqBuffercntrl M

/-- The loop of `__lwpmq_msg_insert`: the first node whose message comes after one of priority `prio`. -/
def lwpmqPlace (mq : MqCntrl W M) (prio : BitVec 32) : Nat → Link MqList Nat → Link MqList Nat
  | 0, node => node
  | fuel + 1, node =>
    if node = .tail .pending then node
    else
      match node with
      | .node b => if (mq.msgs b).prio ≤ prio then lwpmqPlace mq prio fuel (mq.mem.next node) else node
      | _ => node

def lwpmqMsgInsert (mq : MqCntrl W M) (b : Nat) (type : BitVec 32) : MqCntrl W M :=
  let mq := { mq with
    numPendingmsgs := mq.numPendingmsgs + 1
    msgs := Function.update mq.msgs b { mq.msgs b with prio := type } }
  if type = mqSendRequest then { mq with mem := lwpQueueAppendI mq.mem .pending b }
  else if type = mqSendUrgent then { mq with mem := lwpQueuePrependI mq.mem .pending b }
  else
    let node := lwpmqPlace mq type mq.numPendingmsgs.toNat (mq.mem (.first .pending))
    { mq with mem := lwpQueueInsertI mq.mem (mq.mem.prev node) b }

/-- `__lwpmq_initialize` as `MQ_Init` calls it, on the memory it finds and with the workspace it needs. -/
def lwpmqInitialize (k : Kernel T W) (w : W) (maxPendingmsgs maxMsgsize : BitVec 32) (mem : Mem MqList Nat)
    (msgs : Nat → MqBuffercntrl M) : Kernel T W × MqCntrl W M :=
  let mem := lwpQueueInitialize mem .inactive id maxPendingmsgs.toNat
  let mem := lwpQueueInitEmpty mem .pending
  (lwpThreadqueueInit k w .fifo stWaitingForMessage mqTimeout, ⟨w, maxPendingmsgs, 0, maxMsgsize, mem, msgs⟩)

/-- `__lwpmq_flush_support`: all pending buffers become inactive. -/
def lwpmqFlushSupport (mq : MqCntrl W M) : MqCntrl W M :=
  let inactive := mq.mem (.first .inactive)
  let first := mq.mem (.first .pending)
  let last := mq.mem (.last .pending)
  let mem := mq.mem.set (.first .inactive) first
  let mem := mem.setNext last inactive
  let mem := mem.setPrev inactive last
  let mem := mem.setPrev first (.head .inactive)
  { mq with mem := lwpQueueInitEmpty mem .pending, numPendingmsgs := 0 }

/-! ## The calls -/

/-- How long a call waits: `MQ_MSG_BLOCK`, `MQ_MSG_NOBLOCK`, or a time that is already over or not. -/
inductive MqFlags where
  | block
  | noblock
  | timed (due : Bool)
  deriving DecidableEq, Repr

def MqFlags.timeout : MqFlags → Bool
  | .timed _ => true
  | .block | .noblock => false

/-- The `wait_status` of a call that gives up with `status` when it may not wait. -/
def MqFlags.waitStatus (status : BitVec 32) : MqFlags → BitVec 32
  | .block => mqSuccessful
  | .noblock => status
  | .timed due => if due then mqTimeout else mqSuccessful

/-- `MQ_Send` and `MQ_TimedSend`, or `MQ_Jam` and `MQ_TimedJam`. -/
structure MqSend where
  jam : Bool
  flags : MqFlags
  deriving DecidableEq, Repr

def MqSend.type (call : MqSend) : BitVec 32 := if call.jam then mqSendUrgent else mqSendRequest
def MqSend.waitStatus (call : MqSend) : BitVec 32 := call.flags.waitStatus mqTooMany

/-- `MQ_Receive` and `MQ_TimedReceive`. -/
def mqReceiveStatus (flags : MqFlags) : BitVec 32 := flags.waitStatus mqUnsatisfiedNowait

inductive MqKind (M : Type) where
  | send (call : MqSend) (msg : M)
  | receive
  deriving DecidableEq, Repr

/-- A call under way: `status` is what `__lwpmq_submit` returned or will return, and `served` the message that the queue took
from the call, or gave it. -/
structure MqCall (M : Type) where
  kind : MqKind M
  status : Option (BitVec 32)
  served : Option M
  deriving DecidableEq, Repr

/-! ## The system -/

/-- `wait.ret_arg_1`: a sender's size, or the address of a receiver's. -/
inductive MqArg (T : Type) where
  | word (n : BitVec 32)
  | size (t : T)
  deriving DecidableEq, Repr

/-- `wait.ret_arg` and `wait.ret_arg_1`; the buffer of a call is in the frame of its thread. -/
structure MqWaitinfo (T : Type) where
  retArg : Option T
  retArg1 : MqArg T
  deriving DecidableEq, Repr

/-- What the thread inside a kernel call is about to do. -/
inductive MqPhase (T W : Type) where
  | idle
  | submitting
  | refilling (b : Nat)
  | entering (e : Enq T W)
  | closing
  deriving DecidableEq, Repr

def MqPhase.enq : MqPhase T W → Option (Enq T W)
  | .entering e => some e
  | .idle | .submitting | .refilling _ | .closing => none

/-- The queue and its users.  `frame` and `frameSize` are the `mqmsg_t` and the size in the frame of a thread's call, and `log`
is the history of the messages: each is put in when its call is accepted, ahead of the others if the call is a jam, and taken
out when a receive gets it. -/
structure MqState (T W M : Type) where
  kernel : Kernel T W
  mq : MqCntrl W M
  opened : Bool
  waits : T → MqWaitinfo T
  frame : T → M
  frameSize : T → BitVec 32
  phase : MqPhase T W
  calls : T → Option (MqCall M)
  log : List (Deque.Op T M)

inductive MqEvent (T M : Type) where
  | submit (t : T) (call : MqSend) (msg : M)
  | deposit
  | seize (t : T) (flags : MqFlags)
  | refill
  | enqueue
  | ret (t : T)
  | expire (t : T)
  | elsewhere (t : T) (status : BitVec 32)
  | close (t : T)
  | flush
  deriving DecidableEq, Repr

def MqState.retCode (s : MqState T W M) (t : T) : BitVec 32 := (s.kernel.thr t).wait.retCode

def MqState.setCall (s : MqState T W M) (t : T) (f : MqCall M → MqCall M) : T → Option (MqCall M) :=
  Function.update s.calls t ((s.calls t).map f)

/-- `__lwpmq_submit` returns. -/
def MqState.answer (s : MqState T W M) (t : T) (status : BitVec 32) : MqState T W M :=
  { s with phase := .idle, calls := s.setCall t ({ · with status := some status }) }

/-- The queue takes the message of a call. -/
def MqState.accept (s : MqState T W M) (t : T) : MqState T W M :=
  match s.calls t with
  | some ⟨.send call msg, _, _⟩ =>
    { s with calls := s.setCall t ({ · with served := some msg }), log := s.log ++ [.put call.jam msg] }
  | _ => s

/-- A call gets a message from the queue. -/
def MqState.deliver (s : MqState T W M) (t : T) (m : M) : MqState T W M :=
  { s with calls := s.setCall t ({ · with served := some m }), log := s.log ++ [.take t m] }

/-- What `__lwpmq_submit` by `t` does with a thread `u` it dequeued: the message goes to where `u` wants it. -/
def MqState.handover (s : MqState T W M) (t u : T) (call : MqSend) : MqState T W M :=
  let m := s.frame t
  let s : MqState T W M := { s with
    frame := match (s.waits u).retArg with
      | some v => Function.update s.frame v m
      | none => s.frame
    frameSize := match (s.waits u).retArg1 with
      | .size v => Function.update s.frameSize v mqMsgSize
      | .word _ => s.frameSize
    kernel := s.kernel.setThr u (fun l => { l with wait := { l.wait with cnt := call.type } }) }
  (s.accept t).deliver u m

/-- `__lwpmq_submit` by `t` up to its first check of the number of pending messages and what follows if that is zero. -/
def MqState.submit (s : MqState T W M) (t : T) (call : MqSend) (msg : M) : MqState T W M :=
  let s : MqState T W M := { s with
    kernel := { s.kernel with executing := t }
    frame := Function.update s.frame t msg
    calls := Function.update s.calls t (some ⟨.send call msg, none, none⟩) }
  if mqMsgSize > s.mq.maxMsgsize then s.answer t mqInvalidSize
  else if s.mq.numPendingmsgs = 0 then
    match lwpThreadqueueDequeue s.kernel s.mq.waitQueue with
    | (k, some u) => (({ s with kernel := k } : MqState T W M).handover t u call).answer t mqSuccessful
    | (k, none) => { s with kernel := k, phase := .submitting }
  else { s with phase := .submitting }

/-- The rest of it, from the second check on: the message goes into a buffer, or the thread on its way into the queue. -/
def MqState.deposit (s : MqState T W M) (call : MqSend) : MqState T W M :=
  let exec := s.kernel.executing
  if s.mq.numPendingmsgs < s.mq.maxPendingmsgs then
    match lwpQueueGetI s.mq.mem .inactive with
    | (mem, .node b) =>
      let mq := { s.mq with mem := mem, msgs := Function.update s.mq.msgs b ⟨call.type, mqMsgSize, s.frame exec⟩ }
      let s : MqState T W M := { s with mq := lwpmqMsgInsert mq b call.type }
      (s.accept exec).answer exec mqSuccessful
    | (mem, _) => ({ s with mq := { s.mq with mem := mem } } : MqState T W M).answer exec mqUnsatisfied
  else if call.waitStatus ≠ 0 then s.answer exec call.waitStatus
  else
    let k := lwpThreadqueueCsenter s.kernel s.mq.waitQueue
    let k := k.setThr exec (fun l => { l with wait := { l.wait with queue := some s.mq.waitQueue, cnt := call.type } })
    let s := s.answer exec mqUnsatisfiedWait
    { s with
      kernel := k
      waits := Function.update s.waits exec ⟨some exec, .word mqMsgSize⟩
      phase := .entering ⟨exec, s.mq.waitQueue, call.flags.timeout, .setstate⟩ }

/-- `__lwpmq_seize` by `t` up to the dequeue, or to the call of `__lwp_threadqueue_enqueue`. -/
def MqState.seize (s : MqState T W M) (t : T) (flags : MqFlags) : MqState T W M :=
  let k := ({ s.kernel with executing := t } : Kernel T W).setRetCode t mqSuccessful
  let s : MqState T W M := { s with kernel := k, calls := Function.update s.calls t (some ⟨.receive, none, none⟩) }
  if s.mq.numPendingmsgs ≠ 0 then
    match lwpQueueGetI s.mq.mem .pending with
    | (mem, .node b) =>
      let m := (s.mq.msgs b).buffer
      let s : MqState T W M := { s with
        mq := { s.mq with numPendingmsgs := s.mq.numPendingmsgs - 1, mem := mem }
        frameSize := Function.update s.frameSize t (s.mq.msgs b).size
        kernel := k.setThr t (fun l => { l with wait := { l.wait with cnt := (s.mq.msgs b).prio } })
        frame := Function.update s.frame t m
        phase := .refilling b }
      s.deliver t m
    -- no buffer to take: the count never says otherwise
    | (_, _) => s
  else if mqReceiveStatus flags ≠ 0 then { s with kernel := k.setRetCode t (mqReceiveStatus flags) }
  else
    let k := lwpThreadqueueCsenter k s.mq.waitQueue
    { s with
      kernel := k.setThr t (fun l => { l with wait := { l.wait with queue := some s.mq.waitQueue } })
      waits := Function.update s.waits t ⟨some t, .size t⟩
      phase := .entering ⟨t, s.mq.waitQueue, flags.timeout, .setstate⟩ }

/-- `(u32)thread->wait.ret_arg_1`.  Only a sender's is read. -/
def MqArg.toWord : MqArg T → BitVec 32
  | .word n => n
  | .size _ => 0

/-- The rest of `__lwpmq_seize` with the buffer `b` it emptied: a blocked sender's message goes into it, or it is inactive. -/
def MqState.refill (s : MqState T W M) (b : Nat) : MqState T W M :=
  match lwpThreadqueueDequeue s.kernel s.mq.waitQueue with
  | (k, none) => { s with kernel := k, mq := { s.mq with mem := lwpQueueAppendI s.mq.mem .inactive b }, phase := .idle }
  | (k, some u) =>
    let prio := (k.thr u).wait.cnt
    let m := match (s.waits u).retArg with
      | some v => s.frame v
      | none => (s.mq.msgs b).buffer
    let mq := { s.mq with msgs := Function.update s.mq.msgs b ⟨prio, (s.waits u).retArg1.toWord, m⟩ }
    let s : MqState T W M := { s with kernel := k, mq := lwpmqMsgInsert mq b prio, phase := .idle }
    s.accept u

/-- `elsewhere` is what other kernel objects leave in `wait.ret_code`; `close` and the `flush` events after it, one for each
round of the loop, are `MQ_Close`. -/
def mqNext (s : MqState T W M) : MqEvent T M → MqState T W M
  | .submit t call msg => s.submit t call msg
  | .deposit =>
    match s.calls s.kernel.executing with
    | some ⟨.send call _, _, _⟩ => s.deposit call
    | _ => s
  | .seize t flags => s.seize t flags
  | .refill =>
    match s.phase with
    | .refilling b => s.refill b
    | _ => s
  | .enqueue =>
    match s.phase with
    | .entering e =>
      let (k, e') := enqNext s.kernel e
      { s with kernel := k, phase := (e'.map MqPhase.entering).getD .idle }
    | _ => s
  | .ret t => { s with calls := Function.update s.calls t none }
  | .expire t => { s with kernel := lwpWdTickle s.kernel t }
  | .elsewhere t status => { s with kernel := s.kernel.setRetCode t status }
  | .close t => { s with kernel := { s.kernel with executing := t }, opened := false, phase := .closing }
  | .flush =>
    match lwpThreadqueueDequeue s.kernel s.mq.waitQueue with
    | (k, some u) => { s with kernel := k.setRetCode u mqDeleted }
    | (k, none) => { s with kernel := k, mq := lwpmqFlushSupport s.mq, phase := .idle }

/-- A thread acts when it is ready and no other thread is inside a kernel call; timers expire at any time. -/
def mqGuard (s : MqState T W M) : MqEvent T M → Prop
  | .submit t _ _ | .seize t _ => s.opened = true ∧ s.phase = .idle ∧ s.kernel.Ready t ∧ s.calls t = none
  | .deposit => s.phase = .submitting
  | .refill => ∃ b, s.phase = .refilling b
  | .enqueue => s.phase.enq.isSome
  | .ret t => s.phase = .idle ∧ s.kernel.Ready t ∧ (s.calls t).isSome
  | .expire t => (s.kernel.thr t).timer = .active
  | .elsewhere t _ => s.phase = .idle ∧ s.kernel.Ready t ∧ s.calls t = none
  | .close t => s.opened = true ∧ s.phase = .idle ∧ s.kernel.Ready t ∧ s.calls t = none
  | .flush => s.phase = .closing

instance [DecidableEq M] (s : MqState T W M) : ∀ e, Decidable (mqGuard s e)
  | .submit _ _ _ | .seize _ _ | .close _ => inferInstanceAs (Decidable (_ ∧ _ ∧ _ ∧ _))
  | .ret _ | .elsewhere _ _ => inferInstanceAs (Decidable (_ ∧ _ ∧ _))
  | .deposit | .expire _ | .flush => inferInstanceAs (Decidable (_ = _))
  | .enqueue => inferInstanceAs (Decidable (_ = true))
  | .refill =>
    match h : s.phase with
    | .refilling b => isTrue ⟨b, h⟩
    | .idle | .submitting | .entering _ | .closing => isFalse fun ⟨_, he⟩ => by rw [h] at he; cases he

/-- **A message queue and everybody who uses it.** -/
def mqSystem : System (MqState T W M) (MqEvent T M) where
  enabled := mqGuard
  next := mqNext

instance [DecidableEq M] (s : MqState T W M) (e : MqEvent T M) : Decidable (mqSystem.enabled s e) :=
  inferInstanceAs (Decidable (mqGuard s e))

/-- What the call of `t` returns if it returns now: the end of `__lwp_mqbox_sendsupp` and `__lwp_mqbox_recvsupp`. -/
def MqState.returns (s : MqState T W M) (t : T) : Bool :=
  match s.calls t with
  | some ⟨.send _ _, some status, _⟩ => (if status = mqUnsatisfiedWait then s.retCode t else status) = mqSuccessful
  | some ⟨.receive, _, _⟩ => s.retCode t = mqSuccessful
  | _ => false

/-- `MQ_Init`: a new queue of `count` messages, on whatever its memory and the threads' frames held before. -/
def mqStart (k : Kernel T W) (w : W) (count : BitVec 32) (mem : Mem MqList Nat) (msgs : Nat → MqBuffercntrl M)
    (waits : T → MqWaitinfo T) (frame : T → M) (frameSize : T → BitVec 32) : MqState T W M :=
  let (k, mq) := lwpmqInitialize k w count mqMsgSize mem msgs
  { kernel := k, mq := mq, opened := true, waits := waits, frame := frame, frameSize := frameSize, phase := .idle
    calls := fun _ => none, log := [] }

end Libogc
