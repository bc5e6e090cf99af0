import Libogc.Lib.Rings
import Libogc.Lib.Runs
import Libogc.Lib.Words
/-!
# Ipc — the request ring of `ipc.c`

Requests to IOS wait in a ring of 16 slots for the mailbox, which takes one at a time: `mailboxack` counts down when one is written to
it, twice for a relaunch, and up again with the acknowledges.  An asynchronous request is posted in two sections with interrupts enabled
between them; interrupts reply, acknowledge or do both.  What the caches and buffers of a request need is left out.

`accepted` and `mailbox` are history: the requests the ring took, and those written to the mailbox.
-/
namespace Libogc

open Rings Runs

def ipcOk : Int := 0
def ipcEqueuefull : Int := -8

def iosIoctlv : Nat := 7

def relnchRelaunch : Nat := 1
def relnchBackground : Nat := 2

structure IpcReq where
  reqCmd : Nat
  result : Int
  cb : Bool
  relnch : Nat
  /-- Whether `magic` is `IPC_REQ_MAGIC`. -/
  magic : Bool
  deriving DecidableEq, Repr

structure IpcSys (R : Type) where
  reqs : Nat → Option R
  reqQueueNo : Nat
  reqSendNo : Nat
  cntQueue : Nat
  cntSent : Nat
  req : R → IpcReq
  mailboxack : Int
  relnchFl : Bool
  relnchRpc : Option R
  spuriousresponsecnt : Nat
  /-- The asynchronous posts between their two sections. -/
  posting : Nat
  /-- The requests freed, and the synchronous ones whose thread was signalled. -/
  freed : List R
  signalled : List R
  accepted : List R
  mailbox : List R

variable {R : Type} [DecidableEq R]

def IpcSys.setReq (s : IpcSys R) (r : R) (f : IpcReq → IpcReq) : IpcSys R :=
  { s with req := Function.update s.req r (f (s.req r)) }

def IpcReq.setMagic (q : IpcReq) : IpcReq := { q with magic := true }
def IpcReq.setResult (v : Int) (q : IpcReq) : IpcReq := { q with result := v }
def IpcReq.answer (cmd : Nat) (v : Int) (q : IpcReq) : IpcReq := { q with reqCmd := cmd, result := v }

/-- `cnt_queue - cnt_sent`, in 32 bits. -/
def IpcSys.cnt (s : IpcSys R) : Nat := u32 (s.cntQueue + (2 ^ 32 - s.cntSent))

/-- `__ipc_queuerequest` and `__ipc_syncqueuerequest`. -/
def ipcQueueRequest (s : IpcSys R) (r : R) : IpcSys R × Int :=
  if 16 ≤ s.cnt then (s, ipcEqueuefull)
  else ({ s with reqs := Function.update s.reqs s.reqQueueNo (some r)
                 reqQueueNo := (s.reqQueueNo + 1) % 16
                 cntQueue := u32 (s.cntQueue + 1)
                 accepted := s.accepted ++ [r] }, ipcOk)

/-- What `__ipc_sendrequest` does first for a relaunch. -/
def ipcNoteRelaunch (s : IpcSys R) (r : R) : IpcSys R :=
  if (s.req r).relnch &&& relnchRelaunch ≠ 0 then
    { s with relnchFl := true, relnchRpc := some r
             mailboxack := if (s.req r).relnch &&& relnchBackground = 0 then s.mailboxack - 1 else s.mailboxack }
  else s

def ipcSendRequest (s : IpcSys R) : IpcSys R :=
  if 0 < s.cnt then
    match s.reqs s.reqSendNo with
    | some r =>
      let s := ipcNoteRelaunch (s.setReq r .setMagic) r
      { s with mailbox := s.mailbox ++ [r], reqSendNo := (s.reqSendNo + 1) % 16, cntSent := u32 (s.cntSent + 1)
               mailboxack := s.mailboxack - 1 }
    | none => s
  else s

/-- A send, when the mailbox is free. -/
def ipcKick (s : IpcSys R) : IpcSys R := if 0 < s.mailboxack then ipcSendRequest s else s

/-- The first section of `__ipc_asyncrequest`, with the request as its caller filled it. -/
def ipcAsyncQueue (s : IpcSys R) (r : R) (q : IpcReq) : IpcSys R × Int :=
  let got := ipcQueueRequest (s.setReq r fun _ => q) r
  if got.2 = ipcOk then ({ got.1 with posting := got.1.posting + 1 }, got.2) else ({ got.1 with freed := got.1.freed ++ [r] }, got.2)

/-- Its second section. -/
def ipcAsyncKick (s : IpcSys R) : IpcSys R := { ipcKick s with posting := s.posting - 1 }

/-- The whole of it, as a callback runs it. -/
def ipcAsyncRequest (s : IpcSys R) (r : R) (q : IpcReq) : IpcSys R :=
  let got := ipcAsyncQueue s r q
  if got.2 = ipcOk then ipcAsyncKick got.1 else got.1

/-- `__ipc_syncrequest` up to its sleep. -/
def ipcSyncRequest (s : IpcSys R) (r : R) (q : IpcReq) : IpcSys R × Int :=
  let got := ipcQueueRequest (s.setReq r fun _ => q) r
  if got.2 = ipcOk then (ipcKick got.1, got.2) else got

/-- A reply as IOS leaves it in the request, and what the request's callback posts. -/
structure IpcReply (R : Type) where
  req : R
  reqCmd : Nat
  result : Int
  posts : List (R × IpcReq)
  deriving DecidableEq, Repr

/-- The reply to the outstanding relaunch. -/
def IpcSys.relaunched (s : IpcSys R) (a : IpcReply R) : Bool :=
  (s.req a.req).magic ∧ a.reqCmd = iosIoctlv ∧ s.relnchFl ∧ s.relnchRpc = some a.req

def ipcRelaunchReply (s : IpcSys R) : IpcSys R :=
  { s with relnchFl := false, mailboxack := if s.mailboxack < 1 then s.mailboxack + 1 else s.mailboxack }

/-- The end of `__ipc_replyhandler`: the callback, or the thread that waits. -/
def ipcDeliver (s : IpcSys R) (a : IpcReply R) : IpcSys R :=
  if (s.req a.req).cb then
    let s := a.posts.foldl (fun s p => ipcAsyncRequest s p.1 p.2) s
    { s with freed := s.freed ++ [a.req] }
  else { s with signalled := s.signalled ++ [a.req] }

def ipcReplyHandler (s : IpcSys R) (a : IpcReply R) : IpcSys R :=
  let relaunched := s.relaunched a
  let s := s.setReq a.req (.answer a.reqCmd a.result)
  if (s.req a.req).magic then ipcDeliver (if relaunched then ipcRelaunchReply s else s) a
  else { s with spuriousresponsecnt := s.spuriousresponsecnt + 1 }

/-- The relaunch that `__ipc_ackhandler` finds done. -/
def ipcRelaunchAck (s : IpcSys R) : IpcSys R :=
  match s.relnchFl, s.relnchRpc with
  | true, some r => { s.setReq r (.setResult 0) with relnchFl := false, signalled := s.signalled ++ [r] }
  | _, _ => s

def ipcAckHandler (s : IpcSys R) : IpcSys R :=
  let s := { s with mailboxack := if s.mailboxack < 1 then s.mailboxack + 1 else s.mailboxack }
  if 0 < s.mailboxack then ipcSendRequest (ipcRelaunchAck s) else s

/-- `__ipc_interrupthandler`: the reply, then the acknowledge, as the control register says. -/
def ipcInterruptHandler (s : IpcSys R) (reply : Option (IpcReply R)) (ack : Bool) : IpcSys R :=
  let s := match reply with
    | some a => ipcReplyHandler s a
    | none => s
  if ack then ipcAckHandler s else s

/-! ## The system -/

inductive IpcEvent (R : Type) where
  | queue (r : R) (q : IpcReq)
  | kick
  | sync (r : R) (q : IpcReq)
  | interrupt (reply : Option (IpcReply R)) (ack : Bool)
  deriving DecidableEq, Repr

def ipcNext (s : IpcSys R) : IpcEvent R → IpcSys R
  | .queue r q => (ipcAsyncQueue s r q).1
  | .kick => ipcAsyncKick s
  | .sync r q => (ipcSyncRequest s r q).1
  | .interrupt reply ack => ipcInterruptHandler s reply ack

/-- A second section follows a first one. -/
def ipcGuard (s : IpcSys R) : IpcEvent R → Prop
  | .kick => 0 < s.posting
  | _ => True

instance (s : IpcSys R) : ∀ e, Decidable (ipcGuard s e)
  | .kick => inferInstanceAs (Decidable (_ < _))
  | .queue .. => inferInstanceAs (Decidable True)
  | .sync .. => inferInstanceAs (Decidable True)
  | .interrupt .. => inferInstanceAs (Decidable True)

/-- **The ring, its users and IOS.** -/
def ipcSystem : System (IpcSys R) (IpcEvent R) where
  enabled := ipcGuard
  next := ipcNext

instance (s : IpcSys R) (e : IpcEvent R) : Decidable (ipcSystem.enabled s e) := inferInstanceAs (Decidable (ipcGuard s e))

/-- After `__IPC_ClntInit`. -/
def ipcStart (req : R → IpcReq) : IpcSys R where
  reqs := fun _ => none
  reqQueueNo := 0
  reqSendNo := 0
  cntQueue := 0
  cntSent := 0
  req := req
  mailboxack := 1
  relnchFl := false
  relnchRpc := none
  spuriousresponsecnt := 0
  posting := 0
  freed := []
  signalled := []
  accepted := []
  mailbox := []

end Libogc
