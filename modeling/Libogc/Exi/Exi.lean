import Libogc.Lib.Runs
import Libogc.Lwp.Queue
import Mathlib.Algebra.BigOperators.Fin
/-!
# Exi — the channel lock of `exi.c`

A channel is locked by one device at a time.  Who finds it locked may leave a callback: a node goes from the free list to the channel's
list of waiters, and the unlock that takes it off calls it back.  `EXI_LockEx` leaves `__exi_unlockedhandler`, which wakes a thread
asleep on the channel, and sleeps.

An unlock runs its callback last, so what a callback does are events of their own.  `EXI_LockEx` is cut where interrupts are enabled and
where its thread sleeps.
-/
namespace Libogc

open Links Runs

abbrev ExiChan := Fin 3

def exiLockDevs : Nat := 32

inductive ExiQ where
  | free
  | chan (ch : ExiChan)
  deriving DecidableEq, Repr

inductive ExiCallback where
  | unlockedhandler
  | user (cb : Nat)
  deriving DecidableEq, Repr

structure ExiLckDev where
  dev : Nat
  unlockcb : Option ExiCallback
  deriving DecidableEq, Repr

/-- Where a thread is in `EXI_LockEx`: past its first attempt, in `LWP_ThreadSleep`, or taken off the thread queue and not yet back. -/
inductive ExiThread where
  | running
  | trying (ch : ExiChan) (dev : Nat)
  | asleep (ch : ExiChan) (dev : Nat)
  | woken (ch : ExiChan) (dev : Nat)
  deriving DecidableEq, Repr

/-- The lock nodes are indices of `lckdevs`; an `unlockqueue` that was not created is none. -/
structure ExiSys (T : Type) where
  links : Mem ExiQ Nat
  lckdevs : Nat → ExiLckDev
  locked : ExiChan → Bool
  lockeddev : ExiChan → Nat
  unlockqueue : ExiChan → Option (List T)
  thread : T → ExiThread
  /-- The waiters a channel was left, and those it called back. -/
  posts : ExiChan → List ExiLckDev
  ran : ExiChan → List ExiLckDev

variable {T : Type} [DecidableEq T]

/-- `EXI_Lock` once it has a node. -/
def exiEnqueue (s : ExiSys T) (ch : ExiChan) (dev : Nat) (cb : ExiCallback) (lckd : Nat) : ExiSys T :=
  { s with lckdevs := Function.update s.lckdevs lckd ⟨dev, some cb⟩
           links := lwpQueueAppendI s.links (.chan ch) lckd
           posts := Function.update s.posts ch (s.posts ch ++ [⟨dev, some cb⟩]) }

def exiWait (s : ExiSys T) (ch : ExiChan) (dev : Nat) (cb : ExiCallback) : ExiSys T :=
  let got := lwpQueueGetI s.links .free
  match got.2 with
  | .node lckd => exiEnqueue { s with links := got.1 } ch dev cb lckd
  | _ => { s with links := got.1 }

def exiLock (s : ExiSys T) (ch : ExiChan) (dev : Nat) (unlockCB : Option ExiCallback) : ExiSys T × Nat :=
  if s.locked ch then
    match unlockCB with
    | some cb => (exiWait s ch dev cb, 0)
    | none => (s, 0)
  else ({ s with lockeddev := Function.update s.lockeddev ch dev, locked := Function.update s.locked ch true }, 1)

def ExiThread.wake : ExiThread → ExiThread
  | .asleep ch dev => .woken ch dev
  | t => t

def ExiSys.setThread (s : ExiSys T) (t : T) (v : ExiThread) : ExiSys T := { s with thread := Function.update s.thread t v }

/-- `LWP_ThreadSignal` on a channel's queue. -/
def exiSignal (s : ExiSys T) (ch : ExiChan) : ExiSys T :=
  match s.unlockqueue ch with
  | some (t :: ts) =>
    { s.setThread t (s.thread t).wake with unlockqueue := Function.update s.unlockqueue ch (some ts) }
  | _ => s

/-- A callback an unlock runs; a user's own does what it does in later events. -/
def exiRun (s : ExiSys T) (ch : ExiChan) (lckd : ExiLckDev) : ExiSys T :=
  let s := { s with ran := Function.update s.ran ch (s.ran ch ++ [lckd]) }
  match lckd.unlockcb with
  | some .unlockedhandler => exiSignal s ch
  | _ => s

/-- `EXI_Unlock` once it has a node. -/
def exiDequeue (s : ExiSys T) (ch : ExiChan) (lckd : Nat) : ExiSys T :=
  let s := { s with links := lwpQueueAppendI s.links .free lckd }
  match (s.lckdevs lckd).unlockcb with
  | some _ => exiRun s ch (s.lckdevs lckd)
  | none => s

def exiUnlock (s : ExiSys T) (ch : ExiChan) : ExiSys T × Nat :=
  if s.locked ch then
    let s := { s with locked := Function.update s.locked ch false }
    if lwpQueueIsempty s.links (.chan ch) then (s, 1)
    else
      let got := lwpQueueFirstnodeI s.links (.chan ch)
      match got.2 with
      | .node lckd => (exiDequeue { s with links := got.1 } ch lckd, 1)
      | _ => ({ s with links := got.1 }, 1)
  else (s, 0)

/-- `LWP_ThreadSleep` on a channel's queue, from a thread. -/
def exiSleep (s : ExiSys T) (t : T) (ch : ExiChan) (dev : Nat) : ExiSys T :=
  { s.setThread t (.asleep ch dev) with
    unlockqueue := Function.update s.unlockqueue ch (some ((s.unlockqueue ch).getD [] ++ [t])) }

/-- The loop of `EXI_LockEx` up to a sleep. -/
def exiLockLoop (s : ExiSys T) (t : T) (ch : ExiChan) (dev : Nat) : ExiSys T :=
  let got := exiLock s ch dev (some .unlockedhandler)
  if got.2 = 0 then exiSleep got.1 t ch dev else got.1.setThread t .running

/-- `LWP_InitQueue` when there is no queue yet; it fails when there is no room for one. -/
def exiInitQueue (s : ExiSys T) (ch : ExiChan) (room : Bool) : Option (ExiSys T) :=
  if s.unlockqueue ch = none then
    if room then some { s with unlockqueue := Function.update s.unlockqueue ch (some []) } else none
  else some s

/-- The first attempt of `EXI_LockEx`. -/
def exiLockExTry (s : ExiSys T) (t : T) (ch : ExiChan) (dev : Nat) : ExiSys T :=
  let got := exiLock s ch dev none
  if got.2 = 0 then got.1.setThread t (.trying ch dev) else got.1

/-- What follows it, with interrupts disabled. -/
def exiLockExBlock (s : ExiSys T) (t : T) (ch : ExiChan) (dev : Nat) (room : Bool) : ExiSys T :=
  match exiInitQueue s ch room with
  | some s => exiLockLoop s t ch dev
  | none => s.setThread t .running

/-- `EXI_LockEx` in an interrupt handler, where `LWP_ThreadSleep` fails. -/
def exiLockExIsr (s : ExiSys T) (ch : ExiChan) (dev : Nat) (room : Bool) : ExiSys T :=
  let got := exiLock s ch dev none
  if got.2 = 0 then
    match exiInitQueue got.1 ch room with
    | some s => (exiLock s ch dev (some .unlockedhandler)).1
    | none => got.1
  else got.1

/-! ## The system -/

inductive ExiEvent (T : Type) where
  | lock (ch : ExiChan) (dev : Nat) (unlockCB : Option ExiCallback)
  | unlock (ch : ExiChan)
  | lockEx (t : T) (ch : ExiChan) (dev : Nat)
  | block (t : T) (room : Bool)
  | retry (t : T)
  | lockExIsr (ch : ExiChan) (dev : Nat) (room : Bool)
  deriving DecidableEq, Repr

def exiNext (s : ExiSys T) : ExiEvent T → ExiSys T
  | .lock ch dev unlockCB => (exiLock s ch dev unlockCB).1
  | .unlock ch => (exiUnlock s ch).1
  | .lockEx t ch dev => exiLockExTry s t ch dev
  | .block t room =>
    match s.thread t with
    | .trying ch dev => exiLockExBlock s t ch dev room
    | _ => s
  | .retry t =>
    match s.thread t with
    | .woken ch dev => exiLockLoop s t ch dev
    | _ => s
  | .lockExIsr ch dev room => exiLockExIsr s ch dev room

def ExiThread.isTrying : ExiThread → Bool
  | .trying .. => true
  | _ => false

def ExiThread.isWoken : ExiThread → Bool
  | .woken .. => true
  | _ => false

/-- A thread is at one place at a time; who is not a thread may call when it likes. -/
def exiGuard (s : ExiSys T) : ExiEvent T → Bool
  | .lockEx t _ _ => s.thread t = .running
  | .block t _ => (s.thread t).isTrying
  | .retry t => (s.thread t).isWoken
  | _ => true

def exiSystem : System (ExiSys T) (ExiEvent T) where
  enabled s e := exiGuard s e = true
  next := exiNext

instance (s : ExiSys T) (e : ExiEvent T) : Decidable (exiSystem.enabled s e) := inferInstanceAs (Decidable (_ = _))

/-- The waiters that were not called back. -/
def exiOutstanding (s : ExiSys T) : Nat := ∑ ch, ((s.posts ch).length - (s.ran ch).length)

/-- The events that leave a waiter. -/
def exiLeaves (s : ExiSys T) : ExiEvent T → Bool
  | .lock ch _ (some _) => s.locked ch
  | .block t room =>
    match s.thread t with
    | .trying ch _ => s.locked ch && (room || (s.unlockqueue ch).isSome)
    | _ => false
  | .retry t =>
    match s.thread t with
    | .woken ch _ => s.locked ch
    | _ => false
  | .lockExIsr ch _ room => s.locked ch && (room || (s.unlockqueue ch).isSome)
  | _ => false

/-- **At most 32 waiters are outstanding.** -/
def exiRoom (s : ExiSys T) (e : ExiEvent T) : Prop := exiLeaves s e = true → exiOutstanding s < exiLockDevs

instance (s : ExiSys T) (e : ExiEvent T) : Decidable (exiRoom s e) := inferInstanceAs (Decidable (_ → _))

/-- After `__exi_initmap`, on whatever memory held. -/
def exiStart (links : Mem ExiQ Nat) (lckdevs : Nat → ExiLckDev) : ExiSys T where
  links := (List.finRange 3).foldl (fun m ch => lwpQueueInitEmpty m (.chan ch)) (lwpQueueInitialize links .free id exiLockDevs)
  lckdevs := lckdevs
  locked := fun _ => false
  lockeddev := fun _ => 0
  unlockqueue := fun _ => none
  thread := fun _ => .running
  posts := fun _ => []
  ran := fun _ => []

end Libogc
