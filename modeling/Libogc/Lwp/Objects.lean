import Libogc.Lwp.ObjmgrRuns
/-!
# Objects — the slots of semaphores, mutexes, message boxes, condition variables and thread queues

Each class has an `Init` and a `Destroy` (or `Close`) on top of the object manager.  An `Init` runs with dispatching disabled.  A
`Destroy` opens the handle and wakes who waits with dispatching disabled, enables it, which may switch to another thread, and then
closes and frees the slot.

The system is one class, whose calls share nothing with those of another.  `live` is history: the handles an `Init` returned and no
`Destroy` has freed since.
-/
namespace Libogc

open Links Runs

inductive ObjClass where
  | tqueue
  | mutex
  | sema
  | cond
  | mbox
  deriving DecidableEq, Repr

def ObjClass.objType : ObjClass → Nat
  | .tqueue => 2
  | .mutex => 3
  | .sema => 4
  | .cond => 5
  | .mbox => 6

/-- `LWP_MAX_TQUEUES`, `LWP_MAX_MUTEXES`, `LWP_MAX_SEMAS`, `LWP_MAX_CONDVARS` and `LWP_MAX_MQUEUES`. -/
def ObjClass.maxNodes : ObjClass → Nat
  | .tqueue => 64
  | .mutex => 64
  | .sema => 64
  | .cond => 64
  | .mbox => 64

/-- The null handle of every class. -/
def lwpObjNull : Nat := 0xffffffff

/-- The classes whose `Destroy` may find its object busy: a locked mutex, a condition somebody waits on. -/
def ObjClass.mayBeBusy : ObjClass → Bool
  | .mutex | .cond => true
  | _ => false

structure ObjCalls (T : Type) where
  info : Objinfo
  /-- The slot a thread's `Destroy` has yet to close or, once it did, to free. -/
  destroying : T → Option (Nat × Bool)
  live : Nat → Bool

variable {T : Type} [DecidableEq T]

def Objinfo.handle (info : Objinfo) (c : ObjClass) (object : Nat) : Nat :=
  lwpObjMaskType c.objType ||| lwpObjMaskId (info.id object)

/-- `__lwp_sema_open` and its like. -/
def lwpObjectOpen (c : ObjClass) (info : Objinfo) (hndl : Nat) : Option Nat :=
  if hndl = lwpObjNull ∨ lwpObjType hndl ≠ c.objType then none else (lwpObjmgrGet info (lwpObjMaskId hndl) ⟨true, 0⟩).1

/-- `__lwp_sema_allocate` and its like. -/
def lwpObjectAllocate (info : Objinfo) : Objinfo × Option Nat :=
  match lwpObjmgrAllocate info with
  | (info, some object) => (lwpObjmgrOpen info object, some object)
  | (info, none) => (info, none)

/-- `LWP_SemInit` and its like; `MQ_Init` gives the object back when its buffers cannot be had. -/
def lwpObjectInit (c : ObjClass) (s : ObjCalls T) (buffers : Bool) : ObjCalls T × Option Nat :=
  match lwpObjectAllocate s.info with
  | (info, some object) =>
    if c = .mbox ∧ buffers = false then ({ s with info := lwpObjmgrFree (lwpObjmgrClose info object) object }, none)
    else ({ s with info := info, live := Function.update s.live (info.handle c object) true }, some (info.handle c object))
  | (info, none) => ({ s with info := info }, none)

/-- The slot a `Destroy` goes on to free. -/
def lwpObjectDestroys (c : ObjClass) (info : Objinfo) (hndl : Nat) (busy : Bool) : Option Nat :=
  if c.mayBeBusy ∧ busy then none else lwpObjectOpen c info hndl

/-- `LWP_SemDestroy` and its like, up to where they enable dispatching. -/
def lwpObjectDestroy (c : ObjClass) (s : ObjCalls T) (t : T) (hndl : Nat) (busy : Bool) : ObjCalls T :=
  match lwpObjectDestroys c s.info hndl busy with
  | some object => { s with destroying := Function.update s.destroying t (some (object, false)) }
  | none => s

/-- The rest of them, `__lwp_sema_free` and its like: the slot is closed, then freed. -/
def lwpObjectClose (s : ObjCalls T) (t : T) : ObjCalls T :=
  match s.destroying t with
  | some (object, false) =>
    { s with info := lwpObjmgrClose s.info object, destroying := Function.update s.destroying t (some (object, true)) }
  | _ => s

def lwpObjectFree (c : ObjClass) (s : ObjCalls T) (t : T) : ObjCalls T :=
  match s.destroying t with
  | some (object, true) =>
    { s with info := lwpObjmgrFree s.info object, destroying := Function.update s.destroying t none
             live := Function.update s.live (s.info.handle c object) false }
  | _ => s

/-! ## The system -/

inductive ObjCall (T : Type) where
  | init (buffers : Bool)
  | destroy (t : T) (hndl : Nat) (busy : Bool)
  | close (t : T)
  | free (t : T)
  | store (i : Nat) (word : Option Nat)
  deriving DecidableEq, Repr

def objCallNext (c : ObjClass) (s : ObjCalls T) : ObjCall T → ObjCalls T
  | .init buffers => (lwpObjectInit c s buffers).1
  | .destroy t hndl busy => lwpObjectDestroy c s t hndl busy
  | .close t => lwpObjectClose s t
  | .free t => lwpObjectFree c s t
  | .store i word => { s with info := s.info.store i word }

/-- A thread is in one `Destroy` at a time. -/
def objCallGuard (s : ObjCalls T) : ObjCall T → Bool
  | .init _ => true
  | .destroy t _ _ => (s.destroying t).isNone
  | .close t => (s.destroying t).any (!·.2)
  | .free t => (s.destroying t).any (·.2)
  | .store i _ => !s.info.owns i

def objCallSystem (c : ObjClass) : System (ObjCalls T) (ObjCall T) where
  enabled s e := objCallGuard s e = true
  next := objCallNext c

instance (c : ObjClass) (s : ObjCalls T) (e : ObjCall T) : Decidable ((objCallSystem c).enabled s e) :=
  inferInstanceAs (Decidable (_ = _))

/-- **No `Destroy` opens a slot that another is about to close**, nor the word past the table. -/
def objCallQuiet (c : ObjClass) (s : ObjCalls T) : ObjCall T → Prop
  | .destroy _ hndl busy => ∀ object ∈ lwpObjectDestroys c s.info hndl busy,
      lwpObjMaskId hndl ≠ s.info.maxId ∧ ∀ u, s.destroying u ≠ some (object, false)
  | _ => True

instance [Fintype T] (c : ObjClass) (s : ObjCalls T) : ∀ e, Decidable (objCallQuiet c s e)
  | .init _ => inferInstanceAs (Decidable True)
  | .destroy _ hndl busy =>
    inferInstanceAs (Decidable (∀ object ∈ lwpObjectDestroys c s.info hndl busy, _ ∧ _))
  | .close _ => inferInstanceAs (Decidable True)
  | .free _ => inferInstanceAs (Decidable True)
  | .store .. => inferInstanceAs (Decidable True)

/-- A class after `__lwp_objmgr_initinfo`, before any call. -/
def objCallStart (c : ObjClass) (links : Mem ObjQ Nat) (words : Nat → Option Nat) (ids : Nat → Nat) (information : Nat → Bool)
    (alloc : ObjAlloc) : ObjCalls T where
  info := lwpObjmgrInitinfo links words ids information c.maxNodes alloc
  destroying := fun _ => none
  live := fun _ => false

end Libogc
