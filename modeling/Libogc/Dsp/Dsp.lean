import Libogc.Lib.Links
import Libogc.Lib.Runs
/-!
# Dsp — the task list of `dsp.c`

The tasks of the DSP are kept in a doubly linked list ordered by priority, between `__dsp_firsttask` and `__dsp_lasttask`; null
pointers are its ends.  `__dsp_currtask` is the one the DSP runs, `__dsp_rudetask` one that asserted itself and goes next.  The mails of
the DSP drive the list: the handler runs a callback of the current task, which may add tasks, and goes to the next task or removes a
finished one.  The mails sent to the DSP are left out.

`live` is history: the tasks added and not yet done.
-/
namespace Libogc

open Links Runs

inductive DspState where
  | init
  | run
  | yield
  | done
  deriving DecidableEq, Repr

def dsptaskClearall : Nat := 0
def dsptaskAttach : Nat := 1
def dsptaskCancel : Nat := 2

structure DspTask where
  state : DspState
  prio : Nat
  flags : Nat
  deriving DecidableEq, Repr

structure DspSys (T : Type) where
  first : Option T
  last : Option T
  curr : Option T
  rude : Option T
  rudePend : Bool
  next : T → Option T
  prev : T → Option T
  task : T → DspTask
  live : T → Bool

/-- The mails that `__dsp_def_taskcb` knows, `0xDCD10000` to `0xDCD10004`, and any other. -/
inductive DspMail where
  | init
  | resume
  | yield
  | done
  | request
  | other
  deriving DecidableEq, Repr

variable {T : Type} [DecidableEq T]

def DspSys.setTask (s : DspSys T) (t : T) (f : DspTask → DspTask) : DspSys T :=
  { s with task := Function.update s.task t (f (s.task t)) }

def DspTask.setState (v : DspState) (k : DspTask) : DspTask := { k with state := v }
def DspTask.setPrio (v : Nat) (k : DspTask) : DspTask := { k with prio := v }
def DspTask.setFlags (v : Nat) (k : DspTask) : DspTask := { k with flags := v }

def DspSys.setNext (s : DspSys T) (t : T) (v : Option T) : DspSys T := { s with next := Function.update s.next t v }
def DspSys.setPrev (s : DspSys T) (t : T) (v : Option T) : DspSys T := { s with prev := Function.update s.prev t v }

/-- The loop of `__dsp_inserttask`: the first task from `t` on that a task of priority `prio` goes before. -/
def dspFind (s : DspSys T) (prio : Nat) : Nat → Option T → Option T
  | fuel + 1, some t => if prio < (s.task t).prio then some t else dspFind s prio fuel (s.next t)
  | _, _ => none

/-- What it does there. -/
def dspInsertBefore (s : DspSys T) (task t : T) : DspSys T :=
  let s := s.setPrev task (s.prev t)
  let s := s.setPrev t (some task)
  let s := s.setNext task (some t)
  match s.prev task with
  | none => { s with first := some task }
  | some p => s.setNext p (some task)

/-- And past its end. -/
def dspAppend (s : DspSys T) (task l : T) : DspSys T :=
  let s := s.setNext l (some task)
  let s := s.setNext task none
  let s := s.setPrev task (some l)
  { s with last := some task }

def dspInserttask [Fintype T] (s : DspSys T) (task : T) : DspSys T :=
  match s.first with
  | none => ({ s with curr := some task, last := some task, first := some task }.setNext task none).setPrev task none
  | some f =>
    match dspFind s (s.task task).prio (Fintype.card T) (some f), s.last with
    | some t, _ => dspInsertBefore s task t
    | none, some l => dspAppend s task l
    | none, none => s

def dspRemovetask (s : DspSys T) (task : T) : DspSys T :=
  let s := s.setTask task fun k => (k.setFlags dsptaskClearall).setState .done
  if s.first = some task then
    match s.next task with
    | some n => { s with first := some n }.setPrev n none
    | none => { s with curr := none, last := none, first := none }
  else if s.last = some task then
    match s.prev task with
    | some p => { { s with last := some p }.setNext p none with curr := s.first }
    | none => s
  else
    match s.prev task, s.next task with
    | some p, some n => ({ s with curr := some n }.setNext p (some n)).setPrev n (some p)
    | _, _ => s

/-- `DSP_AddTask`, of a task with a priority. -/
def dspAddTask [Fintype T] (s : DspSys T) (task : T) (prio : Nat) : DspSys T :=
  let s := dspInserttask (s.setTask task (.setPrio prio)) task
  let s := s.setTask task fun k => (k.setState .init).setFlags dsptaskAttach
  { s with live := Function.update s.live task true }

def dspCancelTask (s : DspSys T) (task : T) : DspSys T :=
  s.setTask task fun k => k.setFlags (k.flags ||| dsptaskCancel)

def dspAssertTask (s : DspSys T) (task : T) : DspSys T × Option T :=
  match s.curr with
  | some c =>
    if task = c ∨ (s.task task).prio < (s.task c).prio then ({ s with rude := some task, rudePend := true }, some task)
    else (s, none)
  | none => (s, none)

/-- What a callback adds. -/
def dspAdds [Fintype T] (s : DspSys T) (adds : List (T × Nat)) : DspSys T := adds.foldl (fun s p => dspAddTask s p.1 p.2) s

def DspSys.clearRude (s : DspSys T) : DspSys T := { s with rude := none, rudePend := false }

/-- The mail `0xDCD10002`: the current task yields. -/
def dspYield [Fintype T] (s : DspSys T) (c : T) (adds : List (T × Nat)) : DspSys T :=
  if s.rudePend then
    if s.rude = some c then dspAdds s.clearRude adds
    else { s.setTask c (.setState .yield) with curr := s.rude }.clearRude
  else
    match s.next c with
    | none => if s.first = some c then dspAdds s adds else { s.setTask c (.setState .yield) with curr := s.first }
    | some n => { s.setTask c (.setState .yield) with curr := some n }

/-- Removing what a pointer names. -/
def dspRemove (s : DspSys T) : Option T → DspSys T
  | some t => dspRemovetask s t
  | none => s

/-- What follows a callback, for the task that is then the current one. -/
def DspSys.onCurr (s : DspSys T) (f : T → DspSys T) : DspSys T :=
  match s.curr with
  | some c => f c
  | none => s

/-- The current task is alone in the list. -/
def dspDoneOnly (s : DspSys T) (c : T) : DspSys T := dspRemovetask (s.setTask c (.setState .done)) c

/-- It is the last one: the first goes on, and the last is removed. -/
def dspDoneLast (s : DspSys T) (c : T) : DspSys T :=
  let s := s.setTask c (.setState .done)
  let s := { s with curr := s.first }
  dspRemove s s.last

/-- The next one goes on, and the one before it is removed. -/
def dspDoneMiddle (s : DspSys T) (c : T) : DspSys T :=
  let s := s.setTask c (.setState .done)
  let s := { s with curr := s.next c }
  dspRemove s (s.curr.bind s.prev)

/-- A task that asserted itself goes on. -/
def dspDoneRude (s : DspSys T) (c : T) : DspSys T :=
  let s := dspRemovetask s c
  { s with curr := s.rude }.clearRude

/-- The mail `0xDCD10003`: the current task is done, and its callback adds tasks. -/
def dspDone [Fintype T] (s : DspSys T) (c : T) (adds : List (T × Nat)) : DspSys T :=
  if s.rudePend ∧ s.rude ≠ some c then (dspAdds s adds).onCurr (dspDoneRude (dspAdds s adds))
  else
    let s := if s.rudePend then s.clearRude else s
    match s.next c with
    | none =>
      if s.first = some c then (dspAdds s adds).onCurr (dspDoneOnly (dspAdds s adds))
      else (dspAdds s adds).onCurr (dspDoneLast (dspAdds s adds))
    | some _ => (dspAdds s adds).onCurr (dspDoneMiddle (dspAdds s adds))

/-- The mail that counts: a cancelled task's yield is its end. -/
def DspSys.mail (s : DspSys T) (c : T) (m : DspMail) : DspMail :=
  if (s.task c).flags &&& dsptaskCancel ≠ 0 ∧ m = .yield then .done else m

/-- `__dsp_def_taskcb`, for a mail, with what the callback it runs adds. -/
def dspDefTaskcb [Fintype T] (s : DspSys T) (m : DspMail) (adds : List (T × Nat)) : DspSys T :=
  match s.curr with
  | none => s
  | some c =>
    match s.mail c m with
    | .init => dspAdds (s.setTask c (.setState .run)) adds
    | .resume => dspAdds (s.setTask c (.setState .run)) adds
    | .yield => dspYield s c adds
    | .done => let s := dspDone s c adds; { s with live := Function.update s.live c false }
    | .request => dspAdds s adds
    | .other => s

/-! ## The system -/

inductive DspEvent (T : Type) where
  | add (task : T) (prio : Nat)
  | assert (task : T)
  | cancel (task : T)
  | mail (m : DspMail) (adds : List (T × Nat))
  deriving DecidableEq, Repr

def dspNext [Fintype T] (s : DspSys T) : DspEvent T → DspSys T
  | .add task prio => dspAddTask s task prio
  | .assert task => (dspAssertTask s task).1
  | .cancel task => dspCancelTask s task
  | .mail m adds => dspDefTaskcb s m adds

/-- A task is added while it is not in the list, and asserted or cancelled while it is. -/
def dspGuard (s : DspSys T) : DspEvent T → Prop
  | .add task _ => s.live task = false
  | .assert task => s.live task = true
  | .cancel task => s.live task = true
  | .mail _ adds => (adds.map Prod.fst).Nodup ∧ ∀ p ∈ adds, s.live p.1 = false

instance (s : DspSys T) : ∀ e, Decidable (dspGuard s e)
  | .add .. => inferInstanceAs (Decidable (_ = _))
  | .assert _ => inferInstanceAs (Decidable (_ = _))
  | .cancel _ => inferInstanceAs (Decidable (_ = _))
  | .mail .. => inferInstanceAs (Decidable (_ ∧ _))

/-- **The task list, its users and the DSP.** -/
def dspSystem [Fintype T] : System (DspSys T) (DspEvent T) where
  enabled := dspGuard
  next := dspNext

instance [Fintype T] (s : DspSys T) (e : DspEvent T) : Decidable (dspSystem.enabled s e) := inferInstanceAs (Decidable (dspGuard s e))

/-- After `DSP_Init`, on whatever the tasks held. -/
def dspStart (next prev : T → Option T) (task : T → DspTask) : DspSys T where
  first := none
  last := none
  curr := none
  rude := none
  rudePend := false
  next := next
  prev := prev
  task := task
  live := fun _ => false

end Libogc
