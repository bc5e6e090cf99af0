import Libogc.Lwp.Watchdog
/-!
# Alarm — `system_alarm.c`

The alarms of the system library.  Each object has a watchdog of its own inside it, which `SYS_SetAlarm` and `SYS_SetPeriodicAlarm`
initialise and insert; its routine puts a periodic alarm back and runs the callback.

The system is every order of these calls on any alarms, with tickles of the watchdog queue in between.  What a callback does are
events of their own, and `resume` is its return to the tickle's loop.
-/
namespace Libogc

open Links Runs

/-- `TB_TIMER_CLOCK`, with the bus clock of the GameCube. -/
def tbTimerClock : Nat := 162000000 / 4000

structure Timespec where
  tvSec : Int
  tvNsec : Int
  deriving DecidableEq, Repr

def secsToTicks (sec : Int) : Nat := u64 sec * (tbTimerClock * 1000) % 2 ^ 64
def nanosecsToTicks (nsec : Int) : Nat := u64 nsec * (tbTimerClock / 125) % 2 ^ 64 / 8000

def lwpWdCalcTicks (tp : Timespec) : Int := s64 ((secsToTicks tp.tvSec + nanosecsToTicks tp.tvNsec) % 2 ^ 64)

/-- An alarm object but for its watchdog; `isOpen` is whether the object table has it, and a null callback is 0. -/
structure AlarmSt where
  isOpen : Bool
  ticks : Int
  periodic : Int
  startPer : Int
  alarmhandler : Nat
  cbArg : Nat
  deriving DecidableEq, Repr

structure AlarmSys (A : Type) where
  q : Watchdogs A
  alarm : A → AlarmSt
  /-- A tickle is in its loop, at a routine. -/
  ticking : Bool
  /-- The alarms that were set and have neither expired nor been cancelled since. -/
  armed : A → Bool
  /-- The callbacks that ran, with their arguments, the last one first. -/
  calls : List (A × Nat × Nat)

variable {A : Type} [DecidableEq A] [Fintype A]

def AlarmSys.setAlarm (s : AlarmSys A) (a : A) (f : AlarmSt → AlarmSt) : AlarmSys A :=
  { s with alarm := Function.update s.alarm a (f (s.alarm a)) }

def AlarmSys.setArmed (s : AlarmSys A) (a : A) (b : Bool) : AlarmSys A := { s with armed := Function.update s.armed a b }

def AlarmSys.setQ (s : AlarmSys A) (q : Watchdogs A) : AlarmSys A := { s with q := q }

/-- `__lwp_wd_initialize`; the routine of every watchdog here is `__sys_alarmhandler` with the watchdog's own alarm. -/
def Watchdogs.lwpWdInitialize (q : Watchdogs A) (a : A) : Watchdogs A := q.setState a .inactive

/-- The fields that say when an alarm goes off, and what it calls. -/
def AlarmSt.given (ticks periodic startPer : Int) (alarmhandler cbArg : Nat) (st : AlarmSt) : AlarmSt :=
  { st with ticks := ticks, periodic := periodic, startPer := startPer, alarmhandler := alarmhandler, cbArg := cbArg }

/-- What creation, cancellation and removal leave of an alarm. -/
def AlarmSt.cleared (isOpen : Bool) (st : AlarmSt) : AlarmSt := { st.given 0 0 0 0 st.cbArg with isOpen := isOpen }

/-- `__sys_alarmhandler`, up to the callback. -/
def sysAlarmhandler (s : AlarmSys A) (a : A) (level start now : Nat) : AlarmSys A :=
  let alarm := s.alarm a
  if alarm.isOpen then
    let s := if alarm.periodic ≠ 0 then (s.setQ (s.q.lwpWdInsertTicks a alarm.periodic level start now)).setArmed a true else s
    if alarm.alarmhandler ≠ 0 then { s with calls := (a, alarm.alarmhandler, alarm.cbArg) :: s.calls } else s
  else s

/-- `a` is the object that `__lwp_syswd_allocate` finds. -/
def sysCreateAlarm (s : AlarmSys A) (a : A) : AlarmSys A := s.setAlarm a (.cleared true)

/-- The two ways to set an alarm. -/
def sysSet (s : AlarmSys A) (a : A) (ticks periodic startPer : Int) (cb cbarg : Nat) (interval : Int) (level start now : Nat) :
    AlarmSys A × Int :=
  if (s.alarm a).isOpen then
    let s := s.setAlarm a (.given ticks periodic startPer cb cbarg)
    (((s.setQ (s.q.lwpWdInitialize a)).setQ ((s.q.lwpWdInitialize a).lwpWdInsertTicks a interval level start now)).setArmed a true,
      0)
  else (s, -1)

def sysSetAlarm (s : AlarmSys A) (a : A) (tp : Timespec) (cb cbarg level start now : Nat) : AlarmSys A × Int :=
  sysSet s a (lwpWdCalcTicks tp) 0 0 cb cbarg (lwpWdCalcTicks tp) level start now

def sysSetPeriodicAlarm (s : AlarmSys A) (a : A) (tpStart tpPeriod : Timespec) (cb cbarg level start now : Nat) :
    AlarmSys A × Int :=
  sysSet s a 0 (lwpWdCalcTicks tpPeriod) (lwpWdCalcTicks tpStart) cb cbarg (lwpWdCalcTicks tpStart) level start now

/-- The two ways to stop one; removal also closes the object. -/
def sysStop (s : AlarmSys A) (a : A) (isOpen : Bool) (level now : Nat) : AlarmSys A × Int :=
  if (s.alarm a).isOpen then
    let s := s.setAlarm a (.cleared isOpen)
    ((s.setQ (lwpWdRemove s.q a level now).1).setArmed a false, 0)
  else (s, -1)

def sysRemoveAlarm (s : AlarmSys A) (a : A) (level now : Nat) : AlarmSys A × Int := sysStop s a false level now
def sysCancelAlarm (s : AlarmSys A) (a : A) (level now : Nat) : AlarmSys A × Int := sysStop s a true level now

/-! ## The system -/

/-- The last words of an event are the nesting level and the times it reads. -/
inductive AlarmEvent (A : Type) where
  | create (a : A)
  | set (a : A) (tp : Timespec) (cb cbarg : Nat) (level start now : Nat)
  | setPeriodic (a : A) (tpStart tpPeriod : Timespec) (cb cbarg : Nat) (level start now : Nat)
  | cancel (a : A) (level now : Nat)
  | remove (a : A) (level now : Nat)
  | tickle (level now now' start now'' : Nat)
  | resume (level now start now' : Nat)
  deriving DecidableEq, Repr

/-- One round of the tickle's loop: the watchdog is taken off, and its routine runs when it was active. -/
def AlarmSys.expire (s : AlarmSys A) (a : A) (level now start now' : Nat) : AlarmSys A :=
  let r := lwpWdRemove s.q a level now
  let s := { s.setQ r.1 with ticking := true }
  if r.2 = .active then sysAlarmhandler (s.setArmed a false) a level start now' else s

def AlarmSys.tickle (s : AlarmSys A) (level now now' start now'' : Nat) : AlarmSys A :=
  match s.q.links.next (.head ()) with
  | .node a =>
    if s64 (diffTicks now (s.q.wd a).fire) ≤ 0 then s.expire a level now' start now''
    else s.setQ (lwpWdReset s.q a level now' now'')
  | _ => s

def AlarmSys.resume (s : AlarmSys A) (level now start now' : Nat) : AlarmSys A :=
  match s.q.links.next (.head ()) with
  | .node a => if (s.q.wd a).fire = 0 then s.expire a level now start now' else { s with ticking := false }
  | _ => { s with ticking := false }

def alarmNext (s : AlarmSys A) : AlarmEvent A → AlarmSys A
  | .create a => sysCreateAlarm s a
  | .set a tp cb cbarg level start now => (sysSetAlarm s a tp cb cbarg level start now).1
  | .setPeriodic a tpStart tpPeriod cb cbarg level start now =>
    (sysSetPeriodicAlarm s a tpStart tpPeriod cb cbarg level start now).1
  | .cancel a level now => (sysCancelAlarm s a level now).1
  | .remove a level now => (sysRemoveAlarm s a level now).1
  | .tickle level now now' start now'' => s.tickle level now now' start now''
  | .resume level now start now' => s.resume level now start now'

/-- Creation finds an object that is not open; a tickle does not run inside another. -/
def alarmGuard (s : AlarmSys A) : AlarmEvent A → Prop
  | .create a => (s.alarm a).isOpen = false
  | .tickle .. => s.ticking = false
  | .resume .. => s.ticking = true
  | _ => True

instance (s : AlarmSys A) : ∀ e, Decidable (alarmGuard s e)
  | .create _ => inferInstanceAs (Decidable (_ = _))
  | .tickle .. => inferInstanceAs (Decidable (_ = _))
  | .resume .. => inferInstanceAs (Decidable (_ = _))
  | .set .. => inferInstanceAs (Decidable True)
  | .setPeriodic .. => inferInstanceAs (Decidable True)
  | .cancel .. => inferInstanceAs (Decidable True)
  | .remove .. => inferInstanceAs (Decidable True)

/-- **The alarms and everybody who uses them.** -/
def alarmSystem : System (AlarmSys A) (AlarmEvent A) where
  enabled := alarmGuard
  next := alarmNext

instance (s : AlarmSys A) (e : AlarmEvent A) : Decidable (alarmSystem.enabled s e) := inferInstanceAs (Decidable (alarmGuard s e))

/-- After `__lwp_watchdog_init` and `__lwp_syswd_init`: the workspace starts out as zeroes. -/
def alarmStart (links : Mem Unit A) : AlarmSys A where
  q := { links := lwpQueueInitEmpty links (), wd := fun _ => ⟨0, .inactive, 0⟩, syncLevel := 0, syncCount := 0, dec := 0 }
  alarm := fun _ => ⟨false, 0, 0, 0, 0, 0⟩
  ticking := false
  armed := fun _ => false
  calls := []

/-- An event that sets an alarm, and one that stops it. -/
def AlarmEvent.Sets (a : A) : AlarmEvent A → Prop
  | .set b .. => b = a
  | .setPeriodic b .. => b = a
  | _ => False

def AlarmEvent.Stops (a : A) : AlarmEvent A → Prop
  | .cancel b .. => b = a
  | .remove b .. => b = a
  | _ => False

instance (a : A) : ∀ e, Decidable (AlarmEvent.Sets a e)
  | .set .. => inferInstanceAs (Decidable (_ = _))
  | .setPeriodic .. => inferInstanceAs (Decidable (_ = _))
  | .create _ => inferInstanceAs (Decidable False)
  | .cancel .. => inferInstanceAs (Decidable False)
  | .remove .. => inferInstanceAs (Decidable False)
  | .tickle .. => inferInstanceAs (Decidable False)
  | .resume .. => inferInstanceAs (Decidable False)

/-- **No alarm is set while it is armed.** -/
def alarmDisarmed (s : AlarmSys A) (e : AlarmEvent A) : Prop := ∀ a, e.Sets a → s.armed a = false

instance (s : AlarmSys A) (e : AlarmEvent A) : Decidable (alarmDisarmed s e) := inferInstanceAs (Decidable (∀ _, _))

/-! ## Steps -/

variable {s : AlarmSys A} {xs : List A} {a : A}

/-- **The queue holds exactly the armed alarms**, and an object that is not open has no callback. -/
structure AlarmInv (s : AlarmSys A) (xs : List A) : Prop where
  queue : WdQueue s.q xs
  armed : ∀ a, a ∈ xs ↔ s.armed a = true
  closed : ∀ a, (s.alarm a).isOpen = false → (s.alarm a).alarmhandler = 0

omit [DecidableEq A] [Fintype A] in
theorem AlarmInv.not_mem (h : AlarmInv s xs) (ha : s.armed a = false) : a ∉ xs := by
  rw [h.armed a, ha]
  exact fun he => by cases he

variable {q : Watchdogs A} {f : AlarmSt → AlarmSt} {b : A} {es : List (AlarmEvent A)}

theorem WdQueue.insertTicks (h : WdQueue q xs) (ha : a ∉ xs) (interval : Int) (level start now : Nat) :
    ∃ ys, WdQueue (q.lwpWdInsertTicks a interval level start now) ys ∧ ∀ b, b ∈ ys ↔ b = a ∨ b ∈ xs :=
  (h.setTimes a start ((start + interval.natAbs) % 2 ^ 64)).insert_mem ha level now

omit [Fintype A] in
theorem WdQueue.initialize (h : WdQueue q xs) (ha : a ∉ xs) : WdQueue (q.lwpWdInitialize a) xs := by
  have hwd : (q.lwpWdInitialize a).wd = q.wd := by
    unfold Watchdogs.lwpWdInitialize Watchdogs.setState
    dsimp only
    rw [Function.update_eq_self_iff, ← h.settled a ha]
  refine ⟨h.holds, fun b => ?_, fun b hb => ?_⟩
  · rw [hwd]
    exact h.active b
  · rw [hwd]
    exact h.settled b hb

omit [Fintype A] in
theorem armed_update {ys : List A} {armed : A → Bool} {b : Bool} (h : ∀ c, c ∈ xs ↔ armed c = true)
    (ha : a ∈ ys ↔ b = true) (hy : ∀ c, c ≠ a → (c ∈ ys ↔ c ∈ xs)) (c : A) : c ∈ ys ↔ Function.update armed a b c = true := by
  by_cases hc : c = a
  · rw [hc, Function.update_self]
    exact ha
  · rw [Function.update_of_ne hc, hy c hc]
    exact h c

omit [Fintype A] in
theorem AlarmInv.setAlarm (h : AlarmInv s xs) (a : A) (hf : (f (s.alarm a)).isOpen = false → (f (s.alarm a)).alarmhandler = 0) :
    AlarmInv (s.setAlarm a f) xs := by
  refine ⟨h.queue, h.armed, fun b hb => ?_⟩
  by_cases hba : b = a
  · subst hba
    have he : (s.setAlarm b f).alarm b = f (s.alarm b) := Function.update_self ..
    rw [he] at hb ⊢
    exact hf hb
  · have he : (s.setAlarm a f).alarm b = s.alarm b := Function.update_of_ne hba ..
    rw [he] at hb ⊢
    exact h.closed b hb

theorem AlarmInv.set_keeps (h : AlarmInv s xs) (ha : s.armed a = false) (ticks periodic startPer : Int) (cb cbarg : Nat)
    (interval : Int) (level start now : Nat) :
    ∃ ys, AlarmInv (sysSet s a ticks periodic startPer cb cbarg interval level start now).1 ys := by
  unfold sysSet
  split
  · rename_i hopen
    have hset : AlarmInv (s.setAlarm a (.given ticks periodic startPer cb cbarg)) xs :=
      h.setAlarm a fun hc => by cases hopen.symm.trans hc
    have hna := h.not_mem ha
    have hfree := WdQueue.initialize hset.queue hna
    obtain ⟨ys, hq, hm⟩ := hfree.insertTicks hna interval level start now
    refine ⟨ys, hq, armed_update h.armed ?_ fun c hc => ?_, hset.closed⟩
    · exact ⟨fun _ => rfl, fun _ => (hm a).2 (.inl rfl)⟩
    · rw [hm c]
      simp [hc]
  · exact ⟨xs, h⟩

omit [Fintype A] in
theorem AlarmInv.stop_keeps (h : AlarmInv s xs) (a : A) (b : Bool) (level now : Nat) : ∃ ys, AlarmInv (sysStop s a b level now).1 ys := by
  unfold sysStop
  split
  · have hset : AlarmInv (s.setAlarm a (.cleared b)) xs := h.setAlarm a fun _ => rfl
    obtain ⟨ys, hsub, hq, hna, hkeep⟩ := hset.queue.remove a level now
    refine ⟨ys, hq, armed_update h.armed ?_ fun c hc => ?_, hset.closed⟩
    · exact ⟨fun hm => absurd hm hna, fun he => by cases he⟩
    · exact ⟨fun hm => hsub.subset hm, fun hm => hkeep c hm hc⟩
  · exact ⟨xs, h⟩

/-- **An expiry**: the first alarm is taken off, put back when it is periodic, and its callback runs. -/
theorem AlarmInv.expire {l : List A} (h : AlarmInv s (a :: l)) (level now start now' : Nat) :
    ∃ ys, AlarmInv (s.expire a level now start now') ys := by
  have h' : WdQueue s.q ([] ++ a :: l) := h.queue
  obtain ⟨hq, -, hact⟩ := h'.unlink level now
  have hnd := List.nodup_cons.1 h.queue.holds.nodup
  unfold AlarmSys.expire
  dsimp only
  rw [if_pos hact]
  set s₁ := ({ s.setQ (lwpWdRemove s.q a level now).1 with ticking := true } : AlarmSys A).setArmed a false with hs₁
  have h₁ : AlarmInv s₁ l := by
    refine ⟨hq, armed_update h.armed ⟨fun hm => absurd hm hnd.1, fun he => by cases he⟩ fun c hc => ?_, h.closed⟩
    rw [List.mem_cons]
    simp [hc]
  unfold sysAlarmhandler
  dsimp only
  split
  · obtain ⟨ys, h₂⟩ : ∃ ys, AlarmInv (if (s₁.alarm a).periodic ≠ 0 then
        (s₁.setQ (s₁.q.lwpWdInsertTicks a (s₁.alarm a).periodic level start now')).setArmed a true else s₁) ys := by
      split
      · obtain ⟨ys, hq, hm⟩ := h₁.queue.insertTicks hnd.1 (s₁.alarm a).periodic level start now'
        refine ⟨ys, hq, armed_update h₁.armed ⟨fun _ => rfl, fun _ => (hm a).2 (.inl rfl)⟩ fun c hc => ?_, h₁.closed⟩
        rw [hm c]
        simp [hc]
      · exact ⟨l, h₁⟩
    refine ⟨ys, ?_⟩
    split
    · exact ⟨h₂.queue, h₂.armed, h₂.closed⟩
    · exact h₂
  · exact ⟨l, h₁⟩

theorem AlarmInv.step (h : AlarmInv s xs) (e : AlarmEvent A) (he : (alarmSystem.restrict alarmDisarmed).enabled s e) :
    ∃ ys, AlarmInv (alarmNext s e) ys := by
  obtain ⟨-, hok⟩ := he
  cases e with
  | create a => exact ⟨xs, h.setAlarm a fun _ => rfl⟩
  | set a tp cb cbarg level start now => exact h.set_keeps (hok a rfl) ..
  | setPeriodic a tpStart tpPeriod cb cbarg level start now => exact h.set_keeps (hok a rfl) ..
  | cancel a level now => exact h.stop_keeps a true level now
  | remove a level now => exact h.stop_keeps a false level now
  | tickle level now now' start now'' =>
    show ∃ ys, AlarmInv (s.tickle level now now' start now'') ys
    unfold AlarmSys.tickle
    rw [h.queue.holds.next_head]
    cases xs with
    | nil => exact ⟨[], h⟩
    | cons a l =>
      dsimp only [firstOf]
      split
      · exact h.expire level now' start now''
      · have h' : WdQueue s.q ([] ++ a :: l) := h.queue
        have hq := (h'.unlink level now').1
        have hnd := List.nodup_cons.1 h.queue.holds.nodup
        obtain ⟨ys, hins, hm⟩ := hq.insert_mem hnd.1 level now''
        refine ⟨ys, hins, fun b => ?_, h.closed⟩
        rw [hm b, ← List.mem_cons]
        exact h.armed b
  | resume level now start now' =>
    show ∃ ys, AlarmInv (s.resume level now start now') ys
    unfold AlarmSys.resume
    rw [h.queue.holds.next_head]
    cases xs with
    | nil => exact ⟨[], h.queue, h.armed, h.closed⟩
    | cons a l =>
      dsimp only [firstOf]
      split
      · exact h.expire level now start now'
      · exact ⟨a :: l, h.queue, h.armed, h.closed⟩

/-! ## Callbacks -/

/-- The callbacks of one alarm that ran. -/
def AlarmSys.ran (s : AlarmSys A) (a : A) : List (A × Nat × Nat) := s.calls.filter (·.1 = a)

/-- **An alarm that was stopped is quiet**: without a callback, or closed. -/
def AlarmSys.Quiet (s : AlarmSys A) (a : A) : Prop := (s.alarm a).alarmhandler = 0

omit [Fintype A] in
theorem setAlarm_handler (s : AlarmSys A) (a b : A) (hq : s.Quiet a) (hf : b = a → (f (s.alarm b)).alarmhandler = 0) :
    (s.setAlarm b f).Quiet a := by
  unfold AlarmSys.Quiet AlarmSys.setAlarm
  dsimp only
  by_cases hab : a = b
  · subst hab
    rw [Function.update_self]
    exact hf rfl
  · rw [Function.update_of_ne hab]
    exact hq

/-- The routine of an alarm's watchdog runs no other alarm's callback, and none that is not there. -/
theorem sysAlarmhandler_quiet (hq : s.Quiet a) (level start now : Nat) :
    (sysAlarmhandler s b level start now).Quiet a ∧ (sysAlarmhandler s b level start now).ran a = s.ran a := by
  unfold sysAlarmhandler
  dsimp only
  split
  · set s₁ := if (s.alarm b).periodic ≠ 0 then
      (s.setQ (s.q.lwpWdInsertTicks b (s.alarm b).periodic level start now)).setArmed b true else s with hs₁
    have hfields : s₁.alarm = s.alarm ∧ s₁.calls = s.calls := by
      rw [hs₁]
      split
      · exact ⟨rfl, rfl⟩
      · exact ⟨rfl, rfl⟩
    have hq₁ : s₁.Quiet a := by
      unfold AlarmSys.Quiet
      rw [hfields.1]
      exact hq
    have hr₁ : s₁.ran a = s.ran a := by
      unfold AlarmSys.ran
      rw [hfields.2]
    split
    · rename_i hh
      refine ⟨hq₁, ?_⟩
      have hba : b ≠ a := fun he => hh (by rw [he]; exact hq)
      unfold AlarmSys.ran
      dsimp only
      rw [List.filter_cons_of_neg (by simpa using hba)]
      exact hr₁
    · exact ⟨hq₁, hr₁⟩
  · exact ⟨hq, rfl⟩

theorem expire_quiet (hq : s.Quiet a) (level now start now' : Nat) :
    (s.expire b level now start now').Quiet a ∧ (s.expire b level now start now').ran a = s.ran a := by
  unfold AlarmSys.expire
  dsimp only
  split
  · have hq' : (({ s.setQ (lwpWdRemove s.q b level now).1 with ticking := true } : AlarmSys A).setArmed b false).Quiet a := hq
    exact sysAlarmhandler_quiet hq' level start now'
  · exact ⟨hq, rfl⟩

/-- **One step**: only setting an alarm again ends its quiet, and no quiet alarm's callback runs. -/
theorem alarm_quiet_step (hq : s.Quiet a) (e : AlarmEvent A) (he : ¬ e.Sets a) :
    (alarmNext s e).Quiet a ∧ (alarmNext s e).ran a = s.ran a := by
  cases e with
  | create b => exact ⟨setAlarm_handler s a b hq fun _ => rfl, rfl⟩
  | set b tp cb cbarg level start now =>
    show (sysSet _ _ _ _ _ _ _ _ _ _ _).1.Quiet a ∧ (sysSet _ _ _ _ _ _ _ _ _ _ _).1.ran a = _
    unfold sysSet
    split
    · exact ⟨setAlarm_handler s a b hq fun hb => absurd hb he, rfl⟩
    · exact ⟨hq, rfl⟩
  | setPeriodic b tpStart tpPeriod cb cbarg level start now =>
    show (sysSet _ _ _ _ _ _ _ _ _ _ _).1.Quiet a ∧ (sysSet _ _ _ _ _ _ _ _ _ _ _).1.ran a = _
    unfold sysSet
    split
    · exact ⟨setAlarm_handler s a b hq fun hb => absurd hb he, rfl⟩
    · exact ⟨hq, rfl⟩
  | cancel b level now =>
    show (sysStop s b true level now).1.Quiet a ∧ (sysStop s b true level now).1.ran a = _
    unfold sysStop
    split
    · exact ⟨setAlarm_handler s a b hq fun _ => rfl, rfl⟩
    · exact ⟨hq, rfl⟩
  | remove b level now =>
    show (sysStop s b false level now).1.Quiet a ∧ (sysStop s b false level now).1.ran a = _
    unfold sysStop
    split
    · exact ⟨setAlarm_handler s a b hq fun _ => rfl, rfl⟩
    · exact ⟨hq, rfl⟩
  | tickle level now now' start now'' =>
    show (s.tickle level now now' start now'').Quiet a ∧ (s.tickle level now now' start now'').ran a = _
    unfold AlarmSys.tickle
    split
    · split
      · exact expire_quiet hq level now' start now''
      · exact ⟨hq, rfl⟩
    · exact ⟨hq, rfl⟩
  | resume level now start now' =>
    show (s.resume level now start now').Quiet a ∧ (s.resume level now start now').ran a = _
    unfold AlarmSys.resume
    split
    · split
      · exact expire_quiet hq level now start now'
      · exact ⟨hq, rfl⟩
    · exact ⟨hq, rfl⟩

theorem alarm_quiet_run : ∀ {s : AlarmSys A}, s.Quiet a → (∀ e ∈ es, ¬ e.Sets a) → (alarmSystem.run s es).ran a = s.ran a := by
  induction es with
  | nil => exact fun _ _ => rfl
  | cons e es ih =>
    intro s hq he
    obtain ⟨hq', hr⟩ := alarm_quiet_step hq e (he e List.mem_cons_self)
    exact (ih hq' fun e' he' => he e' (List.mem_cons_of_mem _ he')).trans hr

/-! ## Runs -/

omit [Fintype A] in
theorem alarmStart_inv (links : Mem Unit A) : AlarmInv (alarmStart links) [] := by
  refine ⟨⟨lwpQueueInitEmpty_holds links (), fun w => ?_, fun w _ => rfl⟩, fun a => ?_, fun a _ => rfl⟩
  · exact ⟨(fun hw => by cases hw), (fun hw => by cases hw)⟩
  · exact ⟨(fun ha => by cases ha), (fun ha => by cases ha)⟩

theorem alarm_run_inv {links : Mem Unit A} (hl : (alarmSystem.restrict alarmDisarmed).Legal (alarmStart links) es) :
    ∃ xs, AlarmInv (alarmSystem.run (alarmStart links) es) xs := by
  obtain ⟨xs, h⟩ := hl.invariant (I := fun s => ∃ xs, AlarmInv s xs) (fun _ e ⟨_, hs⟩ he => hs.step e he)
    ⟨[], alarmStart_inv links⟩
  exact ⟨xs, h⟩

theorem AlarmInv.stops (h : AlarmInv s xs) {e : AlarmEvent A} (he : e.Stops a) : (alarmNext s e).Quiet a := by
  have hstop : ∀ b level now, (sysStop s a b level now).1.Quiet a := by
    intro b level now
    unfold sysStop
    split
    · show (Function.update s.alarm a _ a).alarmhandler = 0
      rw [Function.update_self]
      rfl
    · rename_i hc
      exact h.closed a (by simpa using hc)
  cases e with
  | cancel b level now =>
    obtain rfl : b = a := he
    exact hstop true level now
  | remove b level now =>
    obtain rfl : b = a := he
    exact hstop false level now
  | create _ => cases he
  | set => cases he
  | setPeriodic => cases he
  | tickle => cases he
  | resume => cases he

/-- **What the alarms are for their users**: the watchdog queue is a doubly linked list of exactly the armed alarms, each once. -/
structure AlarmSound (s : AlarmSys A) (xs : List A) : Prop where
  linked : IsQueue s.q.links () xs
  once : xs.Nodup
  armed : ∀ a, a ∈ xs ↔ s.armed a = true

/-- **Alarm list integrity**, on every run that sets no armed alarm: the queue is sound, and from the end of a cancellation or a
removal on the alarm's callback does not run until it is set anew. -/
theorem alarm_list_integrity {links : Mem Unit A} {es : List (AlarmEvent A)}
    (hl : (alarmSystem.restrict alarmDisarmed).Legal (alarmStart links) es) :
    (∃ xs, AlarmSound (alarmSystem.run (alarmStart links) es) xs) ∧
      ∀ es₁ e es₂ a, es = es₁ ++ e :: es₂ → e.Stops a → (∀ e' ∈ es₂, ¬ e'.Sets a) →
        (alarmSystem.run (alarmStart links) es).ran a = (alarmSystem.run (alarmStart links) (es₁ ++ [e])).ran a := by
  obtain ⟨xs, h⟩ := alarm_run_inv hl
  refine ⟨⟨xs, Rep.linked (q := ()) h.queue.holds rfl, h.queue.holds.nodup, h.armed⟩, fun es₁ e es₂ a hes he hset => ?_⟩
  rw [hes] at hl ⊢
  obtain ⟨ys, h₁⟩ := alarm_run_inv hl.left
  have hq := h₁.stops he
  rw [System.run_append, System.run_append]
  exact alarm_quiet_run hq hset

/-- Two alarms, one of them periodic; an expiry whose callback cancels the other. -/
theorem alarm_list_integrity_sample :
    (∃ xs, AlarmSound (alarmSystem.run (alarmStart (fun _ => .null) : AlarmSys (Fin 2))
      [.create 0, .create 1, .set 0 ⟨1, 0⟩ 7 0 0 0 0, .setPeriodic 1 ⟨0, 500000000⟩ ⟨3, 0⟩ 8 0 0 0 0,
        .tickle 1 30000000 30000000 30000000 30000000, .cancel 0 1 30000000, .resume 1 30000000 30000000 30000000]) xs) := by
  refine (alarm_list_integrity ?_).1
  decide +kernel

/-- Setting an armed alarm again loses another one. -/
theorem alarm_set_twice :
    alarmSystem.Legal (alarmStart (fun _ => .null) : AlarmSys (Fin 2))
        [.create 0, .create 1, .set 0 ⟨1, 0⟩ 7 0 0 0 0, .set 1 ⟨2, 0⟩ 8 0 0 0 0, .set 0 ⟨3, 0⟩ 7 0 0 0 0] ∧
      ¬ ∃ xs, AlarmSound (alarmSystem.run (alarmStart (fun _ => .null) : AlarmSys (Fin 2))
        [.create 0, .create 1, .set 0 ⟨1, 0⟩ 7 0 0 0 0, .set 1 ⟨2, 0⟩ 8 0 0 0 0, .set 0 ⟨3, 0⟩ 7 0 0 0 0]) xs := by
  refine ⟨by decide +kernel, ?_⟩
  obtain ⟨s, hs⟩ : ∃ s, s = alarmSystem.run (alarmStart (fun _ => .null) : AlarmSys (Fin 2))
    [.create 0, .create 1, .set 0 ⟨1, 0⟩ 7 0 0 0 0, .set 1 ⟨2, 0⟩ 8 0 0 0 0, .set 0 ⟨3, 0⟩ 7 0 0 0 0] := ⟨_, rfl⟩
  have hfirst : s.q.links (.first ()) = .node 0 := by rw [hs]; decide +kernel
  have hnext : s.q.links (.next 0) = .tail () := by rw [hs]; decide +kernel
  have harmed : s.armed 1 = true := by rw [hs]; decide +kernel
  rw [← hs]
  rintro ⟨xs, h⟩
  have hmem := (h.armed 1).2 harmed
  cases xs with
  | nil => cases hmem
  | cons a l =>
    obtain ⟨⟨ha, -⟩, htail⟩ := h.linked.1
    have ha : a = 0 := by
      have := ha.symm.trans hfirst
      cases this
      rfl
    subst ha
    cases l with
    | nil => simp at hmem
    | cons b l =>
      have := htail.1.1.symm.trans hnext
      cases this

end Libogc
