import Libogc.Dvd.DvdCallbacks
import Mathlib.Data.List.Nodup
/-!
# DvdInv — the invariant of the engine

The block that executes waits for a callback, or one is called next, or it is stuck; when none executes, exactly one call of
`__dvd_stateready` is still to be made after the end of the last one (`DvdInv`).  `ok` is that the engine goes on as it should so far.
-/
namespace Libogc

open Runs

set_option linter.unusedSectionVars false

variable {B : Type} [DecidableEq B]

/-! ## Calls that are left to make -/

/-- The blocks that are to be called back. -/
def dvdUsers (calls : List (DvdCall B)) : List B :=
  calls.filterMap fun call =>
    match call with
    | .user (.block b) _ => some b
    | _ => none

def dvdNoLow (calls : List (DvdCall B)) : Prop := ∀ cb result, DvdCall.low cb result ∉ calls

def dvdReadies (calls : List (DvdCall B)) : Nat := calls.count .stateready

/-- The calls that concern no block of the engine. -/
def DvdCall.plain : DvdCall B → Bool
  | .low _ _ | .user (.block _) _ | .cancelcb _ | .errorcancel _ | .stateready => false
  | _ => true

/-- The calls that call no block back and start none. -/
def DvdCall.passes : DvdCall B → Bool
  | .low _ _ | .user (.block _) _ | .stateready => false
  | _ => true

/-- A cancel is answered before the next block is started. -/
def dvdErrorsFirst : List (DvdCall B) → Prop
  | [] => True
  | .cancelcb _ :: calls | .errorcancel _ :: calls => DvdCall.stateready ∈ calls ∧ dvdErrorsFirst calls
  | _ :: calls => dvdErrorsFirst calls

section Calls
variable {calls calls' : List (DvdCall B)} {call : DvdCall B}

theorem dvdUsers_append : dvdUsers (calls ++ calls') = dvdUsers calls ++ dvdUsers calls' := List.filterMap_append

theorem dvdReadies_append : dvdReadies (calls ++ calls') = dvdReadies calls + dvdReadies calls' := List.count_append

theorem dvdNoLow_append : dvdNoLow (calls ++ calls') ↔ dvdNoLow calls ∧ dvdNoLow calls' := by
  unfold dvdNoLow
  constructor
  · intro h
    exact ⟨fun cb r hm => h cb r (List.mem_append_left _ hm), fun cb r hm => h cb r (List.mem_append_right _ hm)⟩
  · intro h cb r hm
    exact (List.mem_append.1 hm).elim (h.1 cb r) (h.2 cb r)

theorem dvdUsers_plain (h : ∀ call ∈ calls, call.plain = true) : dvdUsers calls = [] := by
  refine List.filterMap_eq_nil_iff.2 fun call hm => ?_
  have hp := h call hm
  cases call with
  | user e _ =>
    cases e with
    | block => cases hp
    | _ => rfl
  | _ => rfl

theorem dvdReadies_plain (h : ∀ call ∈ calls, call.plain = true) : dvdReadies calls = 0 := by
  refine List.count_eq_zero.2 fun hm => ?_
  have hp := h _ hm
  cases hp

theorem dvdNoLow_plain (h : ∀ call ∈ calls, call.plain = true) : dvdNoLow calls := by
  intro cb r hm
  have hp := h _ hm
  cases hp

theorem dvdUsers_cons_passes (h : call.passes = true) : dvdUsers (call :: calls) = dvdUsers calls := by
  cases call with
  | user e _ =>
    cases e with
    | block => cases h
    | _ => rfl
  | _ => rfl

theorem dvdReadies_cons_passes (h : call.passes = true) : dvdReadies (call :: calls) = dvdReadies calls := by
  refine List.count_cons_of_ne fun e => ?_
  subst e
  cases h

theorem dvdErrorsFirst_append (h : dvdErrorsFirst calls) (h' : dvdErrorsFirst calls') : dvdErrorsFirst (calls ++ calls') := by
  induction calls with
  | nil => exact h'
  | cons call calls ih =>
    cases call with
    | cancelcb e => exact ⟨List.mem_append_left _ h.1, ih h.2⟩
    | errorcancel e => exact ⟨List.mem_append_left _ h.1, ih h.2⟩
    | _ => exact ih h

theorem dvdErrorsFirst_plain (h : ∀ call ∈ calls, call.plain = true) : dvdErrorsFirst calls := by
  induction calls with
  | nil => trivial
  | cons call calls ih =>
    have hcall := h call List.mem_cons_self
    have hrest := ih fun call' hm => h call' (List.mem_cons_of_mem _ hm)
    cases call with
    | cancelcb => cases hcall
    | errorcancel => cases hcall
    | _ => exact hrest

theorem dvdErrorsFirst_tail (h : dvdErrorsFirst (call :: calls)) : dvdErrorsFirst calls := by
  cases call with
  | cancelcb => exact h.2
  | errorcancel => exact h.2
  | _ => exact h

theorem dvdErrorsFirst_none (h : dvdErrorsFirst calls) (hr : dvdReadies calls = 0) (e : DvdExec B) :
    .errorcancel e ∉ calls ∧ .cancelcb e ∉ calls := by
  induction calls with
  | nil => exact ⟨(fun hm => by cases hm), fun hm => by cases hm⟩
  | cons call calls ih =>
    have htail : dvdReadies calls = 0 := by
      have hle := List.count_le_count_cons (a := (.stateready : DvdCall B)) (b := call) (l := calls)
      exact Nat.le_zero.1 (Nat.le_trans hle (Nat.le_of_eq hr))
    obtain ⟨herror, hcancel⟩ := ih (dvdErrorsFirst_tail h) htail
    constructor
    · intro hm
      rcases List.mem_cons.1 hm with rfl | hm
      · exact List.count_eq_zero.1 htail h.1
      · exact herror hm
    · intro hm
      rcases List.mem_cons.1 hm with rfl | hm
      · exact List.count_eq_zero.1 htail h.1
      · exact hcancel hm

theorem dvdBack_plain (h : ∀ call ∈ calls, call = .back) : ∀ call ∈ calls, call.plain = true := fun call hm => by
  rw [h call hm]
  rfl

theorem dvdNoLow_tail (h : dvdNoLow (call :: calls)) : dvdNoLow calls := fun cb r hm => h cb r (List.mem_cons_of_mem _ hm)

end Calls

namespace DvdSys

variable {s : DvdSys B}

/-- Calls go before those that are left, with the return to the user's code between them. -/
theorem push_todo (s : DvdSys B) (calls : List (DvdCall B)) :
    ∃ back : List (DvdCall B), (∀ call ∈ back, call = .back) ∧ (s.push calls).todo = calls ++ (back ++ s.todo) := by
  unfold push
  cases calls with
  | nil => exact ⟨[], (fun _ hm => by cases hm), rfl⟩
  | cons call calls =>
    cases hu : s.user with
    | false => exact ⟨[], (fun _ hm => by cases hm), rfl⟩
    | true => exact ⟨[.back], fun call' hm => List.mem_singleton.1 hm, rfl⟩

theorem push_users (calls : List (DvdCall B)) : dvdUsers (s.push calls).todo = dvdUsers calls ++ dvdUsers s.todo := by
  obtain ⟨back, hback, htodo⟩ := s.push_todo calls
  rw [htodo, dvdUsers_append, dvdUsers_append, dvdUsers_plain (dvdBack_plain hback)]
  rfl

theorem push_readies (calls : List (DvdCall B)) : dvdReadies (s.push calls).todo = dvdReadies calls + dvdReadies s.todo := by
  obtain ⟨back, hback, htodo⟩ := s.push_todo calls
  rw [htodo, dvdReadies_append, dvdReadies_append, dvdReadies_plain (dvdBack_plain hback), Nat.zero_add]

theorem push_noLow (calls : List (DvdCall B)) : dvdNoLow (s.push calls).todo ↔ dvdNoLow calls ∧ dvdNoLow s.todo := by
  obtain ⟨back, hback, htodo⟩ := s.push_todo calls
  rw [htodo, dvdNoLow_append, dvdNoLow_append]
  exact and_congr_right fun _ => and_iff_right (dvdNoLow_plain (dvdBack_plain hback))

theorem push_errorsFirst (calls : List (DvdCall B)) (h : dvdErrorsFirst calls) (h' : dvdErrorsFirst s.todo) :
    dvdErrorsFirst (s.push calls).todo := by
  obtain ⟨back, hback, htodo⟩ := s.push_todo calls
  rw [htodo]
  exact dvdErrorsFirst_append h (dvdErrorsFirst_append (dvdErrorsFirst_plain (dvdBack_plain hback)) h')

theorem push_eq (s : DvdSys B) (calls : List (DvdCall B)) : ∃ todo user, s.push calls = { s with todo := todo, user := user } := by
  unfold push
  cases calls with
  | nil => exact ⟨_, _, rfl⟩
  | cons call calls => exact ⟨_, _, rfl⟩

@[simp] theorem push_core (s : DvdSys B) (calls : List (DvdCall B)) : (s.push calls).core = s.core := by
  obtain ⟨todo, user, h⟩ := s.push_eq calls
  rw [h]

@[simp] theorem push_done (s : DvdSys B) (calls : List (DvdCall B)) : (s.push calls).done = s.done := by
  obtain ⟨todo, user, h⟩ := s.push_eq calls
  rw [h]

@[simp] theorem push_waitingqueue (s : DvdSys B) (calls : List (DvdCall B)) : (s.push calls).waitingqueue = s.waitingqueue := by
  obtain ⟨todo, user, h⟩ := s.push_eq calls
  rw [h]

@[simp] theorem push_delivered (s : DvdSys B) (calls : List (DvdCall B)) : (s.push calls).delivered = s.delivered := by
  obtain ⟨todo, user, h⟩ := s.push_eq calls
  rw [h]

@[simp] theorem push_pending (s : DvdSys B) (calls : List (DvdCall B)) : (s.push calls).pending = s.pending := by
  obtain ⟨todo, user, h⟩ := s.push_eq calls
  rw [h]

end DvdSys

/-! ## What an event leaves alone -/

/-- The engine goes on as before, whatever else has changed. -/
structure DvdFrame (c c' : DvdCore B) : Prop where
  executing : c'.executing = c.executing
  dummy : c'.dummy = c.dummy
  currcmd : c'.currcmd = c.currcmd
  laststate : c'.laststate = c.laststate
  drive : c'.drive = c.drive
  low : ∃ stop brk, c'.low = { c.low with stopnextint := stop, breaking := brk }
  stop : (c.low.stopnextint = true → c.canceling = true) → c'.low.stopnextint = true → c'.canceling = true
  resume : c'.resumefromhere ≤ 7

/-- The block `b` waits for a callback, or is stuck. -/
inductive DvdSteady (ok : Prop) (b : B) (c : DvdCore B) : Prop where
  | waits (cb : DvdLow) (h : DvdWaiting ok c b (c.blocks b).txdsize cb c)
  | stuck (h : DvdIn ok c b (c.blocks b).txdsize c) (hok : ¬ ok)

section Frame
variable {ok clean : Prop} {c c' c₀ : DvdCore B} {b : B} {cb : DvdLow} {t : Nat}

theorem DvdFrame.at (hf : DvdFrame c c') (hb : c'.blocks b = c.blocks b) (h : DvdAt c b (c.blocks b).txdsize c) : DvdAt c' b (c'.blocks b).txdsize c' :=
  ⟨hf.executing.trans h.executing, fun _ _ => rfl, rfl, rfl, rfl, rfl, fun _ => rfl,
    by rw [hf.currcmd, hb, h.currcmd], rfl, rfl, rfl, hf.resume, fun _ => Nat.le_refl _⟩

theorem DvdFrame.exec (hf : DvdFrame c c') (hb : c'.blocks b = c.blocks b) (h : c.executing = .block b) : c'.exec = c.exec := by
  unfold DvdCore.exec
  rw [hf.executing, h]
  exact hb

theorem DvdFrame.ready (hf : DvdFrame c c') (hb : c'.blocks b = c.blocks b) (h : c.executing = .block b) (hr : c.Ready cb) : c'.Ready cb := by
  have hexec := hf.exec hb h
  obtain ⟨stop, brk, hlow⟩ := hf.low
  have hsud : c.Sud → c'.Sud := by
    unfold DvdCore.Sud
    rw [hexec, hlow]
    exact id
  cases cb with
  | handlespinupcb => exact hsud hr
  | spinupdrivecb => exact hsud hr
  | fwpatchcb => exact ⟨hsud hr.1, by rw [hlow]; exact hr.2⟩
  | patchdrivecb => exact ⟨hsud hr.1, by rw [hlow]; exact hr.2.1, by rw [hf.drive]; exact hr.2.2⟩
  | checkaddonscb => exact ⟨hsud hr.1, by rw [hlow]; exact hr.2⟩
  | cntrldrivecb => exact ⟨by rw [hlow]; exact hr.1, by rw [hexec]; exact hr.2⟩
  | setgcmoffsetcb => exact ⟨by rw [hlow]; exact hr.1, by rw [hexec]; exact hr.2⟩
  | stateretrycb => exact (congrArg DvdBlock.cmd hexec).trans hr
  | statecheckid1cb => exact hf.currcmd.trans hr
  | _ => exact hr

theorem DvdFrame.waits (hf : DvdFrame c c') (hb : c'.blocks b = c.blocks b) (h : c.executing = .block b) (hw : c.Waits cb) : c'.Waits cb := by
  cases cb with
  | unlockdrivecb =>
    obtain ⟨f, hfin, hquiet, hread, hr⟩ := hw
    obtain ⟨stop, brk, hlow⟩ := hf.low
    refine ⟨f, ?_, hquiet, hread, hf.ready hb h hr⟩
    rw [hlow]
    exact hfin
  | _ => exact DvdCore.waits_of_ready (hf.ready hb h hw)

theorem DvdFrame.in (hf : DvdFrame c c') (hb : c'.blocks b = c.blocks b) (h : DvdIn ok c b (c.blocks b).txdsize c) : DvdIn ok c' b (c'.blocks b).txdsize c' where
  toDvdAt := hf.at hb h.toDvdAt
  callback := by obtain ⟨_, _, hlow⟩ := hf.low; rw [hlow]; exact h.callback
  alarm := by obtain ⟨_, _, hlow⟩ := hf.low; rw [hlow]; exact h.alarm
  closed := by obtain ⟨_, _, hlow⟩ := hf.low; rw [hlow]; exact h.closed
  noRead := by obtain ⟨_, _, hlow⟩ := hf.low; rw [hlow]; exact h.noRead
  cover := by rw [hb]; exact h.cover
  live := by rw [hb]; exact h.live
  disk := by rw [hb]; exact h.disk
  range := by rw [hb]; exact h.range
  last := fun o => by
    unfold DvdCore.Last
    rw [hf.laststate]
    exact h.last o

theorem DvdFrame.waiting (hf : DvdFrame c c') (hb : c'.blocks b = c.blocks b) (h : DvdWaiting ok c b (c.blocks b).txdsize cb c) :
    DvdWaiting ok c' b (c'.blocks b).txdsize cb c' where
  toDvdAt := hf.at hb h.toDvdAt
  callback := by obtain ⟨_, _, hlow⟩ := hf.low; rw [hlow]; exact h.callback
  waits := hf.waits hb h.executing h.waits
  cover := by rw [hb]; exact h.cover
  command := by obtain ⟨_, _, hlow⟩ := hf.low; rw [hlow]; exact h.command
  closes := by obtain ⟨_, _, hlow⟩ := hf.low; rw [hlow]; exact h.closes
  closed := by obtain ⟨_, _, hlow⟩ := hf.low; rw [hlow]; exact h.closed
  live := by rw [hb]; exact h.live
  disk := by rw [hb]; exact h.disk
  alarm := by obtain ⟨_, _, hlow⟩ := hf.low; rw [hlow]; exact h.alarm
  stop := hf.stop h.stop
  range := by rw [hb]; exact h.range
  last := fun o => by
    unfold DvdCore.Last
    rw [hf.laststate]
    exact h.last o
  read := by obtain ⟨_, _, hlow⟩ := hf.low; rw [hb, hlow]; exact h.read
  reading := by obtain ⟨_, _, hlow⟩ := hf.low; rw [hb, hlow]; exact h.reading

theorem DvdFrame.steady (hf : DvdFrame c c') (hb : c'.blocks b = c.blocks b) (h : DvdSteady ok b c) : DvdSteady ok b c' := by
  cases h with
  | waits cb h => exact .waits cb (hf.waiting hb h)
  | stuck h hok => exact .stuck (hf.in hb h) hok

theorem DvdSteady.executing (h : DvdSteady ok b c) : c.executing = .block b := by
  cases h with
  | waits _ h => exact h.executing
  | stuck h _ => exact h.executing

theorem DvdSteady.live (h : DvdSteady ok b c) : (c.blocks b).state.live = true := by
  cases h with
  | waits _ h => exact DvdWaiting.live h
  | stuck h _ => exact h.live

/-! What a function comes to can be said of the core that it leaves. -/

theorem DvdAt.self (h : DvdAt c₀ b t c) : DvdAt c b (c.blocks b).txdsize c :=
  ⟨h.executing, fun _ _ => rfl, rfl, rfl, rfl, rfl, fun _ => rfl, by rw [h.currcmd, h.cmd], rfl, rfl, rfl, h.resume.1, fun _ => Nat.le_refl _⟩

theorem DvdIn.self (h : DvdIn ok c₀ b t c) : DvdIn ok c b (c.blocks b).txdsize c where
  toDvdAt := h.toDvdAt.self
  callback := h.callback
  alarm := h.alarm
  closed := h.closed
  noRead := h.noRead
  cover := h.cover
  live := h.live
  disk := h.disk
  range := by rw [h.cmd]; exact h.range
  last := h.last

theorem DvdWaiting.self (h : DvdWaiting ok c₀ b t cb c) : DvdWaiting ok c b (c.blocks b).txdsize cb c where
  toDvdAt := h.toDvdAt.self
  callback := h.callback
  waits := h.waits
  cover := h.cover
  command := h.command
  closes := h.closes
  closed := h.closed
  live := h.live
  disk := h.disk
  alarm := h.alarm
  stop := h.stop
  range := by rw [h.cmd]; exact h.range
  last := h.last
  read := by
    rw [h.cmd]
    intro hr hcb
    rw [h.txd hr]
    exact h.read hr hcb
  reading := by
    rw [h.cmd]
    exact h.reading

end Frame

/-! ## The invariant -/

/-- A callback of the block `b` is called next. -/
structure DvdFinal (ok : Prop) (b : B) (cb : DvdLow) (rest : List (DvdCall B)) (s : DvdSys B) : Prop where
  todo : s.todo = .low cb 1 :: rest
  noLow : dvdNoLow rest
  user : s.user = false
  inside : DvdIn ok s.core b (s.core.blocks b).txdsize s.core
  ready : s.core.Ready cb
  quiet : ¬ cb.quiet
  read : dvdReads (s.core.blocks b).cmd = true → cb ≠ .statebusycb

/-- A command of the driver. -/
def DvdBlock.valid (blk : DvdBlock) : Prop := 1 ≤ blk.cmd ∧ blk.cmd ≤ 25

/-- A block waits in one queue, once. -/
structure DvdQueues (q : Fin 4 → List B) : Prop where
  nodup : ∀ p, (q p).Nodup
  one : ∀ p p' x, x ∈ q p → x ∈ q p' → p = p'

theorem DvdQueues.sublist {q q' : Fin 4 → List B} (h : DvdQueues q) (hsub : ∀ p, (q' p).Sublist (q p)) : DvdQueues q' :=
  ⟨fun p => (h.nodup p).sublist (hsub p), fun p p' x hx hx' => h.one p p' x ((hsub p).subset hx) ((hsub p').subset hx')⟩

theorem DvdQueues.append {q : Fin 4 → List B} (h : DvdQueues q) {b : B} (hb : ∀ p, b ∉ q p) (prio : Fin 4) :
    DvdQueues (Function.update q prio (q prio ++ [b])) := by
  have hmem : ∀ p x, x ∈ Function.update q prio (q prio ++ [b]) p → x ∈ q p ∨ x = b ∧ p = prio := by
    intro p x hx
    by_cases hp : p = prio
    · subst hp
      rw [Function.update_self] at hx
      rcases List.mem_append.1 hx with hx | hx
      · exact .inl hx
      · exact .inr ⟨List.mem_singleton.1 hx, rfl⟩
    · rw [Function.update_of_ne hp] at hx
      exact .inl hx
  constructor
  · intro p
    by_cases hp : p = prio
    · subst hp
      rw [Function.update_self]
      refine List.nodup_append.2 ⟨h.nodup p, List.nodup_singleton b, fun x hx y hy e => ?_⟩
      rw [List.mem_singleton.1 hy] at e
      exact hb p (e ▸ hx)
    · rw [Function.update_of_ne hp]
      exact h.nodup p
  · intro p p' x hx hx'
    rcases hmem p x hx with hx | ⟨hxb, hp⟩ <;> rcases hmem p' x hx' with hx' | ⟨hxb', hp'⟩
    · exact h.one p p' x hx hx'
    · exact absurd (hxb' ▸ hx) (hb p)
    · exact absurd (hxb ▸ hx') (hb p')
    · rw [hp, hp']

structure DvdInv (ok : Prop) (s : DvdSys B) : Prop where
  live : ∀ b, s.core.executing = .block b → DvdSteady ok b s.core ∧ dvdNoLow s.todo ∨ ∃ cb rest, DvdFinal ok b cb rest s
  rests : (∀ b, s.core.executing ≠ .block b) →
    s.core.low.callback = none ∧ s.core.low.alarm = false ∧ s.core.low.waitcoverclose = false ∧ s.core.low.reads = false ∧
      dvdNoLow s.todo
  readies : dvdReadies s.todo = if s.core.executing = .dummy then 1 else 0
  resume : s.core.resumefromhere ≤ 7
  dummy : s.core.dummy.state = .END
  runs : ∀ b, s.core.executing = .block b → s.pending b = true ∧ b ∉ dvdUsers s.todo
  cover : ∀ x, (s.core.blocks x).state.atCover = true → s.core.executing = .block x
  queued : ∀ p, ∀ x ∈ s.waitingqueue p, (s.core.blocks x).state = .WAITING
  once : DvdQueues s.waitingqueue
  waiting : ∀ x, (s.core.blocks x).state = .WAITING → s.pending x = true ∧ x ∉ dvdUsers s.todo ∧ (s.core.blocks x).valid
  users : (dvdUsers s.todo).Nodup
  called : ∀ x ∈ dvdUsers s.todo, s.pending x = true
  pausing : s.pausingflag = true → s.core.executing = .null ∧ s.pauseflag = true
  errors : dvdErrorsFirst s.todo

/-- What holds while a function of the driver runs for the block `b`. -/
structure DvdMid (b : B) (c₀ : DvdCore B) (m : DvdSys B) : Prop where
  noLow : dvdNoLow m.todo
  readies : dvdReadies m.todo = 0
  dummy : c₀.dummy.state = .END
  runs : m.pending b = true ∧ b ∉ dvdUsers m.todo
  cover : ∀ x, x ≠ b → (c₀.blocks x).state.atCover = false
  queued : ∀ p, ∀ x ∈ m.waitingqueue p, x ≠ b ∧ (c₀.blocks x).state = .WAITING
  once : DvdQueues m.waitingqueue
  waiting : ∀ x, x ≠ b → (c₀.blocks x).state = .WAITING → m.pending x = true ∧ x ∉ dvdUsers m.todo ∧ (c₀.blocks x).valid
  users : (dvdUsers m.todo).Nodup
  called : ∀ x ∈ dvdUsers m.todo, m.pending x = true
  pausing : m.pausingflag = false
  errors : dvdErrorsFirst m.todo

section Mid
variable {ok clean : Prop} {c c₀ : DvdCore B} {b : B} {cb : DvdLow} {t : Nat} {m : DvdSys B} {todo : List (DvdCall B)} {user : Bool}

theorem DvdMid.goes (h : DvdMid b c₀ m) (hat : DvdAt c₀ b t c) (hlive : (c.blocks b).state.live = true)
    (husers : dvdUsers todo = dvdUsers m.todo) (hreadies : dvdReadies todo = 0) (herrors : dvdErrorsFirst todo)
    (hl : DvdSteady ok b c ∧ dvdNoLow todo ∨ ∃ cb rest, DvdFinal ok b cb rest { m with core := c, todo := todo, user := user }) :
    DvdInv ok { m with core := c, todo := todo, user := user } where
  live := by
    intro x hx
    obtain rfl : b = x := DvdExec.block.inj (hat.executing.symm.trans hx)
    exact hl
  rests := fun hno => absurd hat.executing (hno b)
  readies := by
    show dvdReadies todo = if c.executing = .dummy then 1 else 0
    rw [hreadies, hat.executing]
    rfl
  resume := hat.resume.1
  dummy := (congrArg DvdBlock.state hat.dummy).trans h.dummy
  runs := by
    intro x hx
    obtain rfl : b = x := DvdExec.block.inj (hat.executing.symm.trans hx)
    show m.pending b = true ∧ b ∉ dvdUsers todo
    rw [husers]
    exact h.runs
  cover := by
    intro x hx
    show c.executing = .block x
    by_cases hxb : x = b
    · rw [hxb, hat.executing]
    · have hno := h.cover x hxb
      rw [← hat.others x hxb, show (c.blocks x).state.atCover = true from hx] at hno
      cases hno
  queued := by
    intro p x hx
    obtain ⟨hxb, hst⟩ := h.queued p x hx
    exact (congrArg DvdBlock.state (hat.others x hxb)).trans hst
  once := h.once
  waiting := by
    intro x hx
    show m.pending x = true ∧ x ∉ dvdUsers todo ∧ (c.blocks x).valid
    have hxb : x ≠ b := by
      rintro rfl
      rw [show (c.blocks x).state = .WAITING from hx] at hlive
      cases hlive
    rw [husers, hat.others x hxb]
    exact h.waiting x hxb ((congrArg DvdBlock.state (hat.others x hxb)).symm.trans hx)
  users := by
    show (dvdUsers todo).Nodup
    rw [husers]
    exact h.users
  called := by
    intro x hx
    rw [show dvdUsers _ = _ from husers] at hx
    exact h.called x hx
  pausing := fun e => by cases h.pausing.symm.trans e
  errors := herrors

theorem DvdMid.ends (h : DvdMid b c₀ m) {state : DvdState} {canceling : Bool} (haft : DvdAfter c₀ b t state canceling c)
    (hcover : state.atCover = false) (hwaiting : state ≠ .WAITING) (husers : dvdUsers todo = b :: dvdUsers m.todo)
    (hreadies : dvdReadies todo = 1) (hno : dvdNoLow todo) (herrors : dvdErrorsFirst todo) :
    DvdInv ok { m with core := c, todo := todo, user := user } where
  live := fun x hx => by cases haft.executing.symm.trans hx
  rests := fun _ => ⟨haft.callback, haft.alarm, haft.closed, haft.noRead, hno⟩
  readies := by
    show dvdReadies todo = if c.executing = .dummy then 1 else 0
    rw [hreadies, haft.executing]
    rfl
  resume := haft.resume.1
  dummy := (congrArg DvdBlock.state haft.dummy).trans h.dummy
  runs := fun x hx => by cases haft.executing.symm.trans hx
  cover := by
    intro x hx
    by_cases hxb : x = b
    · rw [hxb, show (c.blocks b).state = _ from haft.state, hcover] at hx
      cases hx
    · have hno := h.cover x hxb
      rw [← haft.others x hxb, show (c.blocks x).state.atCover = true from hx] at hno
      cases hno
  queued := by
    intro p x hx
    obtain ⟨hxb, hst⟩ := h.queued p x hx
    exact (congrArg DvdBlock.state (haft.others x hxb)).trans hst
  once := h.once
  waiting := by
    intro x hx
    show m.pending x = true ∧ x ∉ dvdUsers todo ∧ (c.blocks x).valid
    have hxb : x ≠ b := by
      rintro rfl
      exact hwaiting (haft.state.symm.trans hx)
    obtain ⟨hp, hu, hv⟩ := h.waiting x hxb ((congrArg DvdBlock.state (haft.others x hxb)).symm.trans hx)
    rw [husers, haft.others x hxb]
    exact ⟨hp, (fun hm => (List.mem_cons.1 hm).elim hxb hu), hv⟩
  users := by
    show (dvdUsers todo).Nodup
    rw [husers]
    exact List.nodup_cons.2 ⟨h.runs.2, h.users⟩
  called := by
    intro x hx
    rw [show dvdUsers _ = _ from husers] at hx
    rcases List.mem_cons.1 hx with rfl | hx
    · exact h.runs.1
    · exact h.called x hx
  pausing := fun e => by cases h.pausing.symm.trans e
  errors := herrors

theorem DvdEnd.calls {state : DvdState} {canceling : Bool} {calls : List (DvdCall B)} (h : DvdEnd ok clean c₀ b state canceling calls) :
    dvdUsers calls = [b] ∧ dvdReadies calls = 1 ∧ dvdNoLow calls ∧ dvdErrorsFirst calls := by
  have hno : dvdNoLow calls := by
    intro cb r hm
    cases h <;> simp at hm
  cases h with
  | cancelled => exact ⟨rfl, rfl, hno, by simp, trivial⟩
  | error => exact ⟨rfl, rfl, hno, by simp, trivial⟩
  | _ => exact ⟨rfl, rfl, hno, trivial⟩

theorem DvdMid.outcome (h : DvdMid b c₀ m) {calls extra : List (DvdCall B)} (hout : DvdOutcome ok clean c₀ b t (c, calls))
    (hextra : ∀ call ∈ extra, call.plain = true) : DvdInv ok (m.pushRun (c, calls ++ extra)) := by
  have husers := DvdSys.push_users (s := { m with core := c }) (calls ++ extra)
  have hreadies := DvdSys.push_readies (s := { m with core := c }) (calls ++ extra)
  have hno := DvdSys.push_noLow (s := { m with core := c }) (calls ++ extra)
  have herrors : dvdErrorsFirst calls → dvdErrorsFirst (DvdSys.push { m with core := c } (calls ++ extra)).todo := fun hcalls =>
    DvdSys.push_errorsFirst _ (dvdErrorsFirst_append hcalls (dvdErrorsFirst_plain hextra)) h.errors
  obtain ⟨back, hback, htodo⟩ := DvdSys.push_todo { m with core := c } (calls ++ extra)
  rw [dvdUsers_append, dvdUsers_plain hextra, List.append_nil] at husers
  rw [dvdReadies_append, dvdReadies_plain hextra, Nat.add_zero] at hreadies
  rw [dvdNoLow_append] at hno
  unfold DvdSys.pushRun
  have huser : calls ++ extra ≠ [] → (DvdSys.push { m with core := c } (calls ++ extra)).user = false := by
    intro hne
    unfold DvdSys.push
    split
    · contradiction
    · rfl
  obtain ⟨todo, user, heq⟩ := DvdSys.push_eq { m with core := c } (calls ++ extra)
  dsimp only
  rw [heq] at husers hreadies hno htodo huser herrors ⊢
  dsimp only at husers hreadies hno htodo huser herrors ⊢
  cases hout with
  | waits cb hw =>
    refine h.goes hw.toDvdAt (DvdWaiting.live hw) husers ?_ (herrors trivial) (.inl ⟨.waits _ hw.self, ?_⟩)
    · rw [hreadies, h.readies]
      rfl
    · exact hno.2 ⟨⟨(fun _ _ hm => by cases hm), dvdNoLow_plain hextra⟩, h.noLow⟩
  | stuck hin hok =>
    refine h.goes hin.toDvdAt hin.live husers ?_ (herrors trivial) (.inl ⟨.stuck hin.self hok, ?_⟩)
    · rw [hreadies, h.readies]
      rfl
    · exact hno.2 ⟨⟨(fun _ _ hm => by cases hm), dvdNoLow_plain hextra⟩, h.noLow⟩
  | @final _ cb hin hr hquiet hread =>
    refine h.goes hin.toDvdAt hin.live husers ?_ (herrors trivial) (.inr ⟨cb, extra ++ (back ++ m.todo), htodo, ?_, ?_, hin.self, hr, hquiet, ?_⟩)
    · rw [hreadies, h.readies]
      rfl
    · exact dvdNoLow_append.2 ⟨dvdNoLow_plain hextra, dvdNoLow_append.2 ⟨dvdNoLow_plain (dvdBack_plain hback), h.noLow⟩⟩
    · exact huser (by simp)
    · show dvdReads (c.blocks b).cmd = true → _
      rw [hin.cmd]
      exact hread
  | ends he haft hcover hwaiting _ =>
    obtain ⟨hu, hrd, hnl, herr⟩ := he.calls
    rw [hu] at husers
    refine h.ends haft hcover hwaiting husers ?_ ?_ (herrors herr)
    · rw [hreadies, hrd, h.readies]
    · exact hno.2 ⟨⟨hnl, dvdNoLow_plain hextra⟩, h.noLow⟩

end Mid

/-! ## A block is started -/

namespace DvdSys

theorem popwaitingqueue_cases (s : DvdSys B) :
    (s.popwaitingqueue = none ∧ ∀ p, s.waitingqueue p = []) ∨
      ∃ p b rest, s.popwaitingqueue = some (p, b, { s with waitingqueue := Function.update s.waitingqueue p rest }) ∧
        s.waitingqueue p = b :: rest ∧ ∀ q, q < p → s.waitingqueue q = [] := by
  -- what is looked for in each queue
  obtain ⟨f, hf, hnil, hcons⟩ : ∃ f : Fin 4 → Option (Fin 4 × B × DvdSys B), s.popwaitingqueue = (List.finRange 4).findSome? f ∧
      (∀ p, s.waitingqueue p = [] → f p = none) ∧ ∀ p b rest, s.waitingqueue p = b :: rest →
        f p = some (p, b, { s with waitingqueue := Function.update s.waitingqueue p rest }) :=
    ⟨_, rfl, fun p hp => by rw [hp], fun p b rest hp => by rw [hp]⟩
  -- over the queues that are left to look at
  have hfirst : ∀ ps : List (Fin 4), ps.Pairwise (· < ·) → (ps.findSome? f = none ∧ ∀ p ∈ ps, s.waitingqueue p = []) ∨
      ∃ p b rest, ps.findSome? f = some (p, b, { s with waitingqueue := Function.update s.waitingqueue p rest }) ∧
        s.waitingqueue p = b :: rest ∧ ∀ q ∈ ps, q < p → s.waitingqueue q = [] := by
    intro ps hps
    induction ps with
    | nil => exact .inl ⟨rfl, fun p hp => by cases hp⟩
    | cons p₀ ps ih =>
      rw [List.findSome?_cons]
      cases hq : s.waitingqueue p₀ with
      | cons b rest =>
        rw [hcons p₀ b rest hq]
        refine .inr ⟨p₀, b, rest, rfl, hq, fun q hmem hlt => ?_⟩
        rcases List.mem_cons.1 hmem with rfl | hmem
        · exact absurd hlt (lt_irrefl _)
        · exact absurd ((List.pairwise_cons.1 hps).1 q hmem) (not_lt_of_gt hlt)
      | nil =>
        rw [hnil p₀ hq]
        rcases ih (List.pairwise_cons.1 hps).2 with ⟨hnone, hall⟩ | ⟨p, b, rest, hpop, hqp, hbefore⟩
        · refine .inl ⟨hnone, fun p hp => ?_⟩
          rcases List.mem_cons.1 hp with rfl | hp
          · exact hq
          · exact hall p hp
        · refine .inr ⟨p, b, rest, hpop, hqp, fun q hqm hlt => ?_⟩
          rcases List.mem_cons.1 hqm with rfl | hqm
          · exact hq
          · exact hbefore q hqm hlt
  rw [hf]
  rcases hfirst (List.finRange 4) (List.pairwise_lt_finRange 4) with ⟨hnone, hall⟩ | ⟨p, b, rest, hpop, hqp, hbefore⟩
  · exact .inl ⟨hnone, fun p => hall p (List.mem_finRange p)⟩
  · exact .inr ⟨p, b, rest, hpop, hqp, fun q hlt => hbefore q (List.mem_finRange q) hlt⟩

theorem checkwaitingqueue_eq_false (s : DvdSys B) : s.checkwaitingqueue = false ↔ ∀ p, s.waitingqueue p = [] := by
  unfold checkwaitingqueue
  rw [List.any_eq_false]
  constructor
  · intro h p
    have hp := h p (List.mem_finRange p)
    cases hq : s.waitingqueue p with
    | nil => rfl
    | cons b rest =>
      rw [hq] at hp
      exact absurd rfl hp
  · intro h p _
    rw [h p]
    exact fun e => by cases e

end DvdSys

section Start
variable {ok clean : Prop} {c c₀ : DvdCore B} {b : B} {cb : DvdLow} {t : Nat} {m : DvdSys B}

theorem DvdOutcome.resumed {calls : List (DvdCall B)} (h : DvdOutcome ok clean c₀ b t (c, calls)) :
    DvdOutcome ok clean c₀ b t ({ c with resumefromhere := 0 }, calls) := by
  have hat : DvdAt c₀ b t c → DvdAt c₀ b t { c with resumefromhere := 0 } :=
    fun h => h.congr rfl rfl rfl rfl rfl rfl (Nat.zero_le _)
  have hin : DvdIn ok c₀ b t c → DvdIn ok c₀ b t { c with resumefromhere := 0 } :=
    fun h => h.congr rfl rfl rfl rfl rfl rfl (Nat.zero_le _) rfl rfl rfl rfl rfl
  have hready : ∀ cb, c.Ready cb → DvdCore.Ready { c with resumefromhere := 0 } cb := by
    intro cb hr
    cases cb <;> exact hr
  cases h with
  | waits cb h hmotor =>
    refine .waits cb
      { toDvdAt := hat h.toDvdAt, callback := h.callback, waits := ?_, cover := h.cover, command := h.command, closes := h.closes
        closed := h.closed, live := h.live, disk := h.disk, alarm := h.alarm, stop := h.stop, range := h.range, last := h.last, read := h.read
        reading := h.reading }
      hmotor
    have hw := h.waits
    cases cb with
    | unlockdrivecb =>
      obtain ⟨f, hf, hquiet, hread, hr⟩ := hw
      exact ⟨f, hf, hquiet, hread, hready f hr⟩
    | _ => exact hw
  | @final _ cb h hr hquiet hread => exact .final (hin h) (hready cb hr) hquiet hread
  | stuck h hok => exact .stuck (hin h) hok
  | ends he h hcover hwaiting hread =>
    exact .ends he ⟨h.executing, h.others, h.cmd, h.len, h.txd, h.state, h.dummy, h.canceling, h.cancelcallback, h.callback, h.alarm,
      h.closed, h.noRead, Nat.zero_le _, fun _ => Nat.zero_le _⟩ hcover hwaiting hread

/-- What a function comes to whenever the engine goes on as it should, and no cancel is left from the last block. -/
def DvdComes (c₀ : DvdCore B) (b : B) (t : Nat) (r : DvdRun B) : Prop :=
  ∀ ok clean : Prop, (ok → c₀.resumefromhere = 0) → (clean → c₀.canceling = false) → DvdOutcome ok clean c₀ b t r

/-- **A block that is started** comes to what a function does, but that it may leave `__dvd_resumefromhere` to be reset. -/
theorem DvdSys.startBlock_spec (hexec : c.executing = .block b) (hcb : c.low.callback = none) (halarm : c.low.alarm = false)
    (hclosed : c.low.waitcoverclose = false) (hread : c.low.reads = false) (hvalid : (c.blocks b).valid) (hres : c.resumefromhere ≤ 7) :
    ∃ calls extra, (DvdSys.startBlock c).2 = calls ++ extra ∧ (∀ call ∈ extra, call = .resumed) ∧
      DvdComes { c with currcmd := c.exec.cmd } b (c.blocks b).txdsize ((DvdSys.startBlock c).1, calls) := by
  have hblk : c.exec = c.blocks b := by
    unfold DvdCore.exec
    rw [hexec]
  have hat : DvdAt { c with currcmd := c.exec.cmd } b (c.blocks b).txdsize { c with currcmd := c.exec.cmd } :=
    ⟨hexec, fun _ _ => rfl, rfl, rfl, rfl, rfl, fun _ => rfl, congrArg DvdBlock.cmd hblk, rfl, rfl, rfl, hres, fun _ => Nat.le_refl _⟩
  unfold DvdSys.startBlock
  by_cases hfatal : c.fatalerror = true
  · rw [if_pos hfatal]
    have hset : c.setState .FATAL_ERROR =
        { c with blocks := Function.update c.blocks b { c.blocks b with state := .FATAL_ERROR } } := by
      unfold DvdCore.setState DvdCore.setExec
      rw [hexec]
    refine ⟨[.user (.block b) DVD_ERROR_FATAL, .stateready], [], ?_, (fun _ hm => by cases hm), fun ok clean _ hclean => ?_⟩
    · unfold DvdCore.finish
      rw [hset, hexec]
      rfl
    · unfold DvdCore.finish
      rw [hset]
      have hnot : c.canceling = true → ¬ clean := fun e o => by
        rw [show c.canceling = false from hclean o] at e
        cases e
      refine .ends (.finished .FATAL_ERROR DVD_ERROR_FATAL (.inr (.inl rfl)) hnot)
        ⟨rfl, fun x hx => Function.update_of_ne hx .., ?_, ?_, fun _ => ?_, ?_, rfl, rfl, rfl, hcb, halarm, hclosed, hread, hres,
          fun _ => Nat.le_refl _⟩ rfl (by decide)
        fun _ _ e => by cases e
      all_goals
        dsimp only
        rw [Function.update_self]
  rw [if_neg hfatal]
  have hcb₁ : DvdLowLevel.callback (DvdCore.low { c with currcmd := c.exec.cmd }) = none := hcb
  have halarm₁ : DvdLowLevel.alarm (DvdCore.low { c with currcmd := c.exec.cmd }) = false := halarm
  have hclosed₁ : DvdLowLevel.waitcoverclose (DvdCore.low { c with currcmd := c.exec.cmd }) = false := hclosed
  have hread₁ : DvdLowLevel.reads (DvdCore.low { c with currcmd := c.exec.cmd }) = false := hread
  have hvalid₁ : DvdBlock.valid (DvdCore.blocks { c with currcmd := c.exec.cmd } b) := hvalid
  have hres₁ : DvdCore.resumefromhere { c with currcmd := c.exec.cmd } ≤ 7 := hres
  have htxd : (c.blocks b).txdsize = (DvdCore.blocks { c with currcmd := c.exec.cmd } b).txdsize := rfl
  rw [htxd] at hat ⊢
  generalize ({ c with currcmd := c.exec.cmd } : DvdCore B) = c₁ at hat hcb₁ halarm₁ hclosed₁ hread₁ hvalid₁ hres₁ ⊢
  dsimp only
  have hreset {r : DvdRun B} (hout : DvdComes c₁ b (c₁.blocks b).txdsize r) :
      ∃ calls extra, r.2 = calls ++ extra ∧ (∀ call ∈ extra, call = .resumed) ∧
        DvdComes c₁ b (c₁.blocks b).txdsize ({ r.1 with resumefromhere := 0 }, calls) :=
    ⟨r.2, [], (List.append_nil _).symm, (fun _ hm => by cases hm), fun ok clean hok hclean => DvdOutcome.resumed (hout ok clean hok hclean)⟩
  generalize hn : c₁.resumefromhere = n at hres₁
  -- an engine that goes on as it should starts with a command
  have hno {ok : Prop} (hok : ok → c₁.resumefromhere = 0) (hpos : n ≠ 0) : ¬ ok := fun o => hpos (hn.symm.trans (hok o))
  have hcover (state : DvdState) (hst : state.atCover = true) (hpos : n ≠ 0) :
      DvdComes c₁ b (c₁.blocks b).txdsize (c₁.setState state).statemotorstopped :=
    fun ok clean hok hclean => hat.statemotorstopped hst halarm₁ hvalid₁ (fun o => absurd o (hno hok hpos)) hclean
  match n, hres₁ with
  | 0, _ =>
    refine ⟨_, [], (List.append_nil _).symm, (fun _ hm => by cases hm), fun ok clean _ hclean => ?_⟩
    apply DvdIn.statebusy
    · have hbusy := hat.setState .BUSY
      have hlow := hat.setState_low .BUSY
      have hstate := hat.setState_state .BUSY
      exact { toDvdAt := hbusy.congr rfl rfl rfl rfl rfl rfl (Nat.le_refl _)
              callback := (congrArg DvdLowLevel.callback hlow).trans hcb₁, alarm := (congrArg DvdLowLevel.alarm hlow).trans halarm₁
              closed := (congrArg DvdLowLevel.waitcoverclose hlow).trans hclosed₁
              noRead := (congrArg DvdLowLevel.reads hlow).trans hread₁, cover := congrArg DvdState.atCover hstate
              live := congrArg DvdState.live hstate, disk := (fun e => by cases hstate.symm.trans e), range := hvalid₁, last := fun _ => .inl rfl }
    · intro _ _ e o
      rw [hclean o] at e
      cases e
  | 1, _ => exact (hreset (hcover .WRONG_DISK rfl (by decide)) :)
  | 2, _ => exact (hreset (hcover .RETRY rfl (by decide)) :)
  | 3, _ => exact (hreset (hcover .NO_DISK rfl (by decide)) :)
  | 4, _ => exact (hreset (hcover .COVER_OPEN rfl (by decide)) :)
  | 5, _ =>
    have hfatal : DvdComes c₁ b (c₁.blocks b).txdsize (c₁.setState .FATAL_ERROR).stateerror := fun ok clean hok _ =>
      (hat.toIn hcb₁ halarm₁ hclosed₁ hread₁ hvalid₁ (fun o => absurd o (hno hok (by decide))) rfl rfl (fun e => by cases e)).stateerror
    exact (hreset hfatal :)
  | 6, _ =>
    refine ⟨_, [.resumed], rfl, (fun call hm => List.mem_singleton.1 hm), fun ok clean hok hclean => ?_⟩
    refine hat.statecoverclosed hcb₁ halarm₁ hclosed₁ hread₁ hvalid₁ (fun o => absurd o (hno hok (by decide)))
      (fun o => absurd o (hno hok (by decide))) fun _ e o => ?_
    rw [hclean o] at e
    cases e
  | 7, _ => exact (hreset (hcover .MOTOR_STOPPED rfl (by decide)) :)

end Start

end Libogc
