import Libogc.Dvd.Dvd
/-!
# DvdSteps — what a callback of the engine comes to

A callback of the block that executes waits for another one, calls one at once, stops without either, or ends the block (`DvdOutcome`).
Each function is shown to do one of these from any core that it may be called in (`DvdAt`), so that the laws need not look into it again.
-/
namespace Libogc

open Runs

set_option linter.unusedSectionVars false

variable {B : Type} [DecidableEq B]

/-- The commands that read a range of the disc. -/
def dvdReads (cmd : Nat) : Bool := cmd = 1 ∨ cmd = 4

/-- The states of a block that waits for the cover. -/
def DvdState.atCover : DvdState → Bool
  | .NO_DISK | .COVER_OPEN | .WRONG_DISK | .MOTOR_STOPPED | .RETRY => true
  | _ => false

/-- The states of a block that executes. -/
def DvdState.live : DvdState → Bool
  | .BUSY | .COVER_CLOSED | .FATAL_ERROR | .NO_DISK | .COVER_OPEN | .WRONG_DISK | .MOTOR_STOPPED | .RETRY => true
  | _ => false

theorem DvdState.live_of_atCover {state : DvdState} (h : state.atCover = true) : state.live = true := by
  cases state <;> first | rfl | cases h

/-- A block whose cover was closed goes on, unless it ends with the disc. -/
def DvdBlock.disk (blk : DvdBlock) : Prop := blk.state = .COVER_CLOSED → dvdOfDisk blk.cmd = false

/-- The callbacks of commands without an alarm. -/
def DvdLow.quiet (cb : DvdLow) : Prop := cb = .unlockdrivecb ∨ cb = .patchdrivecb ∨ cb = .statemotorstoppedcb

/-- The drive reads. -/
def DvdLowLevel.reads (low : DvdLowLevel) : Bool :=
  match low.command with
  | some (.read ..) => true
  | _ => false

namespace DvdCore

/-- What is called when the drive is spun up. -/
def Sud (c : DvdCore B) : Prop :=
  (c.low.finalsudcb = some .statebusycb ∧ c.exec.cmd = 0x11) ∨ (c.low.finalsudcb = some .stateretrycb ∧ c.exec.cmd = 5) ∨
    c.low.finalsudcb = some .statecoverclosedSpinupcb

/-- What must hold for a callback to be called. -/
def Ready (c : DvdCore B) : DvdLow → Prop
  | .handlespinupcb | .spinupdrivecb => c.Sud
  | .fwpatchcb => c.Sud ∧ c.low.finalpatchcb = some .spinupdrivecb
  | .patchdrivecb => c.Sud ∧ c.low.finalpatchcb = some .spinupdrivecb ∧ c.drive.patchcode = true
  | .checkaddonscb => c.Sud ∧ c.low.finaladdoncb = some .spinupdrivecb
  | .cntrldrivecb => c.low.finalsudcb = some .statebusycb ∧ c.exec.cmd = 0x12
  | .setgcmoffsetcb => c.low.finaloffsetcb = some .statebusycb ∧ c.exec.cmd = 0x13
  | .stateretrycb => c.exec.cmd = 5
  | .statecheckid1cb => c.currcmd = 3
  | .unrecoverederrorcb | .unrecoverederrorretrycb | .unlockdrivecb => False
  | .statebusycb | .stategettingerrorcb | .stateerrorcb | .statemotorstoppedcb | .statecoverclosedcb | .stategotoretrycb
  | .statecoverclosedSpinupcb => True

/-- What must hold while a callback is waited for. -/
def Waits (c : DvdCore B) : DvdLow → Prop
  | .unlockdrivecb => ∃ f, c.low.finalunlockcb = some f ∧ ¬ f.quiet ∧ f ≠ .statebusycb ∧ c.Ready f
  | cb => c.Ready cb

/-- The function that an error goes back to is one that issues a command. -/
def Last (c : DvdCore B) : Prop := c.laststate = some .statebusy ∨ c.laststate = some .statecoverclosedCmd

/-- The read that the block goes on with. -/
def nextRead (blk : DvdBlock) : DvdCommand :=
  .read (blk.buf + blk.txdsize) (min (u32 (blk.len + 2 ^ 32 - blk.txdsize)) 0x80000) (blk.offset + blk.txdsize)

theorem waits_of_ready {c : DvdCore B} {cb : DvdLow} (h : c.Ready cb) : c.Waits cb := by
  cases cb with
  | unlockdrivecb => exact h.elim
  | _ => exact h

/-- Whether the engine goes on after a callback as it should. -/
def goesOn (c : DvdCore B) (cb : DvdLow) (result : Nat) : Prop :=
  match cb with
  | .stateerrorcb => result = 0x10 ∨ c.exec.state = .FATAL_ERROR
  | .spinupdrivecb | .handlespinupcb | .cntrldrivecb | .setgcmoffsetcb => result ≠ 0x10
  | .fwpatchcb => result ≠ 0x10 ∧ ¬ (result = 1 ∧ c.drive.patchStep = 1 ∧ c.regs.known = false)
  | .statemotorstoppedcb => dvdOfDisk c.currcmd = false
  | .stategettingerrorcb =>
    ¬ (result = 1 ∧ (c.categorizeerror c.regs.error).2 = 0 ∧ dvdStatus c.regs.error = 2 ∧ dvdOfDisk c.currcmd = true)
  | .stategotoretrycb => result = 1 → dvdOfDisk c.currcmd = true
  | .statecoverclosedcb => ¬ (result = 1 ∧ c.currcmd = 3 ∧ c.regs.sameBlock = true)
  | .statecheckid1cb => False
  | _ => True

/-- Whether a cancel that was asked for is not left to the next block. -/
def endsClean (c : DvdCore B) (cb : DvdLow) (result : Nat) : Prop :=
  match cb with
  | .statebusycb => ¬ (c.currcmd = 0x10 ∧ result &&& 8 = 0 ∧ result &&& 1 ≠ 0)
  | .statemotorstoppedcb => dvdOfDisk c.currcmd = false
  | .statecoverclosedcb =>
    result &&& 6 = 0 → c.currcmd ≠ 0x11 ∧ (c.currcmd = 3 ∨ c.currcmd = 5 ∨ c.regs.sameDisk = true) ∧
      ¬ (dvdReads c.currcmd = true ∧ c.exec.len = 0)
  | _ => True

instance (c : DvdCore B) (result : Nat) : (cb : DvdLow) → Decidable (c.goesOn cb result)
  | .stateerrorcb => inferInstanceAs (Decidable (_ ∨ _))
  | .spinupdrivecb | .handlespinupcb | .cntrldrivecb | .setgcmoffsetcb => inferInstanceAs (Decidable (_ ≠ _))
  | .fwpatchcb => inferInstanceAs (Decidable (_ ∧ ¬ (_ ∧ _ ∧ _)))
  | .statemotorstoppedcb => inferInstanceAs (Decidable (_ = _))
  | .stategettingerrorcb => inferInstanceAs (Decidable (¬ (_ ∧ _ ∧ _ ∧ _)))
  | .stategotoretrycb => inferInstanceAs (Decidable (_ → _))
  | .statecoverclosedcb => inferInstanceAs (Decidable (¬ (_ ∧ _ ∧ _)))
  | .statecheckid1cb => inferInstanceAs (Decidable False)
  | .stateretrycb | .unrecoverederrorretrycb | .unrecoverederrorcb | .statebusycb | .checkaddonscb | .statecoverclosedSpinupcb
  | .patchdrivecb | .unlockdrivecb => inferInstanceAs (Decidable True)

instance (c : DvdCore B) (result : Nat) : (cb : DvdLow) → Decidable (c.endsClean cb result)
  | .statebusycb => inferInstanceAs (Decidable (¬ (_ ∧ _ ∧ _)))
  | .statemotorstoppedcb => inferInstanceAs (Decidable (_ = _))
  | .statecoverclosedcb => inferInstanceAs (Decidable (_ → _ ∧ _ ∧ ¬ (_ ∧ _)))
  | .stateerrorcb | .spinupdrivecb | .handlespinupcb | .cntrldrivecb | .setgcmoffsetcb | .fwpatchcb | .stategettingerrorcb
  | .stategotoretrycb | .statecheckid1cb | .stateretrycb | .unrecoverederrorretrycb | .unrecoverederrorcb | .checkaddonscb
  | .statecoverclosedSpinupcb | .patchdrivecb | .unlockdrivecb => inferInstanceAs (Decidable True)

/-- What is read of the block when a callback is called. -/
def txdAfter (c : DvdCore B) (b : B) (cb : DvdLow) (result : Nat) : Nat :=
  if cb = .statebusycb ∧ result ≠ 0x10 then
    u32 ((c.blocks b).txdsize + ((c.blocks b).currtxsize + 2 ^ 32 - c.regs.residual))
  else (c.blocks b).txdsize

end DvdCore

/-! ## Where a function is called -/

/-- A core on the way from `c₀`, in which the block `b` executes; `t` bytes of it are read. -/
structure DvdAt (c₀ : DvdCore B) (b : B) (t : Nat) (c : DvdCore B) : Prop where
  executing : c.executing = .block b
  others : ∀ x, x ≠ b → c.blocks x = c₀.blocks x
  cmd : (c.blocks b).cmd = (c₀.blocks b).cmd
  buf : (c.blocks b).buf = (c₀.blocks b).buf
  len : (c.blocks b).len = (c₀.blocks b).len
  offset : (c.blocks b).offset = (c₀.blocks b).offset
  txd : dvdReads (c₀.blocks b).cmd = true → (c.blocks b).txdsize = t
  currcmd : c.currcmd = (c₀.blocks b).cmd
  dummy : c.dummy = c₀.dummy
  canceling : c.canceling = c₀.canceling
  cancelcallback : c.cancelcallback = c₀.cancelcallback
  resume : c.resumefromhere ≤ 7 ∧ (c₀.canceling = false → c.resumefromhere ≤ c₀.resumefromhere)

/-- And nothing is under way yet. -/
structure DvdIn (ok : Prop) (c₀ : DvdCore B) (b : B) (t : Nat) (c : DvdCore B) : Prop extends DvdAt c₀ b t c where
  callback : c.low.callback = none
  alarm : c.low.alarm = false
  closed : c.low.waitcoverclose = false
  noRead : c.low.reads = false
  cover : (c.blocks b).state.atCover = false
  live : (c.blocks b).state.live = true
  disk : (c.blocks b).disk
  range : 1 ≤ (c₀.blocks b).cmd ∧ (c₀.blocks b).cmd ≤ 25
  last : ok → c.Last

section At
variable {ok : Prop} {c₀ c c' : DvdCore B} {b : B} {t : Nat}

/-- What may be changed without leaving it: the drive, the low level, and some more. -/
theorem DvdAt.congr (h : DvdAt c₀ b t c) (he : c'.executing = c.executing) (hb : c'.blocks = c.blocks) (hd : c'.dummy = c.dummy)
    (hc : c'.currcmd = c.currcmd) (hcan : c'.canceling = c.canceling) (hcb : c'.cancelcallback = c.cancelcallback)
    (hres : c'.resumefromhere ≤ c.resumefromhere) : DvdAt c₀ b t c' := by
  constructor
  · rw [he, h.executing]
  · rw [hb]
    exact h.others
  · rw [hb, h.cmd]
  · rw [hb, h.buf]
  · rw [hb, h.len]
  · rw [hb, h.offset]
  · rw [hb]
    exact h.txd
  · rw [hc, h.currcmd]
  · rw [hd, h.dummy]
  · rw [hcan, h.canceling]
  · rw [hcb, h.cancelcallback]
  · exact ⟨Nat.le_trans hres h.resume.1, fun e => Nat.le_trans hres (h.resume.2 e)⟩

theorem DvdIn.congr (h : DvdIn ok c₀ b t c) (he : c'.executing = c.executing) (hb : c'.blocks = c.blocks) (hd : c'.dummy = c.dummy)
    (hc : c'.currcmd = c.currcmd) (hcan : c'.canceling = c.canceling) (hcb : c'.cancelcallback = c.cancelcallback)
    (hres : c'.resumefromhere ≤ c.resumefromhere) (hlast : c'.laststate = c.laststate) (hlow : c'.low.callback = c.low.callback) (halarm : c'.low.alarm = c.low.alarm)
    (hclosed : c'.low.waitcoverclose = c.low.waitcoverclose) (hcommand : c'.low.command = c.low.command) : DvdIn ok c₀ b t c' where
  toDvdAt := h.toDvdAt.congr he hb hd hc hcan hcb hres
  callback := hlow.trans h.callback
  alarm := halarm.trans h.alarm
  closed := hclosed.trans h.closed
  noRead := by
    unfold DvdLowLevel.reads
    rw [hcommand]
    exact h.noRead
  cover := by rw [hb, h.cover]
  live := by rw [hb, h.live]
  disk := by
    rw [hb]
    exact h.disk
  range := h.range
  last := fun hok => by
    unfold DvdCore.Last
    rw [hlast]
    exact h.last hok

theorem DvdIn.notEnd (h : DvdIn ok c₀ b t c) : (c.blocks b).state ≠ .END := by
  intro e
  have hlive := h.live
  rw [e] at hlive
  cases hlive

theorem DvdIn.notWaiting (h : DvdIn ok c₀ b t c) : (c.blocks b).state ≠ .WAITING := by
  intro e
  have hlive := h.live
  rw [e] at hlive
  cases hlive

theorem DvdAt.exec (h : DvdAt c₀ b t c) : c.exec = c.blocks b := by
  unfold DvdCore.exec
  rw [h.executing]

theorem DvdAt.exec_cmd (h : DvdAt c₀ b t c) : c.exec.cmd = (c₀.blocks b).cmd := by rw [h.exec, h.cmd]

end At

section SetExec
variable {ok : Prop} {c₀ c : DvdCore B} {b : B} {t : Nat}

theorem DvdAt.setExec_eq (h : DvdAt c₀ b t c) (f : DvdBlock → DvdBlock) :
    c.setExec f = { c with blocks := Function.update c.blocks b (f (c.blocks b)) } := by
  unfold DvdCore.setExec
  rw [h.executing]

theorem DvdAt.setExec_block (h : DvdAt c₀ b t c) (f : DvdBlock → DvdBlock) : (c.setExec f).blocks b = f (c.blocks b) := by
  rw [h.setExec_eq]
  exact Function.update_self ..

theorem DvdAt.setExec_low (h : DvdAt c₀ b t c) (f : DvdBlock → DvdBlock) : (c.setExec f).low = c.low := by
  rw [h.setExec_eq]

theorem DvdAt.setExec (h : DvdAt c₀ b t c) {f : DvdBlock → DvdBlock} {t' : Nat} (hcmd : (f (c.blocks b)).cmd = (c.blocks b).cmd)
    (hbuf : (f (c.blocks b)).buf = (c.blocks b).buf) (hlen : (f (c.blocks b)).len = (c.blocks b).len)
    (hoff : (f (c.blocks b)).offset = (c.blocks b).offset)
    (htxd : dvdReads (c₀.blocks b).cmd = true → (f (c.blocks b)).txdsize = t') : DvdAt c₀ b t' (c.setExec f) := by
  have hself := h.setExec_block f
  refine ⟨?_, fun x hx => ?_, ?_, ?_, ?_, ?_, fun hr => ?_, ?_, ?_, ?_, ?_, ?_⟩
  · rw [h.setExec_eq]
    exact h.executing
  · rw [h.setExec_eq]
    exact (Function.update_of_ne hx ..).trans (h.others x hx)
  · rw [hself, hcmd, h.cmd]
  · rw [hself, hbuf, h.buf]
  · rw [hself, hlen, h.len]
  · rw [hself, hoff, h.offset]
  · rw [hself, htxd hr]
  · rw [h.setExec_eq]
    exact h.currcmd
  · rw [h.setExec_eq]
    exact h.dummy
  · rw [h.setExec_eq]
    exact h.canceling
  · rw [h.setExec_eq]
    exact h.cancelcallback
  · rw [h.setExec_eq]
    exact h.resume

theorem DvdIn.setExec (h : DvdIn ok c₀ b t c) {f : DvdBlock → DvdBlock} {t' : Nat} (hcmd : (f (c.blocks b)).cmd = (c.blocks b).cmd)
    (hbuf : (f (c.blocks b)).buf = (c.blocks b).buf) (hlen : (f (c.blocks b)).len = (c.blocks b).len)
    (hoff : (f (c.blocks b)).offset = (c.blocks b).offset) (hst : (f (c.blocks b)).state = (c.blocks b).state)
    (htxd : dvdReads (c₀.blocks b).cmd = true → (f (c.blocks b)).txdsize = t') : DvdIn ok c₀ b t' (c.setExec f) where
  toDvdAt := h.toDvdAt.setExec hcmd hbuf hlen hoff htxd
  callback := by rw [h.setExec_low, h.callback]
  alarm := by rw [h.setExec_low, h.alarm]
  closed := by rw [h.setExec_low, h.closed]
  noRead := by rw [h.setExec_low, h.noRead]
  cover := by rw [h.setExec_block, hst, h.cover]
  live := by rw [h.setExec_block, hst, h.live]
  disk := by
    unfold DvdBlock.disk
    rw [h.setExec_block, hst, hcmd]
    exact h.disk
  range := h.range
  last := fun hok => by
    unfold DvdCore.Last
    rw [h.setExec_eq]
    exact h.last hok

theorem DvdAt.setState (h : DvdAt c₀ b t c) (state : DvdState) : DvdAt c₀ b t (c.setState state) :=
  h.setExec rfl rfl rfl rfl h.txd

theorem DvdAt.setState_state (h : DvdAt c₀ b t c) (state : DvdState) : ((c.setState state).blocks b).state = state := by
  unfold DvdCore.setState
  rw [h.setExec_block]

theorem DvdAt.setState_low (h : DvdAt c₀ b t c) (state : DvdState) : (c.setState state).low = c.low := h.setExec_low _

theorem DvdAt.setState_laststate (h : DvdAt c₀ b t c) (state : DvdState) : (c.setState state).laststate = c.laststate := by
  unfold DvdCore.setState
  rw [h.setExec_eq]

theorem DvdAt.toIn (h : DvdAt c₀ b t c) {state : DvdState} (hcb : c.low.callback = none) (halarm : c.low.alarm = false)
    (hclosed : c.low.waitcoverclose = false) (hread : c.low.reads = false)
    (hrange : 1 ≤ (c₀.blocks b).cmd ∧ (c₀.blocks b).cmd ≤ 25) (hlast : ok → c.Last) (hc : state.atCover = false) (hlive : state.live = true)
    (hdisk : state = .COVER_CLOSED → dvdOfDisk (c₀.blocks b).cmd = false) : DvdIn ok c₀ b t (c.setState state) where
  toDvdAt := h.setState state
  callback := by rw [h.setState_low, hcb]
  alarm := by rw [h.setState_low, halarm]
  closed := by rw [h.setState_low, hclosed]
  noRead := by rw [h.setState_low, hread]
  cover := by rw [h.setState_state, hc]
  live := by rw [h.setState_state, hlive]
  disk := by
    unfold DvdBlock.disk
    rw [h.setState_state, (h.setState state).cmd]
    exact hdisk
  range := hrange
  last := fun hok => by
    unfold DvdCore.Last
    rw [h.setState_laststate]
    exact hlast hok

theorem DvdIn.setState (h : DvdIn ok c₀ b t c) {state : DvdState} (hc : state.atCover = false) (hlive : state.live = true)
    (hdisk : state = .COVER_CLOSED → dvdOfDisk (c₀.blocks b).cmd = false) : DvdIn ok c₀ b t (c.setState state) :=
  h.toDvdAt.toIn h.callback h.alarm h.closed h.noRead h.range h.last hc hlive hdisk

end SetExec

/-! ## What it comes to -/

/-- How a block ends: with which state, whether a cancel is still asked for, and what is called.  `ok` is that the engine goes on as it
should, `clean` that a cancel is not left to the next block. -/
inductive DvdEnd (ok clean : Prop) (c₀ : DvdCore B) (b : B) : DvdState → Bool → List (DvdCall B) → Prop where
  | cancelled (h : c₀.canceling = true) :
    DvdEnd ok clean c₀ b .CANCELED false [.user (.block b) DVD_ERROR_CANCELED, .cancelcb (.block b), .stateready]
  /-- After the motor has stopped, or a timeout. -/
  | error (state : DvdState) (h : ok → state = .FATAL_ERROR) (hlive : state.live = true) :
    DvdEnd ok clean c₀ b state c₀.canceling [.user (.block b) DVD_ERROR_FATAL, .errorcancel (.block b), .stateready]
  /-- The cover was closed. -/
  | covered (state : DvdState) (h : dvdOfDisk (c₀.blocks b).cmd = true) (hlive : state.live = true) (hok : ¬ ok) (hclean : c₀.canceling = true → ¬ clean) :
    DvdEnd ok clean c₀ b state c₀.canceling [.clearwaitingqueue, .user (.block b) DVD_ERROR_COVER_CLOSED, .stateready]
  /-- It is another disc. -/
  | remounted (hclean : c₀.canceling = true → ¬ clean) :
    DvdEnd ok clean c₀ b .FATAL_ERROR c₀.canceling [.user (.block b) DVD_ERROR_FATAL, .mountcb (.block b), .stateready]
  | finished (state : DvdState) (result : Int) (h : state = .END ∨ state = .FATAL_ERROR ∨ state = .IGNORED)
    (hclean : c₀.canceling = true → ¬ clean) :
    DvdEnd ok clean c₀ b state c₀.canceling [.user (.block b) result, .stateready]

/-- A block after its end. -/
structure DvdAfter (c₀ : DvdCore B) (b : B) (t : Nat) (state : DvdState) (canceling : Bool) (c : DvdCore B) : Prop where
  executing : c.executing = .dummy
  others : ∀ x, x ≠ b → c.blocks x = c₀.blocks x
  cmd : (c.blocks b).cmd = (c₀.blocks b).cmd
  len : (c.blocks b).len = (c₀.blocks b).len
  txd : dvdReads (c₀.blocks b).cmd = true → (c.blocks b).txdsize = t
  state : (c.blocks b).state = state
  dummy : c.dummy = c₀.dummy
  canceling : c.canceling = canceling
  cancelcallback : c.cancelcallback = c₀.cancelcallback
  callback : c.low.callback = none
  alarm : c.low.alarm = false
  closed : c.low.waitcoverclose = false
  noRead : c.low.reads = false
  resume : c.resumefromhere ≤ 7 ∧ (c₀.canceling = false → c.resumefromhere ≤ c₀.resumefromhere)

/-- The callback `cb` is waited for. -/
structure DvdWaiting (ok : Prop) (c₀ : DvdCore B) (b : B) (t : Nat) (cb : DvdLow) (c : DvdCore B) : Prop extends DvdAt c₀ b t c where
  callback : c.low.callback = some cb
  waits : c.Waits cb
  cover : (c.blocks b).state.atCover = true ↔ cb = .statemotorstoppedcb
  command : c.low.command ≠ none
  closes : c.low.command = some .waitCoverClose ↔ cb = .statemotorstoppedcb
  closed : c.low.waitcoverclose = true ↔ cb = .statemotorstoppedcb
  live : (c.blocks b).state.live = true
  disk : (c.blocks b).disk
  alarm : cb.quiet → c.low.alarm = false
  stop : c.low.stopnextint = true → c.canceling = true
  range : 1 ≤ (c₀.blocks b).cmd ∧ (c₀.blocks b).cmd ≤ 25
  last : ok → c.Last
  read : dvdReads (c₀.blocks b).cmd = true → cb = .statebusycb → c.low.command = some (DvdCore.nextRead (c.blocks b)) ∧
    (c.blocks b).currtxsize = min (u32 ((c.blocks b).len + 2 ^ 32 - t)) 0x80000
  reading : c.low.reads = true → cb = .statebusycb ∧ dvdReads (c₀.blocks b).cmd = true

/-- **What a function comes to** when the block `b` executes, and `t` bytes of it are read. -/
inductive DvdOutcome (ok clean : Prop) (c₀ : DvdCore B) (b : B) (t : Nat) : DvdRun B → Prop where
  /-- A command is under way. -/
  | waits {c : DvdCore B} (cb : DvdLow) (h : DvdWaiting ok c₀ b t cb c) (hcover : cb = .statemotorstoppedcb → clean → c₀.canceling = false) :
    DvdOutcome ok clean c₀ b t (c, [])
  /-- Another callback is called at once. -/
  | final {c : DvdCore B} {cb : DvdLow} (h : DvdIn ok c₀ b t c) (hr : c.Ready cb) (hquiet : ¬ cb.quiet)
    (hread : dvdReads (c₀.blocks b).cmd = true → cb ≠ .statebusycb) : DvdOutcome ok clean c₀ b t (c, [.low cb 1])
  /-- Nothing is under way. -/
  | stuck {c : DvdCore B} (h : DvdIn ok c₀ b t c) (hok : ¬ ok) : DvdOutcome ok clean c₀ b t (c, [])
  /-- The block ends; if a read ends well, it is read as a whole. -/
  | ends {c : DvdCore B} {state : DvdState} {canceling : Bool} {calls : List (DvdCall B)}
    (he : DvdEnd ok clean c₀ b state canceling calls) (h : DvdAfter c₀ b t state canceling c) (hcover : state.atCover = false)
    (hwaiting : state ≠ .WAITING)
    (hread : dvdReads (c₀.blocks b).cmd = true → 0 < (c₀.blocks b).len → state = .END →
      t = (c₀.blocks b).len ∧ calls = [.user (.block b) (s32 (c₀.blocks b).len), .stateready]) :
    DvdOutcome ok clean c₀ b t (c, calls)

section Functions
variable {ok clean : Prop} {c₀ c : DvdCore B} {b : B} {t : Nat}

/-! ### Low-level commands -/

theorem DvdIn.waiting {c' : DvdCore B} {cb : DvdLow} (h : DvdIn ok c₀ b t c) (hat : DvdAt c₀ b t c') (hb : c'.blocks = c.blocks)
    (hlast : c'.laststate = c.laststate) (hcb : c'.low.callback = some cb) (hcommand : c'.low.command = some .other)
    (hclosed : c'.low.waitcoverclose = c.low.waitcoverclose) (hstop : c'.low.stopnextint = false)
    (halarm : cb.quiet → c'.low.alarm = false) (hw : c'.Waits cb) (hcover : cb ≠ .statemotorstoppedcb)
    (hread : dvdReads (c₀.blocks b).cmd = true → cb ≠ .statebusycb) : DvdWaiting ok c₀ b t cb c' where
  toDvdAt := hat
  callback := hcb
  waits := hw
  cover := by
    rw [hb, h.cover]
    exact ⟨(fun e => by cases e), fun e => absurd e hcover⟩
  command := by
    rw [hcommand]
    exact Option.some_ne_none _
  closes := by
    rw [hcommand]
    exact ⟨(fun e => by cases e), fun e => absurd e hcover⟩
  closed := by
    rw [hclosed, h.closed]
    exact ⟨(fun e => by cases e), fun e => absurd e hcover⟩
  live := by rw [hb, h.live]
  disk := by
    rw [hb]
    exact h.disk
  alarm := halarm
  stop := fun e => by
    rw [hstop] at e
    cases e
  range := h.range
  last := fun hok => by
    unfold DvdCore.Last
    rw [hlast]
    exact h.last hok
  read := fun hr e => absurd e (hread hr)
  reading := fun e => by
    unfold DvdLowLevel.reads at e
    rw [hcommand] at e
    cases e

variable {cb : DvdLow} {state : DvdState}

theorem DvdIn.low (h : DvdIn ok c₀ b t c) {alarm : Bool} (hw : (c.lowCommand alarm cb).Waits cb) (halarm : cb.quiet → alarm = false)
    (hcover : cb ≠ .statemotorstoppedcb) (hread : dvdReads (c₀.blocks b).cmd = true → cb ≠ .statebusycb) :
    DvdOutcome ok clean c₀ b t (c.lowCommand alarm cb, []) := by
  refine .waits _ (h.waiting (h.toDvdAt.congr rfl rfl rfl rfl rfl rfl (Nat.le_refl _)) rfl rfl rfl rfl rfl rfl (fun hq => ?_) hw hcover hread)
    fun e => absurd e hcover
  show (c.low.alarm || alarm) = false
  rw [h.alarm, halarm hq]
  rfl

/-- A command whose error is asked for, or the like: nothing must hold for its callback. -/
theorem DvdIn.plain (h : DvdIn ok c₀ b t c) (hw : (c.lowCommand true cb).Waits cb) (hquiet : ¬ cb.quiet) (hread : cb ≠ .statebusycb) :
    DvdOutcome ok clean c₀ b t (c.lowCommand true cb, []) :=
  h.low hw (fun hq => absurd hq hquiet) (fun e => hquiet (.inr (.inr e))) fun _ => hread

theorem DvdAt.statemotorstopped (h : DvdAt c₀ b t c) (hst : state.atCover = true) (halarm : c.low.alarm = false)
    (hrange : 1 ≤ (c₀.blocks b).cmd ∧ (c₀.blocks b).cmd ≤ 25) (hlast : ok → c.Last) (hclean : clean → c₀.canceling = false) :
    DvdOutcome ok clean c₀ b t (c.setState state).statemotorstopped := by
  refine .waits .statemotorstoppedcb
    { toDvdAt := (h.setState state).congr rfl rfl rfl rfl rfl rfl (Nat.le_refl _), callback := rfl, waits := trivial, cover := ⟨fun _ => rfl, fun _ => ?_⟩
      command := Option.some_ne_none _, closes := ⟨fun _ => rfl, fun _ => rfl⟩, closed := ⟨fun _ => rfl, fun _ => rfl⟩
      live := ?_, disk := fun e => ?_, alarm := fun _ => ?_, stop := (fun e => by cases e), range := hrange, last := fun hok => ?_, read := (fun _ e => by cases e)
      reading := fun e => by cases e }
    fun _ => hclean
  · show ((c.setState state).blocks b).state.atCover = true
    rw [h.setState_state, hst]
  · show ((c.setState state).blocks b).state.live = true
    rw [h.setState_state, DvdState.live_of_atCover hst]
  · have hst' : state = .COVER_CLOSED := (h.setState_state state).symm.trans e
    rw [hst'] at hst
    cases hst
  · show (c.setState state).low.alarm = false
    rw [h.setState_low, halarm]
  · show (c.setState state).laststate = _ ∨ (c.setState state).laststate = _
    rw [h.setState_laststate]
    exact hlast hok

theorem DvdIn.statemotorstopped (h : DvdIn ok c₀ b t c) (hst : state.atCover = true) (hclean : clean → c₀.canceling = false) :
    DvdOutcome ok clean c₀ b t (c.setState state).statemotorstopped :=
  h.toDvdAt.statemotorstopped hst h.alarm h.range h.last hclean

/-! ### Ends -/

theorem DvdIn.after (h : DvdIn ok c₀ b t c) : DvdAfter c₀ b t (c.blocks b).state c₀.canceling { c with executing := .dummy } :=
  ⟨rfl, h.others, h.cmd, h.len, h.txd, rfl, h.dummy, h.canceling, h.cancelcallback, h.callback, h.alarm, h.closed,
    h.noRead, h.resume⟩

theorem DvdIn.finish_some (h : DvdIn ok c₀ b t c) (state : DvdState) (result : Int) (calls : List (DvdCall B)) :
    DvdAfter c₀ b t state c₀.canceling (c.finish (some state) result calls).1 := by
  have hs := h.toDvdAt.setState state
  refine ⟨rfl, hs.others, hs.cmd, hs.len, hs.txd, h.setState_state state, hs.dummy, hs.canceling, hs.cancelcallback, ?_, ?_, ?_, ?_, ?_⟩
  · exact (congrArg DvdLowLevel.callback (h.setState_low state)).trans h.callback
  · exact (congrArg DvdLowLevel.alarm (h.setState_low state)).trans h.alarm
  · exact (congrArg DvdLowLevel.waitcoverclose (h.setState_low state)).trans h.closed
  · exact (congrArg DvdLowLevel.reads (h.setState_low state)).trans h.noRead
  · exact hs.resume

theorem DvdIn.finish_calls (h : DvdIn ok c₀ b t c) (state : Option DvdState) (result : Int) (calls : List (DvdCall B)) :
    (c.finish state result calls).2 = .user (.block b) result :: (calls ++ [.stateready]) := by
  unfold DvdCore.finish
  rw [h.executing]

theorem DvdIn.finished (h : DvdIn ok c₀ b t c) (result : Int) (hst : state = .END ∨ state = .FATAL_ERROR ∨ state = .IGNORED)
    (hclean : c₀.canceling = true → ¬ clean)
    (hread : dvdReads (c₀.blocks b).cmd = true → 0 < (c₀.blocks b).len → state = .END → t = (c₀.blocks b).len ∧ result = s32 (c₀.blocks b).len) :
    DvdOutcome ok clean c₀ b t (c.finish (some state) result []) := by
  have hcover : state.atCover = false := by rcases hst with rfl | rfl | rfl <;> rfl
  have hafter := h.finish_some state result []
  have hcalls := h.finish_calls (some state) result []
  generalize c.finish (some state) result [] = r at hafter hcalls
  obtain ⟨c', calls⟩ := r
  obtain rfl : calls = _ := hcalls
  have hwaiting : state ≠ .WAITING := by rcases hst with rfl | rfl | rfl <;> decide
  refine .ends (.finished state result hst hclean) hafter hcover hwaiting fun hr hlen he => ?_
  obtain ⟨ht, hres⟩ := hread hr hlen he
  exact ⟨ht, by rw [hres]; rfl⟩

theorem DvdIn.cancelled (h : DvdIn ok c₀ b t c) (hcan : c₀.canceling = true) {resumefromhere : Nat} (hres : resumefromhere ≤ 7) :
    DvdOutcome ok clean c₀ b t
      (DvdCore.finish { c with resumefromhere := resumefromhere, canceling := false } (some .CANCELED) DVD_ERROR_CANCELED
        [.cancelcb c.executing]) := by
  -- but for the flag, nothing has changed since `c₀`
  have h' : DvdIn ok { c₀ with resumefromhere := resumefromhere, canceling := false } b t { c with resumefromhere := resumefromhere, canceling := false } :=
    { executing := h.executing, others := h.others, cmd := h.cmd, buf := h.buf, len := h.len, offset := h.offset, txd := h.txd
      currcmd := h.currcmd, dummy := h.dummy, canceling := rfl, cancelcallback := h.cancelcallback, resume := ⟨hres, fun _ => Nat.le_refl _⟩, callback := h.callback
      alarm := h.alarm, closed := h.closed, noRead := h.noRead, cover := h.cover, live := h.live, disk := h.disk, range := h.range, last := h.last }
  have hafter := h'.finish_some .CANCELED DVD_ERROR_CANCELED [.cancelcb c.executing]
  have hcalls := h'.finish_calls (some .CANCELED) DVD_ERROR_CANCELED [.cancelcb c.executing]
  generalize DvdCore.finish (B := B) _ _ _ _ = r at hafter hcalls ⊢
  obtain ⟨c', calls⟩ := r
  obtain rfl : calls = _ := hcalls
  rw [h.executing]
  exact .ends (.cancelled hcan)
    ⟨hafter.executing, hafter.others, hafter.cmd, hafter.len, hafter.txd, hafter.state, hafter.dummy, hafter.canceling,
      hafter.cancelcallback, hafter.callback, hafter.alarm, hafter.closed, hafter.noRead, hafter.resume.1, fun e => by rw [hcan] at e; cases e⟩ rfl (by decide) (fun _ _ e => by cases e)

theorem DvdIn.checkcancel (h : DvdIn ok c₀ b t c) {cancelpt : Nat} (hpt : cancelpt ≤ 7) {r : DvdRun B}
    (hnone : c₀.canceling = false → DvdOutcome ok clean c₀ b t r) :
    DvdOutcome ok clean c₀ b t (match c.checkcancel cancelpt with | some r => r | none => r) := by
  unfold DvdCore.checkcancel
  cases hcan : c.canceling with
  | false => exact hnone (h.canceling.symm.trans hcan)
  | true =>
    rw [if_pos rfl]
    exact h.cancelled (h.canceling.symm.trans hcan) hpt

/-- `__dvd_stateerrorcb`, after which a cancel that was asked for is answered. -/
theorem DvdIn.stateerrorEnd (h : DvdIn ok c₀ b t c) (hfatal : ok → (c.blocks b).state = .FATAL_ERROR) :
    DvdOutcome ok clean c₀ b t c.stateerrorEnd := by
  have hafter := h.after
  unfold DvdCore.stateerrorEnd DvdCore.finish
  rw [h.executing]
  exact .ends (.error (c.blocks b).state hfatal h.live)
    ⟨rfl, hafter.others, hafter.cmd, hafter.len, hafter.txd, rfl, hafter.dummy, hafter.canceling, hafter.cancelcallback,
      hafter.callback, hafter.alarm, hafter.closed, hafter.noRead, hafter.resume⟩ h.cover h.notWaiting fun _ _ e => absurd e h.notEnd

theorem DvdIn.statetimeout (h : DvdIn ok c₀ b t c) (hfatal : ok → (c.blocks b).state = .FATAL_ERROR) :
    DvdOutcome ok clean c₀ b t c.statetimeout := by
  have hreset : DvdIn ok c₀ b t (c.reset false) := h.congr rfl rfl rfl rfl rfl rfl (Nat.zero_le _) rfl rfl rfl rfl rfl
  exact hreset.stateerrorEnd hfatal

theorem DvdAt.fatalTimeout (h : DvdAt c₀ b t c) (hcb : c.low.callback = none) (halarm : c.low.alarm = false)
    (hclosed : c.low.waitcoverclose = false) (hread : c.low.reads = false) (hrange : 1 ≤ (c₀.blocks b).cmd ∧ (c₀.blocks b).cmd ≤ 25)
    (hlast : ok → c.Last) : DvdOutcome ok clean c₀ b t c.fatalTimeout :=
  DvdIn.statetimeout (h.toIn hcb halarm hclosed hread hrange hlast rfl rfl (fun e => by cases e)) fun _ => h.setState_state _

theorem DvdIn.fatalTimeout (h : DvdIn ok c₀ b t c) : DvdOutcome ok clean c₀ b t c.fatalTimeout :=
  h.toDvdAt.fatalTimeout h.callback h.alarm h.closed h.noRead h.range h.last

theorem DvdIn.stateerror (h : DvdIn ok c₀ b t c) : DvdOutcome ok clean c₀ b t c.stateerror :=
  h.plain trivial (by unfold DvdLow.quiet; decide) (by decide)

theorem DvdIn.fatal (h : DvdIn ok c₀ b t c) : DvdOutcome ok clean c₀ b t (c.setState .FATAL_ERROR).stateerror :=
  (h.setState rfl rfl (fun e => by cases e)).stateerror

theorem DvdIn.stategettingerror (h : DvdIn ok c₀ b t c) : DvdOutcome ok clean c₀ b t c.stategettingerror :=
  h.plain trivial (by unfold DvdLow.quiet; decide) (by decide)

theorem DvdIn.stategotoretry (h : DvdIn ok c₀ b t c) : DvdOutcome ok clean c₀ b t c.stategotoretry :=
  h.plain trivial (by unfold DvdLow.quiet; decide) (by decide)

theorem DvdIn.statecoverclosedCmd (h : DvdIn ok c₀ b t c) : DvdOutcome ok clean c₀ b t c.statecoverclosedCmd :=
  h.plain trivial (by unfold DvdLow.quiet; decide) (by decide)

/-! ### Spinning up -/

theorem DvdAt.sud (h : DvdAt c₀ b t c) (hs : c.Sud) :
    ∃ cb, c.low.finalsudcb = some cb ∧ c.Ready cb ∧ c.Waits cb ∧ ¬ cb.quiet ∧
      (dvdReads (c₀.blocks b).cmd = true → cb ≠ .statebusycb) := by
  unfold DvdLow.quiet
  rcases hs with ⟨hf, hcmd⟩ | ⟨hf, hcmd⟩ | hf
  · refine ⟨_, hf, trivial, trivial, by decide, fun hr => ?_⟩
    rw [h.exec_cmd] at hcmd
    rw [hcmd] at hr
    cases hr
  · exact ⟨_, hf, hcmd, hcmd, by decide, fun _ => by decide⟩
  · exact ⟨_, hf, trivial, trivial, by decide, fun _ => by decide⟩

theorem DvdIn.lowFinal (h : DvdIn ok c₀ b t c) (hw : c.Waits cb) (hquiet : ¬ cb.quiet)
    (hread : dvdReads (c₀.blocks b).cmd = true → cb ≠ .statebusycb) : DvdOutcome ok clean c₀ b t (c.lowFinal (some cb), []) := by
  refine .waits _ (h.waiting (h.toDvdAt.congr rfl rfl rfl rfl rfl rfl (Nat.le_refl _)) rfl rfl rfl rfl rfl rfl (fun hq => absurd hq hquiet) ?_
    (fun e => hquiet (.inr (.inr e))) hread) fun e => absurd (.inr (.inr e)) hquiet
  cases cb <;> exact hw

theorem DvdIn.lowUnlockDrive (h : DvdIn ok c₀ b t c) (hr : c.Ready cb) (hquiet : ¬ cb.quiet) (hread : cb ≠ .statebusycb) :
    DvdOutcome ok clean c₀ b t (c.lowUnlockDrive cb, []) := by
  refine .waits .unlockdrivecb (h.waiting (h.toDvdAt.congr rfl rfl rfl rfl rfl rfl (Nat.le_refl _)) rfl rfl rfl rfl rfl rfl (fun _ => ?_)
    ⟨cb, rfl, hquiet, hread, ?_⟩ (by decide) fun _ => by decide) fun e => by cases e
  · show (c.low.alarm || false) = false
    rw [h.alarm]
    rfl
  · cases cb <;> exact hr

/-- `__dvd_spinupdrivecb`: it goes through the steps that the drive still needs. -/
theorem DvdIn.spinup (h : DvdIn ok c₀ b t c) (hs : c.Sud) : DvdOutcome ok clean c₀ b t (c.spinupdrivecb 1) := by
  unfold DvdCore.spinupdrivecb
  rw [if_neg (by decide), if_pos rfl]
  split
  · -- the addons are looked for
    refine .waits .checkaddonscb (h.waiting (h.toDvdAt.congr rfl rfl rfl rfl rfl rfl (Nat.le_refl _)) rfl rfl rfl rfl rfl rfl
      (fun hq => ?_) ⟨hs, rfl⟩ (by decide) fun _ => by decide) fun e => by cases e
    unfold DvdLow.quiet at hq
    exact absurd hq (by decide)
  · split
    · split
      · -- the drive is patched, after a reset
        have hreset : ∀ c', (c' = c ∨ c' = c.reset true) →
            DvdOutcome ok clean c₀ b t ({ c'.lowCommand true .fwpatchcb with
              low := { (c'.lowCommand true .fwpatchcb).low with finalpatchcb := some .spinupdrivecb } }, []) := by
          intro c' hc'
          have h' : DvdIn ok c₀ b t c' := by
            rcases hc' with rfl | rfl
            · exact h
            · exact h.congr rfl rfl rfl rfl rfl rfl (Nat.zero_le _) rfl rfl rfl rfl rfl
          have hs' : c'.Sud := by
            rcases hc' with rfl | rfl
            · exact hs
            · exact hs
          refine .waits .fwpatchcb (h'.waiting (h'.toDvdAt.congr rfl rfl rfl rfl rfl rfl (Nat.le_refl _)) rfl rfl rfl rfl rfl rfl
            (fun hq => ?_) ⟨hs', rfl⟩ (by decide) fun _ => by decide) fun e => by cases e
          unfold DvdLow.quiet at hq
          exact absurd hq (by decide)
        refine hreset _ ?_
        split
        · exact .inr rfl
        · exact .inl rfl
      · exact h.lowUnlockDrive hs (by unfold DvdLow.quiet; decide) (by decide)
    · -- nothing is left to do
      obtain ⟨cb, hf, hr, -, hquiet, hread⟩ := h.toDvdAt.sud hs
      rw [hf]
      exact .final h hr hquiet hread

theorem DvdIn.lowSpinUpDrive (h : DvdIn ok c₀ b t c) (hs : DvdCore.Sud { c with low := { c.low with finalsudcb := some cb } }) :
    DvdOutcome ok clean c₀ b t (c.lowSpinUpDrive cb) :=
  DvdIn.spinup (h.congr rfl rfl rfl rfl rfl rfl (Nat.le_refl _) rfl rfl rfl rfl rfl) hs

theorem DvdIn.spinupdrivecb (h : DvdIn ok c₀ b t c) (hs : c.Sud) {result : Nat} (hfatal : ok → result ≠ 0x10) :
    DvdOutcome ok clean c₀ b t (c.spinupdrivecb result) := by
  by_cases hr : result = 0x10
  · unfold DvdCore.spinupdrivecb
    rw [if_pos hr]
    exact h.statetimeout fun hok => absurd hr (hfatal hok)
  · by_cases h1 : result = 1
    · rw [h1]
      exact h.spinup hs
    · unfold DvdCore.spinupdrivecb
      rw [if_neg hr, if_neg h1]
      exact h.stategettingerror

/-! ### A block goes on -/

theorem DvdIn.busy (h : DvdIn ok c₀ b t c) (hread : dvdReads (c₀.blocks b).cmd = false) :
    DvdOutcome ok clean c₀ b t (c.lowCommand true .statebusycb, []) := by
  refine h.low trivial (fun hq => ?_) (by decide) (fun hr => ?_)
  · unfold DvdLow.quiet at hq
    exact absurd hq (by decide)
  · rw [hread] at hr
    cases hr

theorem DvdIn.setSize (h : DvdIn ok c₀ b t c) (size : Nat) : DvdIn ok c₀ b t (c.setExec fun b => { b with currtxsize := size }) :=
  h.setExec rfl rfl rfl rfl rfl h.txd

theorem DvdIn.lowRead (h : DvdIn ok c₀ b t c) (hr : dvdReads (c₀.blocks b).cmd = true) {size : Nat} (hsize : size = min (u32 ((c.blocks b).len + 2 ^ 32 - (c.blocks b).txdsize)) 0x80000) :
    DvdOutcome ok clean c₀ b t
      ((c.setExec fun b => { b with currtxsize := size }).lowRead ((c.blocks b).buf + (c.blocks b).txdsize) size
        ((c.blocks b).offset + (c.blocks b).txdsize) .statebusycb, []) := by
  have hs := h.setSize size
  have hself := h.toDvdAt.setExec_block fun b => { b with currtxsize := size }
  refine .waits .statebusycb
    { toDvdAt := hs.toDvdAt.congr rfl rfl rfl rfl rfl rfl (Nat.le_refl _), callback := rfl, waits := trivial, cover := ⟨fun e => ?_, fun e => by cases e⟩
      command := Option.some_ne_none _, closes := ⟨(fun e => by cases e), fun e => by cases e⟩, closed := ⟨fun e => ?_, fun e => by cases e⟩
      live := hs.live, disk := hs.disk, alarm := fun hq => ?_, stop := (fun e => by cases e), range := h.range, last := hs.last, read := fun hr _ => ⟨?_, ?_⟩
      reading := fun _ => ⟨rfl, hr⟩ }
    fun e => by cases e
  · have hcover := hs.cover
    rw [show ((c.setExec fun b => { b with currtxsize := size }).blocks b).state.atCover = true from e] at hcover
    cases hcover
  · have hclosed := hs.closed
    rw [show (c.setExec fun b => { b with currtxsize := size }).low.waitcoverclose = true from e] at hclosed
    cases hclosed
  · unfold DvdLow.quiet at hq
    exact absurd hq (by decide)
  · show some (DvdCommand.read _ _ _) = some (DvdCore.nextRead ((c.setExec fun b => { b with currtxsize := size }).blocks b))
    rw [hself, hsize]
    rfl
  · show ((c.setExec fun b => { b with currtxsize := size }).blocks b).currtxsize =
      min (u32 (((c.setExec fun b => { b with currtxsize := size }).blocks b).len + 2 ^ 32 - t)) 0x80000
    rw [hself, hsize, h.txd hr]

theorem DvdIn.statebusy (h : DvdIn ok c₀ b t { c with laststate := some .statebusy })
    (hend : dvdReads (c₀.blocks b).cmd = true → (c₀.blocks b).len = 0 → c₀.canceling = true → ¬ clean) :
    DvdOutcome ok clean c₀ b t c.statebusy := by
  unfold DvdCore.statebusy
  generalize ({ c with laststate := some .statebusy } : DvdCore B) = c₁ at h ⊢
  dsimp only
  have hexec := h.toDvdAt.exec
  rw [hexec]
  have hcmd := h.cmd
  have hnotRead : ∀ n, (c₁.blocks b).cmd = n → n ≠ 1 → n ≠ 4 → dvdReads (c₀.blocks b).cmd = false := by
    intro n hn h1 h4
    rw [← hcmd, hn]
    exact decide_eq_false fun e => e.elim h1 h4
  by_cases hr : (c₁.blocks b).cmd = 1 ∨ (c₁.blocks b).cmd = 4
  · rw [if_pos hr]
    have hreads : dvdReads (c₀.blocks b).cmd = true := by
      rw [← hcmd]
      exact decide_eq_true hr
    by_cases hlen : (c₁.blocks b).len = 0
    · rw [if_pos hlen]
      have hlen₀ : (c₀.blocks b).len = 0 := h.len.symm.trans hlen
      exact h.finished DVD_ERROR_OK (.inl rfl) (hend hreads hlen₀) fun _ hpos _ => absurd hpos (by rw [hlen₀]; exact Nat.lt_irrefl 0)
    · rw [if_neg hlen]
      exact h.lowRead hreads (by split <;> omega)
  rw [if_neg hr]
  by_cases h5 : (c₁.blocks b).cmd = 5
  · rw [if_pos h5]
    exact (h.setSize _).busy (hnotRead 5 h5 (by decide) (by decide))
  rw [if_neg h5]
  by_cases h6 : (c₁.blocks b).cmd = 6
  · rw [if_pos h6]
    exact (h.setSize _).busy (hnotRead 6 h6 (by decide) (by decide))
  rw [if_neg h6]
  by_cases h8 : (c₁.blocks b).cmd = 8
  · rw [if_pos h8]
    exact DvdIn.busy (h.congr rfl rfl rfl rfl rfl rfl (Nat.le_refl _) rfl rfl rfl rfl rfl) (hnotRead 8 h8 (by decide) (by decide))
  rw [if_neg h8]
  by_cases h14 : (c₁.blocks b).cmd = 14
  · rw [if_pos h14]
    exact (h.setSize _).busy (hnotRead 14 h14 (by decide) (by decide))
  rw [if_neg h14]
  by_cases h17 : (c₁.blocks b).cmd = 17
  · rw [if_pos h17]
    apply DvdIn.lowSpinUpDrive
    · exact h.congr rfl rfl rfl rfl rfl rfl (Nat.le_refl _) rfl rfl rfl rfl rfl
    · exact .inl ⟨rfl, (congrArg DvdBlock.cmd hexec).trans h17⟩
  rw [if_neg h17]
  by_cases h18 : (c₁.blocks b).cmd = 18
  · rw [if_pos h18]
    apply DvdIn.lowUnlockDrive
    · exact h.congr rfl rfl rfl rfl rfl rfl (Nat.le_refl _) rfl rfl rfl rfl rfl
    · exact ⟨rfl, (congrArg DvdBlock.cmd hexec).trans h18⟩
    · unfold DvdLow.quiet
      decide
    · decide
  rw [if_neg h18]
  by_cases h19 : (c₁.blocks b).cmd = 19
  · rw [if_pos h19]
    apply DvdIn.lowUnlockDrive
    · exact h.congr rfl rfl rfl rfl rfl rfl (Nat.le_refl _) rfl rfl rfl rfl rfl
    · exact ⟨rfl, (congrArg DvdBlock.cmd hexec).trans h19⟩
    · unfold DvdLow.quiet
      decide
    · decide
  rw [if_neg h19]
  by_cases h24 : (c₁.blocks b).cmd = 24
  · rw [if_pos h24]
    exact (h.setSize _).busy (hnotRead 24 h24 (by decide) (by decide))
  rw [if_neg h24]
  by_cases h25 : (c₁.blocks b).cmd = 25
  · rw [if_pos h25]
    exact (h.setSize _).busy (hnotRead 25 h25 (by decide) (by decide))
  rw [if_neg h25, if_pos (by rw [hcmd]; exact h.range)]
  refine h.busy ?_
  rw [← hcmd]
  exact decide_eq_false hr

theorem DvdIn.statebusy_again (h : DvdIn ok c₀ b t c)
    (hend : dvdReads (c₀.blocks b).cmd = true → (c₀.blocks b).len = 0 → c₀.canceling = true → ¬ clean) :
    DvdOutcome ok clean c₀ b t c.statebusy := by
  refine DvdIn.statebusy ?_ hend
  exact { toDvdAt := h.toDvdAt.congr rfl rfl rfl rfl rfl rfl (Nat.le_refl _), callback := h.callback, alarm := h.alarm, closed := h.closed
          noRead := h.noRead, cover := h.cover, live := h.live, disk := h.disk, range := h.range, last := fun _ => .inl rfl }

theorem DvdAt.statecoverclosed (h : DvdAt c₀ b t c) (hcb : c.low.callback = none) (halarm : c.low.alarm = false)
    (hclosed : c.low.waitcoverclose = false) (hread : c.low.reads = false) (hrange : 1 ≤ (c₀.blocks b).cmd ∧ (c₀.blocks b).cmd ≤ 25)
    (hlast : ok → c.Last) (hok : ok → dvdOfDisk (c₀.blocks b).cmd = false)
    (hclean : dvdOfDisk (c₀.blocks b).cmd = true → c₀.canceling = true → ¬ clean) :
    DvdOutcome ok clean c₀ b t (c.setState .COVER_CLOSED).statecoverclosed := by
  have hs := h.setState .COVER_CLOSED
  have hlow := h.setState_low .COVER_CLOSED
  have hstate := h.setState_state .COVER_CLOSED
  unfold DvdCore.statecoverclosed
  have hcurr : dvdOfDisk (c.setState .COVER_CLOSED).currcmd = dvdOfDisk (c₀.blocks b).cmd := congrArg dvdOfDisk hs.currcmd
  split
  case isTrue hd =>
    rw [hcurr] at hd
    unfold DvdCore.finish
    rw [hs.executing]
    refine .ends (.covered .COVER_CLOSED hd rfl (fun o => ?_) (hclean hd))
      ⟨rfl, hs.others, hs.cmd, hs.len, hs.txd, hstate, hs.dummy, hs.canceling, hs.cancelcallback,
        (congrArg DvdLowLevel.callback hlow).trans hcb, (congrArg DvdLowLevel.alarm hlow).trans halarm,
        (congrArg DvdLowLevel.waitcoverclose hlow).trans hclosed, (congrArg DvdLowLevel.reads hlow).trans hread, hs.resume⟩ rfl (by decide)
      fun _ _ e => by cases e
    rw [hok o] at hd
    cases hd
  case isFalse hd =>
    rw [hcurr] at hd
    have hin : DvdIn ok c₀ b t (c.setState .COVER_CLOSED) :=
      h.toIn hcb halarm hclosed hread hrange hlast rfl rfl fun _ => Bool.eq_false_iff.2 hd
    apply DvdIn.lowSpinUpDrive
    · exact hin.congr rfl rfl rfl rfl rfl rfl (Nat.le_refl _) rfl rfl rfl rfl rfl
    · exact .inr (.inr rfl)

theorem DvdIn.statecheckid (h : DvdIn ok c₀ b t c) (hok : ok → ¬ (c.currcmd = 3 ∧ c.regs.sameBlock = true))
    (hclean : c₀.canceling = true → clean → c.currcmd ≠ 0x11 ∧ (c.currcmd = 3 ∨ c.currcmd = 5 ∨ c.regs.sameDisk = true) ∧
      ¬ (dvdReads (c₀.blocks b).cmd = true ∧ (c₀.blocks b).len = 0)) : DvdOutcome ok clean c₀ b t c.statecheckid := by
  unfold DvdCore.statecheckid
  split
  case isTrue h3 =>
    split
    case isTrue => exact h.plain h3 (by unfold DvdLow.quiet; decide) (by decide)
    case isFalse hsame =>
      have hnot : ¬ ok := fun o => hok o ⟨h3, by simpa using hsame⟩
      refine .stuck ?_ hnot
      have hbusy := h.setState (show DvdState.BUSY.atCover = false from rfl) rfl (fun e => by cases e)
      exact { toDvdAt := hbusy.toDvdAt.congr rfl rfl rfl rfl rfl rfl (Nat.le_refl _), callback := hbusy.callback, alarm := hbusy.alarm
              closed := hbusy.closed, noRead := hbusy.noRead, cover := hbusy.cover, live := hbusy.live, disk := hbusy.disk, range := h.range, last := fun o => absurd o hnot }
  case isFalse h3 =>
    have hnotRead : ∀ n, c.currcmd = n → n ≠ 1 → n ≠ 4 → dvdReads (c₀.blocks b).cmd = false := by
      intro n hn h1 h4
      rw [← h.currcmd, hn]
      exact decide_eq_false fun e => e.elim h1 h4
    split
    case isTrue h17 =>
      refine h.finished DVD_ERROR_OK (.inl rfl) (fun hcan o => (hclean hcan o).1 h17) fun hr => ?_
      rw [hnotRead _ h17 (by decide) (by decide)] at hr
      cases hr
    case isFalse h17 =>
      split
      case isTrue hother =>
        have hafter := h.finish_some .FATAL_ERROR DVD_ERROR_FATAL [.mountcb (.block b)]
        have hcalls := h.finish_calls (some .FATAL_ERROR) DVD_ERROR_FATAL [.mountcb (.block b)]
        rw [h.executing]
        generalize DvdCore.finish (B := B) _ _ _ _ = r at hafter hcalls ⊢
        obtain ⟨c', calls⟩ := r
        obtain rfl : calls = _ := hcalls
        refine .ends (.remounted fun hcan o => ?_) hafter rfl (by decide) fun _ _ e => by cases e
        obtain ⟨h5, hsame⟩ := hother
        rcases (hclean hcan o).2.1 with h3' | h5' | hsame'
        · exact h3 h3'
        · exact h5 h5'
        · rw [hsame'] at hsame
          cases hsame
      case isFalse => exact h.statebusy_again fun hr hlen hcan o => (hclean hcan o).2.2 ⟨hr, hlen⟩

theorem DvdIn.callLaststate (h : DvdIn ok c₀ b t c) (hcan : c₀.canceling = false) : DvdOutcome ok clean c₀ b t c.callLaststate := by
  unfold DvdCore.callLaststate
  have hnot : c.laststate ≠ some .statebusy → c.laststate ≠ some .statecoverclosedCmd → ¬ ok :=
    fun h1 h2 o => (h.last o).elim h1 h2
  cases hl : c.laststate with
  | none => exact .stuck h (hnot (by rw [hl]; decide) (by rw [hl]; decide))
  | some l =>
    cases l with
    | statebusy =>
      refine h.statebusy_again fun _ _ e => ?_
      rw [hcan] at e
      cases e
    | statecoverclosedCmd => exact h.statecoverclosedCmd
    | statecheckid2 => exact .stuck h (hnot (by rw [hl]; decide) (by rw [hl]; decide))

end Functions

end Libogc
