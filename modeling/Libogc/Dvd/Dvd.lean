import Libogc.Lib.Runs
import Libogc.Lib.Words
import Mathlib.Logic.Function.Basic
/-!
# Dvd — the command engine of `dvd.c`

One block executes at a time.  A state function issues a low-level command with a callback and returns; the interrupt, the alarm or the
cover calls it back.  A function of the driver that calls the user back goes on after that, so it leaves the calls it still makes
(`DvdCall`) for steps of their own: between them the user's code may call the driver again.

Not modelled: the error code in SRAM, the audio and gcode registers that only the drive reads, and `DVD_Reset` called by the user.
-/
namespace Libogc

open Runs

/-- `DVD_STATE_…` of a block. -/
inductive DvdState where
  | FATAL_ERROR
  | END
  | BUSY
  | WAITING
  | COVER_CLOSED
  | NO_DISK
  | COVER_OPEN
  | WRONG_DISK
  | MOTOR_STOPPED
  | IGNORED
  | CANCELED
  | RETRY
  deriving DecidableEq, Repr

def DVD_ERROR_OK : Int := 0
def DVD_ERROR_FATAL : Int := -1
def DVD_ERROR_IGNORED : Int := -2
def DVD_ERROR_CANCELED : Int := -3
def DVD_ERROR_COVER_CLOSED : Int := -4

def DVD_DISKIDSIZE : Nat := 0x20
def DVD_DRVINFSIZE : Nat := 0x20

/-- `dvdcmdblk` -/
structure DvdBlock where
  cmd : Nat
  buf : Nat
  len : Nat
  offset : Int
  currtxsize : Nat
  txdsize : Nat
  state : DvdState
  deriving DecidableEq, Repr

/-- `__dvd_executing`: no block, the dummy, or a block of the user's. -/
inductive DvdExec (B : Type) where
  | null
  | dummy
  | block (b : B)
  deriving DecidableEq, Repr

/-- The callbacks that low-level commands are given. -/
inductive DvdLow where
  | stateretrycb
  | unrecoverederrorretrycb
  | unrecoverederrorcb
  | stateerrorcb
  | stategettingerrorcb
  | statebusycb
  | statemotorstoppedcb
  | statecoverclosedcb
  | statecheckid1cb
  | stategotoretrycb
  | cntrldrivecb
  | setgcmoffsetcb
  | handlespinupcb
  | fwpatchcb
  | checkaddonscb
  | spinupdrivecb
  | statecoverclosedSpinupcb
  | patchdrivecb
  | unlockdrivecb
  deriving DecidableEq, Repr

/-- `__dvd_laststate` -/
inductive DvdLast where
  | statebusy
  | statecoverclosedCmd
  | statecheckid2
  deriving DecidableEq, Repr

/-- What the drive is at. -/
inductive DvdCommand where
  | read (buf len : Nat) (offset : Int)
  | waitCoverClose
  | other
  deriving DecidableEq, Repr

/-- What the driver reads when it is called back: `_diReg[6]`, `_diReg[8]`, `DVD_DI_MODE` of `_diReg[7]`, whether there is a patch for the
drive, and whether the disc's id is that of the block and that of the current disc. -/
structure DvdRegs where
  residual : Nat
  error : Nat
  mode : Bool
  known : Bool
  sameBlock : Bool
  sameDisk : Bool
  deriving DecidableEq, Repr

/-- What is known of the drive, and the static variables of the callbacks that prepare it. -/
structure DvdDrive where
  checked : Bool
  chippresent : Bool
  interoper : Bool
  drivereset : Bool
  /-- Bit 2 of `_piReg[9]`. -/
  released : Bool
  extensionsenabled : Bool
  spinupStep : Nat
  patchStep : Nat
  patchcode : Bool
  patchStage : Nat
  patchPos : Nat
  lasterror : Nat
  internalretries : Nat
  autofinishing : Bool
  resetrequired : Bool
  gcodeWritebufsize : Nat
  deriving DecidableEq, Repr

/-- The low level: the callback, the command under way, and the flags of a break. -/
structure DvdLowLevel where
  callback : Option DvdLow
  command : Option DvdCommand
  alarm : Bool
  waitcoverclose : Bool
  stopnextint : Bool
  breaking : Bool
  lastcmdwasread : Bool
  finalunlockcb : Option DvdLow
  finalsudcb : Option DvdLow
  finaladdoncb : Option DvdLow
  finalpatchcb : Option DvdLow
  finaloffsetcb : Option DvdLow
  deriving DecidableEq, Repr

/-- A call that is still to be made.  `user` is `block->cb`, `cancelcb` is `__dvd_cancelcallback`, `cb` is the argument of a cancel; `back`
stands for a return to the user's code. -/
inductive DvdCall (B : Type) where
  | clearwaitingqueue
  | user (e : DvdExec B) (result : Int)
  | cancelcb (e : DvdExec B)
  | errorcancel (e : DvdExec B)
  | mountcb (e : DvdExec B)
  | stateready
  | low (cb : DvdLow) (result : Nat)
  | resumed
  | unbreak
  | cb (id : Option Nat) (e : DvdExec B)
  | cancelAll (id : Option Nat)
  | resume
  | back
  deriving DecidableEq, Repr

/-- What a callback may change. -/
structure DvdCore (B : Type) where
  blocks : B → DvdBlock
  dummy : DvdBlock
  executing : DvdExec B
  currcmd : Nat
  laststate : Option DvdLast
  fatalerror : Bool
  canceling : Bool
  cancelcallback : Option Nat
  resumefromhere : Nat
  drive : DvdDrive
  low : DvdLowLevel
  regs : DvdRegs

/-- A function of the driver, with the calls that it leaves. -/
abbrev DvdRun (B : Type) := DvdCore B × List (DvdCall B)

/-- The commands whose residue is counted. -/
def dvdCounted (cmd : Nat) : Bool := cmd = 1 ∨ cmd = 4 ∨ cmd = 5 ∨ cmd = 0xe ∨ cmd = 0x16 ∨ cmd = 0x17 ∨ cmd = 0x18

/-- The commands that go on until all is transferred. -/
def dvdChunked (cmd : Nat) : Bool := cmd = 1 ∨ cmd = 4 ∨ cmd = 5 ∨ cmd = 0xe ∨ cmd = 0x18

/-- The commands that end with the disc. -/
def dvdOfDisk (cmd : Nat) : Bool := cmd = 4 ∨ cmd = 5 ∨ cmd = 0xd ∨ cmd = 0xf ∨ cmd = 0x11

/-- `DVD_STATUS` and `DVD_ERROR` -/
def dvdStatus (v : Nat) : Nat := v / 2 ^ 24 % 256
def dvdError (v : Nat) : Nat := v % 2 ^ 24

def dvdMayRetry (v : Nat) : Bool := dvdStatus v = 0 ∨ dvdStatus v = 5

namespace DvdCore

variable {B : Type} [DecidableEq B]

/-- `*__dvd_executing` -/
def exec (c : DvdCore B) : DvdBlock :=
  match c.executing with
  | .block b => c.blocks b
  | _ => c.dummy

def setExec (c : DvdCore B) (f : DvdBlock → DvdBlock) : DvdCore B :=
  match c.executing with
  | .block b => { c with blocks := Function.update c.blocks b (f (c.blocks b)) }
  | .dummy => { c with dummy := f c.dummy }
  | .null => c

def setState (c : DvdCore B) (state : DvdState) : DvdCore B := c.setExec fun b => { b with state := state }

/-! ## Low-level commands -/

/-- A command with its callback; most set the alarm. -/
def lowCommand (c : DvdCore B) (alarm : Bool) (cb : DvdLow) : DvdCore B :=
  { c with low := { c.low with callback := some cb, command := some .other, alarm := c.low.alarm || alarm, stopnextint := false } }

/-- `DVD_LowRead` -/
def lowRead (c : DvdCore B) (buf len : Nat) (offset : Int) (cb : DvdLow) : DvdCore B :=
  { c with low := { c.low with callback := some cb, command := some (.read buf len offset), alarm := true, stopnextint := false
                               lastcmdwasread := true } }

/-- `DVD_LowWaitCoverClose` -/
def lowWaitCoverClose (c : DvdCore B) (cb : DvdLow) : DvdCore B :=
  { c with low := { c.low with callback := some cb, command := some .waitCoverClose, waitcoverclose := true, stopnextint := false } }

/-- `DVD_LowUnlockDrive` -/
def lowUnlockDrive (c : DvdCore B) (cb : DvdLow) : DvdCore B :=
  let c := c.lowCommand false .unlockdrivecb
  { c with low := { c.low with finalunlockcb := some cb } }

/-- A command that goes on with a callback that was left before; a null one is not called. -/
def lowFinal (c : DvdCore B) (cb : Option DvdLow) : DvdCore B :=
  { c with low := { c.low with callback := cb, command := some .other, stopnextint := false } }

/-- A callback that was left before is called; in a driver that is set up there is one. -/
def callFinal (cb : Option DvdLow) (result : Nat) : List (DvdCall B) :=
  match cb with
  | some cb => [.low cb result]
  | none => []

/-- `DVD_Reset` -/
def reset (c : DvdCore B) (hard : Bool) : DvdCore B :=
  { c with drive := { c.drive with interoper := false, chippresent := false, drivereset := hard || c.drive.released, released := hard
                                   resetrequired := false }
           resumefromhere := 0
           fatalerror := false }

/-! ## State functions -/

/-- A block ends: its state is set, if at all, and its callback is called, before the next one is started. -/
def finish (c : DvdCore B) (state : Option DvdState) (result : Int) (calls : List (DvdCall B)) : DvdRun B :=
  let c' := match state with
    | some state => c.setState state
    | none => c
  ({ c' with executing := .dummy }, .user c.executing result :: (calls ++ [.stateready]))

/-- `__dvd_checkcancel` -/
def checkcancel (c : DvdCore B) (cancelpt : Nat) : Option (DvdRun B) :=
  if c.canceling then
    some (finish { c with resumefromhere := cancelpt, canceling := false } (some .CANCELED) DVD_ERROR_CANCELED [.cancelcb c.executing])
  else none

/-- `__dvd_stateerrorcb` but for its timeout -/
def stateerrorEnd (c : DvdCore B) : DvdRun B := finish { c with fatalerror := true } none DVD_ERROR_FATAL [.errorcancel c.executing]

/-- `__dvd_statetimeout` -/
def statetimeout (c : DvdCore B) : DvdRun B := stateerrorEnd (c.reset false)

/-- `__dvd_stateerror` -/
def stateerror (c : DvdCore B) : DvdRun B := (c.lowCommand true .stateerrorcb, [])

/-- `__dvd_stategettingerror` -/
def stategettingerror (c : DvdCore B) : DvdRun B := (c.lowCommand true .stategettingerrorcb, [])

/-- `__dvd_statemotorstopped` -/
def statemotorstopped (c : DvdCore B) : DvdRun B := (c.lowWaitCoverClose .statemotorstoppedcb, [])

/-- `__dvd_stategotoretry` -/
def stategotoretry (c : DvdCore B) : DvdRun B := (c.lowCommand true .stategotoretrycb, [])

/-- `__dvd_spinupdrivecb` -/
def spinupdrivecb (c : DvdCore B) (result : Nat) : DvdRun B :=
  if result = 0x10 then c.statetimeout
  else if result = 1 then
    if !c.drive.checked then
      let c := c.lowCommand true .checkaddonscb
      ({ c with low := { c.low with finaladdoncb := some .spinupdrivecb } }, [])
    else if !c.drive.chippresent then
      if !c.drive.interoper then
        let c := if !c.drive.drivereset then c.reset true else c
        let c := c.lowCommand true .fwpatchcb
        ({ c with low := { c.low with finalpatchcb := some .spinupdrivecb } }, [])
      else (c.lowUnlockDrive .handlespinupcb, [])
    else (c, callFinal c.low.finalsudcb result)
  else c.stategettingerror

/-- `DVD_LowSpinUpDrive` -/
def lowSpinUpDrive (c : DvdCore B) (cb : DvdLow) : DvdRun B :=
  spinupdrivecb { c with low := { c.low with finalsudcb := some cb } } 1

/-- `__dvd_statebusy` of the block that is executing -/
def statebusy (c : DvdCore B) : DvdRun B :=
  let c := { c with laststate := some .statebusy }
  let block := c.exec
  if block.cmd = 1 ∨ block.cmd = 4 then
    if block.len = 0 then c.finish (some .END) DVD_ERROR_OK []
    else
      let size := if u32 (block.len + 2 ^ 32 - block.txdsize) < 0x80000 then u32 (block.len + 2 ^ 32 - block.txdsize) else 0x80000
      ((c.setExec fun b => { b with currtxsize := size }).lowRead (block.buf + block.txdsize) size (block.offset + block.txdsize)
        .statebusycb, [])
  else if block.cmd = 5 then ((c.setExec fun b => { b with currtxsize := DVD_DISKIDSIZE }).lowCommand true .statebusycb, [])
  else if block.cmd = 6 then
    ((c.setExec fun b => { b with currtxsize := if c.drive.autofinishing then 0 else 1 }).lowCommand true .statebusycb, [])
  else if block.cmd = 8 then
    ({ c with drive := { c.drive with autofinishing := true } }.lowCommand true .statebusycb, [])
  else if block.cmd = 14 then ((c.setExec fun b => { b with currtxsize := DVD_DRVINFSIZE }).lowCommand true .statebusycb, [])
  else if block.cmd = 17 then
    lowSpinUpDrive { c with drive := { c.drive with lasterror := 0, extensionsenabled := true } } .statebusycb
  else if block.cmd = 18 then
    ({ c with low := { c.low with finalsudcb := some .statebusycb } }.lowUnlockDrive .cntrldrivecb, [])
  else if block.cmd = 19 then
    ({ c with low := { c.low with finaloffsetcb := some .statebusycb } }.lowUnlockDrive .setgcmoffsetcb, [])
  else if block.cmd = 24 then
    let size := min (u32 (block.len + 2 ^ 32 - block.txdsize)) 0x500000
    ((c.setExec fun b => { b with currtxsize := size }).lowCommand true .statebusycb, [])
  else if block.cmd = 25 then
    let size := min (u32 (block.len + 2 ^ 32 - block.txdsize)) c.drive.gcodeWritebufsize
    ((c.setExec fun b => { b with currtxsize := size }).lowCommand true .statebusycb, [])
  else if 1 ≤ block.cmd ∧ block.cmd ≤ 25 then (c.lowCommand true .statebusycb, [])
  else (c, [])

/-- `__dvd_statecoverclosed_cmd` -/
def statecoverclosedCmd (c : DvdCore B) : DvdRun B := (c.lowCommand true .statecoverclosedcb, [])

/-- `__dvd_statecoverclosed` -/
def statecoverclosed (c : DvdCore B) : DvdRun B :=
  if dvdOfDisk c.currcmd then
    let r := c.finish none DVD_ERROR_COVER_CLOSED []
    (r.1, .clearwaitingqueue :: r.2)
  else lowSpinUpDrive { c with drive := { c.drive with extensionsenabled := true } } .statecoverclosedSpinupcb

/-- `__dvd_statecheckid` -/
def statecheckid (c : DvdCore B) : DvdRun B :=
  if c.currcmd = 3 then
    if !c.regs.sameBlock then (c.lowCommand true .statecheckid1cb, [])
    else ({ c.setState .BUSY with laststate := some .statecheckid2 }, [])
  else if c.currcmd = 0x11 then c.finish (some .END) DVD_ERROR_OK []
  else if c.currcmd ≠ 5 ∧ !c.regs.sameDisk then c.finish (some .FATAL_ERROR) DVD_ERROR_FATAL [.mountcb c.executing]
  else c.statebusy

/-- `__dvd_laststate(__dvd_executing)` -/
def callLaststate (c : DvdCore B) : DvdRun B :=
  match c.laststate with
  | some .statebusy => c.statebusy
  | some .statecoverclosedCmd => c.statecoverclosedCmd
  | _ => (c, [])

/-- `__dvd_categorizeerror` -/
def categorizeerror (c : DvdCore B) (errorcode : Nat) : DvdCore B × Nat :=
  if errorcode = 0x020400 then ({ c with drive := { c.drive with lasterror := errorcode } }, 1)
  else
    let error := dvdError errorcode
    if error = 0x062800 ∨ error = 0x023a00 ∨ error = 0x0B5A01 then (c, 0)
    else if error = 0x043100 then ({ c with drive := { c.drive with lasterror := error } }, 1)
    else
      let last := c.drive.lasterror
      let retries := u32 (c.drive.internalretries + 1)
      let c := { c with drive := { c.drive with internalretries := retries, lasterror := error } }
      if retries = 2 then (c, if last = error then 1 else 2)
      else if error = 0x031100 ∨ c.exec.cmd = 5 then (c, 2)
      else (c, 3)

/-! ## Callbacks -/

/-- Out of time. -/
def fatalTimeout (c : DvdCore B) : DvdRun B := (c.setState .FATAL_ERROR).statetimeout

/-- `__dvd_stateretrycb` -/
def stateretrycb (c : DvdCore B) (result : Nat) : DvdRun B :=
  if result = 0x10 then c.fatalTimeout
  else if result &&& 2 ≠ 0 then c.stateerror
  else if result = 1 then c.statebusy
  else (c, [])

/-- `__dvd_unrecoverederrorretrycb` -/
def unrecoverederrorretrycb (c : DvdCore B) (result : Nat) : DvdRun B :=
  if result = 0x10 then c.fatalTimeout else (c.setState .FATAL_ERROR).stateerror

/-- `__dvd_unrecoverederrorcb` -/
def unrecoverederrorcb (c : DvdCore B) (result : Nat) : DvdRun B :=
  if result = 0x10 then c.fatalTimeout
  else if result &&& 1 ≠ 0 then c.stategotoretry
  else if ¬ result = 2 then (c.lowCommand true .unrecoverederrorretrycb, [])
  else (c, [])

/-- `__dvd_stateerrorcb` -/
def stateerrorcb (c : DvdCore B) (result : Nat) : DvdRun B :=
  if result = 0x10 then c.fatalTimeout else c.stateerrorEnd

/-- `__dvd_stategettingerrorcb` -/
def stategettingerrorcb (c : DvdCore B) (result : Nat) : DvdRun B :=
  if result = 0x10 then c.fatalTimeout
  else if result &&& 2 ≠ 0 then (c.setState .FATAL_ERROR).stateerror
  else if result = 1 then
    let val := c.regs.error
    let r := c.categorizeerror val
    let c := r.1
    if r.2 = 1 then (c.setState .FATAL_ERROR).stateerror
    else
      let cnclpt :=
        if r.2 = 2 ∨ r.2 = 3 then 0
        else if dvdStatus val = 1 then 4
        else if dvdStatus val = 2 then 6
        else if dvdStatus val = 3 then 3
        else 5
      match c.checkcancel cnclpt with
      | some r => r
      | none =>
        if r.2 = 2 then
          if dvdMayRetry val then
            if c.exec.cmd = 5 then
              lowSpinUpDrive { c with drive := { c.drive with lasterror := 0, extensionsenabled := false } } .stateretrycb
            else c.statebusy
          else c.stategotoretry
        else if r.2 = 3 then
          if dvdError val = 0x031100 then (c.lowCommand true .unrecoverederrorcb, [])
          else c.callLaststate
        else if dvdStatus val = 1 then (c.setState .COVER_OPEN).statemotorstopped
        else if dvdStatus val = 2 then (c.setState .COVER_CLOSED).statecoverclosed
        else if dvdStatus val = 3 then (c.setState .NO_DISK).statemotorstopped
        else (c.setState .FATAL_ERROR).stateerror
  else (c, [])

/-- `__dvd_statebusycb` when a transfer is complete, and no cancel was asked for -/
def statebusyEnd (c : DvdCore B) : DvdRun B :=
  if c.currcmd = 0x14 ∨ c.currcmd = 0x15 then
    let c := c.setExec fun b => { b with txdsize := u32 (b.txdsize + b.currtxsize) }
    c.finish (some .END) (s32 c.exec.txdsize) []
  else if c.currcmd = 0x16 ∨ c.currcmd = 0x17 then c.finish (some .END) (s32 c.exec.txdsize) []
  else if dvdChunked c.currcmd then
    if c.exec.txdsize ≠ c.exec.len then c.statebusy else c.finish (some .END) (s32 c.exec.txdsize) []
  else if c.currcmd = 0x19 then
    if c.regs.mode then (c.lowCommand true .statebusycb, [])
    else if c.regs.error ≠ 0 then c.finish (some .FATAL_ERROR) DVD_ERROR_FATAL []
    else
      let c := c.setExec fun b => { b with txdsize := u32 (b.txdsize + b.currtxsize) }
      if c.exec.txdsize ≠ c.exec.len then c.statebusy else c.finish (some .END) (s32 c.exec.txdsize) []
  else if c.currcmd = 9 ∨ c.currcmd = 0xa ∨ c.currcmd = 0xb ∨ c.currcmd = 0xc then
    let val := if c.currcmd = 0xa ∨ c.currcmd = 0xb then u32 (c.regs.error * 4) else c.regs.error
    let c := c.setExec fun b => { b with txdsize := val }
    c.finish (some .END) (s32 c.exec.txdsize) []
  else if c.currcmd = 6 then
    if c.exec.currtxsize = 0 then
      if c.regs.error % 2 = 1 then c.finish (some .IGNORED) DVD_ERROR_IGNORED []
      else
        let c := { c with drive := { c.drive with autofinishing := false } }
        ((c.setExec fun b => { b with currtxsize := 1 }).lowCommand true .statebusycb, [])
    else c.finish (some .END) DVD_ERROR_OK []
  else if c.currcmd = 0x11 ∧ c.drive.chippresent then c.finish (some .END) DVD_DISKIDSIZE []
  else c.finish (some .END) DVD_ERROR_OK []

/-- `__dvd_statebusycb` -/
def statebusycb (c : DvdCore B) (result : Nat) : DvdRun B :=
  if result = 0x10 then c.fatalTimeout
  else if (c.currcmd = 3 ∨ c.currcmd = 0xf) ∧ result &&& 2 ≠ 0 then (c.setState .FATAL_ERROR).stateerror
  else if (c.currcmd = 3 ∨ c.currcmd = 0xf) ∧ result = 1 then
    let required := c.currcmd = 0xf ∨ c.drive.resetrequired
    let c := { c with drive := { c.drive with internalretries := 0, resetrequired := required } }
    match c.checkcancel 7 with
    | some r => r
    | none => (c.setState .MOTOR_STOPPED).statemotorstopped
  else
    let c := if dvdCounted c.currcmd then
        c.setExec fun b => { b with txdsize := u32 (b.txdsize + (b.currtxsize + 2 ^ 32 - c.regs.residual)) }
      else c
    if result &&& 8 ≠ 0 then finish { c with canceling := false } (some .CANCELED) DVD_ERROR_CANCELED [.cancelcb c.executing]
    else if result &&& 1 ≠ 0 then
      let c := { c with drive := { c.drive with internalretries := 0 } }
      if c.currcmd = 0x10 then c.finish (some .END) DVD_ERROR_OK []
      else
        match c.checkcancel 0 with
        | some r => r
        | none => c.statebusyEnd
    else if result = 2 ∧ c.currcmd = 0xe then (c.setState .FATAL_ERROR).stateerror
    else if result = 2 ∧ (c.currcmd = 0x14 ∨ c.currcmd = 0x15 ∨ c.currcmd = 0x16 ∨ c.currcmd = 0x17) then
      match c.checkcancel 0 with
      | some r => r
      | none => c.finish (some .FATAL_ERROR) DVD_ERROR_FATAL []
    else if result = 2 ∧ dvdChunked c.currcmd ∧ c.exec.txdsize = c.exec.len then
      match c.checkcancel 0 with
      | some r => r
      | none => c.finish (some .END) (s32 c.exec.txdsize) []
    else c.stategettingerror

/-- `__dvd_statemotorstoppedcb` -/
def statemotorstoppedcb (c : DvdCore B) : DvdRun B := (c.setState .COVER_CLOSED).statecoverclosed

/-- `__dvd_statecoverclosedcb` -/
def statecoverclosedcb (c : DvdCore B) (result : Nat) : DvdRun B :=
  if result = 0x10 then c.fatalTimeout
  else if result &&& 6 = 0 then statecheckid { c with drive := { c.drive with internalretries := 0 } }
  else if result = 2 then c.stategettingerror
  else (c, [])

/-- `__dvd_stategotoretrycb` -/
def stategotoretrycb (c : DvdCore B) (result : Nat) : DvdRun B :=
  if result = 0x10 then c.fatalTimeout
  else if result &&& 2 ≠ 0 then (c.setState .FATAL_ERROR).stateerror
  else if result = 1 then
    let c := { c with drive := { c.drive with internalretries := 0 } }
    if dvdOfDisk c.currcmd then
      let c := { c with drive := { c.drive with resetrequired := true } }
      match c.checkcancel 2 with
      | some r => r
      | none => (c.setState .RETRY).statemotorstopped
    else (c, [])
  else (c, [])

/-- `__dvd_cntrldrivecb` -/
def cntrldrivecb (c : DvdCore B) (result : Nat) : DvdRun B :=
  if result = 0x10 then c.statetimeout
  else if result = 1 then (c.lowFinal c.low.finalsudcb, [])
  else c.stategettingerror

/-- `__dvd_setgcmoffsetcb` -/
def setgcmoffsetcb (c : DvdCore B) (result : Nat) : DvdRun B :=
  if result = 0x10 then c.statetimeout
  else if result = 1 then (c.lowFinal c.low.finaloffsetcb, [])
  else c.stategettingerror

/-- `__dvd_handlespinupcb` -/
def handlespinupcb (c : DvdCore B) (result : Nat) : DvdRun B :=
  let step (n : Nat) : DvdCore B := { c with drive := { c.drive with spinupStep := n } }
  if result = 0x10 then c.statetimeout
  else if result = 1 ∧ c.drive.spinupStep = 0 then ((step 1).lowCommand false .handlespinupcb, [])
  else if result = 1 ∧ c.drive.spinupStep = 1 then ((step 2).lowCommand false .handlespinupcb, [])
  else if result = 1 ∧ c.drive.spinupStep = 2 then
    if c.drive.lasterror = 0 then ((step 0).lowFinal c.low.finalsudcb, [])
    else (step 0, callFinal c.low.finalsudcb result)
  else (step 0).stategettingerror

/-- The size of the patches for all drives that are known. -/
def patchcodeSize : Nat := 448

/-- `__dvd_patchdrivecb` -/
def patchdrivecb (c : DvdCore B) : DvdRun B :=
  if !c.drive.patchcode then (c, [])
  else if c.drive.patchStage = 0 then
    let pos := min (c.drive.patchPos + 12) patchcodeSize
    let c := { c with drive := { c.drive with patchPos := pos, patchStage := if pos ≥ patchcodeSize then 2 else 1 } }
    ({ c with low := { c.low with callback := some .patchdrivecb, command := some .other } }, [])
  else if c.drive.patchStage ≠ 3 then
    let c := { c with drive := { c.drive with patchStage := if c.drive.patchStage > 1 then 3 else 0 } }
    ({ c with low := { c.low with callback := some .patchdrivecb, command := some .other } }, [])
  else (lowFinal { c with drive := { c.drive with patchcode := false, interoper := true } } c.low.finalpatchcb, [])

/-- `__dvd_fwpatchcb` -/
def fwpatchcb (c : DvdCore B) (result : Nat) : DvdRun B :=
  let step (n : Nat) : DvdCore B := { c with drive := { c.drive with patchStep := n } }
  if result = 0x10 then c.statetimeout
  else if result = 1 ∧ c.drive.patchStep = 0 then ((step 1).lowUnlockDrive .fwpatchcb, [])
  else if result = 1 ∧ c.drive.patchStep = 1 then
    -- `DVD_LowPatchDriveCode`
    patchdrivecb { step 0 with drive := { (step 0).drive with patchcode := c.regs.known }, low := { c.low with stopnextint := false } }
  else (step 0).stategettingerror

/-- `__dvd_checkaddonscb` -/
def checkaddonscb (c : DvdCore B) (result : Nat) : DvdRun B :=
  let c := { c with drive := { c.drive with checked := true } }
  if result &&& 1 ≠ 0 ∧ c.regs.residual ≠ 0 then (c.lowCommand true .checkaddonscb, [])
  else
    let c := if result &&& 1 ≠ 0 then { c with drive := { c.drive with chippresent := true } } else c
    ({ c with low := { c.low with finaladdoncb := none } }, callFinal c.low.finaladdoncb 1)

/-- `__dvd_statecoverclosed_spinupcb` -/
def statecoverclosedSpinupcb (c : DvdCore B) : DvdRun B := statecoverclosedCmd { c with laststate := some .statecoverclosedCmd }

/-- `__dvd_unlockdrivecb` -/
def unlockdrivecb (c : DvdCore B) : DvdRun B :=
  ({ c with low := { c.low with callback := c.low.finalunlockcb, command := some .other } }, [])

/-- A low-level callback is called. -/
def call (c : DvdCore B) (cb : DvdLow) (result : Nat) : DvdRun B :=
  match cb with
  | .stateretrycb => c.stateretrycb result
  | .unrecoverederrorretrycb => c.unrecoverederrorretrycb result
  | .unrecoverederrorcb => c.unrecoverederrorcb result
  | .stateerrorcb => c.stateerrorcb result
  | .stategettingerrorcb => c.stategettingerrorcb result
  | .statebusycb => c.statebusycb result
  | .statemotorstoppedcb => c.statemotorstoppedcb
  | .statecoverclosedcb => c.statecoverclosedcb result
  | .statecheckid1cb => (c, [])
  | .stategotoretrycb => c.stategotoretrycb result
  | .cntrldrivecb => c.cntrldrivecb result
  | .setgcmoffsetcb => c.setgcmoffsetcb result
  | .handlespinupcb => c.handlespinupcb result
  | .fwpatchcb => c.fwpatchcb result
  | .checkaddonscb => c.checkaddonscb result
  | .spinupdrivecb => c.spinupdrivecb result
  | .statecoverclosedSpinupcb => c.statecoverclosedSpinupcb
  | .patchdrivecb => c.patchdrivecb
  | .unlockdrivecb => c.unlockdrivecb

end DvdCore

/-! ## The engine -/

/-- A callback that was made: the block, the number of its issue, what it was given, the block as it was, and how many bytes had been
delivered. -/
structure DvdDone (B : Type) where
  block : B
  number : Nat
  result : Int
  blk : DvdBlock
  delivered : Nat

/-- A block that was started: whether the engine was paused, its priority and number, and those of all blocks that waited. -/
structure DvdStart (B : Type) where
  block : B
  paused : Bool
  prio : Fin 4
  number : Nat
  waiting : List (Fin 4 × Nat)

/-- A cancel that returns 1: its callback, the issue of the block that it names, and whether that was not called back yet. -/
structure DvdCancel (B : Type) where
  id : Option Nat
  block : DvdExec B
  number : Nat
  going : Bool

/-- `user` is set while the user's code runs, and `todo` is what the driver goes on with when it returns.  The rest after `pausingflag` is
history: the numbers of the issues, the bytes that the drive delivered, the blocks issued and not called back yet. -/
structure DvdSys (B : Type) where
  core : DvdCore B
  waitingqueue : Fin 4 → List B
  todo : List (DvdCall B)
  user : Bool
  pauseflag : Bool
  pausingflag : Bool
  issued : Nat
  number : B → Nat
  pending : B → Bool
  delivered : B → Nat
  done : List (DvdDone B)
  starts : List (DvdStart B)
  cancels : List (DvdCancel B)
  cancelled : List Nat

namespace DvdSys

variable {B : Type} [DecidableEq B]

/-- Nothing runs: neither the driver nor a callback. -/
def idle (s : DvdSys B) : Bool := s.todo.isEmpty && !s.user

/-- Calls are made before the user's code goes on. -/
def push (s : DvdSys B) (calls : List (DvdCall B)) : DvdSys B :=
  match calls with
  | [] => s
  | _ => { s with todo := calls ++ if s.user then .back :: s.todo else s.todo, user := false }

def pushRun (s : DvdSys B) (r : DvdRun B) : DvdSys B := push { s with core := r.1 } r.2

/-- All blocks that wait, with their priorities. -/
def waiting (s : DvdSys B) : List (Fin 4 × Nat) := (List.finRange 4).flatMap fun p => (s.waitingqueue p).map fun b => (p, s.number b)

/-- `__dvd_checkwaitingqueue` -/
def checkwaitingqueue (s : DvdSys B) : Bool := (List.finRange 4).any fun p => !(s.waitingqueue p).isEmpty

/-- `__dvd_popwaitingqueue` -/
def popwaitingqueue (s : DvdSys B) : Option (Fin 4 × B × DvdSys B) :=
  (List.finRange 4).findSome? fun p =>
    match s.waitingqueue p with
    | [] => none
    | b :: rest => some (p, b, { s with waitingqueue := Function.update s.waitingqueue p rest })

/-- `__dvd_stateready` with a block to start -/
def startBlock (c : DvdCore B) : DvdRun B :=
  if c.fatalerror then (c.setState .FATAL_ERROR).finish none DVD_ERROR_FATAL []
  else
    let c := { c with currcmd := c.exec.cmd }
    let resume (r : DvdRun B) : DvdRun B := ({ r.1 with resumefromhere := 0 }, r.2)
    match c.resumefromhere with
    | 0 => (c.setState .BUSY).statebusy
    | 1 => resume (c.setState .WRONG_DISK).statemotorstopped
    | 2 => resume (c.setState .RETRY).statemotorstopped
    | 3 => resume (c.setState .NO_DISK).statemotorstopped
    | 4 => resume (c.setState .COVER_OPEN).statemotorstopped
    | 5 => resume (c.setState .FATAL_ERROR).stateerror
    | 6 =>
      let r := (c.setState .COVER_CLOSED).statecoverclosed
      (r.1, r.2 ++ [.resumed])
    | 7 => resume (c.setState .MOTOR_STOPPED).statemotorstopped
    | _ => ({ c with resumefromhere := 0 }, [])

/-- `__dvd_stateready` -/
def stateready (s : DvdSys B) : DvdSys B :=
  if !s.checkwaitingqueue then { s with core := { s.core with executing := .null } }
  else if s.pauseflag then { s with core := { s.core with executing := .null }, pausingflag := true }
  else
    match s.popwaitingqueue with
    | some (p, b, t) =>
      pushRun { t with starts := s.starts ++ [⟨b, s.pauseflag, p, s.number b, s.waiting⟩] }
        (startBlock { t.core with executing := .block b })
    | none => s

/-- `__issuecommand` of a block with the fields that the caller gives it. -/
def issuecommand (s : DvdSys B) (prio : Fin 4) (b : B) (blk : DvdBlock) : DvdSys B :=
  let s := { s with core := { s.core with blocks := Function.update s.core.blocks b { blk with state := .WAITING } }
                    waitingqueue := Function.update s.waitingqueue prio (s.waitingqueue prio ++ [b])
                    issued := s.issued + 1
                    number := Function.update s.number b s.issued
                    pending := Function.update s.pending b true
                    delivered := Function.update s.delivered b 0 }
  if s.core.executing = .null ∧ !s.pauseflag then s.stateready else s

/-- `DVD_Pause` -/
def pause (s : DvdSys B) : DvdSys B :=
  { s with pauseflag := true, pausingflag := s.pausingflag || s.core.executing = .null }

/-- `DVD_Resume` -/
def resume (s : DvdSys B) : DvdSys B :=
  let s := { s with pauseflag := false }
  if s.pausingflag then stateready { s with pausingflag := false } else s

/-- The number of the issue of a block. -/
def numberOf (s : DvdSys B) : DvdExec B → Nat
  | .block b => s.number b
  | _ => 0

def goingOf (s : DvdSys B) : DvdExec B → Bool
  | .block b => s.pending b
  | _ => false

/-- The cancel `id` has returned 1, or will. -/
def accept (s : DvdSys B) (id : Option Nat) (e : DvdExec B) : DvdSys B :=
  { s with cancels := s.cancels ++ [⟨id, e, s.numberOf e, s.goingOf e⟩] }

def blockOf (s : DvdSys B) : DvdExec B → DvdBlock
  | .block b => s.core.blocks b
  | _ => s.core.dummy

/-- What a cancelled block that waits for the cover is to go on with. -/
def resumeOf : DvdState → Option Nat
  | .WRONG_DISK => some 1
  | .RETRY => some 2
  | .NO_DISK => some 3
  | .COVER_OPEN => some 4
  | .MOTOR_STOPPED => some 7
  | _ => none

/-- `DVD_CancelAsync`; `id` names its callback. -/
def cancelAsync (s : DvdSys B) (e : DvdExec B) (id : Option Nat) : DvdSys B :=
  let flag (brk : Bool) : DvdSys B :=
    if s.core.canceling then s
    else
      let low := if brk then { s.core.low with stopnextint := true, breaking := true } else s.core.low
      accept { s with core := { s.core with canceling := true, cancelcallback := id, low := low } } id e
  match (s.blockOf e).state with
  | .FATAL_ERROR | .END | .CANCELED => (s.accept id e).push [.cb id e]
  | .BUSY => flag (s.core.currcmd = 1 ∨ s.core.currcmd = 4)
  | .WAITING =>
    match e with
    | .block b =>
      let core := { s.core with blocks := Function.update s.core.blocks b { s.core.blocks b with state := .CANCELED } }
      push (accept { s with core := core, waitingqueue := fun p => (s.waitingqueue p).erase b } id e)
        [.user e DVD_ERROR_CANCELED, .cb id e]
    | _ => s
  | .COVER_CLOSED => if dvdOfDisk s.core.currcmd then (s.accept id e).push [.cb id e] else flag false
  | .IGNORED => s.accept id e
  | .NO_DISK | .COVER_OPEN | .WRONG_DISK | .MOTOR_STOPPED | .RETRY =>
    let low := { s.core.low with waitcoverclose := false, callback := none }
    if s.core.low.callback ≠ some .statemotorstoppedcb then { s with core := { s.core with low := low } }
    else
      match e with
      | .block b =>
        let core := { s.core with low := low
                                  resumefromhere := (resumeOf (s.core.blocks b).state).getD s.core.resumefromhere
                                  executing := .dummy
                                  blocks := Function.update s.core.blocks b { s.core.blocks b with state := .CANCELED } }
        push (accept { s with core := core } id e) [.user e DVD_ERROR_CANCELED, .cb id e, .stateready]
      | _ => s

/-- A call that the driver still had to make. -/
def runCall (s : DvdSys B) (call : DvdCall B) : DvdSys B :=
  let cancelled (s : DvdSys B) (id : Option Nat) : DvdSys B :=
    match id with
    | some id => { s with cancelled := s.cancelled ++ [id], user := true }
    | none => s
  match call with
  | .clearwaitingqueue => { s with waitingqueue := fun _ => [] }
  | .user e result =>
    match e with
    | .block b =>
      { s with done := s.done ++ [⟨b, s.number b, result, s.core.blocks b, s.delivered b⟩]
               pending := Function.update s.pending b false
               user := true }
    | _ => s
  | .cancelcb _ => cancelled s s.core.cancelcallback
  | .errorcancel _ =>
    if s.core.canceling then cancelled { s with core := { s.core with canceling := false } } s.core.cancelcallback else s
  | .mountcb _ => { s with user := true }
  | .stateready => s.stateready
  | .low cb result => s.pushRun (s.core.call cb result)
  | .resumed => { s with core := { s.core with resumefromhere := 0 } }
  | .unbreak => { s with core := { s.core with low := { s.core.low with breaking := false } } }
  | .cb id _ => cancelled s id
  | .cancelAll id =>
    -- `DVD_CancelAllAsync` after its `DVD_Pause`
    match s.popwaitingqueue with
    | some (_, b, t) => cancelAsync { t with todo := .cancelAll id :: t.todo } (.block b) none
    | none =>
      if s.core.executing = .null then (s.accept id .null).push [.cb id .null] else s.cancelAsync s.core.executing id
  | .resume => s.resume
  | .back => { s with user := true }

/-- The driver goes on when the user's code returns. -/
def run (s : DvdSys B) : DvdSys B :=
  match s.todo with
  | call :: todo => runCall { s with todo := todo, user := false } call
  | [] => { s with user := false }

/-- `__DVDInterruptHandler` when a command is done, with an error or without. -/
def interrupt (s : DvdSys B) (de : Bool) (regs : DvdRegs) : DvdSys B :=
  let low := s.core.low
  let delivered := match low.command, s.core.executing with
    | some (.read _ len _), .block b => Function.update s.delivered b (s.delivered b + (len - regs.residual))
    | _, _ => s.delivered
  let brk := low.lastcmdwasread && low.stopnextint && low.breaking
  let result := (if de then 2 else 1) + if brk then 8 else 0
  let core := { s.core with regs := regs
                            low := { low with lastcmdwasread := false, stopnextint := false, alarm := false, command := none
                                              callback := none } }
  let r := match low.callback with
    | some cb => core.call cb result
    | none => (core, [])
  pushRun { s with delivered := delivered } (r.1, r.2 ++ [.unbreak])

/-- `__DVDInterruptHandler` when the cover is closed. -/
def cover (s : DvdSys B) (regs : DvdRegs) : DvdSys B :=
  let core := { s.core with regs := regs
                            low := { s.core.low with lastcmdwasread := false, stopnextint := false, waitcoverclose := false
                                                     command := none, callback := none } }
  let r := match s.core.low.callback with
    | some cb => core.call cb 4
    | none => (core, [])
  pushRun s (r.1, r.2 ++ [.unbreak])

/-- `__dvd_timeouthandler` -/
def timeout (s : DvdSys B) (regs : DvdRegs) : DvdSys B :=
  let core := { s.core with regs := regs, low := { s.core.low with alarm := false, command := none, callback := none } }
  match s.core.low.callback with
  | some cb => s.pushRun (core.call cb 0x10)
  | none => { s with core := core }

end DvdSys

inductive DvdEvent (B : Type) where
  | issue (prio : Fin 4) (b : B) (blk : DvdBlock)
  | pause
  | resume
  | cancel (b : B) (id : Option Nat)
  | cancelAll (id : Option Nat)
  | run
  | interrupt (de : Bool) (regs : DvdRegs)
  | cover (regs : DvdRegs)
  | timeout (regs : DvdRegs)

section System
variable {B : Type} [DecidableEq B]

def dvdNext (s : DvdSys B) : DvdEvent B → DvdSys B
  | .issue prio b blk => s.issuecommand prio b blk
  | .pause => s.pause
  | .resume => s.resume
  | .cancel b id => s.cancelAsync (.block b) id
  | .cancelAll id => s.pause.push [.cancelAll id, .resume]
  | .run => s.run
  | .interrupt de regs => s.interrupt de regs
  | .cover regs => s.cover regs
  | .timeout regs => s.timeout regs

/-- A cancel has a callback of its own. -/
def dvdFreshId (s : DvdSys B) (id : Option Nat) : Prop :=
  ∀ i ∈ id, some i ∉ s.cancels.map DvdCancel.id ∧ DvdCall.cancelAll (some i) ∉ s.todo

/-- A block is issued while it is not pending, with a command of the driver; a read has transferred nothing.  The user's code runs between
events of the drive, or is called back; what a read leaves untransferred is a part of it in blocks of 32 bytes. -/
def dvdGuard (s : DvdSys B) : DvdEvent B → Prop
  | .issue _ b blk =>
    (s.idle ∨ s.user) ∧ s.pending b = false ∧ 1 ≤ blk.cmd ∧ blk.cmd ≤ 25 ∧ blk.len < 2 ^ 32 ∧ (blk.cmd = 1 ∨ blk.cmd = 4 → blk.txdsize = 0)
  | .pause | .resume => s.idle ∨ s.user
  | .cancel _ id | .cancelAll id => (s.idle ∨ s.user) ∧ dvdFreshId s id
  | .run => ¬ s.idle
  | .interrupt _ regs =>
    s.idle ∧ match s.core.low.command with
      | some (.read _ len _) => regs.residual ≤ len ∧ regs.residual % 32 = 0
      | some .other => True
      | _ => False
  | .cover _ => s.idle ∧ s.core.low.waitcoverclose
  | .timeout _ => s.idle ∧ s.core.low.alarm

def dvdSystem : System (DvdSys B) (DvdEvent B) where
  enabled := dvdGuard
  next := dvdNext

/-- What the drive may leave untransferred. -/
instance (residual : Nat) : (command : Option DvdCommand) → Decidable (match command with
    | some (.read _ len _) => residual ≤ len ∧ residual % 32 = 0
    | some .other => True
    | _ => False)
  | some (.read _ _ _) => inferInstanceAs (Decidable (_ ∧ _))
  | some .other => inferInstanceAs (Decidable True)
  | some .waitCoverClose => inferInstanceAs (Decidable False)
  | none => inferInstanceAs (Decidable False)

instance (s : DvdSys B) (id : Option Nat) : Decidable (dvdFreshId s id) := inferInstanceAs (Decidable (∀ i ∈ id, _))

instance (s : DvdSys B) : (e : DvdEvent B) → Decidable (dvdGuard s e)
  | .issue _ _ _ => inferInstanceAs (Decidable (_ ∧ _ ∧ _ ∧ _ ∧ _ ∧ (_ → _)))
  | .pause | .resume => inferInstanceAs (Decidable (_ ∨ _))
  | .cancel _ _ | .cancelAll _ => inferInstanceAs (Decidable (_ ∧ _))
  | .run => inferInstanceAs (Decidable (¬ _))
  | .interrupt _ _ | .cover _ | .timeout _ => inferInstanceAs (Decidable (_ ∧ _))

instance (s : DvdSys B) (e : DvdEvent B) : Decidable (dvdSystem.enabled s e) := inferInstanceAs (Decidable (dvdGuard s e))

def dvdBlock0 : DvdBlock := ⟨0, 0, 0, 0, 0, 0, .END⟩

/-- After `DVD_Init`. -/
def dvdInit (drive : DvdDrive) : DvdSys B where
  core :=
    { blocks := fun _ => dvdBlock0
      dummy := dvdBlock0
      executing := .null
      currcmd := 0
      laststate := none
      fatalerror := false
      canceling := false
      cancelcallback := none
      resumefromhere := 0
      drive := drive
      low := ⟨none, none, false, false, false, false, false, none, none, none, none, none⟩
      regs := ⟨0, 0, false, false, false, false⟩ }
  waitingqueue := fun _ => []
  todo := []
  user := false
  pauseflag := false
  pausingflag := false
  issued := 0
  number := fun _ => 0
  pending := fun _ => false
  delivered := fun _ => 0
  done := []
  starts := []
  cancels := []
  cancelled := []

end System

end Libogc
