import Libogc.Lib.Runs
import Mathlib.Data.Fintype.BigOperators
/-!
# Sram — the battery-backed memory of `system.c`

`srambuf` is a copy of the device's 64 bytes that one session at a time modifies, in the base area or in the extended one.  `offset` is
where what the device does not have yet begins; `sync` says whether there is none.  A write that finds the EXI channel locked leaves
`__sram_writecallback` on it.

`__sram_write` unlocks the channel before it returns, and the unlock calls back who waits next: an activation of it is in `writes` from
its unlock to its return.  `session`, `modified` and `based` are history.
-/
namespace Libogc

open Runs

abbrev SramBuf := Fin 64 → BitVec 8

inductive SramArea where
  | base
  | extended
  deriving DecidableEq, Repr

/-- Where an area begins: `sizeof(syssram)` for the extended one. -/
def SramArea.loc : SramArea → Nat
  | .base => 0
  | .extended => 20

def SramArea.has : SramArea → Fin 64 → Bool
  | .base, i => i.val < 20
  | .extended, i => 20 ≤ i.val

def sysLangEnglish : BitVec 8 := 0
def sysLangDutch : BitVec 8 := 5
def sysVideoNtsc : BitVec 8 := 0
def sysVideoMpal : BitVec 8 := 2

namespace SramBuf

/-- A half word of the buffer. -/
def half (b : SramBuf) (hi lo : Fin 64) : BitVec 16 := b hi ++ b lo

def setHalf (b : SramBuf) (hi lo : Fin 64) (v : BitVec 16) : SramBuf :=
  Function.update (Function.update b hi (v.extractLsb' 8 8)) lo (v.extractLsb' 0 8)

def checksum (b : SramBuf) : BitVec 16 := b.half 0 1
def checksumInv (b : SramBuf) : BitVec 16 := b.half 2 3
def lang (b : SramBuf) : BitVec 8 := b 18
def flags (b : SramBuf) : BitVec 8 := b 19

/-- The half words `__buildchecksum` adds up. -/
def summed (b : SramBuf) : List (BitVec 16) := [b.half 12 13, b.half 14 15, b.half 16 17, b.half 18 19]

end SramBuf

/-- `__buildchecksum`: the two sums. -/
def buildchecksum (b : SramBuf) : BitVec 16 × BitVec 16 :=
  b.summed.foldl (fun c v => (c.1 + v, c.2 + ~~~v)) (0, 0)

def sysCheckSram (b : SramBuf) : Bool :=
  let c := buildchecksum b
  b.checksum = c.1 ∧ b.checksumInv = c.2

/-- A language or a video mode the system does not know becomes the first it knows. -/
def sramSanitize (b : SramBuf) : SramBuf :=
  let b : SramBuf := if b.lang > sysLangDutch then Function.update b 18 sysLangEnglish else b
  if b.flags &&& 3 > sysVideoMpal then Function.update b 19 (b.flags &&& ~~~3 ||| sysVideoNtsc &&& 3) else b

/-- What an unlock of the base area makes of the buffer. -/
def sramSeal (b : SramBuf) : SramBuf :=
  let b := sramSanitize b
  let c := buildchecksum b
  (b.setHalf 0 1 c.1).setHalf 2 3 c.2

/-- An activation of `__sram_write` in its `EXI_Unlock`: whether the callback made it, and what it will return. -/
structure SramWrite where
  deferred : Bool
  ret : Bool
  deriving DecidableEq, Repr

structure SramSys where
  srambuf : SramBuf
  offset : Nat
  locked : Bool
  sync : Bool
  device : SramBuf
  /-- The callbacks left on the EXI channel. -/
  queued : Nat
  writes : List SramWrite
  session : Option SramArea
  /-- The session wrote something; a session has unlocked the base area with `write`. -/
  modified : Bool
  based : Bool

/-- What EXI does to a write: the channel is locked, with or without a node for the callback; the device is not selected; or the
command, the bytes and the deselection go well or not, and leave the device with whatever when the bytes do not arrive. -/
inductive SramExi where
  | locked (node : Bool)
  | unselected
  | sent (cmd data deselect : Bool) (garbage : SramBuf)

/-- The device once the bytes from `loc` on are written. -/
def sramOverwrite (device srambuf : SramBuf) (loc : Nat) : SramBuf := fun i => if loc ≤ i.val then srambuf i else device i

/-- What follows `__sram_write`. -/
def sramReturn (s : SramSys) (w : SramWrite) : SramSys :=
  { s with sync := w.ret, offset := if w.ret then 64 else s.offset, locked := if w.deferred then s.locked else false }

/-- `__sram_write` from `offset` on, up to its unlock. -/
def sramWrite (s : SramSys) (deferred : Bool) : SramExi → SramSys
  | .locked node => sramReturn { s with queued := s.queued + if node then 1 else 0 } ⟨deferred, false⟩
  | .unselected => { s with writes := s.writes ++ [⟨deferred, false⟩] }
  | .sent cmd data deselect garbage =>
    { s with device := if cmd && data then sramOverwrite s.device s.srambuf s.offset else garbage
             writes := s.writes ++ [⟨deferred, cmd && data && deselect⟩] }

def locksram (s : SramSys) (area : SramArea) : SramSys :=
  if s.locked then s else { s with locked := true, session := some area }

/-- `__unlocksram` with `write`, before it writes. -/
def sramSubmit (s : SramSys) (area : SramArea) : SramSys :=
  match area with
  | .base => { s with srambuf := sramSeal s.srambuf, offset := min 0 s.offset, based := true }
  | .extended => { s with offset := min area.loc s.offset }

def unlocksram (s : SramSys) (area : SramArea) (write : Bool) (exi : SramExi) : SramSys :=
  let s := { s with session := none, modified := false }
  if write then
    let s := sramSubmit s area
    if s.sync then sramWrite s false exi else { s with locked := false }
  else { s with locked := false }

/-- `__sram_init` after the device was read, well or not. -/
def sramStart (srambuf device : SramBuf) (read : Bool) : SramSys where
  srambuf := if read then device else srambuf
  offset := 64
  locked := false
  sync := read
  device := device
  queued := 0
  writes := []
  session := none
  modified := false
  based := false

/-! ## The system -/

inductive SramEvent where
  | lock (area : SramArea)
  | modify (i : Fin 64) (v : BitVec 8)
  | unlock (write : Bool) (exi : SramExi)
  | callback (exi : SramExi)
  | back (i : Nat)

def sramNext (s : SramSys) : SramEvent → SramSys
  | .lock area => locksram s area
  | .modify i v => { s with srambuf := Function.update s.srambuf i v, modified := true }
  | .unlock write exi =>
    match s.session with
    | some area => unlocksram s area write exi
    | none => s
  | .callback exi => sramWrite { s with queued := s.queued - 1 } true exi
  | .back i =>
    match s.writes[i]? with
    | some w => sramReturn { s with writes := s.writes.eraseIdx i } w
    | none => s

/-- A session modifies its own area, and unlocks with `write` if it modified anything. -/
def sramGuard (s : SramSys) : SramEvent → Bool
  | .lock _ => true
  | .modify i _ => s.session.any (·.has i)
  | .unlock write _ => s.session.isSome && (write || !s.modified)
  | .callback _ => 0 < s.queued
  | .back i => i < s.writes.length

def sramSystem : System SramSys SramEvent where
  enabled s e := sramGuard s e = true
  next := sramNext

instance (s : SramSys) (e : SramEvent) : Decidable (sramSystem.enabled s e) := inferInstanceAs (Decidable (_ = _))

/-- **No session unlocks with `write` while a deferred write that went well is in its `EXI_Unlock`.** -/
def sramQuiet (s : SramSys) : SramEvent → Prop
  | .unlock write _ => write = true → ∀ w ∈ s.writes, w.deferred = true → w.ret = false
  | _ => True

instance (s : SramSys) : ∀ e, Decidable (sramQuiet s e)
  | .lock _ => inferInstanceAs (Decidable True)
  | .modify .. => inferInstanceAs (Decidable True)
  | .unlock .. => inferInstanceAs (Decidable (_ → _))
  | .callback _ => inferInstanceAs (Decidable True)
  | .back _ => inferInstanceAs (Decidable True)

end Libogc
