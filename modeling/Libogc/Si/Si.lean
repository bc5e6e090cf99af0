import Libogc.Sys.Alarm
/-!
# Si — the packets of the serial interface

`SI_Transfer` and what starts its packets in `si.c`.  The bus carries one transfer at a time.  A packet whose deadline is ahead, or that
finds the bus busy, is left in its channel's slot: the channel's alarm starts it, or the end of another transfer does.

The system is every order of calls of `SI_Transfer`, completion interrupts and alarms.  What a callback asks for, and the type request an
interrupt ends with, are calls of their own after the interrupt.  Every event names the times it reads.
-/
namespace Libogc

open Runs

def microsecsToTicks (usec : Nat) : Nat := usec * (tbTimerClock / 125) % 2 ^ 64 / 8

def ticksToNanosecs (ticks : Nat) : Nat := ticks * 8000 % 2 ^ 64 / (tbTimerClock / 125)

/-- What a transfer moves; a null callback is 0. -/
structure SiXfer where
  out : Nat
  outBytes : Nat
  inp : Nat
  inBytes : Nat
  callback : Nat
  deriving DecidableEq, Repr

/-- `sipacket[chan]`, and the number of the call that left it there. -/
structure SiPacket where
  chan : Int
  xfer : SiXfer
  fire : Nat
  id : Nat
  deriving DecidableEq, Repr

structure SiCntrl where
  chan : Int
  inBytes : Nat
  inp : Nat
  callback : Nat
  deriving DecidableEq, Repr

/-- `SICOMCSR` -/
structure SiComcsr where
  tcintmsk : Bool
  outlen : Nat
  inlen : Nat
  channel : Nat
  tstart : Bool
  deriving DecidableEq, Repr

structure SiState where
  sipacket : Fin 4 → SiPacket
  sicntrl : SiCntrl
  comcsr : SiComcsr
  xferTime : Fin 4 → Nat
  /-- The deadlines of the alarms that are set. -/
  siAlarm : Fin 4 → Option Nat
  /-- No event reads a time before this one. -/
  clock : Nat
  /-- The calls that returned 1, and the transfers that were started, each with the number of its call. -/
  accepted : List (Int × SiXfer)
  started : List (Nat × Int × SiXfer)
  completed : Nat

def SiState.pending (s : SiState) (c : Fin 4) : Prop := (s.sipacket c).chan ≠ -1

instance SiState.decPending (s : SiState) (c : Fin 4) : Decidable (s.pending c) := inferInstanceAs (Decidable (_ ≠ _))

def SiState.busy (s : SiState) : Prop := s.sicntrl.chan ≠ -1

instance SiState.decBusy (s : SiState) : Decidable s.busy := inferInstanceAs (Decidable (_ ≠ _))

/-- The length of 128 bytes is 0. -/
def siLength (n : Nat) : Nat := if n = 128 then 0 else n % 128

/-- `__si_transfer` -/
def siTransfer (s : SiState) (chan : Int) (x : SiXfer) (id : Nat) : SiState × Bool :=
  if s.sicntrl.chan ≠ -1 then (s, false)
  else
    ({ s with
        sicntrl := ⟨chan, x.inBytes, x.inp, x.callback⟩
        comcsr := ⟨x.callback ≠ 0, siLength x.outBytes, siLength x.inBytes, (chan % 4).toNat, true⟩
        started := s.started ++ [(id, chan, x)] }, true)

def SiState.setPacket (s : SiState) (c : Fin 4) (p : SiPacket) : SiState :=
  { s with sipacket := Function.update s.sipacket c p }

/-- `sipacket[chan].chan = -1` -/
def SiState.clear (s : SiState) (c : Fin 4) : SiState := s.setPacket c { s.sipacket c with chan := -1 }

/-- `SYS_SetAlarm` and `SYS_CancelAlarm` on a channel's alarm. -/
def SiState.setAlarm (s : SiState) (c : Fin 4) (deadline : Option Nat) : SiState :=
  { s with siAlarm := Function.update s.siAlarm c deadline }

/-- `__si_transfer` with a channel's packet. -/
def siTransferPacket (s : SiState) (c : Fin 4) : SiState × Bool :=
  siTransfer s (s.sipacket c).chan (s.sipacket c).xfer (s.sipacket c).id

def siAlarmhandler (s : SiState) (chn : Fin 4) : SiState :=
  if (s.sipacket chn).chan ≠ -1 then
    let r := siTransferPacket s chn
    if r.2 then r.1.clear chn else r.1
  else s

def siCompletetransfer (s : SiState) (done : Nat) : SiState :=
  let s := { s with comcsr := { s.comcsr with tstart := false } }
  if s.sicntrl.chan = -1 then s
  else
    { s with
      xferTime := Function.update s.xferTime (Fin.ofNat 4 s.sicntrl.chan.toNat) done
      sicntrl := { s.sicntrl with chan := -1 }
      completed := s.completed + 1 }

/-- `diff = (now - fire)` is not negative. -/
def siDue (fire now : Nat) : Prop := 0 ≤ s64 (u64 ((now : Int) - fire))

instance (fire now : Nat) : Decidable (siDue fire now) := inferInstanceAs (Decidable (_ ≤ _))

/-- The loop of `__si_transfernext`, `n` channels from its end; the time is read at every packet. -/
def siTransfernext (s : SiState) (now : Fin 4 → Nat) : Nat → Fin 4 → SiState
  | 0, _ => s
  | n + 1, chan =>
    let chan := chan + 1
    if (s.sipacket chan).chan ≠ -1 ∧ siDue (s.sipacket chan).fire (now chan) then
      let r := siTransferPacket s chan
      if r.2 then siTransfernext ((r.1.setAlarm chan none).clear chan) now n chan else r.1
    else siTransfernext s now n chan

/-- `__si_interrupthandler` at the end of a transfer, up to the callback. -/
def siInterrupthandler (s : SiState) (done : Nat) (now : Fin 4 → Nat) : SiState :=
  let chn := s.sicntrl.chan
  let s := { s with sicntrl := { s.sicntrl with callback := 0 } }
  siTransfernext (siCompletetransfer s done) now 4 (Fin.ofNat 4 chn.toNat)

/-- When the alarm for a number of ticks goes off that is set at a time. -/
def siDeadline (start ticks : Nat) : Nat :=
  (start + (lwpWdCalcTicks ⟨0, s32 (ticksToNanosecs ticks)⟩).natAbs) % 2 ^ 64

/-- `SI_Transfer`; `now` is the time it reads, and `start` the one that setting the alarm reads. -/
def SITransfer (s : SiState) (c : Fin 4) (x : SiXfer) (usDelay now start : Nat) : SiState × Nat :=
  let chan : Int := c.val
  if (s.sipacket c).chan = -1 ∧ s.sicntrl.chan ≠ chan then
    let fire := if usDelay ≠ 0 then (s.xferTime c + microsecsToTicks usDelay) % 2 ^ 64 else now
    let id := s.accepted.length
    let s := { s with accepted := s.accepted ++ [(chan, x)] }
    if siDue fire now then
      let r := siTransfer s chan x id
      if r.2 then (r.1, 1) else (r.1.setPacket c ⟨chan, x, fire, id⟩, 1)
    else ((s.setAlarm c (some (siDeadline start (u64 ((fire : Int) - now))))).setPacket c ⟨chan, x, fire, id⟩, 1)
  else (s, 0)

/-! ## The system -/

inductive SiEvent where
  | transfer (chan : Fin 4) (x : SiXfer) (usDelay now start : Nat)
  | complete (done : Nat) (now : Fin 4 → Nat) (last : Nat)
  | alarm (chan : Fin 4) (now : Nat)
  deriving DecidableEq

def SiState.setClock (s : SiState) (now : Nat) : SiState := { s with clock := now }

/-- An alarm that goes off is not set any more when its handler runs. -/
def siNext (s : SiState) : SiEvent → SiState
  | .transfer chan x usDelay now start => (SITransfer (s.setClock start) chan x usDelay now start).1
  | .complete done now last => siInterrupthandler (s.setClock last) done now
  | .alarm chan now => siAlarmhandler ((s.setClock now).setAlarm chan none) chan

/-- Time does not run backwards, nor on for a century; a completion interrupt comes when a transfer is running and the interrupt is not
masked, and an alarm from its deadline on. -/
def siGuard (s : SiState) : SiEvent → Prop
  | .transfer _ _ usDelay now start => s.clock ≤ now ∧ now ≤ start ∧ start < 2 ^ 62 ∧ usDelay < 2 ^ 32
  | .complete done now last =>
    (s.comcsr.tstart = true ∧ s.comcsr.tcintmsk = true) ∧ s.clock ≤ done ∧ (∀ c, done ≤ now c ∧ now c ≤ last) ∧ last < 2 ^ 62
  | .alarm chan now => (∃ deadline ∈ s.siAlarm chan, deadline ≤ now) ∧ s.clock ≤ now ∧ now < 2 ^ 62

instance (s : SiState) : ∀ e, Decidable (siGuard s e)
  | .transfer .. => inferInstanceAs (Decidable (_ ∧ _))
  | .complete .. => inferInstanceAs (Decidable (_ ∧ _))
  | .alarm .. => inferInstanceAs (Decidable (_ ∧ _))

/-- **The serial interface and everybody who uses it.** -/
def siSystem : System SiState SiEvent where
  enabled := siGuard
  next := siNext

instance (s : SiState) (e : SiEvent) : Decidable (siSystem.enabled s e) := inferInstanceAs (Decidable (siGuard s e))

/-- After the loop of `__si_init`. -/
def siStart : SiState where
  sipacket := fun _ => ⟨-1, ⟨0, 0, 0, 0, 0⟩, 0, 0⟩
  sicntrl := ⟨-1, 0, 0, 0⟩
  comcsr := ⟨false, 0, 0, 0, false⟩
  xferTime := fun _ => 0
  siAlarm := fun _ => none
  clock := 0
  accepted := []
  started := []
  completed := 0

end Libogc
