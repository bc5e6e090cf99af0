import Libogc.Si.Si
/-!
# N64 — the polling of N64 controllers

`n64.c` over the cache of device types in `si.c` and the packets of `Si`.  The position interrupt starts a read on each channel that is
polled; a read first asks for the type of the device, which is known already or comes with a transfer of its own.

The user's code runs between events, or is called back: what the library goes on with after that is in `todo`.  Every function is given the
times that it reads, in order.  Not modelled: a system reset, commands other than a read, and the bytes of a transfer but for the type.
-/
namespace Libogc

open Runs

def SI_ERROR_UNDER_RUN : BitVec 32 := 0x0001
def SI_ERROR_OVER_RUN : BitVec 32 := 0x0002
def SI_ERROR_COLLISION : BitVec 32 := 0x0004
def SI_ERROR_NO_RESPONSE : BitVec 32 := 0x0008
def SI_ERROR_UNKNOWN : BitVec 32 := 0x0040
def SI_ERROR_BUSY : BitVec 32 := 0x0080

def SI_TYPE_MASK : BitVec 32 := 0x18000000
def SI_TYPE_N64 : BitVec 32 := 0x00000000
def SI_TYPE_GC : BitVec 32 := 0x08000000

def SI_GC_WIRELESS : BitVec 32 := 0x80000000
def SI_GC_STANDARD : BitVec 32 := 0x01000000
def SI_WIRELESS_RECEIVED : BitVec 32 := 0x40000000
def SI_WIRELESS_IR : BitVec 32 := 0x04000000
def SI_WIRELESS_STATE : BitVec 32 := 0x02000000
def SI_WIRELESS_FIX_ID : BitVec 32 := 0x00100000
def SI_WIRELESS_TYPE_ID : BitVec 32 := 0x00cfff00

def SI_N64_CONTROLLER : BitVec 32 := SI_TYPE_N64 ||| 0x05000000
def SI_N64_MIC : BitVec 32 := SI_TYPE_N64 ||| 0x00010000
def SI_N64_KEYBOARD : BitVec 32 := SI_TYPE_N64 ||| 0x00020000
def SI_N64_MOUSE : BitVec 32 := SI_TYPE_N64 ||| 0x02000000
def SI_GBA : BitVec 32 := SI_TYPE_N64 ||| 0x00040000
def SI_GC_CONTROLLER : BitVec 32 := SI_TYPE_GC ||| SI_GC_STANDARD
def SI_GC_RECEIVER : BitVec 32 := SI_TYPE_GC ||| SI_GC_WIRELESS
def SI_GC_WAVEBIRD : BitVec 32 := SI_TYPE_GC ||| SI_GC_WIRELESS ||| SI_GC_STANDARD ||| SI_WIRELESS_STATE ||| SI_WIRELESS_FIX_ID
def SI_GC_KEYBOARD : BitVec 32 := SI_TYPE_GC ||| 0x00200000
def SI_GC_STEERING : BitVec 32 := SI_TYPE_GC ||| 0x00000000

def N64_ERR_READY : Int := 0
def N64_ERR_NO_CONTROLLER : Int := -1
def N64_ERR_BUSY : Int := -2
def N64_ERR_TRANSFER : Int := -3

/-- `SI_CHAN_BIT` -/
def siChanBit (chan : Fin 4) : BitVec 32 := 0x80000000 >>> chan.val

def millisecsToTicks (msec : Nat) : Nat := msec * tbTimerClock

/-- `SI_DecodeType` -/
def siDecodeType (type : BitVec 32) : BitVec 32 :=
  if type &&& SI_ERROR_NO_RESPONSE ≠ 0 then SI_ERROR_NO_RESPONSE
  else if type &&& 0x0f ≠ 0 then SI_ERROR_UNKNOWN
  else if type &&& 0xff ≠ 0 then SI_ERROR_BUSY
  else
    let type := type &&& ~~~0xffff
    if type &&& SI_TYPE_MASK = SI_TYPE_N64 then
      if type = SI_N64_CONTROLLER ∨ type = SI_N64_MIC ∨ type = SI_N64_KEYBOARD ∨ type = SI_N64_MOUSE ∨ type = SI_GBA then type
      else SI_ERROR_UNKNOWN
    else if type &&& SI_TYPE_MASK = SI_TYPE_GC then
      if type = SI_GC_STEERING then SI_GC_STEERING
      else if type &&& ~~~0x001f0000 = SI_GC_KEYBOARD then SI_GC_KEYBOARD
      else if (type &&& SI_GC_WIRELESS ≠ 0 ∧ type &&& SI_WIRELESS_IR = 0) ∧ type &&& SI_GC_WAVEBIRD = SI_GC_WAVEBIRD then SI_GC_WAVEBIRD
      else if (type &&& SI_GC_WIRELESS ≠ 0 ∧ type &&& SI_WIRELESS_IR = 0) ∧ type &&& SI_WIRELESS_STATE = 0 then SI_GC_RECEIVER
      else if type &&& SI_GC_CONTROLLER = SI_GC_CONTROLLER then SI_GC_CONTROLLER
      else SI_ERROR_UNKNOWN
    else SI_ERROR_UNKNOWN

/-- `IsValidType` -/
def isValidType (type : BitVec 32) (cmd : Nat) : Bool :=
  let type := siDecodeType type
  if type = SI_N64_CONTROLLER then cmd ≤ 0x03 ∨ cmd = 0xFF
  else if type = SI_N64_MIC then cmd = 0x00 ∨ 0x09 ≤ cmd ∧ cmd ≤ 0x0D ∨ cmd = 0xFF
  else if type = SI_N64_KEYBOARD then cmd = 0x00 ∨ cmd = 0x13 ∨ cmd = 0xFF
  else if type = SI_N64_MOUSE then cmd ≤ 0x01 ∨ cmd = 0xFF
  else if type = SI_GBA then cmd = 0x00 ∨ 0x14 ≤ cmd ∧ cmd ≤ 0x15 ∨ cmd = 0xFF
  else false

/-- `cb->callback`: `DefaultCallback`, one of the user's, or `SamplingHandler`. -/
inductive N64Callback where
  | default
  | user
  | sampling
  deriving DecidableEq, Repr

/-- What the library goes on with: code of the user's, the ends of `SamplingHandler` and of a read in `PositionCallback`, the channels that
`PositionCallback` has not come to, the end of the interrupt handler, and the return to the user's code. -/
inductive N64Call where
  | user
  | refresh
  | polled (chan : Fin 4)
  | position (chans : List (Fin 4))
  | resend (chan : Fin 4)
  | back
  deriving DecidableEq, Repr

/-- `typeCallback` says on which channels `TypeCallback` is registered, the only one that asks for types, and `position` whether the position
interrupt calls `PositionCallback`. -/
structure N64State where
  si : SiState
  siType : Fin 4 → BitVec 32
  typeTime : Fin 4 → Nat
  typeCallback : Fin 4 → Bool
  /-- `sicntrl.poll` -/
  poll : Fin 4 → Bool
  padFixBits : Fin 4 → Bool
  wirelessID : Fin 4 → BitVec 16
  callback : Fin 4 → Option N64Callback
  samplingCallback : Bool
  enabledBits : BitVec 32
  pollingBits : BitVec 32
  responseBits : BitVec 32
  tvMode : Nat
  position : Bool
  todo : List N64Call
  user : Bool

/-- A function of the library, with the calls that it leaves. -/
abbrev N64Run := N64State × List N64Call

/-! The places in memory that a packet names. -/

def cmdtypeandstatus : Nat := 0x47
def cmdfixdevice (chan : Fin 4) : Nat := 0x100 + chan.val
def siTypePlace (chan : Fin 4) : Nat := 0x200 + chan.val
def n64Out (chan : Fin 4) : Nat := 0x300 + chan.val
def n64In (chan : Fin 4) : Nat := 0x400 + chan.val
def siGettypecallbackPlace : Nat := 1
def n64HandlerPlace : Nat := 2

/-- A request for the type, or one that fixes a wireless device. -/
def siTypeXfer (chan : Fin 4) (out outBytes : Nat) : SiXfer := ⟨out, outBytes, siTypePlace chan, 3, siGettypecallbackPlace⟩

/-- A read of a controller. -/
def n64Xfer (chan : Fin 4) : SiXfer := ⟨n64Out chan, 1, n64In chan, 4, n64HandlerPlace⟩

namespace N64State

def setType (s : N64State) (chan : Fin 4) (type : BitVec 32) : N64State := { s with siType := Function.update s.siType chan type }

def setTypeTime (s : N64State) (chan : Fin 4) (now : Nat) : N64State := { s with typeTime := Function.update s.typeTime chan now }

def setCallback (s : N64State) (chan : Fin 4) (cb : Option N64Callback) : N64State :=
  { s with callback := Function.update s.callback chan cb }

def setTypeCallback (s : N64State) (chan : Fin 4) (set : Bool) : N64State :=
  { s with typeCallback := Function.update s.typeCallback chan set }

def setWirelessID (s : N64State) (chan : Fin 4) (id : BitVec 16) : N64State := { s with wirelessID := Function.update s.wirelessID chan id }

/-- `SI_Transfer` -/
def transfer (s : N64State) (chan : Fin 4) (x : SiXfer) (usDelay : Nat) (t : Nat → Nat) : N64State :=
  { s with si := (SITransfer s.si chan x usDelay (t 0) (t 1)).1 }

/-- `SI_GetType` asks for the type; `t` is read from 1 on. -/
def requestType (s : N64State) (chan : Fin 4) (t : Nat → Nat) : N64State :=
  ((s.setType chan SI_ERROR_BUSY).setTypeTime chan (t 1)).transfer chan (siTypeXfer chan cmdtypeandstatus 1) 65 fun k => t (k + 2)

/-- `SI_GetType` -/
def getType (s : N64State) (chan : Fin 4) (t : Nat → Nat) : N64State × BitVec 32 :=
  let type := s.siType chan
  let diff := u64 ((t 0 : Int) - s.typeTime chan)
  if s.poll chan then
    if type ≠ SI_ERROR_NO_RESPONSE then (s.setTypeTime chan (t 1), type) else (s.requestType chan t, SI_ERROR_BUSY)
  else if diff ≤ millisecsToTicks 50 ∧ type ≠ SI_ERROR_NO_RESPONSE then (s, type)
  else if diff ≤ millisecsToTicks 75 then (s.requestType chan t, type)
  else (s.requestType chan t, SI_ERROR_BUSY)

/-- `N64_RefreshPositionInterrupt` -/
def refreshPositionInterrupt (s : N64State) : N64State :=
  { s with position := s.enabledBits ≠ 0 ∧ s.pollingBits = 0 ∧ (s.tvMode = 0 ∨ s.tvMode = 2 ∨ s.tvMode = 5 ∨ s.tvMode = 1 ∨ s.tvMode = 4) }

/-- `SamplingHandler` -/
def samplingHandler (s : N64State) (chan : Fin 4) (result : Int) : N64Run :=
  let mask := siChanBit chan
  let s := if result = N64_ERR_NO_CONTROLLER then { s with enabledBits := s.enabledBits &&& ~~~mask } else s
  let s := { s with responseBits := s.responseBits ||| mask }
  if s.pollingBits &&& mask ≠ 0 then
    let s := { s with pollingBits := s.pollingBits &&& ~~~mask }
    if s.samplingCallback then (s, [.user, .refresh]) else (s.refreshPositionInterrupt, [])
  else (s.refreshPositionInterrupt, [])

/-- The callback of a control block is called. -/
def callCallback (s : N64State) (chan : Fin 4) (result : Int) : N64Run :=
  match s.callback chan with
  | none => (s, [])
  | some .default => (s.setCallback chan none, [])
  | some .user => (s.setCallback chan none, [.user])
  | some .sampling => (s.setCallback chan none).samplingHandler chan result

/-- `__N64_Handler` -/
def n64Handler (s : N64State) (chan : Fin 4) (type : BitVec 32) : N64Run :=
  s.callCallback chan
    (if type &&& SI_ERROR_NO_RESPONSE ≠ 0 then N64_ERR_NO_CONTROLLER
    else if type &&& (SI_ERROR_COLLISION ||| SI_ERROR_OVER_RUN ||| SI_ERROR_UNDER_RUN) ≠ 0 then N64_ERR_TRANSFER
    else N64_ERR_READY)

/-- `TypeCallback` of a read -/
def typeCallbackOf (s : N64State) (chan : Fin 4) (type : BitVec 32) (t : Nat → Nat) : N64Run :=
  if !isValidType type 0x01 then s.callCallback chan N64_ERR_NO_CONTROLLER
  else if (SITransfer s.si chan (n64Xfer chan) 65 (t 0) (t 1)).2 = 0 then s.callCallback chan N64_ERR_BUSY
  else (s.transfer chan (n64Xfer chan) 65 t, [])

/-- `SI_GetTypeAsync` -/
def getTypeAsync (s : N64State) (chan : Fin 4) (t : Nat → Nat) : N64Run :=
  let r := s.getType chan t
  if r.1.siType chan &&& SI_ERROR_BUSY ≠ 0 then (r.1.setTypeCallback chan true, [])
  else r.1.typeCallbackOf chan r.2 fun k => t (k + 4)

/-- `N64_ReadAsync`; one that is busy is none. -/
def readAsync (s : N64State) (chan : Fin 4) (cb : N64Callback) (t : Nat → Nat) : Option N64Run :=
  if s.callback chan ≠ none then none else some ((s.setCallback chan (some cb)).getTypeAsync chan t)

/-- `PositionCallback` from a channel on -/
def positionCallback (s : N64State) (t : Fin 4 → Nat → Nat) : List (Fin 4) → N64Run
  | [] => (s.refreshPositionInterrupt, [])
  | chan :: chans =>
    let mask := siChanBit chan
    if s.enabledBits &&& mask = 0 then s.positionCallback t chans
    else
      let r := if s.responseBits &&& mask ≠ 0 then s.getType chan (t chan) else (s, 0)
      if r.2 &&& SI_N64_MOUSE ≠ 0 then r.1.positionCallback t chans
      else
        match r.1.readAsync chan .sampling fun k => t chan (k + 4) with
        | none => r.1.positionCallback t chans
        | some (s, []) => { s with pollingBits := s.pollingBits ||| mask }.positionCallback t chans
        | some (s, calls) => (s, calls ++ [.polled chan, .position chans])

/-- `__si_calltypeandstatuscallback` -/
def calltypeandstatuscallback (s : N64State) (chan : Fin 4) (t : Nat → Nat) : N64Run :=
  if s.typeCallback chan then (s.setTypeCallback chan false).typeCallbackOf chan (s.siType chan) t else (s, [])

/-- `__si_gettypecallback` -/
def gettypecallback (s : N64State) (chan : Fin 4) (type : BitVec 32) (t : Nat → Nat) : N64Run :=
  let s := (s.setType chan ((s.siType chan &&& ~~~SI_ERROR_BUSY) ||| type)).setTypeTime chan (t 0)
  let fixBits := s.padFixBits chan
  let s := { s with padFixBits := Function.update s.padFixBits chan false }
  let known := s.siType chan
  let next (k : Nat) : Nat := t (k + 1)
  let fix (s : N64State) : N64Run :=
    ((s.setType chan SI_ERROR_BUSY).transfer chan (siTypeXfer chan (cmdfixdevice chan) 3) 0 next, [])
  if type &&& 0x0f ≠ 0 ∨ known &&& SI_TYPE_MASK ≠ SI_TYPE_GC ∨ known &&& SI_GC_WIRELESS = 0 ∨ known &&& SI_WIRELESS_IR ≠ 0 then
    (s.setWirelessID chan 0).calltypeandstatuscallback chan next
  else
    let id : BitVec 32 := ((s.wirelessID chan).setWidth 32).shiftLeft 8
    let own : BitVec 32 := SI_WIRELESS_FIX_ID ||| (known &&& SI_WIRELESS_TYPE_ID)
    if fixBits ∧ id &&& SI_WIRELESS_FIX_ID ≠ 0 then fix s
    else if known &&& SI_WIRELESS_FIX_ID ≠ 0 then
      if id &&& SI_WIRELESS_TYPE_ID = known &&& SI_WIRELESS_TYPE_ID then s.calltypeandstatuscallback chan next
      else fix (if id &&& SI_WIRELESS_FIX_ID = 0 then s.setWirelessID chan ((own.ushiftRight 8).setWidth 16) else s)
    else if known &&& SI_WIRELESS_RECEIVED ≠ 0 then fix (s.setWirelessID chan ((own.ushiftRight 8).setWidth 16))
    else (s.setWirelessID chan 0).calltypeandstatuscallback chan next

/-- What `__si_completetransfer` does besides: it stores what was read, where that is a type, and looks for errors. -/
def completetransfer (s : N64State) (chan : Fin 4) (comerr : Bool) (sisr : BitVec 4) (val : BitVec 32) (now : Nat) : N64State × BitVec 32 :=
  let s := if s.si.sicntrl.inp = siTypePlace chan then s.setType chan ((val &&& 0xffffff00) ||| (s.siType chan &&& 0xff)) else s
  if comerr then
    (if sisr.setWidth 32 &&& SI_ERROR_NO_RESPONSE ≠ 0 ∧ s.siType chan &&& SI_ERROR_BUSY = 0 then s.setType chan SI_ERROR_NO_RESPONSE else s,
      if sisr = 0 then SI_ERROR_COLLISION else sisr.setWidth 32)
  else (s.setTypeTime chan now, 0)

/-- Nothing runs: neither the library nor a callback. -/
def idle (s : N64State) : Bool := s.todo.isEmpty && !s.user

/-- Calls are made before the user's code goes on. -/
def push (s : N64State) (calls : List N64Call) : N64State :=
  match calls with
  | [] => s
  | _ => { s with todo := calls ++ if s.user then .back :: s.todo else s.todo, user := false }

def pushRun (r : N64Run) : N64State := r.1.push r.2

/-- `__si_interrupthandler` at the end of a transfer -/
def interrupt (s : N64State) (comerr : Bool) (sisr : BitVec 4) (val : BitVec 32) (done : Nat) (now : Fin 4 → Nat) (t : Nat → Nat) : N64State :=
  let chn := Fin.ofNat 4 s.si.sicntrl.chan.toNat
  let cb := s.si.sicntrl.callback
  let r := s.completetransfer chn comerr sisr val (t 0)
  let s := { r.1 with si := siInterrupthandler s.si done now }
  let next (k : Nat) : Nat := t (k + 1)
  let r :=
    if cb = siGettypecallbackPlace then s.gettypecallback chn r.2 next
    else if cb = n64HandlerPlace then s.n64Handler chn r.2
    else (s, [])
  pushRun (r.1, r.2 ++ [.resend chn])

/-- A call that was left is made. -/
def runCall (s : N64State) (t : Fin 4 → Nat → Nat) : N64Call → N64State
  | .user | .back => { s with user := true }
  | .refresh => s.refreshPositionInterrupt
  | .polled chan => { s with pollingBits := s.pollingBits ||| siChanBit chan }
  | .position chans => pushRun (s.positionCallback t chans)
  | .resend chn =>
    if s.siType chn = SI_ERROR_BUSY ∧ ¬ s.si.pending chn ∧ s.si.sicntrl.chan ≠ chn.val then
      s.transfer chn (siTypeXfer chn cmdtypeandstatus 1) 65 (t chn)
    else s

/-- The library goes on when the user's code returns. -/
def run (s : N64State) (t : Fin 4 → Nat → Nat) : N64State :=
  match s.todo with
  | call :: todo => runCall { s with todo := todo, user := false } t call
  | [] => { s with user := false }

/-- `N64_GetResponse`, but for the status that it copies -/
def getResponse (s : N64State) (chan : Fin 4) (t : Nat → Nat) : N64State :=
  let mask := siChanBit chan
  if s.responseBits &&& mask ≠ 0 then { s with responseBits := s.responseBits &&& ~~~mask }
  else if s.pollingBits &&& mask ≠ 0 then s
  else if s.enabledBits &&& mask ≠ 0 then
    match s.readAsync chan .sampling t with
    | some r => pushRun r
    | none => s
  else s

end N64State

/-- `polling` is `SI_EnablePolling` and `SI_DisablePolling` of another library. -/
inductive N64Event where
  | enablePolling (mask : BitVec 32)
  | disablePolling (mask : BitVec 32)
  | setSamplingCallback (set : Bool)
  | readAsync (chan : Fin 4) (set : Bool) (t : Nat → Nat)
  | getResponse (chan : Fin 4) (t : Nat → Nat)
  | getType (chan : Fin 4) (t : Nat → Nat)
  | polling (poll : Fin 4 → Bool)
  | position (t : Fin 4 → Nat → Nat)
  | interrupt (comerr : Bool) (sisr : BitVec 4) (val : BitVec 32) (done : Nat) (now : Fin 4 → Nat) (t : Nat → Nat)
  | alarm (chan : Fin 4) (now : Nat)
  | run (t : Fin 4 → Nat → Nat)

def n64Next (s : N64State) : N64Event → N64State
  | .enablePolling mask => { s with enabledBits := s.enabledBits ||| mask }.refreshPositionInterrupt
  | .disablePolling mask => { s with enabledBits := s.enabledBits &&& ~~~mask }.refreshPositionInterrupt
  | .setSamplingCallback set => { s with samplingCallback := set }
  | .readAsync chan set t =>
    match s.readAsync chan (if set then .user else .default) t with
    | some r => .pushRun r
    | none => s
  | .getResponse chan t => s.getResponse chan t
  | .getType chan t => (s.getType chan t).1
  | .polling poll => { s with poll := poll }
  | .position t => .pushRun (s.positionCallback t (List.finRange 4))
  | .interrupt comerr sisr val done now t => s.interrupt comerr sisr val done now t
  | .alarm chan _ => { s with si := siAlarmhandler (s.si.setAlarm chan none) chan }
  | .run t => s.run t

/-- The user's code runs between events, or is called back. -/
def n64Guard (s : N64State) : N64Event → Prop
  | .enablePolling _ | .disablePolling _ | .setSamplingCallback _ | .readAsync _ _ _ | .getResponse _ _ | .getType _ _ | .polling _ =>
    s.idle ∨ s.user
  | .position _ => s.idle ∧ s.position
  | .interrupt _ _ _ _ _ _ => s.idle ∧ s.si.comcsr.tstart ∧ s.si.comcsr.tcintmsk
  | .alarm chan now => s.idle ∧ ∃ deadline ∈ s.si.siAlarm chan, deadline ≤ now
  | .run _ => ¬ s.idle

def n64System : System N64State N64Event where
  enabled := n64Guard
  next := n64Next

instance (s : N64State) : (e : N64Event) → Decidable (n64Guard s e)
  | .enablePolling _ | .disablePolling _ | .setSamplingCallback _ | .readAsync _ _ _ | .getResponse _ _ | .getType _ _ | .polling _ =>
    inferInstanceAs (Decidable (_ ∨ _))
  | .position _ => inferInstanceAs (Decidable (_ ∧ _))
  | .interrupt _ _ _ _ _ _ => inferInstanceAs (Decidable (_ ∧ _ ∧ _))
  | .alarm _ _ => inferInstanceAs (Decidable (_ ∧ _))
  | .run _ => inferInstanceAs (Decidable (¬ _))

instance (s : N64State) (e : N64Event) : Decidable (n64System.enabled s e) := inferInstanceAs (Decidable (n64Guard s e))

def n64Start (tvMode : Nat) : N64State where
  si := siStart
  siType := fun _ => SI_ERROR_NO_RESPONSE
  typeTime := fun _ => 0
  typeCallback := fun _ => false
  poll := fun _ => false
  padFixBits := fun _ => false
  wirelessID := fun _ => 0
  callback := fun _ => none
  samplingCallback := false
  enabledBits := 0
  pollingBits := 0
  responseBits := 0
  tvMode := tvMode
  position := false
  todo := []
  user := false

/-- After `__si_init`, which asks for all types. -/
def n64Init (tvMode : Nat) (t : Fin 4 → Nat → Nat) : N64State :=
  (List.finRange 4).foldl (fun s chan => (s.getType chan (t chan)).1) (n64Start tvMode)

end Libogc
