import Libogc.Ios.Blocks
import Libogc.Ios.Format
/-!
# UsbIoctlv — the messages of `usb.c`

`__usb_isochronous_message`, `__usb_control_message` and `__usb_interrupt_bulk_message` put a message together and send it to IOS.  The old
interface takes each argument in a block of its own; the new one takes the message itself.  A synchronous call frees its blocks when IOS
has replied; an asynchronous one leaves them to its callback.
-/
namespace Libogc

open Bytes Ledger

/-- The union of `struct _usb_msg`, as the new interface reads it. -/
inductive UsbBody where
  | ctrl (bmRequestType bmRequest : UInt8) (wValue wIndex wLength : UInt16) (rpData : Nat)
  | bulk (rpData : Nat) (wLength : UInt16) (bEndpoint : UInt8)
  | intr (rpData : Nat) (wLength : UInt16) (bEndpoint : UInt8)
  | iso (rpData rpPacketSizes : Nat) (bPackets bEndpoint : UInt8)
  | hidIntrDir (dir : Nat)

/-- What the old interface is sent: the arguments that get a block each, and the entries of the vector behind them. -/
structure UsbV0 where
  ioctl : Nat
  cntIn : Fin 8
  cntIo : Fin 8
  blocks : List (List UInt8)
  rest : List Ioctlv

/-- What the new interface is sent: the message, and the entries behind it. -/
structure UsbV5 where
  ioctl : Nat
  cntIn : Fin 8
  cntIo : Fin 8
  body : UsbBody
  rest : List Ioctlv

/-- The heap of the messages and IOS's own, the descriptors of the two hosts, and what the heaps answer: addresses of the cached
segment. -/
structure UsbHost where
  places : Places
  cached : ∀ n a, places.place n = some a → 0x80000000 < a ∧ a < 0xC0000000
  hId : Int
  ipcHid : Int
  venFd : Int
  hidFd : Int

/-- What an asynchronous call leaves to the handler of the reply: the request, and the message with its vector. -/
structure UsbQueued where
  req : Nat
  msg : Nat
  old : Bool
  heapBuffers : Nat
  cb : Bool
  vec : Nat → Ioctlv

/-- What a call sends, with what stands in its blocks or in the message. -/
structure UsbSent where
  fd : Int
  ioctl : Nat
  call : IoctlvCall
  blocks : List (List UInt8)
  body : Option UsbBody

/-- What a call comes to. -/
structure UsbOutcome where
  mem : IosMem
  ret : Int
  sent : Option UsbSent
  queued : Option UsbQueued

def usbMsgSize : Int := 88

section Calls
variable (H : UsbHost) (s : IpcSys Nat) (reply : Int)

/-- The blocks for the arguments, up to the first that cannot be allocated, and whether there is none such. -/
def usbBlocks : List (List UInt8) → IosMem → IosMem × List Nat × Bool
  | [], m => (m, [], true)
  | _ :: blocks, m =>
    match iosAlloc H.places m H.hId 32 with
    | (m, none) => (m, [], false)
    | (m, some a) =>
      let got := usbBlocks blocks m
      (got.1, a :: got.2.1, got.2.2)

/-- The label `done`. -/
def usbDone (ptrs : List Nat) (m : IosMem) : IosMem := ptrs.foldl (fun m ptr => iosFree m H.hId ptr) m

/-- The vector; the message was cleared. -/
def usbVec (entries : List Ioctlv) (i : Nat) : Ioctlv := entries.getD i ⟨0, 0⟩

/-- `IOS_IoctlvAsync` with the message and its callback. -/
def usbIoctlvAsync (m : IosMem) (old : Bool) (msg heapBuffers : Nat) (sent : UsbSent) : UsbOutcome :=
  let got := iosIoctlvAsync H.places m H.ipcHid s sent.call
  { mem := got.1
    ret := got.2.2
    sent := some sent
    queued :=
      if got.2.2 = ipcOk then
        (iosAlloc H.places m H.ipcHid ipcRequestsize).2.map fun req =>
          ⟨req, msg, old, heapBuffers, true, sent.call.replied got.2.1⟩
      else none }

/-- The old interface. -/
def usbMessageV0 (m : IosMem) (deviceId : Int) (msg : Nat) (v0 : UsbV0) (cb : Bool) : UsbOutcome :=
  match usbBlocks H v0.blocks m with
  | (m, ptrs, false) => ⟨iosFree (usbDone H ptrs m) H.hId msg, ipcEnomem, none, none⟩
  | (m, ptrs, true) =>
    let entries := List.zipWith (fun ptr (bytes : List UInt8) => ⟨ptr, bytes.length⟩) ptrs v0.blocks ++ v0.rest
    let call := { cntIn := v0.cntIn, cntIo := v0.cntIo, argv := usbVec entries, isIn := by omega, isIo := by omega }
    let sent := ⟨deviceId, v0.ioctl, call, v0.blocks, none⟩
    if cb then usbIoctlvAsync H s m true msg v0.blocks.length sent
    else
      let got := iosIoctlvCall H.places m H.ipcHid s call reply
      ⟨iosFree (usbDone H ptrs got.1) H.hId msg, got.2.2, some sent, none⟩

/-- The new one. -/
def usbMessageV5 (m : IosMem) (deviceId : Int) (msg : Nat) (v5 : UsbV5) (cb : Bool) : UsbOutcome :=
  let fd := if deviceId < 0 then H.venFd else H.hidFd
  let call := { cntIn := v5.cntIn, cntIo := v5.cntIo, argv := usbVec (⟨msg, 64⟩ :: v5.rest), isIn := by omega, isIo := by omega }
  let sent := ⟨fd, v5.ioctl, call, [], some v5.body⟩
  if cb then usbIoctlvAsync H s m false msg 0 sent
  else
    let got := iosIoctlvCall H.places m H.ipcHid s call reply
    ⟨iosFree got.1 H.hId msg, got.2.2, some sent, none⟩

/-- `device_id>=0 && device_id<0x20` -/
def usbOld (deviceId : Int) : Prop := 0 ≤ deviceId ∧ deviceId < 0x20

instance instDecidableUsbOld (deviceId : Int) : Decidable (usbOld deviceId) := inferInstanceAs (Decidable (_ ∧ _))

/-- What the three functions have in common. -/
def usbMessage (m : IosMem) (deviceId : Int) (v0 : UsbV0) (v5 : UsbV5) (cb : Bool) : UsbOutcome :=
  match iosAlloc H.places m H.hId usbMsgSize with
  | (m, none) => ⟨m, ipcEnomem, none, none⟩
  | (m, some msg) =>
    if usbOld deviceId then usbMessageV0 H s reply m deviceId msg v0 cb else usbMessageV5 H s reply m deviceId msg v5 cb

/-- The loop of `__usbv0_messageCB`, over `n` buffers from the buffer `i` on. -/
def usbFreeVec (vec : Nat → Ioctlv) : Nat → Nat → IosMem → IosMem
  | 0, _, m => m
  | n + 1, i, m => usbFreeVec vec n (i + 1) (if (vec i).data ≠ 0 then iosFree m H.hId (vec i).data else m)

/-- `__usbv0_messageCB`, with the runs of the user's callback. -/
def usbv0MessageCB (q : UsbQueued) (m : IosMem) : IosMem × Nat :=
  (iosFree (usbFreeVec H q.vec q.heapBuffers 0 m) H.hId q.msg, if q.cb then 1 else 0)

/-- `__usbv5_messageCB` -/
def usbv5MessageCB (q : UsbQueued) (m : IosMem) : IosMem × Nat := (iosFree m H.hId q.msg, if q.cb then 1 else 0)

/-- What the handler of the reply does: the callback of a request that was queued, and then the request itself. -/
def UsbOutcome.replied (o : UsbOutcome) : IosMem × Nat :=
  match o.queued with
  | none => (o.mem, 0)
  | some q =>
    let got := if q.old then usbv0MessageCB H q o.mem else usbv5MessageCB H q o.mem
    (iosFree got.1 H.ipcHid q.req, got.2)

def USBV0_IOCTL_CTRLMSG : Nat := 0
def USBV0_IOCTL_INTRMSG : Nat := 2
def USBV0_IOCTL_ISOMSG : Nat := 9
def USBV5_IOCTL_CTRLMSG : Nat := 18
def USBV5_IOCTL_INTRMSG : Nat := 19
def USBV5_IOCTL_ISOMSG : Nat := 20
def USBV5_IOCTL_BULKMSG : Nat := 21

/-- The bit of an endpoint's address, or of a request's type, that says that the data come in. -/
def usbDir (b : UInt8) : Fin 8 := if b &&& 0x80 ≠ 0 then 1 else 0

/-- A call whose arguments are checked first. -/
def usbChecked (refused : Bool) (m : IosMem) (deviceId : Int) (v0 : UsbV0) (v5 : UsbV5) (cb : Bool) : UsbOutcome :=
  if refused then ⟨m, ipcEinval, none, none⟩ else usbMessage H s reply m deviceId v0 v5 cb

/-- `wLength`, a sum in sixteen bits. -/
def usbIsoLength (bPackets : UInt8) (sizes : Nat → UInt16) : UInt16 := (List.range bPackets.toNat).foldl (fun n i => n + sizes i) 0

def usbIsoRefused (bPackets : UInt8) (rpPacketSizes : Nat) (sizes : Nat → UInt16) (rpData : Nat) : Bool :=
  usbIsoLength bPackets sizes = 0 ∨ rpData % 32 ≠ 0 ∨ rpPacketSizes % 32 ≠ 0 ∨ bPackets = 0 ∨ rpPacketSizes = 0 ∨ rpData = 0

/-- `__usb_isochronous_message`; `sizes` is what stands at `rpPacketSizes`. -/
def usbIsochronousMessage (m : IosMem) (deviceId : Int) (bEndpoint bPackets : UInt8) (rpPacketSizes : Nat) (sizes : Nat → UInt16)
    (rpData : Nat) (cb : Bool) : UsbOutcome :=
  let wLength := usbIsoLength bPackets sizes
  let packetSizes := ⟨rpPacketSizes, 2 * bPackets.toNat⟩
  let data := ⟨rpData, wLength.toNat⟩
  usbChecked H s reply (usbIsoRefused bPackets rpPacketSizes sizes rpData) m deviceId
    { ioctl := USBV0_IOCTL_ISOMSG
      cntIn := 3
      cntIo := 2
      -- the length is not swapped
      blocks := [[bEndpoint], beBytes 2 wLength.toNat, [bPackets]]
      rest := [packetSizes, data] }
    { ioctl := USBV5_IOCTL_ISOMSG
      cntIn := 2 - usbDir bEndpoint
      cntIo := 2 + usbDir bEndpoint
      body := .iso rpData rpPacketSizes bPackets bEndpoint
      rest := [packetSizes, data, packetSizes] } cb

/-- A length without data, data without a length, or data that are not aligned. -/
def usbDataRefused (wLength : UInt16) (rpData : Nat) : Bool :=
  rpData % 32 ≠ 0 ∨ (wLength ≠ 0 ∧ rpData = 0) ∨ (wLength = 0 ∧ rpData ≠ 0)

/-- `__usb_control_message` -/
def usbControlMessage (m : IosMem) (deviceId : Int) (bmRequestType bmRequest : UInt8) (wValue wIndex wLength : UInt16) (rpData : Nat)
    (cb : Bool) : UsbOutcome :=
  let bswap16 (v : UInt16) := (beBytes 2 v.toNat).reverse
  let data := ⟨rpData, wLength.toNat⟩
  usbChecked H s reply (usbDataRefused wLength rpData) m deviceId
    { ioctl := USBV0_IOCTL_CTRLMSG
      cntIn := 6
      cntIo := 1
      blocks := [[bmRequestType], [bmRequest], bswap16 wValue, bswap16 wIndex, bswap16 wLength, [0]]
      rest := [data] }
    { ioctl := USBV5_IOCTL_CTRLMSG
      cntIn := 2 - usbDir bmRequestType
      cntIo := usbDir bmRequestType
      body := .ctrl bmRequestType bmRequest wValue wIndex wLength rpData
      rest := [data] } cb

/-- `__usb_interrupt_bulk_message` -/
def usbInterruptBulkMessage (m : IosMem) (deviceId : Int) (ioctl : Nat) (bEndpoint : UInt8) (wLength : UInt16) (rpData : Nat)
    (cb : Bool) : UsbOutcome :=
  let data := ⟨rpData, wLength.toNat⟩
  usbChecked H s reply (usbDataRefused wLength rpData) m deviceId
    { ioctl := ioctl
      cntIn := 2
      cntIo := 1
      blocks := [[bEndpoint], beBytes 2 wLength.toNat]
      rest := [data] }
    { ioctl := if ioctl = USBV0_IOCTL_INTRMSG then USBV5_IOCTL_INTRMSG else USBV5_IOCTL_BULKMSG
      cntIn := 2 - usbDir bEndpoint
      cntIo := usbDir bEndpoint
      body :=
        if ioctl = USBV0_IOCTL_INTRMSG then
          -- HID is told the direction only
          if 0 ≤ deviceId then .hidIntrDir (if usbDir bEndpoint = 0 then 1 else 0) else .intr rpData wLength bEndpoint
        else .bulk rpData wLength bEndpoint
      rest := [data] } cb

/-- The three functions with their arguments. -/
inductive UsbMsgArgs where
  | isochronous (bEndpoint bPackets : UInt8) (rpPacketSizes : Nat) (sizes : Nat → UInt16) (rpData : Nat)
  | control (bmRequestType bmRequest : UInt8) (wValue wIndex wLength : UInt16) (rpData : Nat)
  | interruptBulk (ioctl : Nat) (bEndpoint : UInt8) (wLength : UInt16) (rpData : Nat)

def usbMsgCall (m : IosMem) (deviceId : Int) (cb : Bool) : UsbMsgArgs → UsbOutcome
  | .isochronous bEndpoint bPackets rpPacketSizes sizes rpData =>
    usbIsochronousMessage H s reply m deviceId bEndpoint bPackets rpPacketSizes sizes rpData cb
  | .control bmRequestType bmRequest wValue wIndex wLength rpData =>
    usbControlMessage H s reply m deviceId bmRequestType bmRequest wValue wIndex wLength rpData cb
  | .interruptBulk ioctl bEndpoint wLength rpData => usbInterruptBulkMessage H s reply m deviceId ioctl bEndpoint wLength rpData cb

end Calls

def UsbMsgArgs.refused : UsbMsgArgs → Bool
  | .isochronous _ bPackets rpPacketSizes sizes rpData => usbIsoRefused bPackets rpPacketSizes sizes rpData
  | .control _ _ _ _ wLength rpData => usbDataRefused wLength rpData
  | .interruptBulk _ _ wLength rpData => usbDataRefused wLength rpData

/-- The blocks a message takes: its own, and those of the arguments for the old interface. -/
def UsbMsgArgs.blocks (deviceId : Int) : UsbMsgArgs → Nat
  | .isochronous .. => if usbOld deviceId then 4 else 1
  | .control .. => if usbOld deviceId then 7 else 1
  | .interruptBulk .. => if usbOld deviceId then 3 else 1

/-! ## Who owns the blocks -/

/-- **What a call owes** that began with the memory `m`.  A synchronous call, or one that returns an error, has freed its blocks and does
not run the callback; an asynchronous one that succeeds has freed them after the reply, and the callback runs once. -/
def UsbOwned (H : UsbHost) (m : IosMem) (cb : Bool) (o : UsbOutcome) : Prop :=
  (cb = false ∨ o.ret < 0 → (∃ es, o.mem.log = m.log ++ es ∧ Settled es) ∧ (o.replied H).2 = 0) ∧
    (cb = true ∧ 0 ≤ o.ret → (∃ es, (o.replied H).1.log = m.log ++ es ∧ Settled es) ∧ (o.replied H).2 = 1)

/-- An asynchronous call that gets its `n` blocks gets its request too, and there is room in the ring. -/
def UsbQueues (H : UsbHost) (m : IosMem) (s : IpcSys Nat) (n : Nat) (cb : Bool) : Prop :=
  cb = true → (0 ≤ H.hId ∧ H.hId < ipcNumheaps) → H.places.Serves m.tries n →
    H.places.Requests H.ipcHid (m.tries + n) ∧ s.cnt < 16

section Owned
variable {H : UsbHost} {s : IpcSys Nat} {reply : Int} {log₀ : List (Event (IosArena × Nat))} {m m₀ : IosMem}
  {ks : List (IosArena × Nat)} {cb : Bool} {o : UsbOutcome}

/-! ## The blocks of the arguments -/

/-- The blocks of the messages' heap. -/
def UsbHost.own (H : UsbHost) (ptrs : List Nat) : List (IosArena × Nat) := ptrs.map fun a => (.ipc H.hId, a)

theorem usbBlocks_owns (hhid : 0 ≤ H.hId ∧ H.hId < ipcNumheaps) (blocks : List (List UInt8)) (h : Owns H.places log₀ m ks) :
    Owns H.places log₀ (usbBlocks H blocks m).1 (H.own (usbBlocks H blocks m).2.1 ++ ks) ∧
      ((usbBlocks H blocks m).2.2 = true ↔ H.places.Serves m.tries blocks.length) ∧
      ((usbBlocks H blocks m).2.2 = true → (usbBlocks H blocks m).1.tries = m.tries + blocks.length ∧
        (usbBlocks H blocks m).2.1.length = blocks.length) := by
  induction blocks generalizing m ks with
  | nil => exact ⟨h, iff_of_true rfl fun k hk => absurd hk (Nat.not_lt_zero k), fun _ => ⟨rfl, rfl⟩⟩
  | cons bytes blocks ih =>
    rw [List.length_cons, Places.serves_succ]
    rcases h.alloc hhid (show 0 < (32 : Int) by decide) with ⟨hno, m1, heq, h1⟩ | ⟨a, m1, hat, heq, htries, -, h1⟩
    · have hgot : usbBlocks H (bytes :: blocks) m = (m1, [], false) := by rw [usbBlocks, heq]
      rw [hgot, hno]
      exact ⟨h1, iff_of_false Bool.false_ne_true fun hs => absurd hs.1 Bool.false_ne_true, fun hf => absurd hf Bool.false_ne_true⟩
    · obtain ⟨h2, hall, hlen⟩ := ih h1
      have hgot : usbBlocks H (bytes :: blocks) m =
          ((usbBlocks H blocks m1).1, a :: (usbBlocks H blocks m1).2.1, (usbBlocks H blocks m1).2.2) := by rw [usbBlocks, heq]
      rw [hgot, hat]
      refine ⟨h2.perm List.perm_middle.symm, ?_, fun ht => ?_⟩
      · rw [hall, htries]
        exact ⟨fun hs => ⟨rfl, hs⟩, fun hs => hs.2⟩
      · obtain ⟨ht1, ht2⟩ := hlen ht
        refine ⟨?_, congrArg Nat.succ ht2⟩
        rw [ht1, htries]
        omega

theorem usbDone_owns (hhid : 0 ≤ H.hId ∧ H.hId < ipcNumheaps) (ptrs : List Nat) (h : Owns H.places log₀ m (H.own ptrs ++ ks)) :
    Owns H.places log₀ (usbDone H ptrs m) ks := by
  induction ptrs generalizing m with
  | nil => exact h
  | cons a ptrs ih => exact ih (h.free hhid)

/-! ## The callbacks -/

variable {ptrs : List Nat} {i a msg : Nat}

/-- The callback finds the blocks in the vector, and frees them as `done` does. -/
theorem usbFreeVec_done {vec : Nat → Ioctlv} (hvec : ∀ j a, ptrs[j]? = some a → (vec (i + j)).data = a ∧ a ≠ 0) :
    usbFreeVec H vec ptrs.length i m = usbDone H ptrs m := by
  induction ptrs generalizing i m with
  | nil => rfl
  | cons a ptrs ih =>
    obtain ⟨hdata, hne⟩ := hvec 0 a rfl
    rw [Nat.add_zero] at hdata
    rw [List.length_cons, usbFreeVec, hdata, if_pos hne]
    refine ih fun j b hj => ?_
    rw [Nat.add_assoc, Nat.add_comm 1]
    exact hvec (j + 1) b hj

theorem usbv0MessageCB_owns (hhid : 0 ≤ H.hId ∧ H.hId < ipcNumheaps) {q : UsbQueued} (hlen : q.heapBuffers = ptrs.length)
    (hvec : ∀ j a, ptrs[j]? = some a → (q.vec j).data = a ∧ a ≠ 0) (h : Owns H.places log₀ m (H.own ptrs ++ (.ipc H.hId, q.msg) :: ks)) :
    Owns H.places log₀ (usbv0MessageCB H q m).1 ks := by
  unfold usbv0MessageCB
  rw [hlen, usbFreeVec_done fun j a hj => (Nat.zero_add j).symm ▸ hvec j a hj]
  exact (usbDone_owns hhid ptrs h).free hhid

/-- An entry comes back from IOS as it was when it is in a block of the heap. -/
theorem IoctlvCall.returned (c : IoctlvCall) (hdata : 0x80000000 < (c.argv i).data ∧ (c.argv i).data < 0xC0000000)
    (hlen : (c.argv i).len ≠ 0) : c.replied c.sent i = c.argv i := by
  have hcached : (c.argv i).cached := .inr ⟨Nat.le_of_lt hdata.1, hdata.2⟩
  have hback := (Ioctlv.roundtrip_iff hcached).2 (.inr ⟨hlen, Nat.ne_of_gt hdata.1⟩)
  rw [c.replied_apply, c.sent_apply]
  by_cases hi : i < c.cntIn + c.cntIo
  · rw [if_pos hi, if_pos hi, hback]
  · rw [if_neg hi, if_neg hi]

theorem usbVec_block {blocks : List (List UInt8)} (hlen : ptrs.length = blocks.length) (rest : List Ioctlv) {j : Nat}
    (hj : ptrs[j]? = some a) : ∃ bytes ∈ blocks,
      usbVec (List.zipWith (fun ptr (bytes : List UInt8) => ⟨ptr, bytes.length⟩) ptrs blocks ++ rest) j = ⟨a, bytes.length⟩ := by
  obtain ⟨hlt, ha⟩ := List.getElem?_eq_some_iff.1 hj
  have hlt' : j < blocks.length := hlen ▸ hlt
  refine ⟨blocks[j], List.getElem_mem hlt', ?_⟩
  have hz : j < (List.zipWith (fun ptr (bytes : List UInt8) => (⟨ptr, bytes.length⟩ : Ioctlv)) ptrs blocks).length := by
    rw [List.length_zipWith]
    omega
  unfold usbVec
  rw [List.getD_append _ _ _ _ hz, List.getD_eq_getElem _ _ hz, List.getElem_zipWith, ha]

/-! ## The calls -/

/-- A call that returns with nothing in hand, and is not asynchronous or fails. -/
theorem usbOwned_returned (h : Owns H.places m₀.log o.mem []) (hq : o.queued = none) (hret : cb = false ∨ o.ret < 0) :
    UsbOwned H m₀ cb o := by
  have hreplied : o.replied H = (o.mem, 0) := by
    unfold UsbOutcome.replied
    rw [hq]
  refine ⟨fun _ => ⟨h.settled_iff.2 rfl, by rw [hreplied]⟩, fun hok => ?_⟩
  rcases hret with hsync | hneg
  · exact absurd (hok.1.symm.trans hsync) (by decide)
  · exact absurd hok.2 (Int.not_le.2 hneg)

/-- What `IOS_IoctlvAsync` comes to: the request is queued, or the call returns an error and what it held is still there. -/
theorem usbIoctlvAsync_spec (h : Owns H.places log₀ m ks) (old : Bool) (msg n : Nat) (sent : UsbSent) :
    ((H.places.Requests H.ipcHid m.tries ∧ s.cnt < 16) ∧ (usbIoctlvAsync H s m old msg n sent).ret = 0 ∧
        ∃ req, (usbIoctlvAsync H s m old msg n sent).queued = some ⟨req, msg, old, n, true, sent.call.replied sent.call.sent⟩ ∧
          Owns H.places log₀ (usbIoctlvAsync H s m old msg n sent).mem ((.ipc H.ipcHid, req) :: ks)) ∨
      (¬ (H.places.Requests H.ipcHid m.tries ∧ s.cnt < 16) ∧ (usbIoctlvAsync H s m old msg n sent).ret < 0 ∧
        (usbIoctlvAsync H s m old msg n sent).queued = none ∧ Owns H.places log₀ (usbIoctlvAsync H s m old msg n sent).mem ks) := by
  by_cases hq : H.places.Requests H.ipcHid m.tries ∧ s.cnt < 16
  · obtain ⟨⟨h0, h1, hplace⟩, hcnt⟩ := hq
    rcases h.alloc ⟨h0, h1⟩ (show 0 < ipcRequestsize by decide) with ⟨hno, -⟩ | ⟨req, m1, -, heq, -, -, howns⟩
    · rw [hno] at hplace
      cases hplace
    · have hgot : iosIoctlvAsync H.places m H.ipcHid s sent.call = (m1, sent.call.sent, ipcOk) := by
        unfold iosIoctlvAsync
        rw [heq]
        dsimp only
        rw [ipcAsyncQueue_result, if_neg (Nat.not_le.2 hcnt), if_pos rfl]
      unfold usbIoctlvAsync
      rw [hgot, heq]
      exact .inl ⟨⟨⟨h0, h1, hplace⟩, hcnt⟩, rfl, req, rfl, howns⟩
  · have hno : ¬ ((iosAlloc H.places m H.ipcHid ipcRequestsize).2.isSome ∧ s.cnt < 16) := by
      rw [iosAlloc_request_iff]
      exact hq
    obtain ⟨hmem, hret⟩ := iosIoctlvAsync_mem H.places m H.ipcHid s sent.call hno
    refine .inr ⟨hq, hret, if_neg (Int.ne_of_lt hret), h.requested hmem⟩

/-- **The asynchronous call** owes what it holds to its callback, and nobody frees it when the request is not queued. -/
theorem usbIoctlvAsync_owned (h : Owns H.places m₀.log m ks) (hks : ks ≠ []) (old : Bool) (msg n : Nat) (sent : UsbSent)
    (hcb : ∀ req mem, Owns H.places m₀.log mem (ks ++ [(.ipc H.ipcHid, req)]) →
      Owns H.places m₀.log (if old then usbv0MessageCB H ⟨req, msg, old, n, true, sent.call.replied sent.call.sent⟩ mem
        else usbv5MessageCB H ⟨req, msg, old, n, true, sent.call.replied sent.call.sent⟩ mem).1 [(.ipc H.ipcHid, req)]) :
    UsbOwned H m₀ true (usbIoctlvAsync H s m old msg n sent) ↔ H.places.Requests H.ipcHid m.tries ∧ s.cnt < 16 := by
  rcases usbIoctlvAsync_spec (s := s) h old msg n sent with ⟨hq, hret, req, hqueued, howns⟩ | ⟨hq, hret, -, howns⟩
  · refine iff_of_true ⟨fun hfail => ?_, fun _ => ?_⟩ hq
    · rcases hfail with hsync | hneg
      · cases hsync
      · exact absurd hret (Int.ne_of_lt hneg)
    · have hafter := hcb req _ (howns.perm (List.perm_append_singleton _ _))
      unfold UsbOutcome.replied
      rw [hqueued]
      exact ⟨(hafter.free ⟨hq.1.1, hq.1.2.1⟩).settled_iff.2 rfl, by cases old <;> rfl⟩
  · refine iff_of_false (fun howned => ?_) hq
    exact hks (howns.settled_iff.1 (howned.1 (.inr hret)).1)

theorem Owns.cached (h : Owns H.places log₀ m ks) {arena : IosArena} (ha : (arena, a) ∈ ks) : 0x80000000 < a ∧ a < 0xC0000000 := by
  obtain ⟨k, -, hk⟩ := h.known _ ha
  exact H.cached k a hk

theorem usbIoctlvCall_owns (h : Owns H.places log₀ m ks) (call : IoctlvCall) (reply : Int) :
    Owns H.places log₀ (iosIoctlvCall H.places m H.ipcHid s call reply).1 ks :=
  h.requested (iosIoctlvCall_mem ..)

theorem usbMessageV5_owned (hhid : 0 ≤ H.hId ∧ H.hId < ipcNumheaps) (h : Owns H.places m₀.log m [(.ipc H.hId, msg)])
    (deviceId : Int) (v5 : UsbV5) (cb : Bool) : UsbOwned H m₀ cb (usbMessageV5 H s reply m deviceId msg v5 cb) ↔
      (cb = true → H.places.Requests H.ipcHid m.tries ∧ s.cnt < 16) := by
  unfold usbMessageV5
  cases cb with
  | false =>
    refine iff_of_true (usbOwned_returned ?_ rfl (.inl rfl)) fun ht => absurd ht Bool.false_ne_true
    exact (usbIoctlvCall_owns h _ _).free hhid
  | true =>
    exact (usbIoctlvAsync_owned h (List.cons_ne_nil _ _) false msg 0 _ fun req mem hmem => hmem.free hhid).trans
      ⟨fun hq _ => hq, fun hq => hq rfl⟩

theorem usbMessageV0_owned (hhid : 0 ≤ H.hId ∧ H.hId < ipcNumheaps) (h : Owns H.places m₀.log m [(.ipc H.hId, msg)])
    (deviceId : Int) (v0 : UsbV0) (hv0 : ∀ bytes ∈ v0.blocks, bytes ≠ []) (cb : Bool) :
    UsbOwned H m₀ cb (usbMessageV0 H s reply m deviceId msg v0 cb) ↔
      (cb = true → H.places.Serves m.tries v0.blocks.length →
        H.places.Requests H.ipcHid (m.tries + v0.blocks.length) ∧ s.cnt < 16) := by
  obtain ⟨howns, hall, hlen⟩ := usbBlocks_owns hhid v0.blocks h
  unfold usbMessageV0
  generalize usbBlocks H v0.blocks m = got at howns hall hlen
  obtain ⟨m1, ptrs, all⟩ := got
  cases all with
  | false =>
    refine iff_of_true (usbOwned_returned ((usbDone_owns hhid ptrs howns).free hhid) rfl (.inr ipcEnomem_neg)) fun _ hs => ?_
    exact absurd (hall.2 hs) Bool.false_ne_true
  | true =>
    obtain ⟨htries, hptrs⟩ := hlen rfl
    have hserves := hall.1 rfl
    cases cb with
    | false =>
      refine iff_of_true (usbOwned_returned ?_ rfl (.inl rfl)) fun ht => absurd ht Bool.false_ne_true
      exact (usbDone_owns hhid ptrs (usbIoctlvCall_owns howns _ _)).free hhid
    | true =>
      dsimp only at howns htries hptrs ⊢
      rw [← htries]
      refine (usbIoctlvAsync_owned howns (by simp) true msg v0.blocks.length _ fun req mem hmem => ?_).trans
        ⟨fun hq _ _ => hq, fun hq => hq rfl hserves⟩
      refine usbv0MessageCB_owns hhid hptrs.symm (fun j a hj => ?_) (by rwa [List.append_assoc] at hmem)
      have hmem' : (IosArena.ipc H.hId, a) ∈ H.own ptrs ++ [(IosArena.ipc H.hId, msg)] :=
        List.mem_append_left _ (List.mem_map_of_mem (List.mem_of_getElem? hj))
      have hcached := howns.cached hmem'
      obtain ⟨bytes, hbytes, hvec⟩ := usbVec_block hptrs v0.rest hj
      dsimp only
      rw [IoctlvCall.returned _ (by dsimp only; rw [hvec]; exact hcached)
        (by dsimp only; rw [hvec]; exact fun hz => hv0 bytes hbytes (List.length_eq_zero_iff.1 hz))]
      dsimp only
      rw [hvec]
      exact ⟨rfl, by omega⟩

/-- The blocks of a message, its own included. -/
def usbMessageBlocks (deviceId : Int) (v0 : UsbV0) : Nat := if usbOld deviceId then 1 + v0.blocks.length else 1

theorem usbMessage_owned (m : IosMem) (deviceId : Int) (v0 : UsbV0) (hv0 : ∀ bytes ∈ v0.blocks, bytes ≠ []) (v5 : UsbV5) (cb : Bool) :
    UsbOwned H m cb (usbMessage H s reply m deviceId v0 v5 cb) ↔ UsbQueues H m s (usbMessageBlocks deviceId v0) cb := by
  unfold usbMessage UsbQueues usbMessageBlocks
  by_cases hhid : 0 ≤ H.hId ∧ H.hId < ipcNumheaps
  · rcases (Owns.start H.places m).alloc hhid (show 0 < usbMsgSize by decide) with ⟨hno, m1, heq, h1⟩ | ⟨msg, m1, hat, heq, htries, -, h1⟩
    · rw [heq]
      refine iff_of_true (usbOwned_returned h1 rfl (.inr ipcEnomem_neg)) fun _ _ hs => ?_
      have hfirst := hs 0 (by split <;> omega)
      rw [Nat.add_zero, hno] at hfirst
      cases hfirst
    · rw [heq]
      dsimp only
      have hone : H.places.Serves m.tries 1 := by
        rw [Places.serves_succ, hat]
        exact ⟨rfl, fun k hk => absurd hk (Nat.not_lt_zero k)⟩
      by_cases hold : usbOld deviceId
      · rw [if_pos hold, if_pos hold, usbMessageV0_owned hhid h1 deviceId v0 hv0 cb, htries, Places.Serves.add, Nat.add_assoc]
        exact ⟨fun hq hc _ hs => hq hc hs.2, fun hq hc hs => hq hc hhid ⟨hone, hs⟩⟩
      · rw [if_neg hold, if_neg hold, usbMessageV5_owned hhid h1 deviceId v5 cb, htries]
        exact ⟨fun hq hc _ _ => hq hc, fun hq hc => hq hc hhid hone⟩
  · rw [iosAlloc_invalid hhid]
    exact iff_of_true (usbOwned_returned (Owns.start H.places m) rfl (.inr ipcEnomem_neg)) fun _ hv _ => absurd hv hhid

theorem usbChecked_owned (refused : Bool) (m : IosMem) (deviceId : Int) (v0 : UsbV0) (hv0 : ∀ bytes ∈ v0.blocks, bytes ≠ []) (v5 : UsbV5)
    (cb : Bool) : UsbOwned H m cb (usbChecked H s reply refused m deviceId v0 v5 cb) ↔
      (refused = false → UsbQueues H m s (usbMessageBlocks deviceId v0) cb) := by
  unfold usbChecked
  cases refused with
  | true => exact iff_of_true (usbOwned_returned (Owns.start H.places m) rfl (.inr (show ipcEinval < 0 by decide))) fun hf => absurd hf (by decide)
  | false => exact (usbMessage_owned m deviceId v0 hv0 v5 cb).trans ⟨fun hq _ => hq, fun hq => hq rfl⟩

/-- **When the messages free their blocks.**  Every block is freed once, and the user's callback runs just when it is owed, except in an
asynchronous call that gets all its blocks and then no request, or no room in the ring. -/
theorem usb_message_owned (H : UsbHost) (s : IpcSys Nat) (reply : Int) (m : IosMem) (deviceId : Int) (cb : Bool) (a : UsbMsgArgs) :
    UsbOwned H m cb (usbMsgCall H s reply m deviceId cb a) ↔ (a.refused = false → UsbQueues H m s (a.blocks deviceId) cb) := by
  have hblocks : ∀ v n, (beBytes (n + 1) v) ≠ [] ∧ (beBytes (n + 1) v).reverse ≠ [] := fun v n =>
    ⟨List.ne_nil_of_length_pos (by simp), List.ne_nil_of_length_pos (by simp)⟩
  cases a with
  | isochronous bEndpoint bPackets rpPacketSizes sizes rpData =>
    refine usbChecked_owned _ m deviceId _ (fun bytes hb => ?_) _ cb
    rcases List.mem_cons.1 hb with rfl | hb
    · exact List.cons_ne_nil _ _
    rcases List.mem_cons.1 hb with rfl | hb
    · exact (hblocks _ _).1
    rw [List.mem_singleton.1 hb]
    exact List.cons_ne_nil _ _
  | control bmRequestType bmRequest wValue wIndex wLength rpData =>
    refine usbChecked_owned _ m deviceId _ (fun bytes hb => ?_) _ cb
    simp only [List.mem_cons, List.not_mem_nil, or_false] at hb
    rcases hb with rfl | rfl | rfl | rfl | rfl | rfl
    · exact List.cons_ne_nil _ _
    · exact List.cons_ne_nil _ _
    · exact (hblocks _ _).2
    · exact (hblocks _ _).2
    · exact (hblocks _ _).2
    · exact List.cons_ne_nil _ _
  | interruptBulk ioctl bEndpoint wLength rpData =>
    refine usbChecked_owned _ m deviceId _ (fun bytes hb => ?_) _ cb
    simp only [List.mem_cons, List.not_mem_nil, or_false] at hb
    rcases hb with rfl | rfl
    · exact List.cons_ne_nil _ _
    · exact (hblocks _ _).1

end Owned

/-- Heaps that run out after `n` blocks, of 64 at most. -/
def usbHostFirst (n : Nat) : UsbHost where
  places := {
    place := fun k => if k < n ∧ k < 64 then some (0x90000000 + 64 * (k + 1)) else none
    pos := fun k a h => by
      split at h
      · cases h; omega
      · cases h
    inj := fun j k a h h' => by
      split at h
      · split at h'
        · have hj := Option.some.inj h
          have hk := Option.some.inj h'
          omega
        · cases h'
      · cases h }
  cached k a h := by
    dsimp only at h
    split at h
    · have ha := Option.some.inj h
      omega
    · cases h
  hId := 0
  ipcHid := 1
  venFd := 3
  hidFd := 4

/-- A bulk message without data gets its three blocks and no request: the call returns an error, and nobody frees them. -/
theorem usb_message_stranded :
    ¬ UsbOwned (usbHostFirst 3) ⟨0, []⟩ true
      (usbInterruptBulkMessage (usbHostFirst 3) (ipcStart fun _ => ioctlvReq false) 0 ⟨0, []⟩ 2 1 0x81 0 0 true) := by
  intro howned
  obtain ⟨⟨es, hlog, hs⟩, -⟩ := howned.1 (.inr (by decide +kernel))
  rw [List.nil_append] at hlog
  rw [← hlog] at hs
  exact absurd hs (by decide +kernel)

end Libogc
