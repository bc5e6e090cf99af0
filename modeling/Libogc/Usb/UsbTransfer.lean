import Libogc.Lwp.Watchdog
import Libogc.Usb.UsbStorage
/-!
# UsbTransfer — reads and writes of `usbstorage.c`

A transfer is one cycle with a command for the sectors.  When the drive may be asleep the unit is mounted again first, in cycles of its
own, and its sizes are read anew.  Each cycle has its own answers of the device, and its own place on the stack for what comes in.
-/
namespace Libogc

open Bytes

def USBSTORAGE_ESENSE : Int := -10001
def USBSTORAGE_ESTATUS : Int := -10006
def USBSTORAGE_EINIT : Int := -10009

def IPC_EINVAL : Int := -4
def INVALID_LUN : Int := -2

def SCSI_TEST_UNIT_READY : UInt8 := 0x00
def SCSI_REQUEST_SENSE : UInt8 := 0x03
def SCSI_INQUIRY : UInt8 := 0x12
def SCSI_READ_CAPACITY : UInt8 := 0x25
def SCSI_READ_10 : UInt8 := 0x28
def SCSI_WRITE_10 : UInt8 := 0x2A
def SCSI_READ_16 : UInt8 := 0x88
def SCSI_WRITE_16 : UInt8 := 0x8A
def SCSI_SERVICE_ACTION_IN_16 : UInt8 := 0x9E

def SCSI_SAI_READ_CAPACITY_16 : UInt8 := 0x10

def SCSI_SENSE_REPLY_SIZE : Nat := 18
def SCSI_SENSE_NOT_READY : Nat := 0x02
def SCSI_SENSE_MEDIUM_ERROR : Nat := 0x03
def SCSI_SENSE_HARDWARE_ERROR : Nat := 0x04

/-- `diff_sec`, with the clock of the Wii. -/
def diffSec (start stop : Nat) : Nat := u32 (diffTicks start stop / (243000000 / 4000 * 1000))

/-- The handle with its units, `usb_last_used`, and the cycles there were, with their commands. -/
structure UsbDisk where
  storage : UsbStorage
  maxLun : UInt8
  sectorSize : UInt8 → UInt32
  nSectors : UInt8 → UInt64
  lastUsed : Nat
  cycles : Nat
  commands : List UsbCommand

/-- `memset` with zeros. -/
def UsbDisk.memset (d : UsbDisk) (o n : Nat) : UsbDisk :=
  { d with storage := { d.storage with mem := usbMemcpy d.storage.mem o (List.replicate n 0) } }

def UsbDisk.response (d : UsbDisk) (o n : Nat) : List UInt8 := read d.storage.mem o n

section Calls
variable (w : Nat → UsbDevice) (stack : Nat → Nat) (h : UsbHandle)

/-- A cycle with the device's next answers. -/
def UsbDisk.cycle (c : UsbCommand) (d : UsbDisk) : Option (UsbDisk × Int) :=
  (usbCycle (w d.cycles) h c d.storage).map fun p =>
    ({ d with storage := p.1, cycles := d.cycles + 1, commands := d.commands ++ [c] }, p.2)

/-- `__usbstorage_clearerrors` -/
def usbstorageClearerrors (lun : UInt8) (d : UsbDisk) : Option (UsbDisk × Int) :=
  (d.cycle w h ⟨lun, 0, 0, [SCSI_TEST_UNIT_READY, 0, 0, 0, 0, 0], false⟩).bind fun (d, retval) =>
    if retval < 0 then some (d, retval)
    else if d.storage.status ≠ 0 then
      let sense := stack d.cycles
      let cmd := [SCSI_REQUEST_SENSE, 0, 0, 0, UInt8.ofNat SCSI_SENSE_REPLY_SIZE, 0]
      ((d.memset sense SCSI_SENSE_REPLY_SIZE).cycle w h ⟨lun, sense, SCSI_SENSE_REPLY_SIZE, cmd, false⟩).map fun (d, retval) =>
        let key := (d.storage.mem (sense + 2)).toNat % 16
        if retval ≥ 0 ∧ key = SCSI_SENSE_NOT_READY then (d, USBSTORAGE_EINIT)
        else if retval ≥ 0 ∧ (key = SCSI_SENSE_MEDIUM_ERROR ∨ key = SCSI_SENSE_HARDWARE_ERROR) then (d, USBSTORAGE_ESENSE)
        else (d, retval)
    else some (d, retval)

/-- The loop of `USBStorage_Inquiry`, with `n` tries left; the type of the device is the result. -/
def usbStorageInquiry (lun : UInt8) : Nat → UsbDisk → Int → Option (UsbDisk × Int)
  | 0, d, retval => some (d, retval)
  | n + 1, d, _ =>
    let response := stack d.cycles
    ((d.memset response 36).cycle w h ⟨lun, response, 36, [SCSI_INQUIRY, 0, 0, 0, 36, 0], false⟩).bind fun (d, retval) =>
      if retval ≥ 0 then some (d, ((d.storage.mem response).toNat % 32 : Nat)) else usbStorageInquiry lun n d retval

/-- `USBStorage_ReadCapacity`, into the unit's own sizes. -/
def usbStorageReadCapacity (lun : UInt8) (d : UsbDisk) : Option (UsbDisk × Int) :=
  let response := stack d.cycles
  (d.cycle w h ⟨lun, response, 8, SCSI_READ_CAPACITY :: List.replicate 9 0, false⟩).bind fun (d, retval) =>
    if retval < 0 then some (d, retval)
    else
      let nSectors := UInt64.ofNat (beValue (d.response response 4)) + 1
      let sectorSize := UInt32.ofNat (beValue (d.response (response + 4) 4))
      let d := { d with nSectors := Function.update d.nSectors lun nSectors, sectorSize := Function.update d.sectorSize lun sectorSize }
      if nSectors = 0x100000000 then
        let response := stack d.cycles
        let cmd := [SCSI_SERVICE_ACTION_IN_16, SCSI_SAI_READ_CAPACITY_16] ++ List.replicate 11 0 ++ [32, 0, 0]
        (d.cycle w h ⟨lun, response, 32, cmd, false⟩).map fun (d, retval) =>
          if retval < 0 then (d, retval)
          else
            let nSectors := UInt64.ofNat (beValue (d.response response 8)) + 1
            let sectorSize := UInt32.ofNat (beValue (d.response (response + 8) 4))
            ({ d with
              nSectors := Function.update d.nSectors lun nSectors
              sectorSize := Function.update d.sectorSize lun sectorSize }, retval)
      else some (d, retval)

/-- `USBStorage_MountLUN`; a reset in between leaves the handle as it is. -/
def usbStorageMountLUN (lun : UInt8) (d : UsbDisk) : Option (UsbDisk × Int) :=
  if lun ≥ d.maxLun then some (d, IPC_EINVAL)
  else
    (usbstorageClearerrors w stack h lun d).bind fun (d, retval) =>
      (if retval < 0 then usbstorageClearerrors w stack h lun d else some (d, retval)).bind fun (d, _) =>
        (usbStorageInquiry w stack h lun 2 d 0).bind fun (d, _) =>
          (usbStorageReadCapacity w stack h lun d).map fun (d, retval) =>
            (d, if retval ≥ 0 ∧ (d.sectorSize lun < 512 ∨ d.nSectors lun = 0) then INVALID_LUN else retval)

/-- The command for the sectors, of ten bytes or sixteen by the size of the unit. -/
def usbSectors (write : Bool) (d : UsbDisk) (lun : UInt8) (sector : UInt64) (n : UInt32) (buffer : Nat) : UsbCommand where
  lun := lun
  buffer := buffer
  len := (n * d.sectorSize lun).toNat
  cb :=
    if d.nSectors lun ≥ 0x100000000 then
      [if write then SCSI_WRITE_16 else SCSI_READ_16, 0] ++ beBytes 8 sector.toNat ++ beBytes 4 n.toNat ++ [0, 0]
    else [if write then SCSI_WRITE_10 else SCSI_READ_10, 0] ++ beBytes 4 sector.toUInt32.toNat ++ [0] ++ beBytes 2 n.toUInt16.toNat ++ [0]
  write := write

/-- The unit after more than a minute since the last use is mounted again. -/
def usbAwake (lun : UInt8) (now : Nat) (d : UsbDisk) : Option UsbDisk :=
  if diffSec d.lastUsed now > 60 then (usbStorageMountLUN w stack h lun d).map Prod.fst else some d

/-- The body of both calls; `now` and `stop` are the readings of the clock. -/
def usbStorageTransfer (write : Bool) (lun : UInt8) (sector : UInt64) (n : UInt32) (buffer now stop : Nat) (d : UsbDisk) :
    Option (UsbDisk × Int) :=
  if lun ≥ d.maxLun ∨ d.sectorSize lun = 0 then some (d, IPC_EINVAL)
  else
    (usbAwake w stack h lun now d).bind fun d =>
      (d.cycle w h (usbSectors write d lun sector n buffer)).map fun (d, retval) =>
        ({ d with lastUsed := stop }, if retval > 0 ∧ d.storage.status ≠ 0 then USBSTORAGE_ESTATUS else retval)

/-- `USBStorage_Read` -/
def usbStorageRead := usbStorageTransfer w stack h false

/-- `USBStorage_Write` -/
def usbStorageWrite := usbStorageTransfer w stack h true

end Calls

/-! ## What a transfer is to do -/

/-- The call is not refused. -/
def UsbDisk.takes (d : UsbDisk) (lun : UInt8) : Prop := ¬ (lun ≥ d.maxLun ∨ d.sectorSize lun = 0)

instance instDecidableUsbTakes (d : UsbDisk) (lun : UInt8) : Decidable (d.takes lun) := inferInstanceAs (Decidable (¬ _))

/-- The call ends, and **a result that is not negative says that the command passed**: the status block that ended the cycle says so. -/
def UsbReported (call : Option (UsbDisk × Int)) : Prop :=
  ∃ d retval, call = some (d, retval) ∧
    (retval ≥ 0 → ∃ msgs csw n, d.storage.msgs = msgs ++ [.csw csw n] ∧ csw.getD 12 0 = 0)

/-- The address of the first block in a command block; the commands of sixteen bytes are those from 0x80 on. -/
def scsiAddress (cb : List UInt8) : Nat := beValue ((cb.drop 2).take (if cb.headD 0 ≥ 0x80 then 8 else 4))

/-- The number of the blocks. -/
def scsiCount (cb : List UInt8) : Nat :=
  if cb.headD 0 ≥ 0x80 then beValue ((cb.drop 10).take 4) else beValue ((cb.drop 7).take 2)

/-- **The command is for the sectors**, and its data are as long, in the cycle and in each of the command blocks it sends. -/
structure UsbSized (c : UsbCommand) (sector n size : Nat) : Prop where
  address : scsiAddress c.cb = sector
  count : scsiCount c.cb = n
  len : c.len = n * size
  sent : ∀ tag, lwbrx (usbCbw c tag) 8 = n * size

/-- The last command of the call is for the sectors. -/
def UsbCallSized (call : Option (UsbDisk × Int)) (lun : UInt8) (sector n : Nat) : Prop :=
  ∃ d retval c, call = some (d, retval) ∧ d.commands.getLast? = some c ∧ UsbSized c sector n (d.sectorSize lun).toNat

section Ends
variable {w : Nat → UsbDevice} {stack : Nat → Nat} {h : UsbHandle} {lun : UInt8} {d : UsbDisk} {c : UsbCommand}

/-! ## The cycles end -/

theorem UsbDisk.cycle_spec (hb : 1 ≤ h.bufferSize) (hc : UsbValid c) (d : UsbDisk) :
    ∃ s retval, d.cycle w h c = some ({ d with storage := s, cycles := d.cycles + 1, commands := d.commands ++ [c] }, retval) ∧
      UsbRetried (w d.cycles) h c d.storage (USBSTORAGE_CYCLE_RETRIES + 1) s retval := by
  obtain ⟨s, retval, heq, -, hretried⟩ := usbCycle_spec (w := w d.cycles) (s := d.storage) hb hc
  refine ⟨s, retval, ?_, hretried⟩
  unfold UsbDisk.cycle
  rw [heq, Option.map_some]

theorem UsbDisk.cycle_isSome (hb : 1 ≤ h.bufferSize) (hc : UsbValid c) (d : UsbDisk) : (d.cycle w h c).isSome := by
  obtain ⟨s, retval, heq, -⟩ := d.cycle_spec (w := w) hb hc
  rw [heq]
  rfl

theorem isSome_bind {α β : Type} {x : Option α} {f : α → Option β} (hx : x.isSome) (hf : ∀ a, (f a).isSome) : (x.bind f).isSome := by
  obtain ⟨a, rfl⟩ := Option.isSome_iff_exists.1 hx
  exact hf a

theorem isSome_map {α β : Type} {x : Option α} {f : α → β} (hx : x.isSome) : (x.map f).isSome := by
  rwa [Option.isSome_map]

theorem usbstorageClearerrors_isSome (hb : 1 ≤ h.bufferSize) (d : UsbDisk) : (usbstorageClearerrors w stack h lun d).isSome := by
  refine isSome_bind (d.cycle_isSome hb ⟨by simp, by simp⟩) fun p => ?_
  dsimp only
  split_ifs
  · rfl
  · exact isSome_map (UsbDisk.cycle_isSome hb ⟨by simp, by simp⟩ _)
  · rfl

theorem usbStorageInquiry_isSome (hb : 1 ≤ h.bufferSize) (n : Nat) (d : UsbDisk) (retval : Int) :
    (usbStorageInquiry w stack h lun n d retval).isSome := by
  induction n generalizing d retval with
  | zero => rfl
  | succ n ih =>
    refine isSome_bind (UsbDisk.cycle_isSome hb ⟨by simp, by simp⟩ _) fun p => ?_
    dsimp only
    split_ifs
    · rfl
    · exact ih _ _

theorem usbStorageReadCapacity_isSome (hb : 1 ≤ h.bufferSize) (d : UsbDisk) : (usbStorageReadCapacity w stack h lun d).isSome := by
  refine isSome_bind (d.cycle_isSome hb ⟨by simp, by simp⟩) fun p => ?_
  dsimp only
  split_ifs
  · rfl
  · exact isSome_map (UsbDisk.cycle_isSome hb ⟨by simp, by simp⟩ _)
  · rfl

theorem usbStorageMountLUN_isSome (hb : 1 ≤ h.bufferSize) (d : UsbDisk) : (usbStorageMountLUN w stack h lun d).isSome := by
  unfold usbStorageMountLUN
  split_ifs
  · rfl
  · refine isSome_bind (usbstorageClearerrors_isSome hb d) fun p => isSome_bind ?_ fun q => ?_
    · split_ifs
      · exact usbstorageClearerrors_isSome hb _
      · rfl
    · exact isSome_bind (usbStorageInquiry_isSome hb 2 _ _) fun r => isSome_map (usbStorageReadCapacity_isSome hb _)

theorem usbAwake_some (hb : 1 ≤ h.bufferSize) (now : Nat) (d : UsbDisk) : ∃ d', usbAwake w stack h lun now d = some d' := by
  rw [← Option.isSome_iff_exists]
  unfold usbAwake
  split_ifs
  · exact isSome_map (usbStorageMountLUN_isSome hb d)
  · rfl

/-! ## The transfer -/

theorem usbSectors_valid (write : Bool) (sector : UInt64) (n : UInt32) (buffer : Nat) :
    UsbValid (usbSectors write d lun sector n buffer) := by
  unfold UsbValid usbSectors
  split_ifs <;> simp

/-- A result of a cycle is never positive, so that the status is not looked at. -/
theorem UsbRetried.result {w : UsbDevice} {s0 s : UsbStorage} {n : Nat} {retval : Int} (hr : UsbRetried w h c s0 n s retval) : retval ≤ 0 := by
  rcases hr with ⟨_, _, _, _, _, rfl, _⟩ | ⟨hneg, _⟩
  · exact Int.le_refl 0
  · exact Int.le_of_lt hneg

/-- The state that a transfer leaves after the cycle it is. -/
def UsbDisk.transferred (d : UsbDisk) (s : UsbStorage) (c : UsbCommand) (stop : Nat) : UsbDisk :=
  { d with storage := s, lastUsed := stop, cycles := d.cycles + 1, commands := d.commands ++ [c] }

theorem usbStorageTransfer_refused (write : Bool) (sector : UInt64) (n : UInt32) (buffer now stop : Nat) (ht : ¬ d.takes lun) :
    usbStorageTransfer w stack h write lun sector n buffer now stop d = some (d, IPC_EINVAL) :=
  if_pos (not_not.1 ht)

/-- **A transfer is one cycle** from where the unit is awake, and its result is the cycle's. -/
theorem usbStorageTransfer_spec (hb : 1 ≤ h.bufferSize) (write : Bool) (sector : UInt64) (n : UInt32) (buffer now stop : Nat)
    (ht : d.takes lun) {d1 : UsbDisk} (h1 : usbAwake w stack h lun now d = some d1) :
    ∃ s retval, usbStorageTransfer w stack h write lun sector n buffer now stop d =
        some (d1.transferred s (usbSectors write d1 lun sector n buffer) stop, retval) ∧
      UsbRetried (w d1.cycles) h (usbSectors write d1 lun sector n buffer) d1.storage (USBSTORAGE_CYCLE_RETRIES + 1) s retval := by
  obtain ⟨s, retval, heq, hr⟩ := d1.cycle_spec (w := w) hb (usbSectors_valid write sector n buffer)
  refine ⟨s, retval, ?_, hr⟩
  unfold usbStorageTransfer
  rw [if_neg ht, h1, Option.bind_some, heq, Option.map_some]
  dsimp only
  rw [if_neg fun hn => absurd hr.result (Int.not_le.2 hn.1)]
  rfl

/-! ## The status -/

/-- In no attempt that the cycle makes does the device do all it is asked to and answer that the command failed. -/
def UsbPasses (w : UsbDevice) (h : UsbHandle) (c : UsbCommand) (s : UsbStorage) : Prop :=
  ∀ k < USBSTORAGE_CYCLE_RETRIES + 1, UsbReached w h c s k → usbTaken w k → UsbAnswered w h c k (usbTag s k) → w.cswIn k 12 = 0

theorem UsbWent.status {w : UsbDevice} {k : Nat} {s : UsbStorage} (hw : UsbWent w c k s) :
    (∃ msgs csw n, s.msgs = msgs ++ [.csw csw n] ∧ csw.getD 12 0 = 0) ↔ w.cswIn k 12 = 0 := by
  obtain ⟨msgs, hmsgs, -⟩ := hw
  have hbyte : ((List.range CSW_SIZE).map (w.cswIn k)).getD 12 0 = w.cswIn k 12 := rfl
  rw [hmsgs]
  constructor
  · rintro ⟨msgs', csw, n, heq, hzero⟩
    obtain ⟨-, hlast⟩ := List.append_inj' (heq.symm.trans (List.cons_append ..).symm) rfl
    obtain ⟨rfl, -⟩ := UsbMsg.csw.inj (List.cons.inj hlast).1
    rw [← hbyte]
    exact hzero
  · exact fun hzero => ⟨_, _, _, (List.cons_append ..).symm, hbyte.trans hzero⟩

/-- **When a transfer that succeeds passed.**  The status of the command is looked at only after a positive result, and a cycle has none:
it must not be one that the device answers with a status. -/
theorem usb_transfer_reported (hb : 1 ≤ h.bufferSize) (write : Bool) (sector : UInt64) (n : UInt32) (buffer now stop : Nat) :
    UsbReported (usbStorageTransfer w stack h write lun sector n buffer now stop d) ↔
      (d.takes lun → ∀ d1, usbAwake w stack h lun now d = some d1 →
        UsbPasses (w d1.cycles) h (usbSectors write d1 lun sector n buffer) d1.storage) := by
  by_cases ht : d.takes lun
  · obtain ⟨d1, h1⟩ : ∃ d1, usbAwake w stack h lun now d = some d1 := usbAwake_some hb now d
    obtain ⟨s, retval, heq, hr⟩ := usbStorageTransfer_spec hb write sector n buffer now stop ht h1
    unfold UsbReported
    rw [heq]
    constructor
    · rintro ⟨d', retval', hsome, hpassed⟩ - d1' h1' k hk hreached htaken hans
      obtain ⟨rfl, rfl⟩ := Prod.mk.inj (Option.some.inj hsome)
      obtain rfl := Option.some.inj (h1.symm.trans h1')
      rcases hr with ⟨j, -, hreachedj, htakenj, hansj, rfl, hwent⟩ | ⟨-, hnone⟩
      · obtain rfl := hreached.unique hreachedj ⟨htaken, hans⟩ ⟨htakenj, hansj⟩
        exact hwent.status.1 (hpassed (Int.le_refl 0))
      · exact absurd ⟨htaken, hans⟩ (hnone k hk hreached)
    · intro hpasses
      refine ⟨_, _, rfl, fun hret => ?_⟩
      rcases hr with ⟨k, hk, hreached, htaken, hans, rfl, hwent⟩ | ⟨hneg, -⟩
      · exact hwent.status.2 (hpasses ht d1 h1 k hk hreached htaken hans)
      · exact absurd hret (Int.not_le.2 hneg)
  · rw [usbStorageTransfer_refused write sector n buffer now stop ht]
    exact iff_of_true ⟨_, _, rfl, fun hret => absurd hret (by decide)⟩ fun h => absurd h ht

end Ends

/-- A device that does all it is asked to, for a sector of 512 bytes, and answers with a status. -/
def usbDeviceStatus (status : UInt8) : UsbDevice where
  cbw _ := CBW_SIZE
  data _ _ := 512
  dataIn _ _ _ := 0
  csw _ := CSW_SIZE
  cswIn k i := (stwbrx CSW_SIGNATURE ++ stwbrx (0x0BADC0DE + (k + 1)) ++ [0, 0, 0, 0, status]).getD i 0
  reset _ := 0

def usbDiskEx : UsbDisk where
  storage := usbStorageEx
  maxLun := 1
  sectorSize _ := 512
  nSectors _ := 0x1000000
  lastUsed := 0
  cycles := 0
  commands := []

theorem usb_transfer_reported_passed :
    UsbReported (usbStorageTransfer (fun _ => usbDeviceStatus 0) (fun _ => 0x80003000) usbHandleEx false 0 0 1 0x80001000 0 0 usbDiskEx) :=
  (usb_transfer_reported (by decide) false 0 1 0x80001000 0 0).2 fun _ _ _ _ _ _ _ _ => rfl

/-- The drive reports that the command failed, and the read succeeds. -/
theorem usb_read_failed : ¬ UsbReported
    (usbStorageRead (fun _ => usbDeviceStatus 1) (fun _ => 0x80003000) usbHandleEx 0 0 1 0x80001000 0 0 usbDiskEx) := by
  rintro ⟨d, retval, heq, hpassed⟩
  have hrun : (usbStorageRead (fun _ => usbDeviceStatus 1) (fun _ => 0x80003000) usbHandleEx 0 0 1 0x80001000 0 0 usbDiskEx).map
      (fun p => (p.2, p.1.storage.msgs.getLast?)) =
      some (0, some (.csw (stwbrx CSW_SIGNATURE ++ stwbrx 0x0BADC0DF ++ [0, 0, 0, 0, 1]) CSW_SIZE)) := by decide
  rw [heq] at hrun
  obtain ⟨hret, hlast⟩ := Prod.mk.inj (Option.some.inj hrun)
  obtain ⟨msgs, csw, n, hmsgs, hzero⟩ := hpassed (Int.le_of_eq hret.symm)
  rw [hmsgs, List.getLast?_concat] at hlast
  obtain ⟨rfl, -⟩ := UsbMsg.csw.inj (Option.some.inj hlast)
  exact absurd hzero (by decide)

/-! ## The sizes -/

section Sizes
variable {w : Nat → UsbDevice} {stack : Nat → Nat} {h : UsbHandle} {lun : UInt8} {d : UsbDisk}

theorem lwbrx_usbCbw (c : UsbCommand) (tag : Nat) : lwbrx (usbCbw c tag) 8 = c.len % 2 ^ 32 := by
  have hbytes : lwbrx (usbCbw c tag) 8 = (UInt8.ofNat c.len).toNat + 2 ^ 8 * (UInt8.ofNat (c.len / 2 ^ 8)).toNat +
      2 ^ 16 * (UInt8.ofNat (c.len / 2 ^ 16)).toNat + 2 ^ 24 * (UInt8.ofNat (c.len / 2 ^ 24)).toNat := rfl
  rw [hbytes]
  simp only [UInt8.toNat_ofNat']
  omega

theorem usbSectors_len (write : Bool) (sector : UInt64) (n : UInt32) (buffer : Nat) :
    (usbSectors write d lun sector n buffer).len = n.toNat * (d.sectorSize lun).toNat % 2 ^ 32 :=
  UInt32.toNat_mul ..

theorem usbSectors_large (write : Bool) (sector : UInt64) (n : UInt32) (buffer : Nat) (hd : d.nSectors lun ≥ 0x100000000) :
    scsiAddress (usbSectors write d lun sector n buffer).cb = sector.toNat ∧
      scsiCount (usbSectors write d lun sector n buffer).cb = n.toNat := by
  have hcb : (usbSectors write d lun sector n buffer).cb =
      [if write then SCSI_WRITE_16 else SCSI_READ_16, 0] ++ beBytes 8 sector.toNat ++ beBytes 4 n.toNat ++ [0, 0] := if_pos hd
  have hop : (if write then SCSI_WRITE_16 else SCSI_READ_16) ≥ 0x80 := by cases write <;> decide
  rw [hcb]
  constructor
  · show beValue (List.take (if (if write then SCSI_WRITE_16 else SCSI_READ_16) ≥ 0x80 then 8 else 4) _) = _
    rw [if_pos hop]
    exact (beValue_beBytes 8 _).trans (Nat.mod_eq_of_lt sector.toNat_lt)
  · exact (if_pos hop).trans ((beValue_beBytes 4 _).trans (Nat.mod_eq_of_lt n.toNat_lt))

theorem usbSectors_small (write : Bool) (sector : UInt64) (n : UInt32) (buffer : Nat) (hd : ¬ d.nSectors lun ≥ 0x100000000) :
    scsiAddress (usbSectors write d lun sector n buffer).cb = sector.toNat % 2 ^ 32 ∧
      scsiCount (usbSectors write d lun sector n buffer).cb = n.toNat % 2 ^ 16 := by
  have hcb : (usbSectors write d lun sector n buffer).cb =
      [if write then SCSI_WRITE_10 else SCSI_READ_10, 0] ++ beBytes 4 sector.toUInt32.toNat ++ [0] ++
        beBytes 2 n.toUInt16.toNat ++ [0] := if_neg hd
  have hop : ¬ (if write then SCSI_WRITE_10 else SCSI_READ_10) ≥ 0x80 := by cases write <;> decide
  rw [hcb]
  constructor
  · show beValue (List.take (if (if write then SCSI_WRITE_10 else SCSI_READ_10) ≥ 0x80 then 8 else 4) _) = _
    rw [if_neg hop]
    exact (beValue_beBytes 4 _).trans (Nat.mod_eq_of_lt sector.toUInt32.toNat_lt)
  · exact (if_neg hop).trans ((beValue_beBytes 2 _).trans (Nat.mod_eq_of_lt n.toUInt16.toNat_lt))

/-- A request inside the unit is in its command when its bytes are a word and its count has room. -/
theorem usbSized_iff (write : Bool) (sector : UInt64) (n : UInt32) (buffer : Nat)
    (hfit : sector.toNat + n.toNat ≤ (d.nSectors lun).toNat) :
    UsbSized (usbSectors write d lun sector n buffer) sector.toNat n.toNat (d.sectorSize lun).toNat ↔
      n.toNat * (d.sectorSize lun).toNat < 2 ^ 32 ∧ (2 ^ 32 ≤ (d.nSectors lun).toNat ∨ n.toNat < 2 ^ 16) := by
  have hlarge : d.nSectors lun ≥ 0x100000000 ↔ 2 ^ 32 ≤ (d.nSectors lun).toNat := UInt64.le_iff_toNat_le
  constructor
  · intro hs
    have hlen := hs.len
    rw [usbSectors_len] at hlen
    refine ⟨hlen ▸ Nat.mod_lt _ (by decide), ?_⟩
    by_cases hd : d.nSectors lun ≥ 0x100000000
    · exact .inl (hlarge.1 hd)
    · have hcount := hs.count
      rw [(usbSectors_small write sector n buffer hd).2] at hcount
      exact .inr (hcount ▸ Nat.mod_lt _ (by decide))
  · rintro ⟨hlen, hcount⟩
    have hlen' : (usbSectors write d lun sector n buffer).len = n.toNat * (d.sectorSize lun).toNat :=
      (usbSectors_len write sector n buffer).trans (Nat.mod_eq_of_lt hlen)
    have hsent : ∀ tag, lwbrx (usbCbw (usbSectors write d lun sector n buffer) tag) 8 = n.toNat * (d.sectorSize lun).toNat := by
      intro tag
      rw [lwbrx_usbCbw, hlen', Nat.mod_eq_of_lt hlen]
    by_cases hd : d.nSectors lun ≥ 0x100000000
    · obtain ⟨haddress, hcount⟩ := usbSectors_large write sector n buffer hd
      exact ⟨haddress, hcount, hlen', hsent⟩
    · obtain ⟨haddress, hcount'⟩ := usbSectors_small write sector n buffer hd
      have hsmall : (d.nSectors lun).toNat < 2 ^ 32 := Nat.lt_of_not_le fun hle => hd (hlarge.2 hle)
      have hn : n.toNat < 2 ^ 16 := hcount.resolve_left (Nat.not_le.2 hsmall)
      exact ⟨haddress.trans (Nat.mod_eq_of_lt (by omega)), hcount'.trans (Nat.mod_eq_of_lt hn), hlen', hsent⟩

/-- **When the command is for the sectors.**  The bytes are counted in a word, and a unit of less than 2³² sectors gets the command with a
count of sixteen bits, whatever the count. -/
theorem usb_transfer_sized (hb : 1 ≤ h.bufferSize) (write : Bool) (sector : UInt64) (n : UInt32) (buffer now stop : Nat)
    (ht : d.takes lun) {d1 : UsbDisk} (h1 : usbAwake w stack h lun now d = some d1)
    (hfit : sector.toNat + n.toNat ≤ (d1.nSectors lun).toNat) :
    UsbCallSized (usbStorageTransfer w stack h write lun sector n buffer now stop d) lun sector.toNat n.toNat ↔
      n.toNat * (d1.sectorSize lun).toNat < 2 ^ 32 ∧ (2 ^ 32 ≤ (d1.nSectors lun).toNat ∨ n.toNat < 2 ^ 16) := by
  obtain ⟨s, retval, heq, -⟩ := usbStorageTransfer_spec hb write sector n buffer now stop ht h1
  rw [← usbSized_iff write sector n buffer hfit]
  constructor
  · rintro ⟨d', retval', c, hsome, hlast, hsized⟩
    obtain ⟨rfl, -⟩ := Prod.mk.inj (Option.some.inj (heq.symm.trans hsome))
    obtain rfl := Option.some.inj (List.getLast?_concat.symm.trans hlast)
    exact hsized
  · exact fun hsized => ⟨_, _, _, heq, List.getLast?_concat, hsized⟩

end Sizes

theorem usb_transfer_sized_one :
    UsbCallSized (usbStorageTransfer (fun _ => usbDeviceStatus 0) (fun _ => 0x80003000) usbHandleEx true 0 7 1 0x80001000 0 0 usbDiskEx)
        0 7 1 ↔
      1 * 512 < 2 ^ 32 ∧ (2 ^ 32 ≤ 0x1000000 ∨ 1 < 2 ^ 16) := by
  have hawake : usbAwake (fun _ => usbDeviceStatus 0) (fun _ => 0x80003000) usbHandleEx 0 0 usbDiskEx = some usbDiskEx := rfl
  exact usb_transfer_sized (by decide) true 7 1 0x80001000 0 0 (by decide) hawake (by decide)

/-- A request of 65536 sectors asks the drive for none, with 32 megabytes of data. -/
theorem usb_read_large : ¬ UsbCallSized
    (usbStorageRead (fun _ => usbDeviceStatus 0) (fun _ => 0x80003000) usbHandleEx 0 0 0x10000 0x80001000 0 0 usbDiskEx) 0 0 0x10000 := by
  rintro ⟨d, retval, c, heq, hlast, hsized⟩
  have hawake : usbAwake (fun _ => usbDeviceStatus 0) (fun _ => 0x80003000) usbHandleEx 0 0 usbDiskEx = some usbDiskEx := rfl
  obtain ⟨s, retval', heq', -⟩ := usbStorageTransfer_spec (by decide) false 0 0x10000 0x80001000 0 0 (by decide) hawake
  obtain ⟨rfl, -⟩ := Prod.mk.inj (Option.some.inj (heq'.symm.trans heq))
  obtain rfl := Option.some.inj (List.getLast?_concat.symm.trans hlast)
  exact absurd hsized.count (by decide)

end Libogc
