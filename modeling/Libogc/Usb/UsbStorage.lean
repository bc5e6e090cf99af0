import Libogc.Lib.Bytes
import Libogc.Lib.Words
/-!
# UsbStorage — the command cycle of `usbstorage.c`

`__cycle` sends a command block, moves the data, and reads the status block; when something goes wrong it resets the device and tries
again.  What comes of a bulk message is not up to the program: the device's answers are numbered by the attempt and, for the data, by the
message in it.
-/
namespace Libogc

open Bytes

def USBSTORAGE_ESHORTWRITE : Int := -10002
def USBSTORAGE_ESHORTREAD : Int := -10003
def USBSTORAGE_ESIGNATURE : Int := -10004
def USBSTORAGE_ETAG : Int := -10005
def USBSTORAGE_EDATARESIDUE : Int := -10007
def USBSTORAGE_ETIMEDOUT : Int := -10008

def CBW_SIZE : Nat := 31
def CBW_SIGNATURE : Nat := 0x43425355
def CSW_SIZE : Nat := 13
def CSW_SIGNATURE : Nat := 0x53425355

def USBSTORAGE_CYCLE_RETRIES : Nat := 3

def MAX_TRANSFER_SIZE_V0 : Nat := 4096
def MAX_TRANSFER_SIZE_V5 : Nat := 16 * 1024

/-- What `__cycle` reads of the handle and the mode, and the two words of low memory that say where the memories end. -/
structure UsbHandle where
  bufferSize : Nat
  usb2Mode : Bool
  mem1Top : Nat
  mem2Top : Nat
  deriving DecidableEq, Repr

/-- The arguments of `__cycle`. -/
structure UsbCommand where
  lun : UInt8
  buffer : Nat
  len : Nat
  cb : List UInt8
  write : Bool
  deriving DecidableEq, Repr

/-- The device: the result of each message, and the bytes that come in. -/
structure UsbDevice where
  cbw : Nat → Int
  data : Nat → Nat → Int
  dataIn : Nat → Nat → Nat → UInt8
  csw : Nat → Int
  cswIn : Nat → Nat → UInt8
  reset : Nat → Int

/-- A message, with the bytes that it moved and its result; `addr` is the place in the caller's buffer that the bytes are for. -/
inductive UsbMsg where
  | cbw (bytes : List UInt8) (retval : Int)
  | data (write : Bool) (addr : Nat) (bytes : List UInt8) (retval : Int)
  | csw (bytes : List UInt8) (retval : Int)
  deriving DecidableEq, Repr

/-- The memories, what changes in the handle, and the variables of `__cycle` for the caller; `msgs` are the messages of the attempt. -/
structure UsbStorage where
  mem : Nat → UInt8
  bounce : Nat → UInt8
  suspended : Bool
  tag : Nat
  status : Nat
  dataResidue : Nat
  attempts : Nat
  msgs : List UsbMsg

/-- A memory with bytes written to it. -/
def usbMemcpy (mem : Nat → UInt8) (o : Nat) (bytes : List UInt8) (i : Nat) : UInt8 :=
  if o ≤ i ∧ i < o + bytes.length then bytes.getD (i - o) 0 else mem i

/-- `__stwbrx` -/
def stwbrx (n : Nat) : List UInt8 := [UInt8.ofNat n, UInt8.ofNat (n / 2 ^ 8), UInt8.ofNat (n / 2 ^ 16), UInt8.ofNat (n / 2 ^ 24)]

/-- `__lwbrx` -/
def lwbrx (mem : List UInt8) (o : Nat) : Nat :=
  (mem.getD o 0).toNat + 2 ^ 8 * (mem.getD (o + 1) 0).toNat + 2 ^ 16 * (mem.getD (o + 2) 0).toNat + 2 ^ 24 * (mem.getD (o + 3) 0).toNat

/-- The command block. -/
def usbCbw (c : UsbCommand) (tag : Nat) : List UInt8 :=
  stwbrx CBW_SIGNATURE ++ stwbrx tag ++ stwbrx c.len ++
    [if c.write then 0 else 0x80, c.lun, UInt8.ofNat c.cb.length] ++ c.cb ++ List.replicate (16 - c.cb.length) 0

/-- `SYS_IsDMAAddress` -/
def sysIsDMAAddress (h : UsbHandle) (addr align : Nat) : Bool :=
  if addr % align ≠ 0 then false
  else
    let addr := if 0xD0000000 ≤ addr ∧ addr < 0xE0000000 then addr - 0x40000000 else addr
    if 0x90000000 ≤ addr ∧ addr < h.mem2Top then true
    else if addr % 4 ≠ 0 then false
    else
      let addr := if 0xC0000000 ≤ addr ∧ addr < 0xC4000000 then addr - 0x40000000 else addr
      0x80000000 ≤ addr ∧ addr < h.mem1Top

/-- `__send_cbw`, in the attempt `k`. -/
def usbSendCbw (w : UsbDevice) (c : UsbCommand) (k : Nat) (s : UsbStorage) : UsbStorage × Int :=
  if c.cb.length = 0 ∨ 16 < c.cb.length then (s, -4)
  else
    let tag := u32 (s.tag + 1)
    let retval := w.cbw k
    ({ s with suspended := false, tag := tag, msgs := s.msgs ++ [.cbw (usbCbw c tag) retval] },
      if retval = CBW_SIZE then 0 else if retval > 0 then USBSTORAGE_ESHORTWRITE else retval)

/-- `__read_csw`, in the attempt `k`. -/
def usbReadCsw (w : UsbDevice) (k : Nat) (s : UsbStorage) : UsbStorage × Int :=
  let retval := w.csw k
  let cbwBuffer := (List.range CSW_SIZE).map fun (i : Nat) => if (i : Int) < retval then w.cswIn k i else 0
  let s := { s with msgs := s.msgs ++ [.csw cbwBuffer retval] }
  if retval > 0 ∧ retval ≠ CSW_SIZE then (s, USBSTORAGE_ESHORTREAD)
  else if retval < 0 then (s, retval)
  else if lwbrx cbwBuffer 0 ≠ CSW_SIGNATURE then (s, USBSTORAGE_ESIGNATURE)
  else
    ({ s with dataResidue := lwbrx cbwBuffer 8, status := (cbwBuffer.getD 12 0).toNat },
      if lwbrx cbwBuffer 4 ≠ s.tag then USBSTORAGE_ETAG else 0)

/-- `thisLen`, and whether the bytes go through the handle's own buffer. -/
def usbThisLen (h : UsbHandle) (buffer len : Nat) : Nat × Bool :=
  let maxSize := if h.usb2Mode then MAX_TRANSFER_SIZE_V5 else MAX_TRANSFER_SIZE_V0
  let thisLen := if len > maxSize then maxSize else len
  if !sysIsDMAAddress h buffer 32 || !sysIsDMAAddress h (u32 (buffer + thisLen)) 1 then
    (if thisLen > h.bufferSize then h.bufferSize else thisLen, true)
  else (thisLen, false)

/-- The message `i` of the data, in the attempt `k`. -/
def usbBlkMsg (w : UsbDevice) (c : UsbCommand) (k i : Nat) (s : UsbStorage) (buffer thisLen : Nat) (bounced : Bool) : UsbStorage :=
  let retval := w.data k i
  if c.write then
    if bounced then
      let bounce := usbMemcpy s.bounce 0 (read s.mem buffer thisLen)
      { s with bounce := bounce, msgs := s.msgs ++ [.data true buffer (read bounce 0 retval.toNat) retval] }
    else { s with msgs := s.msgs ++ [.data true buffer (read s.mem buffer retval.toNat) retval] }
  else
    let bytes := (List.range retval.toNat).map (w.dataIn k i)
    if bounced then
      let bounce := usbMemcpy s.bounce 0 bytes
      { s with
        bounce := bounce
        mem := if retval > 0 then usbMemcpy s.mem buffer (read bounce 0 retval.toNat) else s.mem
        msgs := s.msgs ++ [.data false buffer bytes retval] }
    else { s with mem := usbMemcpy s.mem buffer bytes, msgs := s.msgs ++ [.data false buffer bytes retval] }

/-- The loop over the data; `n` bounds its rounds. -/
def usbData (w : UsbDevice) (h : UsbHandle) (c : UsbCommand) (k : Nat) :
    Nat → Nat → UsbStorage → Nat → Nat → Int → Option (UsbStorage × Int)
  | 0, _, s, _, len, retval => if len > 0 ∧ retval ≥ 0 then none else some (s, retval)
  | n + 1, i, s, buffer, len, retval =>
    if len > 0 ∧ retval ≥ 0 then
      let (thisLen, bounced) := usbThisLen h buffer len
      let s := usbBlkMsg w c k i s buffer thisLen bounced
      let retval := w.data k i
      if retval = thisLen then usbData w h c k n (i + 1) s (buffer + thisLen) (len - thisLen) retval
      else usbData w h c k n (i + 1) s buffer len (if retval ≠ USBSTORAGE_ETIMEDOUT then USBSTORAGE_EDATARESIDUE else retval)
    else some (s, retval)

/-- An attempt. -/
def usbAttempt (w : UsbDevice) (h : UsbHandle) (c : UsbCommand) (s : UsbStorage) : Option (UsbStorage × Int) :=
  let k := s.attempts
  let (s, retval) := usbSendCbw w c k { s with attempts := k + 1, msgs := [] }
  (usbData w h c k c.len 0 s c.buffer c.len retval).map fun (s, retval) =>
    let (s, retval) := if retval ≥ 0 then usbReadCsw w k s else (s, retval)
    (s, if retval < 0 ∧ w.reset k = USBSTORAGE_ETIMEDOUT then USBSTORAGE_ETIMEDOUT else retval)

/-- The loop of `__cycle` with `retries` left. -/
def usbRetry (w : UsbDevice) (h : UsbHandle) (c : UsbCommand) : Nat → UsbStorage → Int → Option (UsbStorage × Int)
  | 0, s, retval => some (s, retval)
  | retries + 1, s, retval =>
    if retval = USBSTORAGE_ETIMEDOUT then some (s, retval)
    else
      match usbAttempt w h c s with
      | none => none
      | some (s, retval) => if retval < 0 ∧ retries > 0 then usbRetry w h c retries s retval else some (s, retval)

/-- `__cycle` -/
def usbCycle (w : UsbDevice) (h : UsbHandle) (c : UsbCommand) (s : UsbStorage) : Option (UsbStorage × Int) :=
  usbRetry w h c (USBSTORAGE_CYCLE_RETRIES + 1) { s with status := 0, dataResidue := 0, attempts := 0 } 0

/-! ## A cycle that went well -/

/-- The messages move `len` bytes from `buffer` on, in order: each as many as it says, and what is then in the buffer. -/
def UsbMoved (write : Bool) (mem : Nat → UInt8) : Nat → Nat → List UsbMsg → Prop
  | _, len, [] => len = 0
  | buffer, len, .data write' addr bytes retval :: msgs =>
    write' = write ∧ addr = buffer ∧ retval = bytes.length ∧ 1 ≤ bytes.length ∧ bytes.length ≤ len ∧
      read mem buffer bytes.length = bytes ∧ UsbMoved write mem (buffer + bytes.length) (len - bytes.length) msgs
  | _, _, _ => False

/-- **The last attempt was whole**: the command block was sent with the tag, the data moved, and the status block is the one for the
tag. -/
def UsbDone (c : UsbCommand) (s : UsbStorage) : Prop :=
  ∃ msgs csw, s.msgs = .cbw (usbCbw c s.tag) CBW_SIZE :: (msgs ++ [.csw csw CSW_SIZE]) ∧
    UsbMoved c.write s.mem c.buffer c.len msgs ∧ csw.length = CSW_SIZE ∧ lwbrx csw 0 = CSW_SIGNATURE ∧ lwbrx csw 4 = s.tag

/-- **The cycle ends**, after four attempts at most, and does not succeed unless the last of them was whole. -/
def UsbCycled (w : UsbDevice) (h : UsbHandle) (c : UsbCommand) (s : UsbStorage) : Prop :=
  ∃ s' retval, usbCycle w h c s = some (s', retval) ∧ s'.attempts ≤ USBSTORAGE_CYCLE_RETRIES + 1 ∧ (retval ≥ 0 → UsbDone c s')

/-! ## What the device answers -/

/-- The lengths of the messages that `len` bytes from `buffer` on are split into; `n` bounds their number. -/
def usbSplit (h : UsbHandle) : Nat → Nat → Nat → List Nat
  | 0, _, _ => []
  | n + 1, buffer, len =>
    if len = 0 then []
    else
      let thisLen := (usbThisLen h buffer len).1
      thisLen :: usbSplit h n (buffer + thisLen) (len - thisLen)

/-- Each message, from the message `i` on, is whole. -/
def UsbWhole (w : UsbDevice) (k : Nat) : Nat → List Nat → Prop
  | _, [] => True
  | i, n :: ns => w.data k i = n ∧ UsbWhole w k (i + 1) ns

/-- A message times out, and those before it are whole. -/
def UsbDataTimedOut (w : UsbDevice) (k : Nat) : Nat → List Nat → Prop
  | _, [] => False
  | i, n :: ns => w.data k i = USBSTORAGE_ETIMEDOUT ∨ (w.data k i = n ∧ UsbDataTimedOut w k (i + 1) ns)

/-- The status block of the attempt `k` is whole, and the one for the tag. -/
def UsbCsw (w : UsbDevice) (k tag : Nat) : Prop :=
  w.csw k = CSW_SIZE ∧ lwbrx ((List.range CSW_SIZE).map (w.cswIn k)) 0 = CSW_SIGNATURE ∧
    lwbrx ((List.range CSW_SIZE).map (w.cswIn k)) 4 = tag

/-- In the attempt `k` the device moves all the data, and answers with a whole status block for the tag. -/
structure UsbAnswered (w : UsbDevice) (h : UsbHandle) (c : UsbCommand) (k tag : Nat) : Prop where
  data : UsbWhole w k 0 (usbSplit h c.len c.buffer c.len)
  csw : UsbCsw w k tag

/-- `__send_cbw` takes a command block of one byte to sixteen. -/
def UsbValid (c : UsbCommand) : Prop := c.cb.length ≠ 0 ∧ c.cb.length ≤ 16

/-- It takes the command block, as far as `__send_cbw` looks. -/
def usbTaken (w : UsbDevice) (k : Nat) : Prop := w.cbw k = 0 ∨ w.cbw k = CBW_SIZE

/-- In the attempt `k` something times out, the reset at the latest. -/
def UsbTimedOut (w : UsbDevice) (h : UsbHandle) (c : UsbCommand) (k : Nat) : Prop :=
  w.reset k = USBSTORAGE_ETIMEDOUT ∨ w.cbw k = USBSTORAGE_ETIMEDOUT ∨
    (usbTaken w k ∧ (UsbDataTimedOut w k 0 (usbSplit h c.len c.buffer c.len) ∨
      (UsbWhole w k 0 (usbSplit h c.len c.buffer c.len) ∧ w.csw k = USBSTORAGE_ETIMEDOUT)))

/-- The tag of the attempt `k`. -/
def usbTag (s : UsbStorage) (k : Nat) : Nat := u32 (s.tag + (k + 1))

/-- The attempt `k` is made: the ones before it failed, and none of them timed out. -/
def UsbReached (w : UsbDevice) (h : UsbHandle) (c : UsbCommand) (s : UsbStorage) (k : Nat) : Prop :=
  ∀ j < k, ¬ (usbTaken w j ∧ UsbAnswered w h c j (usbTag s j)) ∧ ¬ UsbTimedOut w h c j

/-! ## The data -/

variable {w : UsbDevice} {h : UsbHandle} {c : UsbCommand} {s : UsbStorage} {mem : Nat → UInt8} {k : Nat}

theorem read_usbMemcpy (mem : Nat → UInt8) (o : Nat) (bytes : List UInt8) : read (usbMemcpy mem o bytes) o bytes.length = bytes :=
  read_write mem o bytes

theorem usbMemcpy_before {o a : Nat} (ha : a < o) (bytes : List UInt8) : usbMemcpy mem o bytes a = mem a :=
  if_neg fun h => absurd h.1 (by omega)

variable {len i n buffer : Nat} {retval : Int}

theorem usbThisLen_spec (hb : 1 ≤ h.bufferSize) (buffer : Nat) (hlen : 0 < len) :
    1 ≤ (usbThisLen h buffer len).1 ∧ (usbThisLen h buffer len).1 ≤ len := by
  unfold usbThisLen MAX_TRANSFER_SIZE_V0 MAX_TRANSFER_SIZE_V5
  dsimp only
  split <;> split_ifs <;> omega

theorem usbBlkMsg_tag (i buffer n : Nat) (bounced : Bool) : (usbBlkMsg w c k i s buffer n bounced).tag = s.tag := by
  unfold usbBlkMsg
  split_ifs <;> rfl

theorem usbBlkMsg_attempts (i buffer n : Nat) (bounced : Bool) : (usbBlkMsg w c k i s buffer n bounced).attempts = s.attempts := by
  unfold usbBlkMsg
  split_ifs <;> rfl

/-- What a message that is whole does. -/
structure UsbBlk (write : Bool) (s s' : UsbStorage) (buffer n : Nat) : Prop where
  msgs : ∃ bytes : List UInt8, s'.msgs = s.msgs ++ [.data write buffer bytes n] ∧ bytes.length = n ∧ read s'.mem buffer n = bytes
  before : ∀ a < buffer, s'.mem a = s.mem a

/-- Through the handle's own buffer or not, the message moves the bytes that stand in the caller's. -/
theorem usbBlkMsg_spec (c : UsbCommand) (s : UsbStorage) (buffer : Nat) (hn : 1 ≤ n) (hw : w.data k i = n) (bounced : Bool) :
    UsbBlk c.write s (usbBlkMsg w c k i s buffer n bounced) buffer n := by
  have hcopy : ∀ (mem : Nat → UInt8) (o : Nat) (bytes : List UInt8), bytes.length = n → read (usbMemcpy mem o bytes) o n = bytes :=
    fun mem o bytes hl => hl ▸ read_usbMemcpy mem o bytes
  have hin : ((List.range n).map (w.dataIn k i)).length = n := by simp
  unfold usbBlkMsg
  rw [hw]
  dsimp only
  rw [Int.toNat_natCast]
  cases c.write with
  | true =>
    cases bounced with
    | true => exact ⟨⟨_, rfl, read_length .., (hcopy s.bounce 0 _ (read_length ..)).symm⟩, fun _ _ => rfl⟩
    | false => exact ⟨⟨_, rfl, read_length .., rfl⟩, fun _ _ => rfl⟩
  | false =>
    cases bounced with
    | true =>
      have hpos : (n : Int) > 0 := by omega
      refine ⟨⟨_, rfl, hin, ?_⟩, fun a ha => ?_⟩
      · simp only [Bool.false_eq_true, if_true, if_false, if_pos hpos, hcopy s.bounce 0 _ hin]
        exact hcopy s.mem buffer _ hin
      · simp only [Bool.false_eq_true, if_true, if_false, if_pos hpos]
        exact usbMemcpy_before ha _
    | false => exact ⟨⟨_, rfl, hin, hcopy s.mem buffer _ hin⟩, fun a ha => usbMemcpy_before ha _⟩

theorem usbWhole_inTime {ns : List Nat} (hw : UsbWhole w k i ns) : ¬ UsbDataTimedOut w k i ns := by
  induction ns generalizing i with
  | nil => exact fun h => h
  | cons n ns ih =>
    rintro (ht | ht)
    · rw [hw.1] at ht
      exact absurd ht (by unfold USBSTORAGE_ETIMEDOUT; omega)
    · exact ih hw.2 ht.2

theorem usbData_neg (hr : retval < 0) : usbData w h c k n i s buffer len retval = some (s, retval) := by
  cases n with
  | zero => exact if_neg fun hn => absurd hn.2 (by omega)
  | succ n => exact if_neg fun hn => absurd hn.2 (by omega)

theorem usbData_zero : usbData w h c k n i s buffer 0 retval = some (s, retval) := by
  cases n with
  | zero => exact if_neg fun hn => absurd hn.1 (by omega)
  | succ n => exact if_neg fun hn => absurd hn.1 (by omega)

theorem usbSplit_zero : usbSplit h n buffer 0 = [] := by
  cases n with
  | zero => rfl
  | succ n => rfl

/-- What the messages do when they are whole. -/
structure UsbDataMoved (c : UsbCommand) (s s' : UsbStorage) (buffer len : Nat) : Prop where
  msgs : ∃ msgs, s'.msgs = s.msgs ++ msgs ∧ UsbMoved c.write s'.mem buffer len msgs
  before : ∀ a < buffer, s'.mem a = s.mem a

theorem UsbDataMoved.step {s1 s' : UsbStorage} (h1 : UsbBlk c.write s s1 buffer n)
    (h2 : UsbDataMoved c s1 s' (buffer + n) (len - n)) (hn : 1 ≤ n) (hlen : n ≤ len) : UsbDataMoved c s s' buffer len := by
  obtain ⟨bytes, hs1, hl, hread⟩ := h1.msgs
  obtain ⟨msgs, hs', hmoved⟩ := h2.msgs
  refine ⟨⟨.data c.write buffer bytes n :: msgs, ?_, rfl, rfl, ?_, ?_, ?_, ?_, ?_⟩, fun a ha => ?_⟩
  · rw [hs', hs1, List.append_assoc]; rfl
  · rw [hl]
  · rw [hl]; exact hn
  · rw [hl]; exact hlen
  · rw [hl, ← hread]
    exact read_congr fun i hi => h2.before _ (by omega)
  · rw [hl]; exact hmoved
  · rw [h2.before a (by omega), h1.before a ha]

/-- What comes of the data: all of it is moved and the result is not negative, or it is negative. -/
def UsbDataEnds (w : UsbDevice) (h : UsbHandle) (c : UsbCommand) (k n i : Nat) (s s' : UsbStorage) (buffer len : Nat) (retval : Int) :
    Prop :=
  s'.tag = s.tag ∧ s'.attempts = s.attempts ∧
    ((UsbWhole w k i (usbSplit h n buffer len) ∧ 0 ≤ retval ∧ UsbDataMoved c s s' buffer len) ∨
      (¬ UsbWhole w k i (usbSplit h n buffer len) ∧ retval < 0 ∧
        (retval = USBSTORAGE_ETIMEDOUT ↔ UsbDataTimedOut w k i (usbSplit h n buffer len))))

theorem usbData_spec (hb : 1 ≤ h.bufferSize) (i : Nat) (s : UsbStorage) (buffer : Nat) (retval : Int) (hlen : len ≤ n)
    (hr : 0 ≤ retval) : ∃ s' retval', usbData w h c k n i s buffer len retval = some (s', retval') ∧
      UsbDataEnds w h c k n i s s' buffer len retval' := by
  induction n generalizing i s buffer len retval with
  | zero =>
    obtain rfl : len = 0 := by omega
    exact ⟨s, retval, usbData_zero, rfl, rfl, .inl ⟨trivial, hr, ⟨[], (List.append_nil _).symm, rfl⟩, fun _ _ => rfl⟩⟩
  | succ n ih =>
    rcases Nat.eq_zero_or_pos len with rfl | hpos
    · refine ⟨s, retval, usbData_zero, rfl, rfl, .inl ⟨?_, hr, ⟨[], (List.append_nil _).symm, rfl⟩, fun _ _ => rfl⟩⟩
      rw [usbSplit_zero]; trivial
    · obtain ⟨h1, hle⟩ := usbThisLen_spec hb buffer hpos
      unfold UsbDataEnds
      rw [usbData, if_pos ⟨hpos, hr⟩, usbSplit, if_neg (by omega : len ≠ 0)]
      generalize usbThisLen h buffer len = p at h1 hle ⊢
      obtain ⟨thisLen, bounced⟩ := p
      dsimp only at h1 hle ⊢
      by_cases hw : w.data k i = thisLen
      · rw [if_pos hw]
        have hblk := usbBlkMsg_spec c s buffer h1 hw bounced
        obtain ⟨s', retval', heq, htag, hatt, hend⟩ := ih (i + 1) (usbBlkMsg w c k i s buffer thisLen bounced)
          (buffer + thisLen) (w.data k i) (show len - thisLen ≤ n by omega) (by omega)
        refine ⟨s', retval', heq, by rw [htag, usbBlkMsg_tag], by rw [hatt, usbBlkMsg_attempts], ?_⟩
        rcases hend with ⟨hwhole, hret, hmoved⟩ | ⟨hwhole, hret, htime⟩
        · exact .inl ⟨⟨hw, hwhole⟩, hret, hmoved.step hblk h1 hle⟩
        · refine .inr ⟨fun hall => hwhole hall.2, hret, htime.trans ⟨fun ht => .inr ⟨hw, ht⟩, ?_⟩⟩
          rintro (ht | ht)
          · rw [hw] at ht; exact absurd ht (by unfold USBSTORAGE_ETIMEDOUT; omega)
          · exact ht.2
      · rw [if_neg hw]
        have hneg : (if w.data k i ≠ USBSTORAGE_ETIMEDOUT then USBSTORAGE_EDATARESIDUE else w.data k i) < 0 := by
          unfold USBSTORAGE_ETIMEDOUT USBSTORAGE_EDATARESIDUE
          split_ifs <;> omega
        refine ⟨_, _, usbData_neg hneg, usbBlkMsg_tag .., usbBlkMsg_attempts .., .inr ⟨fun hall => hw hall.1, hneg, ?_⟩⟩
        constructor
        · intro ht
          split_ifs at ht with hd
          · exact absurd ht (by decide)
          · exact .inl (not_not.1 hd)
        · rintro (ht | ht)
          · rw [if_neg (not_not.2 ht)]; exact ht
          · exact absurd ht.1 hw

/-! ## An attempt -/

/-- The state once the command block is sent. -/
def usbSent (w : UsbDevice) (c : UsbCommand) (k : Nat) (s : UsbStorage) : UsbStorage :=
  { s with suspended := false, tag := u32 (s.tag + 1), msgs := s.msgs ++ [.cbw (usbCbw c (u32 (s.tag + 1))) (w.cbw k)] }

theorem usbSendCbw_valid (hc : UsbValid c) : (usbSendCbw w c k s).1 = usbSent w c k s := by
  unfold usbSendCbw
  rw [if_neg (by have := hc.1; have := hc.2; omega)]
  rfl

theorem usbSendCbw_taken (hc : UsbValid c) (hw : usbTaken w k) : (usbSendCbw w c k s).2 = 0 := by
  unfold usbSendCbw
  rw [if_neg (by have := hc.1; have := hc.2; omega)]
  dsimp only
  rcases hw with hw | hw
  · rw [hw]; rfl
  · rw [hw]; rfl

theorem usbSendCbw_refused (hc : UsbValid c) (hw : ¬ usbTaken w k) :
    (usbSendCbw w c k s).2 < 0 ∧ ((usbSendCbw w c k s).2 = USBSTORAGE_ETIMEDOUT ↔ w.cbw k = USBSTORAGE_ETIMEDOUT) := by
  obtain ⟨h0, h31⟩ : w.cbw k ≠ 0 ∧ w.cbw k ≠ CBW_SIZE := not_or.1 hw
  unfold usbSendCbw
  rw [if_neg (by have := hc.1; have := hc.2; omega)]
  dsimp only
  rw [if_neg h31]
  split_ifs with hpos
  · exact ⟨by decide, fun ht => absurd ht (by decide), fun ht => absurd (ht ▸ hpos) (by decide)⟩
  · exact ⟨by omega, Iff.rfl⟩

theorem lwbrx_zeroed : lwbrx ((List.range CSW_SIZE).map fun (i : Nat) => if (i : Int) < 0 then w.cswIn k i else 0) 0 ≠ CSW_SIGNATURE := by
  have hmap : ((List.range CSW_SIZE).map fun (i : Nat) => if (i : Int) < 0 then w.cswIn k i else 0) = List.replicate CSW_SIZE 0 :=
    List.ext_getElem (by simp) fun i h1 h2 => by
      rw [List.getElem_map, List.getElem_replicate, if_neg (by omega)]
  rw [hmap]
  decide

theorem usbCsw_whole : ((List.range CSW_SIZE).map fun (i : Nat) => if (i : Int) < (CSW_SIZE : Int) then w.cswIn k i else 0) =
    (List.range CSW_SIZE).map (w.cswIn k) :=
  List.map_congr_left fun _ hi => if_pos (Int.ofNat_lt.2 (List.mem_range.1 hi))

theorem usbReadCsw_keeps : (usbReadCsw w k s).1.tag = s.tag ∧ (usbReadCsw w k s).1.attempts = s.attempts ∧
    (usbReadCsw w k s).1.mem = s.mem := by
  unfold usbReadCsw
  dsimp only
  split_ifs <;> exact ⟨rfl, rfl, rfl⟩

theorem usbReadCsw_msgs (hw : w.csw k = CSW_SIZE) :
    (usbReadCsw w k s).1.msgs = s.msgs ++ [.csw ((List.range CSW_SIZE).map (w.cswIn k)) CSW_SIZE] := by
  unfold usbReadCsw
  dsimp only
  rw [hw, usbCsw_whole]
  split_ifs <;> rfl

theorem usbReadCsw_answered (hw : UsbCsw w k s.tag) : (usbReadCsw w k s).2 = 0 := by
  obtain ⟨hsize, hsig, htag⟩ := hw
  unfold usbReadCsw
  dsimp only
  rw [hsize, usbCsw_whole, if_neg (fun hn => hn.2 rfl), if_neg (by decide), if_neg (not_not.2 hsig)]
  exact if_neg (not_not.2 htag)

theorem usbReadCsw_refused (hw : ¬ UsbCsw w k s.tag) :
    (usbReadCsw w k s).2 < 0 ∧ ((usbReadCsw w k s).2 = USBSTORAGE_ETIMEDOUT ↔ w.csw k = USBSTORAGE_ETIMEDOUT) := by
  by_cases hsize : w.csw k = CSW_SIZE
  · unfold usbReadCsw
    dsimp only
    rw [hsize, usbCsw_whole, if_neg (fun hn => hn.2 rfl), if_neg (by decide)]
    split_ifs with hsig htag
    · exact ⟨by dsimp only; decide, by dsimp only; decide⟩
    · exact ⟨by dsimp only; decide, by dsimp only; decide⟩
    · exact absurd ⟨hsize, not_not.1 hsig, not_not.1 htag⟩ hw
  · unfold usbReadCsw
    dsimp only
    by_cases hpos : w.csw k > 0
    · rw [if_pos ⟨hpos, hsize⟩]
      dsimp only
      exact ⟨by decide, fun ht => absurd ht (by decide), fun ht => absurd (ht ▸ hpos) (by decide)⟩
    · rw [if_neg fun hn => hpos hn.1]
      by_cases hneg : w.csw k < 0
      · rw [if_pos hneg]
        exact ⟨hneg, Iff.rfl⟩
      · have hzero : w.csw k = 0 := by omega
        rw [if_neg hneg, hzero, if_pos lwbrx_zeroed]
        dsimp only
        exact ⟨by decide, by decide⟩

theorem usbReset_neg (hr : retval < 0) :
    (if retval < 0 ∧ w.reset k = USBSTORAGE_ETIMEDOUT then USBSTORAGE_ETIMEDOUT else retval) < 0 ∧
      ((if retval < 0 ∧ w.reset k = USBSTORAGE_ETIMEDOUT then USBSTORAGE_ETIMEDOUT else retval) = USBSTORAGE_ETIMEDOUT ↔
        w.reset k = USBSTORAGE_ETIMEDOUT ∨ retval = USBSTORAGE_ETIMEDOUT) := by
  by_cases hw : w.reset k = USBSTORAGE_ETIMEDOUT
  · rw [if_pos ⟨hr, hw⟩]
    exact ⟨by decide, fun _ => .inl hw, fun _ => rfl⟩
  · rw [if_neg fun hn => hw hn.2]
    exact ⟨hr, .inr, fun ht => ht.resolve_left hw⟩

theorem usbTimedOut_taken (hw : usbTaken w k) : UsbTimedOut w h c k ↔ w.reset k = USBSTORAGE_ETIMEDOUT ∨
    (UsbDataTimedOut w k 0 (usbSplit h c.len c.buffer c.len) ∨
      (UsbWhole w k 0 (usbSplit h c.len c.buffer c.len) ∧ w.csw k = USBSTORAGE_ETIMEDOUT)) := by
  have hcbw : w.cbw k ≠ USBSTORAGE_ETIMEDOUT := by
    rcases hw with hw | hw
    · rw [hw]; decide
    · rw [hw]; decide
  unfold UsbTimedOut
  rw [or_iff_right hcbw, and_iff_right hw]

theorem usbTimedOut_refused (hw : ¬ usbTaken w k) :
    UsbTimedOut w h c k ↔ w.reset k = USBSTORAGE_ETIMEDOUT ∨ w.cbw k = USBSTORAGE_ETIMEDOUT := by
  unfold UsbTimedOut
  rw [or_iff_left (a := w.cbw k = USBSTORAGE_ETIMEDOUT) fun hn => hw hn.1]

/-- The messages of an attempt in which all went well, as far as the code looks. -/
def UsbWent (w : UsbDevice) (c : UsbCommand) (k : Nat) (s : UsbStorage) : Prop :=
  ∃ msgs, s.msgs = .cbw (usbCbw c s.tag) (w.cbw k) :: (msgs ++ [.csw ((List.range CSW_SIZE).map (w.cswIn k)) CSW_SIZE]) ∧
    UsbMoved c.write s.mem c.buffer c.len msgs ∧ UsbCsw w k s.tag

/-- What comes of the attempt `k` with the tag `tag`. -/
def UsbAttempted (w : UsbDevice) (h : UsbHandle) (c : UsbCommand) (k tag : Nat) (s : UsbStorage) (retval : Int) : Prop :=
  s.attempts = k + 1 ∧ s.tag = tag ∧
    ((usbTaken w k ∧ UsbAnswered w h c k tag ∧ retval = 0 ∧ UsbWent w c k s) ∨
      (¬ (usbTaken w k ∧ UsbAnswered w h c k tag) ∧ retval < 0 ∧ (retval = USBSTORAGE_ETIMEDOUT ↔ UsbTimedOut w h c k)))

theorem usbAttempt_taken (hb : 1 ≤ h.bufferSize) (hc : UsbValid c) (hw : usbTaken w s.attempts) :
    ∃ s' retval, usbAttempt w h c s = some (s', retval) ∧ UsbAttempted w h c s.attempts (u32 (s.tag + 1)) s' retval := by
  let s1 := usbSent w c s.attempts { s with attempts := s.attempts + 1, msgs := [] }
  have hsend : usbSendCbw w c s.attempts { s with attempts := s.attempts + 1, msgs := [] } = (s1, 0) :=
    Prod.ext (usbSendCbw_valid hc) (usbSendCbw_taken hc hw)
  obtain ⟨s2, retval2, hdata, htag, hatt, hends⟩ := usbData_spec (w := w) (c := c) (k := s.attempts) hb 0 s1 c.buffer 0
    (Nat.le_refl c.len) (Int.le_refl 0)
  have htag : s2.tag = u32 (s.tag + 1) := htag
  unfold usbAttempt UsbAttempted
  dsimp only
  rw [hsend, hdata, Option.map_some]
  refine ⟨_, _, rfl, ?_⟩
  rw [usbTimedOut_taken hw]
  rcases hends with ⟨hwhole, hret, hmoved⟩ | ⟨hwhole, hret, htime⟩
  · obtain ⟨hctag, hcatt, hcmem⟩ := usbReadCsw_keeps (w := w) (k := s.attempts) (s := s2)
    rw [if_pos hret]
    refine ⟨hcatt.trans hatt, hctag.trans htag, ?_⟩
    by_cases hcsw : UsbCsw w s.attempts s2.tag
    · have hzero := usbReadCsw_answered hcsw
      obtain ⟨msgs, hmsgs, hmoved⟩ := hmoved.msgs
      rw [hzero, if_neg (fun hn => absurd hn.1 (by decide))]
      refine .inl ⟨hw, ⟨hwhole, htag ▸ hcsw⟩, rfl, msgs, ?_, ?_, ?_⟩
      · rw [usbReadCsw_msgs hcsw.1, hmsgs, hctag, htag]; rfl
      · rw [hcmem]; exact hmoved
      · rw [hctag]; exact hcsw
    · obtain ⟨hneg, htime⟩ := usbReadCsw_refused hcsw
      obtain ⟨hneg', htime'⟩ := usbReset_neg (w := w) (k := s.attempts) hneg
      refine .inr ⟨fun hall => hcsw (htag ▸ hall.2.csw), hneg', htime'.trans (or_congr_right ?_)⟩
      rw [htime, or_iff_right (usbWhole_inTime hwhole), and_iff_right hwhole]
  · obtain ⟨hneg', htime'⟩ := usbReset_neg (w := w) (k := s.attempts) hret
    rw [if_neg (by omega)]
    refine ⟨hatt, htag, .inr ⟨fun hall => hwhole hall.2.data, hneg', htime'.trans (or_congr_right ?_)⟩⟩
    rw [htime, or_iff_left fun hn => hwhole hn.1]

/-- An attempt whose command block is not sent does no more than reset the device. -/
theorem usbAttempt_refused {s1 : UsbStorage}
    (hsend : usbSendCbw w c s.attempts { s with attempts := s.attempts + 1, msgs := [] } = (s1, retval)) (hr : retval < 0) :
    usbAttempt w h c s = some (s1,
      if retval < 0 ∧ w.reset s.attempts = USBSTORAGE_ETIMEDOUT then USBSTORAGE_ETIMEDOUT else retval) := by
  unfold usbAttempt
  dsimp only
  rw [hsend, usbData_neg hr, Option.map_some, if_neg (by omega : ¬ retval ≥ 0)]

theorem usbAttempt_spec (hb : 1 ≤ h.bufferSize) (hc : UsbValid c) :
    ∃ s' retval, usbAttempt w h c s = some (s', retval) ∧ UsbAttempted w h c s.attempts (u32 (s.tag + 1)) s' retval := by
  by_cases hw : usbTaken w s.attempts
  · exact usbAttempt_taken hb hc hw
  · obtain ⟨hneg, htime⟩ := usbSendCbw_refused (s := { s with attempts := s.attempts + 1, msgs := [] }) hc hw
    obtain ⟨hneg', htime'⟩ := usbReset_neg (w := w) (k := s.attempts) hneg
    refine ⟨_, _, usbAttempt_refused (Prod.ext (usbSendCbw_valid hc) rfl) hneg, rfl, rfl,
      .inr ⟨fun hall => hw hall.1, hneg', htime'.trans ?_⟩⟩
    rw [htime, usbTimedOut_refused hw]

theorem usbAttempt_invalid (hc : ¬ UsbValid c) :
    ∃ s' retval, usbAttempt w h c s = some (s', retval) ∧ s'.attempts = s.attempts + 1 ∧ retval < 0 := by
  have hsend : usbSendCbw w c s.attempts { s with attempts := s.attempts + 1, msgs := [] } =
      ({ s with attempts := s.attempts + 1, msgs := [] }, -4) := by
    unfold usbSendCbw UsbValid at *
    exact if_pos (by omega)
  exact ⟨_, _, usbAttempt_refused hsend (by decide), rfl, (usbReset_neg (by decide)).1⟩

/-! ## The attempts -/

/-- The first attempt that goes well is the last one made, or none of the first `n` goes well and the result is negative. -/
def UsbRetried (w : UsbDevice) (h : UsbHandle) (c : UsbCommand) (s0 : UsbStorage) (n : Nat) (s : UsbStorage) (retval : Int) : Prop :=
  (∃ k < n, UsbReached w h c s0 k ∧ usbTaken w k ∧ UsbAnswered w h c k (usbTag s0 k) ∧ retval = 0 ∧ UsbWent w c k s) ∨
    (retval < 0 ∧ ∀ k < n, UsbReached w h c s0 k → ¬ (usbTaken w k ∧ UsbAnswered w h c k (usbTag s0 k)))

theorem UsbReached.unique {s0 : UsbStorage} {j : Nat} (hk : UsbReached w h c s0 k) (hj : UsbReached w h c s0 j)
    (hwell : usbTaken w k ∧ UsbAnswered w h c k (usbTag s0 k)) (hwell' : usbTaken w j ∧ UsbAnswered w h c j (usbTag s0 j)) : j = k := by
  rcases Nat.lt_trichotomy j k with hlt | heq | hgt
  · exact absurd hwell' (hk j hlt).1
  · exact heq
  · exact absurd hwell (hj k hgt).1

/-- When the attempt `k` fails and nothing more is tried, no attempt before `n` goes well. -/
theorem UsbRetried.of_last {s0 : UsbStorage} (hk : UsbReached w h c s0 k) (hr : retval < 0)
    (hfail : ¬ (usbTaken w k ∧ UsbAnswered w h c k (usbTag s0 k))) (hlast : UsbTimedOut w h c k ∨ n ≤ k + 1) :
    UsbRetried w h c s0 n s retval := by
  refine .inr ⟨hr, fun j hj hreached => ?_⟩
  rcases Nat.lt_trichotomy j k with hlt | rfl | hgt
  · exact (hk j hlt).1
  · exact hfail
  · rcases hlast with ht | hn
    · exact absurd ht (hreached k hgt).2
    · omega

/-- The attempts from the attempt `k` on; the tags of the attempts to come are those of the cycle. -/
theorem usbRetry_spec (hb : 1 ≤ h.bufferSize) (hc : UsbValid c) (s0 : UsbStorage) (hr : retval ≠ USBSTORAGE_ETIMEDOUT)
    (hk : UsbReached w h c s0 s.attempts) (htag : ∀ j, u32 (s.tag + (j + 1)) = usbTag s0 (s.attempts + j)) :
    ∃ s' retval', usbRetry w h c (n + 1) s retval = some (s', retval') ∧ s'.attempts ≤ s.attempts + (n + 1) ∧
      UsbRetried w h c s0 (s.attempts + (n + 1)) s' retval' := by
  induction n generalizing s retval with
  | zero =>
    obtain ⟨s1, retval1, hone, hatt, -, hend⟩ := usbAttempt_spec (s := s) (w := w) hb hc
    rw [htag 0] at hend
    refine ⟨s1, retval1, ?_, by omega, ?_⟩
    · rw [usbRetry, if_neg hr, hone]
      exact if_neg fun hn => absurd hn.2 (by decide)
    · rcases hend with ⟨htaken, hans, hzero, hwent⟩ | ⟨hfail, hneg, -⟩
      · exact .inl ⟨s.attempts, by omega, hk, htaken, hans, hzero, hwent⟩
      · exact .of_last hk hneg hfail (.inr (by omega))
  | succ n ih =>
    obtain ⟨s1, retval1, hone, hatt, htag1, hend⟩ := usbAttempt_spec (s := s) (w := w) hb hc
    rw [htag 0] at hend
    rw [usbRetry, if_neg hr, hone]
    dsimp only
    rcases hend with ⟨htaken, hans, hzero, hwent⟩ | ⟨hfail, hneg, htime⟩
    · rw [if_neg (by omega)]
      exact ⟨s1, retval1, rfl, by omega, .inl ⟨s.attempts, by omega, hk, htaken, hans, hzero, hwent⟩⟩
    · rw [if_pos ⟨hneg, by omega⟩]
      by_cases ht : retval1 = USBSTORAGE_ETIMEDOUT
      · refine ⟨s1, retval1, ?_, by omega, .of_last hk hneg hfail (.inl (htime.1 ht))⟩
        rw [usbRetry, if_pos ht]
      · -- the attempts before the next one are those before this one, and this one
        have hk1 : UsbReached w h c s0 s1.attempts := by
          intro j hj
          rcases Nat.lt_or_eq_of_le (by omega : j ≤ s.attempts) with hlt | rfl
          · exact hk j hlt
          · exact ⟨hfail, fun htimed => ht (htime.2 htimed)⟩
        have htags : ∀ j, u32 (s1.tag + (j + 1)) = usbTag s0 (s1.attempts + j) := by
          intro j
          rw [htag1, u32_add, hatt, show s.tag + 1 + (j + 1) = s.tag + ((j + 1) + 1) by omega, htag (j + 1),
            show s.attempts + (j + 1) = s.attempts + 1 + j by omega]
        obtain ⟨s', retval', heq, hle, hretried⟩ := ih ht hk1 htags
        rw [hatt, show s.attempts + 1 + (n + 1) = s.attempts + (n + 1 + 1) by omega] at hle hretried
        exact ⟨s', retval', heq, hle, hretried⟩

theorem usbRetry_invalid (hc : ¬ UsbValid c) (s : UsbStorage) (retval : Int) (hr : n = 0 → retval < 0) :
    ∃ s' retval', usbRetry w h c n s retval = some (s', retval') ∧ s'.attempts ≤ s.attempts + n ∧ retval' < 0 := by
  induction n generalizing s retval with
  | zero => exact ⟨s, retval, rfl, Nat.le_refl _, hr rfl⟩
  | succ n ih =>
    rw [usbRetry]
    by_cases ht : retval = USBSTORAGE_ETIMEDOUT
    · rw [if_pos ht]
      exact ⟨s, retval, rfl, by omega, ht ▸ by decide⟩
    · obtain ⟨s1, retval1, hone, hatt, hneg⟩ := usbAttempt_invalid (w := w) (h := h) (s := s) hc
      rw [if_neg ht, hone]
      dsimp only
      split_ifs with hmore
      · obtain ⟨s', retval', heq, hle, hneg'⟩ := ih s1 retval1 fun _ => hneg
        exact ⟨s', retval', heq, by omega, hneg'⟩
      · exact ⟨s1, retval1, rfl, by omega, hneg⟩

/-- A cycle of a block that can be sent: the attempts are the four of `UsbRetried`. -/
theorem usbCycle_spec (hb : 1 ≤ h.bufferSize) (hc : UsbValid c) :
    ∃ s' retval, usbCycle w h c s = some (s', retval) ∧ s'.attempts ≤ USBSTORAGE_CYCLE_RETRIES + 1 ∧
      UsbRetried w h c s (USBSTORAGE_CYCLE_RETRIES + 1) s' retval := by
  obtain ⟨s', retval, heq, hle, hretried⟩ := usbRetry_spec (w := w) (s := { s with status := 0, dataResidue := 0, attempts := 0 }) hb hc s
    (n := USBSTORAGE_CYCLE_RETRIES) (show (0 : Int) ≠ USBSTORAGE_ETIMEDOUT by decide) (fun j hj => absurd hj (Nat.not_lt_zero j))
    (fun j => by dsimp only [usbTag]; rw [Nat.zero_add])
  dsimp only at hle hretried
  rw [Nat.zero_add] at hle hretried
  exact ⟨s', retval, heq, hle, hretried⟩

theorem usbDone_iff (hs : UsbWent w c k s) : UsbDone c s ↔ w.cbw k = CBW_SIZE := by
  obtain ⟨msgs, hmsgs, hmoved, hcsw⟩ := hs
  constructor
  · rintro ⟨msgs', csw, hmsgs', -⟩
    rw [hmsgs] at hmsgs'
    exact (UsbMsg.cbw.inj (List.cons.inj hmsgs').1).2
  · intro hw
    exact ⟨msgs, _, by rw [hmsgs, hw], hmoved, by simp, hcsw.2.1, hcsw.2.2⟩

/-- **When a cycle that succeeds is whole.**  It ends after four attempts at most, and a result that is not negative says that the last
attempt was whole, as long as in no attempt the command block moves no bytes and all the rest goes well: `__send_cbw` takes no bytes
for a block that was sent. -/
theorem usb_cycle_done (w : UsbDevice) (h : UsbHandle) (c : UsbCommand) (s : UsbStorage) (hb : 1 ≤ h.bufferSize) :
    UsbCycled w h c s ↔ ∀ k < USBSTORAGE_CYCLE_RETRIES + 1, UsbValid c → UsbReached w h c s k →
      ¬ (w.cbw k = 0 ∧ UsbAnswered w h c k (usbTag s k)) := by
  by_cases hc : UsbValid c
  · obtain ⟨s', retval, heq, hle, hretried⟩ := usbCycle_spec (w := w) (s := s) hb hc
    constructor
    · rintro ⟨s1, retval1, heq1, -, hdone⟩ k hk - hreached ⟨hzero, hans⟩
      obtain ⟨rfl, rfl⟩ := Prod.mk.inj (Option.some.inj (heq.symm.trans heq1))
      rcases hretried with ⟨j, -, hreachedj, htaken, hansj, hret, hwent⟩ | ⟨-, hnone⟩
      · obtain rfl := hreached.unique hreachedj ⟨.inl hzero, hans⟩ ⟨htaken, hansj⟩
        have hwhole := (usbDone_iff hwent).1 (hdone (by omega))
        exact absurd (hzero.symm.trans hwhole) (by decide)
      · exact hnone k hk hreached ⟨.inl hzero, hans⟩
    · intro hall
      refine ⟨s', retval, heq, hle, fun hret => ?_⟩
      rcases hretried with ⟨k, hk, hreached, htaken, hans, -, hwent⟩ | ⟨hneg, -⟩
      · exact (usbDone_iff hwent).2 (htaken.resolve_left fun hzero => hall k hk hc hreached ⟨hzero, hans⟩)
      · omega
  · refine ⟨fun _ _ _ hvalid => absurd hvalid hc, fun _ => ?_⟩
    obtain ⟨s', retval, heq, hle, hneg⟩ := usbRetry_invalid (w := w) (h := h) hc
      { s with status := 0, dataResidue := 0, attempts := 0 } 0 (n := USBSTORAGE_CYCLE_RETRIES + 1) (fun hn => absurd hn (by decide))
    exact ⟨s', retval, heq, by dsimp only at hle; omega, fun hret => by omega⟩

/-- A device that takes no bytes of the block except in the attempt `whole`, where it moves eight bytes of data; it answers each attempt
with its own tag. -/
def usbDeviceEx (whole : Nat) : UsbDevice where
  cbw k := if k = whole then CBW_SIZE else 0
  data k _ := if k = whole then 8 else -1
  dataIn _ _ i := UInt8.ofNat i
  csw _ := CSW_SIZE
  cswIn k i := (stwbrx CSW_SIGNATURE ++ stwbrx (0x0BADC0DE + (k + 1)) ++ List.replicate 5 0).getD i 0
  reset _ := 0

def usbHandleEx : UsbHandle := { bufferSize := 4096, usb2Mode := true, mem1Top := 0x81700000, mem2Top := 0x93400000 }

def usbStorageEx : UsbStorage :=
  { mem := fun _ => 0, bounce := fun _ => 0, suspended := false, tag := 0x0BADC0DE, status := 0, dataResidue := 0, attempts := 0,
    msgs := [] }

theorem usb_cycle_done_second : 1 ≤ usbHandleEx.bufferSize ∧
    UsbCycled (usbDeviceEx 1) usbHandleEx { lun := 0, buffer := 0x80001000, len := 8, cb := [0x25], write := false } usbStorageEx := by
  refine ⟨by decide, (usb_cycle_done _ _ _ _ (by decide)).2 fun k _ _ _ ⟨hzero, hans⟩ => ?_⟩
  have hsplit : usbSplit usbHandleEx 8 0x80001000 8 = [8] := by decide
  have hdata := hans.data
  rw [hsplit] at hdata
  have hfirst : (if k = 1 then (8 : Int) else -1) = 8 := hdata.1
  have hk : k = 1 := by
    by_contra hne
    rw [if_neg hne] at hfirst
    exact absurd hfirst (by decide)
  rw [hk] at hzero
  exact absurd hzero (by decide)

/-- The command of `__usbstorage_clearerrors`, which has no data. -/
def usbTestUnitReady : UsbCommand := { lun := 0, buffer := 0, len := 0, cb := [0, 0, 0, 0, 0, 0], write := false }

/-- The device takes no bytes of its block, and the cycle succeeds at once. -/
theorem usb_cycle_misses : ¬ UsbCycled (usbDeviceEx 4) usbHandleEx usbTestUnitReady usbStorageEx := by
  rintro ⟨s', retval, heq, -, hdone⟩
  have hrun := congrArg (Option.map fun p => (p.2, p.1.msgs.head?)) heq
  have hmsgs : (usbCycle (usbDeviceEx 4) usbHandleEx usbTestUnitReady usbStorageEx).map (fun p => (p.2, p.1.msgs.head?)) =
      some (0, some (.cbw (usbCbw usbTestUnitReady 0x0BADC0DF) 0)) := by decide
  obtain ⟨hret, hhead⟩ := Prod.mk.inj (Option.some.inj (hrun.symm.trans hmsgs))
  obtain ⟨msgs, csw, hs, -⟩ := hdone (Int.le_of_eq hret.symm)
  dsimp only at hhead
  rw [hs] at hhead
  exact absurd (UsbMsg.cbw.inj (Option.some.inj hhead)).2 (by decide)

end Libogc
