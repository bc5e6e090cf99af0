import Libogc.Ios.Ioctlv
import Libogc.Lib.Bytes
/-!
# Format — `__ios_ioctlvformat_parse` and its callers, of `ipc.c`

A format string says what the items of a vectored request are.  The parser takes a buffer for each item that is passed by value, fills it,
and lists it in `bufs` so that it can be freed after the reply.  The argument, the buffer and the count each have a cursor of their own.

`args` are the values of the variable arguments, and `user` is the memory that those among them that are pointers point into.
-/
namespace Libogc

open Bytes Ledger

def ipcEinval : Int := -4
def ipcHeap : Int := -1

def iosMaxfmtParams : Nat := 32

structure IoctlvfmtBufent where
  ipcBuf : Nat
  ioBuf : Nat
  copyLen : Nat
  deriving DecidableEq, Repr

/-- `struct _ioctlvfmt_cbdata` but for the callback, with the vector, the cursors, and what the buffers hold, by their addresses. -/
structure IoctlvFmt where
  mem : IosMem
  data : Nat → List UInt8
  hId : Int
  /-- `cbdata->bufs`, and what it points to. -/
  bufsAt : Nat
  bufs : Nat → IoctlvfmtBufent
  numBufs : Nat
  bufp : Nat
  argv : Nat → Ioctlv
  argp : Nat
  cntIn : Nat
  cntIo : Nat
  /-- The next variable argument. -/
  arg : Nat

/-- The state of the parser, or the one it jumps to `free_and_error` with, and the error. -/
abbrev FmtResult := Except (IoctlvFmt × Int) IoctlvFmt

/-- `strnlen`. -/
def strnlen (user : Nat → UInt8) : Nat → Nat → Nat
  | _, 0 => 0
  | s, n + 1 => if user s = 0 then 0 else strnlen user (s + 1) n + 1

/-! ## The parser -/

section Parse
variable (p : Places) (user : Nat → UInt8) (args : Nat → Nat)

/-- `cnt_in` or `cnt_io`. -/
def IoctlvFmt.count (io : Bool) (st : IoctlvFmt) : IoctlvFmt :=
  if io then { st with cntIo := st.cntIo + 1 } else { st with cntIn := st.cntIn + 1 }

/-- The new buffer goes into the vector and on the list of buffers. -/
def IoctlvFmt.put (st : IoctlvFmt) (pdata size : Nat) (bytes : List UInt8) (ioBuf copyLen : Nat) : IoctlvFmt :=
  { st with data := Function.update st.data pdata bytes
            argv := Function.update st.argv st.argp ⟨pdata, size⟩
            bufs := Function.update st.bufs st.bufp ⟨pdata, ioBuf, copyLen⟩
            numBufs := st.numBufs + 1, argp := st.argp + 1, bufp := st.bufp + 1 }

/-- The cases that take a buffer of `size` bytes.  `ioBuf` is where the reply of an output is copied to; an input leaves it null, as the list
was cleared. -/
def fmtBuffer (io : Bool) (size : Nat) (bytes : List UInt8) (ioBuf copyLen : Nat) (st : IoctlvFmt) : FmtResult :=
  match iosAlloc p st.mem st.hId size with
  | (m, none) => .error ({ st with mem := m }, ipcEnomem)
  | (m, some pdata) => .ok (({ st with mem := m, arg := st.arg + 1 }.put pdata size bytes ioBuf copyLen).count io)

/-- The case `'d'`: a pointer and a length. -/
def fmtPointer (io : Bool) (st : IoctlvFmt) : FmtResult :=
  .ok ({ st with argv := Function.update st.argv st.argp ⟨args st.arg, u32 (args (st.arg + 1))⟩
                 argp := st.argp + 1, arg := st.arg + 2 }.count io)

/-- The case `'s'`. -/
def fmtString (st : IoctlvFmt) : FmtResult :=
  let ps := args st.arg
  let len := strnlen user ps 256
  if len ≥ 256 then .error (st, ipcEinval) else fmtBuffer p false (len + 1) (read user ps (len + 1)) 0 0 st

/-- The switch of the first loop. -/
def fmtInCase (type : Char) (st : IoctlvFmt) : FmtResult :=
  match type with
  | 'b' => fmtBuffer p false 1 (beBytes 1 (args st.arg)) 0 0 st
  | 'h' => fmtBuffer p false 2 (beBytes 2 (args st.arg)) 0 0 st
  | 'i' => fmtBuffer p false 4 (beBytes 4 (args st.arg)) 0 0 st
  | 'q' => fmtBuffer p false 8 (beBytes 8 (args st.arg)) 0 0 st
  | 'd' => fmtPointer args false st
  | 's' => fmtString p user args st
  | _ => .error (st, ipcEinval)

/-- The switch of the second. -/
def fmtIoCase (type : Char) (st : IoctlvFmt) : FmtResult :=
  match type with
  | 'b' => fmtBuffer p true 1 (read user (args st.arg) 1) (args st.arg) 1 st
  | 'h' => fmtBuffer p true 2 (read user (args st.arg) 2) (args st.arg) 2 st
  | 'i' => fmtBuffer p true 4 (read user (args st.arg) 4) (args st.arg) 4 st
  | 'q' => fmtBuffer p true 8 (read user (args st.arg) 8) (args st.arg) 8 st
  | 'd' => fmtPointer args true st
  | _ => .error (st, ipcEinval)

def fmtParseIo : List Char → IoctlvFmt → FmtResult
  | [], st => .ok st
  | c :: format, st => fmtIoCase p user args c.toLower st >>= fmtParseIo format

def fmtParseIn : List Char → IoctlvFmt → FmtResult
  | [], st => .ok st
  | c :: format, st =>
    if c.toLower = ':' then fmtParseIo p user args format st else fmtInCase p user args c.toLower st >>= fmtParseIn format

/-- The loop at `free_and_error`, from the buffer `i` on. -/
def fmtFreeBufs (hId : Int) (bufs : Nat → IoctlvfmtBufent) : Nat → Nat → IosMem → IosMem
  | 0, _, m => m
  | n + 1, i, m => fmtFreeBufs hId bufs n (i + 1) (if (bufs i).ipcBuf ≠ 0 then iosFree m hId (bufs i).ipcBuf else m)

def IoctlvFmt.freeAndError (st : IoctlvFmt) : IoctlvFmt :=
  { st with mem := lwpWkspaceFree (fmtFreeBufs st.hId st.bufs st.numBufs 0 st.mem) st.bufsAt }

/-- Nothing parsed. -/
def fmtNothing (m : IosMem) (hId : Int) : IoctlvFmt where
  mem := m
  data := fun _ => []
  hId := hId
  bufsAt := 0
  bufs := fun _ => ⟨0, 0, 0⟩
  numBufs := 0
  bufp := 0
  argv := fun _ => ⟨0, 0⟩
  argp := 0
  cntIn := 0
  cntIo := 0
  arg := 0

/-- Both lists allocated and cleared, and the vector the first buffer. -/
def fmtStart (m : IosMem) (hId : Int) (bufs argp : Nat) : IoctlvFmt :=
  { fmtNothing m hId with bufsAt := bufs, bufs := Function.update (fun _ => ⟨0, 0, 0⟩) 0 ⟨argp, 0, 0⟩, numBufs := 1, bufp := 1 }

/-- `format` is a string without its terminator; `ipcHid` is `_ipc_hid`. -/
def iosIoctlvformatParse (ipcHid : Int) (m : IosMem) (format : List Char) (hId : Int) : IoctlvFmt × Int :=
  let hId := if hId = ipcHeap then ipcHid else hId
  if hId < 0 then (fmtNothing m hId, ipcEinval)
  else
    let maxbufs := min format.length iosMaxfmtParams
    if maxbufs ≥ iosMaxfmtParams then (fmtNothing m hId, ipcEinval)
    else
      match lwpWkspaceAllocate p m with
      | (m, none) => (fmtNothing m hId, ipcEnomem)
      | (m, some bufs) =>
        match iosAlloc p m hId (8 * (maxbufs + 1) : Nat) with
        | (m, none) => (fmtNothing (lwpWkspaceFree m bufs) hId, ipcEnomem)
        | (m, some argp) =>
          match fmtParseIn p user args format (fmtStart m hId bufs argp) with
          | .ok st => (st, ipcOk)
          | .error (st, ret) => (st.freeAndError, ret)

/-! ## The calls -/

/-- `memcpy` to the caller's memory. -/
def userCopy (user : Nat → UInt8) (dst len : Nat) (bytes : List UInt8) : Nat → UInt8 :=
  fun a => if dst ≤ a ∧ a < dst + len then bytes.getD (a - dst) 0 else user a

/-- The loop of `__ioctlvfmtCB`, from the buffer `i` on. -/
def fmtReturnBufs (hId : Int) (data : Nat → List UInt8) (bufs : Nat → IoctlvfmtBufent) :
    Nat → Nat → IosMem → (Nat → UInt8) → IosMem × (Nat → UInt8)
  | 0, _, m, user => (m, user)
  | n + 1, i, m, user =>
    let pbuf := bufs i
    if pbuf.ipcBuf ≠ 0 then
      fmtReturnBufs hId data bufs n (i + 1) (iosFree m hId pbuf.ipcBuf)
        (if pbuf.ioBuf ≠ 0 ∧ pbuf.copyLen ≠ 0 then userCopy user pbuf.ioBuf pbuf.copyLen (data pbuf.ipcBuf) else user)
    else fmtReturnBufs hId data bufs n (i + 1) m user

/-- `__ioctlvfmtCB`, up to the user's callback. -/
def ioctlvfmtCB (st : IoctlvFmt) (cbdata : Nat) (user : Nat → UInt8) : IosMem × (Nat → UInt8) :=
  let got := fmtReturnBufs st.hId st.data st.bufs st.numBufs 0 st.mem user
  (lwpWkspaceFree (lwpWkspaceFree got.1 st.bufsAt) cbdata, got.2)

/-- The vector with its counts as words. -/
def IoctlvFmt.call (st : IoctlvFmt) : IoctlvCall where
  cntIn := st.cntIn % 2 ^ 31
  cntIo := st.cntIo % 2 ^ 31
  argv := st.argv
  isIn := Nat.mod_lt _ (by decide)
  isIo := Nat.mod_lt _ (by decide)

/-- What a formatted call comes to: the memory, whether its request was queued, and the result. -/
structure FmtOutcome where
  mem : IosMem
  user : Nat → UInt8
  queued : Bool
  ret : Int

/-- What IOS makes of a request: its result, and what the buffers hold after it. -/
structure IosAnswer where
  result : Int
  data : (Nat → List UInt8) → Nat → List UInt8

def iosIoctlvFormat (ipcHid : Int) (m : IosMem) (s : IpcSys Nat) (format : List Char) (hId : Int) (answer : IosAnswer) : FmtOutcome :=
  match lwpWkspaceAllocate p m with
  | (m, none) => ⟨m, user, false, ipcEnomem⟩
  | (m, some cbdata) =>
    let parsed := iosIoctlvformatParse p user args ipcHid m format hId
    if parsed.2 < 0 then ⟨lwpWkspaceFree parsed.1.mem cbdata, user, false, parsed.2⟩
    else
      let queued : Bool := (iosAlloc p parsed.1.mem ipcHid ipcRequestsize).2.isSome ∧ s.cnt < 16
      let got := iosIoctlvCall p parsed.1.mem ipcHid s parsed.1.call answer.result
      let data := if queued then answer.data parsed.1.data else parsed.1.data
      let done := ioctlvfmtCB { parsed.1 with mem := got.1, data := data } cbdata user
      ⟨done.1, done.2, queued, got.2.2⟩

/-- The asynchronous call leaves its data to the callback. -/
def iosIoctlvFormatAsync (ipcHid : Int) (m : IosMem) (s : IpcSys Nat) (format : List Char) (hId : Int) : FmtOutcome :=
  match lwpWkspaceAllocate p m with
  | (m, none) => ⟨m, user, false, ipcEnomem⟩
  | (m, some cbdata) =>
    let parsed := iosIoctlvformatParse p user args ipcHid m format hId
    if parsed.2 < 0 then ⟨lwpWkspaceFree parsed.1.mem cbdata, user, false, parsed.2⟩
    else
      let queued : Bool := (iosAlloc p parsed.1.mem ipcHid ipcRequestsize).2.isSome ∧ s.cnt < 16
      let got := iosIoctlvAsync p parsed.1.mem ipcHid s parsed.1.call
      ⟨got.1, user, queued, got.2.2⟩

end Parse

end Libogc
