import Libogc.Lib.Runs
import Libogc.Lib.Words
/-!
# Console — `console.c`

The text console: the cursor, the escape sequences, and what each function touches in the frame buffer.  The buffer is only
written and copied, so a function's effect on it is the list of its accesses (`ConAccess`), with offsets in bytes from
`destbuffer`.  The cursor and the parameters of an escape sequence are signed words of 32 bits, which are not checked for a wrap;
the buffer itself lies in the address space, so offsets inside it do not wrap.
-/
namespace Libogc

open Runs

/-- `FONT_XSIZE`, `FONT_YSIZE`, `TAB_SIZE`. -/
def fontXsize : Nat := 8
def fontYsize : Nat := 16
def tabSize : Nat := 4

def colorBlack : BitVec 32 := 0x10801080
def colorWhite : BitVec 32 := 0xEB80EB80

def colorTable : List (BitVec 32) :=
  [0x10801080, 0x316D31B8, 0x515B5151, 0x71487189, 0x1DB81D77, 0x3DA53DAF, 0x5D935D48, 0xB580B580,
    0x7E807E80, 0x515A51F0, 0x91369122, 0xD210D292, 0x29F0296E, 0x6ACA6ADE, 0xAAA6AA10, 0xEB80EB80]

/-- `console_data_s`; `font` is the table of the glyphs, sixteen bytes each, and `xfbCopy` is `do_xfb_copy`. -/
structure Console where
  font : Nat → BitVec 8
  xres : Nat
  yres : Nat
  stride : Nat
  cursorRow : Int
  cursorCol : Int
  savedRow : Int
  savedCol : Int
  rows : Int
  cols : Int
  foreground : BitVec 32
  background : BitVec 32
  xfbCopy : Bool

/-- What the functions touch: a word of the buffer, a copy inside it, an entry of `color_table`. -/
inductive ConAccess where
  | write (off : Int) (value : BitVec 32)
  | copy (dst src len : Int)
  | color (index : Int)
  deriving DecidableEq, Repr

/-! ## Drawing and clearing -/

/-- The colour of two pixels. -/
def conPixels (con : Console) (bits : BitVec 8) (j : Nat) : BitVec 32 :=
  (if bits &&& (0x80 >>> (2 * j)) ≠ 0 then con.foreground &&& 0xFFFF00FF else con.background &&& 0xFFFF00FF) |||
    (if bits &&& (0x40 >>> (2 * j)) ≠ 0 then con.foreground &&& 0x0000FF00 else con.background &&& 0x0000FF00)

/-- Four words for each of the sixteen lines of the glyph, one line of the buffer after the other. -/
def consoleDrawc (con : Console) (c : UInt8) : List ConAccess :=
  if con.xfbCopy then []
  else
    let ptr := con.stride * con.cursorRow * fontYsize + (con.cursorCol * fontXsize).tdiv 2 * 4
    (List.range fontYsize).flatMap fun (ay : Nat) => (List.range 4).map fun (j : Nat) =>
      .write (ptr + 4 * (con.stride / 4 : Nat) * ay + 4 * j) (conPixels con (con.font (c.toNat * fontYsize + ay)) j)

/-- The width and the place of the cleared part are unsigned words. -/
def consoleClearLine (con : Console) (line start stop : Int) : List ConAccess :=
  let xPixels := con.xres / 2
  let pxPerCol := fontXsize / 2
  let lineWidth := ((stop - start) * pxPerCol % 2 ^ 32).toNat
  let p := (line * (fontYsize * xPixels : Nat) + start * pxPerCol) % 2 ^ 32
  (List.range fontYsize).flatMap fun (y : Nat) => (List.range lineWidth).map fun (j : Nat) =>
    .write (4 * (p + y * xPixels + j)) con.background

def consoleClear (con : Console) : Console × List ConAccess :=
  ({ con with cursorRow := 0, cursorCol := 0, savedRow := 0, savedCol := 0 },
    (List.range (con.xres * con.yres / 2)).map fun (j : Nat) => .write (4 * j) con.background)

def consoleClearFromCursor (con : Console) : List ConAccess :=
  consoleClearLine con con.cursorRow con.cursorCol con.cols ++
    (List.range (con.rows - con.cursorRow).toNat).flatMap fun (i : Nat) => consoleClearLine con (con.cursorRow + 1 + i) 0 con.cols

def consoleClearToCursor (con : Console) : List ConAccess :=
  consoleClearLine con con.cursorRow 0 con.cursorCol ++
    (List.range (con.cursorRow % 2 ^ 32).toNat).flatMap fun (i : Nat) =>
      consoleClearLine con (s32 (con.cursorRow - 1 - i)) 0 con.cols

/-- `__console_init`, and what of `__console_init_ex` concerns the buffer. -/
def consoleInit (font : Nat → BitVec 8) (xres yres stride : Nat) : Console × List ConAccess :=
  consoleClear {
    font := font, xres := xres, yres := yres, stride := stride
    cursorRow := 0, cursorCol := 0, savedRow := 0, savedCol := 0
    rows := (yres / fontYsize : Nat), cols := (xres / fontXsize : Nat)
    foreground := colorWhite, background := colorBlack, xfbCopy := false }

/-! ## Escape sequences -/

def conChar (c : Char) : UInt8 := UInt8.ofNat c.toNat

def conDigit (c : UInt8) : Prop := conChar '0' ≤ c ∧ c ≤ conChar '9'

instance (c : UInt8) : Decidable (conDigit c) := inferInstanceAs (Decidable (_ ∧ _))

/-- The digits of a parameter, and what follows them. -/
def conDigits : BitVec 32 → List UInt8 → BitVec 32 × List UInt8
  | para, [] => (para, [])
  | para, c :: cs =>
    if conDigit c then conDigits (para * 10 + BitVec.ofNat 32 (c - conChar '0').toNat) cs else (para, c :: cs)

/-- Up to so many parameters, each with the delimiter that may follow it. -/
def conParams : Nat → List UInt8 → List (BitVec 32) × List UInt8
  | 0, cs => ([], cs)
  | n + 1, cs =>
    if conDigit (cs.headD 0) then
      let (para, rest) := conDigits 0 cs
      let rest := if rest.headD 0 = conChar ';' then rest.tail else rest
      let (paras, rest) := conParams n rest
      (para :: paras, rest)
    else ([], cs)

/-- What a caller of the console sends: a character, or an escape sequence with its first two parameters. -/
inductive ConEvent where
  | chr (c : UInt8)
  | esc (p₀ p₁ : BitVec 32) (final : UInt8)
  deriving DecidableEq, Repr

/-- The scan of `__console_parse_escsequence`; it returns how many characters it took.  Beyond the text there are zeros. -/
def consoleScan (pchr : List UInt8) : ConEvent × Nat :=
  let (paras, rest) := conParams 3 pchr
  (.esc (paras.getD 0 0) (paras.getD 1 0) (rest.headD 0), pchr.length - rest.length + 1)

/-- `case 'm'`. -/
def consoleSgr (con : Console) (p₀ p₁ : Int) : Console × List ConAccess :=
  if 30 ≤ p₀ ∧ p₀ ≤ 39 then
    let p := p₀ - 30
    let p := if p = 9 then 15 else if p > 7 then 7 else p
    let p := if p₁ = 1 then p + 8 else p
    ({ con with foreground := colorTable.getD p.toNat 0 }, [.color p])
  else if 40 ≤ p₀ ∧ p₀ ≤ 47 then
    let p := p₀ - 40
    let p := if p₁ = 1 then p + 8 else p
    ({ con with background := colorTable.getD p.toNat 0 }, [.color p])
  else (con, [])

/-- The `switch` over the final character. -/
inductive ConCommand where
  | up
  | down
  | right
  | left
  | position
  | clearScreen
  | clearLine
  | save
  | load
  | sgr
  | unknown
  deriving DecidableEq, Repr

def conCommand (final : UInt8) : ConCommand :=
  if final = conChar 'A' then .up
  else if final = conChar 'B' then .down
  else if final = conChar 'C' then .right
  else if final = conChar 'D' then .left
  else if final = conChar 'H' ∨ final = conChar 'f' then .position
  else if final = conChar 'J' then .clearScreen
  else if final = conChar 'K' then .clearLine
  else if final = conChar 's' then .save
  else if final = conChar 'u' then .load
  else if final = conChar 'm' then .sgr
  else .unknown

def consoleEscape (con : Console) (p₀ p₁ : Int) : ConCommand → Console × List ConAccess
  | .up =>
    let row := s32 (con.cursorRow - p₀)
    ({ con with cursorRow := if row < 0 then 0 else row }, [])
  | .down =>
    let row := s32 (con.cursorRow + p₀)
    ({ con with cursorRow := if row ≥ con.rows then con.rows - 1 else row }, [])
  | .right =>
    let col := s32 (con.cursorCol + p₀)
    ({ con with cursorCol := if col ≥ con.cols then con.cols - 1 else col }, [])
  | .left =>
    let col := s32 (con.cursorCol - p₀)
    ({ con with cursorCol := if col < 0 then 0 else col }, [])
  | .position =>
    ({ con with
        cursorRow := if p₀ ≥ con.rows then con.rows - 1 else p₀
        cursorCol := if p₁ ≥ con.cols then con.cols - 1 else p₁ }, [])
  | .clearScreen =>
    if p₀ = 0 then (con, consoleClearFromCursor con)
    else if p₀ = 1 then (con, consoleClearToCursor con)
    else if p₀ = 2 then consoleClear con
    else (con, [])
  | .clearLine =>
    if p₀ = 0 then (con, consoleClearLine con con.cursorRow con.cursorCol con.cols)
    else if p₀ = 1 then (con, consoleClearLine con con.cursorRow 0 con.cursorCol)
    else if p₀ = 2 then (con, consoleClearLine con con.cursorRow 0 con.cols)
    else (con, [])
  | .save => ({ con with savedCol := con.cursorCol, savedRow := con.cursorRow }, [])
  | .load => ({ con with cursorCol := con.savedCol, cursorRow := con.savedRow }, [])
  | .sgr => consoleSgr con p₀ p₁
  | .unknown => (con, [])

/-! ## Characters -/

/-- The `switch` of `__console_write`. -/
def consoleChar (con : Console) (chr : UInt8) : Console × List ConAccess :=
  if chr = conChar '\n' then ({ con with cursorRow := con.cursorRow + 1, cursorCol := 0 }, [])
  else if chr = conChar '\r' then ({ con with cursorCol := 0 }, [])
  else if chr = 8 then
    ({ con with cursorCol := if con.cursorCol - 1 < 0 then 0 else con.cursorCol - 1 }, [])
  else if chr = 12 then ({ con with cursorRow := con.cursorRow + 1 }, [])
  else if chr = conChar '\t' then
    ({ con with
        cursorCol :=
          if con.cursorCol.tmod tabSize ≠ 0 then con.cursorCol + con.cursorCol.tmod tabSize
          else con.cursorCol + tabSize }, [])
  else
    let accesses := consoleDrawc con chr
    let con := { con with cursorCol := con.cursorCol + 1 }
    (if con.cursorCol ≥ con.cols then { con with cursorRow := con.cursorRow + 1, cursorCol := 0 } else con, accesses)

/-- The end of the loop: below the bottom border the text moves up. -/
def consoleScroll (con : Console) : Console × List ConAccess :=
  if con.cursorRow ≥ con.rows then
    ({ con with cursorRow := con.cursorRow - 1 },
      .copy 0 (con.stride * fontYsize : Nat) ((con.stride * con.yres : Nat) - fontYsize) ::
        (List.range (con.stride * fontYsize / 4)).map fun (j : Nat) =>
          .write (con.stride * ((con.yres : Int) - fontYsize) + 4 * j) con.background)
  else (con, [])

/-- One round of the loop of `__console_write`. -/
def consoleStep (con : Console) (e : ConEvent) : Console × List ConAccess :=
  let (con, accesses) :=
    match e with
    | .chr c => consoleChar con c
    | .esc p₀ p₁ final => consoleEscape con p₀.toInt p₁.toInt (conCommand final)
  let (con, scrolled) := consoleScroll con
  (con, accesses ++ scrolled)

/-- The next character or escape sequence, and its length. -/
def consoleNext (tmp : List UInt8) : ConEvent × Nat :=
  let chr := tmp.headD 0
  if chr = 0x1b ∧ tmp.tail.headD 0 = conChar '[' then
    let (e, k) := consoleScan tmp.tail.tail
    (e, 2 + k)
  else (.chr chr, 1)

/-- The loop of `__console_write` over the text from `tmp` on, of which `i` of `len` characters are done; `fuel` bounds its
rounds. -/
def consoleLoop : Nat → Console → List UInt8 → Nat → Nat → Console × List ConAccess × Nat
  | 0, con, _, i, _ => (con, [], i)
  | fuel + 1, con, tmp, i, len =>
    if tmp.headD 0 ≠ 0 ∧ i < len then
      let (e, k) := consoleNext tmp
      let (con, accesses) := consoleStep con e
      let (con, rest, i) := consoleLoop fuel con (tmp.drop k) (i + k) len
      (con, accesses ++ rest, i)
    else (con, [], i)

/-- `__console_write` of `len` characters of the memory that begins with `ptr`; it returns how many characters it took. -/
def consoleWrite (con : Console) (ptr : List UInt8) (len : Nat) : Console × List ConAccess × Option Nat :=
  if len = 0 then (con, [], none)
  else
    let (con, accesses, i) := consoleLoop len con ptr 0 len
    (con, accesses, some i)

/-- A sequence of calls. -/
def consoleWrites (con : Console) : List (List UInt8 × Nat) → Console × List ConAccess
  | [] => (con, [])
  | (ptr, len) :: calls =>
    let (con, accesses, _) := consoleWrite con ptr len
    let (con, rest) := consoleWrites con calls
    (con, accesses ++ rest)

end Libogc
