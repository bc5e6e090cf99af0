import Libogc.Card.Seek
import Libogc.Lib.Flash
/-!
# ReadWrite — `CARD_Read` and `CARD_Write`

A read is a transfer for each sector that it touches, a write an erasure and the programming of pages for each, and then the update of the
directory; the callback of each step starts the next one.  The outcomes of the steps are arguments: what a step returns if it cannot be
started, or else what its callback is given.  What a step that failed has left on the card is left out.

The bytes of the card are those behind the system area, of which the two directories are given by their contents.
-/
namespace Libogc

/-- A card with its bytes, and a file that is open on it. -/
structure CardFs where
  card : CardBlock
  file : CardFile
  flash : Flash.Mem
  dirs : Fin 2 → CardDat

/-- The address bits that a command has. -/
def cardAddr (addr : Nat) : Nat := addr % 2 ^ 24

/-! ## Reads -/

/-- What `__card_read` returns, and what its callback is given. -/
structure CardReads where
  start : Nat → Int
  result : Nat → Int

/-- `__read_callback` of the `i`-th transfer and of those behind it, with their addresses and lengths.  Each takes something from the length
that is left. -/
def cardReadLoop (card : CardBlock) (o : CardReads) : Nat → Nat → CardFile → CardFile × Int × List (Nat × Nat)
  | 0, _, file => (file, CARD_ERROR_BUSY, [])
  | n + 1, i, file =>
    let ret := o.result i
    if ret < 0 then (file, ret, [])
    else if file.len < 0 then (file, CARD_ERROR_CANCELED, [])
    else
      -- what is left of the sector
      let rest : Int := uint32 (cardAlign card.sector_size (u32 (uint32 file.offset + card.sector_size)) - file.offset)
      let file := { file with len := s32 (file.len - rest) }
      if file.len > 0 then
        let file := { file with offset := s32 (file.offset + rest), iblock := card.nextblock file }
        if card.outside file.iblock then (file, CARD_ERROR_BROKEN, [])
        else
          let len := if uint32 file.len < card.sector_size then uint32 file.len else card.sector_size
          if o.start (i + 1) ≥ 0 then
            let r := cardReadLoop card o n (i + 1) file
            (r.1, r.2.1, (file.iblock * card.sector_size, len) :: r.2.2)
          else (file, ret, [])
      else (file, ret, [])

/-- `CARD_Read` -/
def cardRead (card : CardBlock) (file : CardFile) (len offset : Nat) (o : CardReads) : CardFile × Int × List (Nat × Nat) :=
  if len = 0 ∨ len &&& 0x1ff ≠ 0 ∨ (offset > 0 ∧ offset &&& 0x1ff ≠ 0) then (file, CARD_ERROR_FATAL_ERROR, [])
  else
    let r := cardSeek card file (s32 len) (s32 offset)
    if r.2 < 0 then (r.1, r.2, [])
    else
      let file := r.1
      let rest := card.sector_size - (uint32 file.offset &&& (card.sector_size - 1))
      let len := if len ≥ rest then rest else len
      if o.start 0 < 0 then (file, o.start 0, [])
      else
        let r := cardReadLoop card o (file.len.toNat + 1) 0 file
        (r.1, r.2.1, (file.iblock * card.sector_size, len) :: r.2.2)

/-! ## Writes -/

/-- The outcomes of a write: of the erasure and of the programming of each sector, and of the directory's update. -/
structure CardWrites where
  erase : Nat → Int
  write : Nat → Int
  dir : Int

/-- `__card_write` and `__blockwritecallback`: pages of 128 bytes, from `buf + usr` on -/
def cardBlockwrite (buf : Nat → BitVec 8) : Nat → Nat → Nat → Flash.Mem → Flash.Mem
  | 0, _, _, m => m
  | n + 1, addr, usr, m => cardBlockwrite buf n (addr + 128) (usr + 128) (Flash.program m (cardAddr addr) 128 fun i => buf (usr + i))

/-- The end of `__write_callback`: the directory gets the time, is written where the current copy is, and becomes the contents of both. -/
def CardFs.finish (s : CardFs) (now : Nat) (dir : Int) : CardFs × Int :=
  let i := s.file.filenum.toNat
  let dirblock := s.card.dirblock
  let entries := Function.update dirblock.entries i { dirblock.entries i with lastmodified := u32 now }
  let card := (s.card.setDirblock { dirblock with entries := entries }).updatedir
  if dir < 0 then ({ s with card := card }, dir)
  else
    ({ s with
        card := { card with dat := fun _ => card.dirblock, curr_dir := card.curr_dir.rev }
        dirs := Function.update s.dirs card.curr_dir card.dirblock }, dir)

/-- `__erase_callback` and `__write_callback` of the `i`-th sector, whose erasure was asked for, and of those behind it.  Each takes something
from the length that is left. -/
def cardWriteLoop (buf : Nat → BitVec 8) (now : Nat) (o : CardWrites) : Nat → Nat → Nat → CardFs → CardFs × Int
  | 0, _, _, s => (s, CARD_ERROR_BUSY)
  | n + 1, i, usr, s =>
    if o.erase i < 0 then (s, o.erase i)
    else
      let addr := s.file.iblock * s.card.sector_size
      let erased := Flash.erase s.flash (cardAddr addr) s.card.sector_size
      if o.write i < 0 then ({ s with flash := erased }, o.write i)
      else
        let s := { s with flash := cardBlockwrite buf (s.card.sector_size >>> 7) addr usr erased }
        if s.file.len < 0 then (s, CARD_ERROR_CANCELED)
        else
          let s : CardFs := { s with file := { s.file with len := s32 (s.file.len - s.card.sector_size) } }
          if s.file.len ≤ 0 then s.finish now o.dir
          else
            let file := { s.file with offset := s32 (s.file.offset + s.card.sector_size), iblock := s.card.nextblock s.file }
            if s.card.outside file.iblock then ({ s with file := file }, CARD_ERROR_BROKEN)
            else cardWriteLoop buf now o n (i + 1) (usr + s.card.sector_size) { s with file := file }

/-- The checks of `CARD_WriteAsync` behind its seek -/
def cardMisaligned (sector_size len offset : Nat) : Prop :=
  len &&& (sector_size - 1) ≠ 0 ∨ (offset > 0 ∧ offset &&& (sector_size - 1) ≠ 0)

instance (sector_size len offset : Nat) : Decidable (cardMisaligned sector_size len offset) := inferInstanceAs (Decidable (_ ∨ _))

/-- `CARD_Write` -/
def cardWrite (s : CardFs) (buf : Nat → BitVec 8) (len offset now : Nat) (o : CardWrites) : CardFs × Int :=
  let r := cardSeek s.card s.file (s32 len) (s32 offset)
  let s := { s with file := r.1 }
  if r.2 < 0 then (s, r.2)
  else if cardMisaligned s.card.sector_size len offset then (s, CARD_ERROR_FATAL_ERROR)
  else cardWriteLoop buf now o (s.file.len.toNat + 1) 0 0 s

end Libogc
