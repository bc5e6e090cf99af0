import Libogc.Card.Card
import Libogc.Lib.Words
import Libogc.Lib.Rounding
/-!
# Seek — where a file is read and written

`__card_seek` checks that a request lies in the file, and walks the file's chain of blocks from where the last request ended.  Its check
is made on signed words of 32 bits, which is what the lengths and offsets of `CARD_ReadAsync` and `CARD_WriteAsync` become
(`card_seek_range`); a sum that is too large is one of the machine, and wraps.

What the functions do to the control block is left out but for the state in which they get it.
-/
namespace Libogc

/-- `card_file` of a file on one card -/
structure CardFile where
  filenum : Int
  offset : Int
  len : Int
  iblock : Nat
  deriving DecidableEq, Repr

/-- `offset&~(card->sector_size-1)` -/
def cardAlign (sector_size offset : Nat) : Nat := (BitVec.ofNat 32 offset &&& ~~~(BitVec.ofNat 32 sector_size - 1)).toNat

namespace CardBlock

/-- A block number that is none of a data block. -/
def outside (card : CardBlock) (block : Nat) : Prop := block < CARD_SYSAREA ∨ block ≥ card.blocks

instance (card : CardBlock) (block : Nat) : Decidable (card.outside block) := inferInstanceAs (Decidable (_ ∨ _))

/-- The entry of a file. -/
def entry (card : CardBlock) (file : CardFile) : CardDirentry := card.dirblock.entries file.filenum.toNat

/-- `file->iblock = fatblock->fat[file->iblock-CARD_SYSAREA]` -/
def nextblock (card : CardBlock) (file : CardFile) : Nat := card.fatblock.fat (file.iblock - CARD_SYSAREA)

end CardBlock

/-- The range check of `__card_seek` -/
def cardRefuses (length sector_size : Nat) (len offset : Int) : Prop :=
  let entry_len := s32 ((length * sector_size : Nat) : Int)
  entry_len ≤ offset ∨ entry_len < s32 (offset + len)

instance (length sector_size : Nat) (len offset : Int) : Decidable (cardRefuses length sector_size len offset) :=
  inferInstanceAs (Decidable (_ ∨ _))

/-- The walk of `__card_seek` up to an offset.  Each pass goes on by a sector, so there are no more of them than bytes to go. -/
def cardSeekLoop (card : CardBlock) (target : Nat) : Nat → CardFile → CardFile × Bool
  | 0, file => (file, true)
  | n + 1, file =>
    if uint32 file.offset < target then
      let file := { file with offset := s32 (uint32 file.offset + card.sector_size : Nat), iblock := card.nextblock file }
      if card.outside file.iblock then (file, false) else cardSeekLoop card target n file
    else (file, true)

/-- What `__card_seek` does with a request that is in range. -/
def cardSeekWalk (card : CardBlock) (file : CardFile) (len offset : Int) : CardFile × Int :=
  let file := { file with len := len }
  let back := offset < file.offset
  let file := if back then { file with offset := 0, iblock := (card.entry file).block } else file
  if back ∧ card.outside file.iblock then (file, CARD_ERROR_BROKEN)
  else
    let target := cardAlign card.sector_size (uint32 offset)
    let r := cardSeekLoop card target target file
    if r.2 then ({ r.1 with offset := offset }, CARD_ERROR_READY) else (r.1, CARD_ERROR_BROKEN)

/-- `__card_seek` -/
def cardSeek (card : CardBlock) (file : CardFile) (len offset : Int) : CardFile × Int :=
  if file.filenum < 0 ∨ file.filenum ≥ CARD_MAXFILES then (file, CARD_ERROR_FATAL_ERROR)
  else
    match card.getcntrlblock with
    | .error e => (file, e)
    | .ok _ =>
      if card.outside file.iblock then (file, CARD_ERROR_FATAL_ERROR)
      else if (card.entry file).live then
        if cardRefuses (card.entry file).length card.sector_size len offset then (file, CARD_ERROR_LIMIT)
        else cardSeekWalk card file len offset
      else (file, CARD_ERROR_READY)

/-! ## The range check -/

/-- A file for which `__card_seek` comes to its range check. -/
structure CardSeekable (card : CardBlock) (file : CardFile) : Prop where
  filenum : 0 ≤ file.filenum ∧ file.filenum < CARD_MAXFILES
  accessible : card.accessible
  iblock : ¬ card.outside file.iblock
  live : (card.entry file).live

/-- `__card_seek` takes the request, wherever its walk ends. -/
def cardAccepts (card : CardBlock) (file : CardFile) (len offset : Nat) : Prop :=
  (cardSeek card file (s32 len) (s32 offset)).2 ≠ CARD_ERROR_LIMIT

/-- The check of `__card_seek` is right for a file of `size` bytes.  Below 2 GiB this is so for a request that ends there too, or begins
behind the file; one that begins from 2 GiB on is refused only if its end, as a signed word, lies behind the file.  From 2 GiB on the
file's own size is one of the words that wrap. -/
def cardRangeExact (size len offset : Nat) : Prop :=
  let last := (offset + len) % 2 ^ 32
  let low := size % 2 ^ 32
  if size < 2 ^ 31 then
    if offset < 2 ^ 31 then size ≤ offset ∨ offset + len < 2 ^ 31 else size < last ∧ last < 2 ^ 31
  else if 2 ^ 31 ≤ low then
    if offset < 2 ^ 31 then size < offset + len
    else if size < 2 ^ 32 then size ≤ offset ∨ offset + len < 2 ^ 32 + 2 ^ 31
    else size < offset + len ∨ (offset < low ∧ 2 ^ 31 ≤ last ∧ last ≤ low)
  else if offset + len ≤ size then (offset < low ∨ 2 ^ 31 ≤ offset) ∧ (last ≤ low ∨ 2 ^ 31 ≤ last)
  else offset < 2 ^ 31 ∨ last < 2 ^ 31

instance (size len offset : Nat) : Decidable (cardRangeExact size len offset) := by
  unfold cardRangeExact
  infer_instance

section Range
variable {card : CardBlock} {file : CardFile}

theorem cardSeekWalk_ne_limit (len offset : Int) : (cardSeekWalk card file len offset).2 ≠ CARD_ERROR_LIMIT := by
  unfold cardSeekWalk
  dsimp only
  generalize (if offset < file.offset then _ else _ : CardFile) = f
  by_cases hb : offset < file.offset ∧ card.outside f.iblock
  · rw [if_pos hb]
    exact (by decide : CARD_ERROR_BROKEN ≠ CARD_ERROR_LIMIT)
  · rw [if_neg hb]
    split
    · exact (by decide : CARD_ERROR_READY ≠ CARD_ERROR_LIMIT)
    · exact (by decide : CARD_ERROR_BROKEN ≠ CARD_ERROR_LIMIT)

theorem CardSeekable.accepts_iff (h : CardSeekable card file) (len offset : Nat) :
    cardAccepts card file len offset ↔ ¬ cardRefuses (card.entry file).length card.sector_size (s32 len) (s32 offset) := by
  unfold cardAccepts cardSeek
  rw [if_neg (by have := h.filenum; omega), CardBlock.getcntrlblock_accessible h.accessible]
  dsimp only
  rw [if_neg h.iblock, if_pos h.live]
  split
  case isTrue hr => exact iff_of_false (fun hne => hne rfl) (not_not.2 hr)
  case isFalse hr => exact iff_of_true (cardSeekWalk_ne_limit _ _) hr

theorem s32_eq (n : Nat) : s32 n = if n % 2 ^ 32 < 2 ^ 31 then ((n % 2 ^ 32 : Nat) : Int) else (n % 2 ^ 32 : Nat) - 2 ^ 32 := by
  unfold s32
  rw [Int.bmod_def]
  split_ifs <;> omega

theorem s32_add (m n : Nat) : s32 (s32 m + s32 n) = s32 (m + n : Nat) := by
  unfold s32
  rw [Int.bmod_add_bmod, Int.add_bmod_bmod, Int.natCast_add]

theorem cardRefuses_iff {length sector_size len offset : Nat} (hl : len < 2 ^ 32) (ho : offset < 2 ^ 32) :
    (¬ cardRefuses length sector_size (s32 len) (s32 offset) ↔ offset < length * sector_size ∧ offset + len ≤ length * sector_size) ↔
      cardRangeExact (length * sector_size) len offset := by
  unfold cardRefuses cardRangeExact
  generalize length * sector_size = size
  dsimp only
  rw [s32_add, s32_eq, s32_eq, s32_eq, Nat.mod_eq_of_lt ho]
  split_ifs <;> omega

/-- **The range check** of a request is right exactly under this condition on the file's size, the length and the offset. -/
theorem card_seek_range (h : CardSeekable card file) {len offset : Nat} (hl : len < 2 ^ 32) (ho : offset < 2 ^ 32) :
    (cardAccepts card file len offset ↔
      offset < (card.entry file).length * card.sector_size ∧ offset + len ≤ (card.entry file).length * card.sector_size) ↔
        cardRangeExact ((card.entry file).length * card.sector_size) len offset := by
  rw [h.accepts_iff]
  exact cardRefuses_iff hl ho

end Range

/-- A card with a file of one block, in block 5. -/
def cardSeek0 : CardBlock where
  attached := true
  result := 0
  sector_size := 8192
  blocks := 64
  dat := fun _ => { (default : CardDat) with entries := fun _ => { (default : CardDirentry) with block := 5, length := 1 } }
  bat := fun _ => { chksum1 := 0, chksum2 := 0, updated := 0, freeblocks := 58, lastalloc := 5, fat := fun i => if i = 0 then 0xffff else 0 }
  curr_dir := 0
  curr_fat := 0
  curr_fileblock := 0

def cardFile0 : CardFile := ⟨0, 0, 8192, 5⟩

theorem cardSeek0_seekable : CardSeekable cardSeek0 cardFile0 := ⟨by decide, by decide, by decide, by decide⟩

theorem card_seek_range_two : (cardAccepts cardSeek0 cardFile0 0x200 0x1e00 ↔ 0x1e00 < 8192 ∧ 0x1e00 + 0x200 ≤ 8192) ↔
    cardRangeExact 8192 0x200 0x1e00 := card_seek_range cardSeek0_seekable (by decide) (by decide)

/-- An offset of 2 GiB is taken. -/
theorem card_seek_beyond : ¬ ∀ (card : CardBlock) (file : CardFile) (len offset : Nat), CardSeekable card file → len < 2 ^ 32 →
    offset < 2 ^ 32 → (cardAccepts card file len offset ↔ offset < (card.entry file).length * card.sector_size ∧
      offset + len ≤ (card.entry file).length * card.sector_size) := by
  intro h
  have hrange := (h cardSeek0 cardFile0 0x200 0x80000000 cardSeek0_seekable (by decide) (by decide)).1
    ((cardSeek0_seekable.accepts_iff _ _).2 (by decide))
  exact absurd hrange (by decide)

end Libogc
