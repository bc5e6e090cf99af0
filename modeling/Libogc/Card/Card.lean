import Libogc.Lib.Numerals
import Mathlib.Data.Fintype.Pi
import Mathlib.Logic.Function.Basic
/-!
# Card — the system area of a memory card

The structures of `card.c`.  A mounted card has two copies of its directory and two of its block allocation table in the work area, and
works on one of each.  Bytes and words are numbers here; what wraps is taken modulo its size where it is computed.
-/
namespace Libogc

def CARD_SYSAREA : Nat := 5
def CARD_READSIZE : Nat := 512
def CARD_FILENAMELEN : Nat := 32
def CARD_MAXFILES : Nat := 127
def CARD_MAXICONS : Nat := 8

def CARD_ERROR_UNLOCKED : Int := 1
def CARD_ERROR_READY : Int := 0
def CARD_ERROR_BUSY : Int := -1
def CARD_ERROR_WRONGDEVICE : Int := -2
def CARD_ERROR_NOCARD : Int := -3
def CARD_ERROR_NOFILE : Int := -4
def CARD_ERROR_IOERROR : Int := -5
def CARD_ERROR_BROKEN : Int := -6
def CARD_ERROR_INSSPACE : Int := -9
def CARD_ERROR_LIMIT : Int := -11
def CARD_ERROR_CANCELED : Int := -14
def CARD_ERROR_FATAL_ERROR : Int := -128

/-- `struct card_direntry` -/
structure CardDirentry where
  gamecode : Fin 4 → Nat
  company : Fin 2 → Nat
  pad_00 : Nat
  bannerfmt : Nat
  filename : Fin 32 → Nat
  lastmodified : Nat
  iconaddr : Nat
  iconfmt : Nat
  iconspeed : Nat
  permission : Nat
  copytimes : Nat
  block : Nat
  length : Nat
  pad_01 : Nat
  commentaddr : Nat
  deriving DecidableEq, Inhabited

/-- The entry of a file. -/
def CardDirentry.live (e : CardDirentry) : Prop := e.gamecode 0 ≠ 0xff

instance (e : CardDirentry) : Decidable e.live := inferInstanceAs (Decidable (_ ≠ _))

/-- `struct card_dat`, with the `struct card_dircntrl` behind it; it has `CARD_MAXFILES` entries. -/
structure CardDat where
  entries : Nat → CardDirentry
  /-- The 58 bytes before `updated`, in words. -/
  pad : Nat → Nat
  updated : Nat
  chksum1 : Nat
  chksum2 : Nat
  deriving Inhabited

/-- `struct card_bat` -/
structure CardBat where
  chksum1 : Nat
  chksum2 : Nat
  updated : Nat
  freeblocks : Nat
  lastalloc : Nat
  fat : Nat → Nat

/-- `__card_checksum` -/
def cardChecksum (buff : List Nat) : Nat × Nat :=
  let cs1 := buff.foldl (fun cs w => (cs + w) % 2 ^ 16) 0
  let cs2 := buff.foldl (fun cs w => (cs + (w ^^^ 0xffff)) % 2 ^ 16) 0
  (if cs1 = 0xffff then 0 else cs1, if cs2 = 0xffff then 0 else cs2)

def CardDirentry.words (e : CardDirentry) : List Nat :=
  [e.gamecode 0 * 256 + e.gamecode 1, e.gamecode 2 * 256 + e.gamecode 3, e.company 0 * 256 + e.company 1, e.pad_00 * 256 + e.bannerfmt] ++
    (List.finRange 16).map (fun i => e.filename (Fin.ofNat 32 (2 * i)) * 256 + e.filename (Fin.ofNat 32 (2 * i + 1))) ++
      [e.lastmodified / 2 ^ 16, e.lastmodified % 2 ^ 16, e.iconaddr / 2 ^ 16, e.iconaddr % 2 ^ 16, e.iconfmt, e.iconspeed,
        e.permission * 256 + e.copytimes, e.block, e.length, e.pad_01, e.commentaddr / 2 ^ 16, e.commentaddr % 2 ^ 16]

/-- The first 0x1ffc bytes of a directory. -/
def CardDat.words (d : CardDat) : List Nat :=
  (List.range CARD_MAXFILES).flatMap (fun i => (d.entries i).words) ++ (List.range 29).map d.pad ++ [d.updated]

/-- The last 0x1ffc bytes of a block allocation table. -/
def CardBat.words (b : CardBat) : List Nat := [b.updated, b.freeblocks, b.lastalloc] ++ (List.range 0xffb).map b.fat

/-- The blocks of a chain that begins with `block`. -/
def CardChain (fat : Nat → Nat) : Nat → List Nat → Prop
  | block, [] => block = 0xffff
  | block, x :: xs => block = x ∧ CardChain fat (fat (x - CARD_SYSAREA)) xs

/-- The data blocks of a card. -/
def cardDataBlocks (blocks : Nat) : List Nat := List.range' CARD_SYSAREA (blocks - CARD_SYSAREA)

theorem mem_cardDataBlocks {blocks b : Nat} : b ∈ cardDataBlocks blocks ↔ CARD_SYSAREA ≤ b ∧ b < blocks := by
  unfold cardDataBlocks
  rw [List.mem_range'_1]
  omega

theorem cardDataBlocks_nodup (blocks : Nat) : (cardDataBlocks blocks).Nodup := List.nodup_range' ..

/-- The number of free blocks. -/
def cardFree (blocks : Nat) (fat : Nat → Nat) : Nat := (cardDataBlocks blocks).countP fun b => fat (b - CARD_SYSAREA) = 0

theorem cardFree_le (blocks : Nat) (fat : Nat → Nat) : cardFree blocks fat ≤ blocks := by
  refine Nat.le_trans List.countP_le_length ?_
  unfold cardDataBlocks
  rw [List.length_range']
  exact Nat.sub_le ..

/-- What `card_block` says of a mounted card. -/
structure CardBlock where
  attached : Bool
  result : Int
  sector_size : Nat
  blocks : Nat
  /-- The work area but for the header. -/
  dat : Fin 2 → CardDat
  bat : Fin 2 → CardBat
  curr_dir : Fin 2
  curr_fat : Fin 2
  curr_fileblock : Nat

namespace CardBlock

/-- `__card_getdirblock` -/
def dirblock (card : CardBlock) : CardDat := card.dat card.curr_dir

/-- `__card_getbatblock` -/
def fatblock (card : CardBlock) : CardBat := card.bat card.curr_fat

def setFatblock (card : CardBlock) (b : CardBat) : CardBlock := { card with bat := Function.update card.bat card.curr_fat b }

def setDirblock (card : CardBlock) (d : CardDat) : CardBlock := { card with dat := Function.update card.dat card.curr_dir d }

/-- The state in which `__card_getcntrlblock` gives the control block away. -/
def accessible (card : CardBlock) : Prop := card.attached = true ∧ card.result ≠ CARD_ERROR_BUSY

instance (card : CardBlock) : Decidable card.accessible := inferInstanceAs (Decidable (_ ∧ _))

/-- `__card_getcntrlblock` for a slot that there is, but for the callback that it clears -/
def getcntrlblock (card : CardBlock) : Except Int CardBlock :=
  if !card.attached then .error CARD_ERROR_NOCARD
  else if card.result ≠ CARD_ERROR_BUSY then .ok { card with result := CARD_ERROR_BUSY }
  else .error CARD_ERROR_BUSY

/-- `__card_putcntrlblock`, which gives back the result -/
def putcntrlblock (card : CardBlock) (result : Int) : CardBlock :=
  if card.attached then { card with result := result }
  else if card.result = CARD_ERROR_BUSY then { card with result := result }
  else card

/-- `__card_updatefat` up to the erasure that it starts -/
def updatefat (card : CardBlock) (fatblock : CardBat) : CardBlock :=
  let b := { fatblock with updated := (fatblock.updated + 1) % 2 ^ 16 }
  let cs := cardChecksum b.words
  card.setFatblock { b with chksum1 := cs.1, chksum2 := cs.2 }

/-- `__card_updatedir` up to the erasure that it starts -/
def updatedir (card : CardBlock) : CardBlock :=
  let d := { card.dirblock with updated := (card.dirblock.updated + 1) % 2 ^ 16 }
  let cs := cardChecksum d.words
  card.setDirblock { d with chksum1 := cs.1, chksum2 := cs.2 }

@[simp] theorem fatblock_setFatblock (card : CardBlock) (b : CardBat) : (card.setFatblock b).fatblock = b := Function.update_self ..

@[simp] theorem dirblock_setDirblock (card : CardBlock) (d : CardDat) : (card.setDirblock d).dirblock = d := Function.update_self ..

@[simp] theorem updatefat_fat (card : CardBlock) (b : CardBat) : (card.updatefat b).fatblock.fat = b.fat := by
  unfold updatefat
  simp

@[simp] theorem updatefat_freeblocks (card : CardBlock) (b : CardBat) : (card.updatefat b).fatblock.freeblocks = b.freeblocks := by
  unfold updatefat
  simp

theorem getcntrlblock_accessible {card : CardBlock} (h : card.accessible) :
    card.getcntrlblock = .ok { card with result := CARD_ERROR_BUSY } := by
  unfold getcntrlblock
  rw [if_neg (by rw [h.1]; decide), if_pos h.2]

theorem getcntrlblock_error {card : CardBlock} (h : ¬ card.accessible) : ∃ e, card.getcntrlblock = .error e ∧ e < 0 := by
  unfold getcntrlblock
  by_cases ha : card.attached
  · rw [if_neg (by rw [ha]; decide), if_neg fun hr => h ⟨ha, hr⟩]
    exact ⟨_, rfl, by decide⟩
  · rw [if_pos (by simpa using ha)]
    exact ⟨_, rfl, by decide⟩

end CardBlock

end Libogc
