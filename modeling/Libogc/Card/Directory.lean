import Libogc.Card.Alloc
import Libogc.Card.Find
import Libogc.Card.Seek
/-!
# Directory — files that are made, found and deleted

`CARD_Create`, `CARD_Delete`, the calls that change an entry and those that open a file, with what they leave in the control block and in
the work area.  The update of a table is an erasure and the programming of a sector; its outcomes are arguments, and so is the time.

A name is the 32 bytes of an entry, or a string that ends before.
-/
namespace Libogc

def CARD_ERROR_EXIST : Int := -7
def CARD_ERROR_NOENT : Int := -8
def CARD_ERROR_NAMETOOLONG : Int := -12

def CARD_ATTRIB_PUBLIC : Nat := 4
def CARD_SPEED_FAST : Nat := 1

/-- What starting the update of a table returns, and what its callback is given. -/
structure CardUpdate where
  start : Int
  result : Int

/-- `strncmp(a,b,CARD_FILENAMELEN)==0` -/
def cardSameName (a b : Fin 32 → Nat) : Prop := ∀ i, (∀ j < i, a j ≠ 0) → a i = b i

instance (a b : Fin 32 → Nat) : Decidable (cardSameName a b) := inferInstanceAs (Decidable (∀ _, _))

/-- What `strncpy` makes of a name, and the loop of `__card_setstatusexasync` -/
def cardPadName (a : Fin 32 → Nat) : Fin 32 → Nat := fun i => if ∃ j ≤ i, a j = 0 then 0 else a i

/-- A string as a name. -/
def cardName (filename : List Nat) : Fin 32 → Nat := fun i => filename.getD i 0

namespace CardBlock

def setEntry (card : CardBlock) (i : Nat) (e : CardDirentry) : CardBlock :=
  card.setDirblock { card.dirblock with entries := Function.update card.dirblock.entries i e }

/-- `__card_dirwritecallback` of an update that succeeded -/
def dirwritten (card : CardBlock) : CardBlock := { card with dat := fun _ => card.dirblock, curr_dir := card.curr_dir.rev }

/-- `__card_fatwritecallback` of an update that succeeded -/
def fatwritten (card : CardBlock) : CardBlock := { card with bat := fun _ => card.fatblock, curr_fat := card.curr_fat.rev }

/-- `__card_updatedir` and its callbacks -/
def updatesDir (card : CardBlock) (dir : CardUpdate) : CardBlock × Int :=
  if !card.attached then (card, CARD_ERROR_NOCARD)
  else if dir.start < 0 then (card.updatedir, dir.start)
  else (if dir.result ≥ 0 then card.updatedir.dirwritten else card.updatedir, dir.result)

end CardBlock

/-! ## Creation -/

/-- What `CARD_CreateAsync` and `CARD_CreateEntryAsync` ask of a file with the name. -/
def cardCodesTaken (codes : CardIds) (e : CardDirentry) : Prop :=
  (codes.gamecode 0 = 0xff ∨ codes.company 0 = 0xff) ∨
    ((codes.gamecode 0 ≠ 0xff ∧ e.gamecode = codes.gamecode) ∧ codes.company 0 ≠ 0xff ∧ e.company = codes.company)

instance (codes : CardIds) (e : CardDirentry) : Decidable (cardCodesTaken codes e) := inferInstanceAs (Decidable (_ ∨ _))

/-- Their search for a free entry -/
def cardCreateLoop (dirblock : CardDat) (filename : Fin 32 → Nat) (codes : CardIds) : List Nat → Int → Except Int Int
  | [], filenum => .ok filenum
  | i :: is, filenum =>
    if ¬ (dirblock.entries i).live then cardCreateLoop dirblock filename codes is (if filenum = -1 then i else filenum)
    else if cardSameName (dirblock.entries i).filename filename ∧ cardCodesTaken codes (dirblock.entries i) then .error CARD_ERROR_EXIST
    else cardCreateLoop dirblock filename codes is filenum

/-- The codes that `__card_createfatcallback` gives a file.  Whether there is a company is asked of the game. -/
def cardNewIds (ids : CardIds) : CardIds :=
  if ids.gamecode 0 ≠ 0xff then ids else ⟨fun _ => 0, fun _ => 0⟩

/-- The entry that it makes of one with a name and a length -/
def cardNewEntry (ids : CardIds) (block now : Nat) (e : CardDirentry) : CardDirentry :=
  { e with
    gamecode := (cardNewIds ids).gamecode
    company := (cardNewIds ids).company
    block := block
    permission := CARD_ATTRIB_PUBLIC
    pad_00 := 0xff
    copytimes := 0
    iconaddr := 2 ^ 32 - 1
    iconfmt := 0
    iconspeed := CARD_SPEED_FAST
    pad_01 := 0xffff
    lastmodified := u32 now }

/-- `__card_createfatcallback`, whatever it is given, and what follows it -/
def cardCreateFat (ids : CardIds) (now : Nat) (dir : CardUpdate) (card : CardBlock) (file : CardFile) : CardBlock × CardFile × Int :=
  let i := file.filenum.toNat
  let r := (card.setEntry i (cardNewEntry ids card.curr_fileblock now (card.dirblock.entries i))).updatesDir dir
  (r.1.putcntrlblock r.2, { file with offset := 0, iblock := card.curr_fileblock }, r.2)

/-- The end of `CARD_CreateAsync` and `CARD_CreateEntryAsync` with an entry that is free, and the callbacks -/
def cardCreateEnd (ids : CardIds) (card : CardBlock) (file : CardFile) (filename : Fin 32 → Nat) (size now : Nat) (fat dir : CardUpdate) :
    CardBlock × CardFile × Int :=
  let i := file.filenum.toNat
  let entry := { card.dirblock.entries i with length := size / card.sector_size % 2 ^ 16, filename := cardPadName filename }
  let r := cardAllocblock (card.setEntry i entry) (size / card.sector_size) fat.start
  if r.2 < 0 then (r.1.putcntrlblock r.2, file, r.2)
  else cardCreateFat ids now dir (if fat.result ≥ 0 then r.1.fatwritten else r.1) file

/-- What the two have in common: they differ in the codes that they look for, and in how a name is too long.  An argument that is wrong
leaves the control block taken. -/
def cardCreate (codes ids : CardIds) (card : CardBlock) (file : CardFile) (toolong : Bool) (filename : Fin 32 → Nat) (size now : Nat)
    (fat dir : CardUpdate) : CardBlock × CardFile × Int :=
  if toolong then (card, file, CARD_ERROR_NAMETOOLONG)
  else
    match card.getcntrlblock with
    | .error e => (card, file, e)
    | .ok card =>
      if size = 0 ∨ size % card.sector_size ≠ 0 then (card, file, CARD_ERROR_FATAL_ERROR)
      else
        match cardCreateLoop card.dirblock filename codes (List.range CARD_MAXFILES) (-1) with
        | .error e => (card.putcntrlblock e, file, e)
        | .ok filenum =>
          if filenum = -1 then (card.putcntrlblock CARD_ERROR_NOENT, file, CARD_ERROR_NOENT)
          else if u32 (card.fatblock.freeblocks * card.sector_size) < size then
            (card.putcntrlblock CARD_ERROR_INSSPACE, file, CARD_ERROR_INSSPACE)
          else cardCreateEnd ids card { file with filenum := filenum } filename size now fat dir

/-- `CARD_Create` -/
def CARDCreate (ids : CardIds) (card : CardBlock) (file : CardFile) (filename : List Nat) (size now : Nat) (fat dir : CardUpdate) :
    CardBlock × CardFile × Int :=
  cardCreate ids ids card file (CARD_FILENAMELEN < filename.length) (cardName filename) size now fat dir

def CardDir.ids (d : CardDir) : CardIds := ⟨d.gamecode, d.company⟩

/-- The string of an entry goes on with the game's code if it does not end. -/
def CardDir.toolong (d : CardDir) : Bool := decide ((∀ i, d.filename i ≠ 0) ∧ d.gamecode 0 ≠ 0)

/-- `CARD_CreateEntry` -/
def CARDCreateEntry (ids : CardIds) (card : CardBlock) (file : CardFile) (direntry : CardDir) (now : Nat) (fat dir : CardUpdate) :
    CardBlock × CardFile × Int :=
  cardCreate direntry.ids ids card file direntry.toolong direntry.filename direntry.filelen now fat dir

/-! ## Files that there are -/

/-- What `__card_getfilenum` asks of an entry. -/
def cardIsFile (filename : Fin 32 → Nat) (codes : CardIds) (e : CardDirentry) : Prop :=
  e.live ∧ cardSameName e.filename filename ∧
    ¬ ((codes.gamecode 0 ≠ 0xff ∧ e.gamecode ≠ codes.gamecode) ∨ (codes.company 0 ≠ 0xff ∧ e.company ≠ codes.company))

instance (filename : Fin 32 → Nat) (codes : CardIds) (e : CardDirentry) : Decidable (cardIsFile filename codes e) :=
  inferInstanceAs (Decidable (_ ∧ _))

/-- `__card_getfilenum` -/
def cardGetfilenum (card : CardBlock) (filename : Fin 32 → Nat) (codes : CardIds) : Except Int Nat :=
  if !card.attached then .error CARD_ERROR_NOCARD
  else
    match (List.range CARD_MAXFILES).find? fun i => cardIsFile filename codes (card.dirblock.entries i) with
    | some i => .ok i
    | none => .error CARD_ERROR_NOFILE

/-- `CARD_Open` and `CARD_OpenEntry` -/
def cardOpen (codes : CardIds) (card : CardBlock) (file : CardFile) (filename : Fin 32 → Nat) : CardBlock × CardFile × Int :=
  let file := { file with filenum := -1 }
  match card.getcntrlblock with
  | .error e => (card, file, e)
  | .ok card =>
    match cardGetfilenum card filename codes with
    | .error e => (card.putcntrlblock e, file, e)
    | .ok i =>
      let entry := card.dirblock.entries i
      if card.outside entry.block then (card.putcntrlblock CARD_ERROR_BROKEN, file, CARD_ERROR_BROKEN)
      else
        (card.putcntrlblock CARD_ERROR_READY, ⟨i, 0, s32 (entry.length * card.sector_size : Nat), entry.block⟩, CARD_ERROR_READY)

def CARDOpen (ids : CardIds) (card : CardBlock) (file : CardFile) (filename : List Nat) : CardBlock × CardFile × Int :=
  cardOpen ids card file (cardName filename)

def CARDOpenEntry (card : CardBlock) (entry : CardDir) (file : CardFile) : CardBlock × CardFile × Int :=
  cardOpen entry.ids card file entry.filename

/-- `memset(entry,-1,sizeof(struct card_direntry))` -/
def cardNoEntry : CardDirentry where
  gamecode _ := 0xff
  company _ := 0xff
  pad_00 := 0xff
  bannerfmt := 0xff
  filename _ := 0xff
  lastmodified := 2 ^ 32 - 1
  iconaddr := 2 ^ 32 - 1
  iconfmt := 0xffff
  iconspeed := 0xffff
  permission := 0xff
  copytimes := 0xff
  block := 0xffff
  length := 0xffff
  pad_01 := 0xffff
  commentaddr := 2 ^ 32 - 1

/-- `__delete_callback` of an update that succeeded, and what follows it -/
def cardDeleteFat (card : CardBlock) (fat : CardUpdate) : CardBlock × Int :=
  let r := cardFreeblock card card.curr_fileblock fat.start
  if r.2 < 0 then (r.1.putcntrlblock r.2, r.2)
  else ((if fat.result ≥ 0 then r.1.fatwritten else r.1).putcntrlblock fat.result, fat.result)

/-- `CARD_DeleteAsync` and `CARD_DeleteEntryAsync`, and the callbacks -/
def cardDelete (codes : CardIds) (card : CardBlock) (filename : Fin 32 → Nat) (dir fat : CardUpdate) : CardBlock × Int :=
  match card.getcntrlblock with
  | .error e => (card, e)
  | .ok card =>
    match cardGetfilenum card filename codes with
    | .error e => (card.putcntrlblock e, e)
    | .ok i =>
      let card : CardBlock := { card with curr_fileblock := (card.dirblock.entries i).block }
      let r := (card.setEntry i cardNoEntry).updatesDir dir
      if r.2 < 0 then (r.1.putcntrlblock r.2, r.2) else cardDeleteFat r.1 fat

def CARDDelete (ids : CardIds) (card : CardBlock) (filename : List Nat) (dir fat : CardUpdate) : CardBlock × Int :=
  cardDelete ids card (cardName filename) dir fat

def CARDDeleteEntry (card : CardBlock) (dir_entry : CardDir) (dir fat : CardUpdate) : CardBlock × Int :=
  cardDelete dir_entry.ids card dir_entry.filename dir fat

/-! ## Entries that are changed -/

/-- Another file has the game, the company and all bytes of the name. -/
def cardExists (dirblock : CardDat) (fileno : Nat) (e : CardDirentry) : Prop :=
  ∃ i < CARD_MAXFILES, i ≠ fileno ∧ (dirblock.entries i).live ∧ (dirblock.entries i).gamecode = e.gamecode ∧
    (dirblock.entries i).company = e.company ∧ (dirblock.entries i).filename = e.filename

instance (dirblock : CardDat) (fileno : Nat) (e : CardDirentry) : Decidable (cardExists dirblock fileno e) :=
  inferInstanceAs (Decidable (∃ i < _, _))

/-- `__card_setstatusexasync` and its callback; what an entry does not change is its place, its length and what is not used. -/
def cardSetstatusex (card : CardBlock) (fileno : Int) (entry : CardDirentry) (dir : CardUpdate) : CardBlock × Int :=
  if fileno < 0 ∨ fileno ≥ CARD_MAXFILES then (card, CARD_ERROR_FATAL_ERROR)
  else if entry.filename 0 = 0xff ∨ entry.filename 0 = 0 then (card, CARD_ERROR_FATAL_ERROR)
  else
    match card.getcntrlblock with
    | .error e => (card, e)
    | .ok card =>
      let entry := { entry with filename := cardPadName entry.filename }
      let old := card.dirblock.entries fileno.toNat
      if (old.filename ≠ entry.filename ∨ old.gamecode ≠ entry.gamecode ∨ old.company ≠ entry.company) ∧
          cardExists card.dirblock fileno.toNat entry then
        (card.putcntrlblock CARD_ERROR_EXIST, CARD_ERROR_EXIST)
      else
        let r := (card.setEntry fileno.toNat
          { entry with pad_00 := old.pad_00, block := old.block, length := old.length, pad_01 := old.pad_01 }).updatesDir dir
        (r.1.putcntrlblock r.2, r.2)

/-- `CARD_SetAttributes` -/
def CARDSetAttributes (card : CardBlock) (fileno : Int) (attr : Nat) (dir : CardUpdate) : CardBlock × Int :=
  if fileno < 0 ∨ fileno ≥ CARD_MAXFILES then (card, CARD_ERROR_FATAL_ERROR)
  else
    match card.getcntrlblock with
    | .error e => (card, e)
    | .ok got =>
      cardSetstatusex (got.putcntrlblock CARD_ERROR_READY) fileno { card.dirblock.entries fileno.toNat with permission := attr } dir

/-- What `CARD_SetStatusAsync` reads of a `card_stat`. -/
structure CardSetStat where
  banner_fmt : Nat
  icon_addr : Nat
  icon_fmt : Nat
  icon_speed : Nat
  comment_addr : Nat
  deriving DecidableEq

/-- `CARD_SetStatus` -/
def CARDSetStatus (card : CardBlock) (fileno : Int) (stats : CardSetStat) (now : Nat) (dir : CardUpdate) : CardBlock × Int :=
  if fileno < 0 ∨ fileno ≥ CARD_MAXFILES then (card, CARD_ERROR_FATAL_ERROR)
  else if stats.icon_addr ≠ 2 ^ 32 - 1 ∧ stats.icon_addr ≥ CARD_READSIZE then (card, CARD_ERROR_FATAL_ERROR)
  else if stats.comment_addr ≠ 2 ^ 32 - 1 ∧ stats.comment_addr % 8192 > 8128 then (card, CARD_ERROR_FATAL_ERROR)
  else
    match card.getcntrlblock with
    | .error e => (card, e)
    | .ok card =>
      let iconspeed := if stats.icon_addr = 2 ^ 32 - 1 then stats.icon_speed &&& 0xfffc ||| CARD_SPEED_FAST else stats.icon_speed
      let r := (card.setEntry fileno.toNat { card.dirblock.entries fileno.toNat with
        bannerfmt := stats.banner_fmt
        iconaddr := stats.icon_addr
        iconfmt := stats.icon_fmt
        iconspeed := iconspeed
        commentaddr := stats.comment_addr
        lastmodified := u32 now }).updatesDir dir
      (r.1.putcntrlblock r.2, r.2)

/-- `CARD_SetGamecode` and `CARD_SetCompany`: a string with its length, and the bytes that are copied from it -/
def cardSetCode {n : Nat} (code : Option (Nat × (Fin n → Nat))) : Fin n → Nat :=
  match code with
  | some (len, bytes) => if len ≤ n then bytes else fun _ => 0xff
  | none => fun _ => 0xff

end Libogc
