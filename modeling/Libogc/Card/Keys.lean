import Libogc.Card.Directory
import Libogc.Lib.Runs
import Mathlib.Order.WellFounded
/-!
# Keys — what tells the files of a card apart

A file is told from the others by its game, its company and its name.  `CARD_Create` looks for the codes that it gives the file; so a
directory without duplicates stays one.  `CARD_CreateEntry` looks for those of its argument, and gives the file those that are set
(`card_keys`).
-/
namespace Libogc

open Runs

/-- The two have the same key. -/
def CardDirentry.sameKey (e e' : CardDirentry) : Prop :=
  e.gamecode = e'.gamecode ∧ e.company = e'.company ∧ cardSameName e.filename e'.filename

instance (e e' : CardDirentry) : Decidable (e.sameKey e') := inferInstanceAs (Decidable (_ ∧ _))

/-- **No two files have the same key.** -/
def CardDat.Unique (d : CardDat) : Prop :=
  ∀ i < CARD_MAXFILES, ∀ j < CARD_MAXFILES, i ≠ j → (d.entries i).live → (d.entries j).live → ¬ (d.entries i).sameKey (d.entries j)

/-- A card, and the game and company that are set. -/
structure CardDirs where
  card : CardBlock
  ids : CardIds

/-- The calls that have to do with keys. -/
inductive CardDirCall
  | create (file : CardFile) (filename : List Nat) (size now : Nat) (fat dir : CardUpdate)
  | createEntry (file : CardFile) (direntry : CardDir) (now : Nat) (fat dir : CardUpdate)
  | setAttributes (fileno : Int) (attr : Nat) (dir : CardUpdate)
  | setStatus (fileno : Int) (stats : CardSetStat) (now : Nat) (dir : CardUpdate)
  | delete (filename : List Nat) (dir fat : CardUpdate)
  | deleteEntry (dir_entry : CardDir) (dir fat : CardUpdate)
  | setGamecode (gamecode : Option (Nat × (Fin 4 → Nat)))
  | setCompany (company : Option (Nat × (Fin 2 → Nat)))

def CardDirs.call (s : CardDirs) : CardDirCall → CardDirs × Int
  | .create file filename size now fat dir =>
    let r := CARDCreate s.ids s.card file filename size now fat dir
    ({ s with card := r.1 }, r.2.2)
  | .createEntry file direntry now fat dir =>
    let r := CARDCreateEntry s.ids s.card file direntry now fat dir
    ({ s with card := r.1 }, r.2.2)
  | .setAttributes fileno attr dir =>
    let r := CARDSetAttributes s.card fileno attr dir
    ({ s with card := r.1 }, r.2)
  | .setStatus fileno stats now dir =>
    let r := CARDSetStatus s.card fileno stats now dir
    ({ s with card := r.1 }, r.2)
  | .delete filename dir fat =>
    let r := CARDDelete s.ids s.card filename dir fat
    ({ s with card := r.1 }, r.2)
  | .deleteEntry dir_entry dir fat =>
    let r := CARDDeleteEntry s.card dir_entry dir fat
    ({ s with card := r.1 }, r.2)
  | .setGamecode gamecode => ({ s with ids := { s.ids with gamecode := cardSetCode gamecode } }, CARD_ERROR_READY)
  | .setCompany company => ({ s with ids := { s.ids with company := cardSetCode company } }, CARD_ERROR_READY)

/-- Calls that succeed. -/
def cardDirSystem : System CardDirs CardDirCall where
  enabled s c := 0 ≤ (s.call c).2
  next s c := (s.call c).1

instance (s : CardDirs) (c : CardDirCall) : Decidable (cardDirSystem.enabled s c) := inferInstanceAs (Decidable (_ ≤ _))

/-- `CARD_OpenEntry` finds the file that was made for an entry with a game and a company. -/
def CardDirs.finds (s : CardDirs) : CardDirCall → Prop
  | .createEntry file direntry now fat dir =>
    let r := CARDCreateEntry s.ids s.card file direntry now fat dir
    direntry.gamecode 0 ≠ 0xff → direntry.company 0 ≠ 0xff → ∀ file',
      let opened := CARDOpenEntry r.1 direntry file'
      opened.2.2 = CARD_ERROR_READY ∧ opened.2.1.filenum = r.2.1.filenum
  | _ => True

/-- **What a call has to leave**: no duplicates, and a file that is found. -/
def CardKeyed (s : CardDirs) (c : CardDirCall) : Prop := (s.call c).1.card.dirblock.Unique ∧ s.finds c

/-- A file that is made for a game and a company gets their codes. -/
def cardOwnCodes (s : CardDirs) : CardDirCall → Prop
  | .createEntry _ direntry _ _ _ => direntry.gamecode 0 = 0xff ∨ direntry.company 0 = 0xff ∨ direntry.ids = cardNewIds s.ids
  | _ => True

instance (s : CardDirs) : ∀ c, Decidable (cardOwnCodes s c)
  | .createEntry _ _ _ _ _ => inferInstanceAs (Decidable (_ ∨ _))
  | .create _ _ _ _ _ _ | .setAttributes _ _ _ | .setStatus _ _ _ _ | .delete _ _ _ | .deleteEntry _ _ _ | .setGamecode _ | .setCompany _ =>
    inferInstanceAs (Decidable True)

/-! ## Names -/

section Names
variable {a b c : Fin 32 → Nat}

theorem cardPadName_of {i : Fin 32} (h : ∀ j ≤ i, a j ≠ 0) : cardPadName a i = a i := if_neg fun ⟨j, hj, h0⟩ => h j hj h0

theorem cardPadName_end {i j : Fin 32} (hj : j ≤ i) (h : a j = 0) : cardPadName a i = 0 := if_pos ⟨j, hj, h⟩

theorem card_first_end {i : Fin 32} (h : ∃ j ≤ i, a j = 0) : ∃ k ≤ i, a k = 0 ∧ ∀ j < k, a j ≠ 0 := by
  obtain ⟨j, hj, h0⟩ := h
  obtain ⟨k, ⟨hk, hzero⟩, hmin⟩ := WellFounded.has_min (wellFounded_lt (α := Fin 32)) {k | k ≤ i ∧ a k = 0} ⟨j, hj, h0⟩
  exact ⟨k, hk, hzero, fun l hl hz => hmin l ⟨Nat.le_trans (Nat.le_of_lt hl) hk, hz⟩ hl⟩

theorem cardSameName_iff : cardSameName a b ↔ cardPadName a = cardPadName b := by
  constructor
  · intro h
    have hends : ∀ i, (∃ j ≤ i, a j = 0) ↔ ∃ j ≤ i, b j = 0 := fun i => by
      constructor
      · intro hz
        obtain ⟨k, hk, h0, hbefore⟩ := card_first_end hz
        exact ⟨k, hk, (h k hbefore).symm.trans h0⟩
      · rintro ⟨j, hj, h0⟩
        by_contra hno
        have hne : ∀ k ≤ i, a k ≠ 0 := fun k hk hz => hno ⟨k, hk, hz⟩
        exact hne j hj ((h j fun k hk => hne k (Nat.le_trans (Nat.le_of_lt hk) hj)).trans h0)
    funext i
    by_cases hz : ∃ j ≤ i, a j = 0
    · exact (if_pos hz).trans (if_pos ((hends i).1 hz)).symm
    · refine (if_neg hz).trans ((h i fun j hj hj0 => hz ⟨j, Nat.le_of_lt hj, hj0⟩).trans (if_neg (mt (hends i).2 hz)).symm)
  · intro h i hbefore
    have hall : ∀ j < i, b j ≠ 0 := fun j hj h0 => by
      have hpad := congrFun h j
      rw [cardPadName_of fun k hk => hbefore k (Nat.lt_of_le_of_lt hk hj), cardPadName_end (Nat.le_refl _) h0] at hpad
      exact hbefore j hj hpad
    have hpad := congrFun h i
    by_cases ha : a i = 0
    · by_contra hb
      rw [cardPadName_end (Nat.le_refl _) ha, cardPadName_of fun j hj => ?_] at hpad
      · exact hb (ha.trans hpad)
      · rcases Nat.lt_or_eq_of_le hj with hlt | heq
        · exact hall j hlt
        · rw [Fin.ext heq]
          exact fun h0 => hb (ha.trans h0.symm)
    · rw [cardPadName_of fun j hj => ?_] at hpad
      · by_contra hb
        have hbi : b i ≠ 0 := fun h0 => ha (hpad.trans (cardPadName_end (Nat.le_refl _) h0))
        refine hb (hpad.trans (cardPadName_of fun j hj => ?_))
        rcases Nat.lt_or_eq_of_le hj with hlt | heq
        · exact hall j hlt
        · rwa [Fin.ext heq]
      · rcases Nat.lt_or_eq_of_le hj with hlt | heq
        · exact hbefore j hlt
        · rwa [Fin.ext heq]

theorem cardSameName_refl : cardSameName a a := fun _ _ => rfl

theorem cardSameName.symm (h : cardSameName a b) : cardSameName b a := cardSameName_iff.2 (cardSameName_iff.1 h).symm

theorem cardSameName.trans (h : cardSameName a b) (h' : cardSameName b c) : cardSameName a c :=
  cardSameName_iff.2 ((cardSameName_iff.1 h).trans (cardSameName_iff.1 h'))

theorem cardPadName_pad : cardPadName (cardPadName a) = cardPadName a := by
  funext i
  by_cases h : ∃ j ≤ i, a j = 0
  · obtain ⟨j, hj, h0⟩ := h
    rw [cardPadName_end hj h0, cardPadName_end hj (cardPadName_end (Nat.le_refl _) h0)]
  · refine cardPadName_of fun j hj h0 => ?_
    rw [cardPadName_of fun k hk hz => h ⟨k, Nat.le_trans hk hj, hz⟩] at h0
    exact h ⟨j, hj, h0⟩

theorem cardSameName_pad : cardSameName (cardPadName a) a := cardSameName_iff.2 cardPadName_pad

end Names

namespace CardDirentry

variable {e e' e'' : CardDirentry}

theorem sameKey.symm (h : e.sameKey e') : e'.sameKey e := ⟨h.1.symm, h.2.1.symm, h.2.2.symm⟩

theorem sameKey.trans (h : e.sameKey e') (h' : e'.sameKey e'') : e.sameKey e'' :=
  ⟨h.1.trans h'.1, h.2.1.trans h'.2.1, h.2.2.trans h'.2.2⟩

theorem sameKey_refl : e.sameKey e := ⟨rfl, rfl, cardSameName_refl⟩

end CardDirentry

/-! ## Directories -/

section Unique
variable {d d' : CardDat}

/-- A directory that has no file but those there were is without duplicates as before. -/
theorem CardDat.Unique.of_kept (h : d.Unique) (hkept : ∀ i < CARD_MAXFILES, (d'.entries i).live → (d.entries i).live ∧ (d'.entries i).sameKey (d.entries i)) :
    d'.Unique := by
  intro i hi j hj hne hlive hlive' hsame
  obtain ⟨hi', hki⟩ := hkept i hi hlive
  obtain ⟨hj', hkj⟩ := hkept j hj hlive'
  exact h i hi j hj hne hi' hj' ((hki.symm.trans hsame).trans hkj)

theorem CardDat.Unique.update (h : d.Unique) {k : Nat} {e : CardDirentry} (hd : d'.entries = Function.update d.entries k e)
    (hnew : e.live → ∀ i < CARD_MAXFILES, i ≠ k → (d.entries i).live → ¬ (d.entries i).sameKey e) : d'.Unique := by
  intro i hi j hj hne hlive hlive' hsame
  rw [hd] at hlive hlive' hsame
  by_cases hik : i = k
  · rw [hik, Function.update_self] at hlive hsame
    rw [hik] at hne
    rw [Function.update_of_ne hne.symm] at hlive' hsame
    exact hnew hlive j hj hne.symm hlive' hsame.symm
  · rw [Function.update_of_ne hik] at hlive hsame
    by_cases hjk : j = k
    · rw [hjk, Function.update_self] at hlive' hsame
      exact hnew hlive' i hi hik hlive hsame
    · rw [Function.update_of_ne hjk] at hlive' hsame
      exact h i hi j hj hne hlive hlive' hsame

end Unique

/-! ## What a step keeps -/

/-- Of the card, all that has to do with keys but the entries. -/
structure CardBlock.Keeps (card card' : CardBlock) : Prop where
  attached : card'.attached = card.attached
  blocks : card'.blocks = card.blocks
  entries : card'.dirblock.entries = card.dirblock.entries

namespace CardBlock

variable {card card' card'' : CardBlock}

theorem Keeps.trans (h : card.Keeps card') (h' : card'.Keeps card'') : card.Keeps card'' :=
  ⟨h'.attached.trans h.attached, h'.blocks.trans h.blocks, h'.entries.trans h.entries⟩

theorem keeps_refl : card.Keeps card := ⟨rfl, rfl, rfl⟩

theorem putcntrlblock_keeps (card : CardBlock) (result : Int) : card.Keeps (card.putcntrlblock result) := by
  unfold putcntrlblock
  split
  · exact ⟨rfl, rfl, rfl⟩
  · split
    · exact ⟨rfl, rfl, rfl⟩
    · exact keeps_refl

theorem getcntrlblock_keeps {got : CardBlock} (h : card.getcntrlblock = .ok got) :
    card.Keeps got ∧ got.attached = true ∧ got = { card with result := CARD_ERROR_BUSY } := by
  by_cases hacc : card.accessible
  · rw [getcntrlblock_accessible hacc] at h
    obtain rfl := Except.ok.inj h
    exact ⟨⟨rfl, rfl, rfl⟩, hacc.1, rfl⟩
  · obtain ⟨e, he, -⟩ := getcntrlblock_error hacc
    rw [he] at h
    cases h

theorem updatedir_keeps (card : CardBlock) : card.Keeps card.updatedir := by
  refine ⟨rfl, rfl, ?_⟩
  unfold updatedir
  rw [dirblock_setDirblock]

theorem updatesDir_keeps (card : CardBlock) (dir : CardUpdate) : card.Keeps (card.updatesDir dir).1 := by
  have h := card.updatedir_keeps
  unfold updatesDir
  split
  · exact keeps_refl
  · split
    · exact h
    · dsimp only
      split
      · exact h.trans ⟨rfl, rfl, rfl⟩
      · exact h

theorem allocblock_keeps (card : CardBlock) (blocksneed : Nat) (erased : Int) : card.Keeps (cardAllocblock card blocksneed erased).1 := by
  unfold cardAllocblock
  split
  · exact keeps_refl
  · split
    · exact keeps_refl
    · dsimp only
      split
      · exact ⟨rfl, rfl, rfl⟩
      · exact ⟨rfl, rfl, rfl⟩

theorem freeblock_keeps (card : CardBlock) (block : Nat) (erased : Int) : card.Keeps (cardFreeblock card block erased).1 := by
  unfold cardFreeblock
  split
  · exact keeps_refl
  · dsimp only
    split
    · exact ⟨rfl, rfl, rfl⟩
    · exact ⟨rfl, rfl, rfl⟩

theorem setEntry_entries (card : CardBlock) (i : Nat) (e : CardDirentry) :
    (card.setEntry i e).dirblock.entries = Function.update card.dirblock.entries i e := by
  unfold setEntry
  rw [dirblock_setDirblock]

theorem updatesDir_attached {dir : CardUpdate} (h : 0 ≤ (card.updatesDir dir).2) : card.attached = true := by
  unfold updatesDir at h
  split at h
  case isTrue ha => exact absurd h (by decide : ¬ 0 ≤ CARD_ERROR_NOCARD)
  case isFalse ha => simpa using ha

/-- A control block that is given back with a result that is no failure can be got again. -/
theorem putcntrlblock_accessible (ha : card.attached = true) {result : Int} (hr : 0 ≤ result) : (card.putcntrlblock result).accessible := by
  unfold putcntrlblock
  rw [if_pos ha]
  refine ⟨ha, fun hbusy => ?_⟩
  have hb : result = CARD_ERROR_BUSY := hbusy
  rw [hb] at hr
  exact absurd hr (by decide)

end CardBlock

/-! ## Creation -/

section Create
variable {codes ids : CardIds} {card : CardBlock} {file : CardFile} {toolong : Bool} {filename : Fin 32 → Nat} {size now : Nat}
  {fat dir : CardUpdate}

/-- The search comes to a free entry, and past no file that is looked for. -/
theorem cardCreateLoop_ok {d : CardDat} {l : List Nat} : ∀ {filenum n : Int}, cardCreateLoop d filename codes l filenum = .ok n →
    (∀ i ∈ l, (d.entries i).live → cardSameName (d.entries i).filename filename → ¬ cardCodesTaken codes (d.entries i)) ∧
      (n = filenum ∨ ∃ i ∈ l, n = (i : Int) ∧ ¬ (d.entries i).live) := by
  induction l with
  | nil =>
    intro filenum n h
    exact ⟨(fun i hi => by cases hi), .inl (Except.ok.inj h).symm⟩
  | cons i l ih =>
    intro filenum n h
    rw [cardCreateLoop] at h
    by_cases hlive : (d.entries i).live
    · rw [if_neg (not_not.2 hlive)] at h
      split at h
      · cases h
      next hno =>
        obtain ⟨hrest, hn⟩ := ih h
        refine ⟨fun j hj hl hs => ?_, hn.imp_right fun ⟨j, hj, he⟩ => ⟨j, List.mem_cons_of_mem _ hj, he⟩⟩
        rcases List.mem_cons.1 hj with rfl | hj
        · exact fun ht => hno ⟨hs, ht⟩
        · exact hrest j hj hl hs
    · rw [if_pos hlive] at h
      obtain ⟨hrest, hn⟩ := ih h
      refine ⟨fun j hj hl hs => ?_, ?_⟩
      · rcases List.mem_cons.1 hj with rfl | hj
        · exact absurd hl hlive
        · exact hrest j hj hl hs
      · rcases hn with hn | ⟨j, hj, he⟩
        · by_cases hf : filenum = -1
          · rw [if_pos hf] at hn
            exact .inr ⟨i, List.mem_cons_self, hn, hlive⟩
          · rw [if_neg hf] at hn
            exact .inl hn
        · exact .inr ⟨j, List.mem_cons_of_mem _ hj, he⟩

theorem cardCreateLoop_error {d : CardDat} {l : List Nat} {e : Int} : ∀ {filenum : Int}, cardCreateLoop d filename codes l filenum = .error e →
    e = CARD_ERROR_EXIST := by
  induction l with
  | nil => exact fun h => by cases h
  | cons i l ih =>
    intro filenum h
    rw [cardCreateLoop] at h
    split at h
    · exact ih h
    · split at h
      · exact (Except.error.inj h).symm
      · exact ih h

theorem cardAllocLoop_block {blocks : Nat} (hb : blocks < 2 ^ 16) : ∀ {n i : Nat} {a : CardAlloc},
    (a.block = 0xffff ∧ 0 < i ∨ CARD_SYSAREA ≤ a.block ∧ a.block < blocks) → (0 < n → CARD_SYSAREA < blocks) →
      (cardAllocLoop blocks n i a).2 = true →
        CARD_SYSAREA ≤ (cardAllocLoop blocks n i a).1.block ∧ (cardAllocLoop blocks n i a).1.block < blocks := by
  intro n
  induction n with
  | zero =>
    intro i a hblock _ h
    cases i with
    | zero => exact hblock.resolve_left fun hno => absurd hno.2 (Nat.lt_irrefl 0)
    | succ i => cases h
  | succ n ih =>
    intro i a hblock hdata h
    cases i with
    | zero =>
      rw [cardAllocLoop] at h ⊢
      exact hblock.resolve_left fun hno => absurd hno.2 (Nat.lt_irrefl 0)
    | succ i =>
      rw [cardAllocLoop] at h ⊢
      have hnext := @cardNextblock_lt blocks a.currblock (hdata (Nat.succ_pos n))
      generalize cardNextblock blocks a.currblock = b at hnext h ⊢
      refine ih ?_ (fun hn => hdata (Nat.succ_pos n)) h
      -- a block that is free is the first one, or behind it
      unfold cardAllocStep
      by_cases hfree : a.fat (b - CARD_SYSAREA) = 0
      · rw [if_pos hfree]
        dsimp only
        rcases hblock with ⟨hnone, -⟩ | hsome
        · rw [if_neg (not_not.2 hnone)]
          exact .inr hnext
        · rw [if_pos (by omega)]
          exact .inr hsome
      · rw [if_neg hfree]
        dsimp only
        exact hblock.imp_left fun hnone => ⟨hnone.1, Nat.succ_pos i⟩

theorem cardAllocblock_block (hb : card.blocks < 2 ^ 16) {blocksneed : Nat} (hpos : 0 < blocksneed) {erased : Int}
    (h : 0 ≤ (cardAllocblock card blocksneed erased).2) : ¬ card.outside (cardAllocblock card blocksneed erased).1.curr_fileblock := by
  unfold cardAllocblock at h ⊢
  split at h
  · exact absurd h (by decide : ¬ 0 ≤ CARD_ERROR_NOCARD)
  next ha =>
    split at h
    · exact absurd h (by decide : ¬ 0 ≤ CARD_ERROR_INSSPACE)
    next hspace =>
      rw [if_neg ha, if_neg hspace]
      dsimp only at h ⊢
      split at h
      next hok =>
        rw [if_pos hok]
        have hin := cardAllocLoop_block hb (.inl ⟨rfl, hpos⟩) (fun hn => Nat.lt_of_sub_pos hn) hok
        unfold CardBlock.outside
        exact fun hout => hout.elim (Nat.not_lt.2 hin.1) (Nat.not_le.2 hin.2)
      · exact absurd h (by decide : ¬ 0 ≤ CARD_ERROR_BROKEN)

/-- **What a creation that succeeds leaves.** -/
structure CardMade (codes ids : CardIds) (card : CardBlock) (filename : Fin 32 → Nat) (r : CardBlock × CardFile × Int) (i : Nat)
    (e : CardDirentry) : Prop where
  index : i < CARD_MAXFILES
  free : ¬ (card.dirblock.entries i).live
  others : ∀ j < CARD_MAXFILES, (card.dirblock.entries j).live → cardSameName (card.dirblock.entries j).filename filename →
    ¬ cardCodesTaken codes (card.dirblock.entries j)
  entries : r.1.dirblock.entries = Function.update card.dirblock.entries i e
  gamecode : e.gamecode = (cardNewIds ids).gamecode
  company : e.company = (cardNewIds ids).company
  filename : cardSameName e.filename filename
  block : ¬ card.outside e.block
  blocks : r.1.blocks = card.blocks
  filenum : r.2.1.filenum = i
  accessible : r.1.accessible

theorem cardCreateFat_made {card' : CardBlock} {i : Nat} (hi : i < CARD_MAXFILES) (hfree : ¬ (card.dirblock.entries i).live)
    (hothers : ∀ j < CARD_MAXFILES, (card.dirblock.entries j).live → cardSameName (card.dirblock.entries j).filename filename →
      ¬ cardCodesTaken codes (card.dirblock.entries j)) {entry : CardDirentry} (hname : cardSameName entry.filename filename)
    (hentries : card'.dirblock.entries = Function.update card.dirblock.entries i entry) (hblocks : card'.blocks = card.blocks)
    (hblock : ¬ card.outside card'.curr_fileblock) (hfile : file.filenum = i)
    (h : 0 ≤ (cardCreateFat ids now dir card' file).2.2) :
    CardMade codes ids card filename (cardCreateFat ids now dir card' file) i (cardNewEntry ids card'.curr_fileblock now entry) := by
  unfold cardCreateFat at h ⊢
  dsimp only at h ⊢
  have hnum : file.filenum.toNat = i := by rw [hfile, Int.toNat_natCast]
  have hsame : card'.dirblock.entries i = entry := by rw [hentries, Function.update_self]
  rw [hnum, hsame] at h ⊢
  have hset := card'.setEntry_entries i (cardNewEntry ids card'.curr_fileblock now entry)
  have hsetblocks : (card'.setEntry i (cardNewEntry ids card'.curr_fileblock now entry)).blocks = card'.blocks := rfl
  generalize card'.setEntry i _ = c at h hset hsetblocks ⊢
  have hkeep := (c.updatesDir_keeps dir).trans ((c.updatesDir dir).1.putcntrlblock_keeps (c.updatesDir dir).2)
  refine ⟨hi, hfree, hothers, ?_, rfl, rfl, hname, hblock, ?_, hfile, ?_⟩
  · rw [hkeep.entries, hset, hentries, Function.update_idem]
  · rw [hkeep.blocks, hsetblocks, hblocks]
  · exact CardBlock.putcntrlblock_accessible ((c.updatesDir_keeps dir).attached.trans (CardBlock.updatesDir_attached h)) h

/-- The callback of the table is given an outcome, and does not look at it. -/
theorem cardCreateEnd_made {card' : CardBlock} (hb : card.blocks < 2 ^ 16) (hkeep : card.Keeps card') {i : Nat} (hi : i < CARD_MAXFILES)
    (hfree : ¬ (card.dirblock.entries i).live)
    (hothers : ∀ j < CARD_MAXFILES, (card.dirblock.entries j).live → cardSameName (card.dirblock.entries j).filename filename →
      ¬ cardCodesTaken codes (card.dirblock.entries j)) (hfile : file.filenum = i) (hpos : 0 < size / card'.sector_size)
    (h : 0 ≤ (cardCreateEnd ids card' file filename size now fat dir).2.2) :
    ∃ e, CardMade codes ids card filename (cardCreateEnd ids card' file filename size now fat dir) i e := by
  unfold cardCreateEnd at h ⊢
  dsimp only at h ⊢
  have hnum : file.filenum.toNat = i := by rw [hfile, Int.toNat_natCast]
  rw [hnum] at h ⊢
  generalize hentry : ({ card'.dirblock.entries i with length := size / card'.sector_size % 2 ^ 16, filename := cardPadName filename } :
    CardDirentry) = entry at h ⊢
  have hname : cardSameName entry.filename filename := by
    rw [← hentry]
    exact cardSameName_pad
  have hset := card'.setEntry_entries i entry
  have hsetblocks : (card'.setEntry i entry).blocks = card'.blocks := rfl
  generalize card'.setEntry i entry = c at h hset hsetblocks ⊢
  have halloc := CardBlock.allocblock_keeps c (size / card'.sector_size) fat.start
  have hblock := @cardAllocblock_block c (by rw [hsetblocks, hkeep.blocks]; exact hb) _ hpos fat.start
  generalize cardAllocblock c (size / card'.sector_size) fat.start = r at h halloc hblock ⊢
  by_cases hr : r.2 < 0
  · rw [if_pos hr] at h
    exact absurd h (Int.not_le.2 hr)
  · rw [if_neg hr] at h ⊢
    have hblocks : r.1.blocks = card.blocks := halloc.blocks.trans (hsetblocks.trans hkeep.blocks)
    have hin : ¬ card.outside r.1.curr_fileblock := by
      have hin := hblock (Int.not_lt.1 hr)
      unfold CardBlock.outside at hin ⊢
      rwa [hsetblocks, hkeep.blocks] at hin
    have hfat : r.1.Keeps (if fat.result ≥ 0 then r.1.fatwritten else r.1) ∧
        (if fat.result ≥ 0 then r.1.fatwritten else r.1).curr_fileblock = r.1.curr_fileblock := by
      split
      · exact ⟨⟨rfl, rfl, rfl⟩, rfl⟩
      · exact ⟨CardBlock.keeps_refl, rfl⟩
    generalize (if fat.result ≥ 0 then r.1.fatwritten else r.1) = c' at h hfat ⊢
    refine ⟨_, cardCreateFat_made hi hfree hothers hname ?_ (hfat.1.blocks.trans hblocks) (by rw [hfat.2]; exact hin) hfile h⟩
    rw [hfat.1.entries, halloc.entries, hset, hkeep.entries]

/-- **A creation that succeeds** comes to its end, with an entry that is free. -/
theorem cardCreate_end (h : 0 ≤ (cardCreate codes ids card file toolong filename size now fat dir).2.2) :
    ∃ got i, card.getcntrlblock = .ok got ∧ i < CARD_MAXFILES ∧ ¬ (card.dirblock.entries i).live ∧
      (∀ j < CARD_MAXFILES, (card.dirblock.entries j).live → cardSameName (card.dirblock.entries j).filename filename →
        ¬ cardCodesTaken codes (card.dirblock.entries j)) ∧ 0 < size / got.sector_size ∧
      cardCreate codes ids card file toolong filename size now fat dir =
        cardCreateEnd ids got { file with filenum := i } filename size now fat dir := by
  unfold cardCreate at h ⊢
  split at h
  · exact absurd h (by decide : ¬ 0 ≤ CARD_ERROR_NAMETOOLONG)
  next hlong =>
    rw [if_neg hlong]
    cases hgot : card.getcntrlblock with
    | error e =>
      rw [hgot] at h
      have hacc : ¬ card.accessible := fun hacc => by rw [CardBlock.getcntrlblock_accessible hacc] at hgot; cases hgot
      obtain ⟨e', he', hneg⟩ := CardBlock.getcntrlblock_error hacc
      rw [he'] at hgot
      obtain rfl := Except.error.inj hgot
      exact absurd h (Int.not_le.2 hneg)
    | ok got =>
      obtain ⟨hkeep, -, -⟩ := CardBlock.getcntrlblock_keeps hgot
      rw [hgot] at h
      dsimp only at h ⊢
      split at h
      · exact absurd h (by decide : ¬ 0 ≤ CARD_ERROR_FATAL_ERROR)
      next hsize =>
        rw [if_neg hsize]
        cases hloop : cardCreateLoop got.dirblock filename codes (List.range CARD_MAXFILES) (-1) with
        | error e =>
          rw [hloop] at h
          dsimp only at h
          rw [cardCreateLoop_error hloop] at h
          exact absurd h (by decide : ¬ 0 ≤ CARD_ERROR_EXIST)
        | ok n =>
          rw [hloop] at h
          dsimp only at h ⊢
          obtain ⟨hothers, hn⟩ := cardCreateLoop_ok hloop
          by_cases hnone : n = -1
          · rw [if_pos hnone] at h
            exact absurd h (by decide : ¬ 0 ≤ CARD_ERROR_NOENT)
          · obtain ⟨i, hi, hni, hfree⟩ := hn.resolve_left hnone
            rw [if_neg hnone] at h ⊢
            split at h
            · exact absurd h (by decide : ¬ 0 ≤ CARD_ERROR_INSSPACE)
            next hspace =>
              rw [if_neg hspace]
              have hentries : got.dirblock.entries = card.dirblock.entries := hkeep.entries
              rw [hentries] at hfree hothers
              refine ⟨got, i, rfl, List.mem_range.1 hi, hfree, fun j hj => hothers j (List.mem_range.2 hj), ?_, by rw [hni]⟩
              obtain ⟨h0, hmod⟩ := not_or.1 hsize
              have hdvd := Nat.dvd_of_mod_eq_zero (not_not.1 hmod)
              refine Nat.div_pos (Nat.le_of_dvd (Nat.pos_of_ne_zero h0) hdvd) (Nat.pos_of_ne_zero fun hss => h0 ?_)
              rw [hss] at hdvd
              exact Nat.eq_zero_of_zero_dvd hdvd

theorem cardCreate_made (hb : card.blocks < 2 ^ 16) (h : 0 ≤ (cardCreate codes ids card file toolong filename size now fat dir).2.2) :
    ∃ i e, CardMade codes ids card filename (cardCreate codes ids card file toolong filename size now fat dir) i e := by
  obtain ⟨got, i, hgot, hi, hfree, hothers, hpos, hend⟩ := cardCreate_end h
  rw [hend] at h ⊢
  obtain ⟨e, hmade⟩ := cardCreateEnd_made hb (CardBlock.getcntrlblock_keeps hgot).1 hi hfree hothers rfl hpos h
  exact ⟨i, e, hmade⟩

end Create

/-! ## Changes and deletions -/

/-- One entry was changed, and is no file or has the key of the file that it was. -/
def CardBlock.Changes (card card' : CardBlock) : Prop :=
  card'.blocks = card.blocks ∧ ∃ i e, card'.dirblock.entries = Function.update card.dirblock.entries i e ∧
    (e.live → (card.dirblock.entries i).live ∧ e.sameKey (card.dirblock.entries i))

section Change
variable {card got : CardBlock} {dir fat : CardUpdate} {fileno : Int}

theorem CardBlock.Changes.unique {card' : CardBlock} (h : card.Changes card') (hu : card.dirblock.Unique) : card'.dirblock.Unique := by
  obtain ⟨-, i, e, he, hkey⟩ := h
  refine hu.of_kept fun j _ hlive => ?_
  rw [he] at hlive ⊢
  by_cases hj : j = i
  · rw [hj, Function.update_self] at hlive ⊢
    exact hkey hlive
  · rw [Function.update_of_ne hj] at hlive ⊢
    exact ⟨hlive, CardDirentry.sameKey_refl⟩

/-- An entry is set in the control block that was got, and the directory updated. -/
theorem CardBlock.changes_setEntry {card' : CardBlock} (hkeep : card.Keeps got) {i : Nat} {e : CardDirentry}
    (hkey : e.live → (card.dirblock.entries i).live ∧ e.sameKey (card.dirblock.entries i)) (hafter : (got.setEntry i e).Keeps card') :
    card.Changes card' := by
  refine ⟨hafter.blocks.trans hkeep.blocks, i, e, ?_, hkey⟩
  rw [hafter.entries, CardBlock.setEntry_entries, hkeep.entries]

theorem CardBlock.changes_updatesDir (hkeep : card.Keeps got) {i : Nat} {e : CardDirentry}
    (hkey : e.live → (card.dirblock.entries i).live ∧ e.sameKey (card.dirblock.entries i)) (dir : CardUpdate) (result : Int) :
    card.Changes (((got.setEntry i e).updatesDir dir).1.putcntrlblock result) :=
  CardBlock.changes_setEntry hkeep hkey ((CardBlock.updatesDir_keeps _ dir).trans (CardBlock.putcntrlblock_keeps _ _))

theorem CardBlock.getcntrlblock_neg {e : Int} (h : card.getcntrlblock = .error e) : e < 0 := by
  by_cases hacc : card.accessible
  · rw [getcntrlblock_accessible hacc] at h
    cases h
  · obtain ⟨e', he', hneg⟩ := getcntrlblock_error hacc
    rw [he'] at h
    obtain rfl := Except.error.inj h
    exact hneg

theorem cardSetstatusex_changes {entry : CardDirentry} (hgame : entry.gamecode = (card.dirblock.entries fileno.toNat).gamecode)
    (hcompany : entry.company = (card.dirblock.entries fileno.toNat).company)
    (hname : entry.filename = (card.dirblock.entries fileno.toNat).filename) (h : 0 ≤ (cardSetstatusex card fileno entry dir).2) :
    card.Changes (cardSetstatusex card fileno entry dir).1 := by
  unfold cardSetstatusex at h ⊢
  split at h
  · exact absurd h (by decide : ¬ 0 ≤ CARD_ERROR_FATAL_ERROR)
  next hrange =>
    split at h
    · exact absurd h (by decide : ¬ 0 ≤ CARD_ERROR_FATAL_ERROR)
    next hnamed =>
      rw [if_neg hrange, if_neg hnamed]
      cases hgot : card.getcntrlblock with
      | error e =>
        rw [hgot] at h
        exact absurd h (Int.not_le.2 (CardBlock.getcntrlblock_neg hgot))
      | ok got =>
        obtain ⟨hkeep, -, -⟩ := CardBlock.getcntrlblock_keeps hgot
        rw [hgot] at h
        dsimp only at h ⊢
        split at h
        · exact absurd h (by decide : ¬ 0 ≤ CARD_ERROR_EXIST)
        next hunique =>
          rw [if_neg hunique]
          refine CardBlock.changes_updatesDir hkeep (fun hlive => ⟨?_, ?_, ?_, ?_⟩) dir _
          · unfold CardDirentry.live at hlive ⊢
            rwa [← hgame]
          · exact hgame
          · exact hcompany
          · rw [← hname]
            exact cardSameName_pad

theorem cardSetAttributes_changes {attr : Nat} (h : 0 ≤ (CARDSetAttributes card fileno attr dir).2) :
    card.Changes (CARDSetAttributes card fileno attr dir).1 := by
  unfold CARDSetAttributes at h ⊢
  split at h
  · exact absurd h (by decide : ¬ 0 ≤ CARD_ERROR_FATAL_ERROR)
  next hrange =>
    rw [if_neg hrange]
    cases hgot : card.getcntrlblock with
    | error e =>
      rw [hgot] at h
      exact absurd h (Int.not_le.2 (CardBlock.getcntrlblock_neg hgot))
    | ok got =>
      rw [hgot] at h
      dsimp only at h ⊢
      have hkeep := (CardBlock.getcntrlblock_keeps hgot).1.trans (got.putcntrlblock_keeps CARD_ERROR_READY)
      generalize got.putcntrlblock CARD_ERROR_READY = c at h hkeep ⊢
      rw [← hkeep.entries] at h ⊢
      obtain ⟨hblocks, hrest⟩ :=
        @cardSetstatusex_changes c dir fileno { c.dirblock.entries fileno.toNat with permission := attr } rfl rfl rfl h
      refine ⟨hblocks.trans hkeep.blocks, ?_⟩
      rw [← hkeep.entries]
      exact hrest

theorem cardSetStatus_changes {stats : CardSetStat} {now : Nat} (h : 0 ≤ (CARDSetStatus card fileno stats now dir).2) :
    card.Changes (CARDSetStatus card fileno stats now dir).1 := by
  unfold CARDSetStatus at h ⊢
  split at h
  · exact absurd h (by decide : ¬ 0 ≤ CARD_ERROR_FATAL_ERROR)
  next hrange =>
    split at h
    · exact absurd h (by decide : ¬ 0 ≤ CARD_ERROR_FATAL_ERROR)
    next hicon =>
      split at h
      · exact absurd h (by decide : ¬ 0 ≤ CARD_ERROR_FATAL_ERROR)
      next hcomment =>
        rw [if_neg hrange, if_neg hicon, if_neg hcomment]
        cases hgot : card.getcntrlblock with
        | error e =>
          rw [hgot] at h
          exact absurd h (Int.not_le.2 (CardBlock.getcntrlblock_neg hgot))
        | ok got =>
          obtain ⟨hkeep, -, -⟩ := CardBlock.getcntrlblock_keeps hgot
          refine CardBlock.changes_updatesDir hkeep (fun hlive => ?_) dir _
          have hsame : got.dirblock.entries fileno.toNat = card.dirblock.entries fileno.toNat := by rw [hkeep.entries]
          unfold CardDirentry.live at hlive ⊢
          dsimp only at hlive ⊢
          rw [hsame] at hlive ⊢
          exact ⟨hlive, rfl, rfl, cardSameName_refl⟩

theorem cardDelete_changes {codes : CardIds} {filename : Fin 32 → Nat} (h : 0 ≤ (cardDelete codes card filename dir fat).2) :
    card.Changes (cardDelete codes card filename dir fat).1 := by
  unfold cardDelete at h ⊢
  cases hgot : card.getcntrlblock with
  | error e =>
    rw [hgot] at h
    exact absurd h (Int.not_le.2 (CardBlock.getcntrlblock_neg hgot))
  | ok got =>
    obtain ⟨hkeep, hatt, -⟩ := CardBlock.getcntrlblock_keeps hgot
    rw [hgot] at h
    dsimp only at h ⊢
    cases hfile : cardGetfilenum got filename codes with
    | error e =>
      rw [hfile] at h
      refine absurd h ?_
      unfold cardGetfilenum at hfile
      rw [if_neg (by rw [hatt]; decide)] at hfile
      split at hfile
      · cases hfile
      · obtain rfl := Except.error.inj hfile
        exact (by decide : ¬ 0 ≤ CARD_ERROR_NOFILE)
    | ok i =>
      rw [hfile] at h
      dsimp only at h ⊢
      have hgot' : card.Keeps { got with curr_fileblock := (got.dirblock.entries i).block } := hkeep.trans ⟨rfl, rfl, rfl⟩
      refine CardBlock.changes_setEntry hgot' (fun hlive => absurd rfl hlive) (i := i) (e := cardNoEntry) ?_
      generalize CardBlock.setEntry _ i cardNoEntry = c at h ⊢
      have hdir := c.updatesDir_keeps dir
      generalize c.updatesDir dir = r at h hdir ⊢
      split
      · exact hdir.trans (CardBlock.putcntrlblock_keeps _ _)
      · unfold cardDeleteFat
        have hfree := CardBlock.freeblock_keeps r.1 r.1.curr_fileblock fat.start
        dsimp only
        split
        · exact hdir.trans (hfree.trans (CardBlock.putcntrlblock_keeps _ _))
        · refine hdir.trans (hfree.trans (CardBlock.Keeps.trans ?_ (CardBlock.putcntrlblock_keeps _ _)))
          split
          · exact ⟨rfl, rfl, rfl⟩
          · exact CardBlock.keeps_refl

end Change

/-! ## The file that was made -/

section Made
variable {codes ids : CardIds} {card : CardBlock} {filename : Fin 32 → Nat} {r : CardBlock × CardFile × Int} {i : Nat} {e : CardDirentry}

/-- A file that was looked for with the codes that it got, or without codes, is no duplicate. -/
theorem CardMade.unique (h : CardMade codes ids card filename r i e) (hu : card.dirblock.Unique)
    (hcodes : codes.gamecode 0 = 0xff ∨ codes.company 0 = 0xff ∨ codes = cardNewIds ids) : r.1.dirblock.Unique := by
  refine hu.update h.entries fun _ j hj _ hlive hsame => ?_
  obtain ⟨hgame, hcompany, hname⟩ := hsame
  refine h.others j hj hlive (hname.trans h.filename) ?_
  by_cases hunset : codes.gamecode 0 = 0xff ∨ codes.company 0 = 0xff
  · exact .inl hunset
  · obtain ⟨hg, hc⟩ := not_or.1 hunset
    have hnew := (hcodes.resolve_left hg).resolve_left hc
    refine .inr ⟨⟨hg, ?_⟩, hc, ?_⟩
    · rw [hnew, ← h.gamecode]
      exact hgame
    · rw [hnew, ← h.company]
      exact hcompany

theorem cardNewIds_own (ids : CardIds) : ids.gamecode 0 = 0xff ∨ ids.company 0 = 0xff ∨ ids = cardNewIds ids := by
  by_cases hg : ids.gamecode 0 = 0xff
  · exact .inl hg
  · refine .inr (.inr ?_)
    unfold cardNewIds
    rw [if_pos hg]

/-- No other file has the name, and the game and company that were looked for. -/
theorem CardMade.not_other (h : CardMade codes ids card filename r i e) (hg : codes.gamecode 0 ≠ 0xff) (hc : codes.company 0 ≠ 0xff) {j : Nat}
    (hj : j < CARD_MAXFILES) (hne : j ≠ i) : ¬ cardIsFile filename codes (r.1.dirblock.entries j) := by
  rw [h.entries, Function.update_of_ne hne]
  rintro ⟨hlive, hname, hno⟩
  refine h.others j hj hlive hname (.inr ⟨⟨hg, ?_⟩, hc, ?_⟩)
  · by_contra hdiff
    exact hno (.inl ⟨hg, hdiff⟩)
  · by_contra hdiff
    exact hno (.inr ⟨hc, hdiff⟩)

theorem CardMade.isFile (h : CardMade codes ids card filename r i e) (hg : codes.gamecode 0 ≠ 0xff) (hc : codes.company 0 ≠ 0xff) :
    cardIsFile filename codes (r.1.dirblock.entries i) ↔ codes = cardNewIds ids := by
  rw [h.entries, Function.update_self]
  constructor
  · rintro ⟨-, -, hno⟩
    have hgame : e.gamecode = codes.gamecode := by
      by_contra hdiff
      exact hno (.inl ⟨hg, hdiff⟩)
    have hcompany : e.company = codes.company := by
      by_contra hdiff
      exact hno (.inr ⟨hc, hdiff⟩)
    rw [h.gamecode] at hgame
    rw [h.company] at hcompany
    cases codes
    cases hnew : cardNewIds ids
    rw [hnew] at hgame hcompany
    dsimp only at hgame hcompany
    rw [hgame, hcompany]
  · intro hnew
    refine ⟨?_, h.filename, fun hno => ?_⟩
    · unfold CardDirentry.live
      rw [h.gamecode, ← hnew]
      exact hg
    · rcases hno with ⟨-, hdiff⟩ | ⟨-, hdiff⟩
      · exact hdiff (by rw [h.gamecode, hnew])
      · exact hdiff (by rw [h.company, hnew])

theorem CardMade.getfilenum (h : CardMade codes ids card filename r i e) (hg : codes.gamecode 0 ≠ 0xff) (hc : codes.company 0 ≠ 0xff)
    {c : CardBlock} (ha : c.attached = true) (hd : c.dirblock = r.1.dirblock) :
    cardGetfilenum c filename codes = if codes = cardNewIds ids then .ok i else .error CARD_ERROR_NOFILE := by
  have hothers : ∀ j ∈ List.range CARD_MAXFILES, j ≠ i → ¬ cardIsFile filename codes (c.dirblock.entries j) := fun j hj => by
    rw [hd]
    exact h.not_other hg hc (List.mem_range.1 hj)
  have hfile := h.isFile hg hc
  rw [← hd] at hfile
  unfold cardGetfilenum
  rw [if_neg (by rw [ha]; decide)]
  by_cases hnew : codes = cardNewIds ids
  · rw [if_pos hnew]
    obtain ⟨j, hj⟩ : ∃ j, (List.range CARD_MAXFILES).find? (fun i => decide (cardIsFile filename codes (c.dirblock.entries i))) = some j := by
      rw [← Option.isSome_iff_exists, List.find?_isSome]
      exact ⟨i, List.mem_range.2 h.index, decide_eq_true (hfile.2 hnew)⟩
    have hji : j = i := by
      by_contra hne
      have hfound := List.find?_some hj
      exact hothers j (List.mem_of_find?_eq_some hj) hne (of_decide_eq_true hfound)
    rw [hj, hji]
  · have hnone : (List.range CARD_MAXFILES).find? (fun i => decide (cardIsFile filename codes (c.dirblock.entries i))) = none := by
      refine List.find?_eq_none.2 fun j hj => ?_
      rw [decide_eq_true_eq]
      by_cases hji : j = i
      · rw [hji]
        exact fun hf => hnew (hfile.1 hf)
      · exact hothers j hj hji
    rw [if_neg hnew, hnone]

/-- **The file is found** exactly if it got the codes that were looked for. -/
theorem CardMade.open_iff (h : CardMade codes ids card filename r i e) (hg : codes.gamecode 0 ≠ 0xff) (hc : codes.company 0 ≠ 0xff) (file' : CardFile) :
    ((cardOpen codes r.1 file' filename).2.2 = CARD_ERROR_READY ∧ (cardOpen codes r.1 file' filename).2.1.filenum = r.2.1.filenum) ↔
      codes = cardNewIds ids := by
  have hblock : ¬ (CARD_SYSAREA > (r.1.dirblock.entries i).block ∨ (r.1.dirblock.entries i).block ≥ r.1.blocks) := by
    rw [h.entries, Function.update_self, h.blocks]
    exact h.block
  unfold cardOpen
  rw [CardBlock.getcntrlblock_accessible h.accessible]
  dsimp only
  generalize hc' : ({ r.1 with result := CARD_ERROR_BUSY } : CardBlock) = c
  have hd : c.dirblock = r.1.dirblock := by rw [← hc']; rfl
  have hb : c.blocks = r.1.blocks := by rw [← hc']
  have ha : c.attached = true := by rw [← hc']; exact h.accessible.1
  rw [h.getfilenum hg hc ha hd]
  by_cases hnew : codes = cardNewIds ids
  · rw [if_pos hnew]
    have hin : ¬ c.outside (c.dirblock.entries i).block := by
      unfold CardBlock.outside
      rw [hd, hb]
      exact hblock
    dsimp only
    rw [if_neg hin]
    exact iff_of_true ⟨rfl, h.filenum.symm⟩ hnew
  · rw [if_neg hnew]
    exact iff_of_false (fun hready => absurd hready.1 (by decide : CARD_ERROR_NOFILE ≠ CARD_ERROR_READY)) hnew

end Made

/-! ## Runs -/

section Runs
variable {s : CardDirs}

/-- **A step**: no duplicate comes, and what is made is found, exactly if it got the codes that were looked for. -/
theorem CardDirs.keyed_iff (hb : s.card.blocks < 2 ^ 16) (hu : s.card.dirblock.Unique) {c : CardDirCall} (hc : 0 ≤ (s.call c).2) :
    CardKeyed s c ↔ cardOwnCodes s c := by
  cases c with
  | create file filename size now fat dir =>
    obtain ⟨i, e, hmade⟩ := cardCreate_made hb hc
    exact iff_of_true ⟨hmade.unique hu (cardNewIds_own s.ids), trivial⟩ trivial
  | createEntry file direntry now fat dir =>
    obtain ⟨i, e, hmade⟩ := cardCreate_made hb hc
    constructor
    · rintro ⟨-, hfinds⟩
      refine or_iff_not_imp_left.2 fun hg => or_iff_not_imp_left.2 fun hco => ?_
      exact (hmade.open_iff hg hco file).1 (hfinds hg hco file)
    · intro hown
      refine ⟨hmade.unique hu hown, fun hg hco file' => ?_⟩
      exact (hmade.open_iff hg hco file').2 ((hown.resolve_left hg).resolve_left hco)
  | setAttributes fileno attr dir => exact iff_of_true ⟨(cardSetAttributes_changes hc).unique hu, trivial⟩ trivial
  | setStatus fileno stats now dir => exact iff_of_true ⟨(cardSetStatus_changes hc).unique hu, trivial⟩ trivial
  | delete filename dir fat => exact iff_of_true ⟨(cardDelete_changes hc).unique hu, trivial⟩ trivial
  | deleteEntry dir_entry dir fat => exact iff_of_true ⟨(cardDelete_changes hc).unique hu, trivial⟩ trivial
  | setGamecode gamecode => exact iff_of_true ⟨hu, trivial⟩ trivial
  | setCompany company => exact iff_of_true ⟨hu, trivial⟩ trivial

theorem CardDirs.call_blocks (hb : s.card.blocks < 2 ^ 16) {c : CardDirCall} (hc : 0 ≤ (s.call c).2) :
    (s.call c).1.card.blocks = s.card.blocks := by
  cases c with
  | create file filename size now fat dir =>
    obtain ⟨i, e, hmade⟩ := cardCreate_made hb hc
    exact hmade.blocks
  | createEntry file direntry now fat dir =>
    obtain ⟨i, e, hmade⟩ := cardCreate_made hb hc
    exact hmade.blocks
  | setAttributes fileno attr dir => exact (cardSetAttributes_changes hc).1
  | setStatus fileno stats now dir => exact (cardSetStatus_changes hc).1
  | delete filename dir fat => exact (cardDelete_changes hc).1
  | deleteEntry dir_entry dir fat => exact (cardDelete_changes hc).1
  | setGamecode gamecode => rfl
  | setCompany company => rfl

/-- **The keys of a card.**  From a directory without duplicates, calls that succeed leave none, and every file that was made for an entry
is found, exactly if those that were made for a game and a company got their codes. -/
theorem card_keys (hb : s.card.blocks < 2 ^ 16) (hu : s.card.dirblock.Unique) {calls : List CardDirCall} (hl : cardDirSystem.Legal s calls) :
    (cardDirSystem.restrict CardKeyed).Legal s calls ↔ (cardDirSystem.restrict cardOwnCodes).Legal s calls := by
  refine System.Legal.restrict_iff (I := fun s : CardDirs => s.card.blocks < 2 ^ 16 ∧ s.card.dirblock.Unique)
    (fun s c hs hc => CardDirs.keyed_iff hs.1 hs.2 hc) (fun s c hs hc hkeyed => ⟨?_, hkeyed.1⟩) ⟨hb, hu⟩ hl
  show (s.call c).1.card.blocks < 2 ^ 16
  rw [CardDirs.call_blocks hs.1 hc]
  exact hs.1

end Runs

/-- A card without files, with a game and a company that are set. -/
def cardDirs0 : CardDirs where
  card := { cardSeek0 with
    dat := fun _ => { (default : CardDat) with entries := fun _ => cardNoEntry }
    bat := fun _ => { chksum1 := 0, chksum2 := 0, updated := 0, freeblocks := 59, lastalloc := 4, fat := fun _ => 0 } }
  ids := ⟨fun _ => 0x47, fun _ => 0x43⟩

theorem cardDirs0_unique : cardDirs0.card.dirblock.Unique := fun _ _ _ _ _ hlive => absurd rfl hlive

/-- An entry of one block for the company. -/
def cardDirOf (game byte : Nat) : CardDir where
  chn := 0
  fileno := 0
  filelen := 8192
  permissions := 4
  filename := cardName [byte]
  gamecode _ := game
  company _ := 0x43
  showall := false

/-- Two files are made, and the first one is deleted. -/
def cardDirCalls0 : List CardDirCall :=
  [.create cardFile0 [0x41] 8192 0 ⟨0, 0⟩ ⟨0, 0⟩, .createEntry cardFile0 (cardDirOf 0x47 0x42) 0 ⟨0, 0⟩ ⟨0, 0⟩, .delete [0x41] ⟨0, 0⟩ ⟨0, 0⟩]

theorem card_keys_two : (cardDirSystem.restrict CardKeyed).Legal cardDirs0 cardDirCalls0 ↔
    (cardDirSystem.restrict cardOwnCodes).Legal cardDirs0 cardDirCalls0 :=
  card_keys (by decide) cardDirs0_unique (by decide +kernel)

/-- A file that is made for another game is a second one of the game that is set. -/
theorem card_keys_other : ¬ ∀ (s : CardDirs) (calls : List CardDirCall), s.card.blocks < 2 ^ 16 → s.card.dirblock.Unique →
    cardDirSystem.Legal s calls → (cardDirSystem.restrict CardKeyed).Legal s calls := by
  intro h
  obtain ⟨-, ⟨-, hunique, -⟩, -⟩ := h cardDirs0
    [.create cardFile0 [0x41] 8192 0 ⟨0, 0⟩ ⟨0, 0⟩, .createEntry cardFile0 (cardDirOf 0x48 0x41) 0 ⟨0, 0⟩ ⟨0, 0⟩] (by decide) cardDirs0_unique
    (by decide +kernel)
  exact hunique 0 (by decide) 1 (by decide) (by decide) (by decide +kernel) (by decide +kernel) (by decide +kernel)

end Libogc
