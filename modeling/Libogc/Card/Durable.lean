import Libogc.Card.Files
import Libogc.Card.Verify
/-!
# Durable — what a card is mounted with after a run

The copies of the directory and of the table are written in turn, each with the number behind the last one's, and a mount takes the copy
with the greater number.  A card that was formatted has two directories with the last number of all, and tables with 0 and 1.  So a mount
takes what was written last unless the numbers began again with it (`card_durable`).
-/
namespace Libogc

open Runs

/-- A mounted card, the files' bytes, and the sectors of the system area but for the header. -/
structure CardStore where
  dirs : CardDirs
  flash : Flash.Mem
  dat : Fin 2 → CardDat
  bat : Fin 2 → CardBat

def CardStore.card (s : CardStore) : CardBlock := s.dirs.card

/-! ## Format -/

/-- A directory as `__card_formatregion` makes it -/
def cardFormatDir : CardDat :=
  let d : CardDat := { entries := fun _ => cardNoEntry, pad := fun _ => 0xffff, updated := 0xffff, chksum1 := 0xffff, chksum2 := 0xffff }
  let cs := cardChecksum d.words
  { d with chksum1 := cs.1, chksum2 := cs.2 }

/-- A table, likewise -/
def cardFormatBat (blocks : Nat) (cnt : Fin 2) : CardBat :=
  let b : CardBat := { chksum1 := 0, chksum2 := 0, updated := cnt, freeblocks := (blocks + 2 ^ 16 - CARD_SYSAREA) % 2 ^ 16, lastalloc := 4, fat := fun _ => 0 }
  let cs := cardChecksum b.words
  { b with chksum1 := cs.1, chksum2 := cs.2 }

/-- `__card_formatregion` up to the erasure that it starts -/
def CardBlock.formatregion (card : CardBlock) : CardBlock := { card with dat := fun _ => cardFormatDir, bat := cardFormatBat card.blocks }

/-- The end of `__format_callback` -/
def CardBlock.formatted (card : CardBlock) : CardBlock := { card with
  curr_dir := 0
  dat := Function.update card.dat 0 (card.dat 1)
  curr_fat := 0
  bat := Function.update card.bat 0 (card.bat 1) }

/-- `CARD_Format`: the sectors of the system area are erased, and then written; the outcomes of the steps are arguments. -/
def CardStore.format (s : CardStore) (o : Nat → Int) : CardStore × Int :=
  match s.card.getcntrlblock with
  | .error e => (s, e)
  | .ok card =>
    let card := card.formatregion
    match (List.range 10).find? fun step => o step < 0 with
    | some step => ({ s with dirs := { s.dirs with card := card.putcntrlblock (o step) } }, o step)
    | none => ({ s with dirs := { s.dirs with card := card.formatted.putcntrlblock (o 9) }, dat := card.dat, bat := card.bat }, o 9)

/-! ## Calls -/

/-- The sectors behind a call.  An update that goes well writes the copy that was current, and leaves what it wrote as the current contents;
what one leaves that fails is left out. -/
def CardStore.written (s : CardStore) (dirs : CardDirs) : CardStore := { s with
  dirs := dirs
  dat := if dirs.card.curr_dir = s.card.curr_dir then s.dat else Function.update s.dat s.card.curr_dir dirs.card.dirblock
  bat := if dirs.card.curr_fat = s.card.curr_fat then s.bat else Function.update s.bat s.card.curr_fat dirs.card.fatblock }

/-- The calls that change a card. -/
inductive CardStoreCall
  | dirs (c : CardDirCall)
  | write (file : CardFile) (buf : Nat → BitVec 8) (len offset now : Nat) (o : CardWrites)

def CardStore.call (s : CardStore) : CardStoreCall → CardStore × Int
  | .dirs c =>
    let r := s.dirs.call c
    (s.written r.1, r.2)
  | .write file buf len offset now o =>
    let r := cardWrite ⟨s.card, file, s.flash, s.dat⟩ buf len offset now o
    ({ s with dirs := { s.dirs with card := r.1.card }, flash := r.1.flash, dat := r.1.dirs }, r.2)

/-- The erasures and the writes of a call go well. -/
def CardDirCall.Succeeds : CardDirCall → Prop
  | create _ _ _ _ fat dir | createEntry _ _ _ fat dir | delete _ dir fat | deleteEntry _ dir fat => dir.Succeeds ∧ fat.Succeeds
  | setAttributes _ _ dir | setStatus _ _ _ dir => dir.Succeeds
  | setGamecode _ | setCompany _ => True

def CardStoreCall.Succeeds : CardStoreCall → Prop
  | dirs c => c.Succeeds
  | write _ _ _ _ _ o => (∀ i, 0 ≤ o.erase i ∧ 0 ≤ o.write i) ∧ 0 ≤ o.dir

/-- Calls that succeed, one after the other. -/
def cardStoreSystem : System CardStore CardStoreCall where
  enabled s c := c.Succeeds ∧ 0 ≤ (s.call c).2
  next s c := (s.call c).1

/-- The directories that a call writes. -/
def CardStoreCall.dirUpdates : CardStoreCall → Nat
  | dirs (.setGamecode _) | dirs (.setCompany _) => 0
  | dirs _ | write .. => 1

/-- The tables that a call writes. -/
def CardStoreCall.fatUpdates : CardStoreCall → Nat
  | dirs (.create ..) | dirs (.createEntry ..) | dirs (.delete ..) | dirs (.deleteEntry ..) => 1
  | dirs _ | write .. => 0

/-- **A card is durable** if a mount, which begins with nothing selected, selects what the driver has as current. -/
def CardStore.Durable (s : CardStore) : Prop :=
  ∃ hb : s.card.blocks < 2 ^ 16,
    let r := cardVerify ⟨s.card.blocks, hb, s.dat, s.bat, none, none⟩
    r.2 = CARD_ERROR_READY ∧ ∃ dir fat, r.1.curr_dir = some dir ∧ r.1.curr_fat = some fat ∧
      r.1.dat dir = s.card.dirblock ∧ r.1.bat fat = s.card.fatblock

/-! ## The copies of a kind -/

/-- The contents that are current, and those before, are on the card with their numbers. -/
structure CardCopies {α : Type} (valid : α → Prop) (updated : α → Nat) (copies : Fin 2 → α) (curr : Fin 2) (a : α) (new old : Nat) :
    Prop where
  newest : copies curr.rev = a
  valid : ∀ i, valid (copies i)
  new : updated a = new
  old : updated (copies curr) = old

section Copies
variable {α : Type} {valid : α → Prop} {good : α → Bool} {updated : α → Nat} {copies : Fin 2 → α} {curr : Fin 2} {a a' : α} {new old : Nat}

theorem cardCopy_rev_ne : ∀ curr : Fin 2, curr.rev ≠ curr := by decide

theorem cardCopy_of_ne : ∀ {i curr : Fin 2}, i ≠ curr → i = curr.rev := by decide

theorem CardCopies.write (h : CardCopies valid updated copies curr a new old) (ha : valid a') (hnew : updated a' = (updated a + 1) % 2 ^ 16) :
    CardCopies valid updated (Function.update copies curr a') curr.rev a' ((new + 1) % 2 ^ 16) new where
  newest := by
    rw [Fin.rev_rev]
    exact Function.update_self ..
  valid i := by
    by_cases hi : i = curr
    · rw [hi, Function.update_self]
      exact ha
    · rw [Function.update_of_ne hi]
      exact h.valid i
  new := by rw [hnew, h.new]
  old := by
    rw [Function.update_of_ne (cardCopy_rev_ne curr), h.newest]
    exact h.new

/-- The copy that is selected has the contents that are current exactly if it is the later one by its number. -/
theorem CardCopies.selected (hgood : ∀ a, good a = true ↔ valid a) (h : CardCopies valid updated copies curr a new old) (hne : old ≠ new) :
    copies (cardStale good updated copies).rev = a ↔ old < new := by
  have hall : ∀ i, good (copies i) = true := fun i => (hgood _).2 (h.valid i)
  have hnewest := h.newest
  have hnew := h.new
  have hold := h.old
  unfold cardStale
  rw [if_pos (hall 1), if_pos (hall 0)]
  match curr with
  | 0 =>
    have h1 : updated (copies 1) = new := by
      rw [← hnew, ← hnewest]
      rfl
    rw [h1, hold]
    by_cases hlt : old < new
    · rw [if_pos hlt]
      exact iff_of_true hnewest hlt
    · rw [if_neg hlt]
      refine iff_of_false (fun hsame => hne ?_) hlt
      rw [← hold, ← hnew, ← hsame]
      rfl
  | 1 =>
    have h0 : updated (copies 0) = new := by
      rw [← hnew, ← hnewest]
      rfl
    rw [h0, hold]
    by_cases hlt : new < old
    · rw [if_pos hlt]
      refine iff_of_false (fun hsame => hne ?_) (by omega)
      rw [← hold, ← hnew, ← hsame]
      rfl
    · rw [if_neg hlt]
      exact iff_of_true hnewest (by omega)

theorem cardBadCopies_none (hgood : ∀ a, good a = true ↔ valid a) (h : CardCopies valid updated copies curr a new old) :
    cardBadCopies good copies = 0 := (cardBadCopies_zero hgood).2 h.valid

end Copies

/-! ## What a run keeps -/

/-- A card in order after updates of the directory and of the table: the current contents and those before are on it, with their numbers.
The directories of a format are the same. -/
structure CardStore.Written (s : CardStore) (dirs fats : Nat) : Prop where
  order : ∃ chains, CardInOrder s.card chains
  dir : CardCopies CardDat.valid CardDat.updated s.dat s.card.curr_dir s.card.dirblock ((65535 + dirs) % 2 ^ 16)
    (if dirs = 0 then 65535 else (65534 + dirs) % 2 ^ 16)
  fat : CardCopies (CardBat.valid s.card.blocks) CardBat.updated s.bat s.card.curr_fat s.card.fatblock ((1 + fats) % 2 ^ 16) (fats % 2 ^ 16)
  same : dirs = 0 → s.dat s.card.curr_dir = s.card.dirblock

namespace CardStore
variable {s s' : CardStore} {i n m dirs fats : Nat} {e : CardDirentry}

theorem Written.dir_step (h : s.Written dirs fats) (hw : s.card.DirWritten s'.card i e)
    (hdat : s'.dat = Function.update s.dat s.card.curr_dir s'.card.dirblock) :
    CardCopies CardDat.valid CardDat.updated s'.dat s'.card.curr_dir s'.card.dirblock ((65535 + (dirs + 1)) % 2 ^ 16)
      (if dirs + 1 = 0 then 65535 else (65534 + (dirs + 1)) % 2 ^ 16) := by
  have hstep := h.dir.write hw.next.checks hw.next.updated
  rw [Nat.mod_add_mod] at hstep
  rw [hdat, hw.curr_dir, if_neg (Nat.succ_ne_zero dirs)]
  have hold : 65534 + (dirs + 1) = 65535 + dirs := by omega
  rw [hold]
  exact hstep

theorem Written.fat_step (h : s.Written dirs fats) (hsame : s.card.Same s'.card) (hw : s.card.FatWritten s'.card)
    (hbat : s'.bat = Function.update s.bat s.card.curr_fat s'.card.fatblock) :
    CardCopies (CardBat.valid s'.card.blocks) CardBat.updated s'.bat s'.card.curr_fat s'.card.fatblock ((1 + (fats + 1)) % 2 ^ 16)
      ((fats + 1) % 2 ^ 16) := by
  have hstep := h.fat.write ⟨hw.next.checks, hw.count⟩ hw.next.updated
  rw [Nat.mod_add_mod] at hstep
  rw [hsame.blocks, hbat, hw.curr_fat, Nat.add_comm fats 1, ← Nat.add_assoc 1 1 fats, Nat.add_right_comm]
  exact hstep

theorem Written.both (h : s.Written dirs fats) (hsame : s.card.Same s'.card) (hdir : s.card.DirWritten s'.card i e)
    (hdat : s'.dat = Function.update s.dat s.card.curr_dir s'.card.dirblock) (hfat : s.card.FatWritten s'.card)
    (hbat : s'.bat = Function.update s.bat s.card.curr_fat s'.card.fatblock) (horder : ∃ chains, CardInOrder s'.card chains) :
    s'.Written (dirs + 1) (fats + 1) where
  order := horder
  dir := h.dir_step hdir hdat
  fat := h.fat_step hsame hfat hbat
  same h0 := absurd h0 (Nat.succ_ne_zero dirs)

theorem Written.only_dir (h : s.Written dirs fats) (hchanged : CardChanged s.card s'.card i e)
    (hdat : s'.dat = Function.update s.dat s.card.curr_dir s'.card.dirblock) (hbat : s'.bat = s.bat) :
    s'.Written (dirs + 1) fats where
  order := by
    obtain ⟨chains, horder⟩ := h.order
    exact ⟨chains, hchanged.inOrder horder⟩
  dir := h.dir_step hchanged.dir hdat
  fat := by
    rw [hchanged.same.blocks, hchanged.fat.curr_fat, hchanged.fat.fatblock, hbat]
    exact h.fat
  same h0 := absurd h0 (Nat.succ_ne_zero dirs)

variable {d : CardDirs}

theorem written_dat (h : s.card.DirWritten d.card i e) : (s.written d).dat = Function.update s.dat s.card.curr_dir d.card.dirblock :=
  if_neg (h.curr_dir.trans_ne (cardCopy_rev_ne _))

theorem written_bat (h : s.card.FatWritten d.card) : (s.written d).bat = Function.update s.bat s.card.curr_fat d.card.fatblock :=
  if_neg (h.curr_fat.trans_ne (cardCopy_rev_ne _))

theorem Written.created {xs : List Nat} (h : s.Written dirs fats) (hc : CardCreated s.card d.card i e xs) :
    (s.written d).Written (dirs + 1) (fats + 1) := by
  obtain ⟨chains, horder⟩ := h.order
  exact h.both hc.same hc.dir (written_dat hc.dir) hc.fat (written_bat hc.fat) ⟨_, hc.inOrder horder⟩

theorem Written.deleted {chains : Nat → List Nat} (h : s.Written dirs fats) (horder : CardInOrder s.card chains)
    (hc : CardDeleted s.card d.card i (chains i)) : (s.written d).Written (dirs + 1) (fats + 1) :=
  h.both hc.same hc.dir (written_dat hc.dir) hc.fat (written_bat hc.fat) ⟨_, hc.inOrder horder⟩

theorem Written.changed (h : s.Written dirs fats) (hc : CardChanged s.card d.card i e) : (s.written d).Written (dirs + 1) fats :=
  h.only_dir hc (written_dat hc.dir) (if_pos hc.fat.curr_fat)

theorem Written.ids (h : s.Written dirs fats) (ids : CardIds) : (s.written { s.dirs with ids := ids }).Written dirs fats := by
  have hdat : (s.written { s.dirs with ids := ids }).dat = s.dat := if_pos rfl
  have hbat : (s.written { s.dirs with ids := ids }).bat = s.bat := if_pos rfl
  refine ⟨h.order, ?_, ?_, fun h0 => ?_⟩
  · rw [hdat]
    exact h.dir
  · rw [hbat]
    exact h.fat
  · rw [hdat]
    exact h.same h0

theorem Written.call (h : s.Written dirs fats) {c : CardStoreCall} (hc : c.Succeeds) (hr : 0 ≤ (s.call c).2) :
    (s.call c).1.Written (dirs + c.dirUpdates) (fats + c.fatUpdates) := by
  obtain ⟨chains, horder⟩ := h.order
  cases c with
  | dirs c =>
    cases c with
    | create file filename size now fat dir =>
      obtain ⟨i, e, xs, hcreated⟩ := cardCreate_created horder hc.2 hc.1 hr
      exact h.created hcreated
    | createEntry file direntry now fat dir =>
      obtain ⟨i, e, xs, hcreated⟩ := cardCreate_created horder hc.2 hc.1 hr
      exact h.created hcreated
    | delete filename dir fat =>
      obtain ⟨i, hdeleted⟩ := cardDelete_deleted horder hc.1 hc.2 hr
      exact h.deleted horder hdeleted
    | deleteEntry dir_entry dir fat =>
      obtain ⟨i, hdeleted⟩ := cardDelete_deleted horder hc.1 hc.2 hr
      exact h.deleted horder hdeleted
    | setAttributes fileno attr dir =>
      obtain ⟨i, e, hchanged⟩ := CARDSetAttributes_changed hc hr
      exact h.changed hchanged
    | setStatus fileno stats now dir =>
      obtain ⟨i, e, hchanged⟩ := CARDSetStatus_changed hc hr
      exact h.changed hchanged
    | setGamecode gamecode => exact h.ids _
    | setCompany company => exact h.ids _
  | write file buf len offset now o =>
    obtain ⟨i, e, hchanged⟩ := cardWrite_changed hc.2 hr
    exact h.only_dir hchanged (cardWrite_dirs hc.2 hr) rfl

end CardStore

/-- The directories that the calls of a run write. -/
def cardDirUpdates (cs : List CardStoreCall) : Nat := (cs.map CardStoreCall.dirUpdates).sum

def cardFatUpdates (cs : List CardStoreCall) : Nat := (cs.map CardStoreCall.fatUpdates).sum

variable {cs : List CardStoreCall} {blocks : Nat} {o : Nat → Int}

theorem CardStore.Written.run : ∀ {s : CardStore} {dirs fats : Nat}, s.Written dirs fats →
    cardStoreSystem.Legal s cs → (cardStoreSystem.run s cs).Written (dirs + cardDirUpdates cs) (fats + cardFatUpdates cs) := by
  induction cs with
  | nil => exact fun h _ => h
  | cons c cs ih =>
    intro s dirs fats h hl
    have hrest := ih (h.call hl.1.1 hl.1.2) hl.2
    rw [Nat.add_assoc, Nat.add_assoc] at hrest
    exact hrest

/-! ## Mounts -/

theorem cardFree_empty : cardFree blocks (fun _ => 0) = blocks - CARD_SYSAREA := by
  unfold cardFree cardDataBlocks
  rw [List.countP_eq_length.2 fun _ _ => by simp, List.length_range']

theorem cardFormatDir_valid : cardFormatDir.valid := by
  unfold cardFormatDir CardDat.valid
  generalize ({ entries := fun _ => cardNoEntry, pad := fun _ => 0xffff, updated := 0xffff, chksum1 := 0xffff, chksum2 := 0xffff } :
    CardDat) = d
  have hsealed := d.sealed
  dsimp only at hsealed ⊢
  exact hsealed

theorem cardFormatBat_valid (h8 : CARD_SYSAREA ≤ blocks) (hb : blocks < 2 ^ 16) (cnt : Fin 2) :
    (cardFormatBat blocks cnt).valid blocks := by
  constructor
  · unfold cardFormatBat
    generalize ({ chksum1 := 0, chksum2 := 0, updated := cnt, freeblocks := (blocks + 2 ^ 16 - CARD_SYSAREA) % 2 ^ 16, lastalloc := 4
                  fat := fun _ => 0 } : CardBat) = b
    have hsealed := b.sealed
    dsimp only at hsealed ⊢
    exact hsealed
  · have hfat : (cardFormatBat blocks cnt).fat = fun _ => 0 := rfl
    have hfree : (cardFormatBat blocks cnt).freeblocks = (blocks + 2 ^ 16 - CARD_SYSAREA) % 2 ^ 16 := rfl
    rw [hfat, hfree, cardFree_empty]
    unfold CARD_SYSAREA at h8 ⊢
    omega

theorem CardStore.format_written {s : CardStore} (h8 : CARD_SYSAREA ≤ s.card.blocks) (hb : s.card.blocks < 2 ^ 16)
    (h : 0 ≤ (s.format o).2) : (s.format o).1.Written 0 0 := by
  unfold format at h ⊢
  cases hgot : s.card.getcntrlblock with
  | error e =>
    rw [hgot] at h
    exact absurd h (Int.not_le.2 (CardBlock.getcntrlblock_neg hgot))
  | ok got =>
    obtain ⟨-, -, rfl⟩ := CardBlock.getcntrlblock_keeps hgot
    rw [hgot] at h
    dsimp only at h ⊢
    cases hfind : (List.range 10).find? fun step => decide (o step < 0) with
    | some step =>
      rw [hfind] at h
      have hneg := List.find?_some hfind
      exact absurd h (Int.not_le.2 (of_decide_eq_true hneg))
    | none =>
      obtain ⟨result, hput⟩ :=
        (CardBlock.formatregion { s.card with result := CARD_ERROR_BUSY }).formatted.putcntrlblock_eq (o 9)
      dsimp only
      rw [hput]
      have hvalid := cardFormatBat_valid h8 hb
      refine ⟨⟨fun _ => [], hb, ⟨?_, ?_, ?_, ?_⟩, (hvalid 1).2⟩, ⟨rfl, fun _ => cardFormatDir_valid, rfl, rfl⟩, ⟨rfl, hvalid, rfl, rfl⟩, fun _ => rfl⟩
      · exact fun i _ hlive => absurd hlive cardNoEntry_not_live
      · exact fun i _ hlive => absurd hlive cardNoEntry_not_live
      · exact fun i _ hlive => absurd hlive cardNoEntry_not_live
      · exact fun i _ j _ _ hlive => absurd hlive cardNoEntry_not_live

/-- A mount takes the current contents exactly if the numbers have not just begun again. -/
theorem CardStore.Written.durable_iff {s : CardStore} {dirs fats : Nat} (h : s.Written dirs fats) :
    s.Durable ↔ dirs % 2 ^ 16 ≠ 1 ∧ fats % 2 ^ 16 ≠ 65535 := by
  obtain ⟨chains, horder⟩ := h.order
  have hbat := CardBat.checks_iff horder.blocks
  have hdir : s.dat (cardStale CardDat.checks CardDat.updated s.dat).rev = s.card.dirblock ↔ dirs % 2 ^ 16 ≠ 1 := by
    by_cases h0 : dirs = 0
    · -- the copies are those of the format
      refine iff_of_true ?_ (by omega)
      have hall : ∀ i, s.dat i = s.card.dirblock := by
        intro i
        by_cases hi : i = s.card.curr_dir
        · rw [hi]
          exact h.same h0
        · rw [← h.dir.newest]
          exact congrArg s.dat (cardCopy_of_ne hi)
      exact hall _
    · have hcopies := h.dir
      rw [if_neg h0] at hcopies
      rw [hcopies.selected CardDat.checks_iff (by omega)]
      omega
  have hfat : s.bat (cardStale (CardBat.checks s.card.blocks) CardBat.updated s.bat).rev = s.card.fatblock ↔ fats % 2 ^ 16 ≠ 65535 := by
    rw [h.fat.selected hbat (by omega)]
    omega
  rw [← hdir, ← hfat]
  unfold Durable
  have hverify := cardVerify_none ⟨s.card.blocks, horder.blocks, s.dat, s.bat, none, none⟩ rfl rfl rfl rfl
  dsimp only at hverify
  rw [cardBadCopies_none CardDat.checks_iff h.dir, cardBadCopies_none hbat h.fat] at hverify
  rw [exists_prop_of_true horder.blocks, hverify]
  dsimp only
  constructor
  · rintro ⟨-, dir, fat, hd, hf, hdat, htab⟩
    rw [← Option.some.inj hd, Function.update_self] at hdat
    rw [← Option.some.inj hf, Function.update_self] at htab
    exact ⟨hdat, htab⟩
  · rintro ⟨hdat, htab⟩
    refine ⟨rfl, _, _, rfl, rfl, ?_, ?_⟩
    · rw [Function.update_self]
      exact hdat
    · rw [Function.update_self]
      exact htab

theorem CardStore.run_written {s : CardStore} (h8 : 8 < s.card.blocks) (hb : s.card.blocks < 2 ^ 16) (hformat : 0 ≤ (s.format o).2)
    (hl : cardStoreSystem.Legal (s.format o).1 cs) :
    (cardStoreSystem.run (s.format o).1 cs).Written (cardDirUpdates cs) (cardFatUpdates cs) := by
  have h5 : CARD_SYSAREA ≤ s.card.blocks := by
    unfold CARD_SYSAREA
    omega
  have hrun := (CardStore.format_written h5 hb hformat).run hl
  rw [Nat.zero_add, Nat.zero_add] at hrun
  exact hrun

/-- **A mount takes what was written last.**  Behind a format and calls that succeed it selects what the driver has as current, exactly if the
number of the last directory was not the first one again, and that of the last table neither. -/
theorem card_durable {s : CardStore} {o : Nat → Int} {cs : List CardStoreCall} (h8 : 8 < s.card.blocks) (hb : s.card.blocks < 2 ^ 16)
    (hformat : 0 ≤ (s.format o).2) (hl : cardStoreSystem.Legal (s.format o).1 cs) :
    (cardStoreSystem.run (s.format o).1 cs).Durable ↔ cardDirUpdates cs % 2 ^ 16 ≠ 1 ∧ cardFatUpdates cs % 2 ^ 16 ≠ 65535 :=
  (CardStore.run_written h8 hb hformat hl).durable_iff

/-- A card of 64 blocks. -/
def cardStore0 : CardStore where
  dirs := cardDirs0
  flash := fun _ => 0
  dat := fun _ => default
  bat := fun _ => cardDirs0.card.fatblock

/-- A file of one block. -/
def cardStoreCreate (byte : Nat) : CardStoreCall := .dirs (.create cardFile0 [byte] 8192 0 ⟨0, 0⟩ ⟨0, 0⟩)

theorem card_durable_two : (cardStoreSystem.run (cardStore0.format fun _ => 0).1 [cardStoreCreate 0x41, cardStoreCreate 0x42]).Durable := by
  have hl : cardStoreSystem.Legal (cardStore0.format fun _ => 0).1 [cardStoreCreate 0x41, cardStoreCreate 0x42] :=
    ⟨⟨⟨by decide, by decide⟩, by decide +kernel⟩, ⟨⟨by decide, by decide⟩, by decide +kernel⟩, trivial⟩
  exact (card_durable (by decide) (by decide) (by decide) hl).2 ⟨by decide, by decide⟩

/-- The first file of a card that was formatted is gone behind a mount. -/
theorem card_durable_first : ¬ ∀ (s : CardStore) (o : Nat → Int) (cs : List CardStoreCall), 8 < s.card.blocks → s.card.blocks < 2 ^ 16 →
    0 ≤ (s.format o).2 → cardStoreSystem.Legal (s.format o).1 cs → (cardStoreSystem.run (s.format o).1 cs).Durable := by
  intro h
  have hl : cardStoreSystem.Legal (cardStore0.format fun _ => 0).1 [cardStoreCreate 0x41] :=
    ⟨⟨⟨by decide, by decide⟩, by decide +kernel⟩, trivial⟩
  have hwritten := CardStore.run_written (by decide) (by decide) (by decide) hl
  exact absurd rfl (hwritten.durable_iff.1 (h cardStore0 (fun _ => 0) _ (by decide) (by decide) (by decide) hl)).1

end Libogc
