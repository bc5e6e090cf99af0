import Libogc.Card.Durable
/-!
# Power — cards that lose their power

A creation writes the table and then the directory, a deletion the directory and then the table, and each writes the copy that is not the
current one.  So wherever power is lost in a call, a mount finds the contents from before the call or those from behind it of each kind, and
of the four pairs only the three whose chains are in order (`card_power_loss`).  That is so of a card whose current contents had their checksums
when it was mounted; a mount also takes two bad copies of a kind.
-/
namespace Libogc

open Runs

/-- A sector of the system area, and what is written to it. -/
inductive CardSectorWrite
  | dir (copy : Fin 2) (d : CardDat)
  | fat (copy : Fin 2) (b : CardBat)

/-- A sector whose writing was interrupted has other contents. -/
def CardSectorWrite.torn : CardSectorWrite → CardDat × CardBat → CardSectorWrite
  | dir copy _, t => dir copy t.1
  | fat copy _, t => fat copy t.2

/-- Where power is lost in a call: some sectors are written, and the next one may be begun. -/
structure CardPowerLoss where
  written : Nat
  torn : Option (CardDat × CardBat)

/-- The calls that make and delete files. -/
def CardDirCall.OfFiles : CardDirCall → Prop
  | create .. | createEntry .. | delete .. | deleteEntry .. => True
  | setAttributes .. | setStatus .. | setGamecode _ | setCompany _ => False

namespace CardStore

def program (s : CardStore) : CardSectorWrite → CardStore
  | .dir copy d => { s with dat := Function.update s.dat copy d }
  | .fat copy b => { s with bat := Function.update s.bat copy b }

/-- The sectors that a call writes, in order: `__card_createfatcallback` runs behind the update of the table, and `__delete_callback` behind
that of the directory. -/
def writes (s : CardStore) (c : CardDirCall) : List CardSectorWrite :=
  let r := s.dirs.call c
  let dir : CardSectorWrite := .dir s.card.curr_dir r.1.card.dirblock
  let fat : CardSectorWrite := .fat s.card.curr_fat r.1.card.fatblock
  if r.2 < 0 then []
  else
    match c with
    | .create .. | .createEntry .. => [fat, dir]
    | .delete .. | .deleteEntry .. => [dir, fat]
    | .setAttributes .. | .setStatus .. => [dir]
    | .setGamecode _ | .setCompany _ => []

/-- The sectors when power is lost in a call. -/
def powerLost (s : CardStore) (c : CardDirCall) (p : CardPowerLoss) : CardStore :=
  let s' := ((s.writes c).take p.written).foldl program s
  match p.torn, (s.writes c)[p.written]? with
  | some t, some w => s'.program (w.torn t)
  | _, _ => s'

/-- `__card_verify` of the sectors, with nothing selected before -/
def mount (s : CardStore) (hb : s.card.blocks < 2 ^ 16) : CardWork × Int := cardVerify ⟨s.card.blocks, hb, s.dat, s.bat, none, none⟩

/-- The driver has of the card what a mount gives. -/
structure Mounted (s : CardStore) : Prop where
  blocks : s.card.blocks < 2 ^ 16
  mount : s.mount blocks =
    (⟨s.card.blocks, blocks, s.card.dat, s.card.bat, some s.card.curr_dir, some s.card.curr_fat⟩, CARD_ERROR_READY)

/-- **What a mount has to find** when power was lost in a call: the directory and the table from before or from behind it, with chains that are
in order. -/
def Survives (s : CardStore) (c : CardDirCall) (p : CardPowerLoss) : Prop :=
  ∃ hb : (s.powerLost c p).card.blocks < 2 ^ 16,
    let r := (s.powerLost c p).mount hb
    let after := (s.dirs.call c).1.card
    r.2 = CARD_ERROR_READY ∧ ∃ dir fat chains, r.1.curr_dir = some dir ∧ r.1.curr_fat = some fat ∧
      (r.1.dat dir = s.card.dirblock ∨ r.1.dat dir = after.dirblock) ∧ (r.1.bat fat = s.card.fatblock ∨ r.1.bat fat = after.fatblock) ∧
        CardChains s.card.blocks (r.1.dat dir).entries (r.1.bat fat).fat chains

end CardStore

/-- The number of what is written does not begin again. -/
def CardSectorWrite.Follows (s : CardStore) : CardSectorWrite → Prop
  | dir _ d => s.card.dirblock.updated ≤ d.updated
  | fat _ b => s.card.fatblock.updated ≤ b.updated

/-- A sector that was begun and not written has no checksum that is right. -/
def CardPowerLoss.Fails (p : CardPowerLoss) (blocks : Nat) : Prop := ∀ t ∈ p.torn, ¬ t.1.valid ∧ ¬ t.2.valid blocks

/-- Files are made and deleted, with power, and with numbers that do not begin again. -/
def cardPowerSystem : System CardStore CardDirCall where
  enabled s c := (c.OfFiles ∧ c.Succeeds) ∧ ∀ w ∈ s.writes c, w.Follows s
  next s c := (s.call (.dirs c)).1

/-! ## The copies of a kind -/

/-- The contents that are current are on the card, and a mount would select them. -/
structure CardCurrent {α : Type} (good : α → Bool) (updated : α → Nat) (copies : Fin 2 → α) (curr : Fin 2) (a : α) : Prop where
  newest : copies curr.rev = a
  right : good a = true
  stale : cardStale good updated copies = curr

section Copies
variable {α : Type} {good : α → Bool} {updated : α → Nat} {copies : Fin 2 → α} {curr : Fin 2} {a a' t : α}

theorem CardCurrent.tear (h : CardCurrent good updated copies curr a) (ht : good t = false) :
    CardCurrent good updated (Function.update copies curr t) curr a where
  newest := by
    rw [Function.update_of_ne (cardCopy_rev_ne curr)]
    exact h.newest
  right := h.right
  stale := by
    have hnewest := h.newest
    have hgood := h.right
    unfold cardStale
    match curr with
    | 0 =>
      have h1 : good (Function.update copies 0 t 1) = true := by
        rw [← hgood, ← hnewest]
        rfl
      rw [if_pos h1, Function.update_self, ht]
      rfl
    | 1 =>
      rw [Function.update_self, ht]
      rfl

theorem CardCurrent.write (h : CardCurrent good updated copies curr a) (ha : good a' = true) (hlt : updated a < updated a') :
    CardCurrent good updated (Function.update copies curr a') curr.rev a' where
  newest := by
    rw [Fin.rev_rev]
    exact Function.update_self ..
  right := ha
  stale := by
    have hnewest := h.newest
    have hgood := h.right
    unfold cardStale
    match curr with
    | 0 =>
      have h1 : Function.update copies 0 a' 1 = a := hnewest
      rw [h1, Function.update_self, if_pos hgood, if_pos ha, if_neg (Nat.lt_asymm hlt)]
      rfl
    | 1 =>
      have h0 : Function.update copies 1 a' 0 = a := hnewest
      rw [h0, Function.update_self, if_pos ha, if_pos hgood, if_pos hlt]
      rfl

theorem CardCurrent.bad_le (h : CardCurrent good updated copies curr a) : cardBadCopies good copies ≤ 1 := by
  have hgood : good (copies curr.rev) = true := by
    rw [h.newest]
    exact h.right
  rw [cardBadCopies_eq]
  match curr with
  | 0 =>
    rw [if_pos (show good (copies 1) = true from hgood)]
    split
    · exact Nat.zero_le 1
    · exact Nat.le_refl 1
  | 1 =>
    rw [if_pos (show good (copies 0) = true from hgood)]
    split
    · exact Nat.zero_le 1
    · exact Nat.le_refl 1

end Copies

/-! ## Calls -/

section Calls
variable {card : CardBlock} {chains : Nat → List Nat} {codes ids : CardIds} {file : CardFile} {toolong : Bool} {filename : Fin 32 → Nat}
  {size now : Nat} {fat dir : CardUpdate}

/-- A creation for which there is room writes the table, and comes to the update of the directory. -/
theorem cardCreateEnd_eq (hcard : CardInOrder card chains) (hatt : card.attached = true) (hfat : fat.Succeeds)
    (hpos : 0 < size / card.sector_size) (hroom : size / card.sector_size ≤ card.fatblock.freeblocks) :
    ∃ (written : CardBlock) (e : CardDirentry), written.attached = true ∧ written.curr_fat = card.curr_fat.rev ∧
      written.curr_dir = card.curr_dir ∧ (
        let u := (written.setEntry file.filenum.toNat e).updatesDir dir
        (cardCreateEnd ids card file filename size now fat dir).1 = u.1.putcntrlblock u.2 ∧
          (cardCreateEnd ids card file filename size now fat dir).2.2 = u.2) := by
  unfold cardCreateEnd
  dsimp only
  generalize hentry : ({ card.dirblock.entries file.filenum.toNat with
    length := size / card.sector_size % 2 ^ 16, filename := cardPadName filename } : CardDirentry) = entry
  have hcardroom : CardRoom (card.setEntry file.filenum.toNat entry) (size / card.sector_size) :=
    ⟨hatt, hcard.blocks, hcard.count, hpos, hroom⟩
  obtain ⟨hresult, -⟩ := card_alloc_free hcardroom fat.start 0
  obtain ⟨-, -, htable⟩ := cardAllocblock_table (hresult.symm ▸ hfat.1)
  generalize cardAllocblock (card.setEntry file.filenum.toNat entry) (size / card.sector_size) fat.start = r at hresult htable ⊢
  rw [hresult, if_neg (Int.not_lt.2 hfat.1), if_pos hfat.2]
  exact ⟨r.1.fatwritten, _, htable.same.attached.trans hatt, congrArg Fin.rev htable.curr_fat, htable.dir.curr_dir, rfl, rfl⟩

theorem cardCreateEnd_result (hcard : CardInOrder card chains) (hatt : card.attached = true) (hfat : fat.Succeeds) (hdir : dir.Succeeds)
    (hpos : 0 < size / card.sector_size) (hroom : size / card.sector_size ≤ card.fatblock.freeblocks) :
    (cardCreateEnd ids card file filename size now fat dir).2.2 = dir.result := by
  obtain ⟨written, e, hattached, -, -, -, hresult⟩ := cardCreateEnd_eq hcard hatt hfat hpos hroom
  have hattset : (written.setEntry file.filenum.toNat e).attached = true := hattached
  rw [hresult, CardBlock.updatesDir_written hattset hdir]

/-- **A creation writes the table first**: it has, where the update of the directory is not begun. -/
theorem cardCreateEnd_first (hcard : CardInOrder card chains) (hatt : card.attached = true) (hfat : fat.Succeeds) (hdir : dir.start < 0)
    (hpos : 0 < size / card.sector_size) (hroom : size / card.sector_size ≤ card.fatblock.freeblocks) :
    (cardCreateEnd ids card file filename size now fat dir).1.curr_fat = card.curr_fat.rev ∧
      (cardCreateEnd ids card file filename size now fat dir).1.curr_dir = card.curr_dir := by
  obtain ⟨written, e, hattached, hcurrfat, hcurrdir, heq, -⟩ := cardCreateEnd_eq hcard hatt hfat hpos hroom
  have hattset : ¬ (!(written.setEntry file.filenum.toNat e).attached) = true := by
    show ¬ (!written.attached) = true
    rw [hattached]
    decide
  have hupdate : (written.setEntry file.filenum.toNat e).updatesDir dir = ((written.setEntry file.filenum.toNat e).updatedir, dir.start) := by
    unfold CardBlock.updatesDir
    rw [if_neg hattset, if_pos hdir]
  rw [heq, hupdate]
  obtain ⟨result, hput⟩ := (written.setEntry file.filenum.toNat e).updatedir.putcntrlblock_eq dir.start
  rw [hput]
  exact ⟨hcurrfat, hcurrdir⟩

/-- **A deletion writes the directory first**: the table is left alone where that fails. -/
theorem cardDelete_first (hdir : dir.start < 0 ∨ dir.result < 0) :
    (cardDelete codes card filename dir fat).1.curr_fat = card.curr_fat ∧ (cardDelete codes card filename dir fat).1.bat = card.bat := by
  unfold cardDelete
  cases hgot : card.getcntrlblock with
  | error e => exact ⟨rfl, rfl⟩
  | ok got =>
    obtain ⟨-, hatt, rfl⟩ := CardBlock.getcntrlblock_keeps hgot
    dsimp only
    cases hfile : cardGetfilenum { card with result := CARD_ERROR_BUSY } filename codes with
    | error e =>
      obtain ⟨result, hput⟩ := CardBlock.putcntrlblock_eq { card with result := CARD_ERROR_BUSY } e
      dsimp only
      rw [hput]
      exact ⟨rfl, rfl⟩
    | ok i =>
      dsimp only
      generalize hset : CardBlock.setEntry _ i cardNoEntry = set
      have hkept : set.attached = true ∧ set.curr_fat = card.curr_fat ∧ set.bat = card.bat := by
        rw [← hset]
        exact ⟨hatt, rfl, rfl⟩
      have hupdate : (set.updatesDir dir).2 < 0 ∧ (set.updatesDir dir).1 = set.updatedir := by
        unfold CardBlock.updatesDir
        rw [if_neg (by rw [hkept.1]; decide)]
        by_cases hstart : dir.start < 0
        · rw [if_pos hstart]
          exact ⟨hstart, rfl⟩
        · have hresult := hdir.resolve_left hstart
          rw [if_neg hstart, if_neg (Int.not_le.2 hresult)]
          exact ⟨hresult, rfl⟩
      rw [if_pos hupdate.1, hupdate.2]
      obtain ⟨result, hput⟩ := set.updatedir.putcntrlblock_eq (set.updatesDir dir).2
      dsimp only
      rw [hput]
      exact hkept.2

theorem cardCreate_refused (hcard : CardInOrder card chains) (hfat : fat.Succeeds) (hdir : dir.Succeeds)
    (h : (cardCreate codes ids card file toolong filename size now fat dir).2.2 < 0) :
    ∃ result, (cardCreate codes ids card file toolong filename size now fat dir).1 = { card with result := result } := by
  unfold cardCreate at h ⊢
  split
  · exact ⟨card.result, rfl⟩
  next hlong =>
    rw [if_neg hlong] at h
    cases hgot : card.getcntrlblock with
    | error e => exact ⟨card.result, rfl⟩
    | ok got =>
      obtain ⟨-, hatt, rfl⟩ := CardBlock.getcntrlblock_keeps hgot
      rw [hgot] at h
      have hput := CardBlock.putcntrlblock_eq { card with result := CARD_ERROR_BUSY }
      dsimp only at h ⊢
      split
      · exact ⟨CARD_ERROR_BUSY, rfl⟩
      next hsize =>
        rw [if_neg hsize] at h
        cases hloop : cardCreateLoop (CardBlock.dirblock { card with result := CARD_ERROR_BUSY }) filename codes (List.range CARD_MAXFILES) (-1) with
        | error e => exact hput e
        | ok n =>
          rw [hloop] at h
          dsimp only at h ⊢
          split
          · exact hput CARD_ERROR_NOENT
          next hnone =>
            rw [if_neg hnone] at h
            split
            · exact hput CARD_ERROR_INSSPACE
            next hspace =>
              -- there is room
              rw [if_neg hspace] at h
              have hgotten : CardInOrder { card with result := CARD_ERROR_BUSY } chains := ⟨hcard.blocks, hcard.chains, hcard.count⟩
              obtain ⟨h0, hmod⟩ := not_or.1 hsize
              have hdvd := Nat.dvd_of_mod_eq_zero (not_not.1 hmod)
              have hpos : 0 < card.sector_size := Nat.pos_of_ne_zero fun hss => h0 (Nat.eq_zero_of_zero_dvd (hss ▸ hdvd))
              have hle : size ≤ card.fatblock.freeblocks * card.sector_size := Nat.le_trans (Nat.not_lt.1 hspace) (Nat.mod_le ..)
              have hend := @cardCreateEnd_result { card with result := CARD_ERROR_BUSY } chains ids { file with filenum := n } filename size now
                fat dir hgotten hatt hfat hdir (Nat.div_pos (Nat.le_of_dvd (Nat.pos_of_ne_zero h0) hdvd) hpos)
                (Nat.div_le_of_le_mul (Nat.mul_comm .. ▸ hle))
              rw [hend] at h
              exact absurd hdir.2 (Int.not_le.2 h)

theorem cardDelete_refused (hcard : CardInOrder card chains) (hdir : dir.Succeeds) (hfat : fat.Succeeds)
    (h : (cardDelete codes card filename dir fat).2 < 0) :
    ∃ result, (cardDelete codes card filename dir fat).1 = { card with result := result } := by
  unfold cardDelete at h ⊢
  cases hgot : card.getcntrlblock with
  | error e => exact ⟨card.result, rfl⟩
  | ok got =>
    obtain ⟨-, hatt, rfl⟩ := CardBlock.getcntrlblock_keeps hgot
    rw [hgot] at h
    dsimp only at h ⊢
    cases hfile : cardGetfilenum { card with result := CARD_ERROR_BUSY } filename codes with
    | error e => exact CardBlock.putcntrlblock_eq { card with result := CARD_ERROR_BUSY } e
    | ok i =>
      rw [hfile] at h
      obtain ⟨hi, hlive⟩ := cardGetfilenum_ok hfile
      have hgotten : CardInOrder { card with result := CARD_ERROR_BUSY } chains := ⟨hcard.blocks, hcard.chains, hcard.count⟩
      have hresult := (cardDeleteFat_deleted hgotten hatt hdir hfat hi hlive).2
      dsimp only at h hresult
      rw [hresult] at h
      exact absurd hfat.2 (Int.not_le.2 h)

end Calls

/-- What a call does to a card in order: nothing, or a creation that writes the table first, or a deletion that writes the directory first. -/
theorem CardStore.call_cases {s : CardStore} {c : CardDirCall} {chains : Nat → List Nat} (hcard : CardInOrder s.card chains)
    (hof : c.OfFiles) (hc : c.Succeeds) : (s.writes c = [] ∧ ∃ result, (s.dirs.call c).1.card = { s.card with result := result }) ∨
    (s.writes c = [.fat s.card.curr_fat (s.dirs.call c).1.card.fatblock, .dir s.card.curr_dir (s.dirs.call c).1.card.dirblock] ∧
      ∃ i e xs, CardCreated s.card (s.dirs.call c).1.card i e xs) ∨
    (s.writes c = [.dir s.card.curr_dir (s.dirs.call c).1.card.dirblock, .fat s.card.curr_fat (s.dirs.call c).1.card.fatblock] ∧
      ∃ i, CardDeleted s.card (s.dirs.call c).1.card i (chains i)) := by
  unfold CardStore.writes
  dsimp only
  cases c with
  | create file filename size now fat dir =>
    by_cases hr : (s.dirs.call (.create file filename size now fat dir)).2 < 0
    · exact .inl ⟨if_pos hr, cardCreate_refused hcard hc.2 hc.1 hr⟩
    · exact .inr (.inl ⟨if_neg hr, cardCreate_created hcard hc.2 hc.1 (Int.not_lt.1 hr)⟩)
  | createEntry file direntry now fat dir =>
    by_cases hr : (s.dirs.call (.createEntry file direntry now fat dir)).2 < 0
    · exact .inl ⟨if_pos hr, cardCreate_refused hcard hc.2 hc.1 hr⟩
    · exact .inr (.inl ⟨if_neg hr, cardCreate_created hcard hc.2 hc.1 (Int.not_lt.1 hr)⟩)
  | delete filename dir fat =>
    by_cases hr : (s.dirs.call (.delete filename dir fat)).2 < 0
    · exact .inl ⟨if_pos hr, cardDelete_refused hcard hc.1 hc.2 hr⟩
    · exact .inr (.inr ⟨if_neg hr, cardDelete_deleted hcard hc.1 hc.2 (Int.not_lt.1 hr)⟩)
  | deleteEntry dir_entry dir fat =>
    by_cases hr : (s.dirs.call (.deleteEntry dir_entry dir fat)).2 < 0
    · exact .inl ⟨if_pos hr, cardDelete_refused hcard hc.1 hc.2 hr⟩
    · exact .inr (.inr ⟨if_neg hr, cardDelete_deleted hcard hc.1 hc.2 (Int.not_lt.1 hr)⟩)
  | setAttributes fileno attr dir => exact hof.elim
  | setStatus fileno stats now dir => exact hof.elim
  | setGamecode gamecode => exact hof.elim
  | setCompany company => exact hof.elim

/-! ## Runs -/

/-- A card in order, whose current contents are on it where a mount selects them. -/
structure CardStore.Steady (s : CardStore) : Prop where
  order : ∃ chains, CardInOrder s.card chains
  dir : CardCurrent CardDat.checks CardDat.updated s.dat s.card.curr_dir s.card.dirblock
  fat : CardCurrent (CardBat.checks s.card.blocks) CardBat.updated s.bat s.card.curr_fat s.card.fatblock

theorem CardDat.Next.lt {d d' : CardDat} (h : d.Next d') (hle : d.updated ≤ d'.updated) : d.updated < d'.updated := by
  have hupdated := h.updated
  omega

theorem CardBat.Next.lt {b b' : CardBat} (h : b.Next b') (hle : b.updated ≤ b'.updated) : b.updated < b'.updated := by
  have hupdated := h.updated
  omega

namespace CardStore
variable {s : CardStore} {card' : CardBlock} {i : Nat} {e : CardDirentry} {c : CardDirCall} {p : CardPowerLoss}

theorem Steady.blocks (h : s.Steady) : s.card.blocks < 2 ^ 16 := by
  obtain ⟨chains, horder⟩ := h.order
  exact horder.blocks

theorem Steady.write_dir (h : s.Steady) (hw : s.card.DirWritten card' i e) (hle : s.card.dirblock.updated ≤ card'.dirblock.updated) :
    CardCurrent CardDat.checks CardDat.updated (Function.update s.dat s.card.curr_dir card'.dirblock) card'.curr_dir card'.dirblock := by
  rw [hw.curr_dir]
  exact h.dir.write ((CardDat.checks_iff _).2 hw.next.checks) (hw.next.lt hle)

theorem Steady.write_fat (h : s.Steady) (hw : s.card.FatWritten card') (hle : s.card.fatblock.updated ≤ card'.fatblock.updated) :
    CardCurrent (CardBat.checks s.card.blocks) CardBat.updated (Function.update s.bat s.card.curr_fat card'.fatblock) card'.curr_fat
      card'.fatblock := by
  rw [hw.curr_fat]
  exact h.fat.write ((CardBat.checks_iff h.blocks _).2 ⟨hw.next.checks, hw.count⟩) (hw.next.lt hle)

theorem Steady.call (h : s.Steady) (hof : c.OfFiles) (hc : c.Succeeds) (hn : ∀ w ∈ s.writes c, w.Follows s) :
    (s.call (.dirs c)).1.Steady := by
  obtain ⟨chains, horder⟩ := h.order
  show (s.written (s.dirs.call c).1).Steady
  rcases call_cases horder hof hc with ⟨-, result, heq⟩ | ⟨hwrites, i, e, xs, hcreated⟩ | ⟨hwrites, i, hdeleted⟩
  · have hdir : (s.dirs.call c).1.card.curr_dir = s.card.curr_dir := by rw [heq]
    have hfat : (s.dirs.call c).1.card.curr_fat = s.card.curr_fat := by rw [heq]
    have hdat : (s.written (s.dirs.call c).1).dat = s.dat := if_pos hdir
    have hbat : (s.written (s.dirs.call c).1).bat = s.bat := if_pos hfat
    have hcard : (s.written (s.dirs.call c).1).card = { s.card with result := result } := heq
    refine ⟨⟨chains, ?_⟩, ?_, ?_⟩
    · rw [hcard]
      exact ⟨horder.blocks, horder.chains, horder.count⟩
    · rw [hdat, hcard]
      exact h.dir
    · rw [hbat, hcard]
      exact h.fat
  · rw [hwrites] at hn
    refine ⟨⟨_, hcreated.inOrder horder⟩, ?_, ?_⟩
    · rw [written_dat hcreated.dir]
      exact h.write_dir hcreated.dir (hn (.dir _ _) (List.mem_cons_of_mem _ List.mem_cons_self))
    · rw [written_bat hcreated.fat, show (s.written (s.dirs.call c).1).card.blocks = s.card.blocks from hcreated.same.blocks]
      exact h.write_fat hcreated.fat (hn (.fat _ _) List.mem_cons_self)
  · rw [hwrites] at hn
    refine ⟨⟨_, hdeleted.inOrder horder⟩, ?_, ?_⟩
    · rw [written_dat hdeleted.dir]
      exact h.write_dir hdeleted.dir (hn (.dir _ _) List.mem_cons_self)
    · rw [written_bat hdeleted.fat, show (s.written (s.dirs.call c).1).card.blocks = s.card.blocks from hdeleted.same.blocks]
      exact h.write_fat hdeleted.fat (hn (.fat _ _) (List.mem_cons_of_mem _ List.mem_cons_self))

theorem Steady.run {cs : List CardDirCall} (h : s.Steady) (hl : cardPowerSystem.Legal s cs) : (cardPowerSystem.run s cs).Steady := by
  have hstep : ∀ (s : CardStore) (c : CardDirCall), s.Steady → cardPowerSystem.enabled s c → (cardPowerSystem.next s c).Steady :=
    fun s c hs he => hs.call he.1.1 he.1.2 he.2
  exact System.Legal.invariant hstep h hl

/-! ## Mounts -/

theorem mount_current {cd cf : Fin 2} {d : CardDat} {b : CardBat} (hb : s.card.blocks < 2 ^ 16)
    (hd : CardCurrent CardDat.checks CardDat.updated s.dat cd d) (hf : CardCurrent (CardBat.checks s.card.blocks) CardBat.updated s.bat cf b) :
    s.mount hb = (⟨s.card.blocks, hb, Function.update s.dat cd d, Function.update s.bat cf b, some cd, some cf⟩, CARD_ERROR_READY) := by
  have hbad := Nat.add_le_add hd.bad_le hf.bad_le
  have hverify := cardVerify_none ⟨s.card.blocks, hb, s.dat, s.bat, none, none⟩ rfl rfl hd.stale hf.stale
  dsimp only at hverify
  rw [hd.newest, hf.newest, cardVerdict_ready.2 hbad] at hverify
  exact hverify

theorem Mounted.steady {chains : Nat → List Nat} (h : s.Mounted) (hd : s.card.dirblock.valid) (hf : s.card.fatblock.valid s.card.blocks)
    (hchains : CardChains s.card.blocks s.card.dirblock.entries s.card.fatblock.fat chains) : s.Steady := by
  have hverify := cardVerify_none ⟨s.card.blocks, h.blocks, s.dat, s.bat, none, none⟩ rfl rfl rfl rfl
  have hmount := h.mount
  dsimp only at hverify
  unfold CardStore.mount at hmount
  rw [hmount] at hverify
  have hwork := congrArg Prod.fst hverify
  dsimp only at hwork
  injection hwork with _ hdat hbat hdir hfat
  rw [Option.some.injEq] at hdir hfat
  refine ⟨⟨chains, h.blocks, hchains, hf.2⟩, ⟨?_, (CardDat.checks_iff _).2 hd, hdir.symm⟩, ⟨?_, (CardBat.checks_iff h.blocks _).2 hf, hfat.symm⟩⟩
  · unfold CardBlock.dirblock
    rw [hdat, hdir, Function.update_self]
  · unfold CardBlock.fatblock
    rw [hbat, hfat, Function.update_self]

theorem Survives.of_current {dat : Fin 2 → CardDat} {bat : Fin 2 → CardBat} {cd cf : Fin 2} {d : CardDat} {b : CardBat}
    {chains : Nat → List Nat} (hlost : s.powerLost c p = { s with dat := dat, bat := bat }) (hb : s.card.blocks < 2 ^ 16)
    (hd : CardCurrent CardDat.checks CardDat.updated dat cd d) (hf : CardCurrent (CardBat.checks s.card.blocks) CardBat.updated bat cf b)
    (hdir : d = s.card.dirblock ∨ d = (s.dirs.call c).1.card.dirblock) (hfat : b = s.card.fatblock ∨ b = (s.dirs.call c).1.card.fatblock)
    (hchains : CardChains s.card.blocks d.entries b.fat chains) : s.Survives c p := by
  unfold Survives
  rw [hlost]
  have hmount := @mount_current { s with dat := dat, bat := bat } cd cf d b hb hd hf
  refine ⟨hb, ?_⟩
  rw [hmount]
  dsimp only
  refine ⟨rfl, cd, cf, chains, rfl, rfl, ?_, ?_, ?_⟩
  · rw [Function.update_self]
    exact hdir
  · rw [Function.update_self]
    exact hfat
  · rw [Function.update_self, Function.update_self]
    exact hchains

theorem powerLost_cases {w w' : CardSectorWrite} (h : s.writes c = [w, w']) :
    s.powerLost c p = s ∨ (∃ t ∈ p.torn, s.powerLost c p = s.program (w.torn t)) ∨
      (w ∈ (s.writes c).take p.written ∧ (s.powerLost c p = s.program w ∨ (∃ t ∈ p.torn, s.powerLost c p = (s.program w).program (w'.torn t)) ∨
        (w' ∈ (s.writes c).take p.written ∧ s.powerLost c p = (s.program w).program w'))) := by
  obtain ⟨written, torn⟩ := p
  unfold powerLost
  rw [h]
  cases written with
  | zero =>
    cases torn with
    | none => exact .inl rfl
    | some t => exact .inr (.inl ⟨t, rfl, rfl⟩)
  | succ n =>
    refine .inr (.inr ⟨List.mem_cons_self, ?_⟩)
    cases n with
    | zero =>
      cases torn with
      | none => exact .inl rfl
      | some t => exact .inr (.inl ⟨t, rfl, rfl⟩)
    | succ n =>
      refine .inr (.inr ⟨List.mem_cons_of_mem _ List.mem_cons_self, ?_⟩)
      cases torn <;> simp

theorem Steady.survives (h : s.Steady) (hof : c.OfFiles) (hc : c.Succeeds) (hp : p.Fails s.card.blocks)
    (hn : ∀ w ∈ (s.writes c).take p.written, w.Follows s) : s.Survives c p := by
  obtain ⟨chains, horder⟩ := h.order
  have htear : ∀ t ∈ p.torn, CardDat.checks t.1 = false ∧ CardBat.checks s.card.blocks t.2 = false := by
    intro t ht
    obtain ⟨hd, hf⟩ := hp t ht
    rw [← CardDat.checks_iff, Bool.not_eq_true] at hd
    rw [← CardBat.checks_iff h.blocks, Bool.not_eq_true] at hf
    exact ⟨hd, hf⟩
  rcases call_cases horder hof hc with ⟨hwrites, -⟩ | ⟨hwrites, i, e, xs, hcreated⟩ | ⟨hwrites, i, hdeleted⟩
  · -- nothing is written
    have hlost : s.powerLost c p = s := by
      unfold powerLost
      rw [hwrites]
      cases p.torn <;> simp
    exact .of_current hlost h.blocks h.dir h.fat (.inl rfl) (.inl rfl) horder.chains
  · have htaken := hcreated.taken horder.chains
    have hkeeps := hcreated.keeps horder.chains
    rw [hcreated.same.blocks] at hkeeps
    rcases powerLost_cases hwrites with hlost | ⟨t, ht, hlost⟩ | ⟨hw, hrest⟩
    · exact .of_current hlost h.blocks h.dir h.fat (.inl rfl) (.inl rfl) horder.chains
    · exact .of_current hlost h.blocks h.dir (h.fat.tear (htear t ht).2) (.inl rfl) (.inl rfl) horder.chains
    · -- the blocks are taken, and nobody has them
      have hfat := h.write_fat hcreated.fat (hn _ hw)
      rcases hrest with hlost | ⟨t, ht, hlost⟩ | ⟨hw', hlost⟩
      · exact .of_current hlost h.blocks h.dir hfat (.inl rfl) (.inr rfl) htaken
      · exact .of_current hlost h.blocks (h.dir.tear (htear t ht).1) hfat (.inl rfl) (.inr rfl) htaken
      · exact .of_current hlost h.blocks (h.write_dir hcreated.dir (hn _ hw')) hfat (.inr rfl) (.inr rfl) hkeeps
  · have hleft := hdeleted.left horder.chains
    have hkeeps := hdeleted.keeps horder.chains
    rw [hdeleted.same.blocks] at hkeeps
    rcases powerLost_cases hwrites with hlost | ⟨t, ht, hlost⟩ | ⟨hw, hrest⟩
    · exact .of_current hlost h.blocks h.dir h.fat (.inl rfl) (.inl rfl) horder.chains
    · exact .of_current hlost h.blocks (h.dir.tear (htear t ht).1) h.fat (.inl rfl) (.inl rfl) horder.chains
    · -- nobody has the blocks any more
      have hdir := h.write_dir hdeleted.dir (hn _ hw)
      rcases hrest with hlost | ⟨t, ht, hlost⟩ | ⟨hw', hlost⟩
      · exact .of_current hlost h.blocks hdir h.fat (.inr rfl) (.inl rfl) hleft
      · exact .of_current hlost h.blocks hdir (h.fat.tear (htear t ht).2) (.inr rfl) (.inl rfl) hleft
      · exact .of_current hlost h.blocks hdir (h.write_fat hdeleted.fat (hn _ hw')) (.inr rfl) (.inr rfl) hkeeps

end CardStore

/-- **A card that was mounted with contents that have their checksums survives a loss of power** in any call behind any others. -/
theorem card_power_loss {s : CardStore} {chains : Nat → List Nat} {cs : List CardDirCall} {c : CardDirCall} {p : CardPowerLoss}
    (hm : s.Mounted) (hd : s.card.dirblock.valid) (hf : s.card.fatblock.valid s.card.blocks)
    (hchains : CardChains s.card.blocks s.card.dirblock.entries s.card.fatblock.fat chains) (hl : cardPowerSystem.Legal s cs)
    (hof : c.OfFiles) (hc : c.Succeeds) (hp : p.Fails (cardPowerSystem.run s cs).card.blocks)
    (hn : ∀ w ∈ ((cardPowerSystem.run s cs).writes c).take p.written, w.Follows (cardPowerSystem.run s cs)) :
    (cardPowerSystem.run s cs).Survives c p :=
  ((hm.steady hd hf hchains).run hl).survives hof hc hp hn

instance (s : CardStore) : ∀ w : CardSectorWrite, Decidable (w.Follows s)
  | .dir _ _ | .fat _ _ => inferInstanceAs (Decidable (_ ≤ _))

/-- A mounted card of 64 blocks without files; its directories are `dat`. -/
def cardPower0 (dat : Fin 2 → CardDat) (curr_dir : Fin 2) : CardStore where
  dirs := { cardDirs0 with card := { cardDirs0.card with
    dat := Function.update dat curr_dir (dat curr_dir.rev)
    bat := Function.update (cardFormatBat 64) 0 (cardFormatBat 64 1)
    curr_dir := curr_dir
    curr_fat := 0 } }
  flash := fun _ => 0
  dat := dat
  bat := cardFormatBat 64

/-- A directory without files, of some number. -/
def cardEmptyDir (copy : Fin 2) : CardDat :=
  let d : CardDat := { cardFormatDir with updated := copy }
  let cs := cardChecksum d.words
  { d with chksum1 := cs.1, chksum2 := cs.2 }

/-- One that does not have its checksums. -/
def cardBadDir : CardDat := { cardFormatDir with chksum1 := 0xffff }

def cardBadBat : CardBat := { cardFormatBat 64 0 with chksum1 := 0xffff }

theorem cardBadDir_not_valid : ¬ cardBadDir.valid := fun h => cardChecksum_ne _ (congrArg Prod.fst h)

theorem cardBadBat_not_valid : ¬ cardBadBat.valid 64 := fun h => cardChecksum_ne _ (congrArg Prod.fst h.1)

theorem cardEmptyDir_valid (copy : Fin 2) : (cardEmptyDir copy).valid := by
  unfold cardEmptyDir CardDat.valid
  generalize ({ cardFormatDir with updated := copy } : CardDat) = d
  have hsealed := d.sealed
  dsimp only at hsealed ⊢
  exact hsealed

theorem cardEmptyDir_entries (copy : Fin 2) : (cardEmptyDir copy).entries = fun _ => cardNoEntry := by
  unfold cardEmptyDir cardFormatDir
  dsimp only

theorem cardFormatBat_current : CardCurrent (CardBat.checks 64) CardBat.updated (cardFormatBat 64) 0 (cardFormatBat 64 1) := by
  have hvalid : ∀ i, (cardFormatBat 64 i).checks 64 = true := fun i =>
    (CardBat.checks_iff (by decide) _).2 (cardFormatBat_valid (by decide) (by decide) i)
  refine ⟨rfl, hvalid 1, ?_⟩
  unfold cardStale
  rw [if_pos (hvalid 1), if_pos (hvalid 0)]
  rfl

theorem cardPower0_mounted : (cardPower0 cardEmptyDir 0).Mounted := by
  have hvalid : ∀ i, (cardEmptyDir i).checks = true := fun i => (CardDat.checks_iff _).2 (cardEmptyDir_valid i)
  have hcurrent : CardCurrent CardDat.checks CardDat.updated cardEmptyDir 0 (cardEmptyDir 1) := by
    refine ⟨rfl, hvalid 1, ?_⟩
    unfold cardStale
    rw [if_pos (hvalid 1), if_pos (hvalid 0)]
    rfl
  exact ⟨(by decide : 64 < 2 ^ 16), @CardStore.mount_current (cardPower0 cardEmptyDir 0) 0 0 (cardEmptyDir 1) (cardFormatBat 64 1)
    (by decide : 64 < 2 ^ 16) hcurrent cardFormatBat_current⟩

theorem cardPower0_chains {dat : Fin 2 → CardDat} {curr_dir : Fin 2} (h : ∀ i, (dat i).entries = fun _ => cardNoEntry) :
    CardChains 64 (cardPower0 dat curr_dir).card.dirblock.entries (cardPower0 dat curr_dir).card.fatblock.fat fun _ => [] := by
  have hnone : ∀ i, ¬ ((cardPower0 dat curr_dir).card.dirblock.entries i).live := by
    intro i
    have hdir : (cardPower0 dat curr_dir).card.dirblock = dat curr_dir.rev := Function.update_self ..
    rw [hdir, h]
    exact cardNoEntry_not_live
  exact ⟨fun i _ hl => absurd hl (hnone i), fun i _ hl => absurd hl (hnone i), fun i _ hl => absurd hl (hnone i),
    fun i _ j _ _ hl => absurd hl (hnone i)⟩

/-- A file of one block. -/
def cardPowerCreate (byte : Nat) : CardDirCall := .create cardFile0 [byte] 8192 0 ⟨0, 0⟩ ⟨0, 0⟩

/-- A file is made, and power is lost while it is deleted. -/
theorem card_power_loss_delete : (cardPowerSystem.run (cardPower0 cardEmptyDir 0) [cardPowerCreate 0x41]).Survives (.delete [0x41] ⟨0, 0⟩ ⟨0, 0⟩)
    ⟨1, some (cardBadDir, cardBadBat)⟩ := by
  have hbat : (cardPower0 cardEmptyDir 0).card.fatblock.valid 64 := cardFormatBat_valid (by decide) (by decide) 1
  refine card_power_loss (c := .delete [0x41] ⟨0, 0⟩ ⟨0, 0⟩) cardPower0_mounted (cardEmptyDir_valid 1) hbat
    (cardPower0_chains cardEmptyDir_entries) ?_ trivial ⟨by decide, by decide⟩ ?_ ?_
  · exact ⟨⟨⟨trivial, by decide, by decide⟩, by decide +kernel⟩, trivial⟩
  · have hblocks : (cardPowerSystem.run (cardPower0 cardEmptyDir 0) [cardPowerCreate 0x41]).card.blocks = 64 := by decide +kernel
    intro t ht
    obtain rfl := Option.some.inj ht
    rw [hblocks]
    exact ⟨cardBadDir_not_valid, cardBadBat_not_valid⟩
  · decide +kernel

/-- Both directories are bad. -/
def cardBadDirs : Fin 2 → CardDat := fun _ => cardBadDir

theorem cardBadDirs_checks (copy : Fin 2) : CardDat.checks (cardBadDirs copy) = false := by
  rw [← Bool.not_eq_true, CardDat.checks_iff]
  exact cardBadDir_not_valid

theorem cardBadDirs_copies : cardBadCopies CardDat.checks cardBadDirs = 2 := by
  rw [cardBadCopies_eq, cardBadDirs_checks, cardBadDirs_checks]
  rfl

theorem cardBadBat_checks : cardBadBat.checks 64 = false := by
  rw [← Bool.not_eq_true, CardBat.checks_iff (by decide)]
  exact cardBadBat_not_valid

theorem cardBadDirs_mounted : (cardPower0 cardBadDirs 1).Mounted := by
  refine ⟨(by decide : 64 < 2 ^ 16), ?_⟩
  have hstale : cardStale CardDat.checks CardDat.updated cardBadDirs = 1 := by
    unfold cardStale
    rw [cardBadDirs_checks, cardBadDirs_checks]
    rfl
  have htables : cardBadCopies (CardBat.checks 64) (cardFormatBat 64) = 0 :=
    (cardBadCopies_zero (CardBat.checks_iff (by decide))).2 (cardFormatBat_valid (by decide) (by decide))
  have hverify := cardVerify_none ⟨64, by decide, cardBadDirs, cardFormatBat 64, none, none⟩ rfl rfl hstale cardFormatBat_current.stale
  dsimp only at hverify
  rw [cardBadDirs_copies, htables] at hverify
  exact hverify

theorem cardBadDirs_broken {s : CardStore} (hb : s.card.blocks < 2 ^ 16)
    (h : s = { cardPower0 cardBadDirs 1 with bat := Function.update (cardFormatBat 64) 0 cardBadBat }) :
    (s.mount hb).2 = CARD_ERROR_BROKEN := by
  subst h
  have hone : cardBadCopies (CardBat.checks 64) (Function.update (cardFormatBat 64) 0 cardBadBat) = 1 := by
    have hsecond : (cardFormatBat 64 1).checks 64 = true := cardFormatBat_current.right
    rw [cardBadCopies_eq, Function.update_self, Function.update_of_ne (by decide), cardBadBat_checks, hsecond]
    rfl
  have hverify := cardVerify_none ⟨64, by decide, cardBadDirs, Function.update (cardFormatBat 64) 0 cardBadBat, none, none⟩ rfl rfl rfl rfl
  dsimp only at hverify
  rw [cardBadDirs_copies, hone] at hverify
  exact congrArg Prod.snd hverify

theorem cardBadDirs_powerLost : (cardPower0 cardBadDirs 1).powerLost (cardPowerCreate 0x41) ⟨0, some (cardBadDir, cardBadBat)⟩ =
    { cardPower0 cardBadDirs 1 with bat := Function.update (cardFormatBat 64) 0 cardBadBat } := by
  have hwrites : ∃ fat dir, (cardPower0 cardBadDirs 1).writes (cardPowerCreate 0x41) = [.fat 0 fat, .dir 1 dir] := by
    have hresult : ¬ ((cardPower0 cardBadDirs 1).dirs.call (cardPowerCreate 0x41)).2 < 0 := by decide +kernel
    unfold CardStore.writes
    dsimp only
    generalize (cardPower0 cardBadDirs 1).dirs.call (cardPowerCreate 0x41) = r at hresult ⊢
    rw [if_neg hresult]
    exact ⟨_, _, rfl⟩
  obtain ⟨fat, dir, hwrites⟩ := hwrites
  unfold CardStore.powerLost
  rw [hwrites]
  rfl

/-- A card whose directories are both bad is mounted, and is lost with the first file. -/
theorem card_power_loss_bad : ¬ ∀ (s : CardStore) (chains : Nat → List Nat) (cs : List CardDirCall) (c : CardDirCall) (p : CardPowerLoss),
    s.Mounted → CardChains s.card.blocks s.card.dirblock.entries s.card.fatblock.fat chains → cardPowerSystem.Legal s cs → c.OfFiles →
      c.Succeeds → p.Fails (cardPowerSystem.run s cs).card.blocks →
        (∀ w ∈ ((cardPowerSystem.run s cs).writes c).take p.written, w.Follows (cardPowerSystem.run s cs)) →
          (cardPowerSystem.run s cs).Survives c p := by
  intro h
  obtain ⟨hb, hready, -⟩ := h (cardPower0 cardBadDirs 1) (fun _ => []) [] (cardPowerCreate 0x41) ⟨0, some (cardBadDir, cardBadBat)⟩
    cardBadDirs_mounted (cardPower0_chains fun _ => rfl) trivial trivial ⟨by decide, by decide⟩
    (fun t ht => by
      obtain rfl := Option.some.inj ht
      exact ⟨cardBadDir_not_valid, cardBadBat_not_valid⟩)
    (fun w hw => absurd hw List.not_mem_nil)
  have hbroken := cardBadDirs_broken hb cardBadDirs_powerLost
  exact absurd (hready.symm.trans hbroken) (by decide)

end Libogc
