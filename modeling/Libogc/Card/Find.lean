import Libogc.Card.Card
/-!
# Find — the two ways to list a directory

`CARD_FindFirst` and `CARD_FindNext` go from entry to entry, `CARD_GetDirectory` collects all of them.  Both are to give the files of the
game and company that are set, but a company that is not set counts as one only for the first (`card_find_agrees`).
-/
namespace Libogc

/-- `card_gamecode` and `card_company` -/
structure CardIds where
  gamecode : Fin 4 → Nat
  company : Fin 2 → Nat
  deriving DecidableEq

/-- `card_dir` -/
structure CardDir where
  chn : Int
  fileno : Nat
  filelen : Nat
  permissions : Nat
  filename : Fin 32 → Nat
  gamecode : Fin 4 → Nat
  company : Fin 2 → Nat
  showall : Bool
  deriving DecidableEq

/-- `cardmap`, with the blocks of slots that there are not -/
abbrev CardMap := Int → CardBlock

def cardSlot (chn : Int) : Prop := 0 ≤ chn ∧ chn < 2

instance (chn : Int) : Decidable (cardSlot chn) := inferInstanceAs (Decidable (_ ∧ _))

def cardPut (cards : CardMap) (chn : Int) (card : CardBlock) (result : Int) : CardMap :=
  Function.update cards chn (card.putcntrlblock result)

section Find
variable (ids : CardIds)

/-- What `__card_findnext` asks of an entry. -/
def cardFindsEntry (showall : Bool) (e : CardDirentry) : Prop :=
  e.live ∧ (showall ∨ e.gamecode = ids.gamecode) ∧ (showall ∨ e.company = ids.company)

instance (showall : Bool) (e : CardDirentry) : Decidable (cardFindsEntry ids showall e) := inferInstanceAs (Decidable (_ ∧ _))

/-- The loop of `__card_findnext`, `n` entries from the end of the directory. -/
def cardFindLoop (dirblock : CardDat) (sector_size : Nat) : Nat → CardDir → CardDir × Int
  | 0, dir => (dir, CARD_ERROR_NOFILE)
  | n + 1, dir =>
    let e := dirblock.entries dir.fileno
    if cardFindsEntry ids dir.showall e then
      ({ dir with
          filelen := e.length * sector_size % 2 ^ 32
          filename := e.filename
          gamecode := e.gamecode
          company := e.company }, CARD_ERROR_READY)
    else cardFindLoop dirblock sector_size n { dir with fileno := dir.fileno + 1 }

/-- `__card_findnext` -/
def cardFindnext (cards : CardMap) (dir : CardDir) : CardMap × CardDir × Int :=
  if ¬ cardSlot dir.chn then (cards, dir, CARD_ERROR_NOCARD)
  else if CARD_MAXFILES ≤ dir.fileno then (cards, dir, CARD_ERROR_NOFILE)
  else
    match (cards dir.chn).getcntrlblock with
    | .error e => (cards, dir, e)
    | .ok card =>
      let r := cardFindLoop ids card.dirblock card.sector_size (CARD_MAXFILES - dir.fileno) dir
      (cardPut cards dir.chn card r.2, r)

/-- `CARD_FindFirst`; what `dir` holds of names and codes is not cleared but for their first bytes. -/
def CARDFindFirst (cards : CardMap) (chn : Int) (dir : CardDir) (showall : Bool) : CardMap × CardDir × Int :=
  cardFindnext ids cards
    { dir with
      chn := chn
      fileno := 0
      filelen := 0
      filename := Function.update dir.filename 0 0
      gamecode := Function.update dir.gamecode 0 0
      company := Function.update dir.company 0 0
      showall := showall }

/-- `CARD_FindNext` -/
def CARDFindNext (cards : CardMap) (dir : CardDir) : CardMap × CardDir × Int :=
  cardFindnext ids cards { dir with fileno := (dir.fileno + 1) % 2 ^ 32 }

/-- The entries that `CARD_FindNext` gives until it fails, `n` calls at most. -/
def cardFindRest : Nat → CardMap × CardDir × Int → List CardDir
  | 0, _ => []
  | n + 1, (cards, dir, result) => if result < 0 then [] else dir :: cardFindRest n (CARDFindNext ids cards dir)

/-- What `CARD_GetDirectory` asks of an entry. -/
def cardListsEntry (showall : Bool) (e : CardDirentry) : Prop :=
  e.live ∧ (showall ∨ (ids.gamecode 0 ≠ 0xff ∧ e.gamecode = ids.gamecode) ∧ ids.company 0 ≠ 0xff ∧ e.company = ids.company)

instance (showall : Bool) (e : CardDirentry) : Decidable (cardListsEntry ids showall e) := inferInstanceAs (Decidable (_ ∧ _))

/-- The loop of `CARD_GetDirectory` from an entry on; it sets the channel and `showall` of no entry. -/
def cardListLoop (dirblock : CardDat) (sector_size : Nat) (showall : Bool) (old : CardDir) : List Nat → List CardDir
  | [] => []
  | i :: is =>
    let e := dirblock.entries i
    if cardListsEntry ids showall e then
      { old with
        fileno := i
        permissions := e.permission
        filelen := e.length * sector_size % 2 ^ 32
        gamecode := e.gamecode
        company := e.company
        filename := e.filename } :: cardListLoop dirblock sector_size showall old is
    else cardListLoop dirblock sector_size showall old is

/-- `CARD_GetDirectory`, with the entries that it writes over `old` ones. -/
def CARDGetDirectory (cards : CardMap) (chn : Int) (old : CardDir) (showall : Bool) : CardMap × List CardDir × Int :=
  if ¬ cardSlot chn then (cards, [], CARD_ERROR_NOCARD)
  else
    match (cards chn).getcntrlblock with
    | .error e => (cards, [], e)
    | .ok card =>
      let entries := cardListLoop ids card.dirblock card.sector_size showall old (List.range CARD_MAXFILES)
      let ret := if entries.length = 0 then CARD_ERROR_NOFILE else CARD_ERROR_READY
      (cardPut cards chn card ret, entries, ret)

end Find

/-! ## What the two give -/

/-- What both say of a file. -/
def CardDir.file (dir : CardDir) : Nat × Nat × (Fin 32 → Nat) × (Fin 4 → Nat) × (Fin 2 → Nat) :=
  (dir.fileno, dir.filelen, dir.filename, dir.gamecode, dir.company)

/-- **The two ways agree**: the same files, and none to begin with if there is none. -/
structure CardFindAgrees (ids : CardIds) (cards : CardMap) (chn : Int) (dir old : CardDir) (showall : Bool) : Prop where
  same : ∀ n, CARD_MAXFILES < n → (cardFindRest ids n (CARDFindFirst ids cards chn dir showall)).map CardDir.file =
    (CARDGetDirectory ids cards chn old showall).2.1.map CardDir.file
  first : (CARDFindFirst ids cards chn dir showall).2.2 < 0 ↔ (CARDGetDirectory ids cards chn old showall).2.1 = []

/-- The card's directory has a file of the game that is set, of the company that is not. -/
def cardUnsetCompany (ids : CardIds) (card : CardBlock) : Prop :=
  ids.company 0 = 0xff ∧ ∃ i < CARD_MAXFILES, (card.dirblock.entries i).live ∧ (card.dirblock.entries i).gamecode = ids.gamecode ∧
    (card.dirblock.entries i).company = ids.company

section Loops
variable {ids : CardIds} {dirblock : CardDat} {sector_size : Nat}

/-- What is said of an entry. -/
def cardFileOf (dirblock : CardDat) (sector_size i : Nat) : Nat × Nat × (Fin 32 → Nat) × (Fin 4 → Nat) × (Fin 2 → Nat) :=
  (i, (dirblock.entries i).length * sector_size % 2 ^ 32, (dirblock.entries i).filename, (dirblock.entries i).gamecode,
    (dirblock.entries i).company)

/-- The entries that are found. -/
def cardFinds (ids : CardIds) (dirblock : CardDat) (showall : Bool) (l : List Nat) : List Nat :=
  l.filter fun i => cardFindsEntry ids showall (dirblock.entries i)

def cardLists (ids : CardIds) (dirblock : CardDat) (showall : Bool) (l : List Nat) : List Nat :=
  l.filter fun i => cardListsEntry ids showall (dirblock.entries i)

theorem cardFindLoop_spec (n : Nat) (dir : CardDir) :
    let r := cardFindLoop ids dirblock sector_size n dir
    let found := cardFinds ids dirblock dir.showall (List.range' dir.fileno n)
    (r.2 = CARD_ERROR_NOFILE ∧ found = []) ∨
      r.2 = CARD_ERROR_READY ∧ r.1.chn = dir.chn ∧ r.1.showall = dir.showall ∧ r.1.file = cardFileOf dirblock sector_size r.1.fileno ∧
        dir.fileno ≤ r.1.fileno ∧ r.1.fileno < dir.fileno + n ∧
        found = r.1.fileno :: cardFinds ids dirblock dir.showall (List.range' (r.1.fileno + 1) (dir.fileno + n - (r.1.fileno + 1))) := by
  induction n generalizing dir with
  | zero => exact .inl ⟨rfl, rfl⟩
  | succ n ih =>
    dsimp only
    unfold cardFindLoop
    dsimp only
    rw [List.range'_succ]
    split
    case isTrue he =>
      refine .inr ⟨rfl, rfl, rfl, rfl, Nat.le_refl _, Nat.lt_add_of_pos_right (Nat.succ_pos n), ?_⟩
      unfold cardFinds
      rw [List.filter_cons_of_pos (by simpa using he), Nat.add_sub_add_left, Nat.add_sub_cancel]
    case isFalse he =>
      have hskip : cardFinds ids dirblock dir.showall (dir.fileno :: List.range' (dir.fileno + 1) n) =
          cardFinds ids dirblock dir.showall (List.range' (dir.fileno + 1) n) := List.filter_cons_of_neg (by simpa using he)
      rw [hskip, show dir.fileno + (n + 1) = dir.fileno + 1 + n by omega]
      rcases ih { dir with fileno := dir.fileno + 1 } with h | ⟨hready, hchn, hshow, hfile, hle, hlt, hfound⟩
      · exact .inl h
      · exact .inr ⟨hready, hchn, hshow, hfile, by dsimp only at hle; omega, hlt, hfound⟩

theorem cardListLoop_spec (showall : Bool) (old : CardDir) (l : List Nat) :
    (cardListLoop ids dirblock sector_size showall old l).map CardDir.file =
      (cardLists ids dirblock showall l).map (cardFileOf dirblock sector_size) := by
  induction l with
  | nil => rfl
  | cons i l ih =>
    unfold cardListLoop cardLists
    dsimp only
    split
    case isTrue he =>
      rw [List.map_cons, ih, List.filter_cons_of_pos (by simpa using he)]
      rfl
    case isFalse he =>
      rw [ih, List.filter_cons_of_neg (by simpa using he)]
      rfl

end Loops

section Calls
variable {ids : CardIds} {cards : CardMap}

theorem cardPut_accessible {chn : Int} {card : CardBlock} {result : Int} (ha : card.attached = true) (hr : result ≠ CARD_ERROR_BUSY) :
    (cardPut cards chn card result chn).accessible ∧ (cardPut cards chn card result chn).dirblock = card.dirblock ∧
      (cardPut cards chn card result chn).sector_size = card.sector_size := by
  unfold cardPut CardBlock.putcntrlblock
  rw [Function.update_self, if_pos ha]
  exact ⟨⟨ha, hr⟩, rfl, rfl⟩

theorem cardFindRest_eq (n : Nat) : ∀ (cards : CardMap) (dir : CardDir), cardSlot dir.chn → (cards dir.chn).accessible →
    CARD_MAXFILES - dir.fileno < n →
    (cardFindRest ids n (cardFindnext ids cards dir)).map CardDir.file =
      (cardFinds ids (cards dir.chn).dirblock dir.showall (List.range' dir.fileno (CARD_MAXFILES - dir.fileno))).map
        (cardFileOf (cards dir.chn).dirblock (cards dir.chn).sector_size) := by
  induction n with
  | zero => exact fun _ _ _ _ h => absurd h (Nat.not_lt_zero _)
  | succ n ih =>
    intro cards dir hslot hacc hn
    unfold cardFindnext
    rw [if_neg (not_not.2 hslot)]
    by_cases hmax : CARD_MAXFILES ≤ dir.fileno
    · rw [if_pos hmax, Nat.sub_eq_zero_of_le hmax]
      rfl
    · rw [if_neg hmax, CardBlock.getcntrlblock_accessible hacc]
      dsimp only
      generalize hcard : ({ cards dir.chn with result := CARD_ERROR_BUSY } : CardBlock) = card
      have hdir : card.dirblock = (cards dir.chn).dirblock := by
        subst hcard
        rfl
      have hsize : card.sector_size = (cards dir.chn).sector_size := by
        subst hcard
        rfl
      have hatt : card.attached = true := by
        subst hcard
        exact hacc.1
      rw [← hdir, ← hsize]
      rcases @cardFindLoop_spec ids card.dirblock card.sector_size (CARD_MAXFILES - dir.fileno) dir with
        ⟨hnofile, hnone⟩ | ⟨hready, hchn, hshow, hfile, hle, hlt, hfound⟩
      · unfold cardFindRest
        rw [hnone, if_pos (by rw [hnofile]; decide)]
        rfl
      · rw [hfound]
        generalize cardFindLoop ids card.dirblock card.sector_size (CARD_MAXFILES - dir.fileno) dir = r at hready hchn hshow hfile hle hlt ⊢
        obtain ⟨dir', result⟩ := r
        dsimp only at hready hchn hshow hfile hle hlt ⊢
        subst hready
        obtain ⟨hacc', hdir', hsize'⟩ := @cardPut_accessible cards dir.chn card CARD_ERROR_READY hatt (by decide)
        have hlt' : dir'.fileno < CARD_MAXFILES := by omega
        have hmod : (dir'.fileno + 1) % 2 ^ 32 = dir'.fileno + 1 := Nat.mod_eq_of_lt (by unfold CARD_MAXFILES at hlt'; omega)
        have hrest := ih (cardPut cards dir.chn card CARD_ERROR_READY) { dir' with fileno := (dir'.fileno + 1) % 2 ^ 32 } (hchn ▸ hslot)
          (by dsimp only; rw [hchn]; exact hacc') (by dsimp only; omega)
        dsimp only at hrest
        rw [hmod, hchn, hdir', hsize', hshow] at hrest
        unfold cardFindRest
        rw [if_neg (by decide), List.map_cons, List.map_cons, hfile, Nat.add_sub_cancel' (Nat.le_of_not_le hmax)]
        refine congrArg _ (Eq.trans ?_ hrest)
        unfold CARDFindNext
        rw [hmod, hchn, hshow]

end Calls

section Agree
variable (ids : CardIds) (cards : CardMap) (chn : Int) (dir old : CardDir) (showall : Bool)

theorem card_lists_eq (hslot : cardSlot chn) (hacc : (cards chn).accessible) :
    (∀ n, CARD_MAXFILES < n → (cardFindRest ids n (CARDFindFirst ids cards chn dir showall)).map CardDir.file =
      (cardFinds ids (cards chn).dirblock showall (List.range CARD_MAXFILES)).map (cardFileOf (cards chn).dirblock (cards chn).sector_size)) ∧
      (CARDGetDirectory ids cards chn old showall).2.1.map CardDir.file =
        (cardLists ids (cards chn).dirblock showall (List.range CARD_MAXFILES)).map
          (cardFileOf (cards chn).dirblock (cards chn).sector_size) := by
  constructor
  · intro n hn
    have := @cardFindRest_eq ids n cards
      { dir with chn := chn, fileno := 0, filelen := 0, filename := Function.update dir.filename 0 0
                 gamecode := Function.update dir.gamecode 0 0, company := Function.update dir.company 0 0, showall := showall }
      hslot hacc hn
    rw [List.range_eq_range']
    exact this
  · unfold CARDGetDirectory
    rw [if_neg (not_not.2 hslot), CardBlock.getcntrlblock_accessible hacc]
    exact cardListLoop_spec showall old _

theorem card_lists_none (hno : ¬ (cardSlot chn ∧ (cards chn).accessible)) :
    (∀ n, cardFindRest ids n (CARDFindFirst ids cards chn dir showall) = []) ∧ (CARDFindFirst ids cards chn dir showall).2.2 < 0 ∧
      (CARDGetDirectory ids cards chn old showall).2.1 = [] := by
  have hfirst : (CARDFindFirst ids cards chn dir showall).2.2 < 0 := by
    unfold CARDFindFirst cardFindnext
    dsimp only
    by_cases hslot : cardSlot chn
    · obtain ⟨e, he, hneg⟩ := CardBlock.getcntrlblock_error fun hacc => hno ⟨hslot, hacc⟩
      rw [if_neg (not_not.2 hslot), if_neg (by decide), he]
      exact hneg
    · rw [if_pos hslot]
      exact (by decide : CARD_ERROR_NOCARD < 0)
  refine ⟨fun n => ?_, hfirst, ?_⟩
  · cases n with
    | zero => rfl
    | succ n =>
      unfold cardFindRest
      exact if_pos hfirst
  · unfold CARDGetDirectory
    by_cases hslot : cardSlot chn
    · obtain ⟨e, he, -⟩ := CardBlock.getcntrlblock_error fun hacc => hno ⟨hslot, hacc⟩
      rw [if_neg (not_not.2 hslot), he]
    · rw [if_pos hslot]

theorem cardFindsEntry_iff (e : CardDirentry) : (cardFindsEntry ids showall e ↔ cardListsEntry ids showall e) ↔
    showall = true ∨ ¬ (ids.company 0 = 0xff ∧ e.live ∧ e.gamecode = ids.gamecode ∧ e.company = ids.company) := by
  unfold cardFindsEntry cardListsEntry
  have hset : e.live → e.gamecode = ids.gamecode → ids.gamecode 0 ≠ 0xff := fun hlive heq => heq ▸ hlive
  cases showall with
  | true => simp
  | false =>
    simp only [Bool.false_eq_true, false_or]
    tauto

theorem cardFindRest_nil (n : Nat) (r : CardMap × CardDir × Int) : cardFindRest ids (n + 1) r = [] ↔ r.2.2 < 0 := by
  unfold cardFindRest
  split
  case isTrue h => exact iff_of_true rfl h
  case isFalse h => exact iff_of_false (List.cons_ne_nil _ _) h

theorem CardFindAgrees.of_same (h : ∀ n, CARD_MAXFILES < n → (cardFindRest ids n (CARDFindFirst ids cards chn dir showall)).map CardDir.file =
    (CARDGetDirectory ids cards chn old showall).2.1.map CardDir.file) : CardFindAgrees ids cards chn dir old showall := by
  refine ⟨h, ?_⟩
  rw [← cardFindRest_nil ids CARD_MAXFILES, ← List.map_eq_nil_iff, h _ (Nat.lt_succ_self _), List.map_eq_nil_iff]

theorem cardFileOf_map {dirblock : CardDat} {sector_size : Nat} {l l' : List Nat} :
    l.map (cardFileOf dirblock sector_size) = l'.map (cardFileOf dirblock sector_size) ↔ l = l' := by
  refine ⟨fun h => ?_, fun h => by rw [h]⟩
  have hfst : (l.map (cardFileOf dirblock sector_size)).map Prod.fst = (l'.map (cardFileOf dirblock sector_size)).map Prod.fst := by rw [h]
  rwa [List.map_map, List.map_map, show Prod.fst ∘ cardFileOf dirblock sector_size = id from rfl, List.map_id, List.map_id] at hfst

theorem cardFinds_eq (dirblock : CardDat) : cardFinds ids dirblock showall (List.range CARD_MAXFILES) =
    cardLists ids dirblock showall (List.range CARD_MAXFILES) ↔
      ∀ i < CARD_MAXFILES, (cardFindsEntry ids showall (dirblock.entries i) ↔ cardListsEntry ids showall (dirblock.entries i)) := by
  constructor
  · intro h i hi
    have hmem : i ∈ cardFinds ids dirblock showall (List.range CARD_MAXFILES) ↔ i ∈ cardLists ids dirblock showall (List.range CARD_MAXFILES) := by
      rw [h]
    unfold cardFinds cardLists at hmem
    rw [List.mem_filter, List.mem_filter, decide_eq_true_iff, decide_eq_true_iff] at hmem
    exact (and_congr_right_iff.1 hmem) (List.mem_range.2 hi)
  · intro h
    refine List.filter_congr fun i hi => ?_
    rw [decide_eq_decide]
    exact h i (List.mem_range.1 hi)

/-- The two lists of a card that can be accessed are the same exactly under this condition. -/
theorem cardFindAgrees_iff (hslot : cardSlot chn) (hacc : (cards chn).accessible) :
    CardFindAgrees ids cards chn dir old showall ↔ showall = true ∨ ¬ cardUnsetCompany ids (cards chn) := by
  obtain ⟨hfinds, hlists⟩ := card_lists_eq ids cards chn dir old showall hslot hacc
  have hcond : (∀ i < CARD_MAXFILES, (cardFindsEntry ids showall ((cards chn).dirblock.entries i) ↔
      cardListsEntry ids showall ((cards chn).dirblock.entries i))) ↔ showall = true ∨ ¬ cardUnsetCompany ids (cards chn) := by
    unfold cardUnsetCompany
    constructor
    · intro h
      refine or_iff_not_imp_left.2 fun hshow ⟨hco, i, hi, hlive, hgame, hcompany⟩ => ?_
      exact (((cardFindsEntry_iff ids showall _).1 (h i hi)).resolve_left hshow) ⟨hco, hlive, hgame, hcompany⟩
    · intro h i hi
      refine (cardFindsEntry_iff ids showall _).2 (h.imp_right fun hno he => ?_)
      exact hno ⟨he.1, i, hi, he.2⟩
  rw [← hcond, ← cardFinds_eq]
  constructor
  · intro h
    have hsame := h.same _ (Nat.lt_succ_self _)
    rw [hfinds _ (Nat.lt_succ_self _), hlists] at hsame
    exact cardFileOf_map.1 hsame
  · intro h
    refine .of_same ids cards chn dir old showall fun n hn => ?_
    rw [hfinds n hn, hlists, h]

/-- **FindFirst and FindNext agree with GetDirectory** exactly if all files are asked for, the company is set, or no file of the game has
the company that stands for none. -/
theorem card_find_agrees : CardFindAgrees ids cards chn dir old showall ↔
    (cardSlot chn ∧ (cards chn).accessible → showall = true ∨ ¬ cardUnsetCompany ids (cards chn)) := by
  by_cases hacc : cardSlot chn ∧ (cards chn).accessible
  · rw [cardFindAgrees_iff ids cards chn dir old showall hacc.1 hacc.2]
    exact ⟨fun h _ => h, fun h => h hacc⟩
  · obtain ⟨hrest, -, hdir⟩ := card_lists_none ids cards chn dir old showall hacc
    refine iff_of_true (.of_same ids cards chn dir old showall fun n _ => ?_) fun h => absurd h hacc
    rw [hrest n, hdir]

end Agree

/-- A card with one file, of game `GGGG`; its company is what a file gets that is created while none is set. -/
def cardFind0 : CardBlock where
  attached := true
  result := 0
  sector_size := 8192
  blocks := 64
  dat := fun _ =>
    { entries := fun i =>
        { gamecode := fun _ => if i = 0 then 0x47 else 0xff, company := fun _ => 0xff, pad_00 := 0xff, bannerfmt := 0, filename := fun _ => 0x41
          lastmodified := 0, iconaddr := 0, iconfmt := 0, iconspeed := 0, permission := 4, copytimes := 0, block := 5, length := 1
          pad_01 := 0xffff, commentaddr := 0 }
      pad := fun _ => 0xffff, updated := 0, chksum1 := 0, chksum2 := 0 }
  bat := fun _ => { chksum1 := 0, chksum2 := 0, updated := 0, freeblocks := 58, lastalloc := 5, fat := fun i => if i = 0 then 0xffff else 0 }
  curr_dir := 0
  curr_fat := 0
  curr_fileblock := 0

def cardDir0 : CardDir := ⟨0, 0, 0, 0, fun _ => 0, fun _ => 0, fun _ => 0, false⟩

/-- Only the game is set: `CARD_FindFirst` gives a file of company 0xffff, `CARD_GetDirectory` does not. -/
theorem card_find_disagrees :
    ¬ ∀ (ids : CardIds) (cards : CardMap) (chn : Int) (dir old : CardDir) (showall : Bool), CardFindAgrees ids cards chn dir old showall := by
  intro h
  have hcond := (cardFindAgrees_iff ⟨fun _ => 0x47, fun _ => 0xff⟩ (fun _ => cardFind0) 0 cardDir0 cardDir0 false (by decide) (by decide)).1
    (h _ _ _ _ _ _)
  exact hcond.elim (by decide) fun hno => hno ⟨rfl, 0, by decide, by decide, rfl, rfl⟩

end Libogc
