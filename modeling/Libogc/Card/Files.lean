import Libogc.Card.Keys
import Libogc.Card.ReadWrite
/-!
# Files — the chains of the files of a card

On a card that is in order each file has a chain of blocks of its own.  A creation takes blocks that were free, a deletion frees those of
one file, and the other calls leave the chains alone; so the chains stay in order, also of one table beside the other's older version: a
creation writes the blocks first, a deletion the entries.
-/
namespace Libogc

/-- **A card in order**: each file has a chain of data blocks, and no two files have one in common. -/
structure CardChains (blocks : Nat) (entries : Nat → CardDirentry) (fat : Nat → Nat) (chains : Nat → List Nat) : Prop where
  chain : ∀ i < CARD_MAXFILES, (entries i).live → CardChain fat (entries i).block (chains i)
  some : ∀ i < CARD_MAXFILES, (entries i).live → chains i ≠ []
  data : ∀ i < CARD_MAXFILES, (entries i).live → ∀ x ∈ chains i, CARD_SYSAREA ≤ x ∧ x < blocks
  apart : ∀ i < CARD_MAXFILES, ∀ j < CARD_MAXFILES, i ≠ j → (entries i).live → (entries j).live → ∀ x ∈ chains i, x ∉ chains j

/-- The version of a directory that follows another one. -/
structure CardDat.Next (d d' : CardDat) : Prop where
  updated : d'.updated = (d.updated + 1) % 2 ^ 16
  checks : cardChecksum d'.words = (d'.chksum1, d'.chksum2)

structure CardBat.Next (b b' : CardBat) : Prop where
  updated : b'.updated = (b.updated + 1) % 2 ^ 16
  checks : cardChecksum b'.words = (b'.chksum1, b'.chksum2)

namespace CardBlock

/-- What is not of the tables. -/
structure Same (card card' : CardBlock) : Prop where
  attached : card'.attached = card.attached
  blocks : card'.blocks = card.blocks

/-- The directory was left alone. -/
structure DirKept (card card' : CardBlock) : Prop where
  curr_dir : card'.curr_dir = card.curr_dir
  dirblock : card'.dirblock = card.dirblock

structure FatKept (card card' : CardBlock) : Prop where
  curr_fat : card'.curr_fat = card.curr_fat
  fatblock : card'.fatblock = card.fatblock

/-- The directory was written, with another entry. -/
structure DirWritten (card card' : CardBlock) (i : Nat) (e : CardDirentry) : Prop where
  curr_dir : card'.curr_dir = card.curr_dir.rev
  entries : card'.dirblock.entries = Function.update card.dirblock.entries i e
  next : card.dirblock.Next card'.dirblock

structure FatWritten (card card' : CardBlock) : Prop where
  curr_fat : card'.curr_fat = card.curr_fat.rev
  next : card.fatblock.Next card'.fatblock
  count : card'.fatblock.freeblocks = cardFree card.blocks card'.fatblock.fat

end CardBlock

/-- What a creation leaves: an entry, with a chain of blocks that were free. -/
structure CardCreated (card card' : CardBlock) (i : Nat) (e : CardDirentry) (xs : List Nat) : Prop where
  same : card.Same card'
  index : i < CARD_MAXFILES
  free : ¬ (card.dirblock.entries i).live
  dir : card.DirWritten card' i e
  fat : card.FatWritten card'
  some : xs ≠ []
  chain : CardChain card'.fatblock.fat e.block xs
  blocks : ∀ x ∈ xs, CARD_SYSAREA ≤ x ∧ x < card.blocks ∧ card.fatblock.fat (x - CARD_SYSAREA) = 0
  others : ∀ y, (∀ x ∈ xs, y ≠ x - CARD_SYSAREA) → card'.fatblock.fat y = card.fatblock.fat y

/-- What a deletion leaves: no entry, and the blocks of its chain free. -/
structure CardDeleted (card card' : CardBlock) (i : Nat) (xs : List Nat) : Prop where
  same : card.Same card'
  index : i < CARD_MAXFILES
  live : (card.dirblock.entries i).live
  dir : card.DirWritten card' i cardNoEntry
  fat : card.FatWritten card'
  others : ∀ y, (∀ x ∈ xs, y ≠ x - CARD_SYSAREA) → card'.fatblock.fat y = card.fatblock.fat y

/-- What another call leaves: an entry that is no file, or the file that it was. -/
structure CardChanged (card card' : CardBlock) (i : Nat) (e : CardDirentry) : Prop where
  same : card.Same card'
  dir : card.DirWritten card' i e
  fat : card.FatKept card'
  file : e.live → (card.dirblock.entries i).live ∧ e.block = (card.dirblock.entries i).block

/-! ## Chains -/

section Chains
variable {blocks b : Nat} {entries : Nat → CardDirentry} {fat fat' : Nat → Nat} {chains : Nat → List Nat} {xs ys : List Nat}

theorem CardChain.ne_zero (hdata : ∀ x ∈ xs, CARD_SYSAREA ≤ x) (h : CardChain fat b xs) : ∀ x ∈ xs, fat (x - CARD_SYSAREA) ≠ 0 := by
  induction xs generalizing b with
  | nil => exact fun x hx => nomatch hx
  | cons y ys ih =>
    obtain ⟨rfl, hrest⟩ := h
    intro x hx
    rcases List.mem_cons.1 hx with rfl | hx
    · -- what follows is the end, or a block
      cases ys with
      | nil =>
        have hend : fat (x - CARD_SYSAREA) = 0xffff := hrest
        rw [hend]
        decide
      | cons z zs =>
        have hz := hdata z (List.mem_cons_of_mem _ List.mem_cons_self)
        rw [hrest.1]
        unfold CARD_SYSAREA at hz
        omega
    · exact ih (fun z hz => hdata z (List.mem_cons_of_mem _ hz)) hrest x hx

theorem CardChain.unique (hb : blocks < 2 ^ 16) : ∀ {xs ys : List Nat} {b : Nat}, (∀ x ∈ xs, x < blocks) → (∀ y ∈ ys, y < blocks) →
    CardChain fat b xs → CardChain fat b ys → xs = ys := by
  have hend : ∀ {y : Nat} {zs : List Nat}, (∀ z ∈ y :: zs, z < blocks) → y ≠ 0xffff := by
    intro y zs hz hy
    have hlt := hz y List.mem_cons_self
    omega
  intro xs
  induction xs with
  | nil =>
    intro ys b _ hys hx hy
    cases ys with
    | nil => rfl
    | cons y ys => exact absurd (hy.1.symm.trans hx) (hend hys)
  | cons x xs ih =>
    intro ys b hxs hys hx hy
    cases ys with
    | nil => exact absurd (hx.1.symm.trans hy) (hend hxs)
    | cons y ys =>
      obtain ⟨rfl, hx'⟩ := hx
      obtain ⟨rfl, hy'⟩ := hy
      rw [ih (fun z hz => hxs z (List.mem_cons_of_mem _ hz)) (fun z hz => hys z (List.mem_cons_of_mem _ hz)) hx' hy']

theorem CardChain.suffix : ∀ {zs : List Nat} {b : Nat}, CardChain fat b (zs ++ xs) → ∃ b', CardChain fat b' xs
  | [], _, h => ⟨_, h⟩
  | _ :: _, _, h => h.2.suffix

theorem CardChain.nodup (hb : blocks < 2 ^ 16) : ∀ {xs : List Nat} {b : Nat}, (∀ x ∈ xs, x < blocks) → CardChain fat b xs → xs.Nodup := by
  intro xs
  induction xs with
  | nil => exact fun _ _ => .nil
  | cons x xs ih =>
    intro b hxs h
    have hrest : ∀ y ∈ xs, y < blocks := fun y hy => hxs y (List.mem_cons_of_mem _ hy)
    refine List.nodup_cons.2 ⟨fun hx => ?_, ih hrest h.2⟩
    -- the chain from the second place would be that from the first
    obtain ⟨zs, ws, rfl⟩ := List.append_of_mem hx
    obtain ⟨b', hb'⟩ := h.2.suffix
    have hws : ∀ y ∈ ws, y < blocks := fun y hy => hrest y (List.mem_append_right _ (List.mem_cons_of_mem _ hy))
    have hsame := CardChain.unique hb hrest hws h.2 hb'.2
    have hlen := congrArg List.length hsame
    rw [List.length_append, List.length_cons] at hlen
    omega

theorem CardChains.of_fat (h : CardChains blocks entries fat chains)
    (hsame : ∀ i < CARD_MAXFILES, (entries i).live → ∀ x ∈ chains i, fat' (x - CARD_SYSAREA) = fat (x - CARD_SYSAREA)) :
    CardChains blocks entries fat' chains where
  chain i hi hl := (h.chain i hi hl).congr (hsame i hi hl)
  some := h.some
  data := h.data
  apart := h.apart

theorem CardChains.entry (h : CardChains blocks entries fat chains) {i : Nat} {e : CardDirentry}
    (he : e.live → (entries i).live ∧ e.block = (entries i).block) : CardChains blocks (Function.update entries i e) fat chains := by
  have hold : ∀ j, (Function.update entries i e j).live →
      (entries j).live ∧ (Function.update entries i e j).block = (entries j).block := by
    intro j hj
    by_cases hji : j = i
    · subst hji
      rw [Function.update_self] at hj ⊢
      exact he hj
    · rw [Function.update_of_ne hji] at hj ⊢
      exact ⟨hj, rfl⟩
  refine ⟨fun j hj hl => ?_, fun j hj hl => h.some j hj (hold j hl).1, fun j hj hl => h.data j hj (hold j hl).1,
    fun j hj k hk hne hl hl' => h.apart j hj k hk hne (hold j hl).1 (hold k hl').1⟩
  rw [(hold j hl).2]
  exact h.chain j hj (hold j hl).1

theorem CardChains.add (h : CardChains blocks entries fat chains) {i : Nat} {e : CardDirentry} (hchain : CardChain fat e.block xs)
    (hsome : xs ≠ []) (hdata : ∀ x ∈ xs, CARD_SYSAREA ≤ x ∧ x < blocks)
    (hapart : ∀ j < CARD_MAXFILES, (entries j).live → ∀ x ∈ chains j, x ∉ xs) :
    CardChains blocks (Function.update entries i e) fat (Function.update chains i xs) := by
  refine ⟨fun j hj hl => ?_, fun j hj hl => ?_, fun j hj hl => ?_, fun j hj k hk hne hl hl' x hx hx' => ?_⟩
  · by_cases hji : j = i
    · subst hji
      rw [Function.update_self, Function.update_self]
      exact hchain
    · rw [Function.update_of_ne hji] at hl ⊢
      rw [Function.update_of_ne hji]
      exact h.chain j hj hl
  · by_cases hji : j = i
    · subst hji
      rw [Function.update_self]
      exact hsome
    · rw [Function.update_of_ne hji] at hl ⊢
      exact h.some j hj hl
  · by_cases hji : j = i
    · subst hji
      rw [Function.update_self]
      exact hdata
    · rw [Function.update_of_ne hji] at hl ⊢
      exact h.data j hj hl
  · by_cases hji : j = i
    · subst hji
      have hkj : k ≠ j := Ne.symm hne
      rw [Function.update_self] at hx
      rw [Function.update_of_ne hkj] at hl' hx'
      exact hapart k hk hl' x hx' hx
    · rw [Function.update_of_ne hji] at hl hx
      by_cases hki : k = i
      · subst hki
        rw [Function.update_self] at hx'
        exact hapart j hj hl x hx hx'
      · rw [Function.update_of_ne hki] at hl' hx'
        exact h.apart j hj k hk hne hl hl' x hx hx'

theorem CardChains.not_free (h : CardChains blocks entries fat chains) (hfree : ∀ x ∈ xs, fat (x - CARD_SYSAREA) = 0) :
    ∀ j < CARD_MAXFILES, (entries j).live → ∀ x ∈ chains j, x ∉ xs := fun j hj hl x hx hxs =>
  (h.chain j hj hl).ne_zero (fun y hy => (h.data j hj hl y hy).1) x hx (hfree x hxs)

end Chains

/-! ## What the calls do to the chains -/

section Calls
variable {card card' : CardBlock} {i : Nat} {e : CardDirentry} {xs : List Nat} {chains : Nat → List Nat}

/-- Between the two writes of a creation the blocks are taken, and nobody has them. -/
theorem CardCreated.taken (h : CardCreated card card' i e xs) (hc : CardChains card.blocks card.dirblock.entries card.fatblock.fat chains) :
    CardChains card.blocks card.dirblock.entries card'.fatblock.fat chains := by
  have hapart := hc.not_free fun x hx => (h.blocks x hx).2.2
  refine hc.of_fat fun j hj hl x hx => h.others _ fun y hy => sysarea_ne (hc.data j hj hl x hx).1 (h.blocks y hy).1 ?_
  rintro rfl
  exact hapart j hj hl x hx hy

theorem CardCreated.keeps (h : CardCreated card card' i e xs) (hc : CardChains card.blocks card.dirblock.entries card.fatblock.fat chains) :
    CardChains card'.blocks card'.dirblock.entries card'.fatblock.fat (Function.update chains i xs) := by
  rw [h.same.blocks, h.dir.entries]
  exact (h.taken hc).add h.chain h.some (fun x hx => ⟨(h.blocks x hx).1, (h.blocks x hx).2.1⟩)
    (hc.not_free fun x hx => (h.blocks x hx).2.2)

theorem cardNoEntry_not_live : ¬ cardNoEntry.live := fun h => h rfl

theorem CardDeleted.left (h : CardDeleted card card' i (chains i))
    (hc : CardChains card.blocks card.dirblock.entries card.fatblock.fat chains) :
    CardChains card.blocks card'.dirblock.entries card.fatblock.fat chains := by
  rw [h.dir.entries]
  exact hc.entry fun hl => absurd hl cardNoEntry_not_live

theorem CardDeleted.keeps (h : CardDeleted card card' i (chains i))
    (hc : CardChains card.blocks card.dirblock.entries card.fatblock.fat chains) :
    CardChains card'.blocks card'.dirblock.entries card'.fatblock.fat chains := by
  rw [h.same.blocks]
  refine (h.left hc).of_fat fun j hj hl x hx => h.others _ fun y hy => ?_
  rw [h.dir.entries] at hl
  have hji : j ≠ i := by
    rintro rfl
    rw [Function.update_self] at hl
    exact cardNoEntry_not_live hl
  rw [Function.update_of_ne hji] at hl
  refine sysarea_ne (hc.data j hj hl x hx).1 (hc.data i h.index h.live y hy).1 ?_
  rintro rfl
  exact hc.apart j hj i h.index hji hl h.live x hx hy

theorem CardChanged.keeps (h : CardChanged card card' i e) (hc : CardChains card.blocks card.dirblock.entries card.fatblock.fat chains) :
    CardChains card'.blocks card'.dirblock.entries card'.fatblock.fat chains := by
  rw [h.same.blocks, h.dir.entries, h.fat.fatblock]
  exact hc.entry h.file

end Calls

/-! ## Updates -/

/-- An update that goes well. -/
def CardUpdate.Succeeds (u : CardUpdate) : Prop := 0 ≤ u.start ∧ 0 ≤ u.result

instance (u : CardUpdate) : Decidable u.Succeeds := inferInstanceAs (Decidable (_ ∧ _))

theorem CardDat.sealed (d : CardDat) :
    let cs := cardChecksum d.words
    cardChecksum ({ d with chksum1 := cs.1, chksum2 := cs.2 } : CardDat).words = (cs.1, cs.2) := by
  have hwords (a b : Nat) : ({ d with chksum1 := a, chksum2 := b } : CardDat).words = d.words := rfl
  dsimp only
  rw [hwords]

theorem CardBat.sealed (b : CardBat) :
    let cs := cardChecksum b.words
    cardChecksum ({ b with chksum1 := cs.1, chksum2 := cs.2 } : CardBat).words = (cs.1, cs.2) := by
  have hwords (x y : Nat) : ({ b with chksum1 := x, chksum2 := y } : CardBat).words = b.words := rfl
  dsimp only
  rw [hwords]

namespace CardBlock
variable {card : CardBlock} {dir fat : CardUpdate}

theorem putcntrlblock_eq (card : CardBlock) (result : Int) : ∃ r, card.putcntrlblock result = { card with result := r } := by
  unfold putcntrlblock
  split
  · exact ⟨_, rfl⟩
  · split
    · exact ⟨_, rfl⟩
    · exact ⟨card.result, rfl⟩

theorem updatesDir_written (ha : card.attached = true) (h : dir.Succeeds) :
    card.updatesDir dir = (card.updatedir.dirwritten, dir.result) := by
  unfold updatesDir
  rw [if_neg (by rw [ha]; decide), if_neg (Int.not_lt.2 h.1), if_pos h.2]

theorem setEntry_written (card : CardBlock) (i : Nat) (e : CardDirentry) :
    card.DirWritten (card.setEntry i e).updatedir.dirwritten i e where
  curr_dir := rfl
  entries := by
    show (card.setEntry i e).updatedir.dirblock.entries = _
    unfold updatedir
    rw [dirblock_setDirblock, setEntry_entries]
  next := by
    have hnext : (card.setEntry i e).dirblock.Next (card.setEntry i e).updatedir.dirblock := by
      unfold updatedir
      rw [dirblock_setDirblock]
      generalize hd : ({ (card.setEntry i e).dirblock with updated := ((card.setEntry i e).dirblock.updated + 1) % 2 ^ 16 } : CardDat) = d
      have hsealed := d.sealed
      constructor
      · rw [← hd]
      · dsimp only at hsealed ⊢
        exact hsealed
    have hold : (card.setEntry i e).dirblock.updated = card.dirblock.updated := by
      unfold setEntry
      rw [dirblock_setDirblock]
    refine ⟨?_, hnext.checks⟩
    rw [← hold]
    exact hnext.updated

theorem updatefat_next {b : CardBat} (h : b.updated = card.fatblock.updated) : card.fatblock.Next (card.updatefat b).fatblock := by
  unfold updatefat
  rw [fatblock_setFatblock]
  generalize hnew : ({ b with updated := (b.updated + 1) % 2 ^ 16 } : CardBat) = new
  have hsealed := new.sealed
  constructor
  · rw [← hnew, ← h]
  · dsimp only at hsealed ⊢
    exact hsealed

end CardBlock

/-- What the work on a table leaves alone, and what it does to the number of the version. -/
structure CardBlock.TableSet (card card' : CardBlock) : Prop where
  same : card.Same card'
  dir : card.DirKept card'
  curr_fat : card'.curr_fat = card.curr_fat
  next : card.fatblock.Next card'.fatblock

section Tables
variable {card : CardBlock} {n block : Nat} {erased : Int} {xs : List Nat}

theorem cardAllocblock_table (h : 0 ≤ (cardAllocblock card n erased).2) :
    card.attached = true ∧ n ≤ card.fatblock.freeblocks ∧ card.TableSet (cardAllocblock card n erased).1 := by
  unfold cardAllocblock at h ⊢
  split at h
  · exact absurd h (by decide : ¬ 0 ≤ CARD_ERROR_NOCARD)
  next ha =>
    split at h
    · exact absurd h (by decide : ¬ 0 ≤ CARD_ERROR_INSSPACE)
    next hspace =>
      rw [if_neg ha, if_neg hspace]
      dsimp only at h ⊢
      split at h
      next hok =>
        rw [if_pos hok]
        exact ⟨by simpa using ha, Nat.le_of_not_lt hspace, ⟨rfl, rfl⟩, ⟨rfl, rfl⟩, rfl, CardBlock.updatefat_next rfl⟩
      · exact absurd h (by decide : ¬ 0 ≤ CARD_ERROR_BROKEN)

theorem cardFreeLoop_updated (blocks : Nat) : ∀ (n next : Nat) (b : CardBat), (cardFreeLoop blocks n next b).1.updated = b.updated
  | 0, _, _ => rfl
  | n + 1, next, b => by
    rw [cardFreeLoop]
    split
    · rfl
    · split
      · rfl
      · exact cardFreeLoop_updated blocks n _ _

theorem cardFreeblock_spec (ha : card.attached = true) (hb : card.blocks < 2 ^ 16)
    (hcount : card.fatblock.freeblocks = cardFree card.blocks card.fatblock.fat) (hsome : xs ≠ [])
    (hchain : CardChain card.fatblock.fat block xs) (hdata : ∀ x ∈ xs, CARD_SYSAREA ≤ x ∧ x < card.blocks) :
    let r := cardFreeblock card block erased
    r.2 = erased ∧ card.TableSet r.1 ∧ (∀ y, (∀ x ∈ xs, y ≠ x - CARD_SYSAREA) → r.1.fatblock.fat y = card.fatblock.fat y) ∧
      r.1.fatblock.freeblocks = cardFree card.blocks r.1.fatblock.fat := by
  have hnodup := hchain.nodup hb fun x hx => (hdata x hx).2
  have hnonzero := hchain.ne_zero fun x hx => (hdata x hx).1
  cases xs with
  | nil => exact absurd rfl hsome
  | cons x xs =>
    obtain ⟨rfl, hrest⟩ := hchain
    have hx := hdata block List.mem_cons_self
    obtain ⟨hnot, hnodup'⟩ := List.nodup_cons.1 hnodup
    have hne : ∀ y ∈ xs, y - CARD_SYSAREA ≠ block - CARD_SYSAREA := by
      refine fun y hy => sysarea_ne (hdata y (List.mem_cons_of_mem _ hy)).1 hx.1 ?_
      rintro rfl
      exact hnot hy
    have hreleased : ∀ i, i ≠ block - CARD_SYSAREA → (card.fatblock.release block).fat i = card.fatblock.fat i := fun i hi =>
      Function.update_of_ne hi ..
    have hlen : xs.length ≤ card.blocks := by
      have hsub : (block :: xs).Subperm (cardDataBlocks card.blocks) :=
        hnodup.subperm fun y hy => mem_cardDataBlocks.2 (hdata y hy)
      have hle := hsub.length_le
      unfold cardDataBlocks at hle
      rw [List.length_cons, List.length_range'] at hle
      omega
    obtain ⟨hdone, hzero, hsame, hnumber, hlt⟩ := cardFreeLoop_spec (hrest.congr fun y hy => hreleased _ (hne y hy)) hnodup'
      (fun y hy => hdata y (List.mem_cons_of_mem _ hy)) hb hlen
    have hupdated := cardFreeLoop_updated card.blocks card.blocks (card.fatblock.fat (block - CARD_SYSAREA)) (card.fatblock.release block)
    unfold cardFreeblock
    rw [if_neg (by rw [ha]; decide)]
    dsimp only
    rw [if_pos hdone]
    generalize cardFreeLoop card.blocks card.blocks (card.fatblock.fat (block - CARD_SYSAREA)) (card.fatblock.release block) = r
      at hzero hsame hnumber hlt hupdated
    have hothers : ∀ y, (∀ x ∈ block :: xs, y ≠ x - CARD_SYSAREA) → r.1.fat y = card.fatblock.fat y := fun y hy => by
      rw [hsame y fun z hz => hy z (List.mem_cons_of_mem _ hz), hreleased y (hy block List.mem_cons_self)]
    have hfreed : ∀ z ∈ block :: xs, r.1.fat (z - CARD_SYSAREA) = 0 := by
      intro z hz
      rcases List.mem_cons.1 hz with rfl | hz
      · rw [hsame _ fun y hy => (hne y hy).symm]
        exact Function.update_self ..
      · exact hzero z hz
    have hcountfree : cardFree card.blocks card.fatblock.fat + (block :: xs).length = cardFree card.blocks r.1.fat := by
      refine cardFree_apart hnodup hdata hfreed fun b hb' => ?_
      by_cases hbx : b ∈ block :: xs
      · exact iff_of_false (hnonzero b hbx) fun hand => hand.2 hbx
      · rw [hothers _ fun y hy => sysarea_ne (mem_cardDataBlocks.1 hb').1 (hdata y hy).1 fun e => hbx (e ▸ hy)]
        exact (and_iff_left hbx).symm
    refine ⟨rfl, ⟨⟨rfl, rfl⟩, ⟨rfl, rfl⟩, rfl, CardBlock.updatefat_next hupdated⟩, fun y hy => ?_, ?_⟩
    · rw [CardBlock.updatefat_fat]
      exact hothers y hy
    · rw [CardBlock.updatefat_freeblocks, CardBlock.updatefat_fat, ← hcountfree, ← hcount, List.length_cons]
      have hless := hlt (Nat.mod_lt _ (by decide))
      have hall := cardFree_le card.blocks r.1.fat
      rw [← hcountfree, ← hcount, List.length_cons] at hall
      have hmod : (card.fatblock.release block).freeblocks = (card.fatblock.freeblocks + 1) % 2 ^ 16 := rfl
      rw [hmod, Nat.mod_add_mod, Nat.mod_eq_of_lt hless] at hnumber
      rw [hnumber, Nat.mod_eq_of_lt (by omega)]
      omega

end Tables

/-! ## The calls -/

theorem cardGetfilenum_error {card : CardBlock} {filename : Fin 32 → Nat} {codes : CardIds} {e : Int}
    (h : cardGetfilenum card filename codes = .error e) : e < 0 := by
  unfold cardGetfilenum at h
  split at h
  · obtain rfl := Except.error.inj h
    decide
  · split at h
    · cases h
    · obtain rfl := Except.error.inj h
      decide

theorem cardGetfilenum_ok {card : CardBlock} {filename : Fin 32 → Nat} {codes : CardIds} {i : Nat}
    (h : cardGetfilenum card filename codes = .ok i) : i < CARD_MAXFILES ∧ (card.dirblock.entries i).live := by
  unfold cardGetfilenum at h
  split at h
  · cases h
  · split at h
    next hfind =>
      obtain rfl := Except.ok.inj h
      have hfile := List.find?_some hfind
      exact ⟨List.mem_range.1 (List.mem_of_find?_eq_some hfind), (of_decide_eq_true hfile).1⟩
    · cases h

/-- A card whose tables are in order: the chains, and the number of free blocks. -/
structure CardInOrder (card : CardBlock) (chains : Nat → List Nat) : Prop where
  blocks : card.blocks < 2 ^ 16
  chains : CardChains card.blocks card.dirblock.entries card.fatblock.fat chains
  count : card.fatblock.freeblocks = cardFree card.blocks card.fatblock.fat

theorem CardCreated.inOrder {card card' : CardBlock} {i : Nat} {e : CardDirentry} {xs : List Nat} {chains : Nat → List Nat}
    (h : CardCreated card card' i e xs) (hc : CardInOrder card chains) : CardInOrder card' (Function.update chains i xs) where
  blocks := h.same.blocks ▸ hc.blocks
  chains := h.keeps hc.chains
  count := h.same.blocks ▸ h.fat.count

theorem CardDeleted.inOrder {card card' : CardBlock} {i : Nat} {chains : Nat → List Nat} (h : CardDeleted card card' i (chains i))
    (hc : CardInOrder card chains) : CardInOrder card' chains where
  blocks := h.same.blocks ▸ hc.blocks
  chains := h.keeps hc.chains
  count := h.same.blocks ▸ h.fat.count

theorem CardChanged.inOrder {card card' : CardBlock} {i : Nat} {e : CardDirentry} {chains : Nat → List Nat} (h : CardChanged card card' i e)
    (hc : CardInOrder card chains) : CardInOrder card' chains where
  blocks := h.same.blocks ▸ hc.blocks
  chains := h.keeps hc.chains
  count := by
    rw [h.same.blocks, h.fat.fatblock]
    exact hc.count

section Effects
variable {card : CardBlock} {codes ids : CardIds} {file : CardFile} {toolong : Bool} {filename : Fin 32 → Nat} {size now : Nat}
  {fat dir : CardUpdate} {chains : Nat → List Nat} {fileno : Int}

theorem CardBlock.TableSet.written {card' : CardBlock} (h : card.TableSet card') (i : Nat) (e : CardDirentry) :
    card.DirWritten (card'.setEntry i e).updatedir.dirwritten i e := by
  have hw := card'.setEntry_written i e
  have hcurr := hw.curr_dir
  have hentries := hw.entries
  have hnext := hw.next
  rw [h.dir.curr_dir] at hcurr
  rw [h.dir.dirblock] at hentries hnext
  exact ⟨hcurr, hentries, hnext⟩

theorem cardCreateEnd_created (hcard : CardInOrder card chains) (hfat : fat.Succeeds) (hdir : dir.Succeeds) {i : Nat}
    (hi : i < CARD_MAXFILES) (hnot : ¬ (card.dirblock.entries i).live) (hpos : 0 < size / card.sector_size)
    (h : 0 ≤ (cardCreateEnd ids card { file with filenum := i } filename size now fat dir).2.2) :
    ∃ e xs, CardCreated card (cardCreateEnd ids card { file with filenum := i } filename size now fat dir).1 i e xs := by
  unfold cardCreateEnd at h ⊢
  dsimp only at h ⊢
  rw [Int.toNat_natCast] at h ⊢
  generalize hentry : ({ card.dirblock.entries i with length := size / card.sector_size % 2 ^ 16, filename := cardPadName filename } :
    CardDirentry) = entry at h ⊢
  -- the entry is set in the directory, which is not written yet
  have hcountset : (card.setEntry i entry).fatblock.freeblocks =
      cardFree (card.setEntry i entry).blocks (card.setEntry i entry).fatblock.fat := hcard.count
  have htable := @cardAllocblock_table (card.setEntry i entry) (size / card.sector_size) fat.start
  have hspec := fun hroom => @card_alloc_free (card.setEntry i entry) (size / card.sector_size) hroom fat.start 0
  generalize cardAllocblock (card.setEntry i entry) (size / card.sector_size) fat.start = r at h htable hspec ⊢
  by_cases hr : r.2 < 0
  · rw [if_pos hr] at h
    exact absurd h (Int.not_le.2 hr)
  rw [if_neg hr, if_pos hfat.2]
  obtain ⟨hatt, hroom, htable⟩ := htable (Int.not_lt.1 hr)
  obtain ⟨-, ⟨xs, halloc⟩, -⟩ := hspec ⟨hatt, hcard.blocks, hcountset, hpos, hroom⟩
  have hattached : r.1.fatwritten.attached = true := htable.same.attached.trans hatt
  unfold cardCreateFat
  dsimp only
  rw [Int.toNat_natCast]
  generalize hnew : cardNewEntry ids r.1.fatwritten.curr_fileblock now (r.1.fatwritten.dirblock.entries i) = e
  have hblock : e.block = r.1.curr_fileblock := by
    rw [← hnew]
    rfl
  have hattset : (r.1.fatwritten.setEntry i e).attached = true := hattached
  rw [CardBlock.updatesDir_written hattset hdir]
  dsimp only
  obtain ⟨result, hput⟩ := (r.1.fatwritten.setEntry i e).updatedir.dirwritten.putcntrlblock_eq dir.result
  rw [hput]
  have hwritten := r.1.fatwritten.setEntry_written i e
  have holddir : r.1.fatwritten.dirblock = (card.setEntry i entry).dirblock := htable.dir.dirblock
  refine ⟨e, xs, ⟨htable.same.attached, htable.same.blocks⟩, hi, hnot, ⟨?_, ?_, ?_⟩, ⟨?_, ?_, ?_⟩, ?_, ?_, halloc.free, halloc.others⟩
  · exact congrArg Fin.rev htable.dir.curr_dir
  · have hentries := hwritten.entries
    rw [holddir, CardBlock.setEntry_entries, Function.update_idem] at hentries
    exact hentries
  · have hnext := hwritten.next
    rw [holddir] at hnext
    have hupdated : (card.setEntry i entry).dirblock.updated = card.dirblock.updated := by
      unfold CardBlock.setEntry
      rw [CardBlock.dirblock_setDirblock]
    refine ⟨?_, hnext.checks⟩
    rw [← hupdated]
    exact hnext.updated
  · exact congrArg Fin.rev htable.curr_fat
  · exact htable.next
  · exact halloc.count
  · intro hnil
    have hlength := halloc.length
    rw [hnil] at hlength
    exact absurd hlength (Nat.ne_of_lt hpos)
  · rw [hblock]
    exact halloc.chain

theorem CardCreated.of_result {card' : CardBlock} {i : Nat} {e : CardDirentry} {xs : List Nat} {result : Int}
    (h : CardCreated { card with result := result } card' i e xs) : CardCreated card card' i e xs where
  same := ⟨h.same.attached, h.same.blocks⟩
  index := h.index
  free := h.free
  dir := ⟨h.dir.curr_dir, h.dir.entries, h.dir.next⟩
  fat := ⟨h.fat.curr_fat, h.fat.next, h.fat.count⟩
  some := h.some
  chain := h.chain
  blocks := h.blocks
  others := h.others

theorem cardCreate_created (hcard : CardInOrder card chains) (hfat : fat.Succeeds) (hdir : dir.Succeeds)
    (h : 0 ≤ (cardCreate codes ids card file toolong filename size now fat dir).2.2) :
    ∃ i e xs, CardCreated card (cardCreate codes ids card file toolong filename size now fat dir).1 i e xs := by
  obtain ⟨got, i, hgot, hi, hfree, -, hpos, hend⟩ := cardCreate_end h
  obtain ⟨-, -, rfl⟩ := CardBlock.getcntrlblock_keeps hgot
  rw [hend] at h ⊢
  have hgotten : CardInOrder { card with result := CARD_ERROR_BUSY } chains := ⟨hcard.blocks, hcard.chains, hcard.count⟩
  obtain ⟨e, xs, hcreated⟩ := cardCreateEnd_created hgotten hfat hdir hi hfree hpos h
  exact ⟨i, e, xs, hcreated.of_result⟩

theorem cardDeleteFat_deleted (hcard : CardInOrder card chains) (hatt : card.attached = true) (hdir : dir.Succeeds) (hfat : fat.Succeeds)
    {i : Nat} (hi : i < CARD_MAXFILES) (hlive : (card.dirblock.entries i).live) :
    let r := (CardBlock.setEntry { card with curr_fileblock := (card.dirblock.entries i).block } i cardNoEntry).updatesDir dir
    let d := if r.2 < 0 then (r.1.putcntrlblock r.2, r.2) else cardDeleteFat r.1 fat
    CardDeleted card d.1 i (chains i) ∧ d.2 = fat.result := by
  have hwritten := CardBlock.setEntry_written { card with curr_fileblock := (card.dirblock.entries i).block } i cardNoEntry
  have hattset : (CardBlock.setEntry { card with curr_fileblock := (card.dirblock.entries i).block } i cardNoEntry).attached = true := hatt
  rw [CardBlock.updatesDir_written hattset hdir]
  generalize hset : CardBlock.dirwritten _ = c at hwritten ⊢
  have htables : c.fatblock = card.fatblock ∧ c.curr_fat = card.curr_fat ∧ c.blocks = card.blocks ∧ c.attached = card.attached ∧
      c.curr_fileblock = (card.dirblock.entries i).block := by
    rw [← hset]
    exact ⟨rfl, rfl, rfl, rfl, rfl⟩
  obtain ⟨hfatblock, hcurrfat, hblocks, hattached, hfileblock⟩ := htables
  have hcatt : c.attached = true := hattached.trans hatt
  have hcblocks : c.blocks < 2 ^ 16 := hblocks ▸ hcard.blocks
  have hccount : c.fatblock.freeblocks = cardFree c.blocks c.fatblock.fat := by
    rw [hfatblock, hblocks]
    exact hcard.count
  have hcchain : CardChain c.fatblock.fat c.curr_fileblock (chains i) := by
    rw [hfatblock, hfileblock]
    exact hcard.chains.chain i hi hlive
  have hcdata : ∀ x ∈ chains i, CARD_SYSAREA ≤ x ∧ x < c.blocks := by
    rw [hblocks]
    exact hcard.chains.data i hi hlive
  obtain ⟨hresult, htable, hothers, hcount⟩ := cardFreeblock_spec hcatt hcblocks hccount
    (hcard.chains.some i hi hlive) hcchain hcdata
  dsimp only
  rw [if_neg (Int.not_lt.2 hdir.2)]
  unfold cardDeleteFat
  dsimp only
  rw [hresult, if_neg (Int.not_lt.2 hfat.1), if_pos hfat.2]
  generalize (cardFreeblock c c.curr_fileblock fat.start).1 = freed at htable hothers hcount
  obtain ⟨result, hput⟩ := freed.fatwritten.putcntrlblock_eq fat.result
  rw [hput]
  rw [hfatblock] at hothers
  rw [hblocks] at hcount
  have hnext := htable.next
  rw [hfatblock] at hnext
  have hdirblock : freed.dirblock = c.dirblock := htable.dir.dirblock
  refine ⟨⟨⟨htable.same.attached.trans hattached, htable.same.blocks.trans hblocks⟩, hi, hlive, ⟨?_, ?_, ?_⟩, ⟨?_, hnext, hcount⟩, hothers⟩, rfl⟩
  · exact htable.dir.curr_dir.trans hwritten.curr_dir
  · exact (congrArg CardDat.entries hdirblock).trans hwritten.entries
  · have hdirnext := hwritten.next
    rw [← hdirblock] at hdirnext
    exact hdirnext
  · exact congrArg Fin.rev (htable.curr_fat.trans hcurrfat)

theorem CardDeleted.of_result {card' : CardBlock} {i : Nat} {xs : List Nat} {result : Int}
    (h : CardDeleted { card with result := result } card' i xs) : CardDeleted card card' i xs where
  same := ⟨h.same.attached, h.same.blocks⟩
  index := h.index
  live := h.live
  dir := ⟨h.dir.curr_dir, h.dir.entries, h.dir.next⟩
  fat := ⟨h.fat.curr_fat, h.fat.next, h.fat.count⟩
  others := h.others

theorem cardDelete_deleted (hcard : CardInOrder card chains) (hdir : dir.Succeeds) (hfat : fat.Succeeds)
    (h : 0 ≤ (cardDelete codes card filename dir fat).2) :
    ∃ i, CardDeleted card (cardDelete codes card filename dir fat).1 i (chains i) := by
  unfold cardDelete at h ⊢
  cases hgot : card.getcntrlblock with
  | error e =>
    rw [hgot] at h
    exact absurd h (Int.not_le.2 (CardBlock.getcntrlblock_neg hgot))
  | ok got =>
    obtain ⟨-, hatt, rfl⟩ := CardBlock.getcntrlblock_keeps hgot
    rw [hgot] at h
    dsimp only at h ⊢
    cases hfile : cardGetfilenum { card with result := CARD_ERROR_BUSY } filename codes with
    | error e =>
      rw [hfile] at h
      exact absurd h (Int.not_le.2 (cardGetfilenum_error hfile))
    | ok i =>
      obtain ⟨hi, hlive⟩ := cardGetfilenum_ok hfile
      have hgotten : CardInOrder { card with result := CARD_ERROR_BUSY } chains := ⟨hcard.blocks, hcard.chains, hcard.count⟩
      exact ⟨i, (cardDeleteFat_deleted hgotten hatt hdir hfat hi hlive).1.of_result⟩

variable {got : CardBlock} {s : CardFs} {buf : Nat → BitVec 8} {len offset : Nat} {o : CardWrites}

theorem CardChanged.of_result {card' : CardBlock} {i : Nat} {e : CardDirentry} (hgot : ∃ r, got = { card with result := r })
    (h : CardChanged got card' i e) :
    CardChanged card card' i e := by
  obtain ⟨result, rfl⟩ := hgot
  exact ⟨⟨h.same.attached, h.same.blocks⟩, ⟨h.dir.curr_dir, h.dir.entries, h.dir.next⟩, ⟨h.fat.curr_fat, h.fat.fatblock⟩, h.file⟩

theorem CardChanged.of_got {card' : CardBlock} {i : Nat} {e : CardDirentry} (hgot : card.getcntrlblock = .ok got)
    (h : CardChanged got card' i e) : CardChanged card card' i e := by
  obtain ⟨-, -, hbusy⟩ := CardBlock.getcntrlblock_keeps hgot
  exact .of_result ⟨_, hbusy⟩ h

theorem CardBlock.getcntrlblock_attached (hgot : card.getcntrlblock = .ok got) : got.attached = true := by
  obtain ⟨-, hatt, rfl⟩ := CardBlock.getcntrlblock_keeps hgot
  exact hatt

theorem CardBlock.updatesDir_changed (ha : card.attached = true) (hdir : dir.Succeeds) (i : Nat) (e : CardDirentry)
    (hfile : e.live → (card.dirblock.entries i).live ∧ e.block = (card.dirblock.entries i).block) :
    CardChanged card (((card.setEntry i e).updatesDir dir).1.putcntrlblock ((card.setEntry i e).updatesDir dir).2) i e := by
  have hattset : (card.setEntry i e).attached = true := ha
  rw [CardBlock.updatesDir_written hattset hdir]
  obtain ⟨result, hput⟩ := (card.setEntry i e).updatedir.dirwritten.putcntrlblock_eq dir.result
  have hwritten := card.setEntry_written i e
  dsimp only
  rw [hput]
  exact ⟨⟨rfl, rfl⟩, ⟨hwritten.curr_dir, hwritten.entries, hwritten.next⟩, ⟨rfl, rfl⟩, hfile⟩

theorem cardSetstatusex_changed {entry : CardDirentry} (hdir : dir.Succeeds)
    (hgame : entry.gamecode = (card.dirblock.entries fileno.toNat).gamecode) (h : 0 ≤ (cardSetstatusex card fileno entry dir).2) :
    ∃ i e, CardChanged card (cardSetstatusex card fileno entry dir).1 i e := by
  unfold cardSetstatusex at h ⊢
  split at h
  · exact absurd h (by decide : ¬ 0 ≤ CARD_ERROR_FATAL_ERROR)
  next hrange =>
    split at h
    · exact absurd h (by decide : ¬ 0 ≤ CARD_ERROR_FATAL_ERROR)
    next hnamed =>
      rw [if_neg hrange, if_neg hnamed]
      cases hgot : card.getcntrlblock with
      | error e =>
        rw [hgot] at h
        exact absurd h (Int.not_le.2 (CardBlock.getcntrlblock_neg hgot))
      | ok got =>
        have hatt := CardBlock.getcntrlblock_attached hgot
        have hentries : got.dirblock = card.dirblock := by
          obtain ⟨-, -, rfl⟩ := CardBlock.getcntrlblock_keeps hgot
          rfl
        rw [hgot] at h
        dsimp only at h ⊢
        split at h
        · exact absurd h (by decide : ¬ 0 ≤ CARD_ERROR_EXIST)
        next hunique =>
          rw [if_neg hunique]
          refine ⟨_, _, .of_got hgot (CardBlock.updatesDir_changed hatt hdir _ _ fun hlive => ⟨?_, rfl⟩)⟩
          unfold CardDirentry.live at hlive ⊢
          rw [hentries, ← hgame]
          exact hlive

theorem CARDSetAttributes_changed {attr : Nat} (hdir : dir.Succeeds) (h : 0 ≤ (CARDSetAttributes card fileno attr dir).2) :
    ∃ i e, CardChanged card (CARDSetAttributes card fileno attr dir).1 i e := by
  unfold CARDSetAttributes at h ⊢
  split at h
  · exact absurd h (by decide : ¬ 0 ≤ CARD_ERROR_FATAL_ERROR)
  next hrange =>
    rw [if_neg hrange]
    cases hgot : card.getcntrlblock with
    | error e =>
      rw [hgot] at h
      exact absurd h (Int.not_le.2 (CardBlock.getcntrlblock_neg hgot))
    | ok got =>
      rw [hgot] at h
      dsimp only at h ⊢
      have hkept := got.putcntrlblock_eq CARD_ERROR_READY
      generalize got.putcntrlblock CARD_ERROR_READY = ready at h hkept ⊢
      have hgame : ({ card.dirblock.entries fileno.toNat with permission := attr } : CardDirentry).gamecode =
          (ready.dirblock.entries fileno.toNat).gamecode := by
        obtain ⟨-, -, rfl⟩ := CardBlock.getcntrlblock_keeps hgot
        obtain ⟨result, rfl⟩ := hkept
        rfl
      obtain ⟨i, e, hchanged⟩ := cardSetstatusex_changed hdir hgame h
      exact ⟨i, e, .of_got hgot (.of_result hkept hchanged)⟩

theorem CARDSetStatus_changed {stats : CardSetStat} (hdir : dir.Succeeds) (h : 0 ≤ (CARDSetStatus card fileno stats now dir).2) :
    ∃ i e, CardChanged card (CARDSetStatus card fileno stats now dir).1 i e := by
  unfold CARDSetStatus at h ⊢
  split at h
  · exact absurd h (by decide : ¬ 0 ≤ CARD_ERROR_FATAL_ERROR)
  next hrange =>
    split at h
    · exact absurd h (by decide : ¬ 0 ≤ CARD_ERROR_FATAL_ERROR)
    next hicon =>
      split at h
      · exact absurd h (by decide : ¬ 0 ≤ CARD_ERROR_FATAL_ERROR)
      next hcomment =>
        rw [if_neg hrange, if_neg hicon, if_neg hcomment]
        cases hgot : card.getcntrlblock with
        | error e =>
          rw [hgot] at h
          exact absurd h (Int.not_le.2 (CardBlock.getcntrlblock_neg hgot))
        | ok got =>
          have hatt := CardBlock.getcntrlblock_attached hgot
          dsimp only
          exact ⟨_, _, .of_got hgot (CardBlock.updatesDir_changed hatt hdir _ _ fun hlive => ⟨hlive, rfl⟩)⟩

theorem cardWriteLoop_finish (buf : Nat → BitVec 8) (o : CardWrites) (n : Nat) : ∀ {i usr : Nat} {s : CardFs},
    0 ≤ (cardWriteLoop buf now o n i usr s).2 →
    ∃ file flash, cardWriteLoop buf now o n i usr s = ({ s with file := file, flash := flash } : CardFs).finish now o.dir := by
  induction n with
  | zero => exact fun h => absurd h (by decide : ¬ 0 ≤ CARD_ERROR_BUSY)
  | succ n ih =>
    intro i usr s h
    rw [cardWriteLoop] at h ⊢
    split at h
    next herase => exact absurd h (Int.not_le.2 herase)
    next herase =>
      rw [if_neg herase]
      dsimp only at h ⊢
      split at h
      next hwrite => exact absurd h (Int.not_le.2 hwrite)
      next hwrite =>
        rw [if_neg hwrite]
        split at h
        · exact absurd h (by decide : ¬ 0 ≤ CARD_ERROR_CANCELED)
        next hlen =>
          rw [if_neg hlen]
          split at h
          next hdone =>
            rw [if_pos hdone]
            exact ⟨_, _, rfl⟩
          next hdone =>
            rw [if_neg hdone]
            split at h
            · exact absurd h (by decide : ¬ 0 ≤ CARD_ERROR_BROKEN)
            next hout =>
              rw [if_neg hout]
              obtain ⟨file, flash, hrest⟩ := ih h
              exact ⟨file, flash, hrest⟩

theorem cardWrite_finish (h : 0 ≤ (cardWrite s buf len offset now o).2) :
    ∃ file flash, cardWrite s buf len offset now o = ({ s with file := file, flash := flash } : CardFs).finish now o.dir := by
  unfold cardWrite at h ⊢
  dsimp only at h ⊢
  split at h
  next hseek => exact absurd h (Int.not_le.2 hseek)
  next hseek =>
    rw [if_neg hseek]
    split at h
    · exact absurd h (by decide : ¬ 0 ≤ CARD_ERROR_FATAL_ERROR)
    next haligned =>
      rw [if_neg haligned]
      obtain ⟨file, flash, hloop⟩ := cardWriteLoop_finish buf o _ h
      exact ⟨file, flash, hloop⟩

theorem cardWrite_changed (hdir : 0 ≤ o.dir) (h : 0 ≤ (cardWrite s buf len offset now o).2) :
    ∃ i e, CardChanged s.card (cardWrite s buf len offset now o).1.card i e := by
  obtain ⟨file, flash, hfinish⟩ := cardWrite_finish h
  rw [hfinish]
  unfold CardFs.finish
  dsimp only
  rw [if_neg (Int.not_lt.2 hdir)]
  exact ⟨_, _, ⟨rfl, rfl⟩, s.card.setEntry_written _ _, ⟨rfl, rfl⟩, fun hlive => ⟨hlive, rfl⟩⟩

theorem cardWrite_dirs (hdir : 0 ≤ o.dir) (h : 0 ≤ (cardWrite s buf len offset now o).2) :
    (cardWrite s buf len offset now o).1.dirs =
      Function.update s.dirs s.card.curr_dir (cardWrite s buf len offset now o).1.card.dirblock := by
  obtain ⟨file, flash, hfinish⟩ := cardWrite_finish h
  rw [hfinish]
  unfold CardFs.finish
  dsimp only
  rw [if_neg (Int.not_lt.2 hdir)]
  rfl

end Effects

end Libogc
