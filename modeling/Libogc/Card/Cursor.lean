import Libogc.Card.ReadWrite
import Libogc.Lib.Runs
import Mathlib.Data.List.Nodup
/-!
# Cursor — the block a file is at

A file that is open knows a block and an offset.  Seeks, reads that end anywhere in a sector and writes leave them together: the block is
the one of the chain that the offset is in (`CardCursor`).  So a walk from there ends where one from the start does (`card_cursor`).
-/
namespace Libogc

open Runs

/-- What mounting a card makes of its size and its sectors. -/
structure CardMounted (card : CardBlock) : Prop where
  sector : ∃ k, 13 ≤ k ∧ k ≤ 18 ∧ card.sector_size = 2 ^ k
  size : card.blocks * card.sector_size ≤ 2 ^ 24

/-- **A file of a mounted card**, whose blocks are `xs`. -/
structure CardFiled (card : CardBlock) (filenum : Int) (xs : List Nat) : Prop where
  mounted : CardMounted card
  accessible : card.accessible
  number : 0 ≤ filenum ∧ filenum < CARD_MAXFILES
  live : (card.dirblock.entries filenum.toNat).live
  chain : CardChain card.fatblock.fat (card.dirblock.entries filenum.toNat).block xs
  data : ∀ x ∈ xs, ¬ card.outside x
  nodup : xs.Nodup
  length : (card.dirblock.entries filenum.toNat).length = xs.length

/-- The block that a file is at is the one its offset is in. -/
def CardCursor (card : CardBlock) (xs : List Nat) (file : CardFile) : Prop :=
  0 ≤ file.offset ∧ xs[file.offset.toNat / card.sector_size]? = some file.iblock

/-! ## The chain -/

theorem CardChain.first {fat : Nat → Nat} {block : Nat} {xs : List Nat} (h : CardChain fat block xs) : block = xs[0]?.getD 0xffff := by
  cases xs with
  | nil => exact h
  | cons x xs => exact h.1

theorem CardChain.next {fat : Nat → Nat} {x : Nat} : ∀ {xs : List Nat} {block i : Nat}, CardChain fat block xs → xs[i]? = some x →
    fat (x - CARD_SYSAREA) = xs[i + 1]?.getD 0xffff
  | [], _, _, _, hi => by cases hi
  | y :: ys, _, 0, h, hi => by
    have hxy : y = x := Option.some.inj hi
    rw [← hxy]
    exact h.2.first
  | y :: ys, _, i + 1, h, hi => h.2.next (i := i) hi

section Filed
variable {card : CardBlock} {filenum : Int} {xs : List Nat} {file : CardFile}

theorem CardMounted.pos (h : CardMounted card) : 0 < card.sector_size := by
  obtain ⟨k, -, -, hk⟩ := h.sector
  rw [hk]
  exact Nat.two_pow_pos k

theorem CardMounted.le (h : CardMounted card) : card.sector_size ≤ 2 ^ 18 := by
  obtain ⟨k, -, hk', hk⟩ := h.sector
  rw [hk]
  exact Nat.pow_le_pow_right (by decide) hk'

theorem CardMounted.blocks (h : CardMounted card) : card.blocks ≤ 2 ^ 11 := by
  obtain ⟨k, hk', -, hk⟩ := h.sector
  have hle : 2 ^ 13 ≤ card.sector_size := by
    rw [hk]
    exact Nat.pow_le_pow_right (by decide) hk'
  have := Nat.le_trans (Nat.mul_le_mul_left card.blocks hle) h.size
  omega

variable {n i o b j offset : Nat}

theorem CardMounted.align (h : CardMounted card) (hn : n < 2 ^ 32) :
    cardAlign card.sector_size n = n / card.sector_size * card.sector_size := by
  obtain ⟨k, -, hk', hk⟩ := h.sector
  unfold cardAlign
  rw [hk, show BitVec.ofNat 32 (2 ^ k) = BitVec.twoPow 32 k by
    apply BitVec.eq_of_toNat_eq
    rw [BitVec.toNat_twoPow, BitVec.toNat_ofNat], and_not_mask_toNat _ (by omega), BitVec.toNat_ofNat, Nat.mod_eq_of_lt hn]
  unfold roundDown
  have := Nat.div_add_mod' n (2 ^ k)
  omega

theorem CardMounted.mask (h : CardMounted card) (n : Nat) : n &&& (card.sector_size - 1) = n % card.sector_size := by
  obtain ⟨k, -, -, hk⟩ := h.sector
  rw [hk]
  exact Nat.and_two_pow_sub_one_eq_mod n k

theorem CardFiled.size (h : CardFiled card filenum xs) : xs.length * card.sector_size ≤ 2 ^ 24 := by
  refine Nat.le_trans (Nat.mul_le_mul_right _ ?_) h.mounted.size
  have hsub : xs ⊆ List.range card.blocks := fun x hx => by
    have hx' := h.data x hx
    unfold CardBlock.outside at hx'
    exact List.mem_range.2 (by omega)
  have hlen := (List.subperm_of_subset h.nodup hsub).length_le
  rwa [List.length_range] at hlen

theorem CardFiled.next (h : CardFiled card filenum xs) (hi : xs[i]? = some file.iblock) :
    (card.outside (card.nextblock file) ↔ xs.length ≤ i + 1) ∧
      (¬ card.outside (card.nextblock file) → xs[i + 1]? = some (card.nextblock file)) := by
  have hnext : card.nextblock file = xs[i + 1]?.getD 0xffff := h.chain.next hi
  rw [hnext]
  by_cases hlen : i + 1 < xs.length
  · rw [List.getElem?_eq_getElem hlen, Option.getD_some]
    have hin := h.data _ (List.getElem_mem hlen)
    exact ⟨iff_of_false hin (Nat.not_le.2 hlen), fun _ => rfl⟩
  · rw [List.getElem?_eq_none (Nat.le_of_not_lt hlen), Option.getD_none]
    have hout : card.outside 0xffff := .inr (Nat.le_trans h.mounted.blocks (by decide))
    exact ⟨iff_of_true hout (Nat.le_of_not_lt hlen), fun hno => absurd hout hno⟩

/-- An offset in the chain is one of the machine, and so is one a sector behind it. -/
theorem CardFiled.offset_lt (h : CardFiled card filenum xs) (ho : xs[o / card.sector_size]? = some b) :
    o < xs.length * card.sector_size := by
  obtain ⟨hlt, -⟩ := List.getElem?_eq_some_iff.1 ho
  exact (Nat.div_lt_iff_lt_mul h.mounted.pos).1 hlt

theorem CardFiled.outside_not (h : CardFiled card filenum xs) (hi : xs[i]? = some b) : ¬ card.outside b :=
  h.data b (List.mem_of_getElem? hi)

/-! ## The walk -/

theorem CardFiled.advance (h : CardFiled card filenum xs) (ho : xs[o / card.sector_size]? = some b) :
    uint32 o = o ∧ s32 (o + card.sector_size : Nat) = (o + card.sector_size : Nat) := by
  have hlt := Nat.lt_of_lt_of_le (h.offset_lt ho) h.size
  have hss := h.mounted.le
  refine ⟨?_, s32_of_range (by omega) (by omega)⟩
  rw [uint32_natCast, Nat.mod_eq_of_lt (by omega)]

theorem CardFiled.walk_step (h : CardFiled card filenum xs) (hfile : file.offset = o)
    (ho : xs[o / card.sector_size]? = some file.iblock) (hj : o / card.sector_size < j) :
    cardSeekLoop card (j * card.sector_size) (n + 1) file =
      let file' := { file with offset := (o + card.sector_size : Nat), iblock := card.nextblock file }
      if card.outside file'.iblock then (file', false) else cardSeekLoop card (j * card.sector_size) n file' := by
  obtain ⟨huint, hs32⟩ := h.advance ho
  have hlt : uint32 file.offset < j * card.sector_size := by
    rw [hfile, huint]
    exact (Nat.div_lt_iff_lt_mul h.mounted.pos).1 hj
  rw [cardSeekLoop, if_pos hlt, hfile, huint, hs32]

theorem CardFiled.walk_end (h : CardFiled card filenum xs) (hfile : file.offset = o)
    (ho : xs[o / card.sector_size]? = some file.iblock) (hj : o / card.sector_size = j) :
    cardSeekLoop card (j * card.sector_size) n file = (file, true) := by
  cases n with
  | zero => rfl
  | succ n =>
    have hle : ¬ uint32 file.offset < j * card.sector_size := by
      rw [hfile, (h.advance ho).1, Nat.not_lt, ← hj]
      exact Nat.div_mul_le_self ..
    rw [cardSeekLoop, if_neg hle]

theorem CardFiled.walk (h : CardFiled card filenum xs) : ∀ {n o : Nat} {file : CardFile}, file.offset = o →
    xs[o / card.sector_size]? = some file.iblock → o / card.sector_size ≤ j → j ≤ o / card.sector_size + n →
      ((cardSeekLoop card (j * card.sector_size) n file).2 = true ↔ j < xs.length) ∧
        ((cardSeekLoop card (j * card.sector_size) n file).2 = true →
          xs[j]? = some (cardSeekLoop card (j * card.sector_size) n file).1.iblock) := by
  intro n
  induction n with
  | zero =>
    intro o file hfile ho hle hlast
    have hj : o / card.sector_size = j := by omega
    rw [h.walk_end hfile ho hj, ← hj]
    exact ⟨iff_of_true rfl (List.getElem?_eq_some_iff.1 ho).1, fun _ => ho⟩
  | succ n ih =>
    intro o file hfile ho hle hlast
    by_cases hj : o / card.sector_size = j
    · rw [h.walk_end hfile ho hj, ← hj]
      exact ⟨iff_of_true rfl (List.getElem?_eq_some_iff.1 ho).1, fun _ => ho⟩
    · have hdiv := Nat.add_div_right o h.mounted.pos
      obtain ⟨hout, hin⟩ := h.next ho
      rw [h.walk_step hfile ho (by omega)]
      dsimp only
      by_cases hno : card.outside (card.nextblock file)
      · rw [if_pos hno]
        have hend := hout.1 hno
        exact ⟨iff_of_false Bool.false_ne_true (by omega), fun hf => absurd hf Bool.false_ne_true⟩
      · rw [if_neg hno]
        refine ih rfl ?_ (by omega) (by omega)
        rw [hdiv]
        exact hin hno

theorem CardFile.moved_same (file : CardFile) (offset : Int) (iblock : Nat) :
    ({ file with offset := offset, iblock := iblock } : CardFile).filenum = file.filenum ∧
      ({ file with offset := offset, iblock := iblock } : CardFile).len = file.len := ⟨rfl, rfl⟩

theorem cardSeekLoop_same (card : CardBlock) (target : Nat) : ∀ (n : Nat) (file : CardFile),
    (cardSeekLoop card target n file).1.filenum = file.filenum ∧ (cardSeekLoop card target n file).1.len = file.len
  | 0, _ => ⟨rfl, rfl⟩
  | n + 1, file => by
    rw [cardSeekLoop]
    by_cases hlt : uint32 file.offset < target
    · rw [if_pos hlt]
      obtain ⟨hnum, hlen⟩ := file.moved_same (s32 (uint32 file.offset + card.sector_size : Nat)) (card.nextblock file)
      dsimp only
      split
      · exact ⟨hnum, hlen⟩
      · obtain ⟨hnum', hlen'⟩ := cardSeekLoop_same card target n
          { file with offset := s32 (uint32 file.offset + card.sector_size : Nat), iblock := card.nextblock file }
        exact ⟨hnum'.trans hnum, hlen'.trans hlen⟩
    · rw [if_neg hlt]
      exact ⟨rfl, rfl⟩

/-- Where a walk begins: at the cursor, or at the start if that is behind the offset. -/
def cardSeekStart (card : CardBlock) (file : CardFile) (len offset : Int) : CardFile :=
  if offset < file.offset then { file with len := len, offset := 0, iblock := (card.entry file).block } else { file with len := len }

theorem CardFiled.start (h : CardFiled card file.filenum xs) (hc : CardCursor card xs file) (ho : offset < 2 ^ 32) (len : Int) :
    ∃ o : Nat, (cardSeekStart card file len (s32 offset)).offset = o ∧ o / card.sector_size ≤ offset / card.sector_size ∧
      xs[o / card.sector_size]? = some (cardSeekStart card file len (s32 offset)).iblock := by
  obtain ⟨hpos, hblock⟩ := hc
  unfold cardSeekStart
  by_cases hback : s32 offset < file.offset
  · rw [if_pos hback]
    refine ⟨0, rfl, ?_, ?_⟩
    · rw [Nat.zero_div]
      exact Nat.zero_le _
    · have hne : 0 < xs.length := Nat.lt_of_le_of_lt (Nat.zero_le _) (List.getElem?_eq_some_iff.1 hblock).1
      have hfirst := h.chain.first
      rw [Nat.zero_div, List.getElem?_eq_getElem hne]
      rw [List.getElem?_eq_getElem hne, Option.getD_some] at hfirst
      exact congrArg some hfirst.symm
  · rw [if_neg hback]
    refine ⟨file.offset.toNat, (Int.toNat_of_nonneg hpos).symm, Nat.div_le_div_right ?_, hblock⟩
    -- an offset that is not before the cursor is no negative one
    rw [s32_eq, Nat.mod_eq_of_lt ho] at hback
    split at hback
    · omega
    · omega

/-- What a walk comes to: it ends in the block of the offset, if the file has one. -/
structure CardSought (card : CardBlock) (xs : List Nat) (file : CardFile) (len : Int) (offset : Nat) (r : CardFile × Int) : Prop where
  ready : r.2 = CARD_ERROR_READY ↔ offset / card.sector_size < xs.length
  broken : r.2 ≠ CARD_ERROR_READY → r.2 = CARD_ERROR_BROKEN
  offset_eq : r.2 = CARD_ERROR_READY → r.1.offset = offset
  iblock : r.2 = CARD_ERROR_READY → xs[offset / card.sector_size]? = some r.1.iblock
  len_eq : r.1.len = len
  filenum_eq : r.1.filenum = file.filenum

theorem cardSeekWalk_eq (card : CardBlock) (file : CardFile) (len offset : Int)
    (h : ¬ card.outside (cardSeekStart card file len offset).iblock) : cardSeekWalk card file len offset =
      let target := cardAlign card.sector_size (uint32 offset)
      let r := cardSeekLoop card target target (cardSeekStart card file len offset)
      if r.2 then ({ r.1 with offset := offset }, CARD_ERROR_READY) else (r.1, CARD_ERROR_BROKEN) := by
  unfold cardSeekStart at h ⊢
  unfold cardSeekWalk
  by_cases hback : offset < file.offset
  · rw [if_pos hback] at h
    simp only [hback, if_true, true_and]
    exact if_neg h
  · simp only [hback, if_false, false_and]

theorem CardFiled.seekWalk (h : CardFiled card file.filenum xs) (hc : CardCursor card xs file) (ho : offset < 2 ^ 32) (len : Int) :
    CardSought card xs file len offset (cardSeekWalk card file len (s32 offset)) := by
  obtain ⟨o, hoff, hle, hblock⟩ := h.start hc ho len
  rw [cardSeekWalk_eq card file len _ (h.outside_not hblock)]
  have htarget : cardAlign card.sector_size (uint32 (s32 offset)) = offset / card.sector_size * card.sector_size := by
    rw [uint32_s32, Nat.mod_eq_of_lt ho, h.mounted.align ho]
  have hfuel : offset / card.sector_size ≤ offset / card.sector_size * card.sector_size := Nat.le_mul_of_pos_right _ h.mounted.pos
  rw [htarget]
  obtain ⟨hready, hiblock⟩ := h.walk (n := offset / card.sector_size * card.sector_size) hoff hblock hle
    (Nat.le_trans hfuel (Nat.le_add_left ..))
  have hsame := cardSeekLoop_same card (offset / card.sector_size * card.sector_size) (offset / card.sector_size * card.sector_size)
    (cardSeekStart card file len (s32 offset))
  have hstart : (cardSeekStart card file len (s32 offset)).filenum = file.filenum ∧ (cardSeekStart card file len (s32 offset)).len = len := by
    unfold cardSeekStart
    split
    · exact ⟨rfl, rfl⟩
    · exact ⟨rfl, rfl⟩
  rw [hstart.1, hstart.2] at hsame
  dsimp only
  generalize cardSeekLoop card _ _ _ = r at hready hiblock hsame ⊢
  by_cases hr : r.2 = true
  · rw [if_pos hr]
    have hin := hready.1 hr
    have hsize : offset < 2 ^ 31 := by
      have := Nat.lt_of_lt_of_le ((Nat.div_lt_iff_lt_mul h.mounted.pos).1 hin) h.size
      omega
    have hs32 : s32 offset = offset := s32_of_range (by omega) (by omega)
    rw [hs32]
    exact ⟨iff_of_true rfl hin, fun hno => absurd rfl hno, fun _ => rfl, fun _ => hiblock hr, hsame.2, hsame.1⟩
  · rw [if_neg hr]
    have hbroken : CARD_ERROR_BROKEN ≠ CARD_ERROR_READY := by decide
    exact ⟨iff_of_false hbroken fun hin => hr (hready.2 hin), fun _ => rfl, fun hf => absurd hf hbroken, fun hf => absurd hf hbroken, hsame.2,
      hsame.1⟩

theorem CardSought.cursor {len : Int} {r : CardFile × Int} (h : CardSought card xs file len offset r) (hr : r.2 = CARD_ERROR_READY) :
    CardCursor card xs r.1 := by
  unfold CardCursor
  rw [h.offset_eq hr]
  exact ⟨Int.natCast_nonneg _, h.iblock hr⟩

theorem CardFiled.seek (h : CardFiled card file.filenum xs) (hc : CardCursor card xs file) (ho : offset < 2 ^ 32) (len : Nat) :
    (cardRefuses (card.entry file).length card.sector_size (s32 len) (s32 offset) ∧
        cardSeek card file (s32 len) (s32 offset) = (file, CARD_ERROR_LIMIT)) ∨
      (¬ cardRefuses (card.entry file).length card.sector_size (s32 len) (s32 offset) ∧
        CardSought card xs file (s32 len) offset (cardSeek card file (s32 len) (s32 offset))) := by
  have hwalk := h.seekWalk hc ho (s32 len)
  have hlive : (card.entry file).live := h.live
  unfold cardSeek
  rw [if_neg (by have := h.number; omega), CardBlock.getcntrlblock_accessible h.accessible]
  dsimp only
  rw [if_neg (h.outside_not hc.2), if_pos hlive]
  by_cases hr : cardRefuses (card.entry file).length card.sector_size (s32 len) (s32 offset)
  · rw [if_pos hr]
    exact .inl ⟨hr, rfl⟩
  · rw [if_neg hr]
    exact .inr ⟨hr, hwalk⟩

theorem CardFiled.accepts (h : CardFiled card file.filenum xs) {len : Nat} (hlt : offset < xs.length * card.sector_size)
    (hle : offset + len ≤ xs.length * card.sector_size) :
    ¬ cardRefuses (card.entry file).length card.sector_size (s32 len) (s32 offset) := by
  have hsize := h.size
  have hlen : (card.entry file).length = xs.length := h.length
  refine ((cardRefuses_iff (by omega) (by omega)).2 ?_).2 ?_
  · rw [hlen]
    unfold cardRangeExact
    generalize xs.length * card.sector_size = size at hlt hle hsize
    dsimp only
    rw [if_pos (by omega), if_pos (by omega)]
    omega
  · rw [hlen]
    exact ⟨hlt, hle⟩

/-! ## Reads -/

theorem CardCursor.relen (hc : CardCursor card xs file) (len : Int) : CardCursor card xs { file with len := len } := hc

theorem CardFiled.rest (h : CardFiled card filenum xs) (ho : xs[o / card.sector_size]? = some b) :
    (uint32 (cardAlign card.sector_size (u32 (uint32 o + card.sector_size)) - o) : Int) =
        ((o / card.sector_size + 1) * card.sector_size : Nat) - o ∧
      s32 (o + (uint32 (cardAlign card.sector_size (u32 (uint32 o + card.sector_size)) - o) : Int)) =
        ((o / card.sector_size + 1) * card.sector_size : Nat) := by
  have hlt := Nat.lt_of_lt_of_le (h.offset_lt ho) h.size
  have hss := h.mounted.le
  have hdiv := Nat.add_div_right o h.mounted.pos
  have hmod := Nat.div_add_mod' o card.sector_size
  have hmodlt := Nat.mod_lt o h.mounted.pos
  have hnext : (o / card.sector_size + 1) * card.sector_size = o / card.sector_size * card.sector_size + card.sector_size := Nat.succ_mul ..
  have halign : cardAlign card.sector_size (u32 (uint32 o + card.sector_size)) = (o / card.sector_size + 1) * card.sector_size := by
    rw [(h.advance ho).1, u32_of_lt (by omega), h.mounted.align (by omega), hdiv]
  have hrest : (uint32 (cardAlign card.sector_size (u32 (uint32 o + card.sector_size)) - o) : Int) =
      ((o / card.sector_size + 1) * card.sector_size : Nat) - o := by
    rw [halign, uint32_of_range (by omega) (by omega), Int.toNat_of_nonneg (by omega)]
  refine ⟨hrest, ?_⟩
  have hsum : (o : Int) + (((o / card.sector_size + 1) * card.sector_size : Nat) - o) = ((o / card.sector_size + 1) * card.sector_size : Nat) := by
    omega
  rw [hrest, hsum]
  exact s32_of_range (by omega) (by omega)

theorem CardFiled.next_cursor (h : CardFiled card file.filenum xs) {o' : Nat} (ho : xs[o / card.sector_size]? = some file.iblock)
    (hdiv : o' / card.sector_size = o / card.sector_size + 1) (hin : ¬ card.outside (card.nextblock file)) (len : Int) :
    CardCursor card xs { file with len := len, offset := o', iblock := card.nextblock file } := by
  refine ⟨Int.natCast_nonneg _, ?_⟩
  show xs[o' / card.sector_size]? = some (card.nextblock file)
  rw [hdiv]
  exact (h.next ho).2 hin

theorem CardFiled.readLoop_step (h : CardFiled card filenum xs) (reads : CardReads) (hfile : file.offset = o)
    (ho : xs[o / card.sector_size]? = some file.iblock) : cardReadLoop card reads (n + 1) i file =
      if reads.result i < 0 then (file, reads.result i, [])
      else if file.len < 0 then (file, CARD_ERROR_CANCELED, [])
      else
        let len := s32 (file.len - (((o / card.sector_size + 1) * card.sector_size : Nat) - o))
        if len > 0 then
          let file' := { file with len := len, offset := ((o / card.sector_size + 1) * card.sector_size : Nat), iblock := card.nextblock file }
          if card.outside (card.nextblock file) then (file', CARD_ERROR_BROKEN, [])
          else if reads.start (i + 1) ≥ 0 then
            let r := cardReadLoop card reads n (i + 1) file'
            (r.1, r.2.1, (card.nextblock file * card.sector_size, if uint32 len < card.sector_size then uint32 len else card.sector_size) :: r.2.2)
          else (file', reads.result i, [])
        else ({ file with len := len }, reads.result i, []) := by
  obtain ⟨hrest, hoff⟩ := h.rest ho
  rw [cardReadLoop, hfile]
  dsimp only
  rw [hoff, hrest]
  rfl

theorem CardFiled.readLoop (h : CardFiled card filenum xs) (reads : CardReads) : ∀ {n i : Nat} {file : CardFile}, file.filenum = filenum →
    CardCursor card xs file → let r := cardReadLoop card reads n i file
      0 ≤ r.2.1 → CardCursor card xs r.1 ∧ r.1.filenum = filenum := by
  intro n
  induction n with
  | zero => exact fun _ _ hbusy => absurd hbusy (by decide : ¬ 0 ≤ CARD_ERROR_BUSY)
  | succ n ih =>
    intro i file hnum hc
    obtain ⟨o, hfile⟩ := Int.eq_ofNat_of_zero_le hc.1
    have ho := hc.2
    rw [hfile, Int.toNat_natCast] at ho
    rw [h.readLoop_step reads hfile ho]
    dsimp only
    generalize s32 _ = len
    have hdiv := Nat.mul_div_cancel (o / card.sector_size + 1) h.mounted.pos
    by_cases hres : reads.result i < 0
    · rw [if_pos hres]
      exact fun hpos => absurd hpos (Int.not_le.2 hres)
    · rw [if_neg hres]
      by_cases hlen : file.len < 0
      · rw [if_pos hlen]
        exact fun hpos => absurd hpos (by decide : ¬ 0 ≤ CARD_ERROR_CANCELED)
      · rw [if_neg hlen]
        by_cases hmore : len > 0
        · rw [if_pos hmore]
          by_cases hout : card.outside (card.nextblock file)
          · rw [if_pos hout]
            exact fun hpos => absurd hpos (by decide : ¬ 0 ≤ CARD_ERROR_BROKEN)
          · rw [if_neg hout]
            have hnext := (hnum ▸ h).next_cursor ho hdiv hout len
            by_cases hstart : reads.start (i + 1) ≥ 0
            · rw [if_pos hstart]
              exact ih hnum hnext
            · -- the transfer that was not started is taken for the end
              rw [if_neg hstart]
              exact fun _ => ⟨hnext, hnum⟩
        · rw [if_neg hmore]
          exact fun _ => ⟨hc.relen len, hnum⟩

end Filed

/-! ## Writes -/

section Write
variable {s : CardFs} {xs : List Nat}

/-- The directory that the end of a write makes current. -/
def CardFs.written (s : CardFs) (now : Nat) : CardDat :=
  (s.card.setDirblock { s.card.dirblock with
    entries := Function.update s.card.dirblock.entries s.file.filenum.toNat
      { s.card.dirblock.entries s.file.filenum.toNat with lastmodified := u32 now } }).updatedir.dirblock

theorem CardFs.written_entries (s : CardFs) (now : Nat) : (s.written now).entries =
    Function.update s.card.dirblock.entries s.file.filenum.toNat
      { s.card.dirblock.entries s.file.filenum.toNat with lastmodified := u32 now } ∧ (s.written now).pad = s.card.dirblock.pad := by
  unfold written CardBlock.updatedir
  simp only [CardBlock.dirblock_setDirblock, and_self]

theorem CardFs.finish_eq (s : CardFs) (now : Nat) {dir : Int} (hd : 0 ≤ dir) : s.finish now dir =
    ({ s with
        card := { s.card with dat := fun _ => s.written now, curr_dir := s.card.curr_dir.rev }
        dirs := Function.update s.dirs s.card.curr_dir (s.written now) }, dir) := by
  unfold finish
  dsimp only
  rw [if_neg (Int.not_lt.2 hd)]
  rfl

theorem CardFiled.finish (h : CardFiled s.card s.file.filenum xs) (now : Nat) :
    CardFiled { s.card with dat := fun _ => s.written now, curr_dir := s.card.curr_dir.rev } s.file.filenum xs := by
  have hentry : (s.written now).entries s.file.filenum.toNat =
      { s.card.dirblock.entries s.file.filenum.toNat with lastmodified := u32 now } := by
    rw [(s.written_entries now).1, Function.update_self]
  generalize hd : s.written now = d at hentry ⊢
  refine ⟨⟨h.mounted.sector, h.mounted.size⟩, h.accessible, h.number, ?_, ?_, h.data, h.nodup, ?_⟩
  · show (d.entries _).live
    rw [hentry]
    exact h.live
  · show CardChain s.card.fatblock.fat (d.entries _).block xs
    rw [hentry]
    exact h.chain
  · show (d.entries _).length = _
    rw [hentry]
    exact h.length

/-- The erasure and the programming of a sector, at an offset of the chain. -/
theorem CardFiled.writeLoop_step (h : CardFiled s.card s.file.filenum xs) (buf : Nat → BitVec 8) (now : Nat) (writes : CardWrites)
    {o n i usr : Nat} (hfile : s.file.offset = o) (ho : xs[o / s.card.sector_size]? = some s.file.iblock) :
    cardWriteLoop buf now writes (n + 1) i usr s =
      let erased := Flash.erase s.flash (cardAddr (s.file.iblock * s.card.sector_size)) s.card.sector_size
      let flash := cardBlockwrite buf (s.card.sector_size >>> 7) (s.file.iblock * s.card.sector_size) usr erased
      let len := s32 (s.file.len - s.card.sector_size)
      if writes.erase i < 0 then (s, writes.erase i)
      else if writes.write i < 0 then ({ s with flash := erased }, writes.write i)
      else if s.file.len < 0 then ({ s with flash := flash }, CARD_ERROR_CANCELED)
      else if len ≤ 0 then CardFs.finish { s with flash := flash, file := { s.file with len := len } } now writes.dir
      else
        let file' := { s.file with len := len, offset := (o + s.card.sector_size : Nat), iblock := s.card.nextblock s.file }
        if s.card.outside (s.card.nextblock s.file) then ({ s with flash := flash, file := file' }, CARD_ERROR_BROKEN)
        else cardWriteLoop buf now writes n (i + 1) (usr + s.card.sector_size) { s with flash := flash, file := file' } := by
  have hoff : s32 (s.file.offset + s.card.sector_size) = (o + s.card.sector_size : Nat) := by
    rw [hfile, ← Int.natCast_add]
    exact (h.advance ho).2
  rw [cardWriteLoop]
  dsimp only
  rw [hoff]
  rfl

/-- **A write that succeeds leaves the block where the offset is**, and the file's chain as it is. -/
theorem CardFiled.writeLoop (buf : Nat → BitVec 8) (now : Nat) (writes : CardWrites) : ∀ {n i usr : Nat} {s : CardFs},
    CardFiled s.card s.file.filenum xs → CardCursor s.card xs s.file → let r := cardWriteLoop buf now writes n i usr s
      0 ≤ r.2 → CardFiled r.1.card r.1.file.filenum xs ∧ CardCursor r.1.card xs r.1.file := by
  intro n
  induction n with
  | zero => exact fun _ _ hbusy => absurd hbusy (by decide : ¬ 0 ≤ CARD_ERROR_BUSY)
  | succ n ih =>
    intro i usr s h hc
    obtain ⟨o, hfile⟩ := Int.eq_ofNat_of_zero_le hc.1
    have ho := hc.2
    rw [hfile, Int.toNat_natCast] at ho
    rw [h.writeLoop_step buf now writes hfile ho]
    dsimp only
    generalize s32 _ = len
    by_cases herase : writes.erase i < 0
    · rw [if_pos herase]
      exact fun hpos => absurd hpos (Int.not_le.2 herase)
    · rw [if_neg herase]
      by_cases hwrite : writes.write i < 0
      · rw [if_pos hwrite]
        exact fun hpos => absurd hpos (Int.not_le.2 hwrite)
      · rw [if_neg hwrite]
        by_cases hlen : s.file.len < 0
        · rw [if_pos hlen]
          exact fun hpos => absurd hpos (by decide : ¬ 0 ≤ CARD_ERROR_CANCELED)
        · rw [if_neg hlen]
          by_cases hend : len ≤ 0
          · rw [if_pos hend]
            by_cases hdir : 0 ≤ writes.dir
            · rw [CardFs.finish_eq _ _ hdir]
              exact fun _ => ⟨CardFiled.finish h now, hc.relen len⟩
            · intro hpos
              unfold CardFs.finish at hpos
              dsimp only at hpos
              rw [if_pos (Int.not_le.1 hdir)] at hpos
              exact absurd hpos hdir
          · rw [if_neg hend]
            by_cases hout : s.card.outside (s.card.nextblock s.file)
            · rw [if_pos hout]
              exact fun hpos => absurd hpos (by decide : ¬ 0 ≤ CARD_ERROR_BROKEN)
            · rw [if_neg hout]
              exact ih h (h.next_cursor ho (Nat.add_div_right o h.mounted.pos) hout len)

end Write

/-! ## Runs -/

/-- The calls on a file that is open. -/
inductive CardCall
  | read (len offset : Nat) (reads : CardReads)
  | write (buf : Nat → BitVec 8) (len offset now : Nat) (writes : CardWrites)

def CardCall.len : CardCall → Nat
  | read len _ _ | write _ len _ _ _ => len

def CardCall.offset : CardCall → Nat
  | read _ offset _ | write _ _ offset _ _ => offset

def CardFs.call (s : CardFs) : CardCall → CardFs × Int
  | .read len offset reads =>
    let r := cardRead s.card s.file len offset reads
    ({ s with file := r.1 }, r.2.1)
  | .write buf len offset now writes => cardWrite s buf len offset now writes

/-- The check of `__card_seek` refuses the call. -/
def CardFs.limits (s : CardFs) (c : CardCall) : Prop := (cardSeek s.card s.file (s32 c.len) (s32 c.offset)).2 = CARD_ERROR_LIMIT

instance (s : CardFs) (c : CardCall) : Decidable (s.limits c) := inferInstanceAs (Decidable (_ = _))

/-- Calls that succeed, and calls whose range is refused. -/
def cardFsSystem : System CardFs CardCall where
  enabled s c := c.len < 2 ^ 32 ∧ c.offset < 2 ^ 32 ∧ (0 ≤ (s.call c).2 ∨ s.limits c)
  next s c := (s.call c).1

instance (s : CardFs) (c : CardCall) : Decidable (cardFsSystem.enabled s c) := inferInstanceAs (Decidable (_ ∧ _))

/-- A file that `CARD_Open` has opened. -/
structure CardOpened (s : CardFs) (xs : List Nat) : Prop where
  filed : CardFiled s.card s.file.filenum xs
  offset : s.file.offset = 0
  iblock : s.file.iblock = (s.card.entry s.file).block
  inside : ¬ s.card.outside s.file.iblock

section Runs
variable {s : CardFs} {xs : List Nat}

/-- What holds between the calls. -/
def CardKept (xs : List Nat) (s : CardFs) : Prop := CardFiled s.card s.file.filenum xs ∧ CardCursor s.card xs s.file

theorem CardOpened.kept (h : CardOpened s xs) : CardKept xs s := by
  refine ⟨h.filed, Int.le_of_eq h.offset.symm, ?_⟩
  have hfirst : s.file.iblock = xs[0]?.getD 0xffff := h.iblock.trans h.filed.chain.first
  rw [h.offset, Int.toNat_zero, Nat.zero_div]
  cases xs with
  | nil =>
    -- a chain without blocks begins behind the card
    refine absurd ?_ h.inside
    rw [hfirst]
    exact .inr (Nat.le_trans h.filed.mounted.blocks (by decide))
  | cons x xs => exact congrArg some hfirst.symm

variable {offset : Nat}

/-- A seek that succeeds keeps it, and a range that is refused leaves the file. -/
theorem CardKept.seek (h : CardKept xs s) (ho : offset < 2 ^ 32) (len : Nat) :
    (cardSeek s.card s.file (s32 len) (s32 offset)).2 = CARD_ERROR_LIMIT ∧ cardSeek s.card s.file (s32 len) (s32 offset) = (s.file, CARD_ERROR_LIMIT) ∨
      (cardSeek s.card s.file (s32 len) (s32 offset)).2 ≠ CARD_ERROR_LIMIT ∧
        (0 ≤ (cardSeek s.card s.file (s32 len) (s32 offset)).2 → CardKept xs { s with file := (cardSeek s.card s.file (s32 len) (s32 offset)).1 }) := by
  rcases h.1.seek h.2 ho len with ⟨-, hseek⟩ | ⟨-, hsought⟩
  · exact .inl ⟨by rw [hseek], hseek⟩
  · generalize cardSeek s.card s.file (s32 len) (s32 offset) = r at hsought ⊢
    by_cases hr : r.2 = CARD_ERROR_READY
    · refine .inr ⟨by rw [hr]; decide, fun _ => ⟨?_, hsought.cursor hr⟩⟩
      show CardFiled s.card r.1.filenum xs
      rw [hsought.filenum_eq]
      exact h.1
    · have hbroken := hsought.broken hr
      exact .inr ⟨by rw [hbroken]; decide, fun hpos => absurd hpos (by rw [hbroken]; decide)⟩

theorem CardKept.read (h : CardKept xs s) {len : Nat} (ho : offset < 2 ^ 32) (reads : CardReads)
    (hok : 0 ≤ (cardRead s.card s.file len offset reads).2.1 ∨ (cardSeek s.card s.file (s32 len) (s32 offset)).2 = CARD_ERROR_LIMIT) :
    CardKept xs { s with file := (cardRead s.card s.file len offset reads).1 } := by
  unfold cardRead at hok ⊢
  by_cases hargs : len = 0 ∨ len &&& 0x1ff ≠ 0 ∨ (offset > 0 ∧ offset &&& 0x1ff ≠ 0)
  · rw [if_pos hargs]
    exact h
  · rw [if_neg hargs] at hok ⊢
    rcases h.seek ho len with ⟨-, hseek⟩ | ⟨hlimit, hkept⟩
    · rw [hseek]
      exact h
    · have hpos := hok.resolve_right hlimit
      generalize cardSeek s.card s.file (s32 len) (s32 offset) = r at hpos hkept ⊢
      dsimp only at hpos ⊢
      by_cases hr : r.2 < 0
      · rw [if_pos hr] at hpos
        exact absurd hpos (Int.not_le.2 hr)
      · rw [if_neg hr] at hpos ⊢
        by_cases hstart : reads.start 0 < 0
        · rw [if_pos hstart] at hpos
          exact absurd hpos (Int.not_le.2 hstart)
        · rw [if_neg hstart] at hpos ⊢
          obtain ⟨hfiled, hcursor⟩ := hkept (Int.not_lt.1 hr)
          obtain ⟨hcursor', hnum⟩ := CardFiled.readLoop hfiled reads rfl hcursor hpos
          refine ⟨?_, hcursor'⟩
          show CardFiled s.card _ xs
          rw [hnum]
          exact hfiled

theorem CardKept.write (h : CardKept xs s) (buf : Nat → BitVec 8) {len : Nat} (ho : offset < 2 ^ 32) (now : Nat) (writes : CardWrites)
    (hok : 0 ≤ (cardWrite s buf len offset now writes).2 ∨ (cardSeek s.card s.file (s32 len) (s32 offset)).2 = CARD_ERROR_LIMIT) :
    CardKept xs (cardWrite s buf len offset now writes).1 := by
  unfold cardWrite at hok ⊢
  rcases h.seek ho len with ⟨-, hseek⟩ | ⟨hlimit, hkept⟩
  · rw [hseek]
    exact h
  · have hpos := hok.resolve_right hlimit
    generalize cardSeek s.card s.file (s32 len) (s32 offset) = r at hpos hkept ⊢
    dsimp only at hpos ⊢
    by_cases hr : r.2 < 0
    · rw [if_pos hr] at hpos
      exact absurd hpos (Int.not_le.2 hr)
    · rw [if_neg hr] at hpos ⊢
      by_cases hmis : cardMisaligned s.card.sector_size len offset
      · rw [if_pos hmis] at hpos
        exact absurd hpos (by decide : ¬ 0 ≤ CARD_ERROR_FATAL_ERROR)
      · rw [if_neg hmis] at hpos ⊢
        obtain ⟨hfiled, hcursor⟩ := hkept (Int.not_lt.1 hr)
        exact CardFiled.writeLoop buf now writes hfiled hcursor hpos

theorem CardKept.step (h : CardKept xs s) {c : CardCall} (hc : cardFsSystem.enabled s c) : CardKept xs (cardFsSystem.next s c) := by
  obtain ⟨-, ho, hok⟩ := hc
  cases c with
  | read len offset reads => exact h.read ho reads hok
  | write buf len offset now writes => exact h.write buf ho now writes hok

/-- **The cursor.**  After any calls on a file that was opened, of which those that failed were out of range, a seek ends in the block that a
walk from the start of the file would end in; and it does not fail within the file. -/
theorem card_cursor (h : CardOpened s xs) {calls : List CardCall} (hl : cardFsSystem.Legal s calls) {len offset : Nat}
    (ho : offset < 2 ^ 32) : let s' := cardFsSystem.run s calls
      let r := cardSeek s'.card s'.file (s32 len) (s32 offset)
      (r.2 = CARD_ERROR_READY → xs[offset / s'.card.sector_size]? = some r.1.iblock) ∧
        (offset < xs.length * s'.card.sector_size → offset + len ≤ xs.length * s'.card.sector_size → r.2 = CARD_ERROR_READY) := by
  have hkept : CardKept xs (cardFsSystem.run s calls) := System.Legal.invariant (fun _ _ hi he => hi.step he) h.kept hl
  generalize cardFsSystem.run s calls = s' at hkept ⊢
  obtain ⟨hfiled, hcursor⟩ := hkept
  dsimp only
  rcases hfiled.seek hcursor ho len with ⟨hrefuses, hseek⟩ | ⟨-, hsought⟩
  · rw [hseek]
    refine ⟨fun hr => absurd hr (by decide : CARD_ERROR_LIMIT ≠ CARD_ERROR_READY), fun hlt hle => ?_⟩
    exact absurd hrefuses (hfiled.accepts hlt hle)
  · refine ⟨hsought.iblock, fun hlt _ => hsought.ready.2 ?_⟩
    exact (Nat.div_lt_iff_lt_mul hfiled.mounted.pos).2 hlt

end Runs

/-- A card with a file in the blocks 5 and 7. -/
def cardFs0 : CardFs where
  card := { cardSeek0 with
    dat := fun _ => { (default : CardDat) with entries := fun _ => { (default : CardDirentry) with block := 5, length := 2 } }
    bat := fun _ => { chksum1 := 0, chksum2 := 0, updated := 0, freeblocks := 57, lastalloc := 7
                      fat := fun i => if i = 0 then 7 else if i = 2 then 0xffff else 0 } }
  file := ⟨0, 0, 16384, 5⟩
  flash := fun _ => 0
  dirs := fun _ => default

theorem cardFs0_opened : CardOpened cardFs0 [5, 7] where
  filed :=
    { mounted := ⟨⟨13, by decide, by decide, rfl⟩, by decide⟩, accessible := by decide, number := by decide, live := by decide
      chain := ⟨rfl, rfl, rfl⟩, data := by decide, nodup := by decide, length := rfl }
  offset := rfl
  iblock := rfl
  inside := by decide

/-- A read that ends in the second block, and a write of the first. -/
def cardCalls0 : List CardCall :=
  [.read 0x400 0x1e00 ⟨fun _ => 0, fun _ => 0⟩, .write (fun _ => 1) 0x2000 0 0 ⟨fun _ => 0, fun _ => 0, 0⟩]

theorem card_cursor_two : let s' := cardFsSystem.run cardFs0 cardCalls0
    let r := cardSeek s'.card s'.file (s32 0x200) (s32 0x2000)
    (r.2 = CARD_ERROR_READY → [5, 7][0x2000 / s'.card.sector_size]? = some r.1.iblock) ∧
      (0x2000 < [5, 7].length * s'.card.sector_size → 0x2000 + 0x200 ≤ [5, 7].length * s'.card.sector_size → r.2 = CARD_ERROR_READY) :=
  card_cursor cardFs0_opened (by decide) (by decide)

end Libogc
