import Libogc.Card.Card
/-!
# Verify — which copies a card is mounted with

`__card_checkdir` and `__card_checkfat` look at the two copies of their kind, choose the one that is written next, and put the other one's
contents in it.  `__card_verify` adds up the bad copies of both kinds, and does not see of which kind they are (`card_verify`).
-/
namespace Libogc

/-- What a card is mounted with: the work area and the copies that are selected. -/
structure CardWork where
  blocks : Nat
  blocks_lt : blocks < 2 ^ 16
  dat : Fin 2 → CardDat
  bat : Fin 2 → CardBat
  curr_dir : Option (Fin 2)
  curr_fat : Option (Fin 2)

/-- What the loop of a checker has come to. -/
structure CardBad where
  curr : Option (Fin 2)
  bad_copy : Fin 2
  bad : Nat
  deriving DecidableEq, Repr

section Check
variable {α : Type} (good : α → Bool) (updated : α → Nat) (copies : Fin 2 → α)

/-- A copy is looked at. -/
def cardCheckStep (s : CardBad) (copy : Fin 2) : CardBad := if good (copies copy) then s else ⟨none, copy, s.bad + 1⟩

/-- The checkers, each of one kind of copies; the last is the number of bad ones. -/
def cardCheck (curr : Option (Fin 2)) : (Fin 2 → α) × Fin 2 × Nat :=
  let s := [0, 1].foldl (cardCheckStep good copies) ⟨curr, 0, 0⟩
  let copy : Fin 2 := if s.bad = 0 then if updated (copies 0) < updated (copies 1) then 0 else 1 else s.bad_copy
  match s.curr with
  | none => (Function.update copies copy (copies copy.rev), copy, s.bad)
  | some curr => (copies, curr, s.bad)

end Check

/-- The check of a directory's checksums -/
def CardDat.checks (d : CardDat) : Bool := cardChecksum d.words = (d.chksum1, d.chksum2)

/-- The free blocks as `__card_checkfat` counts them -/
def cardCountfree (blocks : Nat) (fat : Nat → Nat) : Nat :=
  (cardDataBlocks blocks).foldl (fun freeblocks b => if fat (b - CARD_SYSAREA) = 0 then (freeblocks + 1) % 2 ^ 16 else freeblocks) 0

/-- The checks of a table -/
def CardBat.checks (blocks : Nat) (b : CardBat) : Bool :=
  cardChecksum b.words = (b.chksum1, b.chksum2) ∧ cardCountfree blocks b.fat = b.freeblocks

/-- `__card_checkdir`; the number of the copy is given to nobody. -/
def cardCheckdir (card : CardWork) : CardWork × Nat :=
  let r := cardCheck CardDat.checks CardDat.updated card.dat card.curr_dir
  ({ card with dat := r.1, curr_dir := some r.2.1 }, r.2.2)

/-- `__card_checkfat`, likewise -/
def cardCheckfat (card : CardWork) : CardWork × Nat :=
  let r := cardCheck (CardBat.checks card.blocks) CardBat.updated card.bat card.curr_fat
  ({ card with bat := r.1, curr_fat := some r.2.1 }, r.2.2)

/-- `__card_verify` -/
def cardVerify (card : CardWork) : CardWork × Int :=
  let dir := cardCheckdir card
  let fat := cardCheckfat dir.1
  if dir.2 + fat.2 ≤ 2 ∧ fat.1.curr_dir.isSome ∧ fat.1.curr_fat.isSome then (fat.1, CARD_ERROR_READY) else (fat.1, CARD_ERROR_BROKEN)

/-! ## What is selected -/

/-- The checksums are right. -/
def CardDat.valid (d : CardDat) : Prop := cardChecksum d.words = (d.chksum1, d.chksum2)

/-- The checksums are right, and so is the number of free blocks. -/
def CardBat.valid (blocks : Nat) (b : CardBat) : Prop := cardChecksum b.words = (b.chksum1, b.chksum2) ∧ b.freeblocks = cardFree blocks b.fat

/-- The contents that a checker selects are those of a valid copy, and of the later one if both are. -/
structure CardSelected {α : Type} (valid : α → Prop) (updated : α → Nat) (copies : Fin 2 → α) (a : α) : Prop where
  copy : ∃ i, a = copies i ∧ valid (copies i)
  later : (∀ i, valid (copies i)) → ∀ i, updated (copies i) ≤ updated a

/-- A card that is in order for `__card_verify`, which begins with nothing selected, has such contents of both kinds. -/
def CardVerified (card : CardWork) : Prop :=
  let r := cardVerify { card with curr_dir := none, curr_fat := none }
  r.2 = CARD_ERROR_READY → ∃ dir fat, r.1.curr_dir = some dir ∧ r.1.curr_fat = some fat ∧
    CardSelected CardDat.valid CardDat.updated card.dat (r.1.dat dir) ∧ CardSelected (CardBat.valid card.blocks) CardBat.updated card.bat (r.1.bat fat)

section Copies
variable {α : Type} {good : α → Bool} {updated : α → Nat} {copies : Fin 2 → α}

/-- The number of bad copies. -/
def cardBadCopies (good : α → Bool) (copies : Fin 2 → α) : Nat := [0, 1].countP fun i => !good (copies i)

theorem cardBadCopies_eq : cardBadCopies good copies = (if good (copies 0) then 0 else 1) + if good (copies 1) then 0 else 1 := by
  unfold cardBadCopies
  cases h0 : good (copies 0) <;> cases h1 : good (copies 1) <;> simp [h0, h1]

theorem cardBadCopies_le : cardBadCopies good copies ≤ 2 := List.countP_le_length

theorem cardBadCopies_zero {valid : α → Prop} (hgood : ∀ a, good a = true ↔ valid a) :
    cardBadCopies good copies = 0 ↔ ∀ i, valid (copies i) := by
  rw [cardBadCopies_eq, Fin.forall_fin_two, ← hgood, ← hgood]
  cases good (copies 0) <;> cases good (copies 1) <;> decide

theorem cardBadCopies_two {valid : α → Prop} (hgood : ∀ a, good a = true ↔ valid a) :
    cardBadCopies good copies = 2 ↔ ∀ i, ¬ valid (copies i) := by
  rw [cardBadCopies_eq, Fin.forall_fin_two, ← hgood, ← hgood]
  cases good (copies 0) <;> cases good (copies 1) <;> decide

/-- The copy that a checker writes over if nothing is selected: the last bad one, or the older. -/
def cardStale (good : α → Bool) (updated : α → Nat) (copies : Fin 2 → α) : Fin 2 :=
  if good (copies 1) then if good (copies 0) then if updated (copies 0) < updated (copies 1) then 0 else 1 else 0 else 1

theorem cardCheck_none : cardCheck good updated copies none =
    (Function.update copies (cardStale good updated copies) (copies (cardStale good updated copies).rev), cardStale good updated copies,
      cardBadCopies good copies) := by
  rw [cardBadCopies_eq]
  unfold cardCheck cardStale
  rw [List.foldl_cons, List.foldl_cons, List.foldl_nil]
  unfold cardCheckStep
  cases good (copies 0) <;> cases good (copies 1) <;> rfl

/-- The contents that are selected are as they have to be unless both copies are bad. -/
theorem cardStale_selected {valid : α → Prop} (hgood : ∀ a, good a = true ↔ valid a) :
    CardSelected valid updated copies (copies (cardStale good updated copies).rev) ↔ cardBadCopies good copies < 2 := by
  have hvalid : ∀ {i}, good (copies i) = true → valid (copies i) := fun h => (hgood _).1 h
  have hnot : ∀ {i}, good (copies i) = false → ¬ valid (copies i) := fun h hv => by rw [(hgood _).2 hv] at h; cases h
  rw [cardBadCopies_eq]
  unfold cardStale
  cases h0 : good (copies 0) <;> cases h1 : good (copies 1)
  case false.false =>
    refine iff_of_false (fun h => ?_) (by decide)
    obtain ⟨i, -, hv⟩ := h.copy
    match i with
    | 0 => exact hnot h0 hv
    | 1 => exact hnot h1 hv
  case false.true => exact iff_of_true ⟨⟨1, rfl, hvalid h1⟩, fun h => absurd (h 0) (hnot h0)⟩ (by decide)
  case true.false => exact iff_of_true ⟨⟨0, rfl, hvalid h0⟩, fun h => absurd (h 1) (hnot h1)⟩ (by decide)
  case true.true =>
    refine iff_of_true ?_ (by decide)
    by_cases hlt : updated (copies 0) < updated (copies 1)
    · refine ⟨⟨1, ?_, hvalid h1⟩, fun _ i => ?_⟩
      · simp [hlt]
      · match i with
        | 0 => simpa [hlt] using Nat.le_of_lt hlt
        | 1 => simp [hlt]
    · refine ⟨⟨0, ?_, hvalid h0⟩, fun _ i => ?_⟩
      · simp [hlt]
      · match i with
        | 0 => simp [hlt]
        | 1 => simpa [hlt] using Nat.le_of_not_lt hlt

end Copies

theorem CardDat.checks_iff (d : CardDat) : d.checks = true ↔ d.valid := decide_eq_true_iff

/-- The count of `__card_checkfat` is one of 16 bits, and so is the number of blocks. -/
theorem cardCountfree_eq {blocks : Nat} (h : blocks < 2 ^ 16) (fat : Nat → Nat) : cardCountfree blocks fat = cardFree blocks fat := by
  unfold cardCountfree
  have hfold : ∀ (bs : List Nat) (n : Nat), n + bs.length < 2 ^ 16 →
      bs.foldl (fun freeblocks b => if fat (b - CARD_SYSAREA) = 0 then (freeblocks + 1) % 2 ^ 16 else freeblocks) n =
        n + bs.countP fun b => fat (b - CARD_SYSAREA) = 0 := by
    intro bs
    induction bs with
    | nil => exact fun n _ => rfl
    | cons b bs ih =>
      intro n hn
      rw [List.length_cons] at hn
      rw [List.foldl_cons, List.countP_cons]
      by_cases hb : fat (b - CARD_SYSAREA) = 0
      · rw [if_pos hb, Nat.mod_eq_of_lt (by omega), ih _ (by omega), if_pos (decide_eq_true hb)]
        omega
      · rw [if_neg hb, ih _ (by omega), if_neg (by simpa using hb)]
        rfl
  rw [hfold _ 0, Nat.zero_add]
  · rfl
  · unfold cardDataBlocks
    rw [List.length_range']
    omega

theorem CardBat.checks_iff {blocks : Nat} (h : blocks < 2 ^ 16) (b : CardBat) : b.checks blocks = true ↔ b.valid blocks := by
  unfold checks valid
  rw [decide_eq_true_iff, cardCountfree_eq h, eq_comm (a := cardFree blocks b.fat)]

section Verify
variable (card : CardWork)

theorem cardCheckdir_none (card : CardWork) (h : card.curr_dir = none) {dir : Fin 2}
    (hdir : cardStale CardDat.checks CardDat.updated card.dat = dir) : cardCheckdir card =
      ({ card with dat := Function.update card.dat dir (card.dat dir.rev), curr_dir := some dir }, cardBadCopies CardDat.checks card.dat) := by
  unfold cardCheckdir
  rw [h, cardCheck_none, hdir]

theorem cardCheckfat_none (card : CardWork) (h : card.curr_fat = none) {fat : Fin 2}
    (hfat : cardStale (CardBat.checks card.blocks) CardBat.updated card.bat = fat) : cardCheckfat card =
      ({ card with bat := Function.update card.bat fat (card.bat fat.rev), curr_fat := some fat },
        cardBadCopies (CardBat.checks card.blocks) card.bat) := by
  unfold cardCheckfat
  rw [h, cardCheck_none, hfat]

/-- The result for a number of bad copies. -/
def cardVerdict (bad : Nat) : Int := if bad ≤ 2 then CARD_ERROR_READY else CARD_ERROR_BROKEN

theorem cardVerdict_ready {bad : Nat} : cardVerdict bad = CARD_ERROR_READY ↔ bad ≤ 2 := by
  unfold cardVerdict
  by_cases h : bad ≤ 2
  · rw [if_pos h]
    exact iff_of_true rfl h
  · rw [if_neg h]
    exact iff_of_false (by decide) h

theorem cardVerify_eq {card : CardWork} {dir fat : CardWork × Nat} (hdir : cardCheckdir card = dir) (hfat : cardCheckfat dir.1 = fat)
    (hd : fat.1.curr_dir.isSome) (hf : fat.1.curr_fat.isSome) : cardVerify card = (fat.1, cardVerdict (dir.2 + fat.2)) := by
  unfold cardVerify cardVerdict
  rw [hdir]
  dsimp only
  rw [hfat]
  by_cases h : dir.2 + fat.2 ≤ 2
  · rw [if_pos h, if_pos ⟨h, hd, hf⟩]
  · rw [if_neg h, if_neg fun hh => h hh.1]

/-- `__card_verify` finds a card in order that has at most two bad copies of the four, and has written over a copy of each kind. -/
theorem cardVerify_none (card : CardWork) (hd : card.curr_dir = none) (hf : card.curr_fat = none) {dir fat : Fin 2}
    (hdir : cardStale CardDat.checks CardDat.updated card.dat = dir)
    (hfat : cardStale (CardBat.checks card.blocks) CardBat.updated card.bat = fat) : cardVerify card =
      ({ card with
          dat := Function.update card.dat dir (card.dat dir.rev), bat := Function.update card.bat fat (card.bat fat.rev)
          curr_dir := some dir, curr_fat := some fat },
        cardVerdict (cardBadCopies CardDat.checks card.dat + cardBadCopies (CardBat.checks card.blocks) card.bat)) := by
  have hfat := cardCheckfat_none { card with dat := Function.update card.dat dir (card.dat dir.rev), curr_dir := some dir } hf hfat
  have hverify := cardVerify_eq (cardCheckdir_none card hd hdir) hfat rfl rfl
  dsimp only at hverify
  exact hverify

variable {card} in
theorem CardVerified.iff_selected {d f : Nat} {dir fat : Fin 2} (hverify : cardVerify { card with curr_dir := none, curr_fat := none } =
      ({ card with
          dat := Function.update card.dat dir (card.dat dir.rev), bat := Function.update card.bat fat (card.bat fat.rev)
          curr_dir := some dir, curr_fat := some fat }, cardVerdict (d + f)))
    (hd : CardSelected CardDat.valid CardDat.updated card.dat (card.dat dir.rev) ↔ d < 2)
    (hf : CardSelected (CardBat.valid card.blocks) CardBat.updated card.bat (card.bat fat.rev) ↔ f < 2) :
    CardVerified card ↔ (d + f ≤ 2 → d < 2 ∧ f < 2) := by
  unfold CardVerified
  rw [hverify, ← hd, ← hf]
  dsimp only
  rw [cardVerdict_ready]
  refine imp_congr_right fun _ => ⟨fun ⟨_, _, hdir, hfat, hdat, hbat⟩ => ?_, fun ⟨hdat, hbat⟩ => ⟨dir, fat, rfl, rfl, ?_, ?_⟩⟩
  · cases hdir
    cases hfat
    rw [Function.update_self] at hdat hbat
    exact ⟨hdat, hbat⟩
  · rwa [Function.update_self]
  · rwa [Function.update_self]

theorem CardVerified.iff_bad : CardVerified card ↔
    (cardBadCopies CardDat.checks card.dat + cardBadCopies (CardBat.checks card.blocks) card.bat ≤ 2 →
      cardBadCopies CardDat.checks card.dat < 2 ∧ cardBadCopies (CardBat.checks card.blocks) card.bat < 2) := by
  have hverify := cardVerify_none { card with curr_dir := none, curr_fat := none } rfl rfl rfl rfl
  dsimp only at hverify
  exact CardVerified.iff_selected hverify (cardStale_selected CardDat.checks_iff) (cardStale_selected (CardBat.checks_iff card.blocks_lt))

/-- **A card that is in order is mounted with valid contents** exactly if the bad copies are not both directories beside two good tables,
nor both tables beside two good directories. -/
theorem card_verify : CardVerified card ↔
    ¬ ((∀ i, ¬ (card.dat i).valid) ∧ ∀ i, (card.bat i).valid card.blocks) ∧
      ¬ ((∀ i, (card.dat i).valid) ∧ ∀ i, ¬ (card.bat i).valid card.blocks) := by
  rw [CardVerified.iff_bad]
  rw [← cardBadCopies_two CardDat.checks_iff, ← cardBadCopies_zero CardDat.checks_iff, ← cardBadCopies_two (CardBat.checks_iff card.blocks_lt),
    ← cardBadCopies_zero (CardBat.checks_iff card.blocks_lt)]
  have hdir : cardBadCopies CardDat.checks card.dat ≤ 2 := cardBadCopies_le
  have hfat : cardBadCopies (CardBat.checks card.blocks) card.bat ≤ 2 := cardBadCopies_le
  generalize cardBadCopies CardDat.checks card.dat = d at hdir ⊢
  generalize cardBadCopies (CardBat.checks card.blocks) card.bat = f at hfat ⊢
  omega

end Verify

theorem cardChecksum_sum (f : Nat → Nat) : ∀ (buff : List Nat) {cs : Nat}, cs < 2 ^ 16 →
    buff.foldl (fun cs w => (cs + f w) % 2 ^ 16) cs = (cs + (buff.map f).sum) % 2 ^ 16
  | [], cs, h => (Nat.mod_eq_of_lt h).symm
  | w :: buff, cs, _ => by
    rw [List.foldl_cons, cardChecksum_sum f buff (Nat.mod_lt _ (by decide)), List.map_cons, List.sum_cons, Nat.mod_add_mod, Nat.add_assoc]

theorem cardChecksum_ne (buff : List Nat) : (cardChecksum buff).1 ≠ 0xffff := by
  unfold cardChecksum
  dsimp only
  split
  case isTrue => decide
  case isFalse h => exact h

/-- A card of 64 blocks, none in use; its directories have checksums that there are not. -/
def cardWork0 : CardWork where
  blocks := 64
  blocks_lt := by decide
  dat := fun _ => { (default : CardDat) with chksum1 := 0xffff }
  bat := fun _ => { chksum1 := 59, chksum2 := 61383, updated := 0, freeblocks := 59, lastalloc := 0, fat := fun _ => 0 }
  curr_dir := none
  curr_fat := none

theorem cardWork0_dat (i : Fin 2) : ¬ (cardWork0.dat i).valid := fun h => cardChecksum_ne _ (congrArg Prod.fst h)

theorem cardWork0_bat (i : Fin 2) : (cardWork0.bat i).valid cardWork0.blocks := by
  have hwords : (cardWork0.bat i).words = [0, 59, 0] ++ List.replicate 0xffb 0 := by
    have hfat : (List.range 0xffb).map (fun _ => 0) = List.replicate 0xffb 0 := by rw [List.map_const', List.length_range]
    rw [← hfat]
    rfl
  have hsum : (cardWork0.bat i).words.foldl (fun cs w => (cs + w) % 2 ^ 16) 0 = 59 := by
    refine (cardChecksum_sum (fun w => w) _ (by decide)).trans ?_
    rw [hwords, List.map_append, List.map_replicate, List.sum_append, List.sum_replicate]
    decide
  have hxor : (cardWork0.bat i).words.foldl (fun cs w => (cs + (w ^^^ 0xffff)) % 2 ^ 16) 0 = 61383 := by
    refine (cardChecksum_sum (fun w => w ^^^ 0xffff) _ (by decide)).trans ?_
    rw [hwords, List.map_append, List.map_replicate, List.sum_append, List.sum_replicate]
    decide
  refine ⟨?_, (by decide : 59 = cardFree 64 fun _ => 0)⟩
  unfold cardChecksum
  rw [hsum, hxor]
  rfl

/-- Two bad directories are no more than a bad copy of each kind. -/
theorem card_verify_bad : ¬ ∀ card : CardWork, CardVerified card := by
  intro h
  have hbad := (CardVerified.iff_bad cardWork0).1 (h cardWork0)
  rw [(cardBadCopies_two CardDat.checks_iff).2 cardWork0_dat, (cardBadCopies_zero (CardBat.checks_iff cardWork0.blocks_lt)).2 cardWork0_bat] at hbad
  exact absurd (hbad (Nat.le_refl 2)).1 (Nat.lt_irrefl 2)

end Libogc
