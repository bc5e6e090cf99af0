import Libogc.Card.Card
import Mathlib.Data.List.Perm.Basic
import Mathlib.Data.List.Nodup
/-!
# Alloc — the blocks of a file

`__card_allocblock` goes round the data blocks from the one behind `lastalloc` and links the free ones that it meets; `__card_freeblock`
follows the links and frees them.  The erasure that ends both has its outcome as an argument.
-/
namespace Libogc

/-- What the loop of `__card_allocblock` has come to. -/
structure CardAlloc where
  fat : Nat → Nat
  block : Nat
  currblock : Nat
  prevblock : Nat

/-- The block that is looked at next. -/
def cardNextblock (blocks currblock : Nat) : Nat :=
  let currblock := (currblock + 1) % 2 ^ 16
  if currblock < CARD_SYSAREA ∨ currblock ≥ blocks then CARD_SYSAREA else currblock

/-- A block is looked at, and linked if it is free. -/
def cardAllocStep (a : CardAlloc) (currblock : Nat) : CardAlloc × Bool :=
  if a.fat (currblock - CARD_SYSAREA) = 0 then
    let r : (Nat → Nat) × Nat :=
      if a.block ≠ 0xffff then (Function.update a.fat (a.prevblock - CARD_SYSAREA) currblock, a.block) else (a.fat, currblock)
    (⟨Function.update r.1 (currblock - CARD_SYSAREA) 0xffff, r.2, currblock, currblock⟩, true)
  else ({ a with currblock := currblock }, false)

/-- The loop of `__card_allocblock`: `n` blocks may be looked at still, and `i` are needed. -/
def cardAllocLoop (blocks : Nat) : Nat → Nat → CardAlloc → CardAlloc × Bool
  | _, 0, a => (a, true)
  | 0, _ + 1, a => (a, false)
  | n + 1, i + 1, a =>
    let r := cardAllocStep a (cardNextblock blocks a.currblock)
    cardAllocLoop blocks n (if r.2 then i else i + 1) r.1

/-- `__card_allocblock` in a slot that there is -/
def cardAllocblock (card : CardBlock) (blocksneed : Nat) (erased : Int) : CardBlock × Int :=
  if !card.attached then (card, CARD_ERROR_NOCARD)
  else if card.fatblock.freeblocks < blocksneed then (card, CARD_ERROR_INSSPACE)
  else
    let r := cardAllocLoop card.blocks (card.blocks - CARD_SYSAREA) blocksneed ⟨card.fatblock.fat, 0xffff, card.fatblock.lastalloc, 0⟩
    let fatblock := { card.fatblock with fat := r.1.fat }
    if r.2 then
      let fatblock := { fatblock with freeblocks := fatblock.freeblocks - blocksneed, lastalloc := r.1.currblock }
      ({ card with curr_fileblock := r.1.block }.updatefat fatblock, erased)
    else (card.setFatblock fatblock, CARD_ERROR_BROKEN)

/-- A block is freed. -/
def CardBat.release (b : CardBat) (block : Nat) : CardBat :=
  { b with fat := Function.update b.fat (block - CARD_SYSAREA) 0, freeblocks := (b.freeblocks + 1) % 2 ^ 16 }

/-- The loop of `__card_freeblock`.  A block that was freed before has no next one, so there are no more passes than blocks. -/
def cardFreeLoop (blocks : Nat) : Nat → Nat → CardBat → CardBat × Bool
  | 0, next, b => (b, next = 0xffff)
  | n + 1, next, b =>
    if next = 0xffff then (b, true)
    else if next < CARD_SYSAREA ∨ next ≥ blocks then (b, false)
    else cardFreeLoop blocks n (b.fat (next - CARD_SYSAREA)) (b.release next)

/-- `__card_freeblock` in a slot that there is -/
def cardFreeblock (card : CardBlock) (block : Nat) (erased : Int) : CardBlock × Int :=
  if !card.attached then (card, CARD_ERROR_NOCARD)
  else
    let r := cardFreeLoop card.blocks card.blocks (card.fatblock.fat (block - CARD_SYSAREA)) (card.fatblock.release block)
    if r.2 then (card.updatefat r.1, erased) else (card.setFatblock r.1, CARD_ERROR_BROKEN)

/-! ## The round -/

section Round
variable {blocks currblock : Nat}

/-- The blocks that are looked at, in order. -/
def cardRound (blocks : Nat) : Nat → Nat → List Nat
  | 0, _ => []
  | n + 1, currblock => cardNextblock blocks currblock :: cardRound blocks n (cardNextblock blocks currblock)

theorem cardNextblock_lt (h : CARD_SYSAREA < blocks) : CARD_SYSAREA ≤ cardNextblock blocks currblock ∧ cardNextblock blocks currblock < blocks := by
  unfold cardNextblock
  dsimp only
  split
  · exact ⟨Nat.le_refl _, h⟩
  · omega

theorem cardNextblock_up (hs : CARD_SYSAREA ≤ currblock) (hlt : currblock + 1 < blocks) (hb : blocks < 2 ^ 16) :
    cardNextblock blocks currblock = currblock + 1 := by
  unfold cardNextblock
  dsimp only
  rw [Nat.mod_eq_of_lt (by omega), if_neg (by omega)]

theorem cardNextblock_wrap (h : currblock + 1 = blocks) (hb : blocks < 2 ^ 16) : cardNextblock blocks currblock = CARD_SYSAREA := by
  unfold cardNextblock
  dsimp only
  rw [Nat.mod_eq_of_lt (by omega), if_pos (by omega)]

theorem cardRound_up (hb : blocks < 2 ^ 16) (m : Nat) : ∀ {n currblock : Nat}, CARD_SYSAREA ≤ currblock → currblock + n < blocks →
    cardRound blocks (n + m) currblock = List.range' (currblock + 1) n ++ cardRound blocks m (currblock + n) := by
  intro n
  induction n with
  | zero =>
    intro currblock _ _
    rw [Nat.zero_add]
    rfl
  | succ n ih =>
    intro currblock hs hlt
    rw [show n + 1 + m = n + m + 1 by omega, cardRound, cardNextblock_up hs (by omega) hb, ih (by omega) (by omega), List.range'_succ,
      show currblock + 1 + n = currblock + (n + 1) by omega]
    rfl

theorem cardRound_perm (hb : blocks < 2 ^ 16) : (cardRound blocks (blocks - CARD_SYSAREA) currblock).Perm (cardDataBlocks blocks) := by
  unfold cardDataBlocks
  by_cases hdata : CARD_SYSAREA < blocks
  · obtain ⟨hlow, hhigh⟩ := @cardNextblock_lt blocks currblock hdata
    obtain ⟨n, hn⟩ : ∃ n, blocks - CARD_SYSAREA = n + 1 := ⟨blocks - CARD_SYSAREA - 1, by omega⟩
    rw [hn, cardRound]
    generalize cardNextblock blocks currblock = first at hlow hhigh
    -- up to the end, and from the start up to the first again
    obtain ⟨up, hup⟩ : ∃ up, first + up + 1 = blocks := ⟨blocks - 1 - first, by omega⟩
    obtain ⟨rest, hrest⟩ : ∃ rest, first = CARD_SYSAREA + rest := ⟨first - CARD_SYSAREA, by omega⟩
    have hlower : cardRound blocks rest (first + up) = List.range' CARD_SYSAREA rest := by
      cases rest with
      | zero => rfl
      | succ m =>
        rw [cardRound, cardNextblock_wrap hup hb, List.range'_succ]
        have hm := @cardRound_up blocks hb 0 m CARD_SYSAREA (Nat.le_refl _) (by omega)
        rw [Nat.add_zero] at hm
        rw [hm]
        exact congrArg _ (List.append_nil _)
    rw [show n = up + rest by omega, cardRound_up hb rest hlow (by omega), hlower, ← List.cons_append, ← List.range'_succ]
    refine List.perm_append_comm.trans (.of_eq ?_)
    rw [hrest, List.range'_append_1]
    congr 1
    omega
  · rw [Nat.sub_eq_zero_of_le (Nat.le_of_not_lt hdata)]
    exact .nil

end Round

/-! ## Links -/

/-- The table with the blocks of a list linked. -/
def cardLink (fat : Nat → Nat) : List Nat → Nat → Nat
  | [] => fat
  | [b] => Function.update fat (b - CARD_SYSAREA) 0xffff
  | b :: c :: xs => Function.update (cardLink fat (c :: xs)) (b - CARD_SYSAREA) c

section Links
variable {fat fat' : Nat → Nat} {xs : List Nat} {b i : Nat}

theorem cardLink_of_not_mem (h : ∀ x ∈ xs, i ≠ x - CARD_SYSAREA) : cardLink fat xs i = fat i := by
  induction xs with
  | nil => rfl
  | cons b xs ih =>
    cases xs with
    | nil => exact Function.update_of_ne (h b List.mem_cons_self) ..
    | cons c xs =>
      exact (Function.update_of_ne (h b List.mem_cons_self) ..).trans (ih fun x hx => h x (List.mem_cons_of_mem _ hx))

theorem sysarea_ne (hx : CARD_SYSAREA ≤ b) (hi : CARD_SYSAREA ≤ i) (h : b ≠ i) : b - CARD_SYSAREA ≠ i - CARD_SYSAREA := by omega

theorem cardLink_snoc (hxs : xs ≠ []) (hlow : ∀ x ∈ xs, CARD_SYSAREA ≤ x) (hb : CARD_SYSAREA ≤ b) (hnot : b ∉ xs) (hnodup : xs.Nodup) :
    cardLink fat (xs ++ [b]) = Function.update (Function.update (cardLink fat xs) (xs.getLast hxs - CARD_SYSAREA) b) (b - CARD_SYSAREA) 0xffff := by
  induction xs with
  | nil => exact absurd rfl hxs
  | cons x xs ih =>
    have hx := hlow x List.mem_cons_self
    have hxb : b - CARD_SYSAREA ≠ x - CARD_SYSAREA := sysarea_ne hb hx fun e => hnot (e ▸ List.mem_cons_self)
    cases xs with
    | nil =>
      show Function.update (Function.update fat (b - CARD_SYSAREA) 0xffff) (x - CARD_SYSAREA) b = _
      rw [Function.update_comm hxb]
      show _ = Function.update (Function.update (Function.update fat (x - CARD_SYSAREA) 0xffff) (x - CARD_SYSAREA) b) (b - CARD_SYSAREA) 0xffff
      rw [Function.update_idem]
    | cons y ys =>
      have hlast : (y :: ys).getLast (List.cons_ne_nil y ys) ∈ y :: ys := List.getLast_mem _
      have hxlast : (y :: ys).getLast (List.cons_ne_nil y ys) - CARD_SYSAREA ≠ x - CARD_SYSAREA :=
        sysarea_ne (hlow _ (List.mem_cons_of_mem _ hlast)) hx fun e => (List.nodup_cons.1 hnodup).1 (e ▸ hlast)
      show Function.update (cardLink fat (y :: ys ++ [b])) (x - CARD_SYSAREA) y = _
      rw [ih (List.cons_ne_nil y ys) (fun z hz => hlow z (List.mem_cons_of_mem _ hz)) (fun hm => hnot (List.mem_cons_of_mem _ hm))
        (List.nodup_cons.1 hnodup).2, Function.update_comm hxb, Function.update_comm hxlast, List.getLast_cons (List.cons_ne_nil y ys)]
      rfl

theorem cardLink_ne_zero (hlow : ∀ x ∈ xs, CARD_SYSAREA ≤ x) (hb : b ∈ xs) : cardLink fat xs (b - CARD_SYSAREA) ≠ 0 := by
  induction xs with
  | nil => cases hb
  | cons x xs ih =>
    cases xs with
    | nil =>
      rw [List.mem_singleton.1 hb]
      show Function.update fat (x - CARD_SYSAREA) 0xffff (x - CARD_SYSAREA) ≠ 0
      rw [Function.update_self]
      decide
    | cons y ys =>
      show Function.update (cardLink fat (y :: ys)) (x - CARD_SYSAREA) y (b - CARD_SYSAREA) ≠ 0
      by_cases hbx : b - CARD_SYSAREA = x - CARD_SYSAREA
      · rw [hbx, Function.update_self]
        have hy := hlow y (List.mem_cons_of_mem _ List.mem_cons_self)
        unfold CARD_SYSAREA at hy
        omega
      · rw [Function.update_of_ne hbx]
        refine ih (fun z hz => hlow z (List.mem_cons_of_mem _ hz)) ((List.mem_cons.1 hb).resolve_left ?_)
        rintro rfl
        exact hbx rfl

theorem CardChain.congr (h : ∀ x ∈ xs, fat' (x - CARD_SYSAREA) = fat (x - CARD_SYSAREA)) (hc : CardChain fat b xs) : CardChain fat' b xs := by
  induction xs generalizing b with
  | nil => exact hc
  | cons x xs ih =>
    refine ⟨hc.1, ?_⟩
    rw [h x List.mem_cons_self]
    exact ih (fun y hy => h y (List.mem_cons_of_mem _ hy)) hc.2

theorem cardLink_chain (hlow : ∀ x ∈ xs, CARD_SYSAREA ≤ x) (hnodup : xs.Nodup) : CardChain (cardLink fat xs) (xs.headD 0xffff) xs := by
  induction xs with
  | nil => rfl
  | cons x xs ih =>
    refine ⟨rfl, ?_⟩
    cases xs with
    | nil => exact Function.update_self ..
    | cons y ys =>
      have hrest := ih (fun z hz => hlow z (List.mem_cons_of_mem _ hz)) (List.nodup_cons.1 hnodup).2
      show CardChain _ (Function.update (cardLink fat (y :: ys)) (x - CARD_SYSAREA) y (x - CARD_SYSAREA)) _
      rw [Function.update_self]
      refine hrest.congr fun z hz => Function.update_of_ne (sysarea_ne (hlow z (List.mem_cons_of_mem _ hz)) (hlow x List.mem_cons_self) ?_) ..
      rintro rfl
      exact (List.nodup_cons.1 hnodup).1 hz

end Links

/-! ## Allocation -/

section Alloc
variable {blocks : Nat} {fat : Nat → Nat}

/-- The free blocks of a list. -/
def cardFreeOf (fat : Nat → Nat) (l : List Nat) : List Nat := l.filter fun b => fat (b - CARD_SYSAREA) = 0

/-- What the loop has linked. -/
structure CardLinked (blocks : Nat) (fat : Nat → Nat) (a : CardAlloc) (xs : List Nat) : Prop where
  fat : a.fat = cardLink fat xs
  block : a.block = xs.headD 0xffff
  prevblock : ∀ hxs : xs ≠ [], a.prevblock = xs.getLast hxs
  nodup : xs.Nodup
  data : ∀ x ∈ xs, CARD_SYSAREA ≤ x ∧ x < blocks

theorem CardLinked.step {a : CardAlloc} {xs : List Nat} {b : Nat} (h : CardLinked blocks fat a xs) (hb : blocks < 2 ^ 16)
    (hdata : CARD_SYSAREA ≤ b ∧ b < blocks) (hnot : b ∉ xs) :
    if fat (b - CARD_SYSAREA) = 0 then (cardAllocStep a b).2 = true ∧ CardLinked blocks fat (cardAllocStep a b).1 (xs ++ [b])
    else (cardAllocStep a b).2 = false ∧ CardLinked blocks fat (cardAllocStep a b).1 xs := by
  have hsame : a.fat (b - CARD_SYSAREA) = fat (b - CARD_SYSAREA) := by
    rw [h.fat]
    refine cardLink_of_not_mem fun x hx => sysarea_ne hdata.1 (h.data x hx).1 ?_
    rintro rfl
    exact hnot hx
  unfold cardAllocStep
  rw [hsame]
  split
  case isTrue hfree =>
    refine ⟨rfl, ?_, ?_, fun _ => (List.getLast_concat).symm, ?_, ?_⟩
    · cases xs with
      | nil =>
        have hblock : a.block = 0xffff := h.block
        dsimp only
        rw [if_neg (not_not.2 hblock), h.fat]
        rfl
      | cons x xs =>
        have hblock : a.block ≠ 0xffff := by
          have hx := h.data x List.mem_cons_self
          have heq : a.block = x := h.block
          omega
        dsimp only
        rw [if_pos hblock, h.prevblock (List.cons_ne_nil x xs), h.fat,
          cardLink_snoc (List.cons_ne_nil x xs) (fun y hy => (h.data y hy).1) hdata.1 hnot h.nodup]
    · cases xs with
      | nil =>
        have hblock : a.block = 0xffff := h.block
        dsimp only
        rw [if_neg (not_not.2 hblock)]
        rfl
      | cons x xs =>
        have hx := h.data x List.mem_cons_self
        have heq : a.block = x := h.block
        dsimp only
        rw [if_pos (by omega)]
        exact heq
    · exact List.nodup_append.2 ⟨h.nodup, List.nodup_singleton b, fun x hx y hy e => hnot (by rw [← List.mem_singleton.1 hy, ← e]; exact hx)⟩
    · intro x hx
      rcases List.mem_append.1 hx with hx | hx
      · exact h.data x hx
      · exact List.mem_singleton.1 hx ▸ hdata
  case isFalse hused =>
    exact ⟨rfl, h.fat, h.block, h.prevblock, h.nodup, h.data⟩

theorem cardAllocStep_currblock (a : CardAlloc) (b : Nat) : (cardAllocStep a b).1.currblock = b := by
  unfold cardAllocStep
  split
  · rfl
  · rfl

theorem cardAllocLoop_spec (hb : blocks < 2 ^ 16) (hdata : CARD_SYSAREA < blocks) (n : Nat) : ∀ {i : Nat} {a : CardAlloc} {xs : List Nat},
    CardLinked blocks fat a xs → (cardRound blocks n a.currblock).Nodup → (∀ x ∈ cardRound blocks n a.currblock, x ∉ xs) →
    i ≤ (cardFreeOf fat (cardRound blocks n a.currblock)).length →
    (cardAllocLoop blocks n i a).2 = true ∧
      CardLinked blocks fat (cardAllocLoop blocks n i a).1 (xs ++ (cardFreeOf fat (cardRound blocks n a.currblock)).take i) := by
  induction n with
  | zero =>
    intro i a xs h _ _ hi
    obtain rfl : i = 0 := Nat.le_zero.1 hi
    rw [List.take_zero, List.append_nil]
    exact ⟨rfl, h⟩
  | succ n ih =>
    intro i a xs h hnodup hnot hi
    cases i with
    | zero =>
      rw [List.take_zero, List.append_nil]
      exact ⟨rfl, h⟩
    | succ i =>
      unfold cardAllocLoop
      rw [cardRound] at hnodup hnot hi ⊢
      have hnext := h.step (b := cardNextblock blocks a.currblock) hb (cardNextblock_lt hdata) (hnot _ List.mem_cons_self)
      have hcurr := cardAllocStep_currblock a (cardNextblock blocks a.currblock)
      obtain ⟨hfirst, hrest⟩ := List.nodup_cons.1 hnodup
      generalize cardNextblock blocks a.currblock = b at hnext hcurr hfirst hrest hnot hi ⊢
      generalize cardAllocStep a b = r at hnext hcurr ⊢
      obtain ⟨a', linked⟩ := r
      dsimp only at hnext hcurr ⊢
      subst hcurr
      have hnot' : ∀ x ∈ cardRound blocks n a'.currblock, x ∉ xs := fun x hx => hnot x (List.mem_cons_of_mem _ hx)
      split at hnext
      case isTrue hfree =>
        obtain ⟨rfl, hlinked⟩ := hnext
        have hcons : cardFreeOf fat (a'.currblock :: cardRound blocks n a'.currblock) =
            a'.currblock :: cardFreeOf fat (cardRound blocks n a'.currblock) := List.filter_cons_of_pos (by simpa using hfree)
        rw [hcons, List.length_cons] at hi
        rw [hcons, if_pos rfl, List.take_succ_cons, List.append_cons]
        refine ih hlinked hrest (fun x hx hm => ?_) (Nat.le_of_succ_le_succ hi)
        rcases List.mem_append.1 hm with hm | hm
        · exact hnot' x hx hm
        · rw [List.mem_singleton.1 hm] at hx
          exact hfirst hx
      case isFalse hused =>
        obtain ⟨rfl, hlinked⟩ := hnext
        have hcons : cardFreeOf fat (a'.currblock :: cardRound blocks n a'.currblock) = cardFreeOf fat (cardRound blocks n a'.currblock) :=
          List.filter_cons_of_neg (by simpa using hused)
        rw [hcons] at hi ⊢
        rw [if_neg Bool.false_ne_true]
        exact ih hlinked hrest hnot' hi

end Alloc

/-! ## Freeing -/

section Free
variable {blocks : Nat}

theorem cardFreeLoop_spec : ∀ {xs : List Nat} {n next : Nat} {b : CardBat}, CardChain b.fat next xs → xs.Nodup →
    (∀ x ∈ xs, CARD_SYSAREA ≤ x ∧ x < blocks) → blocks < 2 ^ 16 → xs.length ≤ n →
    let r := cardFreeLoop blocks n next b
    r.2 = true ∧ (∀ x ∈ xs, r.1.fat (x - CARD_SYSAREA) = 0) ∧ (∀ i, (∀ x ∈ xs, i ≠ x - CARD_SYSAREA) → r.1.fat i = b.fat i) ∧
      r.1.freeblocks % 2 ^ 16 = (b.freeblocks + xs.length) % 2 ^ 16 ∧ (b.freeblocks < 2 ^ 16 → r.1.freeblocks < 2 ^ 16) := by
  intro xs
  induction xs with
  | nil =>
    intro n next b hchain _ _ _ _
    have hend : next = 0xffff := hchain
    have hloop : cardFreeLoop blocks n next b = (b, true) := by
      cases n with
      | zero => exact congrArg _ (decide_eq_true hend)
      | succ n => exact if_pos hend
    rw [hloop]
    exact ⟨rfl, (fun x hx => by cases hx), fun _ _ => rfl, rfl, fun h => h⟩
  | cons x xs ih =>
    intro n next b hchain hnodup hdata hb hn
    obtain ⟨n, rfl⟩ : ∃ m, n = m + 1 := ⟨n - 1, by rw [List.length_cons] at hn; omega⟩
    obtain ⟨rfl, hrest⟩ := hchain
    have hx := hdata next List.mem_cons_self
    obtain ⟨hnot, hnodup'⟩ := List.nodup_cons.1 hnodup
    have hother : ∀ y ∈ xs, y - CARD_SYSAREA ≠ next - CARD_SYSAREA := by
      refine fun y hy => sysarea_ne (hdata y (List.mem_cons_of_mem _ hy)).1 hx.1 ?_
      rintro rfl
      exact hnot hy
    have hkept : ∀ i, i ≠ next - CARD_SYSAREA → (b.release next).fat i = b.fat i := fun i hi => Function.update_of_ne hi ..
    obtain ⟨htrue, hzero, hsame, hcount, hlt⟩ := ih (n := n) (b := b.release next)
      (hrest.congr fun y hy => hkept _ (hother y hy)) hnodup' (fun y hy => hdata y (List.mem_cons_of_mem _ hy)) hb
      (by rw [List.length_cons] at hn; omega)
    have hloop : cardFreeLoop blocks (n + 1) next b = cardFreeLoop blocks n (b.fat (next - CARD_SYSAREA)) (b.release next) := by
      rw [cardFreeLoop, if_neg (by omega), if_neg (by omega)]
    rw [hloop]
    refine ⟨htrue, fun y hy => ?_, fun i hi => ?_, ?_, fun _ => hlt (Nat.mod_lt _ (by decide))⟩
    · rcases List.mem_cons.1 hy with rfl | hy
      · rw [hsame _ fun z hz => (hother z hz).symm]
        exact Function.update_self ..
      · exact hzero y hy
    · rw [hsame i fun z hz => hi z (List.mem_cons_of_mem _ hz)]
      exact hkept i (hi next List.mem_cons_self)
    · rw [hcount, List.length_cons]
      show ((b.freeblocks + 1) % 2 ^ 16 + xs.length) % 2 ^ 16 = _
      rw [Nat.mod_add_mod]
      congr 1
      omega

end Free

/-! ## Both -/

/-- What an allocation is for: a chain of blocks that were free, and nothing else. -/
structure CardAllocated (card : CardBlock) (n : Nat) (card' : CardBlock) (xs : List Nat) : Prop where
  chain : CardChain card'.fatblock.fat card'.curr_fileblock xs
  length : xs.length = n
  nodup : xs.Nodup
  free : ∀ x ∈ xs, CARD_SYSAREA ≤ x ∧ x < card.blocks ∧ card.fatblock.fat (x - CARD_SYSAREA) = 0
  others : ∀ i, (∀ x ∈ xs, i ≠ x - CARD_SYSAREA) → card'.fatblock.fat i = card.fatblock.fat i
  count : card'.fatblock.freeblocks = cardFree card.blocks card'.fatblock.fat

/-- A card whose number of free blocks is right, with room for `n` blocks. -/
structure CardRoom (card : CardBlock) (n : Nat) : Prop where
  attached : card.attached = true
  blocks : card.blocks < 2 ^ 16
  count : card.fatblock.freeblocks = cardFree card.blocks card.fatblock.fat
  some : 1 ≤ n
  room : n ≤ card.fatblock.freeblocks

section Both
variable {card : CardBlock} {n : Nat}

theorem CardRoom.linked (h : CardRoom card n) :
    let r := cardAllocLoop card.blocks (card.blocks - CARD_SYSAREA) n ⟨card.fatblock.fat, 0xffff, card.fatblock.lastalloc, 0⟩
    r.2 = true ∧ ∃ xs, xs.length = n ∧ (∀ x ∈ xs, card.fatblock.fat (x - CARD_SYSAREA) = 0) ∧ CardLinked card.blocks card.fatblock.fat r.1 xs := by
  have hperm := @cardRound_perm card.blocks card.fatblock.lastalloc h.blocks
  have hfree : (cardFreeOf card.fatblock.fat (cardRound card.blocks (card.blocks - CARD_SYSAREA) card.fatblock.lastalloc)).length =
      card.fatblock.freeblocks := by
    rw [h.count, cardFree, ← hperm.countP_eq, List.countP_eq_length_filter]
    rfl
  have hdata : CARD_SYSAREA < card.blocks := by
    refine Nat.lt_of_not_le fun hle => ?_
    have hroom := h.room
    have hsome := h.some
    rw [h.count, cardFree, cardDataBlocks, Nat.sub_eq_zero_of_le hle] at hroom
    exact absurd (Nat.le_trans hsome hroom) (Nat.not_succ_le_zero 0)
  have hnone : CardLinked card.blocks card.fatblock.fat ⟨card.fatblock.fat, 0xffff, card.fatblock.lastalloc, 0⟩ [] :=
    ⟨rfl, rfl, fun hne => absurd rfl hne, .nil, fun x hx => by cases hx⟩
  obtain ⟨htrue, hlinked⟩ := cardAllocLoop_spec (i := n) h.blocks hdata (card.blocks - CARD_SYSAREA) hnone
    (hperm.nodup_iff.2 (cardDataBlocks_nodup _)) (fun x _ hx => by cases hx) (by rw [hfree]; exact h.room)
  refine ⟨htrue, _, ?_, fun x hx => ?_, hlinked⟩
  · rw [List.nil_append, List.length_take, hfree]
    exact Nat.min_eq_left h.room
  · have hm := (List.mem_filter.1 (List.mem_of_mem_take hx)).2
    exact of_decide_eq_true hm

theorem cardFree_apart {blocks : Nat} {fat fat' : Nat → Nat} {xs : List Nat} (hnodup : xs.Nodup)
    (hdata : ∀ x ∈ xs, CARD_SYSAREA ≤ x ∧ x < blocks) (hfree : ∀ x ∈ xs, fat' (x - CARD_SYSAREA) = 0)
    (hzero : ∀ b ∈ cardDataBlocks blocks, fat (b - CARD_SYSAREA) = 0 ↔ fat' (b - CARD_SYSAREA) = 0 ∧ b ∉ xs) :
    cardFree blocks fat + xs.length = cardFree blocks fat' := by
  have hin : ((cardDataBlocks blocks).filter fun b => b ∈ xs).Perm xs := by
    refine (List.perm_ext_iff_of_nodup ((cardDataBlocks_nodup blocks).filter _) hnodup).2 fun b => ?_
    rw [List.mem_filter, mem_cardDataBlocks, decide_eq_true_iff]
    exact ⟨fun hb => hb.2, fun hb => ⟨hdata b hb, hb⟩⟩
  unfold cardFree
  rw [List.countP_eq_countP_filter_add (cardDataBlocks blocks) (fun b => fat' (b - CARD_SYSAREA) = 0) (fun b => b ∈ xs), hin.countP_eq,
    List.countP_eq_length.2 (fun x hx => decide_eq_true (hfree x hx)), Nat.add_comm, List.countP_filter]
  congr 1
  refine List.countP_congr fun b hb => ?_
  rw [decide_eq_true_iff, hzero b hb]
  simp

theorem cardFree_link {blocks : Nat} {fat : Nat → Nat} {a : CardAlloc} {xs : List Nat} (h : CardLinked blocks fat a xs)
    (hfree : ∀ x ∈ xs, fat (x - CARD_SYSAREA) = 0) : cardFree blocks a.fat + xs.length = cardFree blocks fat := by
  have hlow : ∀ x ∈ xs, CARD_SYSAREA ≤ x := fun x hx => (h.data x hx).1
  refine cardFree_apart h.nodup h.data hfree fun b hb => ?_
  rw [h.fat]
  by_cases hx : b ∈ xs
  · exact iff_of_false (cardLink_ne_zero hlow hx) fun hand => hand.2 hx
  · rw [cardLink_of_not_mem fun x hxs => sysarea_ne (mem_cardDataBlocks.1 hb).1 (hlow x hxs) fun e => hx (e ▸ hxs)]
    exact (and_iff_left hx).symm

/-- **An allocation** takes as many free blocks as are needed, and freeing them undoes it. -/
theorem card_alloc_free (h : CardRoom card n) (erased erased' : Int) :
    (cardAllocblock card n erased).2 = erased ∧ (∃ xs, CardAllocated card n (cardAllocblock card n erased).1 xs) ∧
      let freed := cardFreeblock (cardAllocblock card n erased).1 (cardAllocblock card n erased).1.curr_fileblock erased'
      freed.2 = erased' ∧ freed.1.fatblock.fat = card.fatblock.fat ∧ freed.1.fatblock.freeblocks = card.fatblock.freeblocks := by
  obtain ⟨htrue, xs, hlength, hfree, hlinked⟩ := h.linked
  have hcount := cardFree_link hlinked hfree
  rw [hlength, ← h.count] at hcount
  have hlow : ∀ x ∈ xs, CARD_SYSAREA ≤ x := fun x hx => (hlinked.data x hx).1
  have hchain : CardChain (cardLink card.fatblock.fat xs) (xs.headD 0xffff) xs := cardLink_chain hlow hlinked.nodup
  unfold cardAllocblock
  rw [if_neg (by rw [h.attached]; decide), if_neg (Nat.not_lt.2 h.room)]
  dsimp only
  rw [if_pos htrue]
  generalize cardAllocLoop card.blocks (card.blocks - CARD_SYSAREA) n ⟨card.fatblock.fat, 0xffff, card.fatblock.lastalloc, 0⟩ = r at hlinked hcount
  generalize hcard' : (CardBlock.updatefat { card with curr_fileblock := r.1.block } _) = card'
  have hfat' : card'.fatblock.fat = cardLink card.fatblock.fat xs := by
    rw [← hcard', CardBlock.updatefat_fat, ← hlinked.fat]
  have hblocks' : card'.fatblock.freeblocks = card.fatblock.freeblocks - n := by
    rw [← hcard', CardBlock.updatefat_freeblocks]
  have hstart : card'.curr_fileblock = xs.headD 0xffff := hcard' ▸ hlinked.block
  have hother : ∀ i, (∀ x ∈ xs, i ≠ x - CARD_SYSAREA) → card'.fatblock.fat i = card.fatblock.fat i := fun i hi => by
    rw [hfat', cardLink_of_not_mem hi]
  refine ⟨rfl, ⟨xs, ?_, hlength, hlinked.nodup, fun x hx => ⟨(hlinked.data x hx).1, (hlinked.data x hx).2, hfree x hx⟩, hother, ?_⟩, ?_⟩
  · rw [hfat', hstart]
    exact hchain
  · rw [hblocks', hfat', ← hlinked.fat]
    omega
  · -- the blocks are freed one after the other
    have hsome := h.some
    have hroom := h.room
    have hall := h.count ▸ cardFree_le card.blocks card.fatblock.fat
    have hblocks := h.blocks
    have hattached' : card'.attached = true := hcard' ▸ h.attached
    have hsize : card'.blocks = card.blocks := by
      rw [← hcard']
      rfl
    cases xs with
    | nil =>
      rw [← hlength] at hsome
      exact absurd hsome (by decide)
    | cons x xs =>
      have hx := hlinked.data x List.mem_cons_self
      obtain ⟨hnot, hnodup⟩ := List.nodup_cons.1 hlinked.nodup
      have hne : ∀ y ∈ xs, y - CARD_SYSAREA ≠ x - CARD_SYSAREA := by
        refine fun y hy => sysarea_ne (hlow y (List.mem_cons_of_mem _ hy)) hx.1 ?_
        rintro rfl
        exact hnot hy
      have hreleased : ∀ i, i ≠ x - CARD_SYSAREA → (card'.fatblock.release x).fat i = card'.fatblock.fat i := fun i hi =>
        Function.update_of_ne hi ..
      rw [List.length_cons] at hlength
      have hrest : CardChain (card'.fatblock.release x).fat (card'.fatblock.fat (x - CARD_SYSAREA)) xs := by
        refine CardChain.congr (fun y hy => hreleased _ (hne y hy)) ?_
        rw [hfat']
        exact hchain.2
      obtain ⟨hdone, hzero, hsame, hnumber, hlt⟩ := cardFreeLoop_spec (n := card.blocks) hrest hnodup
        (fun y hy => hlinked.data y (List.mem_cons_of_mem _ hy)) hblocks (by omega)
      have hstart' : card'.curr_fileblock = x := hstart
      unfold cardFreeblock
      rw [if_neg (by rw [hattached']; decide), hstart', hsize]
      dsimp only
      rw [if_pos hdone]
      refine ⟨rfl, ?_, ?_⟩
      · rw [CardBlock.updatefat_fat]
        funext i
        by_cases hi : ∀ y ∈ x :: xs, i ≠ y - CARD_SYSAREA
        · rw [hsame i fun y hy => hi y (List.mem_cons_of_mem _ hy), hreleased i (hi x List.mem_cons_self), hother i hi]
        · obtain ⟨y, hy, rfl⟩ : ∃ y, ∃ _ : y ∈ x :: xs, i = y - CARD_SYSAREA := by simpa only [not_forall, not_not] using hi
          rw [hfree y hy]
          rcases List.mem_cons.1 hy with rfl | hy
          · rw [hsame _ fun z hz => (hne z hz).symm]
            exact Function.update_self ..
          · exact hzero y hy
      · rw [CardBlock.updatefat_freeblocks]
        have hmod : (card'.fatblock.release x).freeblocks = (card.fatblock.freeblocks - n + 1) % 2 ^ 16 := by
          rw [← hblocks']
          rfl
        have hless := hlt (Nat.mod_lt _ (by decide))
        rw [hmod, Nat.mod_add_mod, Nat.mod_eq_of_lt hless] at hnumber
        rw [hnumber, Nat.mod_eq_of_lt (by omega)]
        omega

end Both

/-- Four data blocks, the second in use. -/
def cardAlloc0 : CardBlock where
  attached := true
  result := 0
  sector_size := 8192
  blocks := 9
  dat := default
  bat := fun _ => ⟨0, 0, 0, 3, 7, fun i => if i = 1 then 0xffff else 0⟩
  curr_dir := 0
  curr_fat := 0
  curr_fileblock := 0

theorem card_alloc_free_two : (cardAllocblock cardAlloc0 2 0).2 = 0 ∧ (∃ xs, CardAllocated cardAlloc0 2 (cardAllocblock cardAlloc0 2 0).1 xs) ∧
    let freed := cardFreeblock (cardAllocblock cardAlloc0 2 0).1 (cardAllocblock cardAlloc0 2 0).1.curr_fileblock 0
    freed.2 = 0 ∧ freed.1.fatblock.fat = cardAlloc0.fatblock.fat ∧ freed.1.fatblock.freeblocks = cardAlloc0.fatblock.freeblocks :=
  card_alloc_free ⟨rfl, by decide, by decide, by decide, by decide⟩ 0 0

end Libogc
