import Libogc.Card.Files
/-!
# Steps — what the calls ask of a card

A call is a chain of steps, each started by the callback of the one before it: the erasure of a sector, the programming of a page, the
reading of a segment.  A callback that is given a failure, or cannot start the next step, ends the chain with it.  But
`__card_createfatcallback` does not look at what it is given, and `__read_callback` keeps the result of the transfer before one that it
cannot start (`card_no_false_success`).
-/
namespace Libogc

/-- A step, and where it is on the card. -/
inductive CardStep
  | sectorerase (sector : Nat)
  | writepage (addr : Nat)
  | readsegment (addr : Nat)
  deriving DecidableEq, Repr

/-- What comes of the steps, after their retries: of those that update a table, and of those of each sector of a file. -/
structure CardOutcomes where
  fat : Nat → CardUpdate
  dir : Nat → CardUpdate
  sector : Nat → Nat → CardUpdate

/-- The steps that were started, with what their callbacks were given. -/
abbrev CardTrace := List (CardStep × Int)

/-! ## Chains -/

/-- **A chain of steps** behind a result, from the `k`-th outcome on: what it ends with, and its trace.  So go `__blockwritecallback` and `__blockreadcallback`, and `__erase_callback`, `__card_faterasecallback` and
`__card_direrasecallback`, which start a write. -/
def cardChain (o : Nat → CardUpdate) : List CardStep → Nat → Int → Int × CardTrace
  | [], _, ret => (ret, [])
  | step :: steps, k, ret =>
    if ret < 0 then (ret, [])
    else if (o k).start < 0 then ((o k).start, [])
    else
      let r := cardChain o steps (k + 1) (o k).result
      (r.1, (step, (o k).result) :: r.2)

/-- A chain from its beginning. -/
def cardRun (o : Nat → CardUpdate) (steps : List CardStep) : Int × CardTrace := cardChain o steps 0 CARD_ERROR_READY

/-- `__card_write` and its pages: the first one is written whatever their number. -/
def cardPages (addr len : Nat) : List CardStep := (List.range (max 1 (len >>> 7))).map fun i => .writepage (addr + i * 128)

/-- `__card_read` and its segments, likewise. -/
def cardSegments (addr len : Nat) : List CardStep := (List.range (max 1 (len >>> 9))).map fun i => .readsegment (addr + i * CARD_READSIZE)

/-- A sector that is erased, and then written. -/
def cardRewrite (sector len : Nat) : List CardStep := .sectorerase sector :: cardPages sector len

/-- What starting a chain returns, and what comes of it. -/
def cardStarted (o : Nat → CardUpdate) (steps : List CardStep) : CardUpdate := ⟨(o 0).start, (cardRun o steps).1⟩

/-- The failure to start, or else the result. -/
def CardUpdate.outcome (u : CardUpdate) : Int := if u.start < 0 then u.start else u.result

namespace CardBlock

/-- The steps of `__card_updatefat` -/
def fatSteps (card : CardBlock) : List CardStep := cardRewrite ((3 + card.curr_fat.val) * card.sector_size) 8192

/-- The steps of `__card_updatedir` -/
def dirSteps (card : CardBlock) : List CardStep := cardRewrite ((1 + card.curr_dir.val) * card.sector_size) 8192

end CardBlock

/-! ## Calls -/

/-- What `CARD_CreateAsync` and `CARD_CreateEntryAsync` ask before they start a step. -/
def cardCreatable (codes : CardIds) (card : CardBlock) (toolong : Bool) (filename : Fin 32 → Nat) (size : Nat) : Prop :=
  toolong = false ∧ card.accessible ∧ ¬ (size = 0 ∨ size % card.sector_size ≠ 0) ∧
    (cardCreateLoop card.dirblock filename codes (List.range CARD_MAXFILES) (-1)).toOption.getD (-1) ≠ -1 ∧
    ¬ u32 (card.fatblock.freeblocks * card.sector_size) < size ∧ 0 ≤ (cardAllocblock card (size / card.sector_size) 0).2

instance (codes : CardIds) (card : CardBlock) (toolong : Bool) (filename : Fin 32 → Nat) (size : Nat) :
    Decidable (cardCreatable codes card toolong filename size) := inferInstanceAs (Decidable (_ ∧ _))

/-- A creation: what it ends with, and its steps. -/
def cardCreateRun (codes ids : CardIds) (card : CardBlock) (file : CardFile) (toolong : Bool) (filename : Fin 32 → Nat) (size now : Nat)
    (o : CardOutcomes) : Int × CardTrace :=
  let fat := cardStarted o.fat card.fatSteps
  ((cardCreate codes ids card file toolong filename size now fat (cardStarted o.dir card.dirSteps)).2.2,
    if cardCreatable codes card toolong filename size then
      (cardRun o.fat card.fatSteps).2 ++
        -- the callback goes on whatever it is given
        if fat.start < 0 then [] else (cardRun o.dir card.dirSteps).2
    else [])

/-- A deletion. -/
def cardDeleteRun (codes : CardIds) (card : CardBlock) (filename : Fin 32 → Nat) (o : CardOutcomes) : Int × CardTrace :=
  let dir := cardRun o.dir card.dirSteps
  ((cardDelete codes card filename (cardStarted o.dir card.dirSteps) (cardStarted o.fat card.fatSteps)).2,
    if card.accessible then
      match cardGetfilenum card filename codes with
      | .ok i =>
        dir.2 ++ if dir.1 < 0 ∨ (cardFreeblock card (card.dirblock.entries i).block 0).2 < 0 then []
          else (cardRun o.fat card.fatSteps).2
      | .error _ => []
    else [])

/-- The arguments that `CARD_SetStatusAsync` takes. -/
def cardSettable (fileno : Int) (stats : CardSetStat) : Prop :=
  ¬ (fileno < 0 ∨ fileno ≥ CARD_MAXFILES) ∧ ¬ (stats.icon_addr ≠ 2 ^ 32 - 1 ∧ stats.icon_addr ≥ CARD_READSIZE) ∧
    ¬ (stats.comment_addr ≠ 2 ^ 32 - 1 ∧ stats.comment_addr % 8192 > 8128)

instance (fileno : Int) (stats : CardSetStat) : Decidable (cardSettable fileno stats) := inferInstanceAs (Decidable (_ ∧ _))

/-- `CARD_SetStatus` -/
def cardSetStatusRun (card : CardBlock) (fileno : Int) (stats : CardSetStat) (now : Nat) (o : CardOutcomes) : Int × CardTrace :=
  ((CARDSetStatus card fileno stats now (cardStarted o.dir card.dirSteps)).2,
    if cardSettable fileno stats ∧ card.accessible then (cardRun o.dir card.dirSteps).2 else [])

/-- The transfers of a read, if none fails. -/
def cardReadTransfers (card : CardBlock) (file : CardFile) (len offset : Nat) : List (Nat × Nat) :=
  (cardRead card file len offset ⟨fun _ => 0, fun _ => 0⟩).2.2

/-- What comes of transfers. -/
def cardReadsOf (ts : List (Nat × Nat)) (o : Nat → Nat → CardUpdate) : CardReads where
  start i := (o i 0).start
  result i := (cardRun (o i) (cardSegments (ts.getD i (0, 0)).1 (ts.getD i (0, 0)).2)).1

/-- The segments of the transfers that were started. -/
def cardReadTrace (o : Nat → Nat → CardUpdate) : Nat → List (Nat × Nat) → CardTrace
  | _, [] => []
  | i, t :: ts => (cardRun (o i) (cardSegments t.1 t.2)).2 ++ cardReadTrace o (i + 1) ts

/-- `CARD_Read` -/
def cardReadRun (card : CardBlock) (file : CardFile) (len offset : Nat) (o : CardOutcomes) : Int × CardTrace :=
  let r := cardRead card file len offset (cardReadsOf (cardReadTransfers card file len offset) o.sector)
  (r.2.1, cardReadTrace o.sector 0 r.2.2)

/-- What comes of the sectors of a write, wherever they are. -/
def cardWritesOf (card : CardBlock) (o : CardOutcomes) : CardWrites where
  erase i := (o.sector i 0).outcome
  write i := (cardRun (fun k => o.sector i (k + 1)) (cardPages 0 card.sector_size)).1
  dir := (cardStarted o.dir card.dirSteps).outcome

/-- The steps of `__erase_callback` and `__write_callback` for the `i`-th sector and those behind it -/
def cardWriteTrace (card : CardBlock) (o : CardOutcomes) : Nat → Nat → CardFile → CardTrace
  | 0, _, _ => []
  | n + 1, i, file =>
    let r := cardRun (o.sector i) (cardRewrite (file.iblock * card.sector_size) card.sector_size)
    if r.1 < 0 ∨ file.len < 0 then r.2
    else
      let file : CardFile := { file with len := s32 (file.len - card.sector_size) }
      if file.len ≤ 0 then r.2 ++ (cardRun o.dir card.dirSteps).2
      else
        let file : CardFile := { file with offset := s32 (file.offset + card.sector_size), iblock := card.nextblock file }
        r.2 ++ if card.outside file.iblock then [] else cardWriteTrace card o n (i + 1) file

/-- `CARD_Write` -/
def cardWriteRun (s : CardFs) (buf : Nat → BitVec 8) (len offset now : Nat) (o : CardOutcomes) : Int × CardTrace :=
  let r := cardSeek s.card s.file (s32 len) (s32 offset)
  ((cardWrite s buf len offset now (cardWritesOf s.card o)).2,
    if r.2 < 0 ∨ cardMisaligned s.card.sector_size len offset then [] else cardWriteTrace s.card o (r.1.len.toNat + 1) 0 r.1)

/-- The calls that ask something of the card. -/
inductive CardOperation
  | create (filename : List Nat) (size now : Nat)
  | createEntry (direntry : CardDir) (now : Nat)
  | delete (filename : List Nat)
  | setStatus (fileno : Int) (stats : CardSetStat) (now : Nat)
  | read (len offset : Nat)
  | write (buf : Nat → BitVec 8) (len offset now : Nat)

namespace CardOperation

/-- **A call**: the result that the control block keeps and the callback is given, and the steps that were started. -/
def run (ids : CardIds) (s : CardFs) (o : CardOutcomes) : CardOperation → Int × CardTrace
  | .create filename size now =>
    cardCreateRun ids ids s.card s.file (CARD_FILENAMELEN < filename.length) (cardName filename) size now o
  | .createEntry d now => cardCreateRun d.ids ids s.card s.file d.toolong d.filename d.filelen now o
  | .delete filename => cardDeleteRun ids s.card (cardName filename) o
  | .setStatus fileno stats now => cardSetStatusRun s.card fileno stats now o
  | .read len offset => cardReadRun s.card s.file len offset o
  | .write buf len offset now => cardWriteRun s buf len offset now o

end CardOperation

/-- Nothing fails. -/
def cardNoFailure : CardOutcomes := ⟨fun _ => ⟨0, 0⟩, fun _ => ⟨0, 0⟩, fun _ _ => ⟨0, 0⟩⟩

/-- What a call needs: its steps when none of them fails. -/
def CardOperation.needs (ids : CardIds) (s : CardFs) (op : CardOperation) : List CardStep := (op.run ids s cardNoFailure).2.map Prod.fst

/-- **The steps that are needed were started, and came to a good end.** -/
def CardDone (needs : List CardStep) (trace : CardTrace) : Prop := trace.map Prod.fst = needs ∧ ∀ x ∈ trace, 0 ≤ x.2

/-- **A creation goes on** with the directory, although a step of the table's update failed behind its start. -/
def cardCreateSlips (codes : CardIds) (card : CardBlock) (toolong : Bool) (filename : Fin 32 → Nat) (size : Nat) (o : CardOutcomes) : Prop :=
  cardCreatable codes card toolong filename size ∧ 0 ≤ (o.fat 0).start ∧ (∃ k < card.fatSteps.length, ¬ (o.fat k).Succeeds) ∧
    ∀ k < card.dirSteps.length, (o.dir k).Succeeds

/-- **A read stops** at a transfer behind the first that cannot be started, with the result of the one before. -/
def cardReadSlips (ts : List (Nat × Nat)) (o : Nat → Nat → CardUpdate) : Prop :=
  ∃ j, 0 < j ∧ j < ts.length ∧
    (∀ i < j, ∀ k < (cardSegments (ts.getD i (0, 0)).1 (ts.getD i (0, 0)).2).length, (o i k).Succeeds) ∧ (o j 0).start < 0

def CardOperation.slips (s : CardFs) (ids : CardIds) (o : CardOutcomes) : CardOperation → Prop
  | .create filename size _ => cardCreateSlips ids s.card (CARD_FILENAMELEN < filename.length) (cardName filename) size o
  | .createEntry d _ => cardCreateSlips d.ids s.card d.toolong d.filename d.filelen o
  | .read len offset => cardReadSlips (cardReadTransfers s.card s.file len offset) o.sector
  | .delete _ | .setStatus _ _ _ | .write _ _ _ _ => False

/-! ## What a chain comes to -/

section Chain
variable {o : Nat → CardUpdate} {steps needs needs' : List CardStep} {trace trace' : CardTrace}

theorem CardDone.append (h : CardDone needs trace) (h' : CardDone needs' trace') : CardDone (needs ++ needs') (trace ++ trace') := by
  refine ⟨by rw [List.map_append, h.1, h'.1], fun x hx => ?_⟩
  rcases List.mem_append.1 hx with hx | hx
  · exact h.2 x hx
  · exact h'.2 x hx

theorem CardDone.of_trace (h : CardDone needs trace) (h' : CardDone needs trace') : CardDone (trace'.map Prod.fst) trace := by
  rw [h'.1]
  exact h

theorem cardChain_iff : ∀ {steps : List CardStep} {k : Nat} {ret : Int}, 0 ≤ ret →
    (0 ≤ (cardChain o steps k ret).1 ↔ ∀ i < steps.length, (o (k + i)).Succeeds)
  | [], _, _, hret => ⟨fun _ i hi => absurd hi (Nat.not_lt_zero i), fun _ => hret⟩
  | step :: steps, k, ret, hret => by
    rw [cardChain, if_neg (Int.not_lt.2 hret)]
    split
    next hstart => exact iff_of_false (Int.not_le.2 hstart) fun h => absurd (h 0 (Nat.succ_pos _)).1 (Int.not_le.2 hstart)
    next hstart =>
      dsimp only
      by_cases hok : 0 ≤ (o k).result
      · rw [cardChain_iff hok, List.length_cons, Nat.forall_lt_succ_left]
        have hk : (o (k + 0)).Succeeds := ⟨Int.not_lt.1 hstart, hok⟩
        have hshift : ∀ i, k + 1 + i = k + (i + 1) := fun i => by omega
        simp only [hshift, hk, true_and]
      · refine iff_of_false (fun h => hok ?_) fun h => hok (h 0 (Nat.succ_pos _)).2
        cases steps with
        | nil => exact h
        | cons s steps =>
          rw [cardChain, if_pos (Int.not_le.1 hok)] at h
          exact h

theorem cardChain_done : ∀ {steps : List CardStep} {k : Nat} {ret : Int}, 0 ≤ ret →
    (CardDone steps (cardChain o steps k ret).2 ↔ 0 ≤ (cardChain o steps k ret).1)
  | [], _, _, hret => iff_of_true ⟨rfl, fun x hx => by cases hx⟩ hret
  | step :: steps, k, ret, hret => by
    rw [cardChain, if_neg (Int.not_lt.2 hret)]
    split
    next hstart => exact iff_of_false (fun h => by cases h.1) (Int.not_le.2 hstart)
    next hstart =>
      dsimp only
      by_cases hok : 0 ≤ (o k).result
      · rw [← cardChain_done hok, CardDone, CardDone, List.map_cons, List.cons.injEq, List.forall_mem_cons]
        simp only [hok, true_and]
      · refine iff_of_false (fun h => hok (h.2 _ List.mem_cons_self)) fun h => hok ?_
        cases steps with
        | nil => exact h
        | cons s steps =>
          rw [cardChain, if_pos (Int.not_le.1 hok)] at h
          exact h

theorem cardChain_length : ∀ {steps : List CardStep} {k : Nat} {ret : Int}, (cardChain o steps k ret).2.length ≤ steps.length
  | [], _, _ => Nat.le_refl _
  | step :: steps, k, ret => by
    rw [cardChain]
    split
    · exact Nat.zero_le _
    · split
      · exact Nat.zero_le _
      · exact Nat.succ_le_succ cardChain_length

theorem cardRun_iff : 0 ≤ (cardRun o steps).1 ↔ ∀ k < steps.length, (o k).Succeeds := by
  have h := @cardChain_iff o steps 0 0 (Int.le_refl 0)
  simp only [Nat.zero_add] at h
  exact h

theorem cardRun_done (h : 0 ≤ (cardRun o steps).1) : CardDone steps (cardRun o steps).2 := (cardChain_done (Int.le_refl 0)).2 h

theorem cardRun_nofail (h : ∀ k, (o k).Succeeds) (steps : List CardStep) : 0 ≤ (cardRun o steps).1 := cardRun_iff.2 fun k _ => h k

theorem cardNoFailure_fat (k : Nat) : (cardNoFailure.fat k).Succeeds := ⟨Int.le_refl 0, Int.le_refl 0⟩

theorem cardNoFailure_dir (k : Nat) : (cardNoFailure.dir k).Succeeds := ⟨Int.le_refl 0, Int.le_refl 0⟩

theorem cardNoFailure_sector (i k : Nat) : (cardNoFailure.sector i k).Succeeds := ⟨Int.le_refl 0, Int.le_refl 0⟩

theorem cardStarted_outcome (step : CardStep) (steps : List CardStep) :
    (cardStarted o (step :: steps)).outcome = (cardRun o (step :: steps)).1 := by
  unfold CardUpdate.outcome cardStarted cardRun
  rw [cardChain, if_neg (by decide : ¬ CARD_ERROR_READY < 0)]
  dsimp only
  split <;> rfl

theorem CardUpdate.outcome_iff {u : CardUpdate} : 0 ≤ u.outcome ↔ u.Succeeds := by
  unfold CardUpdate.outcome
  split
  next h => exact iff_of_false (Int.not_le.2 h) fun hu => absurd hu.1 (Int.not_le.2 h)
  next h => exact ⟨fun hr => ⟨Int.not_lt.1 h, hr⟩, And.right⟩

end Chain

/-! ## Creations, deletions and changes -/

section Tables
variable {codes ids : CardIds} {card card' : CardBlock} {file : CardFile} {toolong : Bool} {filename : Fin 32 → Nat} {size now : Nat}
  {dir fat : CardUpdate} {o : CardOutcomes}

theorem updatesDir_result (ha : card.attached = true) (dir : CardUpdate) : (card.updatesDir dir).2 = dir.outcome := by
  unfold CardBlock.updatesDir CardUpdate.outcome
  rw [if_neg (by rw [ha]; decide)]
  split <;> rfl

/-- What the work on the tables reads. -/
def CardBlock.SameTable (card card' : CardBlock) : Prop :=
  card'.attached = card.attached ∧ card'.blocks = card.blocks ∧ card'.fatblock = card.fatblock

theorem cardAllocblock_result (h : card.SameTable card') (n : Nat) (erased : Int) :
    (cardAllocblock card' n erased).2 = if 0 ≤ (cardAllocblock card n 0).2 then erased else (cardAllocblock card n 0).2 := by
  unfold cardAllocblock
  rw [h.1, h.2.1, h.2.2]
  split
  · rfl
  · split
    · rfl
    · dsimp only
      split <;> rfl

theorem cardFreeblock_result (h : card.SameTable card') (block : Nat) (erased : Int) :
    (cardFreeblock card' block erased).2 = if 0 ≤ (cardFreeblock card block 0).2 then erased else (cardFreeblock card block 0).2 := by
  unfold cardFreeblock
  rw [h.1, h.2.1, h.2.2]
  split
  · rfl
  · dsimp only
    split <;> rfl

/-- **What a creation ends with**: the result of the directory's update, whatever became of the table's once it was started. -/
theorem cardCreateEnd_outcome (ha : card.attached = true) : (cardCreateEnd ids card file filename size now fat dir).2.2 =
    if 0 ≤ (cardAllocblock card (size / card.sector_size) 0).2 then if fat.start < 0 then fat.start else dir.outcome
    else (cardAllocblock card (size / card.sector_size) 0).2 := by
  unfold cardCreateEnd
  dsimp only
  generalize hset : (card.setEntry _ _) = set
  have hsame : card.SameTable set := by
    rw [← hset]
    exact ⟨rfl, rfl, rfl⟩
  have hresult := cardAllocblock_result hsame (size / card.sector_size) fat.start
  have hatt := (CardBlock.allocblock_keeps set (size / card.sector_size) fat.start).attached.trans (hsame.1.trans ha)
  generalize cardAllocblock set (size / card.sector_size) fat.start = r at hresult hatt ⊢
  rw [hresult]
  by_cases hroom : 0 ≤ (cardAllocblock card (size / card.sector_size) 0).2
  · rw [if_pos hroom, if_pos hroom]
    split
    · rfl
    · unfold cardCreateFat
      refine updatesDir_result ?_ dir
      split
      · exact hatt
      · exact hatt
  · rw [if_neg hroom, if_neg hroom, if_pos (Int.not_le.1 hroom)]

theorem cardCreate_cases (codes ids : CardIds) :
    (cardCreatable codes card toolong filename size ∧ (cardCreate codes ids card file toolong filename size now fat dir).2.2 =
      if fat.start < 0 then fat.start else dir.outcome) ∨
    (¬ cardCreatable codes card toolong filename size ∧ (cardCreate codes ids card file toolong filename size now fat dir).2.2 < 0) := by
  unfold cardCreate
  split
  next hlong => exact .inr ⟨fun hc => absurd hlong (by rw [hc.1]; decide), (by decide : CARD_ERROR_NAMETOOLONG < 0)⟩
  next hlong =>
    by_cases hacc : card.accessible
    · rw [CardBlock.getcntrlblock_accessible hacc]
      generalize hgot : ({ card with result := CARD_ERROR_BUSY } : CardBlock) = got
      have hsame : card.SameTable got := by
        rw [← hgot]
        exact ⟨rfl, rfl, rfl⟩
      have hkept : got.dirblock = card.dirblock ∧ got.sector_size = card.sector_size := by
        rw [← hgot]
        exact ⟨rfl, rfl⟩
      dsimp only
      rw [hkept.1, hkept.2, hsame.2.2]
      split
      next hsize => exact .inr ⟨fun hc => hc.2.2.1 hsize, (by decide : CARD_ERROR_FATAL_ERROR < 0)⟩
      next hsize =>
        cases hl : cardCreateLoop card.dirblock filename codes (List.range CARD_MAXFILES) (-1) with
        | error e =>
          obtain rfl := cardCreateLoop_error hl
          exact .inr ⟨fun hc => hc.2.2.2.1 (by rw [hl]; rfl), (by decide : CARD_ERROR_EXIST < 0)⟩
        | ok n =>
          dsimp only
          split
          next hn => exact .inr ⟨fun hc => hc.2.2.2.1 (by rw [hl]; exact hn), (by decide : CARD_ERROR_NOENT < 0)⟩
          next hn =>
            split
            next hspace => exact .inr ⟨fun hc => hc.2.2.2.2.1 hspace, (by decide : CARD_ERROR_INSSPACE < 0)⟩
            next hspace =>
              have halloc := (cardAllocblock_result hsame (size / card.sector_size) 0).trans
                (cardAllocblock_result ⟨rfl, rfl, rfl⟩ (size / card.sector_size) 0).symm
              rw [cardCreateEnd_outcome (hsame.1.trans hacc.1), hkept.2, halloc]
              by_cases hroom : 0 ≤ (cardAllocblock card (size / card.sector_size) 0).2
              · exact .inl ⟨⟨by simpa using hlong, hacc, hsize, by rw [hl]; exact hn, hspace, hroom⟩, if_pos hroom⟩
              · exact .inr ⟨fun hc => hroom hc.2.2.2.2.2, by rw [if_neg hroom]; exact Int.not_le.1 hroom⟩
    · obtain ⟨e, he, hneg⟩ := CardBlock.getcntrlblock_error hacc
      rw [he]
      exact .inr ⟨fun hc => hacc hc.2.1, hneg⟩

theorem cardCreateRun_needs (h : cardCreatable codes card toolong filename size) :
    (cardCreateRun codes ids card file toolong filename size now cardNoFailure).2.map Prod.fst = card.fatSteps ++ card.dirSteps := by
  have hstart : ¬ (cardStarted cardNoFailure.fat card.fatSteps).start < 0 := (by decide : ¬ (0 : Int) < 0)
  unfold cardCreateRun
  dsimp only
  rw [if_pos h, if_neg hstart]
  exact ((cardRun_done (cardRun_nofail cardNoFailure_fat _)).append (cardRun_done (cardRun_nofail cardNoFailure_dir _))).1

/-- **A creation** is a success without all of its steps just if it goes on behind the table. -/
theorem cardCreateRun_iff : let r := cardCreateRun codes ids card file toolong filename size now o
    (0 ≤ r.1 → CardDone ((cardCreateRun codes ids card file toolong filename size now cardNoFailure).2.map Prod.fst) r.2) ↔
      ¬ cardCreateSlips codes card toolong filename size o := by
  have hfst : (cardStarted o.fat card.fatSteps).start = (o.fat 0).start := rfl
  have hdir : (cardStarted o.dir card.dirSteps).outcome = (cardRun o.dir card.dirSteps).1 := cardStarted_outcome _ _
  rcases cardCreate_cases codes ids with ⟨hc, hr⟩ | ⟨hc, hr⟩
  · rw [cardCreateRun_needs hc]
    unfold cardCreateRun
    dsimp only
    rw [if_pos hc, hr, hfst]
    by_cases hstart : (o.fat 0).start < 0
    · rw [if_pos hstart]
      exact iff_of_true (fun h => absurd h (Int.not_le.2 hstart)) fun h => absurd h.2.1 (Int.not_le.2 hstart)
    · rw [if_neg hstart, if_neg hstart, hdir]
      constructor
      · rintro h ⟨-, -, ⟨k, hk, hfail⟩, hok⟩
        obtain ⟨hmap, hall⟩ := h (cardRun_iff.2 hok)
        -- each chain has its own part of the steps
        rw [List.map_append] at hmap
        have hlen := congrArg List.length hmap
        have hfat : (cardRun o.fat card.fatSteps).2.length ≤ card.fatSteps.length := cardChain_length
        have hdirs : (cardRun o.dir card.dirSteps).2.length ≤ card.dirSteps.length := cardChain_length
        simp only [List.length_append, List.length_map] at hlen
        obtain ⟨hmapFat, -⟩ := List.append_inj hmap (by rw [List.length_map]; omega)
        have hdone : CardDone card.fatSteps (cardRun o.fat card.fatSteps).2 := ⟨hmapFat, fun x hx => hall x (List.mem_append_left _ hx)⟩
        exact hfail (cardRun_iff.1 ((cardChain_done (Int.le_refl 0)).1 hdone) k hk)
      · refine fun hslip hok => CardDone.append (cardRun_done (cardRun_iff.2 fun k hk => ?_)) (cardRun_done hok)
        exact Decidable.byContradiction fun hfail => hslip ⟨hc, Int.not_lt.1 hstart, ⟨k, hk, hfail⟩, cardRun_iff.1 hok⟩
  · exact iff_of_true (fun h => absurd h (Int.not_le.2 hr)) fun h => hc h.1

theorem cardDelete_ok (h : 0 ≤ (cardDelete codes card filename dir fat).2) : card.accessible ∧ ∃ i, cardGetfilenum card filename codes = .ok i ∧
    dir.Succeeds ∧ 0 ≤ (cardFreeblock card (card.dirblock.entries i).block 0).2 ∧ fat.Succeeds := by
  unfold cardDelete at h
  by_cases hacc : card.accessible
  · rw [CardBlock.getcntrlblock_accessible hacc] at h
    have hfile : cardGetfilenum { card with result := CARD_ERROR_BUSY } filename codes = cardGetfilenum card filename codes := rfl
    dsimp only at h
    rw [hfile] at h
    cases hf : cardGetfilenum card filename codes with
    | error e =>
      rw [hf] at h
      exact absurd h (Int.not_le.2 (cardGetfilenum_error hf))
    | ok i =>
      rw [hf] at h
      dsimp only at h
      generalize hset : (CardBlock.setEntry _ _ _) = set at h
      have hsame : card.SameTable set ∧ set.curr_fileblock = (card.dirblock.entries i).block := by
        rw [← hset]
        exact ⟨⟨rfl, rfl, rfl⟩, rfl⟩
      have hatt := hsame.1.1.trans hacc.1
      split at h
      next hneg => exact absurd h (Int.not_le.2 hneg)
      next hneg =>
        rw [updatesDir_result hatt] at hneg
        have hok := CardUpdate.outcome_iff.1 (Int.not_lt.1 hneg)
        rw [CardBlock.updatesDir_written hatt hok] at h
        unfold cardDeleteFat at h
        have hblock : set.updatedir.dirwritten.curr_fileblock = (card.dirblock.entries i).block := hsame.2
        have hwritten : card.SameTable set.updatedir.dirwritten := hsame.1
        have hresult := cardFreeblock_result hwritten (card.dirblock.entries i).block fat.start
        dsimp only at h
        rw [hblock] at h
        generalize cardFreeblock set.updatedir.dirwritten (card.dirblock.entries i).block fat.start = r at h hresult
        refine ⟨hacc, i, rfl, hok, ?_⟩
        by_cases hfree : 0 ≤ (cardFreeblock card (card.dirblock.entries i).block 0).2
        · rw [if_pos hfree] at hresult
          rw [hresult] at h
          split at h
          next hstart => exact absurd h (Int.not_le.2 hstart)
          next hstart => exact ⟨hfree, Int.not_lt.1 hstart, h⟩
        · rw [if_neg hfree] at hresult
          rw [hresult, if_pos (Int.not_le.1 hfree)] at h
          exact absurd h hfree
  · obtain ⟨e, he, hneg⟩ := CardBlock.getcntrlblock_error hacc
    rw [he] at h
    exact absurd h (Int.not_le.2 hneg)

theorem cardDeleteRun_trace {i : Nat} (hacc : card.accessible) (hi : cardGetfilenum card filename codes = .ok i)
    (hfree : 0 ≤ (cardFreeblock card (card.dirblock.entries i).block 0).2) (hdir : 0 ≤ (cardRun o.dir card.dirSteps).1) :
    (cardDeleteRun codes card filename o).2 = (cardRun o.dir card.dirSteps).2 ++ (cardRun o.fat card.fatSteps).2 := by
  unfold cardDeleteRun
  dsimp only
  rw [if_pos hacc, hi]
  dsimp only
  rw [if_neg (not_or.2 ⟨Int.not_lt.2 hdir, Int.not_lt.2 hfree⟩)]

theorem cardDeleteRun_done (h : 0 ≤ (cardDeleteRun codes card filename o).1) :
    CardDone ((cardDeleteRun codes card filename cardNoFailure).2.map Prod.fst) (cardDeleteRun codes card filename o).2 := by
  obtain ⟨hacc, i, hi, hdir, hfree, hfat⟩ := cardDelete_ok h
  have hdir' : 0 ≤ (cardRun o.dir card.dirSteps).1 := hdir.2
  have hfat' : 0 ≤ (cardRun o.fat card.fatSteps).1 := hfat.2
  have hnone := cardRun_nofail cardNoFailure_dir card.dirSteps
  rw [cardDeleteRun_trace hacc hi hfree hdir', cardDeleteRun_trace hacc hi hfree hnone]
  exact ((cardRun_done hdir').append (cardRun_done hfat')).of_trace
    ((cardRun_done hnone).append (cardRun_done (cardRun_nofail cardNoFailure_fat _)))

theorem cardSetStatus_ok {fileno : Int} {stats : CardSetStat} (h : 0 ≤ (CARDSetStatus card fileno stats now dir).2) :
    (cardSettable fileno stats ∧ card.accessible) ∧ dir.Succeeds := by
  unfold CARDSetStatus at h
  split at h
  · exact absurd h (by decide : ¬ 0 ≤ CARD_ERROR_FATAL_ERROR)
  next hfileno =>
    split at h
    · exact absurd h (by decide : ¬ 0 ≤ CARD_ERROR_FATAL_ERROR)
    next hicon =>
      split at h
      · exact absurd h (by decide : ¬ 0 ≤ CARD_ERROR_FATAL_ERROR)
      next hcomment =>
        by_cases hacc : card.accessible
        · rw [CardBlock.getcntrlblock_accessible hacc] at h
          dsimp only at h
          generalize hset : (CardBlock.setEntry _ _ _) = set at h
          have hatt : set.attached = true := by
            rw [← hset]
            exact hacc.1
          rw [updatesDir_result hatt] at h
          exact ⟨⟨⟨hfileno, hicon, hcomment⟩, hacc⟩, CardUpdate.outcome_iff.1 h⟩
        · obtain ⟨e, he, hneg⟩ := CardBlock.getcntrlblock_error hacc
          rw [he] at h
          exact absurd h (Int.not_le.2 hneg)

theorem cardSetStatusRun_done {fileno : Int} {stats : CardSetStat} (h : 0 ≤ (cardSetStatusRun card fileno stats now o).1) :
    CardDone ((cardSetStatusRun card fileno stats now cardNoFailure).2.map Prod.fst) (cardSetStatusRun card fileno stats now o).2 := by
  obtain ⟨htaken, hdir⟩ := cardSetStatus_ok h
  have hdir' : 0 ≤ (cardRun o.dir card.dirSteps).1 := hdir.2
  unfold cardSetStatusRun
  dsimp only
  rw [if_pos htaken, if_pos htaken]
  exact (cardRun_done hdir').of_trace (cardRun_done (cardRun_nofail cardNoFailure_dir _))

end Tables

/-! ## Reads -/

section Reads
variable {card : CardBlock} {o : CardReads} {file : CardFile} {len offset : Nat}

/-- **A read that succeeds** makes its transfers up to one that it cannot start. -/
theorem cardReadLoop_prefix : ∀ {n i : Nat} {file : CardFile}, 0 ≤ (cardReadLoop card o n i file).2.1 → 0 ≤ o.result i ∧
    ∃ rest, (cardReadLoop card ⟨fun _ => 0, fun _ => 0⟩ n i file).2.2 = (cardReadLoop card o n i file).2.2 ++ rest ∧
      (∀ j < (cardReadLoop card o n i file).2.2.length, 0 ≤ o.result (i + 1 + j)) ∧
      (rest ≠ [] → o.start (i + 1 + (cardReadLoop card o n i file).2.2.length) < 0)
  | 0, _, _, h => absurd h (by decide : ¬ 0 ≤ CARD_ERROR_BUSY)
  | n + 1, i, file, h => by
    rw [cardReadLoop] at h ⊢
    rw [cardReadLoop]
    dsimp only at h ⊢
    split at h
    next hneg => exact absurd h (Int.not_le.2 hneg)
    next hres =>
      rw [if_neg hres, if_neg (by decide : ¬ (0 : Int) < 0)]
      refine ⟨Int.not_lt.1 hres, ?_⟩
      split at h
      · exact absurd h (by decide : ¬ 0 ≤ CARD_ERROR_CANCELED)
      next hlen =>
        rw [if_neg hlen, if_neg hlen]
        split at h
        next hmore =>
          rw [if_pos hmore, if_pos hmore]
          split at h
          · exact absurd h (by decide : ¬ 0 ≤ CARD_ERROR_BROKEN)
          next hout =>
            rw [if_neg hout, if_neg hout, if_pos (by decide : (0 : Int) ≥ 0)]
            split at h
            next hstart =>
              rw [if_pos hstart]
              obtain ⟨hnext, rest, hpre, hall, hlast⟩ := cardReadLoop_prefix h
              have hshift : ∀ j, i + 1 + (j + 1) = i + 1 + 1 + j := fun j => by omega
              refine ⟨rest, congrArg (List.cons _) hpre, fun j hj => ?_, fun hr => ?_⟩
              · cases j with
                | zero => exact hnext
                | succ j =>
                  rw [hshift]
                  exact hall j (Nat.lt_of_succ_lt_succ hj)
              · rw [List.length_cons, hshift]
                exact hlast hr
            next hstart =>
              rw [if_neg hstart]
              exact ⟨_, rfl, fun j hj => absurd hj (Nat.not_lt_zero j), fun _ => Int.not_le.1 hstart⟩
        next hmore =>
          rw [if_neg hmore, if_neg hmore]
          exact ⟨[], rfl, fun j hj => absurd hj (Nat.not_lt_zero j), fun hr => absurd rfl hr⟩

theorem cardReadLoop_refused : ∀ {n i j : Nat} {file : CardFile}, 0 ≤ o.result i →
    j < (cardReadLoop card ⟨fun _ => 0, fun _ => 0⟩ n i file).2.2.length →
    (∀ k < j, 0 ≤ o.start (i + 1 + k) ∧ 0 ≤ o.result (i + 1 + k)) → o.start (i + 1 + j) < 0 →
    0 ≤ (cardReadLoop card o n i file).2.1 ∧ (cardReadLoop card o n i file).2.2.length = j
  | 0, _, j, _, _, hj, _, _ => absurd hj (Nat.not_lt_zero j)
  | n + 1, i, j, file, hres, hj, hok, hstart => by
    rw [cardReadLoop] at hj ⊢
    dsimp only at hj ⊢
    rw [if_neg (by decide : ¬ (0 : Int) < 0)] at hj
    rw [if_neg (Int.not_lt.2 hres)]
    split at hj
    · exact absurd hj (Nat.not_lt_zero j)
    next hlen =>
      rw [if_neg hlen]
      split at hj
      next hmore =>
        rw [if_pos hmore]
        split at hj
        · exact absurd hj (Nat.not_lt_zero j)
        next hout =>
          rw [if_neg hout]
          rw [if_pos (by decide : (0 : Int) ≥ 0)] at hj
          cases j with
          | zero =>
            rw [if_neg (Int.not_le.2 hstart)]
            exact ⟨hres, rfl⟩
          | succ j =>
            have hfirst := hok 0 (Nat.succ_pos j)
            rw [if_pos hfirst.1]
            obtain ⟨hr, hl⟩ := cardReadLoop_refused (j := j) hfirst.2 (Nat.lt_of_succ_lt_succ hj)
              (fun k hk => by
                rw [show i + 1 + 1 + k = i + 1 + (k + 1) by omega]
                exact hok (k + 1) (Nat.succ_lt_succ hk))
              (by rw [show i + 1 + 1 + j = i + 1 + (j + 1) by omega]; exact hstart)
            exact ⟨hr, congrArg (· + 1) hl⟩
      next hmore => exact absurd hj (Nat.not_lt_zero j)

theorem cardRead_prefix (h : 0 ≤ (cardRead card file len offset o).2.1) : ∃ rest,
    cardReadTransfers card file len offset = (cardRead card file len offset o).2.2 ++ rest ∧
      (∀ j < (cardRead card file len offset o).2.2.length, 0 ≤ o.result j) ∧ 0 < (cardRead card file len offset o).2.2.length ∧
      (rest ≠ [] → o.start (cardRead card file len offset o).2.2.length < 0) := by
  unfold cardReadTransfers cardRead at *
  dsimp only at h ⊢
  split at h
  · exact absurd h (by decide : ¬ 0 ≤ CARD_ERROR_FATAL_ERROR)
  next hargs =>
    rw [if_neg hargs, if_neg hargs]
    split at h
    next hseek => exact absurd h (Int.not_le.2 hseek)
    next hseek =>
      rw [if_neg hseek, if_neg hseek]
      split at h
      next hstart => exact absurd h (Int.not_le.2 hstart)
      next hstart =>
        rw [if_neg hstart, if_neg (by decide : ¬ (0 : Int) < 0)]
        obtain ⟨hfirst, rest, hpre, hall, hlast⟩ := cardReadLoop_prefix h
        have hshift : ∀ j, 0 + 1 + j = j + 1 := fun j => by omega
        simp only [hshift] at hall hlast
        refine ⟨rest, congrArg (List.cons _) hpre, fun j hj => ?_, Nat.succ_pos _, hlast⟩
        cases j with
        | zero => exact hfirst
        | succ j => exact hall j (Nat.lt_of_succ_lt_succ hj)

theorem cardRead_refused {j : Nat} (hj : 0 < j) (hlt : j < (cardReadTransfers card file len offset).length)
    (hok : ∀ i < j, 0 ≤ o.start i ∧ 0 ≤ o.result i) (hstart : o.start j < 0) :
    0 ≤ (cardRead card file len offset o).2.1 ∧ (cardRead card file len offset o).2.2.length = j := by
  unfold cardReadTransfers cardRead at *
  dsimp only at hlt ⊢
  split at hlt
  · exact absurd hlt (Nat.not_lt_zero j)
  next hargs =>
    rw [if_neg hargs]
    split at hlt
    · exact absurd hlt (Nat.not_lt_zero j)
    next hseek =>
      rw [if_neg hseek]
      rw [if_neg (by decide : ¬ (0 : Int) < 0)] at hlt
      rw [if_neg (Int.not_lt.2 (hok 0 hj).1)]
      obtain ⟨j, rfl⟩ := Nat.exists_eq_succ_of_ne_zero hj.ne'
      have hshift : ∀ j, 0 + 1 + j = j + 1 := fun j => by omega
      obtain ⟨hr, hl⟩ := cardReadLoop_refused (o := o) (i := 0) (j := j) (hok 0 hj).2 (Nat.lt_of_succ_lt_succ hlt)
        (fun k hk => by rw [hshift]; exact hok (k + 1) (Nat.succ_lt_succ hk)) (by rw [hshift]; exact hstart)
      exact ⟨hr, congrArg (· + 1) hl⟩

theorem cardSegments_pos (addr len : Nat) : 0 < (cardSegments addr len).length := by
  unfold cardSegments
  rw [List.length_map, List.length_range]
  exact Nat.lt_of_lt_of_le Nat.one_pos (Nat.le_max_left _ _)

theorem cardReadTrace_done {o : Nat → Nat → CardUpdate} : ∀ {ts : List (Nat × Nat)} {i : Nat},
    (∀ j < ts.length, 0 ≤ (cardRun (o (i + j)) (cardSegments (ts.getD j (0, 0)).1 (ts.getD j (0, 0)).2)).1) →
    CardDone (ts.flatMap fun t => cardSegments t.1 t.2) (cardReadTrace o i ts)
  | [], _, _ => ⟨rfl, fun x hx => by cases hx⟩
  | t :: ts, i, h => by
    rw [List.flatMap_cons, cardReadTrace]
    refine CardDone.append (cardRun_done (h 0 (Nat.succ_pos _))) (cardReadTrace_done fun j hj => ?_)
    have := h (j + 1) (Nat.succ_lt_succ hj)
    rw [show i + (j + 1) = i + 1 + j by omega] at this
    exact this

theorem cardReadTrace_length {o : Nat → Nat → CardUpdate} : ∀ {ts : List (Nat × Nat)} {i : Nat},
    (cardReadTrace o i ts).length ≤ (ts.flatMap fun t => cardSegments t.1 t.2).length
  | [], _ => Nat.le_refl _
  | t :: ts, i => by
    rw [List.flatMap_cons, cardReadTrace, List.length_append, List.length_append]
    exact Nat.add_le_add cardChain_length cardReadTrace_length

theorem cardChain_zero : ∀ {steps : List CardStep} {k : Nat}, (cardChain (fun _ => ⟨0, 0⟩) steps k 0).1 = 0
  | [], _ => rfl
  | step :: steps, k => by
    rw [cardChain, if_neg (by decide), if_neg (by decide)]
    exact cardChain_zero

theorem cardReadRun_needs : (cardReadRun card file len offset cardNoFailure).2.map Prod.fst =
    (cardReadTransfers card file len offset).flatMap fun t => cardSegments t.1 t.2 := by
  have hreads : ∀ ts, cardReadsOf ts cardNoFailure.sector = ⟨fun _ => 0, fun _ => 0⟩ := fun ts =>
    congrArg (CardReads.mk _) (funext fun i => cardChain_zero)
  unfold cardReadRun
  rw [hreads]
  exact (cardReadTrace_done fun j _ => cardRun_nofail (cardNoFailure_sector _) _).1

/-- **A read** is a success without all of its segments just if it stops at a transfer that it cannot start. -/
theorem cardReadRun_iff {o : CardOutcomes} : let r := cardReadRun card file len offset o
    (0 ≤ r.1 → CardDone ((cardReadRun card file len offset cardNoFailure).2.map Prod.fst) r.2) ↔
      ¬ cardReadSlips (cardReadTransfers card file len offset) o.sector := by
  rw [cardReadRun_needs]
  unfold cardReadRun
  dsimp only
  generalize hts : cardReadTransfers card file len offset = ts
  have hresult : ∀ i, 0 ≤ (cardReadsOf ts o.sector).result i ↔
      ∀ k < (cardSegments (ts.getD i (0, 0)).1 (ts.getD i (0, 0)).2).length, (o.sector i k).Succeeds := fun i => cardRun_iff
  constructor
  · rintro h ⟨j, hj, hlt, hok, hstart⟩
    have hall : ∀ i < j, 0 ≤ (cardReadsOf ts o.sector).start i ∧ 0 ≤ (cardReadsOf ts o.sector).result i := fun i hi =>
      ⟨(hok i hi 0 (cardSegments_pos _ _)).1, (hresult i).2 (hok i hi)⟩
    obtain ⟨hr, hlen⟩ := cardRead_refused hj (by rw [hts]; exact hlt) hall hstart
    obtain ⟨rest, hpre, -⟩ := cardRead_prefix hr
    rw [hts] at hpre
    -- the transfer that was refused has segments, which nobody read
    have hmap := congrArg List.length (h hr).1
    generalize (cardRead card file len offset (cardReadsOf ts o.sector)).2.2 = done at hlen hpre hmap
    have hle : (cardReadTrace o.sector 0 done).length ≤ _ := cardReadTrace_length
    rw [hpre, List.flatMap_append, List.length_append, List.length_map] at hmap
    cases rest with
    | nil =>
      rw [hpre, List.append_nil, hlen] at hlt
      exact Nat.lt_irrefl j hlt
    | cons t rest =>
      rw [List.flatMap_cons, List.length_append] at hmap
      have := cardSegments_pos t.1 t.2
      omega
  · intro hslip hr
    obtain ⟨rest, hpre, hall, hpos, hlast⟩ := cardRead_prefix hr
    rw [hts] at hpre
    generalize (cardRead card file len offset (cardReadsOf ts o.sector)).2.2 = done at hpre hall hpos hlast ⊢
    have hrest : rest = [] := by
      by_contra hne
      refine hslip ⟨done.length, hpos, ?_, fun i hi => (hresult i).1 (hall i hi), hlast hne⟩
      rw [hpre, List.length_append]
      exact Nat.lt_add_of_pos_right (List.length_pos_of_ne_nil hne)
    rw [hrest, List.append_nil] at hpre
    rw [hpre] at hall ⊢
    refine cardReadTrace_done fun j hj => ?_
    rw [Nat.zero_add]
    exact hall j hj

end Reads

/-! ## Writes -/

section Writes
variable {card : CardBlock} {o : CardOutcomes} {s : CardFs}

theorem cardWritesOf_sector (sector : Nat) {i : Nat} (herase : ¬ (cardWritesOf card o).erase i < 0)
    (hwrite : ¬ (cardWritesOf card o).write i < 0) : 0 ≤ (cardRun (o.sector i) (cardRewrite sector card.sector_size)).1 := by
  have hpages := cardRun_iff.1 (Int.not_lt.1 hwrite)
  refine cardRun_iff.2 fun k hk => ?_
  cases k with
  | zero => exact CardUpdate.outcome_iff.1 (Int.not_lt.1 herase)
  | succ k =>
    refine hpages k ?_
    rw [cardRewrite, List.length_cons, cardPages, List.length_map] at hk
    rw [cardPages, List.length_map]
    exact Nat.lt_of_succ_lt_succ hk

theorem CardFs.finish_result (s : CardFs) (now : Nat) (dir : Int) : (s.finish now dir).2 = dir := by
  unfold CardFs.finish
  dsimp only
  split <;> rfl

theorem cardWriteLoop_done (buf : Nat → BitVec 8) (now : Nat) : ∀ {n i usr : Nat} {s : CardFs}, s.card = card →
    0 ≤ (cardWriteLoop buf now (cardWritesOf card o) n i usr s).2 →
    CardDone ((cardWriteTrace card cardNoFailure n i s.file).map Prod.fst) (cardWriteTrace card o n i s.file)
  | 0, _, _, _, _, h => absurd h (by decide : ¬ 0 ≤ CARD_ERROR_BUSY)
  | n + 1, i, usr, s, hs, h => by
    rw [cardWriteLoop] at h
    split at h
    next herase => exact absurd h (Int.not_le.2 herase)
    next herase =>
      dsimp only at h
      split at h
      next hwrite => exact absurd h (Int.not_le.2 hwrite)
      next hwrite =>
        have hsector := cardWritesOf_sector (s.file.iblock * card.sector_size) herase hwrite
        have hnone := cardRun_nofail (cardNoFailure_sector i) (cardRewrite (s.file.iblock * card.sector_size) card.sector_size)
        split at h
        · exact absurd h (by decide : ¬ 0 ≤ CARD_ERROR_CANCELED)
        next hlen =>
          rw [cardWriteTrace, cardWriteTrace]
          dsimp only
          rw [if_neg (not_or.2 ⟨Int.not_lt.2 hsector, hlen⟩), if_neg (not_or.2 ⟨Int.not_lt.2 hnone, hlen⟩)]
          rw [hs] at h
          split at h
          next hlast =>
            rw [if_pos hlast, if_pos hlast]
            rw [CardFs.finish_result] at h
            have hdir : 0 ≤ (cardRun o.dir card.dirSteps).1 := le_of_le_of_eq h (cardStarted_outcome _ _)
            exact ((cardRun_done hsector).append (cardRun_done hdir)).of_trace
              ((cardRun_done hnone).append (cardRun_done (cardRun_nofail cardNoFailure_dir _)))
          next hlast =>
            rw [if_neg hlast, if_neg hlast]
            split at h
            · exact absurd h (by decide : ¬ 0 ≤ CARD_ERROR_BROKEN)
            next hout =>
              rw [if_neg hout, if_neg hout, List.map_append, (cardRun_done hnone).1]
              exact (cardRun_done hsector).append (cardWriteLoop_done buf now (by rfl) h)

theorem cardWriteRun_done {buf : Nat → BitVec 8} {len offset now : Nat} (h : 0 ≤ (cardWriteRun s buf len offset now o).1) :
    CardDone ((cardWriteRun s buf len offset now cardNoFailure).2.map Prod.fst) (cardWriteRun s buf len offset now o).2 := by
  unfold cardWriteRun at h ⊢
  dsimp only at h ⊢
  unfold cardWrite at h
  dsimp only at h
  split at h
  next hseek => exact absurd h (Int.not_le.2 hseek)
  next hseek =>
    split at h
    · exact absurd h (by decide : ¬ 0 ≤ CARD_ERROR_FATAL_ERROR)
    next haligned =>
      rw [if_neg (not_or.2 ⟨hseek, haligned⟩), if_neg (not_or.2 ⟨hseek, haligned⟩)]
      exact cardWriteLoop_done buf now (by rfl) h

end Writes

/-! ## The results -/

/-- **No false success**: what a call that ends well needs was started and came to a good end, unless a creation goes on behind a table that
was not written, or a read stops at a transfer that it cannot start. -/
theorem card_no_false_success (ids : CardIds) (s : CardFs) (o : CardOutcomes) (op : CardOperation) :
    (0 ≤ (op.run ids s o).1 → CardDone (op.needs ids s) (op.run ids s o).2) ↔ ¬ op.slips s ids o := by
  cases op with
  | create filename size now => exact cardCreateRun_iff
  | createEntry d now => exact cardCreateRun_iff
  | delete filename => exact ⟨fun _ => id, fun _ => cardDeleteRun_done⟩
  | setStatus fileno stats now => exact ⟨fun _ => id, fun _ => cardSetStatusRun_done⟩
  | read len offset => exact cardReadRun_iff
  | write buf len offset now => exact ⟨fun _ => id, fun _ => cardWriteRun_done⟩

end Libogc
