import Libogc.Card.Card
/-!
# Commands — what a memory card is sent, and what is left when that fails

`__card_writepage`, `__card_readsegment` and `__card_sectorerase` begin with `__card_start`, which takes the channel for the driver;
`__retry` sends the last command again while the driver holds the channel.  The outcomes of the EXI calls are arguments.

All of them are in a slot that there is.  The timeout is left out.
-/
namespace Libogc

/-- What the EXI calls of a command come to; a command is sent by one, and the latency of a read by another. -/
structure ExiOutcomes where
  lock : Bool
  select : Bool
  imm_cmd : Bool
  imm_latency : Bool
  dma : Bool
  deriving DecidableEq, Repr

/-- What `card_block` says of the command that is sent, and what the driver holds of the channel. -/
structure CardPort (κ : Type) where
  locked : Bool
  selected : Bool
  cmd : List Nat
  cmd_len : Nat
  cmd_mode : Nat
  cmd_retries : Nat
  cmd_sector_addr : Nat
  sector_size : Nat
  card_tx_cb : Option κ
  card_exi_cb : Option κ
  /-- `card_unlock_cb` is `__unlocked_callback`, and not `NULL`. -/
  card_unlock_cb : Bool
  deriving DecidableEq, Repr

def EXI_READ : Nat := 0
def EXI_WRITE : Nat := 1

/-- The mode of a command without data, -1 -/
def CARD_MODE_NONE : Nat := 2 ^ 32 - 1

section Commands
variable {κ : Type}

namespace CardPort

/-- `EXI_Deselect` and `EXI_Unlock` -/
def release (card : CardPort κ) : CardPort κ := { card with selected := false, locked := false }

/-- `__card_start` -/
def start (card : CardPort κ) (o : ExiOutcomes) (tx_cb exi_cb : Option κ) : CardPort κ × Int :=
  let card := { card with card_tx_cb := tx_cb.or card.card_tx_cb, card_exi_cb := exi_cb.or card.card_exi_cb, card_unlock_cb := true }
  if !o.lock then (card, CARD_ERROR_BUSY)
  else
    let card := { card with locked := true, card_unlock_cb := false }
    if !o.select then ({ card with locked := false }, CARD_ERROR_NOCARD)
    else ({ card with selected := true }, CARD_ERROR_READY)

/-- The command word of a transfer from or to the card -/
def transfer (card : CardPort κ) (command mode retries : Nat) : CardPort κ :=
  let addr := card.cmd_sector_addr
  { card with
    cmd := [command, (addr &&& 0xfe0000) >>> 17, (addr &&& 0x01fe00) >>> 9, (addr &&& 0x000180) >>> 7, addr &&& 0x00007f]
    cmd_len := 5, cmd_mode := mode, cmd_retries := retries }

/-- `__card_writepage` -/
def writepage (card : CardPort κ) (o : ExiOutcomes) (callback : Option κ) : CardPort κ × Int :=
  let r := (card.transfer 0xf2 EXI_WRITE 3).start o none callback
  if r.2 < 0 then r
  else if o.imm_cmd && o.dma then (r.1, CARD_ERROR_READY)
  else ({ r.1 with card_exi_cb := none }.release, CARD_ERROR_NOCARD)

/-- `__card_readsegment` -/
def readsegment (card : CardPort κ) (o : ExiOutcomes) (callback : Option κ) : CardPort κ × Int :=
  let r := (card.transfer 0x52 EXI_READ 0).start o callback none
  if r.2 < 0 then r
  else if o.imm_cmd && o.imm_latency && o.dma then (r.1, CARD_ERROR_READY)
  else ({ r.1 with card_tx_cb := none }.release, CARD_ERROR_NOCARD)

/-- `__card_sectorerase` -/
def sectorerase (card : CardPort κ) (o : ExiOutcomes) (sector : Nat) (callback : Option κ) : CardPort κ × Int :=
  if sector % card.sector_size ≠ 0 then (card, CARD_ERROR_FATAL_ERROR)
  else
    let card := { card with
      cmd := 0xf1 :: (sector >>> 17 &&& 0x7f) :: (sector >>> 9 &&& 0xff) :: card.cmd.drop 3
      cmd_len := 3, cmd_mode := CARD_MODE_NONE, cmd_retries := 3 }
    let r := card.start o none callback
    if r.2 < 0 then r
    else if !o.imm_cmd then ({ r.1 with card_exi_cb := none }, CARD_ERROR_NOCARD)
    else (r.1.release, r.2)

/-- `__retry` -/
def retry (card : CardPort κ) (o : ExiOutcomes) : CardPort κ × Int :=
  if !o.select then ({ card with locked := false }, CARD_ERROR_NOCARD)
  else
    let card := { card with selected := true }
    if !o.imm_cmd then (card.release, CARD_ERROR_NOCARD)
    else if card.cmd.head? = some 0x52 ∧ !o.imm_latency then (card.release, CARD_ERROR_NOCARD)
    else if card.cmd_mode = CARD_MODE_NONE then (card.release, CARD_ERROR_READY)
    else if !o.dma then (card.release, CARD_ERROR_NOCARD)
    else (card, CARD_ERROR_READY)

end CardPort

/-- The four, each with the callback that the command was given; `__retry` is not given one, and its command was. -/
inductive CardCommand (κ : Type)
  | writepage (callback : Option κ)
  | readsegment (callback : Option κ)
  | sectorerase (sector : Nat) (callback : Option κ)
  | retry (callback : Option κ)

namespace CardCommand

def run : CardCommand κ → ExiOutcomes → CardPort κ → CardPort κ × Int
  | writepage callback, o, card => card.writepage o callback
  | readsegment callback, o, card => card.readsegment o callback
  | sectorerase sector callback, o, card => card.sectorerase o sector callback
  | retry _, o, card => card.retry o

def callback : CardCommand κ → Option κ
  | writepage callback | readsegment callback | sectorerase _ callback | retry callback => callback

end CardCommand

/-- A field for a callback has this one. -/
def CardPort.holds (card : CardPort κ) (callback : Option κ) : Prop :=
  callback ≠ none ∧ (card.card_tx_cb = callback ∨ card.card_exi_cb = callback)

/-- What a command has to leave when it fails. -/
structure CardReleased (callback : Option κ) (card : CardPort κ) : Prop where
  selected : card.selected = false
  locked : card.locked = false
  callback : ¬ card.holds callback

/-- A command whose outcome is a failure has released what it took, unless the channel was busy. -/
def CardReleases (callback : Option κ) (r : CardPort κ × Int) : Prop := r.2 < 0 → r.2 ≠ CARD_ERROR_BUSY → CardReleased callback r.1

/-- `EXI_Select` does not fail on `__card_start`, or there is no callback to leave and nothing was selected before. -/
def cardStartExact (callback : Option κ) (o : ExiOutcomes) (card : CardPort κ) : Prop :=
  o.select = false → card.selected = false ∧ callback = none

/-- A command releases all it took: an erasure is sent if it is started, and is not asked for at an address within a sector; the channel is
selected if it could be locked; and the field for the other callback does not have this one from before. -/
def cardReleaseExact (o : ExiOutcomes) (card : CardPort κ) : CardCommand κ → Prop
  | .writepage callback => o.lock = true → cardStartExact callback o card ∧
      (o.select = true → (o.imm_cmd && o.dma) = false → callback = none ∨ card.card_tx_cb ≠ callback)
  | .readsegment callback => o.lock = true → cardStartExact callback o card ∧
      (o.select = true → (o.imm_cmd && o.imm_latency && o.dma) = false → callback = none ∨ card.card_exi_cb ≠ callback)
  | .sectorerase sector callback =>
    if sector % card.sector_size ≠ 0 then card.selected = false ∧ card.locked = false ∧ ¬ card.holds callback
    else o.lock = true → cardStartExact callback o card ∧ (o.select = true → o.imm_cmd = true)
  | .retry callback =>
    (o.select = false ∨ o.imm_cmd = false ∨ (card.cmd.head? = some 0x52 ∧ o.imm_latency = false) ∨
      (card.cmd_mode ≠ CARD_MODE_NONE ∧ o.dma = false)) → ¬ card.holds callback ∧ (o.select = false → card.selected = false)

/-! ## What a failure leaves -/

section Start
variable {card : CardPort κ} {o : ExiOutcomes} {tx_cb exi_cb callback : Option κ}

/-- The state in which `__card_start` has locked the channel, but for the lock. -/
def CardPort.begun (card : CardPort κ) (tx_cb exi_cb : Option κ) : CardPort κ :=
  { card with card_tx_cb := tx_cb.or card.card_tx_cb, card_exi_cb := exi_cb.or card.card_exi_cb, card_unlock_cb := false }

theorem CardPort.start_busy (h : o.lock = false) : (card.start o tx_cb exi_cb).2 = CARD_ERROR_BUSY := by
  unfold start
  rw [h]
  rfl

theorem CardPort.start_unselected (h : o.lock = true) (hs : o.select = false) :
    card.start o tx_cb exi_cb = ({ card.begun tx_cb exi_cb with locked := false }, CARD_ERROR_NOCARD) := by
  unfold start
  rw [h, hs]
  rfl

theorem CardPort.start_ready (h : o.lock = true) (hs : o.select = true) :
    card.start o tx_cb exi_cb = ({ card.begun tx_cb exi_cb with locked := true, selected := true }, CARD_ERROR_READY) := by
  unfold start
  rw [h, hs]
  rfl

theorem CardReleases.of_not_failed {r : CardPort κ × Int} (h : 0 ≤ r.2 ∨ r.2 = CARD_ERROR_BUSY) : CardReleases callback r :=
  fun hneg hbusy => h.elim (fun h => absurd hneg (Int.not_lt.2 h)) fun h => absurd h hbusy

theorem cardReleases_nocard : CardReleases callback (card, CARD_ERROR_NOCARD) ↔ CardReleased callback card :=
  ⟨fun h => h (by decide : CARD_ERROR_NOCARD < 0) (by decide : CARD_ERROR_NOCARD ≠ CARD_ERROR_BUSY), fun h _ _ => h⟩

/-- A callback is in its field after `__card_start`, so a failure there leaves it. -/
theorem CardPort.begun_released (h : tx_cb = none ∧ exi_cb = callback ∨ tx_cb = callback ∧ exi_cb = none) :
    CardReleased callback { card.begun tx_cb exi_cb with locked := false } ↔ card.selected = false ∧ callback = none := by
  constructor
  · intro hr
    refine ⟨hr.selected, ?_⟩
    cases callback with
    | none => rfl
    | some cb =>
      refine absurd ⟨Option.some_ne_none cb, ?_⟩ hr.callback
      obtain ⟨-, rfl⟩ | ⟨rfl, -⟩ := h
      · exact .inr rfl
      · exact .inl rfl
  · intro ⟨hs, hnone⟩
    exact ⟨hs, rfl, fun hh => hh.1 hnone⟩

theorem cardReleased_release : CardReleased callback card.release ↔ ¬ card.holds callback :=
  ⟨fun hr => hr.callback, fun h => ⟨rfl, rfl, h⟩⟩

/-- A command that begins with `__card_start` and goes on with `rest`: the part up to the selection is the same for all. -/
theorem cardReleases_start (card : CardPort κ) (rest : CardPort κ × Int → CardPort κ × Int) {P : Prop}
    (h : tx_cb = none ∧ exi_cb = callback ∨ tx_cb = callback ∧ exi_cb = none)
    (hrest : CardReleases callback (rest ({ card.begun tx_cb exi_cb with locked := true, selected := true }, CARD_ERROR_READY)) ↔ P) :
    CardReleases callback
        (if (card.start o tx_cb exi_cb).2 < 0 then card.start o tx_cb exi_cb else rest (card.start o tx_cb exi_cb)) ↔
      (o.lock = true → cardStartExact callback o card ∧ (o.select = true → P)) := by
  unfold cardStartExact
  cases hl : o.lock with
  | false =>
    have hb : (card.start o tx_cb exi_cb).2 = CARD_ERROR_BUSY := CardPort.start_busy hl
    rw [if_pos (by rw [hb]; decide)]
    exact iff_of_true (.of_not_failed (.inr hb)) nofun
  | true =>
    cases hs : o.select with
    | false =>
      rw [CardPort.start_unselected hl hs, if_pos (by decide : CARD_ERROR_NOCARD < 0), cardReleases_nocard, CardPort.begun_released h]
      exact ⟨fun h _ => ⟨fun _ => h, nofun⟩, fun h => (h rfl).1 rfl⟩
    | true =>
      rw [CardPort.start_ready hl hs, if_neg (by decide : ¬ CARD_ERROR_READY < 0), hrest]
      exact ⟨fun h _ => ⟨nofun, fun _ => h⟩, fun h => (h rfl).2 rfl⟩

end Start

section Each
variable (card : CardPort κ) (o : ExiOutcomes) (callback : Option κ)

theorem card_writepage_releases : CardReleases callback (card.writepage o callback) ↔ cardReleaseExact o card (.writepage callback) := by
  refine cardReleases_start (card.transfer 0xf2 EXI_WRITE 3) (fun r => if o.imm_cmd && o.dma then (r.1, CARD_ERROR_READY)
    else ({ r.1 with card_exi_cb := none }.release, CARD_ERROR_NOCARD)) (.inl ⟨rfl, rfl⟩) ?_
  dsimp only
  cases hsent : o.imm_cmd && o.dma with
  | true => exact iff_of_true (.of_not_failed (.inl (Int.le_refl 0))) nofun
  | false =>
    rw [if_neg (by decide), cardReleases_nocard, cardReleased_release]
    refine ⟨fun h _ => ?_, fun h hh => ?_⟩
    · exact or_iff_not_imp_left.2 fun hne htx => h ⟨hne, .inl htx⟩
    · -- the field for the callback was cleared
      exact hh.2.elim ((h rfl).resolve_left hh.1) fun hexi => hh.1 hexi.symm

theorem card_readsegment_releases : CardReleases callback (card.readsegment o callback) ↔ cardReleaseExact o card (.readsegment callback) := by
  refine cardReleases_start (card.transfer 0x52 EXI_READ 0) (fun r => if o.imm_cmd && o.imm_latency && o.dma then (r.1, CARD_ERROR_READY)
    else ({ r.1 with card_tx_cb := none }.release, CARD_ERROR_NOCARD)) (.inr ⟨rfl, rfl⟩) ?_
  dsimp only
  cases hsent : o.imm_cmd && o.imm_latency && o.dma with
  | true => exact iff_of_true (.of_not_failed (.inl (Int.le_refl 0))) nofun
  | false =>
    rw [if_neg (by decide), cardReleases_nocard, cardReleased_release]
    refine ⟨fun h _ => ?_, fun h hh => ?_⟩
    · exact or_iff_not_imp_left.2 fun hne hexi => h ⟨hne, .inr hexi⟩
    · exact hh.2.elim (fun htx => hh.1 htx.symm) ((h rfl).resolve_left hh.1)

/-- The command of an erasure that was started is not sent, and the channel stays selected. -/
theorem card_sectorerase_releases (sector : Nat) :
    CardReleases callback (card.sectorerase o sector callback) ↔ cardReleaseExact o card (.sectorerase sector callback) := by
  rw [CardPort.sectorerase, cardReleaseExact]
  by_cases hs : sector % card.sector_size ≠ 0
  · rw [if_pos hs, if_pos hs]
    refine ⟨fun h => ?_, fun ⟨hsel, hlock, hcb⟩ _ _ => ⟨hsel, hlock, hcb⟩⟩
    have hr : CardReleased callback card :=
      h (by decide : CARD_ERROR_FATAL_ERROR < 0) (by decide : CARD_ERROR_FATAL_ERROR ≠ CARD_ERROR_BUSY)
    exact ⟨hr.selected, hr.locked, hr.callback⟩
  · rw [if_neg hs, if_neg hs]
    refine cardReleases_start { card with
        cmd := 0xf1 :: (sector >>> 17 &&& 0x7f) :: (sector >>> 9 &&& 0xff) :: card.cmd.drop 3
        cmd_len := 3, cmd_mode := CARD_MODE_NONE, cmd_retries := 3 }
      (fun r => if !o.imm_cmd then ({ r.1 with card_exi_cb := none }, CARD_ERROR_NOCARD) else (r.1.release, r.2)) (.inl ⟨rfl, rfl⟩) ?_
    dsimp only
    cases o.imm_cmd with
    | true => exact iff_of_true (.of_not_failed (.inl (Int.le_refl 0))) rfl
    | false =>
      rw [if_pos (by decide), cardReleases_nocard]
      exact iff_of_false (fun hr => Bool.noConfusion hr.selected) nofun

theorem card_retry_releases : CardReleases callback (card.retry o) ↔ cardReleaseExact o card (.retry callback) := by
  rw [CardPort.retry, cardReleaseExact]
  cases hs : o.select with
  | false =>
    rw [if_pos (by decide), cardReleases_nocard]
    refine ⟨fun hr _ => ⟨hr.callback, fun _ => hr.selected⟩, fun h => ?_⟩
    obtain ⟨hcb, hsel⟩ := h (.inl rfl)
    exact ⟨hsel rfl, rfl, hcb⟩
  | true =>
    rw [if_neg (by decide)]
    dsimp only
    -- every failure from here on ends in the same way
    have hfail : CardReleases callback ({ card with selected := true }.release, CARD_ERROR_NOCARD) ↔ ¬ card.holds callback := by
      rw [cardReleases_nocard, cardReleased_release]
      rfl
    cases hi : o.imm_cmd with
    | false =>
      rw [if_pos (by decide), hfail]
      exact ⟨fun h _ => ⟨h, nofun⟩, fun h => (h (.inr (.inl rfl))).1⟩
    | true =>
      rw [if_neg (by decide)]
      by_cases hl : card.cmd.head? = some 0x52 ∧ !o.imm_latency
      · rw [if_pos hl, hfail]
        exact ⟨fun h _ => ⟨h, nofun⟩, fun h => (h (.inr (.inr (.inl ⟨hl.1, by simpa using hl.2⟩)))).1⟩
      · rw [if_neg hl]
        have hnl : ¬ (card.cmd.head? = some 0x52 ∧ o.imm_latency = false) := by simpa using hl
        by_cases hm : card.cmd_mode = CARD_MODE_NONE
        · rw [if_pos hm]
          refine iff_of_true (.of_not_failed (.inl (Int.le_refl 0))) fun h => ?_
          simp [hm, hnl] at h
        · rw [if_neg hm]
          cases hd : o.dma with
          | false =>
            rw [if_pos (by decide), hfail]
            exact ⟨fun h _ => ⟨h, nofun⟩, fun h => (h (.inr (.inr (.inr ⟨hm, rfl⟩)))).1⟩
          | true =>
            rw [if_neg (by decide)]
            refine iff_of_true (.of_not_failed (.inl (Int.le_refl 0))) fun h => ?_
            simp [hnl] at h

/-- **A command that fails has released the channel and its callback** exactly under this condition. -/
theorem card_releases (c : CardCommand κ) : CardReleases c.callback (c.run o card) ↔ cardReleaseExact o card c := by
  cases c with
  | writepage callback => exact card_writepage_releases card o callback
  | readsegment callback => exact card_readsegment_releases card o callback
  | sectorerase sector callback => exact card_sectorerase_releases card o callback sector
  | retry callback => exact card_retry_releases card o callback

end Each

end Commands

/-- A channel that nobody holds. -/
def cardPort0 : CardPort Nat := ⟨false, false, [0, 0, 0, 0, 0], 0, 0, 0, 0, 8192, none, none, false⟩

/-- The erasure is started, but its command is not sent: the channel stays selected and locked. -/
theorem card_sectorerase_keeps : ¬ ∀ (c : CardCommand Nat) (o : ExiOutcomes) (card : CardPort Nat), CardReleases c.callback (c.run o card) := by
  intro h
  have hr := h (.sectorerase 0xa000 (some 0)) ⟨true, true, false, true, true⟩ cardPort0
  exact absurd (hr (by decide) (by decide)).selected (by decide)

end Libogc
