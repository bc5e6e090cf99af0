import Libogc.Lib.Runs
import Libogc.Lib.Words
import Libogc.Lwp.Kernel
import Mathlib.Data.Fintype.Card
/-!
# Watchdog — `lwp_watchdog.c` and `lwp_watchdog.inl`

The timers of the kernel: a queue of watchdogs ordered by the time they fire at.  `__lwp_wd_settimer` marks a head that is due
already by storing 0 in place of its time.  Each reading of the system time is an argument of the operation that makes it.

`_CPU_ISR_Flash` opens the scan of an insertion to interrupts.  The operations here are whole, one after the other; a scan still
starts again when the level left by an insertion in an interrupt is above its own.
-/
namespace Libogc

open Links

structure WdCntrl where
  start : Nat
  state : WdState
  fire : Nat
  deriving DecidableEq, Repr

/-- The watchdogs, the links of `_wd_ticks_queue`, and the words the operations share. -/
structure Watchdogs (W : Type) where
  links : Mem Unit W
  wd : W → WdCntrl
  syncLevel : Nat
  syncCount : Nat
  dec : Nat

variable {W : Type} [DecidableEq W]

def Watchdogs.setState (s : Watchdogs W) (w : W) (v : WdState) : Watchdogs W :=
  { s with wd := Function.update s.wd w { s.wd w with state := v } }

def Watchdogs.setFire (s : Watchdogs W) (w : W) (v : Nat) : Watchdogs W :=
  { s with wd := Function.update s.wd w { s.wd w with fire := v } }

/-- `diff_ticks`, on words of 64 bits. -/
def diffTicks (tick₀ tick₁ : Nat) : Nat :=
  if tick₁ < tick₀ then (2 ^ 64 - 1 - tick₀ + tick₁) % 2 ^ 64 else tick₁ - tick₀

def lwpWdSettimer (s : Watchdogs W) (w : W) (now : Nat) : Watchdogs W :=
  let diff := s64 (diffTicks now (s.wd w).fire)
  if diff ≤ 0 then { s.setFire w 0 with dec := 0 }
  else if diff < 0x80000000 then { s with dec := diff.toNat }
  else { s with dec := 0x7fffffff }

/-- The scan of `__lwp_wd_insert`, from `after` on; a queue of `n` nodes is gone through twice at most. -/
def lwpWdScan (s : Watchdogs W) (isrNestLevel fire : Nat) : Nat → Link Unit W → Watchdogs W × Link Unit W
  | fuel + 1, .node a =>
    if fire = 0 ∨ s.links.next (.node a) = .null then (s, .node a)
    else if fire < (s.wd a).fire then (s, .node a)
    else if s.syncLevel > isrNestLevel then
      lwpWdScan { s with syncLevel := isrNestLevel } isrNestLevel fire fuel (s.links.next (.head ()))
    else lwpWdScan s isrNestLevel fire fuel (s.links.next (.node a))
  | _, after => (s, after)

/-- What follows the scan. -/
def lwpWdInsertAt (s : Watchdogs W) (w : W) (fire : Nat) (after : Link Unit W) (isrNestLevel now : Nat) : Watchdogs W :=
  let s := (s.setState w .active).setFire w fire
  let s := { s with links := lwpQueueInsertI s.links (s.links.prev after) w }
  let s := if s.links.next (.head ()) = .node w then lwpWdSettimer s w now else s
  { s with syncLevel := isrNestLevel, syncCount := s.syncCount - 1 }

def Watchdogs.enter (s : Watchdogs W) (w : W) : Watchdogs W := { s.setState w .inserted with syncCount := s.syncCount + 1 }

/-- `isrNestLevel` is `__lwp_isr_in_progress` and `now` is what `__lwp_wd_settimer` reads. -/
def lwpWdInsert [Fintype W] (s : Watchdogs W) (w : W) (isrNestLevel now : Nat) : Watchdogs W :=
  let fire := (s.wd w).fire
  let r := lwpWdScan (s.enter w) isrNestLevel fire (2 * Fintype.card W + 2) ((s.enter w).links.next (.head ()))
  lwpWdInsertAt r.1 w fire r.2 isrNestLevel now

/-- The part of `__lwp_wd_remove` for a watchdog that is linked. -/
def lwpWdUnlink (s : Watchdogs W) (w : W) (isrNestLevel now : Nat) : Watchdogs W :=
  let next := s.links.next (.node w)
  let s := { s with syncLevel := if s.syncCount ≠ 0 then isrNestLevel else s.syncLevel }
  let s := { s with links := lwpQueueExtractI s.links w }
  match next with
  | .node v => if s.links.next (.head ()) = .node v then lwpWdSettimer s v now else s
  | _ => s

def lwpWdRemove (s : Watchdogs W) (w : W) (isrNestLevel now : Nat) : Watchdogs W × WdState :=
  let prevState := (s.wd w).state
  match prevState with
  | .inactive => (s, prevState)
  | .inserted => (s.setState w .inactive, prevState)
  | .active | .remove => (lwpWdUnlink (s.setState w .inactive) w isrNestLevel now, prevState)

def lwpWdReset [Fintype W] (s : Watchdogs W) (w : W) (isrNestLevel now now' : Nat) : Watchdogs W :=
  lwpWdInsert (lwpWdRemove s w isrNestLevel now).1 w isrNestLevel now'

def Watchdogs.setTimes (s : Watchdogs W) (w : W) (start fire : Nat) : Watchdogs W :=
  { s with wd := Function.update s.wd w { s.wd w with start := start, fire := fire } }

/-- `start` is read first, `now` by `__lwp_wd_settimer`. -/
def Watchdogs.lwpWdInsertTicks [Fintype W] (s : Watchdogs W) (w : W) (interval : Int) (isrNestLevel start now : Nat) :
    Watchdogs W :=
  lwpWdInsert (s.setTimes w start ((start + interval.natAbs) % 2 ^ 64)) w isrNestLevel now

/-! ## What they do to the queue -/

/-- The links of the one queue. -/
def Watchdogs.Holds (s : Watchdogs W) (xs : List W) : Prop := Rep s.links fun _ => some xs

/-- `__lwp_wd_settimer` finds a watchdog due. -/
def wdDue (fire now : Nat) : Prop := s64 (diffTicks now fire) ≤ 0

instance (fire now : Nat) : Decidable (wdDue fire now) := inferInstanceAs (Decidable (_ ≤ _))

variable {fire : Nat} {w : W} {s : Watchdogs W} {xs : List W}

theorem wdDue_iff {now : Nat} (hf : fire < 2 ^ 63) (hn : now < 2 ^ 63) : wdDue fire now ↔ fire ≤ now := by
  unfold wdDue s64 diffTicks
  by_cases h : fire < now
  · rw [if_pos h, Nat.mod_eq_of_lt (by omega), if_neg (by omega)]
    omega
  · rw [if_neg h, if_pos (by omega)]
    omega

/-- The watchdogs after `__lwp_wd_settimer`. -/
def wdMark (wd : W → WdCntrl) (w : W) (now : Nat) : W → WdCntrl :=
  if wdDue (wd w).fire now then Function.update wd w { wd w with fire := 0 } else wd

variable {v : W} {isrNestLevel : Nat} {l₁ l₂ k₂ : List W}

theorem wdMark_ne (wd : W → WdCntrl) (now : Nat) (h : v ≠ w) : wdMark wd w now v = wd v := by
  unfold wdMark
  split
  · exact Function.update_of_ne h ..
  · rfl

theorem wdMark_state (wd : W → WdCntrl) (w : W) (now : Nat) (v : W) : (wdMark wd w now v).state = (wd v).state := by
  by_cases h : v = w
  · unfold wdMark
    subst h
    split
    · rw [Function.update_self]
    · rfl
  · rw [wdMark_ne wd now h]

theorem lwpWdSettimer_links (s : Watchdogs W) (w : W) (now : Nat) : (lwpWdSettimer s w now).links = s.links := by
  unfold lwpWdSettimer Watchdogs.setFire
  dsimp only
  split_ifs <;> rfl

theorem lwpWdSettimer_wd (s : Watchdogs W) (w : W) (now : Nat) : (lwpWdSettimer s w now).wd = wdMark s.wd w now := by
  unfold lwpWdSettimer wdMark
  by_cases h : wdDue (s.wd w).fire now
  · have h' : s64 (diffTicks now (s.wd w).fire) ≤ 0 := h
    dsimp only
    rw [if_pos h, if_pos h']
    rfl
  · have h' : ¬ s64 (diffTicks now (s.wd w).fire) ≤ 0 := h
    dsimp only
    rw [if_neg h, if_neg h']
    split <;> rfl

theorem lwpWdSettimer_syncCount (s : Watchdogs W) (w : W) (now : Nat) : (lwpWdSettimer s w now).syncCount = s.syncCount := by
  unfold lwpWdSettimer Watchdogs.setFire
  dsimp only
  split_ifs <;> rfl

/-- The watchdogs an insertion goes past. -/
def wdPast (wd : W → WdCntrl) (fire : Nat) (a : W) : Bool := fire ≠ 0 ∧ ¬ fire < (wd a).fire

theorem queue_update {Q N : Type} [DecidableEq Q] [Subsingleton Q] (q : Q) (xs ys : List N) :
    Function.update (fun _ : Q => some xs) q (some ys) = fun _ => some ys := by
  funext q'
  rw [Subsingleton.elim q' q, Function.update_self]

omit [DecidableEq W] in
theorem Watchdogs.Holds.next_head (h : s.Holds xs) : s.links.next (.head ()) = firstOf xs (.tail ()) := Rep.next_head (q := ()) h rfl

omit [DecidableEq W] in
theorem Watchdogs.Holds.nodup (h : s.Holds xs) : xs.Nodup := Rep.nodup (q := ()) h rfl

theorem lwpQueueInitEmpty_holds {Q N : Type} [DecidableEq Q] [DecidableEq N] [Subsingleton Q] (links : Mem Q N) (q : Q) :
    Rep (lwpQueueInitEmpty links q) fun _ => some [] := by
  have he : Function.update (fun _ : Q => (none : Option (List N))) q (some []) = fun _ => some [] := by
    funext q'
    rw [Subsingleton.elim q' q, Function.update_self]
  rw [← he]
  exact lwpQueueInitEmpty_rep (Rep.nothing links) q

/-- From a node on, a scan at its own level stops before the first watchdog that fires later. -/
theorem lwpWdScan_from {ys : List W} : ∀ {s : Watchdogs W} (pre : List W) {fuel : Nat},
    s.Holds (pre ++ ys) → s.syncLevel ≤ isrNestLevel → ys.length ≤ fuel →
    lwpWdScan s isrNestLevel fire fuel (firstOf ys (.tail ())) = (s, firstOf (ys.dropWhile (wdPast s.wd fire)) (.tail ())) := by
  induction ys with
  | nil =>
    intro s pre fuel _ _ _
    cases fuel <;> rfl
  | cons a ys ih =>
    intro s pre fuel hs hlev hfuel
    obtain ⟨fuel, rfl⟩ : ∃ n, fuel = n + 1 := ⟨fuel - 1, by rw [List.length_cons] at hfuel; omega⟩
    have hnext : s.links.next (.node a) = firstOf ys (.tail ()) := Rep.next_node (q := ()) hs rfl
    have hnull : s.links.next (.node a) ≠ .null := by
      rw [hnext]
      rcases firstOf_cases () ys with e | ⟨y, -, e⟩ <;> rw [e] <;> simp
    show lwpWdScan s isrNestLevel fire (fuel + 1) (.node a) = _
    unfold lwpWdScan
    by_cases hstop : fire = 0 ∨ fire < (s.wd a).fire
    · have hdrop : (a :: ys).dropWhile (wdPast s.wd fire) = a :: ys := by
        rw [List.dropWhile_cons, if_neg]
        simp only [wdPast, decide_eq_true_eq]
        omega
      rw [hdrop]
      rcases hstop with h0 | h0
      · rw [if_pos (.inl h0)]
        rfl
      · by_cases hz : fire = 0
        · rw [if_pos (.inl hz)]
          rfl
        · rw [if_neg (by rw [not_or]; exact ⟨hz, hnull⟩), if_pos h0]
          rfl
    · rw [not_or] at hstop
      rw [if_neg (by rw [not_or]; exact ⟨hstop.1, hnull⟩), if_neg hstop.2, if_neg (by omega), hnext,
        List.dropWhile_cons, if_pos (by simpa [wdPast] using ⟨hstop.1, Nat.le_of_not_lt hstop.2⟩)]
      refine ih (pre ++ [a]) (by simpa using hs) hlev ?_
      rw [List.length_cons] at hfuel
      omega

/-- **Where an insertion goes**: before the first watchdog that fires later. -/
theorem lwpWdScan_eq {fuel : Nat} (hs : s.Holds xs) (hfuel : xs.length < fuel) :
    ∃ level, lwpWdScan s isrNestLevel fire fuel (firstOf xs (.tail ())) =
      ({ s with syncLevel := level }, firstOf (xs.dropWhile (wdPast s.wd fire)) (.tail ())) := by
  by_cases hlev : s.syncLevel ≤ isrNestLevel
  · exact ⟨s.syncLevel, lwpWdScan_from [] hs hlev (by omega)⟩
  · cases xs with
    | nil =>
      refine ⟨s.syncLevel, ?_⟩
      cases fuel <;> rfl
    | cons a ys =>
      obtain ⟨fuel, rfl⟩ : ∃ n, fuel = n + 1 := ⟨fuel - 1, by omega⟩
      have hs' : s.Holds ([] ++ a :: ys) := hs
      have hnext : s.links.next (.node a) = firstOf ys (.tail ()) := Rep.next_node (q := ()) hs' rfl
      have hnull : s.links.next (.node a) ≠ .null := by
        rw [hnext]
        rcases firstOf_cases () ys with e | ⟨y, -, e⟩ <;> rw [e] <;> simp
      have hrestart : lwpWdScan { s with syncLevel := isrNestLevel } isrNestLevel fire fuel (firstOf (a :: ys) (.tail ())) = _ :=
        lwpWdScan_from [] hs' (Nat.le_refl _) (by omega)
      by_cases hstop : fire = 0 ∨ fire < (s.wd a).fire
      · refine ⟨s.syncLevel, ?_⟩
        have hdrop : (a :: ys).dropWhile (wdPast s.wd fire) = a :: ys := by
          rw [List.dropWhile_cons, if_neg]
          simp only [wdPast, decide_eq_true_eq]
          omega
        rw [hdrop]
        show lwpWdScan s isrNestLevel fire (fuel + 1) (.node a) = _
        unfold lwpWdScan
        rcases hstop with h0 | h0
        · rw [if_pos (.inl h0)]
          rfl
        · by_cases hz : fire = 0
          · rw [if_pos (.inl hz)]
            rfl
          · rw [if_neg (by rw [not_or]; exact ⟨hz, hnull⟩), if_pos h0]
            rfl
      · refine ⟨isrNestLevel, ?_⟩
        rw [not_or] at hstop
        rw [← hrestart]
        show lwpWdScan s isrNestLevel fire (fuel + 1) (.node a) = _
        rw [lwpWdScan, if_neg (by rw [not_or]; exact ⟨hstop.1, hnull⟩), if_neg hstop.2, if_pos (by omega), hs.next_head]

/-- The watchdogs after an insertion that went past `l₁`. -/
def wdInserted (wd : W → WdCntrl) (w : W) (now : Nat) (l₁ : List W) : W → WdCntrl :=
  let wd' := Function.update wd w { wd w with state := .active }
  if l₁ = [] then wdMark wd' w now else wd'

theorem wdInserted_ne (wd : W → WdCntrl) (now : Nat) (l₁ : List W) (h : v ≠ w) : wdInserted wd w now l₁ v = wd v := by
  unfold wdInserted
  dsimp only
  split
  · rw [wdMark_ne _ now h, Function.update_of_ne h]
  · rw [Function.update_of_ne h]

theorem wdInserted_state (wd : W → WdCntrl) (w : W) (now : Nat) (l₁ : List W) : (wdInserted wd w now l₁ w).state = .active := by
  unfold wdInserted
  dsimp only
  split
  · rw [wdMark_state, Function.update_self]
  · rw [Function.update_self]

omit [DecidableEq W] in
theorem wdPast_congr {wd wd' : W → WdCntrl} (h : ∀ a, (wd' a).fire = (wd a).fire) : wdPast wd' = wdPast wd := by
  funext fire a
  unfold wdPast
  rw [h a]

theorem Watchdogs.setState_fire (s : Watchdogs W) (w : W) (v : WdState) (a : W) : ((s.setState w v).wd a).fire = (s.wd a).fire := by
  unfold Watchdogs.setState
  dsimp only
  by_cases h : a = w
  · rw [h, Function.update_self]
  · rw [Function.update_of_ne h]

theorem lwpWdInsertAt_spec {now : Nat} (hs : s.Holds (l₁ ++ l₂)) (hw : w ∉ l₁ ++ l₂) :
    (lwpWdInsertAt s w fire (firstOf l₂ (.tail ())) isrNestLevel now).Holds (l₁ ++ w :: l₂) ∧
      (lwpWdInsertAt s w fire (firstOf l₂ (.tail ())) isrNestLevel now).wd =
        wdInserted (Function.update s.wd w { s.wd w with fire := fire }) w now l₁ ∧
      (lwpWdInsertAt s w fire (firstOf l₂ (.tail ())) isrNestLevel now).syncCount = s.syncCount - 1 := by
  have hprev : s.links.prev (firstOf l₂ (.tail ())) = lastOf (.head ()) l₁ := (Rep.linked (q := ()) hs rfl).1.split.1.prev_eq
  have hlinks : Rep (lwpQueueInsertI s.links (lastOf (.head ()) l₁) w) fun _ => some (l₁ ++ w :: l₂) := by
    have hfree : Free (fun _ : Unit => some (l₁ ++ l₂)) w := fun _ ys hy => by
      cases hy
      exact hw
    have := lwpQueueInsertI_rep (q := ()) hs rfl hfree
    rwa [queue_update] at this
  obtain ⟨s₂, hs₂⟩ : ∃ s₂ : Watchdogs W, s₂ = { (s.setState w .active).setFire w fire with
      links := lwpQueueInsertI s.links (lastOf (.head ()) l₁) w } := ⟨_, rfl⟩
  have hlinks₂ : Rep s₂.links fun _ => some (l₁ ++ w :: l₂) := by
    rw [hs₂]
    exact hlinks
  have hwd₂ : s₂.wd = Function.update s.wd w { s.wd w with state := .active, fire := fire } := by
    rw [hs₂]
    simp [Watchdogs.setFire, Watchdogs.setState]
  have hc₂ : s₂.syncCount = s.syncCount := by rw [hs₂]; rfl
  have hfirst : s₂.links.next (.head ()) = .node w ↔ l₁ = [] := by
    rw [show Mem.next s₂.links (.head ()) = firstOf (l₁ ++ w :: l₂) (.tail ()) from Rep.next_head (q := ()) hlinks₂ rfl]
    cases l₁ with
    | nil => exact ⟨fun _ => rfl, fun _ => rfl⟩
    | cons x l =>
      refine ⟨fun he => ?_, fun he => by cases he⟩
      have hx : x = w := by cases he; rfl
      exact absurd (by rw [hx]; simp) hw
  have hall : lwpWdInsertAt s w fire (firstOf l₂ (.tail ())) isrNestLevel now =
      { (if s₂.links.next (.head ()) = .node w then lwpWdSettimer s₂ w now else s₂) with
        syncLevel := isrNestLevel
        syncCount := (if s₂.links.next (.head ()) = .node w then lwpWdSettimer s₂ w now else s₂).syncCount - 1 } := by
    rw [hs₂, ← hprev]
    rfl
  rw [hall]
  unfold wdInserted
  rw [Function.update_idem, Function.update_self]
  by_cases hnil : l₁ = []
  · rw [if_pos (hfirst.2 hnil), if_pos hnil, lwpWdSettimer_wd, lwpWdSettimer_syncCount, hwd₂, hc₂]
    refine ⟨?_, rfl, rfl⟩
    show Rep (lwpWdSettimer s₂ w now).links _
    rw [lwpWdSettimer_links]
    exact hlinks₂
  · rw [if_neg fun h => hnil (hfirst.1 h), if_neg hnil, hwd₂, hc₂]
    exact ⟨hlinks₂, rfl, rfl⟩

/-- **An insertion** links the watchdog before the first one that fires later, and marks it when it is due and the first. -/
theorem lwpWdInsert_spec [Fintype W] (isrNestLevel now : Nat) (hs : s.Holds xs) (hw : w ∉ xs)
    (hl₁ : l₁ = xs.takeWhile (wdPast s.wd (s.wd w).fire)) (hl₂ : l₂ = xs.dropWhile (wdPast s.wd (s.wd w).fire)) :
    (lwpWdInsert s w isrNestLevel now).Holds (l₁ ++ w :: l₂) ∧
      (lwpWdInsert s w isrNestLevel now).wd = wdInserted s.wd w now l₁ ∧
      (lwpWdInsert s w isrNestLevel now).syncCount = s.syncCount := by
  have hsplit : l₁ ++ l₂ = xs := by rw [hl₁, hl₂]; exact List.takeWhile_append_dropWhile
  have hlen : xs.length < 2 * Fintype.card W + 2 := by
    have := hs.nodup.length_le_card
    omega
  have hholds : (s.enter w).Holds xs := hs
  -- the scan, at whatever level it ends
  obtain ⟨level, hscan⟩ : ∃ level, lwpWdScan (s.enter w) isrNestLevel (s.wd w).fire (2 * Fintype.card W + 2)
      (firstOf xs (.tail ())) = _ := lwpWdScan_eq hholds hlen
  have hpast : wdPast (s.enter w).wd = wdPast s.wd := wdPast_congr (s.setState_fire w .inserted)
  rw [hpast, ← hl₂] at hscan
  have hall : lwpWdInsert s w isrNestLevel now =
      lwpWdInsertAt { s.enter w with syncLevel := level } w (s.wd w).fire (firstOf l₂ (.tail ())) isrNestLevel now := by
    unfold lwpWdInsert
    dsimp only
    rw [hholds.next_head, hscan]
  rw [hall]
  rw [← hsplit] at hholds hw
  have hs' : Watchdogs.Holds { s.enter w with syncLevel := level } (l₁ ++ l₂) := hholds
  refine ⟨(lwpWdInsertAt_spec hs' hw).1, (lwpWdInsertAt_spec hs' hw).2.1.trans ?_, (lwpWdInsertAt_spec hs' hw).2.2⟩
  simp [wdInserted, Watchdogs.enter, Watchdogs.setState]

/-- The watchdogs when `k₂` is what follows `k₁` in the queue: `__lwp_wd_remove` looks at the head of it. -/
def wdHead (wd : W → WdCntrl) (now : Nat) : List W → List W → W → WdCntrl
  | [], v :: _ => wdMark wd v now
  | _, _ => wd

theorem wdHead_state (wd : W → WdCntrl) (now : Nat) (k₁ k₂ : List W) (v : W) : (wdHead wd now k₁ k₂ v).state = (wd v).state := by
  unfold wdHead
  split
  · exact wdMark_state ..
  · rfl

theorem wdHead_ne (wd : W → WdCntrl) (now : Nat) (k₁ : List W) (hv : v ∉ k₂) : wdHead wd now k₁ k₂ v = wd v := by
  unfold wdHead
  split
  · rename_i c l
    exact wdMark_ne wd now fun he => hv (by rw [he]; exact List.mem_cons_self)
  · rfl

/-- **A removal** unlinks the watchdog, and marks the one behind it when that is due and now the first. -/
theorem lwpWdUnlink_spec {k₁ : List W} (isrNestLevel now : Nat) (hs : s.Holds (k₁ ++ w :: k₂)) :
    (lwpWdUnlink s w isrNestLevel now).Holds (k₁ ++ k₂) ∧
      (lwpWdUnlink s w isrNestLevel now).wd = wdHead s.wd now k₁ k₂ ∧
      (lwpWdUnlink s w isrNestLevel now).syncCount = s.syncCount := by
  have hnext : s.links.next (.node w) = firstOf k₂ (.tail ()) := Rep.next_node (q := ()) hs rfl
  have hlinks : Rep (lwpQueueExtractI s.links w) fun _ => some (k₁ ++ k₂) := by
    have := lwpQueueExtractI_rep (q := ()) hs rfl
    rwa [queue_update] at this
  have hfirst : (lwpQueueExtractI s.links w).next (.head ()) = firstOf (k₁ ++ k₂) (.tail ()) := Rep.next_head (q := ()) hlinks rfl
  have hnd := hs.nodup
  unfold lwpWdUnlink
  rw [hnext]
  dsimp only
  cases k₂ with
  | nil =>
    refine ⟨hlinks, ?_, rfl⟩
    cases k₁ <;> rfl
  | cons v k =>
    dsimp only [firstOf]
    rw [hfirst]
    cases k₁ with
    | nil =>
      rw [if_pos (show firstOf ([] ++ v :: k) (.tail ()) = .node v from rfl), lwpWdSettimer_wd, lwpWdSettimer_syncCount]
      refine ⟨?_, rfl, rfl⟩
      show Rep (lwpWdSettimer _ v now).links _
      rw [lwpWdSettimer_links]
      exact hlinks
    | cons x l =>
      rw [if_neg]
      · exact ⟨hlinks, rfl, rfl⟩
      · intro he
        have hx : x = v := by cases he; rfl
        rw [hx] at hnd
        simp at hnd

theorem lwpWdRemove_active (isrNestLevel now : Nat) (hw : (s.wd w).state = .active) :
    lwpWdRemove s w isrNestLevel now = (lwpWdUnlink (s.setState w .inactive) w isrNestLevel now, .active) := by
  unfold lwpWdRemove
  rw [hw]

theorem lwpWdRemove_inactive (isrNestLevel now : Nat) (hw : (s.wd w).state = .inactive) :
    lwpWdRemove s w isrNestLevel now = (s, .inactive) := by
  unfold lwpWdRemove
  rw [hw]

/-! ## Who is in the queue -/

/-- **The queue holds exactly the active watchdogs**; between two operations the others are inactive. -/
structure WdQueue (s : Watchdogs W) (xs : List W) : Prop where
  holds : s.Holds xs
  active : ∀ w, w ∈ xs ↔ (s.wd w).state = .active
  settled : ∀ w, w ∉ xs → (s.wd w).state = .inactive

variable {s : Watchdogs W} {xs : List W} {w : W}

omit [DecidableEq W] in
theorem WdQueue.not_mem (h : WdQueue s xs) (hw : (s.wd w).state = .inactive) : w ∉ xs := by
  rw [h.active w, hw]
  exact fun he => by cases he

theorem Watchdogs.setTimes_state (s : Watchdogs W) (w : W) (start fire : Nat) (v : W) :
    ((s.setTimes w start fire).wd v).state = (s.wd v).state := by
  unfold Watchdogs.setTimes
  dsimp only
  by_cases hv : v = w
  · rw [hv, Function.update_self]
  · rw [Function.update_of_ne hv]

theorem WdQueue.setTimes (h : WdQueue s xs) (w : W) (start fire : Nat) : WdQueue (s.setTimes w start fire) xs := by
  refine ⟨h.holds, fun a => ?_, fun a ha => ?_⟩
  · rw [s.setTimes_state]
    exact h.active a
  · rw [s.setTimes_state]
    exact h.settled a ha

theorem WdQueue.insert [Fintype W] (h : WdQueue s xs) (hw : w ∉ xs) (isrNestLevel now : Nat)
    (hl₁ : l₁ = xs.takeWhile (wdPast s.wd (s.wd w).fire)) (hl₂ : l₂ = xs.dropWhile (wdPast s.wd (s.wd w).fire)) :
    WdQueue (lwpWdInsert s w isrNestLevel now) (l₁ ++ w :: l₂) := by
  have hsplit : l₁ ++ l₂ = xs := by rw [hl₁, hl₂]; exact List.takeWhile_append_dropWhile
  obtain ⟨hh, hwd, -⟩ := lwpWdInsert_spec isrNestLevel now h.holds hw hl₁ hl₂
  have hmem : ∀ v, v ≠ w → (v ∈ l₁ ++ w :: l₂ ↔ v ∈ xs) := by
    intro v hv
    rw [← hsplit]
    simp [hv]
  refine ⟨hh, fun v => ?_, fun v hv => ?_⟩
  · rw [hwd]
    by_cases hv : v = w
    · rw [hv, wdInserted_state]
      simp
    · rw [wdInserted_ne s.wd now l₁ hv, hmem v hv]
      exact h.active v
  · have hne : v ≠ w := fun he => hv (by rw [he]; simp)
    rw [hwd, wdInserted_ne s.wd now l₁ hne]
    exact h.settled v fun hm => hv ((hmem v hne).2 hm)

theorem WdQueue.insert_mem [Fintype W] (h : WdQueue s xs) (hw : w ∉ xs) (isrNestLevel now : Nat) :
    ∃ ys, WdQueue (lwpWdInsert s w isrNestLevel now) ys ∧ ∀ v, v ∈ ys ↔ v = w ∨ v ∈ xs := by
  obtain ⟨l₁, hl₁⟩ : ∃ l₁, l₁ = xs.takeWhile (wdPast s.wd (s.wd w).fire) := ⟨_, rfl⟩
  obtain ⟨l₂, hl₂⟩ : ∃ l₂, l₂ = xs.dropWhile (wdPast s.wd (s.wd w).fire) := ⟨_, rfl⟩
  have hsplit : l₁ ++ l₂ = xs := by rw [hl₁, hl₂]; exact List.takeWhile_append_dropWhile
  refine ⟨_, h.insert hw isrNestLevel now hl₁ hl₂, fun v => ?_⟩
  rw [← hsplit]
  simp only [List.mem_append, List.mem_cons]
  tauto

theorem WdQueue.unlink {k₁ : List W} (h : WdQueue s (k₁ ++ w :: k₂)) (isrNestLevel now : Nat) :
    WdQueue (lwpWdRemove s w isrNestLevel now).1 (k₁ ++ k₂) ∧
      (lwpWdRemove s w isrNestLevel now).1.wd =
        wdHead (Function.update s.wd w { s.wd w with state := .inactive }) now k₁ k₂ ∧
      (lwpWdRemove s w isrNestLevel now).2 = .active := by
  have hact : (s.wd w).state = .active := (h.active w).1 (by simp)
  rw [lwpWdRemove_active isrNestLevel now hact]
  have hs' : (s.setState w .inactive).Holds (k₁ ++ w :: k₂) := h.holds
  obtain ⟨hh, hwd, -⟩ := lwpWdUnlink_spec isrNestLevel now hs'
  have hnd := h.holds.nodup
  rw [List.nodup_middle, List.nodup_cons] at hnd
  have hstate : ∀ v, ((lwpWdUnlink (s.setState w .inactive) w isrNestLevel now).wd v).state =
      if v = w then .inactive else (s.wd v).state := by
    intro v
    rw [hwd, wdHead_state]
    by_cases hv : v = w
    · rw [if_pos hv, hv]
      simp [Watchdogs.setState]
    · rw [if_neg hv]
      simp [Watchdogs.setState, Function.update_of_ne hv]
  have hmem : ∀ v, v ≠ w → (v ∈ k₁ ++ k₂ ↔ v ∈ k₁ ++ w :: k₂) := by
    intro v hv
    simp [hv]
  refine ⟨⟨hh, fun v => ?_, fun v hv => ?_⟩, hwd, rfl⟩
  · rw [hstate]
    by_cases hv : v = w
    · rw [if_pos hv, hv]
      exact ⟨fun hm => absurd hm hnd.1, fun he => by cases he⟩
    · rw [if_neg hv, hmem v hv]
      exact h.active v
  · rw [hstate]
    by_cases hne : v = w
    · rw [if_pos hne]
    · rw [if_neg hne]
      exact h.settled v fun hm => hv ((hmem v hne).2 hm)

theorem WdQueue.remove (h : WdQueue s xs) (w : W) (isrNestLevel now : Nat) :
    ∃ ys, ys.Sublist xs ∧ WdQueue (lwpWdRemove s w isrNestLevel now).1 ys ∧ w ∉ ys ∧ ∀ v ∈ xs, v ≠ w → v ∈ ys := by
  by_cases hw : w ∈ xs
  · have hnd := h.holds.nodup
    obtain ⟨k₁, k₂, rfl⟩ := List.append_of_mem hw
    rw [List.nodup_middle, List.nodup_cons] at hnd
    refine ⟨k₁ ++ k₂, ?_, (h.unlink isrNestLevel now).1, hnd.1, fun v hv hne => by simpa [hne] using hv⟩
    exact List.Sublist.append_left ((List.Sublist.refl _).cons _) _
  · rw [lwpWdRemove_inactive isrNestLevel now (h.settled w hw)]
    exact ⟨xs, List.Sublist.refl _, h, hw, fun v hv _ => hv⟩

end Libogc
