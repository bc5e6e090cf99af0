import Libogc.Lwp.Watchdog
import Mathlib.Data.List.TakeWhile
/-!
# Tickle — `__lwp_wd_tickle` as a whole

The loop that runs what is due goes on while the next watchdog's time is 0, which `__lwp_wd_settimer` stores when the removal of the one
before finds it due.  The routines do not touch the queue here, and the time is the same all through the call; `WatchdogRuns` has the
others.
-/
namespace Libogc

open Links

section Tickle
variable {W : Type} [DecidableEq W]

/-- The loop of `__lwp_wd_tickle`, and the watchdogs whose routines it runs. -/
def lwpWdTickleLoop (s : Watchdogs W) (isrNestLevel now : Nat) : Nat → W → Watchdogs W × List W
  | 0, _ => (s, [])
  | fuel + 1, wd =>
    let r := lwpWdRemove s wd isrNestLevel now
    let ran := if r.2 = .active then [wd] else []
    match r.1.links.next (.head ()) with
    | .node w =>
      if (r.1.wd w).fire = 0 then
        let t := lwpWdTickleLoop r.1 isrNestLevel now fuel w
        (t.1, ran ++ t.2)
      else (r.1, ran)
    | _ => (r.1, ran)

/-- `__lwp_wd_tickle`; each pass of its loop takes a watchdog from the queue. -/
def Watchdogs.lwpWdTickle [Fintype W] (s : Watchdogs W) (isrNestLevel now : Nat) : Watchdogs W × List W :=
  match s.links.next (.head ()) with
  | .node wd =>
    if s64 (diffTicks now (s.wd wd).fire) ≤ 0 then lwpWdTickleLoop s isrNestLevel now (Fintype.card W) wd
    else (lwpWdReset s wd isrNestLevel now now, [])
  | _ => (s, [])

/-! ## Times -/

/-- The difference of the times is one of 64 bits with a sign. -/
def wdNear (fire now : Nat) : Prop := fire < now + 2 ^ 63 ∧ now < fire + 2 ^ 63

instance (fire now : Nat) : Decidable (wdNear fire now) := inferInstanceAs (Decidable (_ ∧ _))

theorem wdNear.due_iff {fire now : Nat} (h : wdNear fire now) (hn : now < 2 ^ 64) : wdDue fire now ↔ fire ≤ now := by
  obtain ⟨hahead, hbehind⟩ := h
  unfold wdDue s64 diffTicks
  by_cases hlt : fire < now
  · rw [if_pos hlt, Nat.mod_eq_of_lt (by omega), if_neg (by omega)]
    omega
  · rw [if_neg hlt, if_pos (by omega)]
    omega

/-- What `__lwp_wd_settimer` programs. -/
def wdDec (fire now : Nat) : Nat :=
  let diff := s64 (diffTicks now fire)
  if diff ≤ 0 then 0 else if diff < 0x80000000 then diff.toNat else 0x7fffffff

theorem lwpWdSettimer_dec (s : Watchdogs W) (w : W) (now : Nat) : (lwpWdSettimer s w now).dec = wdDec (s.wd w).fire now := by
  unfold lwpWdSettimer wdDec
  dsimp only
  split_ifs <;> rfl

theorem wdNear.dec_eq {fire now : Nat} (h : wdNear fire now) (hlt : now < fire) : wdDec fire now = min (fire - now) 0x7fffffff := by
  obtain ⟨hahead, -⟩ := h
  have hdiff : s64 (diffTicks now fire) = ((fire - now : Nat) : Int) := by
    unfold s64 diffTicks
    rw [if_neg (Nat.not_lt.2 (Nat.le_of_lt hlt)), if_pos (by omega)]
  unfold wdDec
  dsimp only
  rw [hdiff, if_neg (by omega)]
  split
  case isTrue hsmall =>
    rw [Int.toNat_natCast]
    omega
  case isFalse hlarge => omega

/-! ## The queue -/

/-- A queue of active watchdogs in the order of their times. -/
structure WdSorted (s : Watchdogs W) (xs : List W) : Prop where
  holds : s.Holds xs
  active : ∀ w ∈ xs, (s.wd w).state = .active
  sorted : xs.Pairwise fun a b => (s.wd a).fire ≤ (s.wd b).fire

/-- What a tickle leaves. -/
structure WdTickled (s : Watchdogs W) (xs : List W) (now : Nat) (r : Watchdogs W × List W) : Prop where
  ran : r.2 = xs.filter fun w => (s.wd w).fire ≤ now
  left : ∃ ys, ys.Perm (xs.filter fun w => now < (s.wd w).fire) ∧ WdSorted r.1 ys ∧ (∀ w ∈ ys, (r.1.wd w).fire = (s.wd w).fire) ∧
    ∀ w ∈ ys.head?, r.1.dec = min ((s.wd w).fire - now) 0x7fffffff

section Queue
variable {s : Watchdogs W} {xs : List W} {w v : W} {now : Nat} (isrNestLevel : Nat)

theorem lwpWdUnlink_dec {k : List W} (hs : s.Holds (w :: v :: k)) : (lwpWdUnlink s w isrNestLevel now).dec = wdDec (s.wd v).fire now := by
  have hs' : s.Holds ([] ++ w :: v :: k) := hs
  have hnext : s.links.next (.node w) = .node v := Rep.next_node (q := ()) hs' rfl
  have hlinks : Rep (lwpQueueExtractI s.links w) fun _ => some (v :: k) := by
    have := lwpQueueExtractI_rep (q := ()) hs' rfl
    rwa [queue_update] at this
  have hfirst : (lwpQueueExtractI s.links w).next (.head ()) = .node v := Rep.next_head (q := ()) hlinks rfl
  unfold lwpWdUnlink
  rw [hnext]
  dsimp only
  rw [hfirst, if_pos rfl, lwpWdSettimer_dec]

theorem lwpWdTickleLoop_spec (hn : now < 2 ^ 64) : ∀ {xs : List W} {s : Watchdogs W} {w : W} {fuel : Nat}, s.Holds (w :: xs) →
    (∀ a ∈ w :: xs, (s.wd a).state = .active) → (xs.Pairwise fun a b => (s.wd a).fire ≤ (s.wd b).fire) →
    (∀ a ∈ xs, wdNear (s.wd a).fire now) → xs.length < fuel →
    let r := lwpWdTickleLoop s isrNestLevel now fuel w
    let ys := xs.filter fun a => now < (s.wd a).fire
    r.2 = w :: (xs.filter fun a => (s.wd a).fire ≤ now) ∧ r.1.Holds ys ∧ (∀ a ∈ ys, r.1.wd a = s.wd a) ∧
      ∀ a ∈ ys.head?, r.1.dec = wdDec (s.wd a).fire now := by
  intro xs
  induction xs with
  | nil =>
    intro s w fuel hs hactive _ _ hfuel
    obtain ⟨fuel, rfl⟩ : ∃ n, fuel = n + 1 := ⟨fuel - 1, by omega⟩
    have hw := hactive w List.mem_cons_self
    have hs' : (s.setState w .inactive).Holds ([] ++ w :: []) := hs
    obtain ⟨hholds, -, -⟩ := lwpWdUnlink_spec isrNestLevel now hs'
    unfold lwpWdTickleLoop
    rw [lwpWdRemove_active isrNestLevel now hw]
    dsimp only
    rw [hholds.next_head]
    exact ⟨rfl, hholds, (fun a ha => by cases ha), fun a ha => by cases ha⟩
  | cons v xs ih =>
    intro s w fuel hs hactive hsorted hnear hfuel
    obtain ⟨fuel, rfl⟩ : ∃ n, fuel = n + 1 := ⟨fuel - 1, by omega⟩
    have hnodup := hs.nodup
    have hw := hactive w List.mem_cons_self
    have hs' : (s.setState w .inactive).Holds ([] ++ w :: v :: xs) := hs
    obtain ⟨hholds, hwd, -⟩ := lwpWdUnlink_spec isrNestLevel now hs'
    have hdec : (lwpWdUnlink (s.setState w .inactive) w isrNestLevel now).dec = _ := lwpWdUnlink_dec isrNestLevel hs
    have hkept : ∀ a ∈ v :: xs, (s.setState w .inactive).wd a = s.wd a := by
      refine fun a ha => Function.update_of_ne ?_ ..
      rintro rfl
      exact (List.nodup_cons.1 hnodup).1 ha
    rw [hkept v List.mem_cons_self] at hdec
    unfold lwpWdTickleLoop
    rw [lwpWdRemove_active isrNestLevel now hw]
    dsimp only
    generalize lwpWdUnlink (s.setState w .inactive) w isrNestLevel now = s' at hholds hwd hdec ⊢
    have hmark : s'.wd = wdMark (s.setState w .inactive).wd v now := hwd
    have hbehind : ∀ a ∈ xs, s'.wd a = s.wd a := by
      intro a ha
      have hav : a ≠ v := by
        rintro rfl
        exact (List.nodup_cons.1 (List.nodup_cons.1 hnodup).2).1 ha
      rw [hmark, wdMark_ne _ now hav, hkept a (List.mem_cons_of_mem _ ha)]
    have hholds' : s'.Holds (v :: xs) := hholds
    rw [hholds'.next_head]
    have hdue := (hnear v List.mem_cons_self).due_iff hn
    obtain ⟨hfirst, hsorted'⟩ := List.pairwise_cons.1 hsorted
    by_cases hv : (s.wd v).fire ≤ now
    · -- the removal has marked the next
      have hzero : (s'.wd v).fire = 0 := by
        rw [hmark]
        unfold wdMark
        rw [hkept v List.mem_cons_self, if_pos (hdue.2 hv), Function.update_self]
      have hstate : ∀ a ∈ v :: xs, (s'.wd a).state = .active := by
        intro a ha
        rw [hmark, wdMark_state, hkept a ha]
        exact hactive a (List.mem_cons_of_mem _ ha)
      have hsorted'' : xs.Pairwise fun a b => (s'.wd a).fire ≤ (s'.wd b).fire := by
        refine hsorted'.imp_of_mem fun {a b} ha hb hab => ?_
        rw [hbehind a ha, hbehind b hb]
        exact hab
      have hnear' : ∀ a ∈ xs, wdNear (s'.wd a).fire now := by
        intro a ha
        rw [hbehind a ha]
        exact hnear a (List.mem_cons_of_mem _ ha)
      have hsame : ∀ p : Nat → Bool, (xs.filter fun a => p (s'.wd a).fire) = xs.filter fun a => p (s.wd a).fire := by
        refine fun p => List.filter_congr fun a ha => ?_
        rw [hbehind a ha]
      have hlen : xs.length < fuel := by
        rw [List.length_cons] at hfuel
        omega
      obtain ⟨hran, hleft, hwd', hdec'⟩ := ih hholds' hstate hsorted'' hnear' hlen
      rw [hsame fun f => decide (f ≤ now)] at hran
      rw [hsame fun f => decide (now < f)] at hleft hwd' hdec'
      dsimp only [firstOf]
      rw [if_pos hzero, List.filter_cons_of_pos (by simpa using hv), List.filter_cons_of_neg (by simpa using hv)]
      refine ⟨?_, hleft, fun a ha => ?_, fun a ha => ?_⟩
      · rw [if_pos rfl]
        exact congrArg (w :: ·) hran
      · rw [hwd' a ha, hbehind a (List.mem_of_mem_filter ha)]
      · rw [hdec' a ha, hbehind a (List.mem_of_mem_filter (List.mem_of_mem_head? ha))]
    · -- nothing behind it is due either
      have hfire : s'.wd v = s.wd v := by
        rw [hmark]
        unfold wdMark
        rw [hkept v List.mem_cons_self, if_neg fun h => hv (hdue.1 h)]
        exact hkept v List.mem_cons_self
      have hlate : ∀ a ∈ v :: xs, now < (s.wd a).fire := by
        intro a ha
        rcases List.mem_cons.1 ha with rfl | ha
        · exact Nat.lt_of_not_le hv
        · exact Nat.lt_of_lt_of_le (Nat.lt_of_not_le hv) (hfirst a ha)
      have hnone : ((v :: xs).filter fun a => (s.wd a).fire ≤ now) = [] :=
        List.filter_eq_nil_iff.2 fun a ha => by simpa using hlate a ha
      have hall : ((v :: xs).filter fun a => now < (s.wd a).fire) = v :: xs :=
        List.filter_eq_self.2 fun a ha => by simpa using hlate a ha
      rw [hnone, hall]
      dsimp only [firstOf]
      rw [hfire, if_neg (Nat.ne_of_gt (Nat.zero_lt_of_lt (hlate v List.mem_cons_self)))]
      refine ⟨rfl, hholds', fun a ha => ?_, fun a ha => ?_⟩
      · rcases List.mem_cons.1 ha with rfl | ha
        · exact hfire
        · exact hbehind a ha
      · obtain rfl : v = a := Option.some.inj ha
        exact hdec

theorem lwpWdInsertAt_dec (s : Watchdogs W) (w : W) (fire : Nat) (after : Link Unit W) (now : Nat) :
    (lwpWdInsertAt s w fire after isrNestLevel now).dec =
      if (lwpWdInsertAt s w fire after isrNestLevel now).links.next (.head ()) = .node w then wdDec fire now else s.dec := by
  obtain ⟨s₂, hs₂⟩ : ∃ s₂ : Watchdogs W, s₂ = { (s.setState w .active).setFire w fire with
      links := lwpQueueInsertI s.links (s.links.prev after) w } := ⟨_, rfl⟩
  have hall : lwpWdInsertAt s w fire after isrNestLevel now =
      { (if s₂.links.next (.head ()) = .node w then lwpWdSettimer s₂ w now else s₂) with
        syncLevel := isrNestLevel
        syncCount := (if s₂.links.next (.head ()) = .node w then lwpWdSettimer s₂ w now else s₂).syncCount - 1 } := by
    rw [hs₂]
    rfl
  have hfire : (s₂.wd w).fire = fire := by
    rw [hs₂]
    show (Function.update (s.setState w .active).wd w { (s.setState w .active).wd w with fire := fire } w).fire = _
    rw [Function.update_self]
  rw [hall]
  by_cases hfirst : s₂.links.next (.head ()) = .node w
  · rw [if_pos hfirst]
    show (lwpWdSettimer s₂ w now).dec = if (lwpWdSettimer s₂ w now).links.next (.head ()) = .node w then _ else _
    rw [lwpWdSettimer_links, if_pos hfirst, lwpWdSettimer_dec, hfire]
  · rw [if_neg hfirst]
    show s₂.dec = if s₂.links.next (.head ()) = .node w then _ else _
    rw [if_neg hfirst, hs₂]
    rfl

theorem lwpWdInsert_dec [Fintype W] {l₁ l₂ : List W} (hs : s.Holds xs) (hw : w ∉ xs)
    (hl₁ : l₁ = xs.takeWhile (wdPast s.wd (s.wd w).fire)) (hl₂ : l₂ = xs.dropWhile (wdPast s.wd (s.wd w).fire)) :
    (lwpWdInsert s w isrNestLevel now).dec = if l₁ = [] then wdDec (s.wd w).fire now else s.dec := by
  obtain ⟨hholds, -, -⟩ := lwpWdInsert_spec isrNestLevel now hs hw hl₁ hl₂
  have hlen : xs.length < 2 * Fintype.card W + 2 := by
    have := hs.nodup.length_le_card
    omega
  have hentered : (s.enter w).Holds xs := hs
  obtain ⟨level, hscan⟩ : ∃ level, lwpWdScan (s.enter w) isrNestLevel (s.wd w).fire (2 * Fintype.card W + 2)
      (firstOf xs (.tail ())) = _ := lwpWdScan_eq hentered hlen
  have hfirst : (lwpWdInsert s w isrNestLevel now).links.next (.head ()) = .node w ↔ l₁ = [] := by
    rw [hholds.next_head]
    have hsplit : l₁ ++ l₂ = xs := by rw [hl₁, hl₂]; exact List.takeWhile_append_dropWhile
    cases l₁ with
    | nil => exact ⟨fun _ => rfl, fun _ => rfl⟩
    | cons x l =>
      refine ⟨fun he => ?_, fun he => by cases he⟩
      have hx : x = w := by cases he; rfl
      exact absurd (by rw [← hsplit, hx]; exact List.mem_cons_self) hw
  have hat : lwpWdInsert s w isrNestLevel now = lwpWdInsertAt { s.enter w with syncLevel := level } w (s.wd w).fire
      (firstOf (xs.dropWhile (wdPast (s.enter w).wd (s.wd w).fire)) (.tail ())) isrNestLevel now := by
    unfold lwpWdInsert
    dsimp only
    rw [hentered.next_head, hscan]
  have hdec := lwpWdInsertAt_dec isrNestLevel { s.enter w with syncLevel := level } w (s.wd w).fire
    (firstOf (xs.dropWhile (wdPast (s.enter w).wd (s.wd w).fire)) (.tail ())) now
  rw [← hat] at hdec
  rw [hdec]
  by_cases hnil : l₁ = []
  · rw [if_pos (hfirst.2 hnil), if_pos hnil]
  · rw [if_neg fun h => hnil (hfirst.1 h), if_neg hnil]
    rfl

theorem WdSorted.reset [Fintype W] (h : WdSorted s (w :: xs)) (hnear : ∀ a ∈ w :: xs, wdNear (s.wd a).fire now)
    (hn : now < 2 ^ 64) (hlate : now < (s.wd w).fire) :
    ∃ ys, ys.Perm (w :: xs) ∧ WdSorted (lwpWdReset s w isrNestLevel now now) ys ∧
      (∀ a ∈ ys, ((lwpWdReset s w isrNestLevel now now).wd a).fire = (s.wd a).fire) ∧
      ∀ a ∈ ys.head?, (lwpWdReset s w isrNestLevel now now).dec = wdDec (s.wd a).fire now := by
  have hnodup := h.holds.nodup
  have hnot : w ∉ xs := (List.nodup_cons.1 hnodup).1
  obtain ⟨hfirst, hsorted⟩ := List.pairwise_cons.1 h.sorted
  have hlates : ∀ a ∈ w :: xs, ¬ wdDue (s.wd a).fire now := by
    intro a ha hdue
    have hle := ((hnear a ha).due_iff hn).1 hdue
    rcases List.mem_cons.1 ha with rfl | ha
    · omega
    · have := hfirst a ha
      omega
  -- the removal marks nobody
  have hs' : (s.setState w .inactive).Holds ([] ++ w :: xs) := h.holds
  obtain ⟨hholds, hwd, -⟩ := lwpWdUnlink_spec isrNestLevel now hs'
  have hfires : ∀ a, ((lwpWdUnlink (s.setState w .inactive) w isrNestLevel now).wd a).fire = (s.wd a).fire := by
    intro a
    rw [hwd]
    cases xs with
    | nil => exact s.setState_fire w .inactive a
    | cons v xs =>
      have hv : ¬ wdDue ((s.setState w .inactive).wd v).fire now := by
        rw [s.setState_fire]
        exact hlates v (List.mem_cons_of_mem _ List.mem_cons_self)
      show (wdMark (s.setState w .inactive).wd v now a).fire = _
      unfold wdMark
      rw [if_neg hv]
      exact s.setState_fire w .inactive a
  have hstates : ∀ a ∈ xs, ((lwpWdUnlink (s.setState w .inactive) w isrNestLevel now).wd a).state = .active := by
    intro a ha
    rw [hwd, wdHead_state]
    have haw : a ≠ w := by
      rintro rfl
      exact hnot ha
    show (Function.update s.wd w _ a).state = _
    rw [Function.update_of_ne haw]
    exact h.active a (List.mem_cons_of_mem _ ha)
  have hdec : ∀ v ∈ xs.head?, (lwpWdUnlink (s.setState w .inactive) w isrNestLevel now).dec = wdDec (s.wd v).fire now := by
    intro v hv
    obtain ⟨k, rfl⟩ : ∃ k, xs = v :: k := List.head?_eq_some_iff.1 hv
    have : (lwpWdUnlink (s.setState w .inactive) w isrNestLevel now).dec = _ := lwpWdUnlink_dec isrNestLevel h.holds
    rwa [s.setState_fire] at this
  unfold lwpWdReset
  rw [lwpWdRemove_active isrNestLevel now (h.active w List.mem_cons_self)]
  dsimp only
  generalize lwpWdUnlink (s.setState w .inactive) w isrNestLevel now = s' at hholds hfires hstates hdec ⊢
  -- and the insertion puts it behind those of its time
  have hholds' : s'.Holds xs := hholds
  obtain ⟨l₁, hl₁⟩ : ∃ l₁, l₁ = xs.takeWhile (wdPast s'.wd (s'.wd w).fire) := ⟨_, rfl⟩
  obtain ⟨l₂, hl₂⟩ : ∃ l₂, l₂ = xs.dropWhile (wdPast s'.wd (s'.wd w).fire) := ⟨_, rfl⟩
  have hsplit : l₁ ++ l₂ = xs := by rw [hl₁, hl₂]; exact List.takeWhile_append_dropWhile
  obtain ⟨hleft, hwd', -⟩ := lwpWdInsert_spec isrNestLevel now hholds' hnot hl₁ hl₂
  have hdec' : (lwpWdInsert s' w isrNestLevel now).dec = _ := lwpWdInsert_dec isrNestLevel hholds' hnot hl₁ hl₂
  have hlate' : ¬ wdDue (s'.wd w).fire now := by
    rw [hfires]
    exact hlates w List.mem_cons_self
  have hwd'' : (lwpWdInsert s' w isrNestLevel now).wd = Function.update s'.wd w { s'.wd w with state := .active } := by
    rw [hwd']
    unfold wdInserted wdMark
    dsimp only
    rw [Function.update_self, if_neg hlate', ite_self]
  have hfires' : ∀ a, ((lwpWdInsert s' w isrNestLevel now).wd a).fire = (s.wd a).fire := by
    intro a
    rw [hwd'', ← hfires a]
    by_cases haw : a = w
    · rw [haw, Function.update_self]
    · rw [Function.update_of_ne haw]
  have hbefore : ∀ a ∈ l₁, (s.wd a).fire ≤ (s.wd w).fire := by
    intro a ha
    rw [hl₁] at ha
    have hpast := List.mem_takeWhile_imp ha
    unfold wdPast at hpast
    rw [hfires, hfires] at hpast
    have := of_decide_eq_true hpast
    omega
  have hperm : (l₁ ++ w :: l₂).Perm (w :: xs) := by
    rw [← hsplit]
    exact List.perm_middle
  refine ⟨_, hperm, ⟨hleft, fun a ha => ?_, ?_⟩, fun a _ => hfires' a, fun a ha => ?_⟩
  · rw [hwd'']
    by_cases haw : a = w
    · rw [haw, Function.update_self]
    · rw [Function.update_of_ne haw]
      exact hstates a ((List.mem_cons.1 (hperm.mem_iff.1 ha)).resolve_left haw)
  · simp only [hfires']
    rw [← hsplit] at hsorted hfirst
    obtain ⟨hs₁, hs₂, hs₁₂⟩ := List.pairwise_append.1 hsorted
    refine List.pairwise_append.2 ⟨hs₁, List.pairwise_cons.2 ⟨fun b hb => hfirst b (List.mem_append_right _ hb), hs₂⟩, fun a ha b hb => ?_⟩
    rcases List.mem_cons.1 hb with rfl | hb
    · exact hbefore a ha
    · exact hs₁₂ a ha b hb
  · rw [hdec']
    cases l₁ with
    | nil =>
      obtain rfl : w = a := Option.some.inj ha
      rw [if_pos rfl, hfires]
    | cons x l =>
      obtain rfl : x = a := Option.some.inj ha
      rw [if_neg (List.cons_ne_nil x l)]
      exact hdec x (by rw [← hsplit]; rfl)

end Queue
/-- **A tickle** runs what is due, in order, leaves the rest, and programs the decrementer for the first of it. -/
theorem wd_tickle_expires [Fintype W] {s : Watchdogs W} {xs : List W} {now : Nat} (isrNestLevel : Nat) (h : WdSorted s xs)
    (hnear : ∀ w ∈ xs, wdNear (s.wd w).fire now) (hn : now < 2 ^ 64) : WdTickled s xs now (Watchdogs.lwpWdTickle s isrNestLevel now) := by
  unfold Watchdogs.lwpWdTickle
  rw [h.holds.next_head]
  cases xs with
  | nil => exact ⟨rfl, [], .nil, h, (fun w hw => by cases hw), fun w hw => by cases hw⟩
  | cons w xs =>
    obtain ⟨hfirst, hsorted⟩ := List.pairwise_cons.1 h.sorted
    have hdue := (hnear w List.mem_cons_self).due_iff hn
    dsimp only [firstOf]
    split
    case isTrue hle =>
      have hw : (s.wd w).fire ≤ now := hdue.1 hle
      have hlen : xs.length < Fintype.card W := h.holds.nodup.length_le_card
      obtain ⟨hran, hleft, hwd, hdec⟩ := lwpWdTickleLoop_spec isrNestLevel hn h.holds h.active hsorted
        (fun a ha => hnear a (List.mem_cons_of_mem _ ha)) hlen
      have hrest : ((w :: xs).filter fun a => now < (s.wd a).fire) = xs.filter fun a => now < (s.wd a).fire :=
        List.filter_cons_of_neg (by simpa using hw)
      refine ⟨?_, _, by rw [hrest], ⟨hleft, fun a ha => ?_, ?_⟩, fun a ha => by rw [hwd a ha], fun a ha => ?_⟩
      · rw [hran, List.filter_cons_of_pos (by simpa using hw)]
      · rw [hwd a ha]
        exact h.active a (List.mem_cons_of_mem _ (List.mem_of_mem_filter ha))
      · refine (hsorted.filter _).imp_of_mem fun {a b} ha hb hab => ?_
        rw [hwd a ha, hwd b hb]
        exact hab
      · have hmem := List.mem_filter.1 (List.mem_of_mem_head? ha)
        rw [hdec a ha]
        exact (hnear a (List.mem_cons_of_mem _ hmem.1)).dec_eq (of_decide_eq_true hmem.2)
    case isFalse hlt =>
      have hw : now < (s.wd w).fire := Nat.lt_of_not_le fun hle => hlt (hdue.2 hle)
      have hlate : ∀ a ∈ w :: xs, now < (s.wd a).fire := by
        intro a ha
        rcases List.mem_cons.1 ha with rfl | ha
        · exact hw
        · exact Nat.lt_of_lt_of_le hw (hfirst a ha)
      have hall : ((w :: xs).filter fun a => now < (s.wd a).fire) = w :: xs :=
        List.filter_eq_self.2 fun a ha => by simpa using hlate a ha
      have hnone : ((w :: xs).filter fun a => (s.wd a).fire ≤ now) = [] :=
        List.filter_eq_nil_iff.2 fun a ha => by simpa using hlate a ha
      obtain ⟨ys, hperm, hys, hfires, hdec⟩ := h.reset isrNestLevel hnear hn hw
      refine ⟨hnone.symm, ys, by rw [hall]; exact hperm, hys, hfires, fun a ha => ?_⟩
      have hmem := hperm.mem_iff.1 (List.mem_of_mem_head? ha)
      rw [hdec a ha]
      exact (hnear a hmem).dec_eq (hlate a hmem)

end Tickle

/-- Two watchdogs, to fire at 5 and at 9. -/
def wdTwo : Watchdogs (Fin 2) :=
  let s : Watchdogs (Fin 2) :=
    { links := lwpQueueInitEmpty (fun _ => .null) (), wd := fun w => ⟨0, .inactive, if w = 0 then 5 else 9⟩, syncLevel := 0, syncCount := 0
      dec := 0 }
  lwpWdInsert (lwpWdInsert s 0 0 0) 1 0 0

theorem wdTwo_sorted : WdSorted wdTwo [0, 1] := by
  have hempty : Watchdogs.Holds { links := lwpQueueInitEmpty (fun _ => .null) (), wd := fun w : Fin 2 => ⟨0, .inactive, if w = 0 then 5 else 9⟩
                                  syncLevel := 0, syncCount := 0, dec := 0 } [] := lwpQueueInitEmpty_holds _ ()
  obtain ⟨hone, -, -⟩ := lwpWdInsert_spec (w := 0) 0 0 hempty (by decide) rfl rfl
  obtain ⟨htwo, -, -⟩ := lwpWdInsert_spec (w := 1) 0 0 hone (by decide) rfl rfl
  exact ⟨htwo, by decide +kernel, by decide +kernel⟩

theorem wd_tickle_expires_two : WdTickled wdTwo [0, 1] 7 (Watchdogs.lwpWdTickle wdTwo 0 7) :=
  wd_tickle_expires 0 wdTwo_sorted (by decide +kernel) (by decide)

/-- A watchdog that fired 2^63 ticks ago looks as if it were to fire. -/
theorem wd_tickle_passes_old :
    ¬ ∀ (s : Watchdogs (Fin 2)) (xs : List (Fin 2)) (now isrNestLevel : Nat), WdSorted s xs → (∀ w, (s.wd w).fire < 2 ^ 64) → now < 2 ^ 64 →
      WdTickled s xs now (Watchdogs.lwpWdTickle s isrNestLevel now) := by
  intro h
  have hran := (h wdTwo [0, 1] (2 ^ 63 + 5) 0 wdTwo_sorted (by decide +kernel) (by decide)).ran
  exact absurd hran (by decide +kernel)

end Libogc
