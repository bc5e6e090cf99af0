import Libogc.Lwp.Watchdog
import Mathlib.Data.List.TakeWhile
/-!
# WatchdogRuns — the order of the watchdog queue

Everybody's watchdogs over a run: insertions, removals and resets at times that do not decrease, and tickles, whose routines insert
and remove again.  A tickle's loop is cut where it runs a routine: what the routine does are events of their own, and `resume` is
its return to the loop.

`asked` is the time a watchdog was asked to fire at and `order` when it was put in the queue; the queue is sorted by both.  A
marked watchdog no longer shows its time, so a reset can pass by one that should stay behind it (`wdResetOk`).
-/
namespace Libogc

open Links Runs

/-! ## The system -/

section Events

structure WdSys (W : Type) where
  q : Watchdogs W
  now : Nat
  /-- A tickle is in its loop, at a routine. -/
  ticking : Bool
  /-- The fire time an insertion asked for, and the number of insertions before it. -/
  asked : W → Nat
  order : W → Nat
  inserts : Nat

/-- The last words of an event are the nesting level and the times it reads. -/
inductive WdEvent (W : Type) where
  | insert (w : W) (interval : Int) (level start now : Nat)
  | remove (w : W) (level now : Nat)
  | reset (w : W) (level now now' : Nat)
  | tickle (level now now' now'' : Nat)
  | resume (level now : Nat)
  deriving DecidableEq, Repr

variable {W : Type} [DecidableEq W] [Fintype W]

def WdSys.reset (s : WdSys W) (w : W) (level now now' : Nat) : WdSys W :=
  { s with q := lwpWdReset s.q w level now now', now := now', order := Function.update s.order w s.inserts
           inserts := s.inserts + 1 }

/-- `__lwp_wd_tickle` up to the first routine.  A watchdog that is not active has none to run. -/
def WdSys.tickle (s : WdSys W) (level now now' now'' : Nat) : WdSys W :=
  match s.q.links.next (.head ()) with
  | .node w =>
    if s64 (diffTicks now (s.q.wd w).fire) ≤ 0 then
      { s with q := (lwpWdRemove s.q w level now').1, now := now'', ticking := true }
    else s.reset w level now' now''
  | _ => { s with now := now'' }

/-- The end of the tickle's loop: on to the next watchdog that is marked. -/
def WdSys.resume (s : WdSys W) (level now : Nat) : WdSys W :=
  match s.q.links.next (.head ()) with
  | .node w =>
    if (s.q.wd w).fire = 0 then { s with q := (lwpWdRemove s.q w level now).1, now := now }
    else { s with now := now, ticking := false }
  | _ => { s with now := now, ticking := false }

def wdNext (s : WdSys W) : WdEvent W → WdSys W
  | .insert w interval level start now =>
    { s with q := s.q.lwpWdInsertTicks w interval level start now, now := now
             asked := Function.update s.asked w (start + interval.natAbs)
             order := Function.update s.order w s.inserts, inserts := s.inserts + 1 }
  | .remove w level now => { s with q := (lwpWdRemove s.q w level now).1, now := now }
  | .reset w level now now' => s.reset w level now now'
  | .tickle level now now' now'' => s.tickle level now now' now''
  | .resume level now => s.resume level now

/-- Times do not decrease and are below 2^63, like the positive fire times asked for; only an inactive watchdog is inserted and only
an active one reset. -/
def wdGuard (s : WdSys W) : WdEvent W → Prop
  | .insert w interval _ start now => (s.q.wd w).state = .inactive ∧ s.now ≤ start ∧ start ≤ now ∧ now < 2 ^ 63 ∧
      0 < start + interval.natAbs ∧ start + interval.natAbs < 2 ^ 63
  | .remove _ _ now => s.now ≤ now ∧ now < 2 ^ 63
  | .reset w _ now now' => (s.q.wd w).state = .active ∧ s.now ≤ now ∧ now ≤ now' ∧ now' < 2 ^ 63
  | .tickle _ now now' now'' => s.ticking = false ∧ s.now ≤ now ∧ now ≤ now' ∧ now' ≤ now'' ∧ now'' < 2 ^ 63
  | .resume _ now => s.ticking = true ∧ s.now ≤ now ∧ now < 2 ^ 63

instance (s : WdSys W) : ∀ e, Decidable (wdGuard s e)
  | .insert .. => inferInstanceAs (Decidable (_ ∧ _))
  | .remove .. => inferInstanceAs (Decidable (_ ∧ _))
  | .reset .. => inferInstanceAs (Decidable (_ ∧ _))
  | .tickle .. => inferInstanceAs (Decidable (_ ∧ _))
  | .resume .. => inferInstanceAs (Decidable (_ ∧ _))

/-- **The watchdog queue and everybody who uses it.** -/
def wdSystem : System (WdSys W) (WdEvent W) where
  enabled := wdGuard
  next := wdNext

instance (s : WdSys W) (e : WdEvent W) : Decidable (wdSystem.enabled s e) := inferInstanceAs (Decidable (wdGuard s e))

/-- After `__lwp_watchdog_init`, on whatever the links held. -/
def wdStart (links : Mem Unit W) (now : Nat) : WdSys W where
  q := { links := lwpQueueInitEmpty links (), wd := fun _ => ⟨0, .inactive, 0⟩, syncLevel := 0, syncCount := 0, dec := 0 }
  now := now
  ticking := false
  asked := fun _ => 0
  order := fun _ => 0
  inserts := 0

/-- **A reset that keeps the order.**  A watchdog that is marked goes back to the front: it has to be the first, and the next one
has to be asked for a later time.  Another goes behind what is marked: when it was the first, the next one must not be due before
it. -/
def wdResetOk (s : WdSys W) (w : W) (now : Nat) : Prop :=
  ((s.q.wd w).fire = 0 → s.q.links.next (.head ()) = .node w) ∧
    ∀ v, s.q.links.next (.node w) = .node v →
      if (s.q.wd w).fire = 0 then s.asked w < s.asked v
      else s.q.links.next (.head ()) = .node w → s.asked v ≤ s.asked w ∨ now < s.asked v

instance (s : WdSys W) (w : W) (now : Nat) : Decidable (wdResetOk s w now) := inferInstanceAs (Decidable (_ ∧ _))

/-- The resets of a step, its own or a tickle's, keep the order. -/
def wdOrderly (s : WdSys W) : WdEvent W → Prop
  | .reset w _ now _ => wdResetOk s w now
  | .tickle _ now now' _ =>
    ∀ w, s.q.links.next (.head ()) = .node w → 0 < s64 (diffTicks now (s.q.wd w).fire) → wdResetOk s w now'
  | _ => True

instance (s : WdSys W) : ∀ e, Decidable (wdOrderly s e)
  | .insert .. => inferInstanceAs (Decidable True)
  | .remove .. => inferInstanceAs (Decidable True)
  | .reset .. => inferInstanceAs (Decidable (wdResetOk _ _ _))
  | .tickle .. => inferInstanceAs (Decidable (∀ _, _))
  | .resume .. => inferInstanceAs (Decidable True)

end Events

/-! ## The order of a queue -/

section Order
variable {W : Type}

/-- **A queue in order**: by the time asked for, and among equals by insertion.  A watchdog stores the time asked for, or is marked
and was due by `now`; those that are marked come first. -/
structure WdOrdered (wd : W → WdCntrl) (asked order : W → Nat) (now : Nat) (xs : List W) : Prop where
  sorted : xs.Pairwise fun a b => asked a < asked b ∨ (asked a = asked b ∧ order a < order b)
  stored : ∀ w ∈ xs, (wd w).fire = asked w ∨ ((wd w).fire = 0 ∧ asked w ≤ now)
  marked : xs.Pairwise fun a b => (wd b).fire = 0 → (wd a).fire = 0
  asked_pos : ∀ w ∈ xs, 0 < asked w ∧ asked w < 2 ^ 63

variable {wd wd' : W → WdCntrl} {asked order : W → Nat} {now now' : Nat} {xs l₁ l₂ : List W} {w v : W}

theorem WdOrdered.mono (h : WdOrdered wd asked order now xs) (hn : now ≤ now') : WdOrdered wd asked order now' xs :=
  ⟨h.sorted, fun w hw => (h.stored w hw).imp id fun hm => ⟨hm.1, hm.2.trans hn⟩, h.marked, h.asked_pos⟩

theorem WdOrdered.sublist {ys : List W} (h : WdOrdered wd asked order now xs) (hs : ys.Sublist xs) : WdOrdered wd asked order now ys :=
  ⟨h.sorted.sublist hs, fun w hw => h.stored w (hs.subset hw), h.marked.sublist hs, fun w hw => h.asked_pos w (hs.subset hw)⟩

theorem WdOrdered.congr {asked' order' : W → Nat} (h : WdOrdered wd asked order now xs) (hf : ∀ a ∈ xs, (wd' a).fire = (wd a).fire)
    (ha : ∀ a ∈ xs, asked' a = asked a) (ho : ∀ a ∈ xs, order' a = order a) : WdOrdered wd' asked' order' now xs := by
  refine ⟨h.sorted.imp_of_mem fun hx hy hr => ?_, fun w hw => ?_, h.marked.imp_of_mem fun hx hy hr => ?_, fun w hw => ?_⟩
  · rw [ha _ hx, ha _ hy, ho _ hx, ho _ hy]
    exact hr
  · rw [hf _ hw, ha _ hw]
    exact h.stored w hw
  · rw [hf _ hx, hf _ hy]
    exact hr
  · rw [ha _ hw]
    exact h.asked_pos w hw

theorem WdOrdered.mark [DecidableEq W] (h : WdOrdered wd asked order now (v :: xs)) (hv : v ∉ xs) (hn : now < 2 ^ 63) :
    WdOrdered (wdMark wd v now) asked order now (v :: xs) := by
  have hkeep : ∀ a ∈ xs, wdMark wd v now a = wd a := fun a ha => wdMark_ne wd now fun he => hv (he ▸ ha)
  have hfire : (wdMark wd v now v).fire = (wd v).fire ∨ ((wdMark wd v now v).fire = 0 ∧ asked v ≤ now) := by
    unfold wdMark
    split
    · rename_i hdue
      rw [Function.update_self]
      have hp := h.asked_pos v List.mem_cons_self
      rcases h.stored v List.mem_cons_self with he | he
      · rw [he, wdDue_iff hp.2 hn] at hdue
        exact .inr ⟨rfl, hdue⟩
      · exact .inr ⟨rfl, he.2⟩
    · exact .inl rfl
  obtain ⟨hm1, hm2⟩ := List.pairwise_cons.1 h.marked
  refine ⟨h.sorted, fun a ha => ?_, List.pairwise_cons.2 ⟨fun b hb hz => ?_, hm2.imp_of_mem fun hx hy hr => ?_⟩, h.asked_pos⟩
  · rcases List.mem_cons.1 ha with rfl | ha
    · rcases hfire with he | he
      · rw [he]
        exact h.stored a List.mem_cons_self
      · exact .inr he
    · rw [hkeep a ha]
      exact h.stored a (List.mem_cons_of_mem _ ha)
  · rw [hkeep b hb] at hz
    rcases hfire with he | he
    · rw [he]
      exact hm1 b hb hz
    · exact he.1
  · rw [hkeep _ hx, hkeep _ hy]
    exact hr

/-- Behind the place an insertion finds, every watchdog is asked for later. -/
theorem WdOrdered.behind (h : WdOrdered wd asked order now xs) {fire : Nat} (hfire : fire ≠ 0)
    (hl₂ : l₂ = xs.dropWhile (wdPast wd fire)) : ∀ b ∈ l₂, fire < asked b ∧ (wd b).fire ≠ 0 := by
  have hsub : l₂.Sublist xs := hl₂ ▸ List.dropWhile_sublist _
  have h₂ := h.sublist hsub
  cases hc : l₂ with
  | nil =>
    intro b hb
    cases hb
  | cons c l =>
    have hhead : wdPast wd fire c = false := by
      have := List.head?_dropWhile_not (wdPast wd fire) xs
      rw [← hl₂, hc] at this
      simpa using this
    have hlt : fire < (wd c).fire := by
      by_contra hle
      rw [wdPast, decide_eq_false_iff_not] at hhead
      exact hhead ⟨hfire, hle⟩
    rw [hc] at h₂
    have hask : fire < asked c := by
      rcases h₂.stored c List.mem_cons_self with he | he
      · omega
      · omega
    intro b hb
    rcases List.mem_cons.1 hb with rfl | hb
    · exact ⟨hask, by omega⟩
    · have hs := (List.pairwise_cons.1 h₂.sorted).1 b hb
      have hm := (List.pairwise_cons.1 h₂.marked).1 b hb
      refine ⟨by omega, fun hz => ?_⟩
      have := hm hz
      omega

/-- **Inserting a watchdog in order**: those it goes past are asked for no later, and were inserted before. -/
theorem WdOrdered.insert [DecidableEq W] (h : WdOrdered wd asked order now xs) (hw : w ∉ xs) (hfire : (wd w).fire = asked w)
    (hpos : 0 < asked w ∧ asked w < 2 ^ 63) (hn : now < 2 ^ 63) (horder : ∀ a ∈ xs, order a < order w)
    (hpast : ∀ a ∈ xs, (wd a).fire ≤ asked w → asked a ≤ asked w) (hl₁ : l₁ = xs.takeWhile (wdPast wd (wd w).fire))
    (hl₂ : l₂ = xs.dropWhile (wdPast wd (wd w).fire)) : WdOrdered (wdInserted wd w now l₁) asked order now (l₁ ++ w :: l₂) := by
  have hsplit : l₁ ++ l₂ = xs := by rw [hl₁, hl₂]; exact List.takeWhile_append_dropWhile
  have hbehind := h.behind (by omega) hl₂
  have hmem : ∀ a ∈ l₁, a ∈ xs ∧ (wd a).fire ≤ asked w := by
    intro a ha
    refine ⟨by rw [← hsplit]; exact List.mem_append_left _ ha, ?_⟩
    rw [hl₁] at ha
    have := List.mem_takeWhile_imp ha
    rw [wdPast, decide_eq_true_eq] at this
    omega
  rw [← hsplit] at h
  have hord : WdOrdered (Function.update wd w { wd w with state := .active }) asked order now (l₁ ++ w :: l₂) := by
    have hf : ∀ a, (Function.update wd w { wd w with state := .active } a).fire = (wd a).fire := by
      intro a
      by_cases ha : a = w
      · rw [ha, Function.update_self]
      · rw [Function.update_of_ne ha]
    have h1 := List.pairwise_append.1 h.sorted
    have h2 := List.pairwise_append.1 h.marked
    refine WdOrdered.congr ?_ (fun a _ => hf a) (fun _ _ => rfl) fun _ _ => rfl
    refine ⟨?_, fun a ha => ?_, ?_, fun a ha => ?_⟩
    · refine List.pairwise_append.2 ⟨h1.1, List.pairwise_cons.2 ⟨fun b hb => ?_, h1.2.1⟩, fun a ha b hb => ?_⟩
      · have := (hbehind b hb).1
        omega
      · rcases List.mem_cons.1 hb with rfl | hb
        · obtain ⟨hax, hle⟩ := hmem a ha
          have := hpast a hax hle
          have := horder a hax
          omega
        · exact h1.2.2 a ha b hb
    · rcases List.mem_append.1 ha with ha | ha
      · exact h.stored a (List.mem_append_left _ ha)
      · rcases List.mem_cons.1 ha with rfl | ha
        · exact .inl hfire
        · exact h.stored a (List.mem_append_right _ ha)
    · refine List.pairwise_append.2 ⟨h2.1, List.pairwise_cons.2 ⟨fun b hb hz => ?_, h2.2.1⟩, fun a ha b hb => ?_⟩
      · exact absurd hz (hbehind b hb).2
      · rcases List.mem_cons.1 hb with rfl | hb
        · exact fun hz => by omega
        · exact h2.2.2 a ha b hb
    · rcases List.mem_append.1 ha with ha | ha
      · exact h.asked_pos a (List.mem_append_left _ ha)
      · rcases List.mem_cons.1 ha with rfl | ha
        · exact hpos
        · exact h.asked_pos a (List.mem_append_right _ ha)
  unfold wdInserted
  dsimp only
  split
  · rename_i hnil
    subst hnil
    exact hord.mark (fun hm => hw (hsplit ▸ List.mem_append_right _ hm)) hn
  · exact hord

end Order

/-! ## Steps -/

section Steps
variable {W : Type} [DecidableEq W] [Fintype W] {s : WdSys W} {xs : List W} {w : W}

/-- **The invariant of the watchdog queue.** -/
structure WdInv (s : WdSys W) (xs : List W) : Prop where
  queue : WdQueue s.q xs
  ordered : WdOrdered s.q.wd s.asked s.order s.now xs
  fresh : ∀ w ∈ xs, s.order w < s.inserts

omit [DecidableEq W] [Fintype W] in
theorem WdInv.wait (h : WdInv s xs) {now : Nat} (hn : s.now ≤ now) (b : Bool) : WdInv { s with now := now, ticking := b } xs :=
  ⟨h.queue, h.ordered.mono hn, h.fresh⟩

omit [Fintype W] in
theorem fire_inactive (wd : W → WdCntrl) (w v : W) : (Function.update wd w { wd w with state := .inactive } v).fire = (wd v).fire := by
  by_cases hv : v = w
  · rw [hv, Function.update_self]
  · rw [Function.update_of_ne hv]

omit [Fintype W] in
theorem WdOrdered.remove {wd : W → WdCntrl} {asked order : W → Nat} {now : Nat} {k₁ k₂ : List W}
    (h : WdOrdered wd asked order now (k₁ ++ w :: k₂)) (hnd : (k₁ ++ w :: k₂).Nodup) (hn : now < 2 ^ 63) :
    WdOrdered (wdHead (Function.update wd w { wd w with state := .inactive }) now k₁ k₂) asked order now (k₁ ++ k₂) := by
  have hsub : (k₁ ++ k₂).Sublist (k₁ ++ w :: k₂) := List.Sublist.append_left ((List.Sublist.refl _).cons _) _
  have h' : WdOrdered (Function.update wd w { wd w with state := .inactive }) asked order now (k₁ ++ k₂) :=
    (h.sublist hsub).congr (fun a _ => fire_inactive wd w a) (fun _ _ => rfl) fun _ _ => rfl
  have hnd' := hnd.sublist hsub
  cases k₁ with
  | nil =>
    cases k₂ with
    | nil => exact h'
    | cons v k => exact h'.mark (List.nodup_cons.1 hnd').1 hn
  | cons x l => exact h'

omit [Fintype W] in
theorem WdInv.unlink {k₁ k₂ : List W} (h : WdInv s (k₁ ++ w :: k₂)) (level : Nat) {now now' : Nat} (hn : s.now ≤ now)
    (hn' : now ≤ now') (ht : now < 2 ^ 63) (b : Bool) :
    WdInv { s with q := (lwpWdRemove s.q w level now).1, now := now', ticking := b } (k₁ ++ k₂) := by
  obtain ⟨hq, hwd, -⟩ := h.queue.unlink level now
  have ho := (h.ordered.mono hn).remove h.queue.holds.nodup ht
  rw [← hwd] at ho
  refine ⟨hq, ho.mono hn', fun v hv => h.fresh v ?_⟩
  simp only [List.mem_append, List.mem_cons] at hv ⊢
  tauto

omit [Fintype W] in
theorem WdInv.remove (h : WdInv s xs) (w : W) (level : Nat) {now now' : Nat} (hn : s.now ≤ now) (hn' : now ≤ now')
    (ht : now < 2 ^ 63) (b : Bool) : ∃ ys, WdInv { s with q := (lwpWdRemove s.q w level now).1, now := now', ticking := b } ys := by
  by_cases hw : w ∈ xs
  · obtain ⟨k₁, k₂, rfl⟩ := List.append_of_mem hw
    exact ⟨_, h.unlink level hn hn' ht b⟩
  · rw [lwpWdRemove_inactive level now (h.queue.settled w hw)]
    exact ⟨xs, h.wait (hn.trans hn') b⟩

/-- **An insertion** in order, whatever its times and its place in the order are. -/
theorem WdInv.insert {q : Watchdogs W} {asked order : W → Nat} {now now' : Nat} {inserts : Nat} (hq : WdQueue q xs)
    (ho : WdOrdered q.wd asked order now xs) (hw : w ∉ xs) (hfresh : ∀ a ∈ xs, order a < inserts)
    (hfire : (q.wd w).fire = asked w) (hpos : 0 < asked w ∧ asked w < 2 ^ 63) (hn : now ≤ now') (ht : now' < 2 ^ 63)
    (hpast : ∀ a ∈ xs, (q.wd a).fire ≤ asked w → asked a ≤ asked w) (level : Nat) (b : Bool) :
    ∃ ys, WdInv ⟨lwpWdInsert q w level now', now', b, asked, Function.update order w inserts, inserts + 1⟩ ys := by
  have hne : ∀ a ∈ xs, a ≠ w := fun a ha he => hw (he ▸ ha)
  have ho' : WdOrdered q.wd asked (Function.update order w inserts) now' xs :=
    (ho.mono hn).congr (fun _ _ => rfl) (fun _ _ => rfl) fun a ha => Function.update_of_ne (hne a ha) ..
  have horder : ∀ a ∈ xs, Function.update order w inserts a < Function.update order w inserts w := by
    intro a ha
    rw [Function.update_self, Function.update_of_ne (hne a ha)]
    exact hfresh a ha
  have hins := ho'.insert hw hfire hpos ht horder hpast rfl rfl
  obtain ⟨-, hwd, -⟩ := lwpWdInsert_spec level now' hq.holds hw rfl rfl
  rw [← hwd] at hins
  refine ⟨_, hq.insert hw level now' rfl rfl, hins, fun a ha => ?_⟩
  show Function.update order w inserts a < inserts + 1
  by_cases haw : a = w
  · rw [haw, Function.update_self]
    exact Nat.lt_succ_self _
  · rw [Function.update_of_ne haw]
    refine Nat.lt_succ_of_lt (hfresh a ?_)
    rw [← List.takeWhile_append_dropWhile (p := wdPast q.wd (q.wd w).fire) (l := xs)]
    simp only [List.mem_append, List.mem_cons] at ha ⊢
    tauto

omit [Fintype W] in
theorem WdOrdered.front {wd : W → WdCntrl} {asked order : W → Nat} {now : Nat} (h : WdOrdered wd asked order now xs) (hw : w ∉ xs)
    (hfire : (wd w).fire = 0) (hdue : asked w ≤ now) (hpos : 0 < asked w ∧ asked w < 2 ^ 63)
    (hlater : ∀ b ∈ xs, asked w < asked b) : WdOrdered (wdInserted wd w now []) asked order now (w :: xs) := by
  have hf : (wdInserted wd w now [] w).fire = 0 := by
    unfold wdInserted
    rw [if_pos rfl]
    unfold wdMark
    split
    · rw [Function.update_self]
    · rw [Function.update_self]
      exact hfire
  have hne : ∀ a ∈ xs, wdInserted wd w now [] a = wd a := fun a ha => wdInserted_ne wd now [] fun he => hw (he ▸ ha)
  have h' : WdOrdered (wdInserted wd w now []) asked order now xs :=
    h.congr (fun a ha => by rw [hne a ha]) (fun _ _ => rfl) fun _ _ => rfl
  refine ⟨List.pairwise_cons.2 ⟨fun b hb => .inl (hlater b hb), h'.sorted⟩, fun a ha => ?_,
    List.pairwise_cons.2 ⟨fun _ _ _ => hf, h'.marked⟩, fun a ha => ?_⟩
  · rcases List.mem_cons.1 ha with rfl | ha
    · exact .inr ⟨hf, hdue⟩
    · exact h'.stored a ha
  · rcases List.mem_cons.1 ha with rfl | ha
    · exact hpos
    · exact h'.asked_pos a ha

theorem wdPast_zero {W : Type} (wd : W → WdCntrl) (xs : List W) : xs.takeWhile (wdPast wd 0) = [] ∧ xs.dropWhile (wdPast wd 0) = xs := by
  cases xs with
  | nil => exact ⟨rfl, rfl⟩
  | cons a l =>
    have hp : wdPast wd 0 a = false := by simp [wdPast]
    rw [List.takeWhile_cons, List.dropWhile_cons, hp]
    exact ⟨rfl, rfl⟩

theorem WdInv.reset {k₁ k₂ : List W} (h : WdInv s (k₁ ++ w :: k₂)) (level : Nat) {now now' : Nat} (hn : s.now ≤ now)
    (hn' : now ≤ now') (ht : now' < 2 ^ 63) (hok : wdResetOk s w now) : ∃ ys, WdInv (s.reset w level now now') ys := by
  have hnd := h.queue.holds.nodup
  have hnd' := List.nodup_cons.1 (List.nodup_middle.1 hnd)
  have hrem := h.unlink level hn (Nat.le_refl now) (by omega) s.ticking
  obtain ⟨-, hwd, -⟩ := h.queue.unlink level now
  set q₁ := (lwpWdRemove s.q w level now).1 with hq₁
  have hpos := h.ordered.asked_pos w (by simp)
  have hstored := h.ordered.stored w (by simp)
  -- the watchdog itself keeps its time
  have hfire : ∀ a, a ∉ k₂ → (q₁.wd a).fire = (s.q.wd a).fire := by
    intro a ha
    rw [hwd, wdHead_ne _ now k₁ ha, fire_inactive]
  have hw₁ : (q₁.wd w).fire = (s.q.wd w).fire := hfire w fun hm => hnd'.1 (List.mem_append_right _ hm)
  have hnext : s.q.links.next (.node w) = firstOf k₂ (.tail ()) := Rep.next_node (q := ()) h.queue.holds rfl
  have hfirst : s.q.links.next (.head ()) = .node w ↔ k₁ = [] := by
    rw [h.queue.holds.next_head]
    cases k₁ with
    | nil => exact ⟨fun _ => rfl, fun _ => rfl⟩
    | cons x l =>
      refine ⟨fun he => ?_, fun he => by cases he⟩
      have hx : x = w := by cases he; rfl
      exact absurd (by rw [hx]; simp) hnd'.1
  by_cases hz : (s.q.wd w).fire = 0
  · have hdue : s.asked w ≤ now' := by
      rcases hstored with he | he
      · omega
      · omega
    have hfront : k₁ = [] ∧ ∀ b ∈ k₂, s.asked w < s.asked b := by
      cases k₂ with
      | nil => exact ⟨hfirst.1 (hok.1 hz), fun b hb => by cases hb⟩
      | cons v k =>
        have hv := hok.2 v hnext
        rw [if_pos hz] at hv
        refine ⟨hfirst.1 (hok.1 hz), fun b hb => ?_⟩
        rcases List.mem_cons.1 hb with rfl | hb
        · exact hv
        · have hs := (List.pairwise_append.1 h.ordered.sorted).2.1
          have := (List.pairwise_cons.1 (List.pairwise_cons.1 hs).2).1 b hb
          omega
    obtain ⟨rfl, hlater⟩ := hfront
    have hw₂ : w ∉ k₂ := hnd'.1
    obtain ⟨htake, hdrop⟩ := wdPast_zero q₁.wd k₂
    have hz₁ : (q₁.wd w).fire = 0 := hw₁.trans hz
    rw [← hz₁] at htake hdrop
    obtain ⟨-, hins, -⟩ := lwpWdInsert_spec level now' hrem.queue.holds hw₂ htake.symm hdrop.symm
    have hord : WdOrdered q₁.wd s.asked (Function.update s.order w s.inserts) now' k₂ :=
      (hrem.ordered.mono hn').congr (fun _ _ => rfl) (fun _ _ => rfl)
        fun a ha => Function.update_of_ne (ne_of_mem_of_not_mem ha hw₂) ..
    have hfr := hord.front hw₂ hz₁ hdue hpos hlater
    rw [← hins] at hfr
    refine ⟨w :: k₂, hrem.queue.insert hw₂ level now' htake.symm hdrop.symm, hfr, fun a ha => ?_⟩
    show Function.update s.order w s.inserts a < s.inserts + 1
    by_cases haw : a = w
    · rw [haw, Function.update_self]
      exact Nat.lt_succ_self _
    · rw [Function.update_of_ne haw]
      exact Nat.lt_succ_of_lt (h.fresh a ha)
  · have hask : (s.q.wd w).fire = s.asked w := by
      rcases hstored with he | he
      · exact he
      · exact absurd he.1 hz
    have hs := List.pairwise_append.1 h.ordered.sorted
    have hm := List.pairwise_append.1 h.ordered.marked
    have hpast : ∀ a ∈ k₁ ++ k₂, (q₁.wd a).fire ≤ s.asked w → s.asked a ≤ s.asked w := by
      intro a ha hle
      rcases List.mem_append.1 ha with ha | ha
      · have := hs.2.2 a ha w List.mem_cons_self
        omega
      · -- behind it nobody was marked, and the removal marks the next one only
        have hunmarked : (s.q.wd a).fire ≠ 0 := fun hz' => hz ((List.pairwise_cons.1 hm.2.1).1 a ha hz')
        have hfa : (s.q.wd a).fire = s.asked a := by
          rcases h.ordered.stored a (by simp [ha]) with he | he
          · exact he
          · exact absurd he.1 hunmarked
        have hpa := h.ordered.asked_pos a (by simp [ha])
        by_cases hsame : (q₁.wd a).fire = (s.q.wd a).fire
        · omega
        · rw [hwd] at hsame
          obtain ⟨rfl, v, k, rfl⟩ : k₁ = [] ∧ ∃ v k, k₂ = v :: k := by
            cases k₁ with
            | nil =>
              cases k₂ with
              | nil => cases ha
              | cons v k => exact ⟨rfl, v, k, rfl⟩
            | cons x l => exact absurd (fire_inactive ..) hsame
          have hv := hok.2 v hnext
          rw [if_neg hz] at hv
          dsimp only [wdHead] at hsame
          have hav : a = v := by
            by_contra hne
            rw [wdMark_ne _ now hne] at hsame
            exact hsame (fire_inactive ..)
          subst hav
          have hdue : wdDue (s.q.wd a).fire now := by
            by_contra hnd
            unfold wdMark at hsame
            rw [fire_inactive, if_neg hnd] at hsame
            exact hsame (fire_inactive ..)
          rw [hfa, wdDue_iff hpa.2 (by omega)] at hdue
          have := hv (hfirst.2 rfl)
          omega
    exact WdInv.insert hrem.queue hrem.ordered hnd'.1 hrem.fresh (hw₁.trans hask) hpos hn' ht hpast level s.ticking

theorem WdInv.reset_active (h : WdInv s xs) (hw : w ∈ xs) (level : Nat) {now now' : Nat} (hn : s.now ≤ now)
    (hn' : now ≤ now') (ht : now' < 2 ^ 63) (hok : wdResetOk s w now) : ∃ ys, WdInv (s.reset w level now now') ys := by
  obtain ⟨k₁, k₂, rfl⟩ := List.append_of_mem hw
  exact h.reset level hn hn' ht hok

/-- **One step**: every event whose resets keep the order keeps the invariant. -/
theorem WdInv.step (h : WdInv s xs) (e : WdEvent W) (he : (wdSystem.restrict wdOrderly).enabled s e) : ∃ ys, WdInv (wdNext s e) ys := by
  obtain ⟨hg, hok⟩ := he
  cases e with
  | insert w interval level start now =>
    obtain ⟨hin, h1, h2, h3, h4, h5⟩ := hg
    have hw := h.queue.not_mem hin
    have hne : ∀ a ∈ xs, a ≠ w := fun a ha => ne_of_mem_of_not_mem ha hw
    have hqueue := h.queue.setTimes w start ((start + interval.natAbs) % 2 ^ 64)
    set q₁ := s.q.setTimes w start ((start + interval.natAbs) % 2 ^ 64) with hq₁
    have hwd : ∀ a ∈ xs, q₁.wd a = s.q.wd a := fun a ha => Function.update_of_ne (hne a ha) ..
    have hasked : ∀ a ∈ xs, Function.update s.asked w (start + interval.natAbs) a = s.asked a := fun a ha =>
      Function.update_of_ne (hne a ha) ..
    have hord : WdOrdered q₁.wd (Function.update s.asked w (start + interval.natAbs)) s.order s.now xs :=
      h.ordered.congr (fun a ha => by rw [hwd a ha]) hasked fun _ _ => rfl
    have hself : Function.update s.asked w (start + interval.natAbs) w = start + interval.natAbs := Function.update_self ..
    have hfire : (q₁.wd w).fire = Function.update s.asked w (start + interval.natAbs) w := by
      rw [hself, hq₁, Watchdogs.setTimes]
      dsimp only
      rw [Function.update_self]
      exact Nat.mod_eq_of_lt (by omega)
    have hpast : ∀ a ∈ xs, (q₁.wd a).fire ≤ Function.update s.asked w (start + interval.natAbs) w →
        Function.update s.asked w (start + interval.natAbs) a ≤ Function.update s.asked w (start + interval.natAbs) w := by
      intro a ha hle
      rw [hself, hwd a ha] at hle
      rw [hself, hasked a ha]
      rcases h.ordered.stored a ha with he | he
      · omega
      · omega
    exact WdInv.insert hqueue hord hw h.fresh hfire (by rw [hself]; exact ⟨h4, h5⟩) (h1.trans h2) h3 hpast level s.ticking
  | remove w level now =>
    obtain ⟨h1, h2⟩ := hg
    exact h.remove w level h1 (Nat.le_refl now) h2 s.ticking
  | reset w level now now' =>
    obtain ⟨hact, h1, h2, h3⟩ := hg
    exact h.reset_active ((h.queue.active w).2 hact) level h1 h2 h3 hok
  | tickle level now now' now'' =>
    obtain ⟨-, h1, h2, h3, h4⟩ := hg
    have hfirst := h.queue.holds.next_head
    show ∃ ys, WdInv (s.tickle level now now' now'') ys
    unfold WdSys.tickle
    rw [hfirst]
    cases xs with
    | nil => exact ⟨[], h.wait (by omega) s.ticking⟩
    | cons w ys =>
      dsimp only [firstOf]
      split
      · exact h.remove w level (h1.trans h2) h3 (by omega) true
      · rename_i hdue
        exact h.reset_active List.mem_cons_self level (h1.trans h2) h3 h4 (hok w hfirst (by omega))
  | resume level now =>
    obtain ⟨-, h1, h2⟩ := hg
    have hfirst := h.queue.holds.next_head
    show ∃ ys, WdInv (s.resume level now) ys
    unfold WdSys.resume
    rw [hfirst]
    cases xs with
    | nil => exact ⟨[], h.wait h1 false⟩
    | cons w ys =>
      dsimp only [firstOf]
      split
      · exact h.remove w level h1 (Nat.le_refl now) h2 s.ticking
      · exact ⟨w :: ys, h.wait h1 false⟩

/-! ## Runs -/

omit [Fintype W] in
theorem wdStart_inv (links : Mem Unit W) (now : Nat) : WdInv (wdStart links now) [] := by
  refine ⟨⟨?_, fun w => ?_, fun w _ => rfl⟩, ⟨List.Pairwise.nil, fun w hw => ?_, List.Pairwise.nil, fun w hw => ?_⟩, fun w hw => ?_⟩
  · exact lwpQueueInitEmpty_holds links ()
  · exact ⟨(fun hw => by cases hw), (fun hw => by cases hw)⟩
  · cases hw
  · cases hw
  · cases hw

/-- **What the queue is for its users**: a doubly linked list of exactly the active watchdogs, each once, sorted by the time asked
for and among equals by insertion; a watchdog that does not store that time is marked and due. -/
structure WdSound (s : WdSys W) (xs : List W) : Prop where
  linked : IsQueue s.q.links () xs
  once : xs.Nodup
  active : ∀ w, w ∈ xs ↔ (s.q.wd w).state = .active
  sorted : xs.Pairwise fun a b => s.asked a < s.asked b ∨ (s.asked a = s.asked b ∧ s.order a < s.order b)
  stored : ∀ w ∈ xs, (s.q.wd w).fire = s.asked w ∨ ((s.q.wd w).fire = 0 ∧ s.asked w ≤ s.now)

/-- **The watchdog queue is sound** on every run whose resets keep the order. -/
theorem watchdog_queue_order {links : Mem Unit W} {now : Nat} {es : List (WdEvent W)}
    (hl : (wdSystem.restrict wdOrderly).Legal (wdStart links now) es) :
    ∃ xs, WdSound (wdSystem.run (wdStart links now) es) xs := by
  obtain ⟨xs, h⟩ := hl.invariant (I := fun s => ∃ xs, WdInv s xs) (fun s e ⟨xs, hs⟩ he => hs.step e he)
    ⟨[], wdStart_inv links now⟩
  exact ⟨xs, Rep.linked (q := ()) h.queue.holds rfl, h.queue.holds.nodup, h.queue.active, h.ordered.sorted, h.ordered.stored⟩

end Steps

/-- Three watchdogs, a tickle before any is due, one that runs two routines, and an insertion by the first. -/
theorem watchdog_queue_order_sample :
    ∃ xs, WdSound (wdSystem.run (wdStart (fun _ => .null) 0 : WdSys (Fin 3))
      [.insert 0 100 0 0 0, .insert 1 120 0 0 0, .insert 2 100 1 0 0, .tickle 1 90 90 90, .tickle 1 110 110 110,
        .insert 2 5 1 110 111, .resume 1 112, .resume 1 114]) xs := by
  refine watchdog_queue_order ⟨⟨?_, trivial⟩, ⟨?_, trivial⟩, ⟨?_, trivial⟩, ⟨?_, ?_⟩, ⟨?_, ?_⟩, ⟨?_, trivial⟩, ⟨?_, trivial⟩,
    ⟨?_, trivial⟩, trivial⟩
  all_goals decide +kernel

/-- A watchdog that is due and reset goes behind one that is asked for later. -/
theorem watchdog_reset_passes :
    wdSystem.Legal (wdStart (fun _ => .null) 0 : WdSys (Fin 2)) [.insert 0 100 0 0 0, .insert 1 120 0 0 0, .reset 0 0 200 200] ∧
      ¬ ∃ xs, WdSound (wdSystem.run (wdStart (fun _ => .null) 0 : WdSys (Fin 2))
        [.insert 0 100 0 0 0, .insert 1 120 0 0 0, .reset 0 0 200 200]) xs := by
  refine ⟨by decide +kernel, ?_⟩
  obtain ⟨s, hs⟩ : ∃ s, s = wdSystem.run (wdStart (fun _ => .null) 0 : WdSys (Fin 2))
    [.insert 0 100 0 0 0, .insert 1 120 0 0 0, .reset 0 0 200 200] := ⟨_, rfl⟩
  have hfirst : s.q.links (.first ()) = .node 1 := by rw [hs]; decide +kernel
  have hactive : (s.q.wd 0).state = .active := by rw [hs]; decide +kernel
  have hasked : ¬ (s.asked 1 < s.asked 0 ∨ (s.asked 1 = s.asked 0 ∧ s.order 1 < s.order 0)) := by rw [hs]; decide +kernel
  rw [← hs]
  rintro ⟨xs, h⟩
  have hmem := (h.active 0).2 hactive
  cases xs with
  | nil => cases hmem
  | cons a l =>
    have ha : a = 1 := by
      have := h.linked.1.1.1.symm.trans hfirst
      cases this
      rfl
    subst ha
    rcases List.mem_cons.1 hmem with he | he
    · exact absurd he (by decide)
    · exact hasked ((List.pairwise_cons.1 h.sorted).1 0 he)

end Libogc
