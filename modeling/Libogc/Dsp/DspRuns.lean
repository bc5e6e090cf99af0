import Libogc.Dsp.Dsp
import Mathlib.Data.List.TakeWhile
/-!
# DspRuns — the task list as a sorted list

Read with the null pointers as its two ends, the task list is a queue of `Links`.  `DspInv` says that it is sorted by priority and
holds exactly the live tasks, with the current one among them.  Callbacks may add tasks anywhere but at one place: behind a task that
is last in the list and is just done (`dspAddsOk`).
-/
namespace Libogc

open Links Runs

section List
variable {T : Type} {s : DspSys T} {xs l₁ l₂ : List T} {x : T}

/-- The pointers along the list and back, with the list's ends for null. -/
def fwd (o : Option T) : Link Unit T := o.elim (.tail ()) .node
def back (o : Option T) : Link Unit T := o.elim (.head ()) .node

theorem fwd_eq (l : List T) : fwd l.head? = firstOf l (.tail ()) := by cases l <;> rfl

theorem back_eq (l : List T) : back l.getLast? = lastOf (.head ()) l := by
  rcases List.eq_nil_or_concat l with rfl | ⟨ys, y, rfl⟩
  · rfl
  · rw [List.concat_eq_append, List.getLast?_concat, lastOf_append]
    rfl

theorem fwd_inj {o o' : Option T} (h : fwd o = fwd o') : o = o' := by
  cases o <;> cases o' <;> cases h <;> rfl

theorem back_inj {o o' : Option T} (h : back o = back o') : o = o' := by
  cases o <;> cases o' <;> cases h <;> rfl

/-- **The task list in words of memory.** -/
def DspSys.links (s : DspSys T) : Mem Unit T
  | .first _ => fwd s.first
  | .last _ => back s.last
  | .permNull _ => .null
  | .next t => fwd (s.next t)
  | .prev t => back (s.prev t)
  | .wild => .null

def DspSys.Holds (s : DspSys T) (xs : List T) : Prop := Rep s.links fun _ => some xs

theorem DspSys.Holds.nodup (h : s.Holds xs) : xs.Nodup := Rep.nodup (q := ()) h rfl

theorem DspSys.Holds.first_eq (h : s.Holds xs) : s.first = xs.head? := by
  refine fwd_inj ?_
  rw [fwd_eq]
  exact h.next_head (q := ()) rfl

theorem DspSys.Holds.last_eq (h : s.Holds xs) : s.last = xs.getLast? := by
  refine back_inj ?_
  rw [back_eq]
  exact h.prev_tail (q := ()) rfl

theorem DspSys.Holds.next_eq (h : s.Holds (l₁ ++ x :: l₂)) : s.next x = l₂.head? := by
  refine fwd_inj ?_
  rw [fwd_eq]
  exact h.next_node (q := ()) rfl

theorem DspSys.Holds.prev_eq (h : s.Holds (l₁ ++ x :: l₂)) : s.prev x = l₁.getLast? := by
  refine back_inj ?_
  rw [back_eq]
  exact h.prev_node (q := ()) rfl

theorem DspSys.Holds.congr (h : s.Holds xs) {s' : DspSys T} (hl : s'.links = s.links) : s'.Holds xs := by
  unfold DspSys.Holds
  rw [hl]
  exact h

theorem holds_update [DecidableEq T] {m : Mem Unit T} {ys : List T}
    (h : Rep m (Function.update (fun _ : Unit => some xs) () (some ys))) : Rep m fun _ => some ys := by
  have he : Function.update (fun _ : Unit => some xs) () (some ys) = fun _ => some ys := by
    funext q
    exact Function.update_self ..
  rw [he] at h
  exact h

/-! ## Writes -/

section Writes
variable [DecidableEq T] {t : T}

theorem links_setNext (s : DspSys T) (t : T) (v : Option T) : (s.setNext t v).links = Function.update s.links (.next t) (fwd v) := by
  funext c
  by_cases hc : c = .next t
  · subst hc
    rw [Function.update_self]
    show fwd (Function.update s.next t v t) = fwd v
    rw [Function.update_self]
  · rw [Function.update_of_ne hc]
    cases c with
    | next u =>
      show fwd (Function.update s.next t v u) = fwd (s.next u)
      rw [Function.update_of_ne fun hu => hc (by rw [hu])]
    | _ => rfl

theorem links_setPrev (s : DspSys T) (t : T) (v : Option T) : (s.setPrev t v).links = Function.update s.links (.prev t) (back v) := by
  funext c
  by_cases hc : c = .prev t
  · subst hc
    rw [Function.update_self]
    show back (Function.update s.prev t v t) = back v
    rw [Function.update_self]
  · rw [Function.update_of_ne hc]
    cases c with
    | prev u =>
      show back (Function.update s.prev t v u) = back (s.prev u)
      rw [Function.update_of_ne fun hu => hc (by rw [hu])]
    | _ => rfl

theorem links_setFirst (s : DspSys T) (v : Option T) :
    DspSys.links { s with first := v } = Function.update s.links (.first ()) (fwd v) := by
  funext c
  by_cases hc : c = .first ()
  · subst hc
    rw [Function.update_self]
    rfl
  · rw [Function.update_of_ne hc]
    cases c with
    | first q => exact absurd rfl hc
    | _ => rfl

theorem links_setLast (s : DspSys T) (v : Option T) : DspSys.links { s with last := v } = Function.update s.links (.last ()) (back v) := by
  funext c
  by_cases hc : c = .last ()
  · subst hc
    rw [Function.update_self]
    rfl
  · rw [Function.update_of_ne hc]
    cases c with
    | last q => exact absurd rfl hc
    | _ => rfl

/-- The word before a point of the list, which the list's start or a task holds. -/
theorem links_before (s : DspSys T) (l : List T) (v : T) :
    DspSys.links (match l.getLast? with | none => { s with first := some v } | some p => s.setNext p (some v)) =
      Function.update s.links (lastOf (.head ()) l).nextCell (.node v) := by
  rcases List.eq_nil_or_concat l with rfl | ⟨ys, y, rfl⟩
  · exact links_setFirst s (some v)
  · rw [List.concat_eq_append, List.getLast?_concat, lastOf_append]
    exact links_setNext s y (some v)

theorem dspInsertBefore_holds (h : s.Holds (l₁ ++ t :: l₂)) (hx : x ∉ l₁ ++ t :: l₂) :
    (dspInsertBefore s x t).Holds (l₁ ++ x :: t :: l₂) := by
  have hp : s.prev t = l₁.getLast? := h.prev_eq
  have hne : t ≠ x := fun he => hx (by rw [he]; simp)
  have hpx : (((s.setPrev x l₁.getLast?).setPrev t (some x)).setNext x (some t)).prev x = l₁.getLast? := by
    show Function.update (Function.update s.prev x l₁.getLast?) t (some x) x = _
    rw [Function.update_of_ne hne.symm, Function.update_self]
  have hm : (dspInsertBefore s x t).links = Function.update (Function.update (Function.update (Function.update s.links (.prev x)
      (lastOf (.head ()) l₁)) (.prev t) (.node x)) (.next x) (.node t)) (lastOf (.head () : Link Unit T) l₁).nextCell (.node x) := by
    unfold dspInsertBefore
    dsimp only
    rw [hp, hpx]
    refine (links_before _ l₁ x).trans ?_
    rw [links_setNext, links_setPrev, links_setPrev, back_eq]
    rfl
  have hxl : x ∉ l₁ := fun hm => hx (List.mem_append_left _ hm)
  have han := lastOf_nextCell_ne () hxl
  unfold DspSys.Holds
  rw [hm]
  refine holds_update (Rep.insert (q := ()) h rfl (fun _ _ hq => by cases hq; exact hx) (fun c h1 h2 h3 h4 => ?_) ?_ ?_ ?_ ?_)
  · have h2' : c ≠ .prev t := h2
    rw [Function.update_of_ne h1, Function.update_of_ne h3, Function.update_of_ne h2', Function.update_of_ne h4]
  · rw [Function.update_self]
  · show Function.update _ _ _ (Cell.prev t) = _
    rw [Function.update_of_ne (Link.nextCell_ne_prev _ t).symm, Function.update_of_ne (by simp), Function.update_self]
  · rw [Function.update_of_ne han.symm, Function.update_self]
    rfl
  · rw [Function.update_of_ne (Link.nextCell_ne_prev _ x).symm, Function.update_of_ne (by simp),
      Function.update_of_ne (by simpa using hne.symm), Function.update_self]

theorem dspAppend_holds (h : s.Holds (l₁ ++ [t])) (hx : x ∉ l₁ ++ [t]) : (dspAppend s x t).Holds (l₁ ++ [t] ++ [x]) := by
  have hne : t ≠ x := fun he => hx (by rw [he]; simp)
  have hm : (dspAppend s x t).links = Function.update (Function.update (Function.update (Function.update s.links (.next t)
      (.node x)) (.next x) (.tail ())) (.prev x) (.node t)) (.last ()) (.node x) := by
    unfold dspAppend
    rw [links_setLast, links_setPrev, links_setNext, links_setNext]
    rfl
  unfold DspSys.Holds
  rw [hm]
  refine holds_update (Rep.insert (q := ()) h (by rw [List.append_nil]) (fun _ _ hq => by cases hq; exact hx)
    (fun c h1 h2 h3 h4 => ?_) ?_ ?_ ?_ ?_)
  · have h1' : c ≠ .next t := by
      rw [lastOf_append] at h1
      exact h1
    have h2' : c ≠ .last () := h2
    rw [Function.update_of_ne h2', Function.update_of_ne h4, Function.update_of_ne h3, Function.update_of_ne h1']
  · rw [lastOf_append, Link.nextCell_node, Function.update_of_ne (by simp), Function.update_of_ne (by simp),
      Function.update_of_ne (by simpa using hne), Function.update_self]
  · exact Function.update_self ..
  · rw [Function.update_of_ne (by simp), Function.update_of_ne (by simp), Function.update_self]
    rfl
  · rw [Function.update_of_ne (by simp), Function.update_self, lastOf_append]

theorem dspOnly_holds (h : s.Holds []) (x : T) :
    (({ s with curr := some x, last := some x, first := some x }.setNext x none).setPrev x none).Holds [x] := by
  have hm : (({ s with curr := some x, last := some x, first := some x }.setNext x none).setPrev x none).links =
      Function.update (Function.update (Function.update (Function.update s.links (.last ()) (.node x)) (.first ()) (.node x)) (.next x)
        (.tail ())) (.prev x) (.head ()) := by
    rw [links_setPrev, links_setNext]
    congr 2
    have h1 := links_setFirst { s with last := some x } (some x)
    rw [links_setLast] at h1
    exact h1
  unfold DspSys.Holds
  rw [hm]
  refine holds_update (@Rep.insert _ _ _ _ _ _ () h [] [] _ rfl (fun _ _ hq => by cases hq; simp)
    (fun c h1 h2 h3 h4 => ?_) ?_ ?_ ?_ ?_)
  · have h1' : c ≠ .first () := h1
    have h2' : c ≠ .last () := h2
    rw [Function.update_of_ne h4, Function.update_of_ne h3, Function.update_of_ne h1', Function.update_of_ne h2']
  · show Function.update _ _ _ (Cell.first ()) = _
    rw [Function.update_of_ne (by simp), Function.update_of_ne (by simp), Function.update_self]
  · show Function.update _ _ _ (Cell.last ()) = _
    rw [Function.update_of_ne (by simp), Function.update_of_ne (by simp), Function.update_of_ne (by simp), Function.update_self]
  · rw [Function.update_of_ne (by simp), Function.update_self]
    rfl
  · rw [Function.update_self]
    rfl

/-- Where a task of priority `prio` goes. -/
def DspSys.ahead (s : DspSys T) (prio : Nat) (xs : List T) : List T := xs.takeWhile fun t => (s.task t).prio ≤ prio
def DspSys.behind (s : DspSys T) (prio : Nat) (xs : List T) : List T := xs.dropWhile fun t => (s.task t).prio ≤ prio

omit [DecidableEq T] in
theorem ahead_behind (s : DspSys T) (prio : Nat) (xs : List T) : s.ahead prio xs ++ s.behind prio xs = xs :=
  List.takeWhile_append_dropWhile

omit [DecidableEq T] in
theorem dspFind_eq (prio : Nat) : ∀ {ys pre : List T} {fuel : Nat}, s.Holds (pre ++ ys) → ys.length ≤ fuel →
    dspFind s prio fuel ys.head? = (s.behind prio ys).head?
  | [], _, fuel, _, _ => by cases fuel <;> rfl
  | t :: ys, pre, fuel + 1, h, hf => by
    have hnext : s.next t = ys.head? := h.next_eq
    rw [List.head?_cons, dspFind, DspSys.behind]
    by_cases hp : prio < (s.task t).prio
    · rw [if_pos hp, List.dropWhile_cons_of_neg (by simpa using hp)]
      rfl
    · rw [if_neg hp, List.dropWhile_cons_of_pos (by simpa using hp), hnext]
      refine @dspFind_eq prio _ (pre ++ [t]) _ ?_ (Nat.le_of_succ_le_succ hf)
      rw [List.append_assoc]
      exact h

/-- What an insertion leaves as it is. -/
structure DspSys.Same (s s' : DspSys T) : Prop where
  rude : s'.rude = s.rude
  rudePend : s'.rudePend = s.rudePend
  task : s'.task = s.task
  live : s'.live = s.live

theorem dspInsertBefore_same (s : DspSys T) (x t : T) : s.Same (dspInsertBefore s x t) ∧ (dspInsertBefore s x t).curr = s.curr := by
  unfold dspInsertBefore
  dsimp only
  split <;> exact ⟨⟨rfl, rfl, rfl, rfl⟩, rfl⟩

theorem dspInserttask_holds [Fintype T] (h : s.Holds xs) (hx : x ∉ xs) :
    (dspInserttask s x).Holds (s.ahead (s.task x).prio xs ++ x :: s.behind (s.task x).prio xs) ∧ s.Same (dspInserttask s x) ∧
      (dspInserttask s x).curr = if xs = [] then some x else s.curr := by
  have hlen : xs.length ≤ Fintype.card T := h.nodup.length_le_card
  unfold dspInserttask
  cases xs with
  | nil =>
    rw [h.first_eq]
    exact ⟨dspOnly_holds h x, ⟨rfl, rfl, rfl, rfl⟩, rfl⟩
  | cons f ys =>
    have hfind := @dspFind_eq _ _ (s.task x).prio _ [] _ h hlen
    have hsplit := ahead_behind s (s.task x).prio (f :: ys)
    rw [h.first_eq]
    dsimp only [List.head?_cons] at hfind ⊢
    rw [hfind, if_neg (by simp)]
    generalize s.ahead (s.task x).prio (f :: ys) = l₁ at hsplit ⊢
    cases hb : s.behind (s.task x).prio (f :: ys) with
    | cons t l₂ =>
      rw [hb] at hsplit
      rw [← hsplit] at h hx
      exact ⟨dspInsertBefore_holds h hx, (dspInsertBefore_same s x t).1, (dspInsertBefore_same s x t).2⟩
    | nil =>
      rw [hb, List.append_nil] at hsplit
      have hne : l₁ ≠ [] := by
        rintro rfl
        cases hsplit
      obtain ⟨l, t, rfl⟩ := (List.eq_nil_or_concat l₁).resolve_left hne
      rw [List.concat_eq_append] at hsplit ⊢
      rw [← hsplit] at h hx
      rw [h.last_eq, List.getLast?_concat]
      exact ⟨dspAppend_holds h hx, ⟨rfl, rfl, rfl, rfl⟩, rfl⟩

/-! ## Taking a task out -/

theorem DspSys.Holds.unlink {s' : DspSys T} (h : s.Holds (l₁ ++ x :: l₂))
    (hm : s'.links = Function.update (Function.update s.links (lastOf (.head () : Link Unit T) l₁).nextCell (firstOf l₂ (.tail ())))
      (firstOf l₂ (.tail () : Link Unit T)).prevCell (lastOf (.head ()) l₁)) : s'.Holds (l₁ ++ l₂) := by
  have hab := ends_ne () l₁ l₂
  unfold DspSys.Holds
  rw [hm]
  refine holds_update (Rep.remove (q := ()) h rfl (fun c h1 h2 => ?_) ?_ ?_)
  · rw [Function.update_of_ne h2, Function.update_of_ne h1]
  · rw [Function.update_of_ne hab, Function.update_self]
  · rw [Function.update_self]

/-- What a removal leaves as it is: of the task only the state and the flags change. -/
structure DspSys.Freed (s s' : DspSys T) (x : T) : Prop where
  rude : s'.rude = s.rude
  rudePend : s'.rudePend = s.rudePend
  task : ∀ t, (s'.task t).prio = (s.task t).prio
  live : s'.live = s.live

/-- Which task is the current one after it. -/
def dspAfter (l₁ l₂ : List T) (curr : Option T) : Option T :=
  match l₁.head?, l₂.head? with
  | none, none => none
  | none, some _ => curr
  | some a, none => some a
  | some _, some b => some b

theorem setTask_prio (s : DspSys T) (x : T) {f : DspTask → DspTask} (hf : (f (s.task x)).prio = (s.task x).prio) (t : T) :
    ((s.setTask x f).task t).prio = (s.task t).prio := by
  show (Function.update s.task x (f (s.task x)) t).prio = _
  by_cases ht : t = x
  · rw [ht, Function.update_self]
    exact hf
  · rw [Function.update_of_ne ht]

theorem dspRemovetask_holds (h : s.Holds (l₁ ++ x :: l₂)) : (dspRemovetask s x).Holds (l₁ ++ l₂) ∧ s.Freed (dspRemovetask s x) x ∧
    (dspRemovetask s x).curr = dspAfter l₁ l₂ s.curr := by
  obtain ⟨s₁, hs₁⟩ : ∃ s₁, s₁ = s.setTask x fun k => (k.setFlags dsptaskClearall).setState .done := ⟨_, rfl⟩
  have h₁ : s₁.Holds (l₁ ++ x :: l₂) := h.congr (by rw [hs₁]; rfl)
  have hprio : ∀ t, (s₁.task t).prio = (s.task t).prio := fun t => by
    rw [hs₁]
    exact setTask_prio s x rfl t
  have hsame : s₁.rude = s.rude ∧ s₁.rudePend = s.rudePend ∧ s₁.live = s.live ∧ s₁.curr = s.curr := by
    rw [hs₁]
    exact ⟨rfl, rfl, rfl, rfl⟩
  obtain ⟨e1, e2, e3, e4⟩ := hsame
  have hnd := h.nodup
  rw [List.nodup_middle, List.nodup_cons, List.mem_append, not_or] at hnd
  have hnext := h₁.next_eq
  have hprev := h₁.prev_eq
  have hlast : l₂ ≠ [] → s₁.last ≠ some x := by
    intro hne he
    rw [h₁.last_eq, List.getLast?_append_of_ne_nil _ (by simp), List.getLast?_cons, Option.some.injEq] at he
    obtain ⟨ys, y, rfl⟩ := (List.eq_nil_or_concat l₂).resolve_left hne
    rw [List.concat_eq_append, List.getLast?_concat] at he
    exact hnd.1.2 (by rw [← he]; simp)
  unfold dspRemovetask
  rw [← hs₁]
  dsimp only
  rcases List.eq_nil_or_concat l₁ with rfl | ⟨ys, p, rfl⟩
  · have hf : s₁.first = some x := h₁.first_eq
    rw [if_pos hf]
    cases l₂ with
    | nil =>
      rw [hnext]
      refine ⟨h₁.unlink ?_, ⟨e1, e2, hprio, e3⟩, rfl⟩
      have h2 := links_setLast { s₁ with first := none } none
      rw [links_setFirst] at h2
      exact h2
    | cons n l =>
      rw [hnext]
      refine ⟨h₁.unlink ?_, ⟨e1, e2, hprio, e3⟩, e4⟩
      dsimp only [List.head?_cons]
      rw [links_setPrev, links_setFirst]
      rfl
  · rw [List.concat_eq_append] at *
    have hfirst : s₁.first ≠ some x := by
      rw [h₁.first_eq]
      intro he
      cases ys with
      | nil =>
        cases he
        exact hnd.1.1 (by simp)
      | cons a ys =>
        cases he
        exact hnd.1.1 (by simp)
    rw [if_neg hfirst, hprev, List.getLast?_concat]
    cases l₂ with
    | nil =>
      have hl : s₁.last = some x := by rw [h₁.last_eq, List.getLast?_concat]
      rw [if_pos hl]
      refine ⟨h₁.unlink ?_, ⟨e1, e2, hprio, e3⟩, ?_⟩
      · refine (links_setNext { s₁ with last := some p } p none).trans ?_
        rw [links_setLast, lastOf_append, Function.update_comm (by simp)]
        rfl
      · show s₁.first = _
        rw [h₁.first_eq]
        cases ys <;> rfl
    | cons n l =>
      rw [if_neg (hlast (by simp)), hnext]
      refine ⟨h₁.unlink ?_, ⟨e1, e2, hprio, e3⟩, ?_⟩
      · dsimp only [List.head?_cons]
        rw [links_setPrev, links_setNext, lastOf_append]
        rfl
      · cases ys <;> rfl

end Writes

end List

/-! ## The invariant -/

section Inv
variable {T : Type} [DecidableEq T] {s : DspSys T} {xs l₁ l₂ : List T} {c x : T}

/-- **The list holds the live tasks**, in the order of their priorities. -/
structure DspList (s : DspSys T) (xs : List T) : Prop where
  holds : s.Holds xs
  sorted : xs.Pairwise fun t u => (s.task t).prio ≤ (s.task u).prio
  live : ∀ t, t ∈ xs ↔ s.live t = true

structure DspInv (s : DspSys T) (xs : List T) : Prop extends DspList s xs where
  currIn : ∀ t, s.curr = some t → t ∈ xs
  currSome : xs ≠ [] → s.curr ≠ none
  rudeIn : s.rudePend = true → ∃ t ∈ xs, s.rude = some t

omit [DecidableEq T] in
theorem DspList.congr (h : DspList s xs) {s' : DspSys T} (hl : s'.links = s.links) (hp : ∀ t, (s'.task t).prio = (s.task t).prio)
    (hv : s'.live = s.live) : DspList s' xs := by
  refine ⟨h.holds.congr hl, ?_, by rw [hv]; exact h.live⟩
  simp only [hp]
  exact h.sorted

/-- **Adding a task**: it goes behind those whose priority is not greater. -/
theorem DspInv.add [Fintype T] (h : DspInv s xs) (hx : s.live x = false) (prio : Nat) :
    ∃ l₁ l₂, xs = l₁ ++ l₂ ∧ DspInv (dspAddTask s x prio) (l₁ ++ x :: l₂) ∧ (∀ t ∈ l₁, (s.task t).prio ≤ prio) ∧
      (∀ t ∈ l₂, prio < (s.task t).prio) ∧ (xs ≠ [] → (dspAddTask s x prio).curr = s.curr) ∧ (dspAddTask s x prio).rude = s.rude ∧
      (dspAddTask s x prio).rudePend = s.rudePend ∧ (∀ t, t ≠ x → ((dspAddTask s x prio).task t).prio = (s.task t).prio) ∧
      (dspAddTask s x prio).live = Function.update s.live x true := by
  have hnot : x ∉ xs := by
    rw [h.live x, hx]
    simp
  obtain ⟨s₁, hs₁⟩ : ∃ s₁, s₁ = s.setTask x (.setPrio prio) := ⟨_, rfl⟩
  have h₁ : s₁.Holds xs := h.holds.congr (by rw [hs₁]; rfl)
  have htask : ∀ t, t ≠ x → s₁.task t = s.task t := fun t ht => by
    rw [hs₁]
    exact Function.update_of_ne ht ..
  have hprio : (s₁.task x).prio = prio := by
    rw [hs₁]
    show (Function.update s.task x _ x).prio = prio
    rw [Function.update_self]
    rfl
  obtain ⟨hh, hsame, hcurr⟩ := dspInserttask_holds h₁ hnot
  rw [hprio] at hh
  obtain ⟨s₂, hs₂⟩ : ∃ s₂, s₂ = dspInserttask s₁ x := ⟨_, rfl⟩
  rw [← hs₂] at hh hsame hcurr
  have he : dspAddTask s x prio = { s₂.setTask x fun k => (k.setState .init).setFlags dsptaskAttach with
      live := Function.update s₂.live x true } := by
    rw [hs₂, hs₁]
    rfl
  have hsplit := ahead_behind s₁ prio xs
  have hahead : ∀ t ∈ s₁.ahead prio xs, (s.task t).prio ≤ prio := by
    intro t ht
    have htx : t ≠ x := fun he => hnot (by rw [← he, ← hsplit]; exact List.mem_append_left _ ht)
    rw [← htask t htx]
    simpa using List.mem_takeWhile_imp ht
  have hbehind : ∀ t ∈ s₁.behind prio xs, prio < (s.task t).prio := by
    -- the first one behind is greater, and the list was sorted
    intro t ht
    have htx : t ≠ x := fun he => hnot (by rw [← he, ← hsplit]; exact List.mem_append_right _ ht)
    cases hb : s₁.behind prio xs with
    | nil =>
      rw [hb] at ht
      cases ht
    | cons b l =>
      have hbx : b ≠ x := fun he => hnot (by rw [← he, ← hsplit, hb]; simp)
      have hgt : prio < (s.task b).prio := by
        have hhead := List.head?_dropWhile_not (fun t => decide ((s₁.task t).prio ≤ prio)) xs
        rw [show xs.dropWhile (fun t => decide ((s₁.task t).prio ≤ prio)) = b :: l from hb] at hhead
        have hno : decide ((s₁.task b).prio ≤ prio) = false := hhead
        rw [← htask b hbx]
        simpa using hno
      have hs := h.sorted
      rw [← hsplit, hb] at hs
      rw [hb] at ht
      rcases List.mem_cons.1 ht with rfl | ht
      · exact hgt
      · exact lt_of_lt_of_le hgt ((List.pairwise_cons.1 (List.pairwise_append.1 hs).2.1).1 t ht)
  have hold : ∀ t, t ≠ x → ((dspAddTask s x prio).task t).prio = (s.task t).prio := by
    intro t ht
    rw [he, ← htask t ht, ← hsame.task]
    exact setTask_prio s₂ x (f := fun k => (k.setState .init).setFlags dsptaskAttach) rfl t
  have hnew : ((dspAddTask s x prio).task x).prio = prio := by
    rw [he, ← hprio, ← hsame.task]
    exact setTask_prio s₂ x (f := fun k => (k.setState .init).setFlags dsptaskAttach) rfl x
  have hlive : (dspAddTask s x prio).live = Function.update s.live x true := by
    rw [he]
    show Function.update s₂.live x true = _
    rw [hsame.live, hs₁]
    rfl
  have hcur : xs ≠ [] → (dspAddTask s x prio).curr = s.curr := by
    intro hne
    rw [if_neg hne] at hcurr
    rw [he]
    show s₂.curr = s.curr
    rw [hcurr, hs₁]
    rfl
  have hrude : (dspAddTask s x prio).rude = s.rude ∧ (dspAddTask s x prio).rudePend = s.rudePend := by
    rw [he]
    show s₂.rude = s.rude ∧ s₂.rudePend = s.rudePend
    rw [hsame.rude, hsame.rudePend, hs₁]
    exact ⟨rfl, rfl⟩
  have hmem : ∀ t, t ∈ s₁.ahead prio xs ++ x :: s₁.behind prio xs ↔ t = x ∨ t ∈ xs := by
    intro t
    conv => rhs; rw [← hsplit]
    simp only [List.mem_append, List.mem_cons]
    tauto
  refine ⟨s₁.ahead prio xs, s₁.behind prio xs, hsplit.symm, ⟨⟨?_, ?_, fun t => ?_⟩, fun t ht => ?_, fun _ => ?_, fun hp => ?_⟩, hahead,
    hbehind, hcur, hrude.1, hrude.2, hold, hlive⟩
  · exact hh.congr (by rw [he]; rfl)
  · have hs := h.sorted
    rw [← hsplit] at hs
    obtain ⟨hs₁', hs₂', hs₃⟩ := List.pairwise_append.1 hs
    have hne : ∀ t ∈ s₁.ahead prio xs ++ s₁.behind prio xs, t ≠ x := fun t ht he => hnot (by rw [← he, ← hsplit]; exact ht)
    have hkeep : ∀ {l : List T}, (∀ t ∈ l, t ≠ x) → l.Pairwise (fun t u => (s.task t).prio ≤ (s.task u).prio) →
        l.Pairwise fun t u => ((dspAddTask s x prio).task t).prio ≤ ((dspAddTask s x prio).task u).prio := by
      intro l hl hp
      refine hp.imp_of_mem fun {t u} ht hu htu => ?_
      rw [hold t (hl t ht), hold u (hl u hu)]
      exact htu
    refine List.pairwise_append.2 ⟨hkeep (fun t ht => hne t (List.mem_append_left _ ht)) hs₁', List.pairwise_cons.2 ⟨fun t ht => ?_,
      hkeep (fun t ht => hne t (List.mem_append_right _ ht)) hs₂'⟩, fun t ht u hu => ?_⟩
    · rw [hnew, hold t (hne t (List.mem_append_right _ ht))]
      exact (hbehind t ht).le
    · rw [hold t (hne t (List.mem_append_left _ ht))]
      rcases List.mem_cons.1 hu with rfl | hu
      · rw [hnew]
        exact hahead t ht
      · rw [hold u (hne u (List.mem_append_right _ hu))]
        exact hs₃ t ht u hu
  · rw [hmem t, hlive]
    by_cases ht : t = x
    · rw [ht, Function.update_self]
      simp
    · rw [Function.update_of_ne ht, ← h.live t]
      simp [ht]
  · rw [hmem t]
    by_cases hxs : xs = []
    · rw [if_pos hxs] at hcurr
      left
      rw [he] at ht
      have ht' : s₂.curr = some t := ht
      rw [hcurr] at ht'
      exact (Option.some.inj ht').symm
    · rw [hcur hxs] at ht
      exact .inr (h.currIn t ht)
  · by_cases hxs : xs = []
    · rw [if_pos hxs] at hcurr
      rw [he]
      show s₂.curr ≠ none
      rw [hcurr]
      simp
    · rw [hcur hxs]
      exact h.currSome hxs
  · rw [hrude.2] at hp
    obtain ⟨t, ht, htr⟩ := h.rudeIn hp
    exact ⟨t, (hmem t).2 (.inr ht), by rw [hrude.1]; exact htr⟩

/-- What a callback's tasks do to the list around the current task: those of smaller priority go ahead of it, the others behind. -/
structure DspAdded (s s' : DspSys T) (c : T) (adds : List (T × Nat)) (l₁ l₂ l₁' l₂' : List T) : Prop where
  curr : s'.curr = s.curr
  rude : s'.rude = s.rude
  rudePend : s'.rudePend = s.rudePend
  prio : (s'.task c).prio = (s.task c).prio
  sub : ∀ t ∈ l₁ ++ c :: l₂, t ∈ l₁' ++ c :: l₂'
  ahead : (l₁ ≠ [] ∨ ∃ p ∈ adds, p.2 < (s.task c).prio) → l₁' ≠ []
  behind : l₂ ≠ [] → l₂' ≠ []
  last : l₂ = [] → (∀ p ∈ adds, p.2 < (s.task c).prio) → l₂' = []
  none : adds = [] → l₁' = l₁ ∧ l₂' = l₂

theorem DspInv.addAround [Fintype T] (h : DspInv s (l₁ ++ c :: l₂)) (hx : s.live x = false) (prio : Nat) :
    ∃ l₁' l₂', DspInv (dspAddTask s x prio) (l₁' ++ c :: l₂') ∧
      DspAdded s (dspAddTask s x prio) c [(x, prio)] l₁ l₂ l₁' l₂' ∧
      (dspAddTask s x prio).live = Function.update s.live x true := by
  obtain ⟨a, b, hsplit, hinv, ha, hb, hcurr, hrude, hpend, hold, hlive⟩ := h.add hx prio
  have hcx : c ≠ x := by
    intro he
    have := (h.live c).1 (by simp)
    rw [he, hx] at this
    cases this
  have hsub : ∀ t ∈ l₁ ++ c :: l₂, t ∈ a ++ x :: b := by
    intro t ht
    rw [hsplit] at ht
    rcases List.mem_append.1 ht with ht | ht
    · exact List.mem_append_left _ ht
    · exact List.mem_append_right _ (List.mem_cons_of_mem _ ht)
  have hcase : (∃ b₁, l₁ = a ++ b₁ ∧ b = b₁ ++ c :: l₂) ∨ ∃ a₂, a = l₁ ++ c :: a₂ ∧ l₂ = a₂ ++ b := by
    rcases List.append_eq_append_iff.1 hsplit with ⟨a', he, hc⟩ | ⟨c', he, hc⟩
    · cases a' with
      | nil => exact .inl ⟨[], by simpa using he.symm, hc.symm⟩
      | cons d a₂ =>
        rw [List.cons_append] at hc
        cases hc
        exact .inr ⟨a₂, he, rfl⟩
    · exact .inl ⟨c', he, hc⟩
  rcases hcase with ⟨b₁, rfl, rfl⟩ | ⟨a₂, rfl, rfl⟩
  · have hlt := hb c (by simp)
    refine ⟨a ++ x :: b₁, l₂, by simpa using hinv, ⟨hcurr (by simp), hrude, hpend, hold c hcx, by simpa using hsub, fun _ => by simp,
      fun hne => hne, fun he _ => he, fun he => by cases he⟩, hlive⟩
  · have hle := ha c (by simp)
    have hno : ¬ prio < (s.task c).prio := Nat.not_lt.2 hle
    refine ⟨l₁, a₂ ++ x :: b, by simpa using hinv, ⟨hcurr (by simp), hrude, hpend, hold c hcx, by simpa using hsub, ?_,
      fun _ => by simp, fun _ hall => absurd (hall _ List.mem_cons_self) hno, fun he => by cases he⟩, hlive⟩
    rintro (hne | ⟨p, hp, hlt⟩)
    · exact hne
    · rw [List.mem_singleton.1 hp] at hlt
      exact absurd hlt hno

theorem DspInv.adds [Fintype T] : ∀ {adds : List (T × Nat)} {s : DspSys T} {l₁ l₂ : List T}, DspInv s (l₁ ++ c :: l₂) →
    (adds.map Prod.fst).Nodup → (∀ p ∈ adds, s.live p.1 = false) →
      ∃ l₁' l₂', DspInv (dspAdds s adds) (l₁' ++ c :: l₂') ∧ DspAdded s (dspAdds s adds) c adds l₁ l₂ l₁' l₂'
  | [], s, l₁, l₂, h, _, _ => ⟨l₁, l₂, h, rfl, rfl, rfl, rfl, fun _ ht => ht, fun hne => hne.elim id fun ⟨_, hp, _⟩ => (by cases hp), id,
      fun he _ => he, fun _ => ⟨rfl, rfl⟩⟩
  | p :: adds, s, l₁, l₂, h, hnd, hlive => by
    rw [List.map_cons, List.nodup_cons] at hnd
    obtain ⟨a, b, h₁, k₁, hl₁⟩ := h.addAround (hlive p List.mem_cons_self) p.2
    have hlive' : ∀ q ∈ adds, (dspAddTask s p.1 p.2).live q.1 = false := by
      intro q hq
      have hne : q.1 ≠ p.1 := fun he => hnd.1 (by rw [← he]; exact List.mem_map_of_mem hq)
      rw [hl₁, Function.update_of_ne hne]
      exact hlive q (List.mem_cons_of_mem _ hq)
    obtain ⟨a', b', h₂, k₂⟩ := DspInv.adds h₁ hnd.2 hlive'
    refine ⟨a', b', h₂, k₂.curr.trans k₁.curr, k₂.rude.trans k₁.rude, k₂.rudePend.trans k₁.rudePend, k₂.prio.trans k₁.prio,
      fun t ht => k₂.sub t (k₁.sub t ht), ?_, fun hne => k₂.behind (k₁.behind hne), fun he hall => ?_, fun he => by cases he⟩
    · rintro (hne | ⟨q, hq, hlt⟩)
      · exact k₂.ahead (.inl (k₁.ahead (.inl hne)))
      · rcases List.mem_cons.1 hq with rfl | hq
        · exact k₂.ahead (.inl (k₁.ahead (.inr ⟨_, List.mem_cons_self, hlt⟩)))
        · exact k₂.ahead (.inr ⟨q, hq, by rw [k₁.prio]; exact hlt⟩)
    · refine k₂.last (k₁.last he fun q hq => ?_) fun q hq => ?_
      · rw [List.mem_singleton.1 hq]
        exact hall p List.mem_cons_self
      · rw [k₁.prio]
        exact hall q (List.mem_cons_of_mem _ hq)

theorem DspInv.ran [Fintype T] (h : DspInv s xs) (hc : s.curr = some c) {adds : List (T × Nat)} (hnd : (adds.map Prod.fst).Nodup)
    (hlive : ∀ p ∈ adds, s.live p.1 = false) : ∃ xs', DspInv (dspAdds s adds) xs' := by
  obtain ⟨l₁, l₂, rfl⟩ := List.append_of_mem (h.currIn c hc)
  obtain ⟨l₁', l₂', h', -⟩ := h.adds hnd hlive
  exact ⟨_, h'⟩

/-! ## The mails -/

omit [DecidableEq T] in
theorem DspInv.switch (h : DspInv s xs) {s' : DspSys T} (hl : s'.links = s.links) (hp : ∀ t, (s'.task t).prio = (s.task t).prio)
    (hv : s'.live = s.live) {t : T} (ht : t ∈ xs) (hc : s'.curr = some t) (hr : s'.rudePend = true → s.rudePend = true ∧ s'.rude = s.rude) :
    DspInv s' xs := by
  refine ⟨h.toDspList.congr hl hp hv, fun u hu => ?_, fun _ => by rw [hc]; simp, fun hpend => ?_⟩
  · rw [hc] at hu
    cases hu
    exact ht
  · obtain ⟨hpend', hrude⟩ := hr hpend
    rw [hrude]
    exact h.rudeIn hpend'

theorem DspInv.setTask (h : DspInv s xs) (x : T) {f : DspTask → DspTask} (hf : (f (s.task x)).prio = (s.task x).prio) :
    DspInv (s.setTask x f) xs :=
  ⟨h.toDspList.congr rfl (setTask_prio s x hf) rfl, h.currIn, h.currSome, h.rudeIn⟩

omit [DecidableEq T] in
theorem DspInv.clearRude (h : DspInv s xs) : DspInv s.clearRude xs :=
  ⟨h.toDspList.congr rfl (fun _ => rfl) rfl, h.currIn, h.currSome, fun hp => by cases hp⟩

theorem DspInv.yield [Fintype T] (h : DspInv s xs) (hc : s.curr = some c) {adds : List (T × Nat)} (hnd : (adds.map Prod.fst).Nodup)
    (hlive : ∀ p ∈ adds, s.live p.1 = false) : ∃ xs', DspInv (dspYield s c adds) xs' := by
  unfold dspYield
  split
  · rename_i hp
    obtain ⟨t, ht, hr⟩ := h.rudeIn hp
    split
    · exact h.clearRude.ran hc hnd hlive
    · exact ⟨xs, h.switch rfl (setTask_prio s c rfl) rfl ht hr fun hp => by cases hp⟩
  · have hin := h.currIn c hc
    obtain ⟨l₁, l₂, rfl⟩ := List.append_of_mem hin
    have hnext := h.holds.next_eq
    split
    · split
      · exact h.ran hc hnd hlive
      · have hfirst := h.holds.first_eq
        obtain ⟨t, ht⟩ : ∃ t, (l₁ ++ c :: l₂).head? = some t := by
          cases l₁ with
          | nil => exact ⟨c, rfl⟩
          | cons a l => exact ⟨a, rfl⟩
        exact ⟨_, h.switch rfl (setTask_prio s c rfl) rfl (List.mem_of_head? ht) (hfirst.trans ht) fun hp => ⟨hp, rfl⟩⟩
    · rename_i n hn
      rw [hnext] at hn
      refine ⟨_, h.switch rfl (setTask_prio s c rfl) rfl ?_ rfl fun hp => ⟨hp, rfl⟩⟩
      exact List.mem_append_right _ (List.mem_cons_of_mem _ (List.mem_of_head? hn))

/-- **A task is done**: it left the list, and another one is current, if there is one. -/
theorem DspInv.removed (h : DspInv s (l₁ ++ c :: l₂)) {s' : DspSys T} (hl : s'.links = (dspRemovetask s c).links)
    (hp : ∀ t, (s'.task t).prio = ((dspRemovetask s c).task t).prio) (hv : s'.live = (dspRemovetask s c).live)
    (hc : (∃ t ∈ l₁ ++ l₂, s'.curr = some t) ∨ (l₁ ++ l₂ = [] ∧ s'.curr = none)) (hr : s'.rudePend = false) :
    DspInv { s' with live := Function.update s'.live c false } (l₁ ++ l₂) := by
  obtain ⟨hh, hfreed, -⟩ := dspRemovetask_holds h.holds
  have hnd := h.holds.nodup
  rw [List.nodup_middle, List.nodup_cons] at hnd
  have hs := h.sorted
  refine ⟨⟨hh.congr hl, ?_, fun t => ?_⟩, fun t ht => ?_, fun hne => ?_, fun hpend => ?_⟩
  · have hs' : (l₁ ++ l₂).Pairwise fun t u => (s.task t).prio ≤ (s.task u).prio :=
      hs.sublist (List.Sublist.append_left (List.sublist_cons_self c l₂) l₁)
    refine hs'.imp fun {t u} htu => ?_
    show (s'.task t).prio ≤ (s'.task u).prio
    rw [hp t, hp u, hfreed.task t, hfreed.task u]
    exact htu
  · show t ∈ l₁ ++ l₂ ↔ Function.update s'.live c false t = true
    rw [hv, hfreed.live]
    by_cases ht : t = c
    · subst ht
      rw [Function.update_self]
      simp only [Bool.false_eq_true, iff_false]
      exact hnd.1
    · rw [Function.update_of_ne ht, ← h.live t]
      simp [ht]
  · rcases hc with ⟨u, hu, he⟩ | ⟨-, he⟩
    · have ht' : s'.curr = some t := ht
      rw [he] at ht'
      cases ht'
      exact hu
    · have ht' : s'.curr = some t := ht
      rw [he] at ht'
      cases ht'
  · rcases hc with ⟨u, -, he⟩ | ⟨hnil, -⟩
    · show s'.curr ≠ none
      rw [he]
      simp
    · exact absurd hnil hne
  · have hpend' : s'.rudePend = true := hpend
    rw [hr] at hpend'
    cases hpend'

/-- **Nothing is added behind a last task that is just done**: alone in the list, it may see tasks added that go ahead of it, too. -/
def dspAddsOk (s : DspSys T) : DspEvent T → Prop
  | .mail m adds => ∀ c, s.curr = some c → s.mail c m = .done → ¬ (s.rudePend = true ∧ s.rude ≠ some c) → s.next c = none →
      if s.first = some c then adds = [] ∨ ∃ p ∈ adds, p.2 < (s.task c).prio else ∀ p ∈ adds, p.2 < (s.task c).prio
  | _ => True

instance [Fintype T] (s : DspSys T) : ∀ e, Decidable (dspAddsOk s e)
  | .mail m adds => inferInstanceAs (Decidable (∀ c, s.curr = some c → s.mail c m = .done →
      ¬ (s.rudePend = true ∧ s.rude ≠ some c) → s.next c = none →
        if s.first = some c then adds = [] ∨ ∃ p ∈ adds, p.2 < (s.task c).prio else ∀ p ∈ adds, p.2 < (s.task c).prio))
  | .add .. => inferInstanceAs (Decidable True)
  | .assert _ => inferInstanceAs (Decidable True)
  | .cancel _ => inferInstanceAs (Decidable True)

omit [DecidableEq T] in
theorem onCurr_of {f : T → DspSys T} (hc : s.curr = some c) : s.onCurr f = f c := by
  unfold DspSys.onCurr
  rw [hc]

theorem DspInv.doneOnly (h : DspInv s (l₁ ++ c :: l₂)) (hr : s.rudePend = false) (hok : l₁ ≠ [] ∨ l₂ = []) :
    DspInv { dspDoneOnly s c with live := Function.update (dspDoneOnly s c).live c false } (l₁ ++ l₂) := by
  have h' := h.setTask c (f := .setState .done) rfl
  obtain ⟨-, hfreed, hcurr⟩ := dspRemovetask_holds h'.holds
  refine h'.removed rfl (fun _ => rfl) rfl ?_ (hfreed.rudePend.trans hr)
  have hcurr' : (dspDoneOnly s c).curr = _ := hcurr
  rw [hcurr']
  cases l₁ with
  | nil =>
    have hnil := hok.resolve_left fun hne => hne rfl
    subst hnil
    exact .inr ⟨rfl, rfl⟩
  | cons a l₁ =>
    cases l₂ with
    | nil => exact .inl ⟨a, by simp, rfl⟩
    | cons b l₂ => exact .inl ⟨b, by simp, rfl⟩

theorem DspInv.doneLast (h : DspInv s (l₁ ++ [c])) (hr : s.rudePend = false) (hne : l₁ ≠ []) :
    DspInv { dspDoneLast s c with live := Function.update (dspDoneLast s c).live c false } (l₁ ++ []) := by
  obtain ⟨a, l, rfl⟩ := List.exists_cons_of_ne_nil hne
  have hfirst : s.first = some a := h.holds.first_eq
  have hlast : s.last = some c := by rw [h.holds.last_eq, List.getLast?_concat]
  obtain ⟨s₁, hs₁⟩ : ∃ s₁, s₁ = { s.setTask c (.setState .done) with curr := s.first } := ⟨_, rfl⟩
  have h₁ : DspInv s₁ (a :: l ++ [c]) :=
    h.switch (by rw [hs₁]; rfl) (by rw [hs₁]; exact setTask_prio s c rfl) (by rw [hs₁]; rfl) (t := a) (by simp)
      (by rw [hs₁]; exact hfirst) fun hp => ⟨by rw [hs₁] at hp; exact hp, by rw [hs₁]; rfl⟩
  have he : dspDoneLast s c = dspRemovetask s₁ c := by
    rw [hs₁]
    show dspRemove _ s.last = _
    rw [hlast]
    rfl
  obtain ⟨-, hfreed, hcurr⟩ := dspRemovetask_holds h₁.holds
  rw [he]
  refine h₁.removed rfl (fun _ => rfl) rfl (.inl ⟨a, by simp, hcurr⟩) ?_
  rw [hfreed.rudePend, hs₁]
  exact hr

theorem DspInv.doneMiddle (h : DspInv s (l₁ ++ c :: l₂)) (hr : s.rudePend = false) (hne : l₂ ≠ []) :
    DspInv { dspDoneMiddle s c with live := Function.update (dspDoneMiddle s c).live c false } (l₁ ++ l₂) := by
  obtain ⟨n, l, rfl⟩ := List.exists_cons_of_ne_nil hne
  have hnext : s.next c = some n := h.holds.next_eq
  have hprev : s.prev n = some c := by
    have h' : s.Holds ((l₁ ++ [c]) ++ n :: l) := by simpa using h.holds
    rw [h'.prev_eq, List.getLast?_concat]
  obtain ⟨s₁, hs₁⟩ : ∃ s₁, s₁ = { s.setTask c (.setState .done) with curr := s.next c } := ⟨_, rfl⟩
  have h₁ : DspInv s₁ (l₁ ++ c :: n :: l) :=
    h.switch (by rw [hs₁]; rfl) (by rw [hs₁]; exact setTask_prio s c rfl) (by rw [hs₁]; rfl) (t := n) (by simp)
      (by rw [hs₁]; exact hnext) fun hp => ⟨by rw [hs₁] at hp; exact hp, by rw [hs₁]; rfl⟩
  have he : dspDoneMiddle s c = dspRemove s₁ ((s.next c).bind s.prev) := by
    rw [hs₁]
    rfl
  rw [hnext, Option.bind_some, hprev, dspRemove] at he
  obtain ⟨-, hfreed, hcurr⟩ := dspRemovetask_holds h₁.holds
  rw [he]
  refine h₁.removed rfl (fun _ => rfl) rfl (.inl ⟨n, by simp, ?_⟩) ?_
  · rw [hcurr, hs₁]
    cases l₁ with
    | nil => exact hnext
    | cons a l₁ => rfl
  · rw [hfreed.rudePend, hs₁]
    exact hr

theorem DspInv.doneRude (h : DspInv s (l₁ ++ c :: l₂)) {t : T} (ht : t ∈ l₁ ++ c :: l₂) (htc : t ≠ c) (hr : s.rude = some t) :
    DspInv { dspDoneRude s c with live := Function.update (dspDoneRude s c).live c false } (l₁ ++ l₂) := by
  obtain ⟨-, hfreed, -⟩ := dspRemovetask_holds h.holds
  refine h.removed rfl (fun _ => rfl) rfl (.inl ⟨t, ?_, hfreed.rude.trans hr⟩) rfl
  rw [List.mem_append, List.mem_cons] at ht
  rw [List.mem_append]
  tauto

theorem DspInv.done [Fintype T] (h : DspInv s xs) (hc : s.curr = some c) {adds : List (T × Nat)} (hnd : (adds.map Prod.fst).Nodup)
    (hlive : ∀ p ∈ adds, s.live p.1 = false) (hok : ¬ (s.rudePend = true ∧ s.rude ≠ some c) → s.next c = none →
      if s.first = some c then adds = [] ∨ ∃ p ∈ adds, p.2 < (s.task c).prio else ∀ p ∈ adds, p.2 < (s.task c).prio) :
    ∃ xs', DspInv { dspDone s c adds with live := Function.update (dspDone s c adds).live c false } xs' := by
  obtain ⟨l₁, l₂, rfl⟩ := List.append_of_mem (h.currIn c hc)
  unfold dspDone
  split
  · rename_i hrude
    obtain ⟨t, ht, hr⟩ := h.rudeIn hrude.1
    have htc : t ≠ c := fun he => hrude.2 (by rw [hr, he])
    obtain ⟨l₁', l₂', h', k⟩ := h.adds hnd hlive
    rw [onCurr_of (k.curr.trans hc)]
    exact ⟨_, h'.doneRude (k.sub t ht) htc (k.rude.trans hr)⟩
  · rename_i hrude
    -- whether or not it had asserted itself
    obtain ⟨s₁, hs₁⟩ : ∃ s₁, s₁ = if s.rudePend = true then s.clearRude else s := ⟨_, rfl⟩
    have h₁ : DspInv s₁ (l₁ ++ c :: l₂) := by
      rw [hs₁]
      split
      · exact h.clearRude
      · exact h
    have hsame : s₁.rudePend = false ∧ s₁.curr = s.curr ∧ s₁.next = s.next ∧ s₁.first = s.first ∧ s₁.live = s.live ∧ s₁.task = s.task := by
      rw [hs₁]
      split
      · exact ⟨rfl, rfl, rfl, rfl, rfl, rfl⟩
      · rename_i hp
        exact ⟨by simpa using hp, rfl, rfl, rfl, rfl, rfl⟩
    obtain ⟨e1, e2, e3, e4, e5, e6⟩ := hsame
    have hok := hok hrude
    rw [← hs₁]
    obtain ⟨l₁', l₂', h', k⟩ := h₁.adds hnd (by rw [e5]; exact hlive)
    have hcurr : (dspAdds s₁ adds).curr = some c := k.curr.trans (e2.trans hc)
    have hpend : (dspAdds s₁ adds).rudePend = false := k.rudePend.trans e1
    have hnext := h.holds.next_eq
    dsimp only
    rw [e3, e4, onCurr_of hcurr, onCurr_of hcurr, onCurr_of hcurr]
    cases l₂ with
    | nil =>
      rw [hnext] at hok ⊢
      have hok := hok rfl
      dsimp only [List.head?_nil]
      split
      · rename_i hf
        rw [if_pos hf] at hok
        refine ⟨_, h'.doneOnly hpend ?_⟩
        rcases hok with he | ⟨p, hp, hlt⟩
        · exact .inr (k.none he).2
        · exact .inl (k.ahead (.inr ⟨p, hp, by rw [e6]; exact hlt⟩))
      · rename_i hf
        rw [if_neg hf] at hok
        obtain rfl := k.last rfl (by rw [e6]; exact hok)
        refine ⟨_, h'.doneLast hpend (k.ahead (.inl ?_))⟩
        rintro rfl
        exact hf h.holds.first_eq
    | cons n l =>
      rw [hnext]
      exact ⟨_, h'.doneMiddle hpend (k.behind (by simp))⟩

/-! ## Runs -/

theorem DspInv.taskcb [Fintype T] (h : DspInv s xs) {m : DspMail} {adds : List (T × Nat)} (hg : dspGuard s (.mail m adds))
    (hok : dspAddsOk s (.mail m adds)) : ∃ xs', DspInv (dspDefTaskcb s m adds) xs' := by
  obtain ⟨hnd, hlive⟩ := hg
  unfold dspDefTaskcb
  split
  · exact ⟨xs, h⟩
  · rename_i c hc
    have hset := h.setTask c (f := .setState .run) rfl
    split
    · exact hset.ran hc hnd hlive
    · exact hset.ran hc hnd hlive
    · exact h.yield hc hnd hlive
    · rename_i hm
      exact h.done hc hnd hlive (hok c hc hm)
    · exact h.ran hc hnd hlive
    · exact ⟨xs, h⟩

theorem DspInv.assert (h : DspInv s xs) (hx : s.live x = true) : DspInv (dspAssertTask s x).1 xs := by
  unfold dspAssertTask
  split
  · split
    · exact ⟨h.toDspList.congr rfl (fun _ => rfl) rfl, h.currIn, h.currSome, fun _ => ⟨x, (h.live x).2 hx, rfl⟩⟩
    · exact h
  · exact h

theorem DspInv.step [Fintype T] (h : DspInv s xs) {e : DspEvent T} (he : (dspSystem.restrict dspAddsOk).enabled s e) :
    ∃ xs', DspInv (dspNext s e) xs' := by
  obtain ⟨hg, hok⟩ := he
  cases e with
  | add x prio =>
    obtain ⟨l₁, l₂, -, h', -⟩ := h.add hg prio
    exact ⟨_, h'⟩
  | assert x => exact ⟨xs, h.assert hg⟩
  | cancel x => exact ⟨xs, h.setTask x rfl⟩
  | mail m adds => exact h.taskcb hg hok

omit [DecidableEq T] in
theorem dspStart_inv (next prev : T → Option T) (task : T → DspTask) : DspInv (dspStart next prev task) [] := by
  refine ⟨⟨⟨fun hq => ?_, fun hq => ?_, fun _ _ _ _ => rfl⟩, List.Pairwise.nil, fun t => ?_⟩, (fun _ ht => by cases ht),
    fun hne => absurd rfl hne, (fun hp => by cases hp)⟩
  · cases hq
    exact ⟨⟨rfl, rfl⟩, rfl⟩
  · cases hq
    exact List.nodup_nil
  · exact ⟨(fun ht => by cases ht), (fun ht => by cases ht)⟩

/-- **What the task list is**: doubly linked from its first to its last task, sorted by priority, and exactly the tasks added and not yet
done; the current task is one of them, if there is one. -/
structure DspSound (s : DspSys T) (xs : List T) : Prop where
  first : s.first = xs.head?
  last : s.last = xs.getLast?
  linked : ∀ l₁ t l₂, xs = l₁ ++ t :: l₂ → s.prev t = l₁.getLast? ∧ s.next t = l₂.head?
  once : xs.Nodup
  sorted : xs.Pairwise fun t u => (s.task t).prio ≤ (s.task u).prio
  live : ∀ t, t ∈ xs ↔ s.live t = true
  curr : (xs = [] → s.curr = none) ∧ (xs ≠ [] → ∃ t ∈ xs, s.curr = some t)

/-- **The task list**, on every run where nothing is added behind a last task that is just done. -/
theorem dsp_task_list [Fintype T] {next prev : T → Option T} {task : T → DspTask} {es : List (DspEvent T)}
    (hl : (dspSystem.restrict dspAddsOk).Legal (dspStart next prev task) es) :
    ∃ xs, DspSound (dspSystem.run (dspStart next prev task) es) xs := by
  obtain ⟨xs, h⟩ := hl.invariant (I := fun s => ∃ xs, DspInv s xs) (fun _ _ ⟨_, hs⟩ he => hs.step he)
    ⟨[], dspStart_inv next prev task⟩
  refine ⟨xs, h.holds.first_eq, h.holds.last_eq, fun l₁ t l₂ he => ?_, h.holds.nodup, h.sorted, h.live, fun he => ?_, fun hne => ?_⟩
  · subst he
    exact ⟨h.holds.prev_eq, h.holds.next_eq⟩
  · subst he
    exact Option.eq_none_iff_forall_ne_some.2 fun t ht => by cases h.currIn t ht
  · obtain ⟨t, ht⟩ := Option.ne_none_iff_exists'.1 (h.currSome hne)
    exact ⟨t, h.currIn t ht, ht⟩

end Inv

/-- Three tasks of no priority yet. -/
def dspThree : DspSys (Fin 3) := dspStart (fun _ => none) (fun _ => none) fun _ => ⟨.done, 0, 0⟩

/-- A task added from a callback ahead of the one that is done, an assertion and a cancellation. -/
theorem dsp_task_list_sample :
    ∃ xs, DspSound (dspSystem.run dspThree
      [.add 0 5, .mail .init [(1, 7)], .mail .yield [], .assert 0, .mail .yield [], .cancel 0, .mail .yield [(2, 3)],
        .mail .done [(0, 2)]]) xs := by
  refine dsp_task_list ?_
  decide +kernel

/-- A task added by the done callback of the only task, or of the last one, is added behind it: the removed task stays current, or the new
one is removed in its place. -/
theorem dsp_done_adds :
    (dspSystem.Legal dspThree [.add 0 5, .mail .done [(1, 5)]] ∧
        ¬ ∃ xs, DspSound (dspSystem.run dspThree [.add 0 5, .mail .done [(1, 5)]]) xs) ∧
      dspSystem.Legal dspThree [.add 0 5, .add 1 6, .mail .yield [], .mail .done [(2, 6)]] ∧
        ¬ ∃ xs, DspSound (dspSystem.run dspThree [.add 0 5, .add 1 6, .mail .yield [], .mail .done [(2, 6)]]) xs := by
  refine ⟨⟨by decide +kernel, ?_⟩, by decide +kernel, ?_⟩
  · obtain ⟨s, hs⟩ : ∃ s, s = dspSystem.run dspThree [.add 0 5, .mail .done [(1, 5)]] := ⟨_, rfl⟩
    have hlive : s.live 0 = false ∧ s.live 1 = true ∧ s.curr = some 0 := by rw [hs]; decide +kernel
    rw [← hs]
    rintro ⟨xs, h⟩
    obtain ⟨t, ht, hc⟩ := h.curr.2 fun he => by have := (h.live 1).2 hlive.2.1; rw [he] at this; cases this
    rw [hlive.2.2] at hc
    cases hc
    rw [h.live, hlive.1] at ht
    cases ht
  · obtain ⟨s, hs⟩ : ∃ s, s = dspSystem.run dspThree [.add 0 5, .add 1 6, .mail .yield [], .mail .done [(2, 6)]] := ⟨_, rfl⟩
    have hlive : s.live 1 = false ∧ s.last = some 1 := by rw [hs]; decide +kernel
    rw [← hs]
    rintro ⟨xs, h⟩
    have ht := List.mem_of_getLast? (h.last.symm.trans hlive.2)
    rw [h.live, hlive.1] at ht
    cases ht

end Libogc
