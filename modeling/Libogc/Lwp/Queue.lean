import Libogc.Lib.Links
/-!
# Queue — `lwp_queue.inl` and `lwp_queue.c`

The queue primitives every kernel object is built on, word write by word write in the source's order, and what each does
to the queues the memory holds.  The interrupt-safe wrappers of `lwp_queue.c` differ from these only in the level they
run at.
-/
namespace Libogc

open Links

variable {Q N : Type} [DecidableEq Q] [DecidableEq N]

def lwpQueueIsempty (m : Mem Q N) (q : Q) : Bool := m (.first q) = .tail q

def lwpQueueOnenode (m : Mem Q N) (q : Q) : Bool := m (.first q) = m (.last q)

def lwpQueueInitEmpty (m : Mem Q N) (q : Q) : Mem Q N :=
  let m := m.set (.first q) (.tail q)
  let m := m.set (.permNull q) .null
  m.set (.last q) (.head q)

/-- Takes the first node off a queue, returning its address. -/
def lwpQueueFirstnodeI (m : Mem Q N) (q : Q) : Mem Q N × Link Q N :=
  let ret := m (.first q)
  let newFirst := m.next ret
  let m := m.set (.first q) newFirst
  (m.setPrev newFirst (.head q), ret)

def lwpQueueAppendI (m : Mem Q N) (q : Q) (n : N) : Mem Q N :=
  let m := m.setNext (.node n) (.tail q)
  let old := m (.last q)
  let m := m.set (.last q) (.node n)
  let m := m.setNext old (.node n)
  m.setPrev (.node n) old

def lwpQueueExtractI (m : Mem Q N) (n : N) : Mem Q N :=
  let next := m (.next n)
  let prev := m (.prev n)
  let m := m.setPrev next prev
  m.setNext prev next

def lwpQueueInsertI (m : Mem Q N) (after : Link Q N) (n : N) : Mem Q N :=
  let m := m.setPrev (.node n) after
  let before := m.next after
  let m := m.setNext after (.node n)
  let m := m.setNext (.node n) before
  m.setPrev before (.node n)

def lwpQueuePrependI (m : Mem Q N) (q : Q) (n : N) : Mem Q N := lwpQueueInsertI m (.head q) n

/-- `__lwp_queue_getI`: the first node, or null when there is none. -/
def lwpQueueGetI (m : Mem Q N) (q : Q) : Mem Q N × Link Q N :=
  if lwpQueueIsempty m q then (m, .null) else lwpQueueFirstnodeI m q

/-- One round of the loop of `__lwp_queue_initialize`: `next` becomes the node after `curr`. -/
def lwpQueueInitializeRound (node : Nat → N) (l : Mem Q N × Link Q N) (i : Nat) : Mem Q N × Link Q N :=
  let next := Link.node (node i)
  ((l.1.setNext l.2 next).setPrev next l.2, next)

/-- What follows the loop. -/
def lwpQueueInitializeEnd (q : Q) (l : Mem Q N × Link Q N) : Mem Q N := (l.1.setNext l.2 (.tail q)).set (.last q) l.2

/-- `__lwp_queue_initialize`: the first `num` nodes of an array, in a row. -/
def lwpQueueInitialize (m : Mem Q N) (q : Q) (node : Nat → N) (num : Nat) : Mem Q N :=
  lwpQueueInitializeEnd q ((List.range num).foldl (lwpQueueInitializeRound node) (m.set (.permNull q) .null, .head q))

/-! ## What they do to the queues -/

variable {m : Mem Q N} {Qs : Q → Option (List N)} {q : Q}

variable {xs : List N} {n : N}

theorem lwpQueueIsempty_iff (h : Rep m Qs) (hq : Qs q = some xs) : lwpQueueIsempty m q = true ↔ xs = [] := by
  rw [lwpQueueIsempty, decide_eq_true_eq, h.first_eq_tail hq]

theorem lwpQueueOnenode_iff (h : Rep m Qs) (hq : Qs q = some xs) : lwpQueueOnenode m q = true ↔ ∃ x, xs = [x] := by
  rw [lwpQueueOnenode, decide_eq_true_eq, h.first_eq_last hq]

theorem lwpQueueInitEmpty_rep (h : Rep m Qs) (q : Q) : Rep (lwpQueueInitEmpty m q) (Function.update Qs q (some [])) := by
  refine h.init (fun c hc => ?_) ?_ ?_ ?_
  · simp only [Foot, not_or] at hc
    simp [lwpQueueInitEmpty, Mem.set, Function.update_of_ne, hc.1, hc.2.1, hc.2.2.1]
  · simp [lwpQueueInitEmpty, Mem.set]
  · simp [lwpQueueInitEmpty, Mem.set]
  · simp [lwpQueueInitEmpty, Mem.set]

theorem lwpQueueInitEmpty_foldl {ι : Type} (header : ι → Q) {m : Mem Q N} {Qs : Q → Option (List N)} (h : Rep m Qs) : ∀ is : List ι,
    Rep (is.foldl (fun m i => lwpQueueInitEmpty m (header i)) m) fun q => if q ∈ is.map header then some [] else Qs q
  | [] => by simpa using h
  | i :: is => by
    have hp := lwpQueueInitEmpty_foldl header (lwpQueueInitEmpty_rep h (header i)) is
    refine (congrArg (Rep _) ?_).mp hp
    funext q
    by_cases hq : q = header i
    · subst hq; simp
    · simp [hq]

theorem lwpQueueInsertI_rep (h : Rep m Qs) {l₁ l₂ : List N} (hq : Qs q = some (l₁ ++ l₂)) (hn : Free Qs n) :
    Rep (lwpQueueInsertI m (lastOf (.head q) l₁) n) (Function.update Qs q (some (l₁ ++ n :: l₂))) := by
  have hbefore : m (lastOf (.head q : Link Q N) l₁).nextCell = firstOf l₂ (.tail q) := (h.linked hq).1.split.2.next_eq
  have hnot := hn q _ hq
  rw [List.mem_append, not_or] at hnot
  have han := lastOf_nextCell_ne q hnot.1
  have hbn := firstOf_prevCell_ne q hnot.2
  have hab := ends_ne q l₁ l₂
  have hm : lwpQueueInsertI m (lastOf (.head q) l₁) n =
      Function.update (Function.update (Function.update (Function.update m (.prev n) (lastOf (.head q) l₁))
        (lastOf (.head q : Link Q N) l₁).nextCell (.node n)) (.next n) (firstOf l₂ (.tail q)))
        (firstOf l₂ (.tail q : Link Q N)).prevCell (.node n) := by
    simp only [lwpQueueInsertI, Mem.setPrev, Mem.setNext, Mem.set, Mem.next, Link.nextCell_node, Link.prevCell_node]
    rw [Function.update_of_ne (Link.nextCell_ne_prev _ n), hbefore]
  rw [hm]
  refine h.insert hq hn (fun c h1 h2 h3 h4 => ?_) ?_ ?_ ?_ ?_
  · rw [Function.update_of_ne h2, Function.update_of_ne h3, Function.update_of_ne h1, Function.update_of_ne h4]
  · rw [Function.update_of_ne hab, Function.update_of_ne han, Function.update_self]
  · rw [Function.update_self]
  · rw [Function.update_of_ne (Link.prevCell_ne_next _ n).symm, Function.update_self]
  · rw [Function.update_of_ne hbn.symm, Function.update_of_ne (by simp),
      Function.update_of_ne (Link.nextCell_ne_prev _ n).symm, Function.update_self]

theorem lwpQueuePrependI_rep (h : Rep m Qs) (hq : Qs q = some xs) (hn : Free Qs n) :
    Rep (lwpQueuePrependI m q n) (Function.update Qs q (some (n :: xs))) :=
  lwpQueueInsertI_rep (q := q) h (by simpa using hq : Qs q = some ([] ++ xs)) hn

theorem lwpQueueAppendI_rep (h : Rep m Qs) (hq : Qs q = some xs) (hn : Free Qs n) :
    Rep (lwpQueueAppendI m q n) (Function.update Qs q (some (xs ++ [n]))) := by
  have hold : m (.last q) = lastOf (.head q) xs := h.prev_tail hq
  have han := lastOf_nextCell_ne q (hn q _ hq)
  have hab : (lastOf (.head q : Link Q N) xs).nextCell ≠ .last q := ends_ne q xs []
  have hm : lwpQueueAppendI m q n =
      Function.update (Function.update (Function.update (Function.update m (.next n) (.tail q)) (.last q) (.node n))
        (lastOf (.head q : Link Q N) xs).nextCell (.node n)) (.prev n) (lastOf (.head q) xs) := by
    simp only [lwpQueueAppendI, Mem.setPrev, Mem.setNext, Mem.set, Link.nextCell_node, Link.prevCell_node]
    rw [Function.update_of_ne (by simp : (Cell.last q : Cell Q N) ≠ .next n), hold]
  rw [hm]
  refine h.insert (by simpa using hq : Qs q = some (xs ++ [])) hn (fun c h1 h2 h3 h4 => ?_) ?_ ?_ ?_ ?_
  · have h2' : c ≠ .last q := h2
    rw [Function.update_of_ne h4, Function.update_of_ne h1, Function.update_of_ne h2', Function.update_of_ne h3]
  · rw [Function.update_of_ne (Link.nextCell_ne_prev _ n), Function.update_self]
  · simp only [firstOf, Link.prevCell]
    rw [Function.update_of_ne (by simp), Function.update_of_ne hab.symm, Function.update_self]
  · rw [Function.update_of_ne (by simp), Function.update_of_ne han.symm, Function.update_of_ne (by simp),
      Function.update_self]
    rfl
  · rw [Function.update_self]

theorem lwpQueueExtractI_rep (h : Rep m Qs) {l₁ l₂ : List N} (hq : Qs q = some (l₁ ++ n :: l₂)) :
    Rep (lwpQueueExtractI m n) (Function.update Qs q (some (l₁ ++ l₂))) := by
  have hab := ends_ne q l₁ l₂
  simp only [lwpQueueExtractI, h.next_node hq, h.prev_node hq, Mem.setPrev, Mem.setNext, Mem.set]
  refine h.remove hq (fun c h1 h2 => ?_) ?_ ?_
  · rw [Function.update_of_ne h1, Function.update_of_ne h2]
  · rw [Function.update_self]
  · rw [Function.update_of_ne hab.symm, Function.update_self]

/-- Taking the first node is extracting it: the head's `next` is the word `first`. -/
theorem lwpQueueFirstnodeI_rep (h : Rep m Qs) (hq : Qs q = some (n :: xs)) :
    Rep (lwpQueueFirstnodeI m q).1 (Function.update Qs q (some xs)) ∧ (lwpQueueFirstnodeI m q).2 = .node n := by
  have hq' : Qs q = some ([] ++ n :: xs) := hq
  have hfirst : m (.first q) = .node n := h.next_head hq
  have hnext : m.next (.node n) = firstOf xs (.tail q) := h.next_node hq'
  have hne : (firstOf xs (.tail q : Link Q N)).prevCell ≠ .first q := by
    rcases firstOf_cases q xs with e | ⟨y, -, e⟩ <;> rw [e] <;> simp [Link.prevCell]
  simp only [lwpQueueFirstnodeI, hfirst, hnext, Mem.setPrev, Mem.set, and_true]
  refine h.remove hq' (fun c h1 h2 => ?_) ?_ ?_
  · have h1' : c ≠ .first q := h1
    rw [Function.update_of_ne h2, Function.update_of_ne h1']
  · simp only [lastOf, Link.nextCell]
    rw [Function.update_of_ne hne.symm, Function.update_self]
  · rw [Function.update_self]
    rfl

theorem lwpQueueGetI_empty (h : Rep m Qs) (hq : Qs q = some []) : lwpQueueGetI m q = (m, .null) := by
  unfold lwpQueueGetI
  rw [(lwpQueueIsempty_iff h hq).2 rfl, if_pos rfl]

theorem lwpQueueGetI_cons (h : Rep m Qs) (hq : Qs q = some (n :: xs)) :
    Rep (lwpQueueGetI m q).1 (Function.update Qs q (some xs)) ∧ (lwpQueueGetI m q).2 = .node n := by
  unfold lwpQueueGetI
  rw [if_neg]
  · exact lwpQueueFirstnodeI_rep h hq
  · rw [lwpQueueIsempty_iff h hq]
    exact fun he => by cases he

theorem lwpQueueInitialize_curr (m : Mem Q N) (q : Q) (node : Nat → N) : ∀ num,
    ((List.range num).foldl (lwpQueueInitializeRound node) (m, .head q)).2 = lastOf (.head q) ((List.range num).map node)
  | 0 => rfl
  | num + 1 => by
    rw [List.range_succ, List.map_append, List.foldl_append]
    exact (lastOf_append _ _ _).symm

/-- **The array's nodes become a queue**, when no queue had them.  If the loop stopped after any round, what follows it would
close a queue of the nodes linked so far; one more round inserts one more node at its end. -/
theorem lwpQueueInitialize_rep (h : Rep m Qs) (q : Q) {node : Nat → N} (hinj : Function.Injective node)
    (hfree : ∀ i, Free Qs (node i)) : ∀ num,
    Rep (lwpQueueInitialize m q node num) (Function.update Qs q (some ((List.range num).map node)))
  | 0 => by
    refine h.init (fun c hc => ?_) ?_ ?_ ?_
    · simp only [Foot, not_or] at hc
      simp [lwpQueueInitialize, lwpQueueInitializeEnd, Mem.set, Mem.setNext, Link.nextCell, Function.update_of_ne, hc.1, hc.2.1,
        hc.2.2.1]
    · simp [lwpQueueInitialize, lwpQueueInitializeEnd, Mem.set, Mem.setNext, Link.nextCell]
    · simp [lwpQueueInitialize, lwpQueueInitializeEnd, Mem.set, Mem.setNext, Link.nextCell]
    · simp [lwpQueueInitialize, lwpQueueInitializeEnd, Mem.set, Mem.setNext, Link.nextCell]
  | num + 1 => by
    have ih := lwpQueueInitialize_rep h q hinj hfree num
    set xs := (List.range num).map node with hxs
    have hnew : node num ∉ xs := by
      rintro hmem
      obtain ⟨i, hi, he⟩ := List.mem_map.1 hmem
      rw [hinj he] at hi
      exact List.not_mem_range_self hi
    have hfree' : Free (Function.update Qs q (some xs)) (node num) := by
      intro q' ys hy
      by_cases hq : q' = q
      · subst hq
        rw [Function.update_self] at hy
        cases hy
        exact hnew
      · rw [Function.update_of_ne hq] at hy
        exact hfree num q' ys hy
    have hlist : (List.range (num + 1)).map node = xs ++ [node num] := by rw [List.range_succ, List.map_append]; rfl
    obtain ⟨m₁, hm₁⟩ : ∃ m₁, (List.range num).foldl (lwpQueueInitializeRound node) (m.set (.permNull q) .null, .head q) =
        (m₁, lastOf (.head q) xs) := ⟨_, Prod.ext rfl (lwpQueueInitialize_curr _ q node num)⟩
    have hold : lwpQueueInitialize m q node num =
        Function.update (Function.update m₁ (lastOf (.head q : Link Q N) xs).nextCell (.tail q)) (.last q)
          (lastOf (.head q) xs) := by
      rw [lwpQueueInitialize, hm₁]
      rfl
    have hm' : lwpQueueInitialize m q node (num + 1) =
        Function.update (Function.update (Function.update (Function.update m₁ (lastOf (.head q : Link Q N) xs).nextCell
          (.node (node num))) (.prev (node num)) (lastOf (.head q) xs)) (.next (node num)) (.tail q)) (.last q)
          (.node (node num)) := by
      rw [lwpQueueInitialize, List.range_succ, List.foldl_append, hm₁]
      rfl
    have han := lastOf_nextCell_ne q hnew
    have hab : (lastOf (.head q : Link Q N) xs).nextCell ≠ .last q := ends_ne q xs []
    have hpn : (lastOf (.head q : Link Q N) xs).nextCell ≠ .prev (node num) := Link.nextCell_ne_prev _ _
    have hins : Rep (lwpQueueInitialize m q node (num + 1))
        (Function.update (Function.update Qs q (some xs)) q (some (xs ++ node num :: []))) := by
      rw [hold] at ih
      rw [hm']
      refine ih.insert (by rw [Function.update_self, List.append_nil]) hfree' (fun c h1 h2 h3 h4 => ?_) ?_ ?_ ?_ ?_
      · have h2' : c ≠ .last q := h2
        rw [Function.update_of_ne h2', Function.update_of_ne h3, Function.update_of_ne h4, Function.update_of_ne h1,
          Function.update_of_ne h2', Function.update_of_ne h1]
      · rw [Function.update_of_ne hab, Function.update_of_ne han, Function.update_of_ne hpn, Function.update_self]
      · exact Function.update_self ..
      · rw [Function.update_of_ne (by simp), Function.update_self]
        rfl
      · rw [Function.update_of_ne (by simp), Function.update_of_ne (by simp), Function.update_self]
    rw [Function.update_idem] at hins
    rw [hlist]
    exact hins

end Libogc
