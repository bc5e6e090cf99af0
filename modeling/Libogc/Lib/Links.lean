import Libogc.Lib.Numerals
import Mathlib.Data.List.Basic
import Mathlib.Logic.Function.Basic
import Mathlib.Tactic.Common
/-!
# Links — intrusive doubly linked queues as words of memory

A queue header is three words `first`, `permNull`, `last`, read as two overlapping sentinel nodes: the head's links are
(`first`, `permNull`), the tail's are (`permNull`, `last`).  A node carries its two links inside itself, so it is on at
most one queue at a time and a queue is known only through the words that point along it.

`Seg m a xs b` says that the words of `m` link `a` to `b` through the nodes `xs`; `IsQueue` is the segment between a
header's sentinels.  `Rep m Q` is the whole memory: every queue `Q` names is linked, and no node is on two of them.  A
queue `Q` does not name is garbage, as a header is before it is initialised and after its nodes were moved away.

Each rule below states what a few word writes do to `Q` (`Rep.insert`, `Rep.remove`, `Rep.replace`, `Rep.adopt`); none
depends on the order of the writes.
-/
namespace Links

/-- The address of a node: a header's sentinels or a node proper. -/
inductive Link (Q N : Type) where
  | null
  | head (q : Q)
  | tail (q : Q)
  | node (n : N)
  deriving DecidableEq, Repr

/-- A word of memory that holds a node's address.  `wild` is where a null address would point. -/
inductive Cell (Q N : Type) where
  | first (q : Q)
  | permNull (q : Q)
  | last (q : Q)
  | next (n : N)
  | prev (n : N)
  | wild
  deriving DecidableEq, Repr

/-- The link words of every header and every node. -/
abbrev Mem (Q N : Type) := Cell Q N → Link Q N

variable {Q N : Type}

def Link.nextCell : Link Q N → Cell Q N
  | .null => .wild
  | .head q => .first q
  | .tail q => .permNull q
  | .node n => .next n

def Link.prevCell : Link Q N → Cell Q N
  | .null => .wild
  | .head q => .permNull q
  | .tail q => .last q
  | .node n => .prev n

def Mem.next (m : Mem Q N) (a : Link Q N) : Link Q N := m a.nextCell
def Mem.prev (m : Mem Q N) (a : Link Q N) : Link Q N := m a.prevCell

section Writes
variable [DecidableEq Q] [DecidableEq N]

def Mem.set (m : Mem Q N) (c : Cell Q N) (v : Link Q N) : Mem Q N := Function.update m c v
def Mem.setNext (m : Mem Q N) (a v : Link Q N) : Mem Q N := m.set a.nextCell v
def Mem.setPrev (m : Mem Q N) (a v : Link Q N) : Mem Q N := m.set a.prevCell v

end Writes

/-! ## Segments -/

/-- **`a` is linked to `b` through the nodes `xs`**, forwards and backwards. -/
def Seg (m : Mem Q N) : Link Q N → List N → Link Q N → Prop
  | a, [], b => m a.nextCell = b ∧ m b.prevCell = a
  | a, x :: xs, b => (m a.nextCell = .node x ∧ m (.prev x) = a) ∧ Seg m (.node x) xs b

variable {m m' : Mem Q N} {x n : N} {ys xs : List N} {b a : Link Q N} {Qs : Q → Option (List N)} {q q' : Q}

theorem Seg.append : ∀ {xs : List N} {a : Link Q N}, Seg m a (xs ++ x :: ys) b ↔ Seg m a xs (.node x) ∧ Seg m (.node x) ys b
  | [], _ => Iff.rfl
  | y :: xs, a => by
    rw [List.cons_append, Seg, Seg, Seg.append, ← and_assoc]

/-- The word after the first link of a segment, and the word before its last. -/
def firstOf (xs : List N) (b : Link Q N) : Link Q N :=
  match xs with
  | [] => b
  | x :: _ => .node x

def lastOf (a : Link Q N) : List N → Link Q N
  | [] => a
  | x :: xs => lastOf (.node x) xs

theorem Seg.next_eq (h : Seg m a xs b) : m a.nextCell = firstOf xs b := by
  cases xs with
  | nil => exact h.1
  | cons x xs => exact h.1.1

theorem Seg.prev_eq : ∀ {xs : List N} {a : Link Q N}, Seg m a xs b → m b.prevCell = lastOf a xs
  | [], _, h => h.2
  | _ :: _, _, h => Seg.prev_eq (a := .node _) h.2

theorem lastOf_append (a : Link Q N) (x : N) : ∀ xs : List N, lastOf a (xs ++ [x]) = .node x
  | [] => rfl
  | y :: xs => by rw [List.cons_append, lastOf, lastOf_append (.node y) x xs]

theorem Seg.frame (hb : m' b.prevCell = m b.prevCell) :
    ∀ {xs : List N} {a : Link Q N}, Seg m a xs b → m' a.nextCell = m a.nextCell →
      (∀ x ∈ xs, m' (.next x) = m (.next x) ∧ m' (.prev x) = m (.prev x)) → Seg m' a xs b
  | [], _, h, ha, _ => ⟨ha.trans h.1, hb.trans h.2⟩
  | x :: _, _, h, ha, hx =>
    ⟨⟨ha.trans h.1.1, (hx x List.mem_cons_self).2.trans h.1.2⟩,
      Seg.frame hb h.2 (hx x List.mem_cons_self).1 (fun y hy => hx y (List.mem_cons_of_mem _ hy))⟩

theorem mem_of_lastOf_eq (ha : a ≠ .node x) : ∀ {xs : List N}, lastOf a xs = .node x → x ∈ xs := by
  intro xs h
  rcases List.eq_nil_or_concat xs with rfl | ⟨ys, y, rfl⟩
  · exact absurd h ha
  · rw [List.concat_eq_append, lastOf_append] at h
    cases h
    simp

theorem mem_of_firstOf_eq (hb : b ≠ .node x) : ∀ {xs : List N}, firstOf xs b = .node x → x ∈ xs
  | [], h => absurd h hb
  | y :: ys, h => by cases h; simp

/-- The link before a queue's end is its head sentinel or one of its nodes. -/
theorem lastOf_cases (q : Q) (xs : List N) :
    lastOf (.head q : Link Q N) xs = .head q ∨ ∃ x ∈ xs, lastOf (.head q : Link Q N) xs = .node x := by
  rcases List.eq_nil_or_concat xs with rfl | ⟨ys, y, rfl⟩
  · exact .inl rfl
  · exact .inr ⟨y, by simp, by rw [List.concat_eq_append, lastOf_append]⟩

/-- The link after a queue's start is its tail sentinel or one of its nodes. -/
theorem firstOf_cases (q : Q) (xs : List N) :
    firstOf xs (.tail q : Link Q N) = .tail q ∨ ∃ x ∈ xs, firstOf xs (.tail q : Link Q N) = .node x := by
  cases xs with
  | nil => exact .inl rfl
  | cons x xs => exact .inr ⟨x, by simp, rfl⟩

theorem Seg.split : ∀ {xs : List N} {a : Link Q N}, Seg m a (xs ++ ys) b → Seg m a xs (firstOf ys b) ∧ Seg m (lastOf a xs) ys b
  | [], _, h => by
    refine ⟨?_, h⟩
    cases ys with
    | nil => exact h
    | cons y ys => exact h.1
  | _ :: _, _, h => ⟨⟨h.1, (Seg.split h.2).1⟩, (Seg.split h.2).2⟩

theorem Seg.join : ∀ {xs : List N} {a : Link Q N}, Seg m a xs (firstOf ys b) → Seg m (lastOf a xs) ys b → Seg m a (xs ++ ys) b
  | [], _, _, h2 => h2
  | _ :: _, _, h1, h2 => ⟨h1.1, Seg.join h1.2 h2⟩

theorem firstOf_append (xs ys : List N) (b : Link Q N) : firstOf (xs ++ ys) b = firstOf xs (firstOf ys b) := by
  cases xs <;> rfl

theorem Seg.first_prev (h : Seg m a xs b) : m (firstOf xs b).prevCell = a := by
  cases xs with
  | nil => exact h.2
  | cons x xs => exact h.1.2

theorem Seg.last_next : ∀ {xs : List N} {a : Link Q N}, Seg m a xs b → m (lastOf a xs).nextCell = b
  | [], _, h => h.1
  | _ :: _, _, h => Seg.last_next (a := .node _) h.2

/-- A segment keeps its inside when only its end moves: the last link's `next` and the end's `prev` are rewritten. -/
theorem Seg.retarget_end {b' : Link Q N} : ∀ {xs : List N} {a : Link Q N}, xs.Nodup →
    Seg m a xs b → m' (lastOf a xs).nextCell = b' → m' b'.prevCell = lastOf a xs →
      (xs ≠ [] → m' a.nextCell = m a.nextCell) →
      (∀ x ∈ xs, (.node x : Link Q N) ≠ lastOf a xs → m' (.next x) = m (.next x)) →
      (∀ x ∈ xs, m' (.prev x) = m (.prev x)) → Seg m' a xs b'
  | [], _, _, _, h1, h2, _, _, _ => ⟨h1, h2⟩
  | x :: xs, a, hnd, h, h1, h2, ha, hn, hp => by
    rw [List.nodup_cons] at hnd
    refine ⟨⟨(ha (by simp)).trans h.1.1, (hp x List.mem_cons_self).trans h.1.2⟩, ?_⟩
    refine Seg.retarget_end hnd.2 h.2 h1 h2 (fun hne => ?_)
      (fun y hy => hn y (List.mem_cons_of_mem _ hy)) (fun y hy => hp y (List.mem_cons_of_mem _ hy))
    refine hn x List.mem_cons_self (fun heq => hnd.1 ?_)
    -- `x` is not the last node, since `xs` is not empty and does not repeat it
    obtain ⟨ys, y, rfl⟩ := (List.eq_nil_or_concat xs).resolve_left hne
    rw [lastOf, List.concat_eq_append, lastOf_append] at heq
    cases heq
    simp

theorem Seg.retarget_start {a' : Link Q N} (hnd : xs.Nodup) (h : Seg m a xs b) (h1 : m' a'.nextCell = firstOf xs b)
    (h2 : m' (firstOf xs b).prevCell = a') (hb : xs ≠ [] → m' b.prevCell = m b.prevCell)
    (hn : ∀ x ∈ xs, m' (.next x) = m (.next x)) (hp : ∀ x ∈ xs, (.node x : Link Q N) ≠ firstOf xs b → m' (.prev x) = m (.prev x)) :
    Seg m' a' xs b := by
  cases xs with
  | nil => exact ⟨h1, h2⟩
  | cons x xs =>
    rw [List.nodup_cons] at hnd
    refine ⟨⟨h1, h2⟩, h.2.frame (hb (by simp)) (hn x List.mem_cons_self) (fun y hy => ?_)⟩
    refine ⟨hn y (List.mem_cons_of_mem _ hy), hp y (List.mem_cons_of_mem _ hy) (fun heq => hnd.1 ?_)⟩
    cases heq
    exact hy

@[simp] theorem Link.nextCell_node (n : N) : (.node n : Link Q N).nextCell = .next n := rfl
@[simp] theorem Link.prevCell_node (n : N) : (.node n : Link Q N).prevCell = .prev n := rfl
@[simp] theorem Link.nextCell_head (q : Q) : (.head q : Link Q N).nextCell = .first q := rfl
@[simp] theorem Link.prevCell_tail (q : Q) : (.tail q : Link Q N).prevCell = .last q := rfl

@[simp] theorem Link.nextCell_eq_next : a.nextCell = .next x ↔ a = .node x := by
  cases a <;> simp [Link.nextCell]

@[simp] theorem Link.prevCell_eq_prev : a.prevCell = .prev x ↔ a = .node x := by
  cases a <;> simp [Link.prevCell]

@[simp] theorem Link.nextCell_ne_prev (a : Link Q N) (x : N) : a.nextCell ≠ .prev x := by
  cases a <;> simp [Link.nextCell]

@[simp] theorem Link.prevCell_ne_next (a : Link Q N) (x : N) : a.prevCell ≠ .next x := by
  cases a <;> simp [Link.prevCell]

/-! ## Queues and the memory they share -/

/-- **A header's nodes are `xs`**, in order. -/
def IsQueue (m : Mem Q N) (q : Q) (xs : List N) : Prop :=
  Seg m (.head q) xs (.tail q) ∧ m (.permNull q) = .null

/-- **The memory holds exactly the queues `Qs` names**: each is linked, and no node is on it twice or on two of them. -/
structure Rep (m : Mem Q N) (Qs : Q → Option (List N)) : Prop where
  linked : ∀ {q xs}, Qs q = some xs → IsQueue m q xs
  nodup : ∀ {q xs}, Qs q = some xs → xs.Nodup
  disjoint : ∀ {q q' xs xs' n}, Qs q = some xs → Qs q' = some xs' → n ∈ xs → n ∈ xs' → q = q'

theorem Rep.nothing (m : Mem Q N) : Rep m fun _ => none where
  linked h := by cases h
  nodup h := by cases h
  disjoint h := by cases h

theorem Seg.unique (hb : ∀ x, b ≠ .node x) : ∀ {xs ys : List N} {a : Link Q N}, Seg m a xs b → Seg m a ys b → ys = xs
  | [], [], _, _, _ => rfl
  | [], y :: _, _, h, h' => absurd (h.1.symm.trans h'.1.1) (hb y)
  | x :: _, [], _, h, h' => absurd (h'.1.symm.trans h.1.1) (hb x)
  | x :: xs, y :: ys, a, h, h' => by
    have hxy : (.node y : Link Q N) = .node x := h'.1.1.symm.trans h.1.1
    cases hxy
    rw [Seg.unique hb h.2 h'.2]

theorem Rep.unique {Qs' : Q → Option (List N)} (h : Rep m Qs) (h' : Rep m Qs') (hq : (Qs q).isSome) (hq' : (Qs' q).isSome) :
    Qs' q = Qs q := by
  obtain ⟨xs, hxs⟩ := Option.isSome_iff_exists.1 hq
  obtain ⟨ys, hys⟩ := Option.isSome_iff_exists.1 hq'
  rw [hxs, hys, Seg.unique (fun x hx => by cases hx) (h.linked hxs).1 (h'.linked hys).1]

/-- The nodes of a queue; a header that is not one holds none. -/
def held (Qs : Q → Option (List N)) (q : Q) : List N := (Qs q).getD []

theorem held_eq (h : Qs q = some xs) : held Qs q = xs := by
  rw [held, h, Option.getD_some]

theorem exists_of_mem_held (h : n ∈ held Qs q) : ∃ l₁ l₂, Qs q = some (l₁ ++ n :: l₂) := by
  cases hq : Qs q with
  | none => rw [held, hq] at h; cases h
  | some xs =>
    rw [held_eq hq] at h
    obtain ⟨l₁, l₂, rfl⟩ := List.append_of_mem h
    exact ⟨l₁, l₂, rfl⟩

@[simp] theorem held_update_self [DecidableEq Q] (Qs : Q → Option (List N)) (q : Q) (o : Option (List N)) :
    held (Function.update Qs q o) q = o.getD [] := by simp [held]

theorem held_update_ne [DecidableEq Q] (Qs : Q → Option (List N)) (o : Option (List N)) (h : q' ≠ q) :
    held (Function.update Qs q o) q' = held Qs q' := by simp [held, h]

theorem Rep.held_nodup (h : Rep m Qs) (q : Q) : (held Qs q).Nodup := by
  cases hq : Qs q with
  | none => rw [held, hq]; exact List.nodup_nil
  | some xs => rw [held_eq hq]; exact h.nodup hq

theorem Rep.held_inj (h : Rep m Qs) (hn : n ∈ held Qs q) (hn' : n ∈ held Qs q') : q = q' := by
  obtain ⟨_, _, hq⟩ := exists_of_mem_held hn
  obtain ⟨_, _, hq'⟩ := exists_of_mem_held hn'
  rw [held_eq hq] at hn
  rw [held_eq hq'] at hn'
  exact h.disjoint hq hq' hn hn'

/-- A node on no queue. -/
def Free (Qs : Q → Option (List N)) (n : N) : Prop := ∀ q xs, Qs q = some xs → n ∉ xs

theorem free_iff : Free Qs n ↔ ∀ q, n ∉ held Qs q := by
  constructor
  · intro h q hn
    obtain ⟨_, _, hq⟩ := exists_of_mem_held hn
    exact h q _ hq (by simp)
  · intro h q xs hq hn
    exact h q (by rw [held_eq hq]; exact hn)

theorem Rep.next_head (h : Rep m Qs) (hq : Qs q = some xs) : m (.first q) = firstOf xs (.tail q) := (h.linked hq).1.next_eq

theorem Rep.prev_tail (h : Rep m Qs) (hq : Qs q = some xs) : m (.last q) = lastOf (.head q) xs := (h.linked hq).1.prev_eq

theorem Rep.next_node {l₁ l₂ : List N} (h : Rep m Qs) (hq : Qs q = some (l₁ ++ n :: l₂)) : m (.next n) = firstOf l₂ (.tail q) :=
  (Seg.append.1 (h.linked hq).1).2.next_eq

theorem Rep.prev_node {l₁ l₂ : List N} (h : Rep m Qs) (hq : Qs q = some (l₁ ++ n :: l₂)) : m (.prev n) = lastOf (.head q) l₁ :=
  (Seg.append.1 (h.linked hq).1).1.prev_eq

theorem Rep.first_eq_tail (h : Rep m Qs) (hq : Qs q = some xs) : m (.first q) = .tail q ↔ xs = [] := by
  rw [h.next_head hq]
  cases xs <;> simp [firstOf]

theorem lastOf_eq_node : ∀ {xs : List N}, lastOf a (x :: xs) = .node x → xs.Nodup → x ∉ xs → xs = []
  | [], _, _, _ => rfl
  | y :: ys, h, _, hx => by
    exfalso
    obtain ⟨zs, z, hz⟩ := (List.eq_nil_or_concat (y :: ys)).resolve_left (by simp)
    rw [lastOf, hz, List.concat_eq_append, lastOf_append] at h
    cases h
    exact hx (by rw [hz]; simp)

theorem Rep.first_eq_last (h : Rep m Qs) (hq : Qs q = some xs) : m (.first q) = m (.last q) ↔ ∃ x, xs = [x] := by
  rw [h.next_head hq, h.prev_tail hq]
  have hnd := h.nodup hq
  cases xs with
  | nil => simp [firstOf, lastOf]
  | cons x xs =>
    rw [List.nodup_cons] at hnd
    constructor
    · intro he
      exact ⟨x, by rw [lastOf_eq_node he.symm hnd.2 hnd.1]⟩
    · rintro ⟨y, hy⟩
      cases hy
      rfl

/-! ## Rules: what a few word writes do to the queues -/

/-- The words of a header and of the nodes in `P`. -/
def Foot (q : Q) (P : N → Prop) (c : Cell Q N) : Prop :=
  c = .first q ∨ c = .permNull q ∨ c = .last q ∨ ∃ x, P x ∧ (c = .next x ∨ c = .prev x)

theorem Rep.only_here (h : Rep m Qs) (hq : Qs q = some xs) : ∀ x ∈ xs, ∀ q' xs', q' ≠ q → Qs q' = some xs' → x ∉ xs' :=
  fun _ hx _ _ hne hq' hx' => hne (h.disjoint hq' hq hx' hx)

theorem Rep.free_of_removed [DecidableEq Q] (h : Rep m Qs) (hq : Qs q = some xs) (hn : n ∉ ys) (hx : n ∈ xs := by simp) :
    Free (Function.update Qs q (some ys)) n := by
  intro q' zs hz
  by_cases hqq : q' = q
  · subst hqq
    rw [Function.update_self] at hz
    cases hz
    exact hn
  · rw [Function.update_of_ne hqq] at hz
    exact fun hm => hqq (h.disjoint hz hq hm hx)

theorem ends_ne (q : Q) (l₁ l₂ : List N) : (lastOf (.head q : Link Q N) l₁).nextCell ≠ (firstOf l₂ (.tail q)).prevCell := by
  rcases lastOf_cases q l₁ with e | ⟨x, -, e⟩ <;> rcases firstOf_cases q l₂ with e' | ⟨y, -, e'⟩ <;>
    rw [e, e'] <;> simp [Link.nextCell, Link.prevCell]

theorem lastOf_nextCell_ne (q : Q) {l₁ : List N} (hn : n ∉ l₁) : (lastOf (.head q : Link Q N) l₁).nextCell ≠ .next n :=
  fun e => hn (mem_of_lastOf_eq (by simp) (Link.nextCell_eq_next.1 e))

theorem firstOf_prevCell_ne (q : Q) {l₂ : List N} (hn : n ∉ l₂) : (firstOf l₂ (.tail q : Link Q N)).prevCell ≠ .prev n :=
  fun e => hn (mem_of_firstOf_eq (by simp) (Link.prevCell_eq_prev.1 e))

theorem lastOf_nextCell_ne_header (hne : q' ≠ q) (l₁ : List N) :
    (lastOf (.head q : Link Q N) l₁).nextCell ≠ .first q' ∧ (lastOf (.head q : Link Q N) l₁).nextCell ≠ .last q' := by
  rcases lastOf_cases q l₁ with e | ⟨x, -, e⟩ <;> rw [e] <;> simp [Link.nextCell, hne.symm]

theorem firstOf_prevCell_ne_header (hne : q' ≠ q) (l₂ : List N) :
    (firstOf l₂ (.tail q : Link Q N)).prevCell ≠ .first q' ∧ (firstOf l₂ (.tail q : Link Q N)).prevCell ≠ .last q' := by
  rcases firstOf_cases q l₂ with e | ⟨x, -, e⟩ <;> rw [e] <;> simp [Link.prevCell, hne.symm]

/-- Writes outside the headers and the nodes on queues leave the queues as they were. -/
theorem Rep.frame (h : Rep m Qs)
    (hhdr : ∀ q, m' (.first q) = m (.first q) ∧ m' (.permNull q) = m (.permNull q) ∧ m' (.last q) = m (.last q))
    (hnode : ∀ q xs n, Qs q = some xs → n ∈ xs → m' (.next n) = m (.next n) ∧ m' (.prev n) = m (.prev n)) : Rep m' Qs := by
  refine ⟨fun {q xs} hq => ?_, h.nodup, h.disjoint⟩
  refine ⟨Seg.frame (b := .tail q) (hhdr q).2.2 (h.linked hq).1 (hhdr q).1 fun x hx => hnode q xs x hq hx, ?_⟩
  exact (hhdr q).2.1.trans (h.linked hq).2

section Rules
variable [DecidableEq Q] {m m' : Mem Q N} {Qs : Q → Option (List N)} {q : Q}

/-- **The frame rule**: writes inside one header and nodes no other queue holds leave every other queue as it was. -/
theorem Rep.rebuild (h : Rep m Qs) {P : N → Prop} {ys : List N} (hm : ∀ c, ¬ Foot q P c → m' c = m c)
    (hP : ∀ x, P x → ∀ q' xs, q' ≠ q → Qs q' = some xs → x ∉ xs) (hnew : IsQueue m' q ys) (hnd : ys.Nodup)
    (hys : ∀ y ∈ ys, ∀ q' xs, q' ≠ q → Qs q' = some xs → y ∉ xs) : Rep m' (Function.update Qs q (some ys)) := by
  have hother : ∀ {q' xs}, q' ≠ q → Qs q' = some xs → IsQueue m' q' xs := by
    intro q' xs hne hq'
    have hout : ∀ x ∈ xs, ¬ Foot q P (.next x) ∧ ¬ Foot q P (.prev x) := by
      intro x hx
      constructor <;> rintro (h1 | h1 | h1 | ⟨y, hy, h1 | h1⟩) <;> cases h1 <;> exact hP x hy q' xs hne hq' hx
    have hhdr : ¬ Foot q P (.first q') ∧ ¬ Foot q P (.permNull q') ∧ ¬ Foot q P (.last q') := by
      refine ⟨?_, ?_, ?_⟩ <;> rintro (h1 | h1 | h1 | ⟨y, hy, h1 | h1⟩) <;> cases h1 <;> exact hne rfl
    refine ⟨Seg.frame (b := .tail q') (hm _ hhdr.2.2) (h.linked hq').1 (hm _ hhdr.1) (fun x hx => ?_), ?_⟩
    · exact ⟨hm _ (hout x hx).1, hm _ (hout x hx).2⟩
    · exact (hm _ hhdr.2.1).trans (h.linked hq').2
  refine ⟨?_, ?_, ?_⟩
  · intro q' xs hq'
    by_cases hne : q' = q
    · subst hne
      rw [Function.update_self] at hq'
      cases hq'
      exact hnew
    · rw [Function.update_of_ne hne] at hq'
      exact hother hne hq'
  · intro q' xs hq'
    by_cases hne : q' = q
    · subst hne
      rw [Function.update_self] at hq'
      cases hq'
      exact hnd
    · rw [Function.update_of_ne hne] at hq'
      exact h.nodup hq'
  · intro q₁ q₂ xs₁ xs₂ n h1 h2 hn1 hn2
    by_cases e1 : q₁ = q <;> by_cases e2 : q₂ = q
    · rw [e1, e2]
    · rw [e1, Function.update_self] at h1
      rw [Function.update_of_ne e2] at h2
      cases h1
      exact absurd hn2 (hys n hn1 q₂ xs₂ e2 h2)
    · rw [e2, Function.update_self] at h2
      rw [Function.update_of_ne e1] at h1
      cases h2
      exact absurd hn1 (hys n hn2 q₁ xs₁ e1 h1)
    · rw [Function.update_of_ne e1] at h1
      rw [Function.update_of_ne e2] at h2
      exact h.disjoint h1 h2 hn1 hn2

theorem Rep.init (h : Rep m Qs) (hm : ∀ c, ¬ Foot q (fun _ => False) c → m' c = m c) (h1 : m' (.first q) = .tail q)
    (h2 : m' (.permNull q) = .null) (h3 : m' (.last q) = .head q) : Rep m' (Function.update Qs q (some [])) :=
  h.rebuild hm (fun _ hx => hx.elim) ⟨⟨h1, h3⟩, h2⟩ List.nodup_nil (fun _ hy => by cases hy)

/-- **Rewriting the middle of a queue**: once the new middle is linked to what stays on both sides, the queue holds it
in place of the old one.  The new nodes come from the old middle or from no queue. -/
theorem Rep.splice (h : Rep m Qs) {l₁ old new l₂ : List N} (hq : Qs q = some (l₁ ++ old ++ l₂))
    (hmid : Seg m' (lastOf (.head q) l₁) new (firstOf l₂ (.tail q)))
    (hm : ∀ c, c ≠ (lastOf (.head q) l₁).nextCell → c ≠ (firstOf l₂ (.tail q)).prevCell →
      (∀ x ∈ old ++ new, c ≠ .next x ∧ c ≠ .prev x) → m' c = m c)
    (hnd : new.Nodup) (hfrom : ∀ x ∈ new, x ∈ old ∨ Free Qs x) :
    Rep m' (Function.update Qs q (some (l₁ ++ new ++ l₂))) := by
  have hnd0 := h.nodup hq
  simp only [List.nodup_append, List.mem_append] at hnd0
  obtain ⟨⟨hnd1, -, hd1⟩, hnd2, hd2⟩ := hnd0
  have hd12 : ∀ x ∈ l₁, x ∉ l₂ := fun x hx hx' => hd2 x (.inl hx) x hx' rfl
  have hout : ∀ x, x ∈ l₁ ∨ x ∈ l₂ → ∀ y ∈ old ++ new, y ≠ x := by
    rintro x hx y hy rfl
    have hyold : y ∉ old := fun ho => hx.elim (fun h1 => hd1 y h1 y ho rfl) (fun h2 => hd2 y (.inr ho) y h2 rfl)
    rcases List.mem_append.1 hy with hy | hy
    · exact hyold hy
    · exact (hfrom y hy).elim hyold (fun hf => hf q _ hq (by simp only [List.mem_append]; tauto))
  -- what stays on the left ends at `lastOf`, what stays on the right begins at `firstOf`
  have hlast : ∀ x, lastOf (.head q : Link Q N) l₁ = .node x → x ∈ l₁ := fun x hx => mem_of_lastOf_eq (by simp) hx
  have hfirst : ∀ x, firstOf l₂ (.tail q : Link Q N) = .node x → x ∈ l₂ := fun x hx => mem_of_firstOf_eq (by simp) hx
  obtain ⟨hs1, hs2⟩ := (h.linked hq).1.split
  obtain ⟨hs1, -⟩ := hs1.split
  have hfar : ∀ x, x ∈ l₁ ∨ x ∈ l₂ → ∀ c : Cell Q N, c = .next x ∨ c = .prev x → ∀ y ∈ old ++ new, c ≠ .next y ∧ c ≠ .prev y := by
    rintro x hx c hc y hy
    have := hout x hx y hy
    rcases hc with rfl | rfl <;> simp [this.symm]
  have hhdr : ∀ c : Cell Q N, c = .first q ∨ c = .permNull q ∨ c = .last q →
      ∀ y ∈ old ++ new, c ≠ .next y ∧ c ≠ .prev y := by
    rintro c (rfl | rfl | rfl) y - <;> simp
  refine h.rebuild (P := fun x => x ∈ l₁ ∨ x ∈ l₂ ∨ x ∈ old ++ new) ?_ ?_ ⟨?_, ?_⟩ ?_ ?_
  · intro c hc
    simp only [Foot, not_or] at hc
    refine hm c ?_ ?_ (fun x hx => ⟨fun e => hc.2.2.2 ⟨x, .inr (.inr hx), .inl e⟩,
      fun e => hc.2.2.2 ⟨x, .inr (.inr hx), .inr e⟩⟩)
    · rintro rfl
      rcases List.eq_nil_or_concat l₁ with rfl | ⟨ys, y, rfl⟩
      · exact hc.1 rfl
      · rw [List.concat_eq_append, lastOf_append] at hc
        exact hc.2.2.2 ⟨y, by simp, .inl rfl⟩
    · rintro rfl
      cases l₂ with
      | nil => exact hc.2.2.1 rfl
      | cons y ys => exact hc.2.2.2 ⟨y, by simp, .inr rfl⟩
  · rintro x (hx | hx | hx)
    · exact h.only_here hq x (by simp [hx])
    · exact h.only_here hq x (by simp [hx])
    · rcases List.mem_append.1 hx with hx | hx
      · exact h.only_here hq x (by simp [hx])
      · rcases hfrom x hx with ho | hf
        · exact h.only_here hq x (by simp [ho])
        · exact fun q' xs _ hq' => hf q' xs hq'
  · rw [List.append_assoc]
    refine Seg.join ?_ (Seg.join hmid ?_)
    · rw [firstOf_append]
      refine hs1.retarget_end hnd1 hmid.next_eq hmid.first_prev (fun hne => hm _ ?_ ?_ (hhdr _ (.inl rfl)))
        (fun x hx hxl => hm _ ?_ ?_ (hfar x (.inl hx) _ (.inl rfl))) (fun x hx => hm _ ?_ ?_ (hfar x (.inl hx) _ (.inr rfl)))
      · obtain ⟨ys, y, rfl⟩ := (List.eq_nil_or_concat l₁).resolve_left hne
        rw [List.concat_eq_append, lastOf_append]
        simp [Link.nextCell]
      · cases l₂ <;> simp [firstOf, Link.prevCell, Link.nextCell]
      · exact fun e => hxl (Link.nextCell_eq_next.1 e.symm).symm
      · exact fun e => Link.prevCell_ne_next _ _ e.symm
      · exact fun e => Link.nextCell_ne_prev _ _ e.symm
      · exact fun e => hd12 x hx (hfirst x (Link.prevCell_eq_prev.1 e.symm))
    · refine hs2.retarget_start hnd2 hmid.last_next hmid.prev_eq (fun hne => hm _ ?_ ?_ (hhdr _ (.inr (.inr rfl))))
        (fun x hx => hm _ ?_ ?_ (hfar x (.inr hx) _ (.inl rfl))) (fun x hx hxf => hm _ ?_ ?_ (hfar x (.inr hx) _ (.inr rfl)))
      · rcases List.eq_nil_or_concat l₁ with rfl | ⟨ys, y, rfl⟩
        · simp [lastOf, Link.nextCell, Link.prevCell]
        · rw [List.concat_eq_append, lastOf_append]; simp [Link.nextCell, Link.prevCell]
      · cases l₂ with
        | nil => exact absurd rfl hne
        | cons y ys => simp [firstOf, Link.prevCell]
      · exact fun e => hd12 x (hlast x (Link.nextCell_eq_next.1 e.symm)) hx
      · exact fun e => Link.prevCell_ne_next _ _ e.symm
      · exact fun e => Link.nextCell_ne_prev _ _ e.symm
      · exact fun e => hxf (Link.prevCell_eq_prev.1 e.symm).symm
  · refine (hm _ ?_ ?_ (hhdr _ (.inr (.inl rfl)))).trans (h.linked hq).2
    · rcases List.eq_nil_or_concat l₁ with rfl | ⟨ys, y, rfl⟩
      · simp [lastOf, Link.nextCell]
      · rw [List.concat_eq_append, lastOf_append]; simp [Link.nextCell]
    · cases l₂ <;> simp [firstOf, Link.prevCell]
  · simp only [List.nodup_append, List.mem_append]
    exact ⟨⟨hnd1, hnd, fun a ha b hb => (hout a (.inl ha) b (by simp [hb])).symm⟩, hnd2, fun a ha b hb =>
      ha.elim (fun ha e => hd12 a ha (e ▸ hb)) (fun ha => hout b (.inr hb) a (by simp [ha]))⟩
  · intro y hy
    simp only [List.mem_append] at hy
    rcases hy with (hy | hy) | hy
    · exact h.only_here hq y (by simp [hy])
    · rcases hfrom y hy with ho | hf
      · exact h.only_here hq y (by simp [ho])
      · exact fun q' xs _ hq' => hf q' xs hq'
    · exact h.only_here hq y (by simp [hy])

theorem Rep.insert (h : Rep m Qs) {l₁ l₂ : List N} {n : N} (hq : Qs q = some (l₁ ++ l₂)) (hn : Free Qs n)
    (hm : ∀ c, c ≠ (lastOf (.head q) l₁).nextCell → c ≠ (firstOf l₂ (.tail q)).prevCell → c ≠ .next n →
      c ≠ .prev n → m' c = m c)
    (ha : m' (lastOf (.head q) l₁).nextCell = .node n) (hb : m' (firstOf l₂ (.tail q)).prevCell = .node n)
    (hnx : m' (.next n) = firstOf l₂ (.tail q)) (hpv : m' (.prev n) = lastOf (.head q) l₁) :
    Rep m' (Function.update Qs q (some (l₁ ++ n :: l₂))) := by
  have hq' : Qs q = some (l₁ ++ [] ++ l₂) := by simpa using hq
  have hnew : Rep m' (Function.update Qs q (some (l₁ ++ [n] ++ l₂))) :=
    h.splice hq' ⟨⟨ha, hpv⟩, hnx, hb⟩ (fun c h1 h2 h3 => hm c h1 h2 (h3 n (by simp)).1 (h3 n (by simp)).2) (by simp)
      (fun x hx => .inr (by rw [List.mem_singleton.1 hx]; exact hn))
  simpa using hnew

theorem Rep.remove (h : Rep m Qs) {l₁ l₂ : List N} {n : N} (hq : Qs q = some (l₁ ++ n :: l₂))
    (hm : ∀ c, c ≠ (lastOf (.head q) l₁).nextCell → c ≠ (firstOf l₂ (.tail q)).prevCell → m' c = m c)
    (ha : m' (lastOf (.head q) l₁).nextCell = firstOf l₂ (.tail q)) (hb : m' (firstOf l₂ (.tail q)).prevCell = lastOf (.head q) l₁) :
    Rep m' (Function.update Qs q (some (l₁ ++ l₂))) := by
  have hq' : Qs q = some (l₁ ++ [n] ++ l₂) := by simpa using hq
  have hnew : Rep m' (Function.update Qs q (some (l₁ ++ [] ++ l₂))) :=
    h.splice hq' ⟨ha, hb⟩ (fun c h1 h2 _ => hm c h1 h2) List.nodup_nil (fun x hx => by cases hx)
  simpa using hnew

theorem Rep.forget (h : Rep m Qs) (q : Q) : Rep m (Function.update Qs q none) := by
  have hsome : ∀ {q' xs}, Function.update Qs q none q' = some xs → Qs q' = some xs := by
    intro q' xs hq'
    by_cases hne : q' = q
    · subst hne
      rw [Function.update_self] at hq'
      cases hq'
    · rwa [Function.update_of_ne hne] at hq'
  exact ⟨fun hq' => h.linked (hsome hq'), fun hq' => h.nodup (hsome hq'),
    fun h1 h2 hn1 hn2 => h.disjoint (hsome h1) (hsome h2) hn1 hn2⟩

end Rules

end Links
