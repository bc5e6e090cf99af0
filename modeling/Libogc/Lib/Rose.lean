import Mathlib.Data.List.Nodup
/-!
# Rose — trees whose nodes have any number of children

A node is known by its address, the list of the children to descend to.  A tree grows by children that are put behind the others
(`addAt`); what that does to the nodes is said here once, for trees whose nodes have different keys.
-/
namespace Libogc

inductive Rose (α : Type) where
  | node (label : α) (children : List (Rose α))

namespace Rose

variable {α κ : Type}

def label : Rose α → α
  | .node a _ => a

def children : Rose α → List (Rose α)
  | .node _ cs => cs

mutual
/-- The nodes of a tree, each with what is below it. -/
def nodes : Rose α → List (Rose α)
  | .node a cs => .node a cs :: nodesOf cs
def nodesOf : List (Rose α) → List (Rose α)
  | [] => []
  | c :: cs => nodes c ++ nodesOf cs
end

/-- The node at an address. -/
def at? : List Nat → Rose α → Option (Rose α)
  | [], t => some t
  | i :: rest, t => t.children[i]?.bind (at? rest)

/-- A child is put behind the others of the node at an address. -/
def addAt : Rose α → List Nat → Rose α → Rose α
  | .node a cs, [], x => .node a (cs ++ [x])
  | .node a cs, i :: rest, x => .node a (cs.modify i fun c => c.addAt rest x)

mutual
/-- The first node, from the left and from above, whose label is wanted. -/
def find? (p : α → Bool) : Rose α → Option (List Nat)
  | .node a cs => if p a then some [] else findOf p 0 cs
def findOf (p : α → Bool) (i : Nat) : List (Rose α) → Option (List Nat)
  | [] => none
  | c :: cs =>
    match find? p c with
    | some path => some (i :: path)
    | none => findOf p (i + 1) cs
end

/-! ## Lists of trees -/

theorem nodesOf_append (cs cs' : List (Rose α)) : nodesOf (cs ++ cs') = nodesOf cs ++ nodesOf cs' := by
  induction cs with
  | nil => rfl
  | cons c cs ih => rw [List.cons_append, nodesOf, nodesOf, ih, List.append_assoc]

theorem mem_nodes_self (t : Rose α) : t ∈ t.nodes := by
  cases t
  exact List.mem_cons_self

theorem nodesOf_mem {c u : Rose α} {cs : List (Rose α)} (hc : c ∈ cs) (hu : u ∈ c.nodes) : u ∈ nodesOf cs := by
  induction cs with
  | nil => cases hc
  | cons d cs ih =>
    rcases List.mem_cons.mp hc with rfl | hc
    · exact List.mem_append_left _ hu
    · exact List.mem_append_right _ (ih hc)

theorem addAt_label (t : Rose α) (path : List Nat) (x : Rose α) : (t.addAt path x).label = t.label := by
  cases t
  cases path <;> rfl

theorem at?_cons {i : Nat} {rest : List Nat} {t u : Rose α} (h : t.at? (i :: rest) = some u) :
    ∃ l c l', t.children = l ++ c :: l' ∧ l.length = i ∧ c.at? rest = some u := by
  obtain ⟨c, hc, hu⟩ := Option.bind_eq_some_iff.mp h
  obtain ⟨hi, rfl⟩ := List.getElem?_eq_some_iff.mp hc
  refine ⟨t.children.take i, t.children[i], t.children.drop (i + 1), ?_, ?_, hu⟩
  · rw [← List.drop_eq_getElem_cons hi, List.take_append_drop]
  · rw [List.length_take]
    omega

theorem modify_split (f : Rose α → Rose α) (l l' : List (Rose α)) (c : Rose α) : (l ++ c :: l').modify l.length f = l ++ f c :: l' := by
  induction l with
  | nil => rfl
  | cons d l ih => rw [List.cons_append, List.length_cons, List.modify_succ_cons, ih, List.cons_append]

theorem at?_mem {path : List Nat} : ∀ {t u : Rose α}, t.at? path = some u → u ∈ t.nodes := by
  induction path with
  | nil =>
    intro t u h
    obtain rfl := Option.some.inj h
    exact mem_nodes_self t
  | cons i rest ih =>
    intro t u h
    obtain ⟨l, c, l', hcs, -, hu⟩ := at?_cons h
    obtain ⟨a, cs⟩ := t
    obtain rfl : cs = l ++ c :: l' := hcs
    exact List.mem_cons_of_mem _ (nodesOf_mem (by simp) (ih hu))

/-! ## Growth -/

/-- The keys of a tree's nodes. -/
def keys (key : α → κ) (t : Rose α) : List κ := t.nodes.map fun u => key u.label

theorem keys_node (key : α → κ) (a : α) (cs : List (Rose α)) :
    (Rose.node a cs).keys key = key a :: (nodesOf cs).map fun u => key u.label := rfl

theorem addAt_keys (key : α → κ) (x : Rose α) {path : List Nat} : ∀ {t u : Rose α}, t.at? path = some u →
    ((t.addAt path x).keys key).Perm (x.keys key ++ t.keys key) := by
  induction path with
  | nil =>
    rintro ⟨a, cs⟩ u -
    rw [addAt, keys_node, keys_node, nodesOf_append, List.map_append]
    show (key a :: (_ ++ (x.nodes ++ []).map _)).Perm _
    rw [List.append_nil]
    exact (List.Perm.cons _ List.perm_append_comm).trans (List.perm_middle.symm)
  | cons i rest ih =>
    rintro ⟨a, cs⟩ u h
    obtain ⟨l, c, l', hcs, rfl, hu⟩ := at?_cons h
    obtain rfl : cs = l ++ c :: l' := hcs
    rw [addAt, modify_split, keys_node, keys_node, nodesOf_append, nodesOf_append, nodesOf, nodesOf, List.map_append,
      List.map_append, List.map_append, List.map_append]
    have hc := ih hu
    have hmid : ((nodesOf l).map (fun u => key u.label) ++ ((c.addAt rest x).keys key ++ (nodesOf l').map fun u => key u.label)).Perm
        (x.keys key ++ ((nodesOf l).map (fun u => key u.label) ++ (c.keys key ++ (nodesOf l').map fun u => key u.label))) := by
      refine (List.Perm.append_left _ (hc.append_right _)).trans ?_
      rw [List.append_assoc, ← List.append_assoc, ← List.append_assoc (x.keys key)]
      exact List.perm_append_comm.append_right _
    exact (List.Perm.cons _ hmid).trans List.perm_middle.symm

/-- How a node of a tree that has grown below the node `u` comes from one of the tree before. -/
def Grown (key : α → κ) (u x v v₀ : Rose α) : Prop :=
  v.label = v₀.label ∧
    ((key v₀.label ≠ key u.label ∧ v.children.map label = v₀.children.map label) ∨
      (key v₀.label = key u.label ∧ v.children.map label = v₀.children.map label ++ [x.label]))

/-- **Every node is new, or one that was there**; only the children of the one node have changed. -/
theorem addAt_nodes {key : α → κ} (x : Rose α) {path : List Nat} : ∀ {t u : Rose α}, (t.keys key).Nodup → t.at? path = some u →
    ∀ v ∈ (t.addAt path x).nodes, v ∈ x.nodes ∨ ∃ v₀ ∈ t.nodes, Grown key u x v v₀ := by
  induction path with
  | nil =>
    rintro ⟨a, cs⟩ u hnd h v hv
    obtain rfl := Option.some.inj h
    rw [addAt, nodes, nodesOf_append] at hv
    rw [keys_node] at hnd
    obtain ⟨hnot, -⟩ := List.nodup_cons.mp hnd
    rcases List.mem_cons.mp hv with rfl | hv
    · exact .inr ⟨_, mem_nodes_self _, rfl, .inr ⟨rfl, List.map_append⟩⟩
    · rcases List.mem_append.mp hv with hv | hv
      · refine .inr ⟨v, List.mem_cons_of_mem _ hv, rfl, .inl ⟨fun he => hnot ?_, rfl⟩⟩
        have he : key v.label = key a := he
        exact he ▸ List.mem_map_of_mem (f := fun u => key u.label) hv
      · exact .inl (by simpa [nodesOf] using hv)
  | cons i rest ih =>
    rintro ⟨a, cs⟩ u hnd h v hv
    obtain ⟨l, c, l', hcs, rfl, hu⟩ := at?_cons h
    obtain rfl : cs = l ++ c :: l' := hcs
    have hmem := at?_mem hu
    rw [keys_node, nodesOf_append, nodesOf, List.map_append, List.map_append] at hnd
    obtain ⟨hnot, hnd⟩ := List.nodup_cons.mp hnd
    obtain ⟨-, hnd', hdisj⟩ := List.nodup_append.mp hnd
    obtain ⟨hndc, -, hdisj'⟩ := List.nodup_append.mp hnd'
    have hku : key u.label ∈ c.nodes.map fun u => key u.label := List.mem_map_of_mem hmem
    rw [addAt, modify_split, nodes, nodesOf_append, nodesOf] at hv
    rcases List.mem_cons.mp hv with rfl | hv
    · -- the node the address goes through
      refine .inr ⟨_, mem_nodes_self _, rfl, .inl ⟨fun he => hnot ?_, ?_⟩⟩
      · have he : key a = key u.label := he
        rw [he]
        exact List.mem_append_right _ (List.mem_append_left _ hku)
      · show (l ++ c.addAt rest x :: l').map label = (l ++ c :: l').map label
        rw [List.map_append, List.map_append, List.map_cons, List.map_cons, addAt_label]
    · rcases List.mem_append.mp hv with hv | hv
      · refine .inr ⟨v, List.mem_cons_of_mem _ ?_, rfl, .inl ⟨?_, rfl⟩⟩
        · rw [nodesOf_append]
          exact List.mem_append_left _ hv
        · exact hdisj _ (List.mem_map_of_mem (f := fun u => key u.label) hv) _ (List.mem_append_left _ hku)
      · rcases List.mem_append.mp hv with hv | hv
        · rcases ih hndc hu v hv with hx | ⟨v₀, hv₀, hg⟩
          · exact .inl hx
          · exact .inr ⟨v₀, List.mem_cons_of_mem _ (nodesOf_mem (by simp) hv₀), hg⟩
        · refine .inr ⟨v, List.mem_cons_of_mem _ ?_, rfl, .inl ⟨?_, rfl⟩⟩
          · rw [nodesOf_append, nodesOf]
            exact List.mem_append_right _ (List.mem_append_right _ hv)
          · exact (hdisj' _ hku _ (List.mem_map_of_mem (f := fun u => key u.label) hv)).symm

theorem addAt_at? (x : Rose α) {path : List Nat} : ∀ {t u : Rose α}, t.at? path = some u →
    (t.addAt path x).at? path = some (.node u.label (u.children ++ [x])) := by
  induction path with
  | nil =>
    rintro ⟨a, cs⟩ u h
    obtain rfl := Option.some.inj h
    rfl
  | cons i rest ih =>
    rintro ⟨a, cs⟩ u h
    obtain ⟨l, c, l', hcs, rfl, hu⟩ := at?_cons h
    obtain rfl : cs = l ++ c :: l' := hcs
    rw [addAt, modify_split]
    show (l ++ c.addAt rest x :: l')[l.length]?.bind (at? rest) = _
    rw [List.getElem?_append_right (Nat.le_refl _), Nat.sub_self]
    exact ih hu

/-! ## The search -/

mutual
theorem find?_some (p : α → Bool) : ∀ (t : Rose α) (path : List Nat), t.find? p = some path →
    ∃ u, t.at? path = some u ∧ p u.label = true
  | .node a cs, path, h => by
    rw [find?] at h
    by_cases ha : p a = true
    · rw [if_pos ha] at h
      obtain rfl := Option.some.inj h
      exact ⟨.node a cs, rfl, ha⟩
    · rw [if_neg ha] at h
      obtain ⟨j, rest, rfl, hu⟩ := findOf_some p 0 cs path h
      rw [Nat.zero_add]
      exact hu
theorem findOf_some (p : α → Bool) : ∀ (i : Nat) (cs : List (Rose α)) (path : List Nat), findOf p i cs = some path →
    ∃ j rest, path = (i + j) :: rest ∧ ∃ u, cs[j]?.bind (at? rest) = some u ∧ p u.label = true
  | i, [], path, h => by cases h
  | i, c :: cs, path, h => by
    rw [findOf] at h
    cases hc : c.find? p with
    | some rest =>
      rw [hc] at h
      obtain rfl := Option.some.inj h
      exact ⟨0, rest, rfl, find?_some p c rest hc⟩
    | none =>
      rw [hc] at h
      obtain ⟨j, rest, rfl, hu⟩ := findOf_some p (i + 1) cs path h
      exact ⟨j + 1, rest, by rw [Nat.add_right_comm, Nat.add_assoc], hu⟩
end

mutual
theorem find?_isSome (p : α → Bool) : ∀ (t u : Rose α), u ∈ t.nodes → p u.label = true → ∃ path, t.find? p = some path
  | .node a cs, u, hu, hp => by
    rw [find?]
    by_cases ha : p a = true
    · exact ⟨[], if_pos ha⟩
    · rw [if_neg ha]
      rcases List.mem_cons.mp hu with rfl | hu
      · exact absurd hp ha
      · exact findOf_isSome p 0 cs u hu hp
theorem findOf_isSome (p : α → Bool) : ∀ (i : Nat) (cs : List (Rose α)) (u : Rose α), u ∈ nodesOf cs → p u.label = true →
    ∃ path, findOf p i cs = some path
  | i, [], u, hu, hp => by cases hu
  | i, c :: cs, u, hu, hp => by
    rw [findOf]
    cases hc : c.find? p with
    | some path => exact ⟨i :: path, rfl⟩
    | none =>
      rcases List.mem_append.mp hu with hu | hu
      · obtain ⟨path, hpath⟩ := find?_isSome p c u hu hp
        rw [hpath] at hc
        cases hc
      · exact findOf_isSome p (i + 1) cs u hu hp
end

end Rose
end Libogc
