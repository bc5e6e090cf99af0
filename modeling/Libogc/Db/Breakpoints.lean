import Libogc.Lib.Chains
import Libogc.Lib.Singly
import Libogc.Lib.Runs
import Mathlib.Data.List.FinRange
/-!
# Breakpoints — the breakpoints of the debugger

`insert_bp` takes an entry of the table, puts it before the list and a trap in the place of the instruction; `remove_bp` takes the first
entry of the address off the list and puts back what it saved.  Of several breakpoints at one address only the oldest saved the
instruction, and the list has it last.

The words of the program are given by their addresses, and the table is not one of them.  The caches are left out.
-/
namespace Libogc

open Runs Singly

def GEKKO_MAX_BP : Nat := 256
def BPCODE : Nat := 0x7d821008

/-- `struct bp_entry`; the address 0 is `NULL`. -/
structure BpEntry where
  address : Nat
  instr : Nat
  next : Option (Fin GEKKO_MAX_BP)
  deriving DecidableEq, Repr

/-- The table, the list and the program. -/
structure Bp where
  bp_entries : Fin GEKKO_MAX_BP → BpEntry
  p_bpentries : Option (Fin GEKKO_MAX_BP)
  mem : Nat → Nat

/-- `bp_init` -/
def bpInit (mem : Nat → Nat) : Bp := ⟨fun _ => ⟨0, 0xffffffff, none⟩, none, mem⟩

/-- An entry is put before the list with the word at an address, where the trap is set. -/
def Bp.push (s : Bp) (p : Fin GEKKO_MAX_BP) (mem : Nat) : Bp where
  bp_entries := Function.update s.bp_entries p ⟨mem, s.mem mem, s.p_bpentries⟩
  p_bpentries := some p
  mem := Function.update s.mem mem BPCODE

/-- `insert_bp` -/
def insertBp (s : Bp) (mem : Nat) : Bp × Nat :=
  match (List.finRange GEKKO_MAX_BP).find? fun i => (s.bp_entries i).address = 0 with
  | none => (s, 0)
  | some p => (s.push p mem, 1)

/-- The search of `remove_bp` behind an entry: the entry of the address and the one before it, if there are.  It has an end if the list has
one, and then at most as many passes as there are entries. -/
def removeSearch (s : Bp) (mem : Nat) : Nat → Fin GEKKO_MAX_BP → Option (Option (Fin GEKKO_MAX_BP × Fin GEKKO_MAX_BP))
  | 0, _ => none
  | n + 1, e =>
    match (s.bp_entries e).next with
    | none => some none
    | some f => if (s.bp_entries f).address = mem then some (some (e, f)) else removeSearch s mem n f

/-- An entry that was taken off the list gives back its instruction and is free. -/
def Bp.restore (s : Bp) (f : Fin GEKKO_MAX_BP) : Bp :=
  { s with
    mem := Function.update s.mem (s.bp_entries f).address (s.bp_entries f).instr
    bp_entries := Function.update s.bp_entries f { s.bp_entries f with address := 0, instr := 0xffffffff } }

/-- The entry behind `e` is taken off the list. -/
def Bp.unlink (s : Bp) (e f : Fin GEKKO_MAX_BP) : Bp :=
  { s with bp_entries := Function.update s.bp_entries e { s.bp_entries e with next := (s.bp_entries f).next } }

/-- `remove_bp`, if it returns -/
def removeBp (s : Bp) (mem : Nat) : Option (Bp × Nat) :=
  match s.p_bpentries with
  | none => some (s, 0)
  | some e =>
    if (s.bp_entries e).address = mem then some ({ s with p_bpentries := (s.bp_entries e).next }.restore e, 1)
    else
      (removeSearch s mem GEKKO_MAX_BP e).map fun
        | none => (s, 0)
        | some (e, f) => ((s.unlink e f).restore f, 1)

/-- The calls of the debugger. -/
inductive BpEvent
  | insert (mem : Nat)
  | remove (mem : Nat)
  deriving DecidableEq, Repr

def BpEvent.address : BpEvent → Nat
  | insert mem | remove mem => mem

def bpNext (s : Bp) : BpEvent → Bp
  | .insert mem => (insertBp s mem).1
  | .remove mem => ((removeBp s mem).getD (s, 0)).1

/-- Calls on addresses of words. -/
def bpSystem : System Bp BpEvent := ⟨fun _ e => e.address ≠ 0 ∧ e.address % 4 = 0, bpNext⟩

instance (s : Bp) (e : BpEvent) : Decidable (bpSystem.enabled s e) := inferInstanceAs (Decidable (_ ∧ _))

/-! ## What breakpoints are for -/

/-- The breakpoints that are active, from the last one on: a call adds one if there are fewer than there may be, or takes off the last one at
an address. -/
def bpActive (l : List Nat) : BpEvent → List Nat
  | .insert mem => if l.length = GEKKO_MAX_BP then l else mem :: l
  | .remove mem => l.erase mem

/-- The program with breakpoints at the addresses of a list. -/
def bpMem (orig : Nat → Nat) (l : List Nat) (a : Nat) : Nat := if a ∈ l then BPCODE else orig a

/-- The table, the list and the program are as they should be while the breakpoints of `l` are active, and so is what the next call does. -/
structure BpRight (orig : Nat → Nat) (s : Bp) (l : List Nat) : Prop where
  list : ∃ xs, Listed (fun i => (s.bp_entries i).next) s.p_bpentries xs ∧ xs.Nodup ∧ (∀ i, i ∈ xs ↔ (s.bp_entries i).address ≠ 0) ∧
    xs.map (fun i => (s.bp_entries i).address) = l
  mem : ∀ a, s.mem a = if a ∈ l then BPCODE else orig a
  insert : ∀ a, ((insertBp s a).2 = 0 ↔ l.length = GEKKO_MAX_BP) ∧ ((insertBp s a).2 = 0 → (insertBp s a).1 = s)
  remove : ∀ a, ∃ r, removeBp s a = some r ∧ (r.2 = 0 ↔ a ∉ l) ∧ (r.2 = 0 → r.1 = s)
  restored : l = [] → s.mem = orig

/-! ## The invariant -/

section Rep
variable {orig : Nat → Nat} {s s' : Bp} {xs : List (Fin GEKKO_MAX_BP)} {a : Nat}

/-- The address of an entry. -/
def Bp.address (s : Bp) (i : Fin GEKKO_MAX_BP) : Nat := (s.bp_entries i).address

/-- Every entry saved what the program had with the breakpoints behind it. -/
def BpSaved (orig : Nat → Nat) (s : Bp) : List (Fin GEKKO_MAX_BP) → Prop
  | [] => True
  | i :: xs => (s.bp_entries i).instr = bpMem orig (xs.map s.address) (s.address i) ∧ BpSaved orig s xs

/-- The entries on the list are `xs`, the others are free. -/
structure BpRep (orig : Nat → Nat) (s : Bp) (xs : List (Fin GEKKO_MAX_BP)) : Prop where
  listed : Listed (fun i => (s.bp_entries i).next) s.p_bpentries xs
  active : ∀ i, i ∈ xs ↔ s.address i ≠ 0
  mem : s.mem = bpMem orig (xs.map s.address)
  saved : BpSaved orig s xs

theorem BpSaved.congr : ∀ {xs : List (Fin GEKKO_MAX_BP)}, BpSaved orig s xs → (∀ i ∈ xs, s'.address i = s.address i ∧
    (s'.bp_entries i).instr = (s.bp_entries i).instr) → BpSaved orig s' xs
  | [], _, _ => trivial
  | i :: xs, h, hsame => by
    have hi := hsame i List.mem_cons_self
    have hxs : ∀ j ∈ xs, _ := fun j hj => hsame j (List.mem_cons_of_mem _ hj)
    refine ⟨?_, h.2.congr hxs⟩
    rw [hi.1, hi.2, List.map_congr_left fun j hj => (hxs j hj).1]
    exact h.1

theorem BpRep.init (mem : Nat → Nat) : BpRep mem (bpInit mem) [] :=
  ⟨rfl, fun _ => iff_of_false List.not_mem_nil fun h => h rfl, rfl, trivial⟩

theorem BpRep.full_iff (h : BpRep orig s xs) : xs.length = GEKKO_MAX_BP ↔ ∀ i, s.address i ≠ 0 := by
  rw [← List.toFinset_card_of_nodup h.listed.nodup]
  constructor
  · intro hcard i
    have huniv := Finset.eq_univ_of_card xs.toFinset (by rw [hcard, Fintype.card_fin])
    exact (h.active i).1 (List.mem_toFinset.1 (huniv ▸ Finset.mem_univ i))
  · intro hall
    have huniv : xs.toFinset = Finset.univ := Finset.eq_univ_iff_forall.2 fun i => List.mem_toFinset.2 ((h.active i).2 (hall i))
    rw [huniv, Finset.card_univ, Fintype.card_fin]

theorem insertBp_full (h : ∀ i, s.address i ≠ 0) : insertBp s a = (s, 0) := by
  have hnone : (List.finRange GEKKO_MAX_BP).find? (fun i => (s.bp_entries i).address = 0) = none :=
    List.find?_eq_none.2 fun i _ hi => h i (of_decide_eq_true hi)
  unfold insertBp
  rw [hnone]

theorem insertBp_free (h : ¬ ∀ i, s.address i ≠ 0) : ∃ p, s.address p = 0 ∧ insertBp s a = (s.push p a, 1) := by
  have hsome : ((List.finRange GEKKO_MAX_BP).find? fun i => (s.bp_entries i).address = 0).isSome := by
    obtain ⟨i, hi⟩ := not_forall.1 h
    exact List.find?_isSome.2 ⟨i, List.mem_finRange i, decide_eq_true (not_not.1 hi)⟩
  obtain ⟨p, hp⟩ := Option.isSome_iff_exists.1 hsome
  have hfree : (s.bp_entries p).address = 0 := by simpa using List.find?_some hp
  refine ⟨p, hfree, ?_⟩
  unfold insertBp
  rw [hp]

theorem Bp.push_self (s : Bp) (p : Fin GEKKO_MAX_BP) (a : Nat) : (s.push p a).bp_entries p = ⟨a, s.mem a, s.p_bpentries⟩ :=
  Function.update_self ..

variable {i f : Fin GEKKO_MAX_BP} {post : List (Fin GEKKO_MAX_BP)}

theorem Bp.push_ne (s : Bp) {p : Fin GEKKO_MAX_BP} (a : Nat) (h : i ≠ p) : (s.push p a).bp_entries i = s.bp_entries i :=
  Function.update_of_ne h ..

theorem BpRep.push (h : BpRep orig s xs) (ha : a ≠ 0) {p : Fin GEKKO_MAX_BP} (hp : s.address p = 0) :
    BpRep orig (s.push p a) (p :: xs) ∧ (p :: xs).map (s.push p a).address = a :: xs.map s.address := by
  have hxs : p ∉ xs := fun hmem => (h.active p).1 hmem hp
  have hold : ∀ i ∈ xs, (s.push p a).bp_entries i = s.bp_entries i := fun i hi => s.push_ne a fun he => hxs (he ▸ hi)
  have haddr : ∀ i ∈ xs, (s.push p a).address i = s.address i := fun i hi => congrArg BpEntry.address (hold i hi)
  have hpaddr : (s.push p a).address p = a := congrArg BpEntry.address (s.push_self p a)
  have hmap : (p :: xs).map (s.push p a).address = a :: xs.map s.address := by rw [List.map_cons, hpaddr, List.map_congr_left haddr]
  refine ⟨⟨?_, fun i => ?_, ?_, ?_, ?_⟩, hmap⟩
  · have hnext : (fun i => ((s.push p a).bp_entries i).next) = Function.update (fun i => (s.bp_entries i).next) p s.p_bpentries := by
      funext i
      by_cases hi : i = p
      · rw [hi, s.push_self, Function.update_self]
      · rw [s.push_ne a hi, Function.update_of_ne hi]
    rw [hnext]
    exact h.listed.push hxs
  · by_cases hi : i = p
    · rw [hi, hpaddr]
      exact iff_of_true List.mem_cons_self ha
    · have hi' : (s.push p a).address i = s.address i := congrArg BpEntry.address (s.push_ne a hi)
      rw [hi', ← h.active i, List.mem_cons, or_iff_right hi]
  · rw [hmap]
    funext b
    show Function.update s.mem a BPCODE b = if b ∈ a :: xs.map s.address then BPCODE else orig b
    by_cases hb : b = a
    · rw [hb, Function.update_self, if_pos List.mem_cons_self]
    · rw [Function.update_of_ne hb, h.mem]
      unfold bpMem
      simp only [List.mem_cons, hb, false_or]
  · rw [s.push_self, hpaddr, List.map_congr_left haddr, ← h.mem]
  · exact h.saved.congr fun i hi => ⟨haddr i hi, congrArg BpEntry.instr (hold i hi)⟩

/-! ## Removal -/

theorem exists_first_address {l : List (Fin GEKKO_MAX_BP)} (h : a ∈ l.map s.address) :
    ∃ pre f post, l = pre ++ f :: post ∧ s.address f = a ∧ a ∉ pre.map s.address := by
  obtain ⟨as, bs, hsplit, has⟩ := List.eq_append_cons_of_mem h
  obtain ⟨pre, rest, rfl, rfl, hrest⟩ := List.map_eq_append_iff.1 hsplit
  obtain ⟨f, post, rfl, hf, -⟩ := List.map_eq_cons_iff.1 hrest
  exact ⟨pre, f, post, rfl, hf, has⟩

/-- The search finds nothing behind an entry if no entry there is of the address. -/
theorem removeSearch_none : ∀ {l : List (Fin GEKKO_MAX_BP)} {n : Nat} {e : Fin GEKKO_MAX_BP},
    Listed (fun i => (s.bp_entries i).next) (s.bp_entries e).next l → l.length < n → a ∉ l.map s.address →
      removeSearch s a n e = some none
  | [], n + 1, e, h, _, _ => by
    have hend : (s.bp_entries e).next = none := h
    unfold removeSearch
    rw [hend]
  | f :: l, n + 1, e, h, hn, ha => by
    rw [List.map_cons, List.mem_cons, not_or] at ha
    unfold removeSearch
    rw [h.1]
    dsimp only
    rw [if_neg fun he => ha.1 he.symm]
    exact removeSearch_none h.2 (Nat.lt_of_succ_lt_succ hn) ha.2

/-- The search finds the first entry of the address, and the one before it. -/
theorem removeSearch_first (hf : s.address f = a) : ∀ {pre : List (Fin GEKKO_MAX_BP)} {n : Nat} {e : Fin GEKKO_MAX_BP},
      Listed (fun i => (s.bp_entries i).next) (s.bp_entries e).next (pre ++ f :: post) → pre.length < n → a ∉ pre.map s.address →
        removeSearch s a n e = some (some (pre.getLastD e, f))
  | [], n + 1, e, h, _, _ => by
    unfold removeSearch
    rw [h.1]
    exact if_pos hf
  | g :: pre, n + 1, e, h, hn, ha => by
    rw [List.map_cons, List.mem_cons, not_or] at ha
    unfold removeSearch
    rw [h.1]
    dsimp only
    rw [if_neg fun he => ha.1 he.symm, List.getLastD_cons]
    exact removeSearch_first hf h.2 (Nat.lt_of_succ_lt_succ hn) ha.2

theorem bpMem_remove {l r : List Nat} {b : Nat} (hb : b ≠ a) : bpMem orig (l ++ a :: r) b = bpMem orig (l ++ r) b := by
  unfold bpMem
  simp only [List.mem_append, List.mem_cons, hb, false_or]

theorem BpSaved.remove (hf : s.address f = a) :
    ∀ {pre : List (Fin GEKKO_MAX_BP)}, a ∉ pre.map s.address → BpSaved orig s (pre ++ f :: post) →
      BpSaved orig s (pre ++ post) ∧ (s.bp_entries f).instr = bpMem orig (post.map s.address) a
  | [], _, h => ⟨h.2, hf ▸ h.1⟩
  | i :: pre, hpre, h => by
    rw [List.map_cons, List.mem_cons, not_or] at hpre
    obtain ⟨hrest, hinstr⟩ := BpSaved.remove hf hpre.2 h.2
    refine ⟨⟨?_, hrest⟩, hinstr⟩
    have hi : (s.bp_entries i).instr = bpMem orig ((pre ++ f :: post).map s.address) (s.address i) := h.1
    rw [List.map_append, List.map_cons, hf, bpMem_remove fun he => hpre.1 he.symm, ← List.map_append] at hi
    exact hi

/-- What is left once an entry is off the list, its word written back and its address cleared. -/
theorem BpRep.removed {pre : List (Fin GEKKO_MAX_BP)} (h : BpRep orig s (pre ++ f :: post)) (hf : s.address f = a)
    (hpre : a ∉ pre.map s.address) (hlist : Listed (fun i => (s'.bp_entries i).next) s'.p_bpentries (pre ++ post))
    (hother : ∀ i, i ≠ f → s'.address i = s.address i ∧ (s'.bp_entries i).instr = (s.bp_entries i).instr) (hfree : s'.address f = 0)
    (hmem : s'.mem = Function.update s.mem a (s.bp_entries f).instr) :
    BpRep orig s' (pre ++ post) ∧ (pre ++ post).map s'.address = ((pre ++ f :: post).map s.address).erase a := by
  have hnotin : f ∉ pre ++ post := by
    have hnd := h.listed.nodup
    rw [List.nodup_middle, List.nodup_cons] at hnd
    exact hnd.1
  have hold : ∀ i ∈ pre ++ post, _ := fun i hi => hother i fun he => hnotin (he ▸ hi)
  have hmap : (pre ++ post).map s'.address = (pre ++ post).map s.address := List.map_congr_left fun i hi => (hold i hi).1
  obtain ⟨hsaved, hinstr⟩ := h.saved.remove hf hpre
  refine ⟨⟨hlist, fun i => ?_, ?_, hsaved.congr hold⟩, ?_⟩
  · by_cases hi : i = f
    · rw [hi]
      exact iff_of_false hnotin fun hne => hne hfree
    · rw [(hother i hi).1, ← h.active i]
      simp only [List.mem_append, List.mem_cons, hi, false_or]
  · rw [hmap, hmem]
    funext b
    by_cases hb : b = a
    · rw [hb, Function.update_self, hinstr]
      -- the breakpoints of the address that are left are behind the one that went
      unfold bpMem
      simp only [List.map_append, List.mem_append, hpre, false_or]
    · rw [Function.update_of_ne hb, h.mem, List.map_append, List.map_append, List.map_cons, hf, bpMem_remove hb]
  · rw [hmap, List.map_append, List.map_append, List.map_cons, hf, List.erase_append_right _ hpre, List.erase_cons_head]

theorem Bp.restore_next (s : Bp) (f i : Fin GEKKO_MAX_BP) : ((s.restore f).bp_entries i).next = (s.bp_entries i).next := by
  show (Function.update s.bp_entries f _ i).next = _
  by_cases hi : i = f
  · rw [hi, Function.update_self]
  · rw [Function.update_of_ne hi]

theorem Bp.restore_address (s : Bp) (f : Fin GEKKO_MAX_BP) : (s.restore f).address f = 0 := by
  show (Function.update s.bp_entries f _ f).address = 0
  rw [Function.update_self]

theorem Bp.restore_ne (s : Bp) (hi : i ≠ f) : (s.restore f).bp_entries i = s.bp_entries i :=
  Function.update_of_ne hi ..

theorem Bp.unlink_ne (s : Bp) {e : Fin GEKKO_MAX_BP} (f : Fin GEKKO_MAX_BP) (hi : i ≠ e) : (s.unlink e f).bp_entries i = s.bp_entries i :=
  Function.update_of_ne hi ..

theorem Bp.unlink_same (s : Bp) (e f i : Fin GEKKO_MAX_BP) : ((s.unlink e f).bp_entries i).address = (s.bp_entries i).address ∧
    ((s.unlink e f).bp_entries i).instr = (s.bp_entries i).instr := by
  by_cases hi : i = e
  · subst hi
    have hself : (s.unlink i f).bp_entries i = { s.bp_entries i with next := (s.bp_entries f).next } := Function.update_self ..
    rw [hself]
    exact ⟨rfl, rfl⟩
  · rw [s.unlink_ne f hi]
    exact ⟨rfl, rfl⟩

theorem BpRep.remove (h : BpRep orig s xs) (ha : a ∈ xs.map s.address) : ∃ s' xs', removeBp s a = some (s', 1) ∧ BpRep orig s' xs' ∧
    xs'.map s'.address = (xs.map s.address).erase a := by
  obtain ⟨pre, f, post, rfl, hf, hpre⟩ := exists_first_address ha
  have hlen : (pre ++ f :: post).length ≤ GEKKO_MAX_BP := by
    have := h.listed.nodup.length_le_card
    rwa [Fintype.card_fin] at this
  unfold removeBp
  cases pre with
  | nil =>
    obtain ⟨hhead, hrest⟩ := h.listed
    refine ⟨{ s with p_bpentries := (s.bp_entries f).next }.restore f, post, ?_, h.removed hf hpre ?_ (fun i hi => ?_)
      (Bp.restore_address ..) ?_⟩
    · rw [hhead]
      exact if_pos hf
    · exact hrest.congr fun i _ => Bp.restore_next ..
    · unfold Bp.address
      rw [Bp.restore_ne _ hi]
      exact ⟨rfl, rfl⟩
    · rw [← hf]
      rfl
  | cons e rest =>
    obtain ⟨hhead, hrest⟩ := h.listed
    have he : (s.bp_entries e).address ≠ a := fun he => hpre (by rw [← he]; exact List.mem_cons_self)
    have hshort : rest.length < GEKKO_MAX_BP := by
      rw [List.cons_append, List.length_cons, List.length_append] at hlen
      omega
    have hsearch := removeSearch_first hf hrest hshort fun hmem => hpre (List.mem_cons_of_mem _ hmem)
    -- the entry before the one that goes
    obtain ⟨before, hbefore⟩ := Chains.exists_concat_getLastD e rest
    generalize rest.getLastD e = g at hsearch hbefore
    rw [hbefore] at h hpre ⊢
    have hgf : f ≠ g := by
      rintro rfl
      exact hpre (by rw [← hf]; simp)
    refine ⟨(s.unlink g f).restore f, before ++ [g] ++ post, ?_, h.removed hf hpre ?_ (fun i hi => ?_) (Bp.restore_address ..) ?_⟩
    · rw [hhead]
      dsimp only
      rw [if_neg he, hsearch]
      rfl
    · have hnext : (fun i => (((s.unlink g f).restore f).bp_entries i).next) =
          Function.update (fun i => (s.bp_entries i).next) g (s.bp_entries f).next := by
        funext i
        rw [Bp.restore_next]
        by_cases hi : i = g
        · subst hi
          rw [Function.update_self]
          show (Function.update s.bp_entries i _ i).next = _
          rw [Function.update_self]
        · rw [Bp.unlink_ne _ _ hi, Function.update_of_ne hi]
      have hlisted := h.listed
      rw [List.append_assoc, List.singleton_append] at hlisted ⊢
      rw [hnext]
      exact hlisted.unlink
    · unfold Bp.address
      rw [Bp.restore_ne _ hi]
      exact s.unlink_same g f i
    · show Function.update s.mem ((s.unlink g f).bp_entries f).address ((s.unlink g f).bp_entries f).instr = _
      rw [s.unlink_ne f hgf, ← hf]
      rfl

theorem BpRep.remove_none (h : BpRep orig s xs) (ha : a ∉ xs.map s.address) : removeBp s a = some (s, 0) := by
  have hlen : xs.length ≤ GEKKO_MAX_BP := by
    have := h.listed.nodup.length_le_card
    rwa [Fintype.card_fin] at this
  unfold removeBp
  cases xs with
  | nil =>
    have hhead : s.p_bpentries = none := h.listed
    rw [hhead]
  | cons e rest =>
    obtain ⟨hhead, hrest⟩ := h.listed
    rw [List.map_cons, List.mem_cons, not_or] at ha
    have he : (s.bp_entries e).address ≠ a := fun he => ha.1 he.symm
    rw [hhead]
    dsimp only
    rw [if_neg he, removeSearch_none hrest (Nat.lt_of_succ_le hlen) ha.2]
    rfl

/-! ## Runs -/

theorem BpRep.step (h : BpRep orig s xs) {e : BpEvent} (he : bpSystem.enabled s e) : ∃ xs', BpRep orig (bpSystem.next s e) xs' ∧
    xs'.map (bpSystem.next s e).address = bpActive (xs.map s.address) e := by
  cases e with
  | insert a =>
    show ∃ xs', BpRep orig (insertBp s a).1 xs' ∧ xs'.map (insertBp s a).1.address =
      if (xs.map s.address).length = GEKKO_MAX_BP then xs.map s.address else a :: xs.map s.address
    rw [List.length_map]
    by_cases hfull : ∀ i, s.address i ≠ 0
    · rw [if_pos (h.full_iff.2 hfull), insertBp_full hfull]
      exact ⟨xs, h, rfl⟩
    · obtain ⟨p, hp, hinsert⟩ := insertBp_free (a := a) hfull
      rw [if_neg fun hlen => hfull (h.full_iff.1 hlen), hinsert]
      exact ⟨p :: xs, h.push he.1 hp⟩
  | remove a =>
    show ∃ xs', BpRep orig ((removeBp s a).getD (s, 0)).1 xs' ∧ xs'.map ((removeBp s a).getD (s, 0)).1.address = (xs.map s.address).erase a
    by_cases ha : a ∈ xs.map s.address
    · obtain ⟨s', xs', hremove, hrep⟩ := h.remove ha
      rw [hremove]
      exact ⟨xs', hrep⟩
    · rw [h.remove_none ha, List.erase_of_not_mem ha]
      exact ⟨xs, h, rfl⟩

theorem BpRep.run : ∀ {es : List BpEvent} {s : Bp} {xs : List (Fin GEKKO_MAX_BP)}, BpRep orig s xs → bpSystem.Legal s es →
    ∃ xs', BpRep orig (bpSystem.run s es) xs' ∧ xs'.map (bpSystem.run s es).address = es.foldl bpActive (xs.map s.address)
  | [], s, xs, h, _ => ⟨xs, h, rfl⟩
  | e :: es, s, xs, h, hl => by
    obtain ⟨xs₁, h₁, hmap⟩ := h.step hl.1
    obtain ⟨xs₂, h₂, hmap₂⟩ := h₁.run hl.2
    refine ⟨xs₂, h₂, ?_⟩
    rw [hmap] at hmap₂
    exact hmap₂

theorem BpRep.right (h : BpRep orig s xs) : BpRight orig s (xs.map s.address) where
  list := ⟨xs, h.listed, h.listed.nodup, h.active, rfl⟩
  mem a := congrFun h.mem a
  insert a := by
    rw [List.length_map, h.full_iff]
    by_cases hfull : ∀ i, s.address i ≠ 0
    · rw [insertBp_full hfull]
      exact ⟨iff_of_true rfl hfull, fun _ => rfl⟩
    · obtain ⟨p, -, hinsert⟩ := insertBp_free (a := a) hfull
      rw [hinsert]
      exact ⟨iff_of_false Nat.one_ne_zero hfull, fun h0 => absurd h0 Nat.one_ne_zero⟩
  remove a := by
    by_cases ha : a ∈ xs.map s.address
    · obtain ⟨s', -, hremove, -⟩ := h.remove ha
      exact ⟨_, hremove, iff_of_false Nat.one_ne_zero fun hno => hno ha, fun h0 => absurd h0 Nat.one_ne_zero⟩
    · exact ⟨_, h.remove_none ha, iff_of_true rfl ha, fun _ => rfl⟩
  restored hnil := by
    rw [h.mem, hnil]
    funext a
    exact if_neg List.not_mem_nil

end Rep

/-- **Breakpoints** in every run of the debugger's calls: the list has the entries in use, the program has traps at their addresses and is
otherwise itself, and a call fails, changing nothing, exactly if there is no entry for it. -/
theorem bp_right (mem : Nat → Nat) {es : List BpEvent} (h : bpSystem.Legal (bpInit mem) es) :
    BpRight mem (bpSystem.run (bpInit mem) es) (es.foldl bpActive []) := by
  obtain ⟨xs, hrep, hmap⟩ := (BpRep.init mem).run h
  have hright := hrep.right
  rw [hmap] at hright
  exact hright

/-- Two breakpoints at one address, of which one is removed. -/
theorem bp_right_two : BpRight (fun a => a) (bpSystem.run (bpInit fun a => a) [.insert 8, .insert 8, .remove 8]) [8] :=
  bp_right (fun a => a) (by decide)

end Libogc
