import Libogc.Lib.Ledger
/-!
# Places — an allocator's answers, and who owns the blocks

What an allocator answers, call after call, is a list that is given from outside.  `Owned` says what a call of a program holds at a point:
the record since it began has just these blocks live, and each of them was an answer.  A block's key may say more of it than its address.
-/
namespace Libogc

open Ledger

/-- What the allocators answer to the calls made of them, in order: an address, or nothing.  Blocks that live together are at different
addresses. -/
structure Places where
  place : Nat → Option Nat
  pos : ∀ n a, place n = some a → 0 < a
  inj : ∀ m n a, place m = some a → place n = some a → m = n

/-- The allocations of some buffers succeed, when `t` were tried before. -/
def Places.Serves (p : Places) (t n : Nat) : Prop := ∀ k < n, (p.place (t + k)).isSome

theorem Places.Serves.add {p : Places} {t n n' : Nat} : p.Serves t (n + n') ↔ p.Serves t n ∧ p.Serves (t + n) n' := by
  constructor
  · intro h
    refine ⟨fun k hk => h k (by omega), fun k hk => ?_⟩
    rw [Nat.add_assoc]
    exact h (n + k) (by omega)
  · rintro ⟨h1, h2⟩ k hk
    by_cases hlt : k < n
    · exact h1 k hlt
    · have := h2 (k - n) (by omega)
      rwa [Nat.add_assoc, Nat.add_sub_cancel' (Nat.le_of_not_lt hlt)] at this

theorem Places.serves_succ {p : Places} {t n : Nat} : p.Serves t (n + 1) ↔ (p.place t).isSome ∧ p.Serves (t + 1) n := by
  rw [Nat.add_comm, Places.Serves.add]
  refine and_congr_left fun _ => ⟨fun h => h 0 (by decide), fun h k hk => ?_⟩
  obtain rfl : k = 0 := by omega
  exact h

section Owned
variable {K : Type} [DecidableEq K] {addr : K → Nat} {p : Places} {log₀ log : List (Event K)} {tries : Nat} {ks : List K} {k : K}

/-- **The blocks of a call** that began with `log₀` on the record, when `tries` allocations were tried. -/
structure Owned (addr : K → Nat) (p : Places) (log₀ : List (Event K)) (tries : Nat) (log : List (Event K)) (ks : List K) : Prop where
  known : ∀ b ∈ ks, ∃ n < tries, p.place n = some (addr b)
  live : ∃ es, log = log₀ ++ es ∧ Holds es ks

theorem Owned.start (addr : K → Nat) (p : Places) (tries : Nat) (log : List (Event K)) : Owned addr p log tries log [] where
  known _ hb := absurd hb List.not_mem_nil
  live := ⟨[], (List.append_nil _).symm, Holds.nil⟩

theorem Owned.perm (h : Owned addr p log₀ tries log ks) {ks' : List K} (hp : ks'.Perm ks) : Owned addr p log₀ tries log ks' where
  known b hb := h.known b (hp.subset hb)
  live := h.live.imp fun _ hl => ⟨hl.1, hl.2.perm hp⟩

theorem Owned.settled_iff (h : Owned addr p log₀ tries log ks) : (∃ es, log = log₀ ++ es ∧ Settled es) ↔ ks = [] := by
  obtain ⟨es, hlog, hh⟩ := h.live
  rw [← hh.settled_iff]
  constructor
  · rintro ⟨es', hlog', hs⟩
    obtain rfl : es = es' := List.append_cancel_left (hlog.symm.trans hlog')
    exact hs
  · exact fun hs => ⟨es, hlog, hs⟩

theorem Owned.pos (h : Owned addr p log₀ tries log ks) (hk : k ∈ ks) : 0 < addr k := by
  obtain ⟨n, -, hn⟩ := h.known k hk
  exact p.pos n _ hn

theorem Owned.failed (h : Owned addr p log₀ tries log ks) : Owned addr p log₀ (tries + 1) log ks where
  known b hb := (h.known b hb).imp fun _ hn => ⟨Nat.lt_succ_of_lt hn.1, hn.2⟩
  live := h.live

theorem Owned.alloc (h : Owned addr p log₀ tries log ks) (hk : p.place tries = some (addr k)) :
    Owned addr p log₀ (tries + 1) (log ++ [.alloc k]) (k :: ks) := by
  have hfresh : k ∉ ks := by
    intro hm
    obtain ⟨n, hn, hp⟩ := h.known k hm
    exact absurd (p.inj n tries _ hp hk) (Nat.ne_of_lt hn)
  obtain ⟨es, hlog, hh⟩ := h.live
  refine ⟨fun b hb => ?_, es ++ [.alloc k], ?_, hh.alloc hfresh⟩
  · rcases List.mem_cons.1 hb with rfl | hb
    · exact ⟨tries, Nat.lt_succ_self tries, hk⟩
    · exact h.failed.known b hb
  · rw [hlog, List.append_assoc]

theorem Owned.free (h : Owned addr p log₀ tries log (k :: ks)) : Owned addr p log₀ tries (log ++ [.free k]) ks := by
  obtain ⟨es, hlog, hh⟩ := h.live
  refine ⟨fun b hb => h.known b (List.mem_cons_of_mem _ hb), es ++ [.free k], ?_, hh.free⟩
  rw [hlog, List.append_assoc]

/-- A free of something: everything is released by it just when that block alone was left. -/
theorem Owned.free_settled_iff (h : Owned addr p log₀ tries log ks) : (∃ es, log ++ [.free k] = log₀ ++ es ∧ Settled es) ↔ ks = [k] := by
  obtain ⟨es, hlog, live, hr, hp⟩ := h.live
  have hreplay : replay [] (es ++ [.free k]) = if k ∈ live then some (live.erase k) else none := by
    rw [replay_append, hr]
    rfl
  constructor
  · rintro ⟨es', hlog', hs⟩
    rw [hlog, List.append_assoc] at hlog'
    obtain rfl := List.append_cancel_left hlog'
    have hs := hreplay.symm.trans hs
    split at hs
    · rename_i hk
      have hnil : live.erase k = [] := Option.some.inj hs
      have hperm := hp.trans (List.perm_cons_erase hk)
      rw [hnil] at hperm
      exact List.perm_singleton.1 hperm
    · cases hs
  · rintro rfl
    exact h.free.settled_iff.2 rfl

end Owned

/-! ## The heap of a C program -/

/-- The calls made of `malloc`, and the record. -/
structure CHeap where
  tries : Nat
  log : List (Event Nat)

/-- `malloc`; the null pointer is 0. -/
def CHeap.malloc (p : Places) (m : CHeap) : CHeap × Nat :=
  match p.place m.tries with
  | some a => ({ tries := m.tries + 1, log := m.log ++ [.alloc a] }, a)
  | none => ({ m with tries := m.tries + 1 }, 0)

/-- `free` -/
def CHeap.free (m : CHeap) (ptr : Nat) : CHeap := if ptr = 0 then m else { m with log := m.log ++ [.free ptr] }

section CHeap
variable {p : Places} {log₀ : List (Event Nat)} {m : CHeap} {ks : List Nat} {a : Nat}

def CHeap.Owns (p : Places) (log₀ : List (Event Nat)) (m : CHeap) (ks : List Nat) : Prop := Owned id p log₀ m.tries m.log ks

theorem CHeap.Owns.malloc_none (h : CHeap.Owns p log₀ m ks) (hp : p.place m.tries = none) :
    (m.malloc p).2 = 0 ∧ (m.malloc p).1.tries = m.tries + 1 ∧ CHeap.Owns p log₀ (m.malloc p).1 ks := by
  unfold CHeap.malloc
  rw [hp]
  exact ⟨rfl, rfl, Owned.failed h⟩

theorem CHeap.Owns.malloc_some (h : CHeap.Owns p log₀ m ks) (hp : p.place m.tries = some a) :
    (m.malloc p).2 = a ∧ (m.malloc p).1.tries = m.tries + 1 ∧ CHeap.Owns p log₀ (m.malloc p).1 (a :: ks) := by
  unfold CHeap.malloc
  rw [hp]
  have hk : p.place m.tries = some (id a) := hp
  exact ⟨rfl, rfl, Owned.alloc h hk⟩

theorem CHeap.free_null (m : CHeap) : m.free 0 = m := if_pos rfl

theorem CHeap.free_log (ha : a ≠ 0) : (m.free a).log = m.log ++ [.free a] := by
  unfold CHeap.free
  rw [if_neg ha]

theorem CHeap.Owns.free (h : CHeap.Owns p log₀ m (a :: ks)) : CHeap.Owns p log₀ (m.free a) ks := by
  have hne : a ≠ 0 := Nat.pos_iff_ne_zero.1 (Owned.pos h List.mem_cons_self)
  unfold CHeap.free
  rw [if_neg hne]
  exact Owned.free h

theorem CHeap.free_tries (m : CHeap) (ptr : Nat) : (m.free ptr).tries = m.tries := by
  unfold CHeap.free
  split <;> rfl

/-- The block that a pointer is to, when it is not null. -/
def CHeap.block (ptr : Nat) : List Nat := if ptr = 0 then [] else [ptr]

theorem CHeap.Owns.malloc (h : CHeap.Owns p log₀ m ks) :
    CHeap.Owns p log₀ (m.malloc p).1 (CHeap.block (m.malloc p).2 ++ ks) ∧ (m.malloc p).1.tries = m.tries + 1 ∧
      ((m.malloc p).2 ≠ 0 ↔ (p.place m.tries).isSome) := by
  cases hp : p.place m.tries with
  | none =>
    obtain ⟨hzero, htries, howns⟩ := h.malloc_none hp
    rw [hzero]
    exact ⟨howns, htries, by simp⟩
  | some a =>
    obtain ⟨hat, htries, howns⟩ := h.malloc_some hp
    have hne : a ≠ 0 := Nat.pos_iff_ne_zero.1 (p.pos _ _ hp)
    rw [hat]
    refine ⟨?_, htries, by simp [hne]⟩
    unfold CHeap.block
    rw [if_neg hne]
    exact howns

theorem CHeap.Owns.free_block (h : CHeap.Owns p log₀ m (CHeap.block a ++ ks)) : CHeap.Owns p log₀ (m.free a) ks := by
  unfold CHeap.block at h
  by_cases ha : a = 0
  · rw [if_pos ha] at h
    rw [ha, CHeap.free_null]
    exact h
  · rw [if_neg ha] at h
    exact h.free

/-- A block that is allocated, and was not freed since. -/
def CHeap.Live (m : CHeap) (a : Nat) : Prop := a ∈ (replay [] m.log).getD []

instance CHeap.decLive (m : CHeap) (a : Nat) : Decidable (m.Live a) := inferInstanceAs (Decidable (_ ∈ _))

theorem CHeap.Owns.replays (h : CHeap.Owns p [] m ks) : ∃ live, replay [] m.log = some live ∧ ks.Perm live := by
  obtain ⟨es, hlog, hh⟩ := h.live
  rw [hlog]
  exact hh

theorem CHeap.Owns.live_iff (h : CHeap.Owns p [] m ks) : m.Live a ↔ a ∈ ks := by
  obtain ⟨live, hreplay, hperm⟩ := h.replays
  unfold CHeap.Live
  rw [hreplay]
  exact hperm.mem_iff.symm

theorem CHeap.Owns.ne_zero (h : CHeap.Owns p log₀ m ks) (ha : a ∈ ks) : a ≠ 0 := Nat.pos_iff_ne_zero.1 (Owned.pos h ha)

end CHeap

end Libogc
