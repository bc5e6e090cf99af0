import Libogc.Ios.Ioctlv
/-!
# Blocks — who holds the blocks of a call

A call of the library takes blocks of IOS's heaps, and hands some of them on with its request.  `Owns` says what it holds at a point: the
record since it began has just these blocks live.
-/
namespace Libogc

open Ledger

section Blocks
variable {p : Places} {log₀ : List (Event (IosArena × Nat))} {kept ks : List (IosArena × Nat)} {m : IosMem} {hid ipcHid : Int}

/-! ## Allocations -/

variable {m : IosMem} {a n : Nat} {live : List (IosArena × Nat)}

variable {arena : IosArena} {size : Int} {k : IosArena × Nat}

theorem allocate_some (h : p.place m.tries = some a) :
    m.allocate p arena = ({ tries := m.tries + 1, log := m.log ++ [.alloc (arena, a)] }, some a) := by
  unfold IosMem.allocate
  rw [h]

theorem allocate_none (h : p.place m.tries = none) : m.allocate p arena = ({ m with tries := m.tries + 1 }, none) := by
  unfold IosMem.allocate
  rw [h]

theorem iosAlloc_valid {hid : Int} (hhid : 0 ≤ hid ∧ hid < ipcNumheaps) (hs : 0 < size) : iosAlloc p m hid size = m.allocate p (.ipc hid) :=
  if_neg (by omega)

theorem iosFree_valid {hid : Int} {ptr : Nat} (hhid : 0 ≤ hid ∧ hid < ipcNumheaps) (hp : 0 < ptr) :
    iosFree m hid ptr = m.free (.ipc hid) ptr :=
  if_neg (by omega)

/-- Only the calls before count. -/
def Places.Known (p : Places) (n : Nat) (live : List (IosArena × Nat)) : Prop := ∀ b ∈ live, ∃ k < n, p.place k = some b.2

theorem Places.Known.mono {n' : Nat} (h : p.Known n live) (hn : n ≤ n') : p.Known n' live :=
  fun b hb => (h b hb).imp fun _ hk => ⟨Nat.lt_of_lt_of_le hk.1 hn, hk.2⟩

theorem Places.Known.fresh (h : p.Known n live) (ha : p.place n = some a) (arena : IosArena) : (arena, a) ∉ live := by
  intro hm
  obtain ⟨k, hk, hp⟩ := h _ hm
  have := p.inj k n a hp ha
  omega

theorem Places.Known.cons (h : p.Known n live) (ha : p.place n = some a) (arena : IosArena) : p.Known (n + 1) ((arena, a) :: live) := by
  intro b hb
  rcases List.mem_cons.1 hb with rfl | hb
  · exact ⟨n, Nat.lt_succ_self n, ha⟩
  · exact h.mono (Nat.le_succ n) b hb

/-! ## Requests -/

/-- Whether the request is allocated, when `t` allocations were tried before it. -/
def Places.Requests (p : Places) (ipcHid : Int) (t : Nat) : Prop := 0 ≤ ipcHid ∧ ipcHid < ipcNumheaps ∧ (p.place t).isSome

theorem iosAlloc_request_iff : (iosAlloc p m ipcHid ipcRequestsize).2.isSome ↔ p.Requests ipcHid m.tries := by
  unfold Places.Requests
  by_cases hhid : 0 ≤ ipcHid ∧ ipcHid < ipcNumheaps
  · rw [iosAlloc_valid hhid (by decide)]
    cases hp : p.place m.tries with
    | none =>
      rw [allocate_none hp]
      simp
    | some a =>
      rw [allocate_some hp]
      simp [hhid]
  · have hno : iosAlloc p m ipcHid ipcRequestsize = (m, none) := if_pos (by omega)
    rw [hno]
    exact iff_of_false (by simp) fun h => hhid ⟨h.1, h.2.1⟩

theorem ipcEqueuefull_neg : ipcEqueuefull < 0 := by decide

theorem ipcAsyncQueue_result (s : IpcSys Nat) (r : Nat) (q : IpcReq) :
    (ipcAsyncQueue s r q).2 = if 16 ≤ s.cnt then ipcEqueuefull else ipcOk := by
  have hcnt : (s.setReq r fun _ => q).cnt = s.cnt := rfl
  unfold ipcAsyncQueue ipcQueueRequest
  rw [hcnt]
  by_cases hf : 16 ≤ s.cnt
  · rw [if_pos hf, if_pos hf]
    rfl
  · rw [if_neg hf, if_neg hf]
    rfl

theorem iosIoctlvCall_mem (p : Places) (m : IosMem) (ipcHid : Int) (s : IpcSys Nat) (c : IoctlvCall) (reply : Int) :
    iosAlloc p m ipcHid ipcRequestsize = ((iosIoctlvCall p m ipcHid s c reply).1, none) ∨
      ∃ mr req, iosAlloc p m ipcHid ipcRequestsize = (mr, some req) ∧ (iosIoctlvCall p m ipcHid s c reply).1 = iosFree mr ipcHid req := by
  unfold iosIoctlvCall
  rcases iosAlloc p m ipcHid ipcRequestsize with ⟨mr, _ | req⟩
  · exact .inl rfl
  · refine .inr ⟨mr, req, rfl, ?_⟩
    dsimp only
    split_ifs <;> rfl

theorem iosIoctlvAsync_mem (p : Places) (m : IosMem) (ipcHid : Int) (s : IpcSys Nat) (c : IoctlvCall)
    (hno : ¬ ((iosAlloc p m ipcHid ipcRequestsize).2.isSome ∧ s.cnt < 16)) :
    ((iosAlloc p m ipcHid ipcRequestsize = ((iosIoctlvAsync p m ipcHid s c).1, none)) ∨
      ∃ mr req, iosAlloc p m ipcHid ipcRequestsize = (mr, some req) ∧ (iosIoctlvAsync p m ipcHid s c).1 = iosFree mr ipcHid req) ∧
    (iosIoctlvAsync p m ipcHid s c).2.2 < 0 := by
  unfold iosIoctlvAsync
  revert hno
  rcases iosAlloc p m ipcHid ipcRequestsize with ⟨mr, _ | req⟩
  · intro _
    exact ⟨.inl rfl, ipcEnomem_neg⟩
  · intro hno
    have hfull : 16 ≤ s.cnt := Nat.le_of_not_lt fun hlt => hno ⟨rfl, hlt⟩
    dsimp only
    rw [ipcAsyncQueue_result, if_pos hfull, if_neg ipcEqueuefull_ne]
    exact ⟨.inr ⟨mr, req, rfl, rfl⟩, ipcEqueuefull_neg⟩

/-- An error that leaves the record as it was, or with blocks that were freed at once. -/
theorem holds_retaken (hm : ∃ es, m.log = log₀ ++ es ∧ Holds es kept) (hk : k ∉ kept) :
    ∃ es, m.log ++ [.alloc k] ++ [.free k] = log₀ ++ es ∧ Holds es kept := by
  obtain ⟨es, hlog, hh⟩ := hm
  refine ⟨es ++ [.alloc k] ++ [.free k], ?_, (hh.alloc hk).free⟩
  rw [hlog, List.append_assoc, List.append_assoc, List.append_assoc]

theorem holds_last {log : List (Event (IosArena × Nat))} (h : ∃ es, log = log₀ ++ es ∧ Holds es [k]) :
    ∃ es, log ++ [.free k] = log₀ ++ es ∧ Settled es := by
  obtain ⟨es, hlog, hh⟩ := h
  refine ⟨es ++ [.free k], ?_, hh.free.settled_iff.2 rfl⟩
  rw [hlog, List.append_assoc]

/-! ## What a call holds -/

/-- **The blocks of a call** that began with `log₀` on the record. -/
def Owns (p : Places) (log₀ : List (Event (IosArena × Nat))) (m : IosMem) (ks : List (IosArena × Nat)) : Prop :=
  Owned Prod.snd p log₀ m.tries m.log ks

theorem Owns.start (p : Places) (m : IosMem) : Owns p m.log m [] := Owned.start Prod.snd p m.tries m.log

theorem iosAlloc_invalid (hhid : ¬ (0 ≤ hid ∧ hid < ipcNumheaps)) (size : Int) : iosAlloc p m hid size = (m, none) :=
  if_pos (by omega)

theorem Owns.alloc (h : Owns p log₀ m ks) (hhid : 0 ≤ hid ∧ hid < ipcNumheaps) (hs : 0 < size) :
    (p.place m.tries = none ∧ ∃ m', iosAlloc p m hid size = (m', none) ∧ Owns p log₀ m' ks) ∨
      ∃ a m', p.place m.tries = some a ∧ iosAlloc p m hid size = (m', some a) ∧ m'.tries = m.tries + 1 ∧ 0 < a ∧
        Owns p log₀ m' ((.ipc hid, a) :: ks) := by
  rw [iosAlloc_valid hhid hs]
  cases hp : p.place m.tries with
  | none => exact .inl ⟨rfl, _, allocate_none hp, Owned.failed h⟩
  | some a =>
    have hk : p.place m.tries = some (Prod.snd (IosArena.ipc hid, a)) := hp
    exact .inr ⟨a, _, rfl, allocate_some hp, rfl, p.pos _ _ hp, Owned.alloc h hk⟩

theorem Owns.free (h : Owns p log₀ m ((.ipc hid, a) :: ks)) (hhid : 0 ≤ hid ∧ hid < ipcNumheaps) : Owns p log₀ (iosFree m hid a) ks := by
  rw [iosFree_valid hhid (Owned.pos h List.mem_cons_self)]
  exact Owned.free h

theorem Owns.requested (h : Owns p log₀ m ks) {m' : IosMem}
    (hm : iosAlloc p m ipcHid ipcRequestsize = (m', none) ∨
      ∃ mr req, iosAlloc p m ipcHid ipcRequestsize = (mr, some req) ∧ m' = iosFree mr ipcHid req) : Owns p log₀ m' ks := by
  by_cases hhid : 0 ≤ ipcHid ∧ ipcHid < ipcNumheaps
  · rcases h.alloc hhid (show 0 < ipcRequestsize by decide) with ⟨-, m1, heq, h1⟩ | ⟨a, m1, -, heq, -, -, h1⟩
    · rcases hm with hm | ⟨mr, req, hm, -⟩
      · obtain ⟨rfl, -⟩ := Prod.mk.inj (heq.symm.trans hm)
        exact h1
      · cases heq.symm.trans hm
    · rcases hm with hm | ⟨mr, req, hm, rfl⟩
      · cases heq.symm.trans hm
      · obtain ⟨rfl, ha⟩ := Prod.mk.inj (heq.symm.trans hm)
        obtain rfl := Option.some.inj ha
        exact h1.free hhid
  · rcases hm with hm | ⟨mr, req, hm, -⟩
    · obtain ⟨rfl, -⟩ := Prod.mk.inj ((iosAlloc_invalid hhid _).symm.trans hm)
      exact h
    · cases (iosAlloc_invalid hhid _).symm.trans hm

end Blocks

end Libogc
