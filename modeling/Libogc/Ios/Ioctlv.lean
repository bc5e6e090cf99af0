import Libogc.Ios.CreateHeap
import Libogc.Ios.IpcRuns
import Libogc.Lib.Places
/-!
# Ioctlv — vectored requests of `ipc.c`

What a vectored request does to its caller's vector, and to the memory it takes for itself.  The addresses in the vector are made physical
ones in place, by the caller's loops, and cached ones again by the handler of the reply.  The vector's own address goes there and back by
the same macros.

Allocations are read from the list of what the allocators answer, call after call; each event of theirs goes on the record.
-/
namespace Libogc

open Ledger

/-! ## Memory -/

inductive IosArena where
  | wkspace
  | ipc (hid : Int)
  deriving DecidableEq, Repr

/-- The calls made, and the record. -/
structure IosMem where
  tries : Nat
  log : List (Event (IosArena × Nat))

def IosMem.allocate (p : Places) (m : IosMem) (arena : IosArena) : IosMem × Option Nat :=
  match p.place m.tries with
  | some a => ({ tries := m.tries + 1, log := m.log ++ [.alloc (arena, a)] }, some a)
  | none => ({ m with tries := m.tries + 1 }, none)

def IosMem.free (m : IosMem) (arena : IosArena) (ptr : Nat) : IosMem := { m with log := m.log ++ [.free (arena, ptr)] }

def lwpWkspaceAllocate (p : Places) (m : IosMem) : IosMem × Option Nat := m.allocate p .wkspace

def lwpWkspaceFree (m : IosMem) (ptr : Nat) : IosMem := m.free .wkspace ptr

def iosAlloc (p : Places) (m : IosMem) (hid size : Int) : IosMem × Option Nat :=
  if hid < 0 ∨ hid ≥ ipcNumheaps ∨ size ≤ 0 then (m, none) else m.allocate p (.ipc hid)

def iosFree (m : IosMem) (hid : Int) (ptr : Nat) : IosMem :=
  if hid < 0 ∨ hid ≥ ipcNumheaps ∨ ptr = 0 then m else m.free (.ipc hid) ptr

def ipcRequestsize : Int := 64

/-! ## Addresses -/

def sysPhysicalMask : Nat := 0x3FFFFFFF

def memVirtualToPhysical (x : Nat) : Nat := u32 x &&& sysPhysicalMask

def memPhysicalToK0 (x : Nat) : Nat := u32 (u32 x + sysBaseCached)

structure Ioctlv where
  data : Nat
  len : Nat
  deriving DecidableEq, Repr

/-- An entry as it is sent. -/
def Ioctlv.toPhysical (v : Ioctlv) : Ioctlv := if v.data ≠ 0 ∧ v.len > 0 then { v with data := memVirtualToPhysical v.data } else v

/-- An entry as `__ipc_replyhandler` leaves it. -/
def Ioctlv.toK0 (v : Ioctlv) : Ioctlv := if v.data ≠ 0 then { v with data := memPhysicalToK0 v.data } else v

/-- A loop over the `n` entries from `base + i` on. -/
def ioctlvLoop (f : Ioctlv → Ioctlv) (base : Nat) : Nat → Nat → (Nat → Ioctlv) → Nat → Ioctlv
  | 0, _, argv => argv
  | n + 1, i, argv => ioctlvLoop f base n (i + 1) (Function.update argv (base + i) (f (argv (base + i))))

/-- A vector and its counts, which are positive words of 32 bits. -/
structure IoctlvCall where
  cntIn : Nat
  cntIo : Nat
  argv : Nat → Ioctlv
  isIn : cntIn < 2 ^ 31
  isIo : cntIo < 2 ^ 31

/-- The caller's two loops. -/
def IoctlvCall.sent (c : IoctlvCall) : Nat → Ioctlv :=
  ioctlvLoop Ioctlv.toPhysical c.cntIn c.cntIo 0 (ioctlvLoop Ioctlv.toPhysical 0 c.cntIn 0 c.argv)

/-- The loop of the handler, which adds the counts as words. -/
def IoctlvCall.replied (c : IoctlvCall) (argv : Nat → Ioctlv) : Nat → Ioctlv :=
  ioctlvLoop Ioctlv.toK0 0 (u32 (c.cntIn + c.cntIo)) 0 argv

/-- The request, as `IOS_Ioctlv` and `IOS_IoctlvAsync` fill it. -/
def ioctlvReq (cb : Bool) : IpcReq := ⟨iosIoctlv, 0, cb, 0, false⟩

/-! ## The calls -/

/-- `IOS_Ioctlv`: the memory, the vector after it and the result, which is `reply` when the request was queued and IOS replied to it. -/
def iosIoctlvCall (p : Places) (m : IosMem) (ipcHid : Int) (s : IpcSys Nat) (c : IoctlvCall) (reply : Int) :
    IosMem × (Nat → Ioctlv) × Int :=
  match iosAlloc p m ipcHid ipcRequestsize with
  | (m, none) => (m, c.argv, ipcEnomem)
  | (m, some req) =>
    let got := ipcSyncRequest s req (ioctlvReq false)
    if got.2 = ipcOk then (iosFree m ipcHid req, c.replied c.sent, reply) else (iosFree m ipcHid req, c.sent, got.2)

/-- `IOS_IoctlvAsync`, up to the reply. -/
def iosIoctlvAsync (p : Places) (m : IosMem) (ipcHid : Int) (s : IpcSys Nat) (c : IoctlvCall) : IosMem × (Nat → Ioctlv) × Int :=
  match iosAlloc p m ipcHid ipcRequestsize with
  | (m, none) => (m, c.argv, ipcEnomem)
  | (m, some req) =>
    let got := ipcAsyncQueue s req (ioctlvReq true)
    if got.2 = ipcOk then (m, c.sent, got.2) else (iosFree m ipcHid req, c.sent, got.2)

/-! ## The loops -/

theorem ioctlvLoop_apply (f : Ioctlv → Ioctlv) (base n : Nat) : ∀ (i : Nat) (argv : Nat → Ioctlv) (k : Nat),
    ioctlvLoop f base n i argv k = if base + i ≤ k ∧ k < base + i + n then f (argv k) else argv k := by
  induction n with
  | zero =>
    intro i argv k
    rw [if_neg (by omega)]
    rfl
  | succ n ih =>
    intro i argv k
    rw [ioctlvLoop, ih]
    by_cases hk : k = base + i
    · rw [if_neg (by omega), if_pos (by omega), hk, Function.update_self]
    · rw [Function.update_of_ne hk]
      by_cases hin : base + (i + 1) ≤ k ∧ k < base + (i + 1) + n
      · rw [if_pos hin, if_pos (by omega)]
      · rw [if_neg hin, if_neg (by omega)]

theorem IoctlvCall.sent_apply (c : IoctlvCall) (k : Nat) :
    c.sent k = if k < c.cntIn + c.cntIo then (c.argv k).toPhysical else c.argv k := by
  unfold IoctlvCall.sent
  rw [ioctlvLoop_apply, ioctlvLoop_apply]
  by_cases hin : k < c.cntIn
  · rw [if_neg (by omega), if_pos (by omega), if_pos (by omega)]
  · rw [if_neg (show ¬ (0 + 0 ≤ k ∧ k < 0 + 0 + c.cntIn) by omega)]
    by_cases hio : k < c.cntIn + c.cntIo
    · rw [if_pos (by omega), if_pos hio]
    · rw [if_neg (by omega), if_neg hio]

theorem IoctlvCall.replied_apply (c : IoctlvCall) (argv : Nat → Ioctlv) (k : Nat) :
    c.replied argv k = if k < c.cntIn + c.cntIo then (argv k).toK0 else argv k := by
  have h1 := c.isIn
  have h2 := c.isIo
  unfold IoctlvCall.replied
  rw [ioctlvLoop_apply, u32_of_lt (by omega)]
  simp

/-! ## One entry -/

/-- Null, or an address of the cached segment. -/
def Ioctlv.cached (v : Ioctlv) : Prop := v.data = 0 ∨ (0x80000000 ≤ v.data ∧ v.data < 0xC0000000)

variable {v : Ioctlv}

theorem memVirtualToPhysical_cached {x : Nat} (h : 0x80000000 ≤ x) (h' : x < 0xC0000000) : memVirtualToPhysical x = x - 0x80000000 := by
  unfold memVirtualToPhysical sysPhysicalMask
  rw [u32_of_lt (by omega), show (0x3FFFFFFF : Nat) = 2 ^ 30 - 1 from rfl, Nat.and_two_pow_sub_one_eq_mod]
  omega

theorem Ioctlv.toPhysical_eq_iff (hc : v.cached) : v.toPhysical = v ↔ v.data = 0 ∨ v.len = 0 := by
  unfold Ioctlv.toPhysical
  rcases hc with h0 | ⟨hlo, hhi⟩
  · rw [if_neg fun h => h.1 h0]
    exact iff_of_true rfl (.inl h0)
  · have hne : v.data ≠ 0 := by omega
    by_cases hl : v.len = 0
    · rw [if_neg fun h => absurd h.2 (by omega)]
      exact iff_of_true rfl (.inr hl)
    · rw [if_pos ⟨hne, Nat.pos_of_ne_zero hl⟩]
      refine iff_of_false (fun he => ?_) (by omega)
      have : memVirtualToPhysical v.data = v.data := congrArg Ioctlv.data he
      rw [memVirtualToPhysical_cached hlo hhi] at this
      omega

theorem memPhysicalToK0_of_lt {x : Nat} (hx : x < 2 ^ 32) : memPhysicalToK0 x = (x + 0x80000000) % 2 ^ 32 := by
  unfold memPhysicalToK0
  rw [u32_of_lt hx]
  rfl

/-- **There and back**: an entry comes back as it was unless it is empty and not null, or at the physical address 0. -/
theorem Ioctlv.roundtrip_iff (hc : v.cached) : v.toPhysical.toK0 = v ↔ v.data = 0 ∨ (v.len ≠ 0 ∧ v.data ≠ 0x80000000) := by
  rcases hc with h0 | ⟨hlo, hhi⟩
  · have hp : v.toPhysical = v := if_neg fun h => h.1 h0
    rw [hp]
    exact iff_of_true (if_neg (not_not.2 h0)) (.inl h0)
  have hne : v.data ≠ 0 := by omega
  by_cases hl : v.len = 0
  · have hp : v.toPhysical = v := if_neg fun h => absurd h.2 (by omega)
    have hk : v.toK0 = { v with data := (v.data + 0x80000000) % 2 ^ 32 } := by
      rw [← memPhysicalToK0_of_lt (by omega)]
      exact if_pos hne
    rw [hp, hk]
    refine iff_of_false (fun he => ?_) (by omega)
    have hd := congrArg Ioctlv.data he
    dsimp only at hd
    omega
  · have hp : v.toPhysical = ⟨v.data - 0x80000000, v.len⟩ := by
      rw [← memVirtualToPhysical_cached hlo hhi]
      exact if_pos ⟨hne, Nat.pos_of_ne_zero hl⟩
    rw [hp]
    by_cases hb : v.data = 0x80000000
    · have hk : Ioctlv.toK0 ⟨v.data - 0x80000000, v.len⟩ = ⟨v.data - 0x80000000, v.len⟩ := by
        have h0 : v.data - 0x80000000 = 0 := by omega
        exact if_neg (not_not.2 h0)
      rw [hk]
      refine iff_of_false (fun he => ?_) (by omega)
      have hd := congrArg Ioctlv.data he
      dsimp only at hd
      omega
    · have h0 : v.data - 0x80000000 ≠ 0 := by omega
      have hback : memPhysicalToK0 (v.data - 0x80000000) = v.data := by
        rw [memPhysicalToK0_of_lt (by omega)]
        omega
      have hk : Ioctlv.toK0 ⟨v.data - 0x80000000, v.len⟩ = ⟨memPhysicalToK0 (v.data - 0x80000000), v.len⟩ := if_pos h0
      rw [hk, hback]
      refine iff_of_true rfl (.inr ⟨hl, hb⟩)

/-! ## The vector after the call -/

theorem ipcSyncRequest_result (s : IpcSys Nat) (r : Nat) (q : IpcReq) :
    (ipcSyncRequest s r q).2 = if 16 ≤ s.cnt then ipcEqueuefull else ipcOk := by
  have hcnt : (s.setReq r fun _ => q).cnt = s.cnt := rfl
  unfold ipcSyncRequest ipcQueueRequest
  rw [hcnt]
  by_cases hf : 16 ≤ s.cnt
  · rw [if_pos hf, if_pos hf]
    rfl
  · rw [if_neg hf, if_neg hf]
    rfl

/-- A result of `IOS_Ioctlv` is that of the allocation, of the ring, or of IOS. -/
theorem iosIoctlvCall_argv (p : Places) (m : IosMem) (ipcHid : Int) (s : IpcSys Nat) (c : IoctlvCall) (reply : Int) :
    (iosIoctlvCall p m ipcHid s c reply).2.1 =
      if (iosAlloc p m ipcHid ipcRequestsize).2 = none then c.argv
      else if 16 ≤ s.cnt then c.sent else c.replied c.sent := by
  unfold iosIoctlvCall
  cases hreq : iosAlloc p m ipcHid ipcRequestsize with
  | mk m' req =>
    cases req with
    | none => rfl
    | some req =>
      dsimp only
      rw [if_neg (Option.some_ne_none req), ipcSyncRequest_result]
      by_cases hf : 16 ≤ s.cnt
      · rw [if_pos hf, if_pos hf, if_neg ipcEqueuefull_ne]
      · rw [if_neg hf, if_neg hf, if_pos rfl]

/-- **The vector is given back** after `IOS_Ioctlv`, whatever the result: always when the request was not allocated; after a full ring, when
no entry had anything to send; after a reply, when no entry but a null one was empty, or at the lowest cached address. -/
theorem ioctlv_vector (p : Places) (m : IosMem) (ipcHid : Int) (s : IpcSys Nat) (c : IoctlvCall) (reply : Int)
    (hc : ∀ i < c.cntIn + c.cntIo, (c.argv i).cached) :
    (∀ i, (iosIoctlvCall p m ipcHid s c reply).2.1 i = c.argv i) ↔
      (iosAlloc p m ipcHid ipcRequestsize).2 = none ∨
        (16 ≤ s.cnt ∧ ∀ i < c.cntIn + c.cntIo, (c.argv i).data = 0 ∨ (c.argv i).len = 0) ∨
        (s.cnt < 16 ∧ ∀ i < c.cntIn + c.cntIo, (c.argv i).data = 0 ∨ ((c.argv i).len ≠ 0 ∧ (c.argv i).data ≠ 0x80000000)) := by
  have hentry : ∀ (f : Ioctlv → Ioctlv), (∀ i, (if i < c.cntIn + c.cntIo then f (c.argv i) else c.argv i) = c.argv i) ↔
      ∀ i < c.cntIn + c.cntIo, f (c.argv i) = c.argv i := by
    intro f
    refine forall_congr' fun i => ?_
    by_cases hi : i < c.cntIn + c.cntIo
    · rw [if_pos hi]
      exact ⟨fun h _ => h, fun h => h hi⟩
    · rw [if_neg hi]
      exact iff_of_true rfl fun h => absurd h hi
  rw [iosIoctlvCall_argv]
  by_cases ha : (iosAlloc p m ipcHid ipcRequestsize).2 = none
  · rw [if_pos ha]
    exact iff_of_true (fun _ => rfl) (.inl ha)
  rw [if_neg ha]
  by_cases hf : 16 ≤ s.cnt
  · have hsent : (∀ i, c.sent i = c.argv i) ↔ ∀ i < c.cntIn + c.cntIo, (c.argv i).toPhysical = c.argv i := by
      rw [← hentry]
      exact forall_congr' fun i => by rw [c.sent_apply]
    rw [if_pos hf, hsent]
    simp only [ha, hf, false_or, true_and, Nat.not_lt.2 hf, false_and, or_false]
    exact forall₂_congr fun i hi => Ioctlv.toPhysical_eq_iff (hc i hi)
  · have hback : ∀ i, c.replied c.sent i = if i < c.cntIn + c.cntIo then (c.argv i).toPhysical.toK0 else c.argv i := by
      intro i
      rw [c.replied_apply, c.sent_apply]
      by_cases hi : i < c.cntIn + c.cntIo
      · simp only [if_pos hi]
      · simp only [if_neg hi]
    have hreplied : (∀ i, c.replied c.sent i = c.argv i) ↔ ∀ i < c.cntIn + c.cntIo, (c.argv i).toPhysical.toK0 = c.argv i := by
      rw [← hentry fun v => v.toPhysical.toK0]
      exact forall_congr' fun i => by rw [hback]
    rw [if_neg hf, hreplied]
    simp only [ha, hf, false_or, false_and, Nat.lt_of_not_le hf, true_and]
    exact forall₂_congr fun i hi => Ioctlv.roundtrip_iff (hc i hi)

/-- Allocators that answer with the addresses from 1 on. -/
def placesAll : Places where
  place n := some (n + 1)
  pos n a h := by cases h; omega
  inj m n a h h' := by cases h; cases h'; rfl

/-- A vector of a null entry and one of 8 bytes. -/
def ioctlvPair : IoctlvCall := ⟨1, 1, fun i => if i = 0 then ⟨0, 0⟩ else ⟨0x80001000, 8⟩, by decide, by decide⟩

theorem ioctlv_vector_pair :
    (∀ i, (iosIoctlvCall placesAll ⟨0, []⟩ 0 (ipcStart fun _ => ioctlvReq false) ioctlvPair (-1)).2.1 i = ioctlvPair.argv i) ↔
      (iosAlloc placesAll ⟨0, []⟩ 0 ipcRequestsize).2 = none ∨
        (16 ≤ (ipcStart fun _ : Nat => ioctlvReq false).cnt ∧
          ∀ i < ioctlvPair.cntIn + ioctlvPair.cntIo, (ioctlvPair.argv i).data = 0 ∨ (ioctlvPair.argv i).len = 0) ∨
        ((ipcStart fun _ : Nat => ioctlvReq false).cnt < 16 ∧ ∀ i < ioctlvPair.cntIn + ioctlvPair.cntIo,
          (ioctlvPair.argv i).data = 0 ∨ ((ioctlvPair.argv i).len ≠ 0 ∧ (ioctlvPair.argv i).data ≠ 0x80000000)) :=
  ioctlv_vector placesAll ⟨0, []⟩ 0 (ipcStart fun _ => ioctlvReq false) ioctlvPair (-1) fun i _ => by
    by_cases hi : i = 0
    · subst hi
      exact .inl rfl
    · have he : ioctlvPair.argv i = ⟨0x80001000, 8⟩ := if_neg hi
      rw [he]
      exact .inr ⟨by decide, by decide⟩

/-- An entry with an address and no length comes back as a physical address. -/
theorem ioctlv_vector_empty :
    ¬ ∀ i, (iosIoctlvCall placesAll ⟨0, []⟩ 0 (ipcStart fun _ => ioctlvReq false)
        ⟨1, 0, fun _ => ⟨0x80001000, 0⟩, by decide, by decide⟩ 0).2.1 i = ⟨0x80001000, 0⟩ := by
  intro h
  exact absurd (h 0) (by decide +kernel)

end Libogc
