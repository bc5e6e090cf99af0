import Libogc.Lib.OnesSum
import Libogc.Lib.Words
/-!
# Chksum — the checksums of the network stack

The loops work on the octets of a chain of pbufs.  `inet_chksum_pseudo` turns its sum behind a pbuf with an odd number of octets;
`inet_chksum_pbuf` means to, but its masks are shifted before they are applied.
-/
namespace Libogc

open OnesSum

/-- `struct pbuf`, without its links -/
structure Pbuf where
  payload : List UInt8
  len_lt : payload.length < 2 ^ 16

/-- The octets of a chain. -/
def pbufOctets (p : List Pbuf) : List UInt8 := p.flatMap Pbuf.payload

def chksumLoop : List UInt8 → Nat → Nat
  | x :: y :: octets, acc => chksumLoop octets (u32 (acc + (x.toNat * 2 ^ 8 + y.toNat)))
  | [x], acc => u32 (acc + x.toNat * 2 ^ 8)
  | [], acc => acc

/-- `lwip_standard_chksum`: two rounds take the carries of 32 bits. -/
def lwipStandardChksum (octets : List UInt8) : Nat :=
  let acc := chksumLoop octets 0
  let acc := acc / 2 ^ 16 + acc % 2 ^ 16
  if acc / 2 ^ 16 ≠ 0 then acc / 2 ^ 16 + acc % 2 ^ 16 else acc

/-- `while (acc >> 16)` -/
def foldCarries (acc : Nat) : Nat := if acc / 2 ^ 16 = 0 then acc else foldCarries (acc % 2 ^ 16 + acc / 2 ^ 16)
termination_by acc
decreasing_by omega

def inetChksum (octets : List UInt8) : Nat := 65535 - foldCarries (lwipStandardChksum octets)

/-- `((acc & 0xff) << 8) | ((acc & 0xff00UL) >> 8)` -/
def swapOctets (acc : Nat) : Nat := acc % 2 ^ 8 * 2 ^ 8 + acc % 2 ^ 16 / 2 ^ 8

/-- `(acc & 0x00ffUL << 8) | (acc & 0xff00UL >> 8)`, as C reads it -/
def keepOctets (acc : Nat) : Nat := (acc &&& 0x00ff <<< 8) ||| (acc &&& 0xff00 >>> 8)

/-- The loop over a chain. -/
def chksumChain (swap : Nat → Nat) : List Pbuf → Nat → Bool → Nat × Bool
  | [], acc, swapped => (acc, swapped)
  | q :: p, acc, swapped =>
    let acc := foldCarries (u32 (acc + lwipStandardChksum q.payload))
    if q.payload.length % 2 ≠ 0 then chksumChain swap p (swap acc) (!swapped) else chksumChain swap p acc swapped

/-- What is summed beside the chain. -/
def pseudoSum (src dest : UInt32) (proto : UInt8) (proto_len : UInt16) : Nat :=
  src.toNat % 2 ^ 16 + src.toNat / 2 ^ 16 + dest.toNat % 2 ^ 16 + dest.toNat / 2 ^ 16 + proto.toNat + proto_len.toNat

def inetChksumPseudo (p : List Pbuf) (src dest : UInt32) (proto : UInt8) (proto_len : UInt16) : Nat :=
  let r := chksumChain swapOctets p 0 false
  let acc := if r.2 then swapOctets r.1 else r.1
  65535 - foldCarries (u32 (acc + pseudoSum src dest proto proto_len))

def inetChksumPbuf (p : List Pbuf) : Nat :=
  let r := chksumChain keepOctets p 0 false
  65535 - if r.2 then swapOctets r.1 else r.1

/-! ## The loops fold the sum of the words -/

theorem chksumLoop_eq : ∀ {octets : List UInt8} {acc : Nat}, acc + words true octets < 2 ^ 32 →
    chksumLoop octets acc = acc + words true octets
  | [], _, _ => rfl
  | [x], acc, h => by
    rw [chksumLoop]
    simp only [words, Nat.add_zero] at h ⊢
    rw [u32, Nat.mul_comm]
    exact Nat.mod_eq_of_lt h
  | x :: y :: octets, acc, h => by
    rw [chksumLoop]
    simp only [words] at h ⊢
    rw [u32, Nat.mod_eq_of_lt (by omega), chksumLoop_eq (by omega)]
    omega

theorem lwipStandardChksum_folds {octets : List UInt8} (h : octets.length < 2 ^ 16) :
    Folds (words true octets) (lwipStandardChksum octets) := by
  have hle := @words_le true octets
  unfold lwipStandardChksum
  dsimp only
  rw [chksumLoop_eq (by omega), Nat.zero_add]
  refine Folds.carry ?_
  split
  · exact Folds.carry (Folds.refl (by omega))
  · exact Folds.refl (by omega)

theorem foldCarries_folds (acc : Nat) : Folds acc (foldCarries acc) := by
  fun_induction foldCarries acc with
  | case1 acc h => exact Folds.refl (by omega)
  | case2 acc h ih =>
    refine Folds.carry ?_
    rw [Nat.add_comm (acc / 65536)]
    exact ih

theorem inetChksum_folds {octets : List UInt8} (h : octets.length < 2 ^ 16) :
    ∃ a, Folds (words true octets) a ∧ inetChksum octets = 65535 - a :=
  ⟨_, (lwipStandardChksum_folds h).trans (k := 0) (foldCarries_folds _), rfl⟩

theorem swapOctets_eq {acc : Nat} (h : acc < 65536) : swapOctets acc = acc % 256 * 256 + acc / 256 := by
  unfold swapOctets
  omega

/-- The masks turn nothing. -/
theorem keepOctets_eq {acc : Nat} (h : acc < 65536) : keepOctets acc = acc := by
  have hmask : (0x00ff <<< 8 ||| 0xff00 >>> 8 : Nat) = 2 ^ 16 - 1 := by decide
  rw [keepOctets, ← Nat.and_or_distrib_left, hmask, Nat.and_two_pow_sub_one_eq_mod, Nat.mod_eq_of_lt h]

/-- A pbuf more. -/
theorem chksumAdd_folds {n acc : Nat} (h : Folds n acc) (q : Pbuf) :
    Folds (n + words true q.payload) (foldCarries (u32 (acc + lwipStandardChksum q.payload))) := by
  have hq := lwipStandardChksum_folds q.len_lt
  rw [u32, Nat.mod_eq_of_lt (by have := h.1; have := hq.1; omega)]
  have hsum := (Folds.trans h (foldCarries_folds (acc + lwipStandardChksum q.payload)))
  rw [Nat.add_comm] at hsum ⊢
  exact hq.trans hsum

/-- **The sum goes on where the octets before it end**: at a low octet behind an odd number of them, for which the sum is turned. -/
theorem chksumChain_folds : ∀ {p : List Pbuf} {acc : Nat} {swapped : Bool} {xs : List UInt8}, swapped = !(xs.length % 2 == 0) →
    Folds (words (!swapped) xs) acc → let r := chksumChain swapOctets p acc swapped
      r.2 = !((xs ++ pbufOctets p).length % 2 == 0) ∧ Folds (words (!r.2) (xs ++ pbufOctets p)) r.1
  | [], _, _, xs, hs, h => by
    rw [show pbufOctets [] = [] from rfl, List.append_nil]
    exact ⟨hs, h⟩
  | q :: p, acc, swapped, xs, hs, h => by
    have hsum := chksumAdd_folds h q
    have happ : words (!swapped) (xs ++ q.payload) = words (!swapped) xs + words true q.payload := by
      rw [words_append, hs]
      cases xs.length % 2 == 0 <;> rfl
    rw [← happ] at hsum
    rw [show pbufOctets (q :: p) = q.payload ++ pbufOctets p from rfl, ← List.append_assoc, chksumChain]
    dsimp only
    split
    next hodd =>
      refine chksumChain_folds ?_ (by rw [swapOctets_eq hsum.1]; exact hsum.words_turn)
      rw [hs, List.length_append]
      rcases Nat.mod_two_eq_zero_or_one xs.length with hx | hx <;>
        simp [Nat.add_mod, hx, (Nat.mod_two_eq_zero_or_one _).resolve_left hodd]
    next heven =>
      refine chksumChain_folds ?_ hsum
      rw [hs, List.length_append, Nat.add_mod, not_not.1 heven, Nat.add_zero, Nat.mod_mod]

theorem inetChksumPseudo_folds (p : List Pbuf) (src dest : UInt32) (proto : UInt8) (proto_len : UInt16) :
    ∃ a, Folds (words true (pbufOctets p) + pseudoSum src dest proto proto_len) a ∧ inetChksumPseudo p src dest proto proto_len = 65535 - a := by
  refine ⟨_, ?_, rfl⟩
  obtain ⟨-, hr⟩ := @chksumChain_folds p 0 false [] rfl (Folds.refl (by decide))
  rw [List.nil_append] at hr
  have hflat : Folds (words true (pbufOctets p)) (if (chksumChain swapOctets p 0 false).2 then
      swapOctets (chksumChain swapOctets p 0 false).1 else (chksumChain swapOctets p 0 false).1) := by
    split
    next h =>
      rw [h] at hr
      rw [swapOctets_eq hr.1]
      exact hr.words_turn
    next h =>
      rw [Bool.eq_false_iff.2 h] at hr
      exact hr
  have hlt : pseudoSum src dest proto proto_len < 2 ^ 18 + 2 ^ 17 := by
    have := src.toNat_lt; have := dest.toNat_lt; have := proto.toNat_lt; have := proto_len.toNat_lt
    unfold pseudoSum
    omega
  refine hflat.trans ?_
  rw [u32, Nat.mod_eq_of_lt (by have := hflat.1; omega)]
  exact foldCarries_folds _

/-- Octets that the complement is put among come to 65535. -/
theorem words_sealed {pre post : List UInt8} {k a : Nat} (hpre : pre.length % 2 = 0) (h : Folds (words true (pre ++ 0 :: 0 :: post) + k) a) :
    Folds (words true (pre ++ UInt8.ofNat ((65535 - a) / 256) :: UInt8.ofNat ((65535 - a) % 256) :: post) + k) 65535 := by
  have hc := h.complement
  have hhi : ((65535 - a) / 256) % 256 = (65535 - a) / 256 := Nat.mod_eq_of_lt (by omega)
  rw [words_append, hpre] at hc ⊢
  simp only [words, beq_self_eq_true, UInt8.toNat_ofNat', UInt8.toNat_zero] at hc ⊢
  rw [hhi, Nat.mod_mod]
  have hsplit := Nat.div_add_mod (65535 - a) 256
  convert hc using 1
  omega

/-- **What is sent verifies**: with the checksum in its field, the octets come to 0 at the receiver, in whatever pbufs they are on either
side. -/
theorem inet_chksum_pseudo_sent {p q : List Pbuf} {pre post : List UInt8} (src dest : UInt32) (proto : UInt8) (proto_len : UInt16)
    (hpre : pre.length % 2 = 0) (hp : pbufOctets p = pre ++ 0 :: 0 :: post)
    (hq : pbufOctets q = let c := inetChksumPseudo p src dest proto proto_len
      pre ++ UInt8.ofNat (c / 256) :: UInt8.ofNat (c % 256) :: post) : inetChksumPseudo q src dest proto proto_len = 0 := by
  obtain ⟨a, ha, hc⟩ := inetChksumPseudo_folds p src dest proto proto_len
  obtain ⟨b, hb, hd⟩ := inetChksumPseudo_folds q src dest proto proto_len
  rw [hq, hc] at hb
  rw [hp] at ha
  rw [hd, hb.unique (words_sealed hpre ha)]

/-- In one pbuf here, and there in two, the first of an odd length. -/
theorem inet_chksum_pseudo_sent_split :
    let c := inetChksumPseudo [⟨[0, 0, 5], by decide⟩] 1 2 17 3
    inetChksumPseudo [⟨[UInt8.ofNat (c / 256)], by decide⟩, ⟨[UInt8.ofNat (c % 256), 5], by decide⟩] 1 2 17 3 = 0 :=
  @inet_chksum_pseudo_sent _ _ [] [5] 1 2 17 3 rfl rfl rfl

/-- A pbuf begins at a high octet, whatever is before it. -/
theorem chksumChain_keep : ∀ {p : List Pbuf} {acc n : Nat} {swapped : Bool}, Folds n acc →
    Folds (n + (p.map fun q => words true q.payload).sum) (chksumChain keepOctets p acc swapped).1
  | [], _, _, _, h => h
  | q :: p, _, _, _, h => by
    have hsum := chksumAdd_folds h q
    rw [chksumChain, List.map_cons, List.sum_cons, ← Nat.add_assoc]
    split
    · exact chksumChain_keep (by rw [keepOctets_eq hsum.1]; exact hsum)
    · exact chksumChain_keep hsum

theorem words_even : ∀ {p : List Pbuf}, (∀ q ∈ p.dropLast, q.payload.length % 2 = 0) →
    (p.map fun q => words true q.payload).sum = words true (pbufOctets p)
  | [], _ => rfl
  | [q], _ => by simp [pbufOctets]
  | q :: r :: p, h => by
    rw [List.dropLast_cons_cons] at h
    obtain ⟨hq, hp⟩ := List.forall_mem_cons.1 h
    rw [List.map_cons, List.sum_cons, words_even hp, show pbufOctets (q :: r :: p) = q.payload ++ pbufOctets (r :: p) from rfl, words_append, hq]
    rfl

/-- **`inet_chksum_pbuf` sums each pbuf by itself**: a chain verifies just if these sums come to 65535, which is what its octets do in a row
if no pbuf but the last is odd. -/
theorem inet_chksum_pbuf_zero (p : List Pbuf) : (inetChksumPbuf p = 0 ↔ Folds (p.map fun q => words true q.payload).sum 65535) ∧
    ((∀ q ∈ p.dropLast, q.payload.length % 2 = 0) → (inetChksumPbuf p = 0 ↔ Folds (words true (pbufOctets p)) 65535)) := by
  have hr := @chksumChain_keep p 0 0 false (Folds.refl (by decide))
  rw [Nat.zero_add] at hr
  have hzero : inetChksumPbuf p = 0 ↔ Folds (p.map fun q => words true q.payload).sum 65535 := by
    unfold inetChksumPbuf
    generalize chksumChain keepOctets p 0 false = r at hr
    have hlt := hr.1
    refine Iff.trans ?_ ⟨fun h : r.1 = 65535 => h ▸ hr, fun h => hr.unique h⟩
    dsimp only
    split
    · rw [swapOctets_eq hlt]
      omega
    · omega
  exact ⟨hzero, fun heven => by rw [← words_even heven]; exact hzero⟩

end Libogc
