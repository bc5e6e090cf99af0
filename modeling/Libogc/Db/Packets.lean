import Libogc.Lib.Bytes
import Libogc.Lib.Strings
import Mathlib.Data.List.Basic
import Mathlib.Data.UInt
/-!
# Packets — what the debugger receives

A packet is `$`, a text, `#` and two digits that have the sum of the text.  `getpacket` skips what is before the `$`, and begins again if the sums
differ; what it takes for a sum if the digits are none, or if the text is too long, may be the sum of the text (`dbg_packet`).

The buffer is given by the memory from its first byte on, and the host by the bytes that `getdbgchar` has of it.
-/
namespace Libogc

open Bytes

def BUFMAX : Nat := 2048

/-- `hex` -/
def dbgHex (ch : UInt8) : Int :=
  if 0x61 ≤ ch.toNat ∧ ch.toNat ≤ 0x66 then ch.toNat - 0x61 + 10
  else if 0x30 ≤ ch.toNat ∧ ch.toNat ≤ 0x39 then ch.toNat - 0x30
  else if 0x41 ≤ ch.toNat ∧ ch.toNat ≤ 0x46 then ch.toNat - 0x41 + 10
  else -1

/-- A byte without its highest bit. -/
def dbgChar (c : UInt8) : UInt8 := c &&& 0x7f

/-- The bytes behind the next `$` -/
def getpacketSync : List UInt8 → Option (List UInt8)
  | [] => none
  | c :: s => if dbgChar c = 0x24 then some s else getpacketSync s

/-- What the loop of the text has come to. -/
structure DbgChars where
  cnt : Nat
  chksum : UInt8
  buffer : Nat → UInt8
  rest : List UInt8

/-- The loop of the text, for as many bytes as the buffer still has; a `#` ends it. -/
def getpacketChars : Nat → Nat → UInt8 → (Nat → UInt8) → List UInt8 → Option DbgChars
  | 0, cnt, chksum, buffer, s => some ⟨cnt, chksum, buffer, s⟩
  | _ + 1, _, _, _, [] => none
  | n + 1, cnt, chksum, buffer, c :: s =>
    let ch := dbgChar c
    if ch = 0x23 then some ⟨cnt, chksum, buffer, s⟩
    else getpacketChars n (cnt + 1) (chksum + ch) (Function.update buffer cnt ch) s

/-- The sum that two digits have; what is no digit has all bits. -/
def dbgXmitsum (a b : UInt8) : UInt8 := UInt8.ofInt (dbgHex a * 16) ||| UInt8.ofInt (dbgHex b)

/-- `strlen` of the buffer -/
def dbgStrlen (buffer : Nat → UInt8) : Nat := (cstr ((List.range BUFMAX).map buffer)).length

/-- The text is moved over a sequence number of two bytes and a `:`. -/
def dbgMove (buffer : Nat → UInt8) (cnt : Nat) : Nat → UInt8 :=
  (List.range' 3 (cnt - 2)).foldl (fun buffer i => Function.update buffer (i - 3) (buffer i)) buffer

/-- A pass of `getpacket`'s loop: the buffer, what was sent, the sums and the bytes that are left. -/
structure DbgReceived where
  buffer : Nat → UInt8
  out : List UInt8
  chksum : UInt8
  xmitsum : UInt8
  rest : List UInt8

/-- A pass; it has no end if the bytes end before it. -/
def getpacketPass (buffer : Nat → UInt8) (out : List UInt8) (stream : List UInt8) : Option DbgReceived :=
  match getpacketSync stream with
  | none => none
  | some s =>
    match getpacketChars BUFMAX 0 0 buffer s with
    | none => none
    | some ⟨cnt, chksum, buffer, s⟩ =>
      -- `continue` goes to the test of the sums
      if cnt ≥ BUFMAX then some ⟨buffer, out, chksum, 0xff, s⟩
      else
        let buffer := Function.update buffer cnt 0
        match s with
        | a :: b :: s =>
          let xmitsum := dbgXmitsum (dbgChar a) (dbgChar b)
          if chksum ≠ xmitsum then some ⟨buffer, out ++ [0x2d], chksum, xmitsum, s⟩
          else if buffer 2 = 0x3a then
            some ⟨dbgMove buffer (dbgStrlen buffer), out ++ [0x2b, buffer 0, buffer 1], chksum, xmitsum, s⟩
          else some ⟨buffer, out ++ [0x2b], chksum, xmitsum, s⟩
        | _ => none

/-! ## Passes -/

/-- The bytes of a pass, without their highest bits: what was skipped, the text, and the digits if there was a `#`. -/
structure DbgPass where
  skipped : List UInt8
  chars : List UInt8
  digits : Option (UInt8 × UInt8)

namespace DbgPass

def tail (p : DbgPass) : List UInt8 :=
  match p.digits with
  | none => []
  | some (a, b) => [0x23, a, b]

def bytes (p : DbgPass) : List UInt8 := p.skipped ++ 0x24 :: (p.chars ++ p.tail)

/-- The first `$` begins the text, and it ends with a `#`, or with the buffer. -/
structure Formed (p : DbgPass) : Prop where
  skipped : 0x24 ∉ p.skipped
  chars : 0x23 ∉ p.chars
  long : p.digits = none → p.chars.length = BUFMAX
  short : p.digits ≠ none → p.chars.length < BUFMAX

def chksum (p : DbgPass) : UInt8 := p.chars.sum

def xmitsum (p : DbgPass) : UInt8 :=
  match p.digits with
  | none => 0xff
  | some (a, b) => dbgXmitsum a b

/-- The sums agree, and `getpacket` returns. -/
def accepted (p : DbgPass) : Prop := p.chksum = p.xmitsum

instance (p : DbgPass) : Decidable p.accepted := inferInstanceAs (Decidable (_ = _))

/-- The buffer behind the loop of the text, and with the 0 behind it if it is a packet. -/
def stored (p : DbgPass) (buffer : Nat → UInt8) : Nat → UInt8 :=
  match p.digits with
  | none => write buffer 0 p.chars
  | some _ => write buffer 0 (p.chars ++ [0])

/-- The buffer that a pass leaves. -/
def result (p : DbgPass) (buffer : Nat → UInt8) : Nat → UInt8 :=
  if p.digits ≠ none ∧ p.accepted ∧ p.stored buffer 2 = 0x3a then dbgMove (p.stored buffer) (dbgStrlen (p.stored buffer)) else p.stored buffer

end DbgPass

section Pass
variable {s : List UInt8}

theorem getpacketSync_eq : ∀ {stream s : List UInt8}, getpacketSync stream = some s →
    ∃ raw c, stream = raw ++ c :: s ∧ dbgChar c = 0x24 ∧ 0x24 ∉ raw.map dbgChar
  | [], _, h => by cases h
  | c :: stream, s, h => by
    rw [getpacketSync] at h
    by_cases hc : dbgChar c = 0x24
    · rw [if_pos hc] at h
      obtain rfl := Option.some.inj h
      exact ⟨[], c, rfl, hc, List.not_mem_nil⟩
    · rw [if_neg hc] at h
      obtain ⟨raw, d, rfl, hd, hraw⟩ := getpacketSync_eq h
      refine ⟨c :: raw, d, rfl, hd, fun hmem => ?_⟩
      rw [List.map_cons, List.mem_cons] at hmem
      exact hmem.elim (fun h => hc h.symm) hraw

/-- **The loop of the text** puts bytes that are no `#` into the buffer, and stops behind a `#` or when they are as many as asked for. -/
theorem getpacketChars_eq : ∀ {n cnt : Nat} {chksum : UInt8} {buffer : Nat → UInt8} {s : List UInt8} {r : DbgChars},
    getpacketChars n cnt chksum buffer s = some r → ∃ raw, 0x23 ∉ raw.map dbgChar ∧ r.cnt = cnt + raw.length ∧
      r.chksum = chksum + (raw.map dbgChar).sum ∧ r.buffer = write buffer cnt (raw.map dbgChar) ∧
        ((raw.length = n ∧ s = raw ++ r.rest) ∨ (raw.length < n ∧ ∃ c, dbgChar c = 0x23 ∧ s = raw ++ c :: r.rest))
  | 0, cnt, chksum, buffer, s, r, h => by
    obtain rfl := Option.some.inj h
    exact ⟨[], List.not_mem_nil, rfl, by simp, by simp, .inl ⟨rfl, rfl⟩⟩
  | n + 1, _, _, _, [], _, h => by cases h
  | n + 1, cnt, chksum, buffer, c :: s, r, h => by
    rw [getpacketChars] at h
    by_cases hc : dbgChar c = 0x23
    · rw [if_pos hc] at h
      obtain rfl := Option.some.inj h
      exact ⟨[], List.not_mem_nil, rfl, by simp, by simp, .inr ⟨Nat.succ_pos n, c, hc, rfl⟩⟩
    · rw [if_neg hc] at h
      obtain ⟨raw, hraw, hcnt, hsum, hbuffer, hend⟩ := getpacketChars_eq h
      refine ⟨c :: raw, fun hmem => ?_, ?_, ?_, ?_, ?_⟩
      · rw [List.map_cons, List.mem_cons] at hmem
        exact hmem.elim (fun h => hc h.symm) hraw
      · rw [hcnt, List.length_cons]
        omega
      · rw [hsum, List.map_cons, List.sum_cons, UInt8.add_assoc]
      · rw [hbuffer, ← write_one, List.map_cons]
        exact write_append buffer cnt [dbgChar c] (raw.map dbgChar)
      · rcases hend with ⟨hlen, rfl⟩ | ⟨hlen, d, hd, rfl⟩
        · exact .inl ⟨by rw [List.length_cons, hlen], rfl⟩
        · exact .inr ⟨by rw [List.length_cons]; omega, d, hd, rfl⟩

theorem dbgMove_apply (buffer : Nat → UInt8) (cnt j : Nat) : dbgMove buffer cnt j = if j + 3 ≤ cnt then buffer (j + 3) else buffer j := by
  have hloop : ∀ m j, (List.range' 3 m).foldl (fun buffer i => Function.update buffer (i - 3) (buffer i)) buffer j =
      if j < m then buffer (j + 3) else buffer j := by
    intro m
    induction m with
    | zero => exact fun j => rfl
    | succ m ih =>
      intro j
      rw [List.range'_1_concat, List.foldl_append, List.foldl_cons, List.foldl_nil, Nat.add_sub_cancel_left]
      by_cases hj : j = m
      · subst hj
        rw [Function.update_self, ih, if_neg (by omega), if_pos (Nat.lt_succ_self j), Nat.add_comm]
      · rw [Function.update_of_ne hj, ih]
        by_cases hlt : j < m
        · rw [if_pos hlt, if_pos (Nat.lt_succ_of_lt hlt)]
        · rw [if_neg hlt, if_neg (by omega)]
  unfold dbgMove
  rw [hloop]
  by_cases hj : j + 3 ≤ cnt
  · rw [if_pos hj, if_pos (by omega)]
  · rw [if_neg hj, if_neg (by omega)]

/-- **A pass** takes what there is up to the end of a packet, or as much text as the buffer takes. -/
theorem getpacketPass_eq {buffer : Nat → UInt8} {out stream : List UInt8} {r : DbgReceived} (h : getpacketPass buffer out stream = some r) :
    ∃ (p : DbgPass) (raw : List UInt8), p.Formed ∧ stream = raw ++ r.rest ∧ raw.map dbgChar = p.bytes ∧ r.chksum = p.chksum ∧
      r.xmitsum = p.xmitsum ∧ r.buffer = p.result buffer := by
  unfold getpacketPass at h
  cases hsync : getpacketSync stream with
  | none =>
    rw [hsync] at h
    cases h
  | some s =>
    obtain ⟨raw0, c0, rfl, hc0, hraw0⟩ := getpacketSync_eq hsync
    rw [hsync] at h
    dsimp only at h
    cases hchars : getpacketChars BUFMAX 0 0 buffer s with
    | none =>
      rw [hchars] at h
      cases h
    | some r0 =>
      obtain ⟨raw, hraw, hcnt, hsum, hbuffer, hend⟩ := getpacketChars_eq hchars
      obtain ⟨cnt, chksum, buffer0, rest⟩ := r0
      rw [hchars] at h
      dsimp only at h hcnt hsum hbuffer hend
      rw [Nat.zero_add] at hcnt
      rw [UInt8.zero_add] at hsum
      rcases hend with ⟨hlen, rfl⟩ | ⟨hlen, c, hc, rfl⟩
      · -- the text is too long
        rw [if_pos (by omega)] at h
        obtain rfl := Option.some.inj h
        refine ⟨⟨raw0.map dbgChar, raw.map dbgChar, none⟩, raw0 ++ c0 :: raw, ⟨hraw0, hraw, fun _ => ?_, fun hne => absurd rfl hne⟩, ?_, ?_, hsum,
          rfl, ?_⟩
        · rw [List.length_map, hlen]
        · rw [List.append_assoc]
          rfl
        · rw [List.map_append, List.map_cons, hc0]
          simp [DbgPass.bytes, DbgPass.tail]
        · rw [hbuffer]
          exact (if_neg fun hh => hh.1 rfl).symm
      · rw [if_neg (by omega)] at h
        match rest, h with
        | [], h => cases h
        | [_], h => cases h
        | a :: b :: rest, h =>
          have hcharsLen : (raw.map dbgChar).length = cnt := by rw [List.length_map, hcnt]
          -- the packet that was read, and the buffer with the 0 behind its text
          obtain ⟨p, hp⟩ : ∃ p : DbgPass, p = ⟨raw0.map dbgChar, raw.map dbgChar, some (dbgChar a, dbgChar b)⟩ := ⟨_, rfl⟩
          have hdigits : p.digits ≠ none := by
            rw [hp]
            exact Option.some_ne_none _
          have hstored : Function.update buffer0 cnt 0 = p.stored buffer := by
            rw [hp, hbuffer, ← hcharsLen, ← write_one]
            have happend := write_append buffer 0 (raw.map dbgChar) [0]
            rw [Nat.zero_add] at happend
            exact happend
          have hchk : chksum = p.chksum := by
            rw [hp]
            exact hsum
          have hxmit : dbgXmitsum (dbgChar a) (dbgChar b) = p.xmitsum := by
            rw [hp]
            rfl
          have hformed : p.Formed := by
            rw [hp]
            refine ⟨hraw0, hraw, fun hnone => absurd hnone (Option.some_ne_none _), fun _ => ?_⟩
            rw [List.length_map]
            exact hlen
          have hbytes : (raw0 ++ c0 :: (raw ++ [c, a, b])).map dbgChar = p.bytes := by
            rw [hp, List.map_append, List.map_cons, List.map_append, hc0]
            simp [DbgPass.bytes, DbgPass.tail, hc]
          have hstream : raw0 ++ c0 :: (raw ++ c :: a :: b :: rest) = raw0 ++ c0 :: (raw ++ [c, a, b]) ++ rest := by simp
          dsimp only at h
          rw [hstored, hchk, hxmit] at h
          refine ⟨p, raw0 ++ c0 :: (raw ++ [c, a, b]), hformed, ?_⟩
          unfold DbgPass.result
          generalize p.stored buffer = stored at h ⊢
          by_cases hacc : p.chksum = p.xmitsum
          · rw [if_neg (by simpa using hacc)] at h
            by_cases hcolon : stored 2 = 0x3a
            · rw [if_pos hcolon] at h
              obtain rfl := Option.some.inj h
              rw [if_pos ⟨hdigits, hacc, hcolon⟩]
              dsimp only
              exact ⟨hstream, hbytes, rfl, rfl, rfl⟩
            · rw [if_neg hcolon] at h
              obtain rfl := Option.some.inj h
              rw [if_neg fun hh => hcolon hh.2.2]
              exact ⟨hstream, hbytes, rfl, rfl, rfl⟩
          · rw [if_pos hacc] at h
            obtain rfl := Option.some.inj h
            rw [if_neg fun hh => hacc hh.2.1]
            exact ⟨hstream, hbytes, rfl, rfl, rfl⟩

end Pass

variable {out stream : List UInt8} {r : DbgReceived}

theorem getpacketPass_lt {buffer : Nat → UInt8} (h : getpacketPass buffer out stream = some r) : r.rest.length < stream.length := by
  obtain ⟨p, raw, -, rfl, hbytes, -⟩ := getpacketPass_eq h
  have hlen := congrArg List.length hbytes
  rw [List.length_map, DbgPass.bytes, List.length_append, List.length_cons] at hlen
  rw [List.length_append]
  omega

/-- `getpacket` -/
def getpacket (buffer : Nat → UInt8) (out stream : List UInt8) : Option DbgReceived :=
  match _h : getpacketPass buffer out stream with
  | none => none
  | some r => if r.chksum = r.xmitsum then some r else getpacket r.buffer r.out r.rest
termination_by stream.length
decreasing_by exact getpacketPass_lt _h

/-! ## What is to be received -/

/-- A buffer has a text, and a 0 behind it. -/
def dbgHolds (buffer : Nat → UInt8) (text : List UInt8) : Prop := ∀ i ≤ text.length, buffer i = text.getD i 0

namespace DbgPass

/-- The text without the sequence number. -/
def text (p : DbgPass) : List UInt8 := if p.chars[2]? = some 0x3a then p.chars.drop 3 else p.chars

/-- A pass that was a packet with the right digits, whose text the buffer has. -/
structure Right (p : DbgPass) (buffer : Nat → UInt8) : Prop where
  digits : ∃ a b, p.digits = some (a, b) ∧ 0 ≤ dbgHex a ∧ 0 ≤ dbgHex b ∧
    dbgHex a * 16 + dbgHex b = ((p.chars.map UInt8.toNat).sum % 256 : Nat)
  holds : dbgHolds buffer p.text

/-- The digits are some, and from the first 0 on the text behind a sequence number has the same byte at every third place. -/
structure Exact (p : DbgPass) : Prop where
  digits : ∃ a b, p.digits = some (a, b) ∧ 0 ≤ dbgHex a ∧ 0 ≤ dbgHex b
  text : p.chars[2]? = some 0x3a → ∀ j, (cstr p.chars).length < j + 3 → j + 3 ≤ p.chars.length → p.chars.getD j 0 = p.chars.getD (j + 3) 0

end DbgPass

/-- **What `getpacket` has to leave**: the bytes that it has taken end with a packet, and the buffer has its text; no other byte was written. -/
def DbgRight (buffer : Nat → UInt8) (stream : List UInt8) (r : DbgReceived) : Prop :=
  (∃ (ps : List DbgPass) (p : DbgPass) (raw : List UInt8), (∀ q ∈ ps ++ [p], q.Formed) ∧ stream = raw ++ r.rest ∧
    raw.map dbgChar = ps.flatMap DbgPass.bytes ++ p.bytes ∧ p.Right r.buffer) ∧ ∀ j ≥ BUFMAX, r.buffer j = buffer j

/-- The first pass of a stream whose sums agree is as it has to be. -/
def dbgExact (stream : List UInt8) : Prop :=
  ∀ (ps : List DbgPass) (p : DbgPass) (rest : List UInt8), (∀ q ∈ ps, q.Formed ∧ ¬ q.accepted) → p.Formed → p.accepted →
    stream.map dbgChar = ps.flatMap DbgPass.bytes ++ p.bytes ++ rest → p.Exact

/-! ## Streams -/

section Streams
variable {p q : DbgPass} {s t : List UInt8}

theorem append_cons_unique {a : UInt8} : ∀ {xs ys s t : List UInt8}, a ∉ xs → a ∉ ys → xs ++ a :: s = ys ++ a :: t → xs = ys ∧ s = t
  | [], [], _, _, _, _, h => ⟨rfl, (List.cons.inj h).2⟩
  | [], y :: ys, _, _, _, hy, h => absurd (List.mem_cons.2 (.inl (List.cons.inj h).1)) hy
  | x :: xs, [], _, _, hx, _, h => absurd (List.mem_cons.2 (.inl (List.cons.inj h).1.symm)) hx
  | x :: xs, y :: ys, _, _, hx, hy, h => by
    obtain ⟨rfl, hrest⟩ := List.cons.inj h
    obtain ⟨rfl, hst⟩ := append_cons_unique (fun hm => hx (List.mem_cons_of_mem _ hm)) (fun hm => hy (List.mem_cons_of_mem _ hm)) hrest
    exact ⟨rfl, hst⟩

/-- A text that fills the buffer has no `#` where a shorter one would have it. -/
theorem long_short {xs ys s t : List UInt8} (hx : 0x23 ∉ xs) (hlt : ys.length < xs.length) : xs ++ s ≠ ys ++ 0x23 :: t := by
  intro h
  have hget := congrArg (·[ys.length]?) h
  rw [List.getElem?_append_left hlt, List.getElem?_append_right (Nat.le_refl _), Nat.sub_self, List.getElem?_cons_zero] at hget
  exact hx (List.mem_of_getElem? hget)

theorem DbgPass.Formed.unique (hp : p.Formed) (hq : q.Formed) (h : p.bytes ++ s = q.bytes ++ t) : p = q ∧ s = t := by
  obtain ⟨skipped, chars, digits⟩ := p
  obtain ⟨skipped', chars', digits'⟩ := q
  unfold DbgPass.bytes at h
  rw [List.append_assoc, List.append_assoc, List.cons_append, List.cons_append, List.append_assoc, List.append_assoc] at h
  obtain ⟨rfl, hrest⟩ := append_cons_unique hp.skipped hq.skipped h
  cases digits with
  | none =>
    have hlen : chars.length = BUFMAX := hp.long rfl
    cases digits' with
    | none =>
      have hlen' : chars'.length = BUFMAX := hq.long rfl
      obtain ⟨rfl, hst⟩ := List.append_inj hrest (hlen.trans hlen'.symm)
      exact ⟨rfl, hst⟩
    | some d' =>
      have hlen' : chars'.length < BUFMAX := hq.short (Option.some_ne_none d')
      exact absurd hrest (long_short hp.chars (hlen ▸ hlen'))
  | some d =>
    have hlen : chars.length < BUFMAX := hp.short (Option.some_ne_none d)
    cases digits' with
    | none =>
      have hlen' : chars'.length = BUFMAX := hq.long rfl
      exact absurd hrest.symm (long_short hq.chars (hlen' ▸ hlen))
    | some d' =>
      obtain ⟨rfl, hdigits⟩ := append_cons_unique hp.chars hq.chars hrest
      obtain ⟨ha, hrest'⟩ := List.cons.inj hdigits
      obtain ⟨hb, hst⟩ := List.cons.inj hrest'
      have hd : d = d' := Prod.ext ha hb
      exact ⟨by rw [hd], hst⟩

theorem passes_unique : ∀ {ps qs : List DbgPass} {s : List UInt8}, (∀ p ∈ ps, p.Formed) → (∀ q ∈ qs, q.Formed) →
    ps.flatMap DbgPass.bytes = qs.flatMap DbgPass.bytes ++ s → qs <+: ps
  | _, [], _, _, _, _ => List.nil_prefix
  | [], q :: qs, s, _, _, h => by
    have hlen := congrArg List.length h
    simp [DbgPass.bytes] at hlen
  | p :: ps, q :: qs, s, hp, hq, h => by
    rw [List.flatMap_cons, List.flatMap_cons, List.append_assoc] at h
    obtain ⟨rfl, hrest⟩ := (hp p List.mem_cons_self).unique (hq q List.mem_cons_self) h
    exact List.cons_prefix_cons.2 ⟨rfl, passes_unique (fun p h => hp p (List.mem_cons_of_mem _ h)) (fun q h => hq q (List.mem_cons_of_mem _ h)) hrest⟩

theorem passes_eq {ps qs : List DbgPass} (hp : ∀ p ∈ ps, p.Formed) (hq : ∀ q ∈ qs, q.Formed)
    (h : ps.flatMap DbgPass.bytes = qs.flatMap DbgPass.bytes) : ps = qs := by
  have hqp : qs <+: ps := @passes_unique ps qs [] hp hq (by rw [List.append_nil, h])
  have hpq : ps <+: qs := @passes_unique qs ps [] hq hp (by rw [List.append_nil, h])
  exact hpq.eq_of_length (Nat.le_antisymm hpq.length_le hqp.length_le)

theorem first_accepted : ∀ {ps qs : List DbgPass} {p q : DbgPass} {s t : List UInt8}, (∀ x ∈ ps, x.Formed ∧ ¬ x.accepted) →
    (∀ x ∈ qs, x.Formed ∧ ¬ x.accepted) → p.Formed → p.accepted → q.Formed → q.accepted →
      ps.flatMap DbgPass.bytes ++ p.bytes ++ s = qs.flatMap DbgPass.bytes ++ q.bytes ++ t → p = q
  | [], [], p, q, _, _, _, _, hp, _, hq, _, h => (hp.unique hq h).1
  | [], x :: qs, p, q, s, t, _, hqs, hp, hacc, _, _, h => by
    have hx := hqs x List.mem_cons_self
    rw [List.flatMap_nil, List.nil_append, List.flatMap_cons, List.append_assoc, List.append_assoc] at h
    obtain ⟨rfl, -⟩ := hp.unique hx.1 h
    exact absurd hacc hx.2
  | x :: ps, [], p, q, s, t, hps, _, _, _, hq, hacc, h => by
    have hx := hps x List.mem_cons_self
    rw [List.flatMap_nil, List.nil_append, List.flatMap_cons, List.append_assoc, List.append_assoc] at h
    obtain ⟨rfl, -⟩ := hx.1.unique hq h
    exact absurd hacc hx.2
  | x :: ps, y :: qs, p, q, s, t, hps, hqs, hp, hpa, hq, hqa, h => by
    rw [List.flatMap_cons, List.flatMap_cons, List.append_assoc, List.append_assoc, List.append_assoc, List.append_assoc] at h
    obtain ⟨-, hrest⟩ := (hps x List.mem_cons_self).1.unique (hqs y List.mem_cons_self).1 h
    rw [← List.append_assoc, ← List.append_assoc] at hrest
    exact first_accepted (fun z hz => hps z (List.mem_cons_of_mem _ hz)) (fun z hz => hqs z (List.mem_cons_of_mem _ hz)) hp hpa hq hqa hrest

end Streams

/-! ## What a pass leaves -/

section Result
variable {p : DbgPass} {buffer : Nat → UInt8}

theorem dbgStrlen_le (buffer : Nat → UInt8) : dbgStrlen buffer ≤ BUFMAX := by
  have hlen := (List.takeWhile_prefix (· ≠ 0) (l := (List.range BUFMAX).map buffer)).length_le
  rw [List.length_map, List.length_range] at hlen
  exact hlen

variable {j : Nat}

theorem DbgPass.Formed.outside (hp : p.Formed) (hj : BUFMAX ≤ j) : p.result buffer j = buffer j := by
  have hstored : p.stored buffer j = buffer j := by
    unfold DbgPass.stored
    cases hd : p.digits with
    | none => exact write_outside (by rw [hp.long hd]; omega)
    | some d =>
      have hlen := hp.short (by rw [hd]; exact Option.some_ne_none d)
      exact write_outside (by rw [List.length_append, List.length_singleton]; omega)
  unfold DbgPass.result
  split
  · have hle := dbgStrlen_le (p.stored buffer)
    rw [dbgMove_apply, if_neg (by omega), hstored]
  · exact hstored

theorem DbgPass.stored_apply (hd : p.digits ≠ none) (hj : j ≤ p.chars.length) : p.stored buffer j = p.chars.getD j 0 := by
  obtain ⟨d, hd⟩ := Option.ne_none_iff_exists'.1 hd
  unfold DbgPass.stored
  rw [hd]
  dsimp only
  have hin := @write_inside buffer 0 (p.chars ++ [0]) j (by rw [List.length_append, List.length_singleton]; omega)
  rw [Nat.zero_add] at hin
  rw [hin]
  rcases Nat.lt_or_eq_of_le hj with hlt | rfl
  · exact List.getD_append _ _ _ _ hlt
  · rw [List.getD_append_right _ _ _ _ (Nat.le_refl _), Nat.sub_self, List.getD_eq_default _ _ (Nat.le_refl _)]
    rfl

theorem DbgPass.strlen_stored (hp : p.Formed) (hd : p.digits ≠ none) : dbgStrlen (p.stored buffer) = (cstr p.chars).length := by
  have hlen := hp.short hd
  have hread : (List.range (p.chars.length + 1)).map (p.stored buffer) = p.chars ++ [0] := by
    refine List.ext_getElem (by simp) fun j hj hj' => ?_
    rw [List.length_map, List.length_range] at hj
    rw [List.getElem_map, List.getElem_range, stored_apply hd (Nat.le_of_lt_succ hj)]
    rcases Nat.lt_or_eq_of_le (Nat.le_of_lt_succ hj) with hlt | rfl
    · rw [List.getElem_append_left hlt, List.getD_eq_getElem _ _ hlt]
    · rw [List.getElem_concat_length rfl, List.getD_eq_default _ _ (Nat.le_refl _)]
  unfold dbgStrlen
  rw [show BUFMAX = p.chars.length + 1 + (BUFMAX - (p.chars.length + 1)) by omega, List.range_add, List.map_append, hread]
  unfold cstr
  rw [List.append_assoc, List.takeWhile_append]
  split
  · rename_i hall
    rw [List.singleton_append, List.takeWhile_cons_of_neg (by decide), List.append_nil]
    exact hall.symm ▸ rfl
  · rfl

/-- **Whether the buffer has the text**: a sequence number is gone only from before the first 0. -/
theorem DbgPass.Formed.holds_iff (hp : p.Formed) (hd : p.digits ≠ none) (hacc : p.accepted) :
    dbgHolds (p.result buffer) p.text ↔ (p.chars[2]? = some 0x3a →
      ∀ j, (cstr p.chars).length < j + 3 → j + 3 ≤ p.chars.length → p.chars.getD j 0 = p.chars.getD (j + 3) 0) := by
  have hle : (cstr p.chars).length ≤ p.chars.length := (List.takeWhile_prefix _).length_le
  have hstored : ∀ j ≤ p.chars.length, p.stored buffer j = p.chars.getD j 0 := fun j hj => stored_apply hd hj
  have hstrlen : dbgStrlen (p.stored buffer) = (cstr p.chars).length := strlen_stored hp hd
  unfold DbgPass.result DbgPass.text dbgHolds
  by_cases hcolon : p.chars[2]? = some 0x3a
  · -- a sequence number
    have hlen : 2 < p.chars.length := (List.getElem?_eq_some_iff.1 hcolon).1
    have h2 : p.stored buffer 2 = 0x3a := by
      rw [hstored 2 (by omega), List.getD_eq_getElem?_getD, hcolon]
      rfl
    rw [if_pos hcolon, if_pos ⟨hd, hacc, h2⟩, hstrlen, List.length_drop]
    have hat : ∀ i, i ≤ p.chars.length - 3 → dbgMove (p.stored buffer) (cstr p.chars).length i =
        if i + 3 ≤ (cstr p.chars).length then p.chars.getD (i + 3) 0 else p.chars.getD i 0 := by
      intro i hi
      rw [dbgMove_apply, hstored i (by omega), hstored (i + 3) (by omega)]
    have hdrop : ∀ i, (p.chars.drop 3).getD i 0 = p.chars.getD (i + 3) 0 := by
      intro i
      rw [List.getD_eq_getElem?_getD, List.getD_eq_getElem?_getD, List.getElem?_drop, Nat.add_comm 3 i]
    constructor
    · intro h _ j hlt hj
      have hval := h j (by omega)
      rw [hat j (by omega), hdrop, if_neg (by omega)] at hval
      exact hval
    · intro h i hi
      rw [hat i hi, hdrop]
      by_cases hlt : i + 3 ≤ (cstr p.chars).length
      · rw [if_pos hlt]
      · rw [if_neg hlt]
        exact h hcolon i (by omega) (by omega)
  · rw [if_neg hcolon]
    refine iff_of_true (fun i hi => ?_) fun h => absurd h hcolon
    split
    · rename_i hmove
      -- a `:` that was there before is not behind a text of two characters
      have hlen : p.chars.length < 2 := by
        by_contra hge
        have h2 := hmove.2.2
        rw [hstored 2 (by omega), List.getD_eq_getElem?_getD] at h2
        cases hget : p.chars[2]? with
        | none =>
          rw [hget] at h2
          exact absurd h2 (by decide)
        | some c =>
          rw [hget, Option.getD_some] at h2
          exact hcolon (hget.trans (congrArg some h2))
      rw [hstrlen, dbgMove_apply, if_neg (by omega), hstored i hi]
    · exact hstored i hi

theorem dbgXmitsum_digits {a b : UInt8} (ha : 0 ≤ dbgHex a) (hb : 0 ≤ dbgHex b) :
    dbgHex a * 16 + dbgHex b = ((dbgXmitsum a b).toNat : Int) := by
  have hlt : ∀ ch, dbgHex ch < 16 := by
    intro ch
    unfold dbgHex
    grind
  have hor : ∀ m < 16, ∀ n < 16, (UInt8.ofInt ((m : Nat) * 16) ||| UInt8.ofInt (n : Nat)).toNat = m * 16 + n := by decide
  obtain ⟨m, hm⟩ := Int.eq_ofNat_of_zero_le ha
  obtain ⟨n, hn⟩ := Int.eq_ofNat_of_zero_le hb
  have hm16 := hlt a
  have hn16 := hlt b
  rw [hm] at hm16
  rw [hn] at hn16
  unfold dbgXmitsum
  rw [hm, hn, hor m (by omega) n (by omega)]
  push_cast
  rfl

theorem sum_toNat (xs : List UInt8) : xs.sum.toNat = (xs.map UInt8.toNat).sum % 256 := by
  induction xs with
  | nil => rfl
  | cons x xs ih => rw [List.sum_cons, UInt8.toNat_add, ih, List.map_cons, List.sum_cons, Nat.add_mod_mod]

theorem DbgPass.Formed.right_iff (hp : p.Formed) (hacc : p.accepted) : p.Right (p.result buffer) ↔ p.Exact := by
  constructor
  · rintro ⟨⟨a, b, hd, ha, hb, -⟩, hholds⟩
    exact ⟨⟨a, b, hd, ha, hb⟩, (hp.holds_iff (by rw [hd]; exact Option.some_ne_none _) hacc).1 hholds⟩
  · rintro ⟨⟨a, b, hd, ha, hb⟩, htext⟩
    refine ⟨⟨a, b, hd, ha, hb, ?_⟩, (hp.holds_iff (by rw [hd]; exact Option.some_ne_none _) hacc).2 htext⟩
    have hsum : dbgXmitsum a b = p.chars.sum := by
      unfold DbgPass.accepted DbgPass.chksum DbgPass.xmitsum at hacc
      rw [hd] at hacc
      exact hacc.symm
    rw [dbgXmitsum_digits ha hb, hsum, sum_toNat]

end Result

/-! ## Runs -/

/-- **What `getpacket` takes**: passes whose sums differ, and one whose sums agree. -/
theorem getpacket_eq {buffer : Nat → UInt8} (h : getpacket buffer out stream = some r) :
    ∃ (ps : List DbgPass) (p : DbgPass) (raw : List UInt8) (old : Nat → UInt8), (∀ q ∈ ps, q.Formed ∧ ¬ q.accepted) ∧ p.Formed ∧
      p.accepted ∧ stream = raw ++ r.rest ∧ raw.map dbgChar = ps.flatMap DbgPass.bytes ++ p.bytes ∧ (∀ j ≥ BUFMAX, old j = buffer j) ∧
        r.buffer = p.result old := by
  induction buffer, out, stream using getpacket.induct with
  | case1 buffer out stream hnone =>
    rw [getpacket, hnone] at h
    cases h
  | case2 buffer out stream r' hpass heq =>
    rw [getpacket, hpass] at h
    dsimp only at h
    rw [if_pos heq] at h
    obtain rfl := Option.some.inj h
    obtain ⟨p, raw, hp, hstream, hbytes, hchk, hxmit, hbuffer⟩ := getpacketPass_eq hpass
    refine ⟨[], p, raw, buffer, fun q hq => absurd hq List.not_mem_nil, hp, ?_, hstream, hbytes, fun j _ => rfl, hbuffer⟩
    exact hchk.symm.trans (heq.trans hxmit)
  | case3 buffer out stream r' hpass hne ih =>
    rw [getpacket, hpass] at h
    dsimp only at h
    rw [if_neg hne] at h
    obtain ⟨q, raw0, hq, hstream0, hbytes0, hchk, hxmit, hbuffer⟩ := getpacketPass_eq hpass
    obtain ⟨ps, p, raw, old, hps, hp, hacc, hstream, hbytes, hold, hres⟩ := ih h
    refine ⟨q :: ps, p, raw0 ++ raw, old, ?_, hp, hacc, ?_, ?_, ?_, hres⟩
    · intro x hx
      rcases List.mem_cons.1 hx with rfl | hx
      · exact ⟨hq, fun hh => hne (hchk.trans (Eq.trans hh hxmit.symm))⟩
      · exact hps x hx
    · rw [hstream0, hstream, List.append_assoc]
    · rw [List.map_append, hbytes0, hbytes, List.flatMap_cons, List.append_assoc]
    · intro j hj
      rw [hold j hj, hbuffer]
      exact hq.outside hj

/-- **A packet is received** if, and only if, the first sums that agree are those of one. -/
theorem dbg_packet {buffer : Nat → UInt8} {out stream : List UInt8} {r : DbgReceived} (h : getpacket buffer out stream = some r) :
    DbgRight buffer stream r ↔ dbgExact stream := by
  obtain ⟨ps, p, raw, old, hps, hp, hacc, hstream, hbytes, hold, hres⟩ := getpacket_eq h
  have hformed : ∀ q ∈ ps ++ [p], q.Formed := by
    intro q hq
    rcases List.mem_append.1 hq with hq | hq
    · exact (hps q hq).1
    · obtain rfl := List.mem_singleton.1 hq
      exact hp
  have houtside : ∀ j ≥ BUFMAX, r.buffer j = buffer j := by
    intro j hj
    rw [hres, hp.outside hj, hold j hj]
  have hright : DbgRight buffer stream r ↔ p.Right r.buffer := by
    constructor
    · rintro ⟨⟨qs, q, raw', hqs, hstream', hbytes', hq⟩, -⟩
      have hraw : raw = raw' := List.append_cancel_right (hstream.symm.trans hstream')
      subst hraw
      have hpasses : ps ++ [p] = qs ++ [q] := by
        refine passes_eq hformed hqs ?_
        rw [List.flatMap_append, List.flatMap_append, List.flatMap_singleton, List.flatMap_singleton, ← hbytes, hbytes']
      obtain ⟨-, hone⟩ := List.append_inj' hpasses rfl
      rw [List.singleton_inj.1 hone]
      exact hq
    · exact fun hq => ⟨⟨ps, p, raw, hformed, hstream, hbytes, hq⟩, houtside⟩
  have hexact : dbgExact stream ↔ p.Exact := by
    constructor
    · refine fun hall => hall ps p (r.rest.map dbgChar) hps hp hacc ?_
      rw [hstream, List.map_append, hbytes]
    · intro hx qs q rest hqs hq hqacc hbytes'
      have heq : p = q := by
        refine @first_accepted ps qs p q (r.rest.map dbgChar) rest hps hqs hp hacc hq hqacc ?_
        rw [← hbytes, ← List.map_append, ← hstream, hbytes']
      rw [← heq]
      exact hx
  rw [hright, hexact, hres]
  exact hp.right_iff hacc

theorem getpacket_once {buffer : Nat → UInt8} (h : getpacketPass buffer out stream = some r) (hacc : r.chksum = r.xmitsum) :
    getpacket buffer out stream = some r := by
  rw [getpacket, h]
  exact if_pos hacc

/-- `$OK#9a` is received. -/
theorem dbg_packet_ok : ∃ r, getpacket (fun _ => 0) [] [0x24, 0x4f, 0x4b, 0x23, 0x39, 0x61] = some r ∧
    (DbgRight (fun _ => 0) [0x24, 0x4f, 0x4b, 0x23, 0x39, 0x61] r ↔ dbgExact [0x24, 0x4f, 0x4b, 0x23, 0x39, 0x61]) := by
  have hpass : ∃ r, getpacketPass (fun _ => 0) [] [0x24, 0x4f, 0x4b, 0x23, 0x39, 0x61] = some r ∧ r.chksum = r.xmitsum :=
    ⟨_, rfl, by decide⟩
  obtain ⟨r, hr, hacc⟩ := hpass
  have hget := getpacket_once hr hacc
  exact ⟨r, hget, dbg_packet hget⟩

/-- Two letters `z` are taken for the digits of a text whose sum is 255. -/
theorem dbg_packet_digits : ¬ ∀ (buffer : Nat → UInt8) (out stream : List UInt8) (r : DbgReceived),
    getpacket buffer out stream = some r → DbgRight buffer stream r := by
  intro h
  have hpass : ∃ r, getpacketPass (fun _ => 0) [] [0x24, 0x7f, 0x7f, 0x01, 0x23, 0x7a, 0x7a] = some r ∧ r.chksum = r.xmitsum ∧ r.rest = [] :=
    ⟨_, rfl, by decide, rfl⟩
  obtain ⟨r, hr, hacc, hrest⟩ := hpass
  obtain ⟨⟨ps, p, raw, hps, hstream, hbytes, hright⟩, -⟩ := h _ _ _ _ (getpacket_once hr hacc)
  rw [hrest, List.append_nil] at hstream
  rw [← hstream] at hbytes
  -- the passes of these bytes
  have hone : ∀ q ∈ [DbgPass.mk [] [0x7f, 0x7f, 0x01] (some (0x7a, 0x7a))], q.Formed := by
    intro q hq
    obtain rfl := List.mem_singleton.1 hq
    exact ⟨by decide, by decide, fun hnone => absurd hnone (Option.some_ne_none _), fun _ => by decide⟩
  have hpasses : [DbgPass.mk [] [0x7f, 0x7f, 0x01] (some (0x7a, 0x7a))] = ps ++ [p] := by
    refine passes_eq hone hps ?_
    rw [List.flatMap_append, List.flatMap_singleton, List.flatMap_singleton, ← hbytes]
    decide
  obtain ⟨-, hp⟩ := List.append_inj' (show [] ++ [_] = ps ++ [p] from hpasses) rfl
  rw [← List.singleton_inj.1 hp] at hright
  obtain ⟨a, b, hd, ha, -⟩ := hright.digits
  rw [← (Prod.mk.inj (Option.some.inj hd)).1] at ha
  exact absurd ha (by decide)

end Libogc
