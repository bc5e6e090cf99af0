import Mathlib.Data.List.Induction
import Libogc.Lib.Bytes
import Libogc.Lwip.Chksum
/-!
# IpFrag — datagrams in fragments

`ip_frag` cuts a datagram up, and `ip_reass` puts one together.  Of the blocks of 8 octets that came, a bitmap is kept, whose last byte but
one is not looked at in the end (`ip_reass_sound`).
-/
namespace Libogc

open Bytes OnesSum

def IP_HLEN : Nat := 20
def IP_MF : Nat := 0x2000
def IP_REASS_BUFSIZE : Nat := 5760
def IP_REASS_MAXAGE : Nat := 3

/-- `struct ip_hdr` -/
structure IpHdr where
  v_hl_tos : Nat
  len : Nat
  id : Nat
  offset : Nat
  ttl_proto : Nat
  chksum : Nat
  src : Nat
  dest : Nat
  deriving DecidableEq

def wordOctets (ws : List Nat) : List UInt8 := ws.flatMap fun w => [UInt8.ofNat (w / 2 ^ 8), UInt8.ofNat w]

namespace IpHdr

/-- `IPH_HL` -/
def hl (h : IpHdr) : Nat := h.v_hl_tos / 2 ^ 8 % 2 ^ 4

def mf (h : IpHdr) : Bool := h.offset / IP_MF % 2 = 1

/-- Where the octets of a fragment begin. -/
def start (h : IpHdr) : Nat := h.offset % 2 ^ 13 * 8

/-- How many there are, in 16 bits. -/
def size (h : IpHdr) : Nat := (h.len + 2 ^ 16 - h.hl * 4) % 2 ^ 16

def octets (h : IpHdr) : List UInt8 :=
  wordOctets [h.v_hl_tos, h.len, h.id, h.offset, h.ttl_proto] ++
    UInt8.ofNat (h.chksum / 2 ^ 8) :: UInt8.ofNat h.chksum :: wordOctets [h.src / 2 ^ 16, h.src, h.dest / 2 ^ 16, h.dest]

/-- The header with its checksum. -/
def chksumSet (h : IpHdr) : IpHdr := { h with chksum := inetChksum { h with chksum := 0 }.octets }

end IpHdr

/-- `copy_from_pbuf`: what it copies, the chain from the pbuf that it stops in, and the offset there -/
def copyFromPbuf : List (List UInt8) → Nat → Nat → List UInt8 × List (List UInt8) × Nat
  | [], offset, _ => ([], [], offset)
  | q :: p, offset, len =>
    let payload := q.drop offset
    if len = 0 then ([], payload :: p, offset)
    else
      let l := min len payload.length
      if len - l = 0 then (payload.take l, payload :: p, l)
      else
        let r := copyFromPbuf p 0 (len - l)
        (payload.take l ++ r.1, r.2)

/-! ## `ip_frag` -/

/-- The loop: what is sent, and whether there was room for each link header. -/
def ipFragLoop (hdr : IpHdr) (mtu : Nat) (header : Nat → Bool) :
    Nat → Nat → Nat → Nat → Nat → List (List UInt8) → Nat → List (IpHdr × List UInt8) × Bool
  | 0, _, _, _, _, _, _ => ([], true)
  | n + 1, i, ofo, nfb, left, p, poff =>
    if left = 0 then ([], true)
    else
      let last := left ≤ mtu - IP_HLEN
      let ofo := ofo + nfb
      let nfb := (mtu - IP_HLEN) / 8
      let cop := if last then left else nfb * 8
      let r := copyFromPbuf p poff cop
      let offset := (if hdr.mf ∨ ¬ last then IP_MF else 0) + ofo % 2 ^ 13
      if header i then
        let rest := ipFragLoop hdr mtu header n (i + 1) ofo nfb (left - cop) r.2.1 r.2.2
        (({ hdr with offset, len := cop + IP_HLEN }.chksumSet, r.1) :: rest.1, rest.2)
      else ([], false)

def ipFrag (hdr : IpHdr) (p : List (List UInt8)) (mtu : Nat) (header : Nat → Bool) : List (IpHdr × List UInt8) × Bool :=
  let left := p.flatten.length - IP_HLEN
  ipFragLoop hdr mtu header left 0 (hdr.offset % 2 ^ 13) 0 left p IP_HLEN

/-! ## `ip_reass` -/

/-- A packet with its header, as long as that says. -/
structure IpPacket where
  hdr : IpHdr
  p : List (List UInt8)
  first : hdr.hl * 4 ≤ (p.headD []).length
  whole : hdr.hl * 4 + hdr.size ≤ p.flatten.length

def IpPacket.data (f : IpPacket) : List UInt8 := (copyFromPbuf f.p (f.hdr.hl * 4) f.hdr.size).1

/-- `bitmap_bits` -/
def bitmapBits (k : Nat) : BitVec 8 := 0xff#8 >>> k

/-- The bitmap, when the blocks of a fragment came. -/
def markBlocks (bitmap : Nat → BitVec 8) (offset len i : Nat) : BitVec 8 :=
  if offset / 64 = (offset + len) / 64 then
    if i = offset / 64 then bitmap i ||| (bitmapBits (offset / 8 % 8) &&& ~~~bitmapBits ((offset + len) / 8 % 8)) else bitmap i
  else if i = offset / 64 then bitmap i ||| bitmapBits (offset / 8 % 8)
  else if offset / 64 < i ∧ i < (offset + len) / 64 then 0xff
  else if i = (offset + len) / 64 then bitmap i ||| ~~~bitmapBits ((offset + len) / 8 % 8)
  else bitmap i

/-- The bytes that are looked at: where there is no last byte but one, the loop has no round. -/
def blocksFull (bitmap : Nat → BitVec 8) (len : Nat) : Prop :=
  (∀ i < len / 64 - 1, bitmap i = 0xff) ∧ bitmap (len / 64) = ~~~bitmapBits (len / 8 % 8)

instance (bitmap : Nat → BitVec 8) (len : Nat) : Decidable (blocksFull bitmap len) := inferInstanceAs (Decidable (_ ∧ _))

structure IpReass where
  hdr : IpHdr
  buf : Nat → UInt8
  bitmap : Nat → BitVec 8
  len : Nat
  lastfrag : Bool
  tmr : Nat

namespace IpReass

/-- A datagram begins with the first fragment that comes. -/
def begin (s : IpReass) (hdr : IpHdr) : IpReass :=
  if s.tmr = 0 then { s with hdr, tmr := IP_REASS_MAXAGE, lastfrag := false, bitmap := fun _ => 0 } else s

def put (s : IpReass) (f : IpPacket) : IpReass :=
  let s := { s with buf := write s.buf f.hdr.start f.data, bitmap := markBlocks s.bitmap f.hdr.start f.hdr.size }
  if f.hdr.mf then s else { s with lastfrag := true, len := f.hdr.start + f.hdr.size }

/-- `ip_reass`; `room` is what `pbuf_alloc` says. -/
def reass (s : IpReass) (f : IpPacket) (room : Bool) : IpReass × Option (IpHdr × List UInt8) :=
  let s := s.begin f.hdr
  if s.hdr.src = f.hdr.src ∧ s.hdr.dest = f.hdr.dest ∧ s.hdr.id = f.hdr.id then
    if f.hdr.start > IP_REASS_BUFSIZE ∨ f.hdr.start + f.hdr.size > IP_REASS_BUFSIZE then ({ s with tmr := 0 }, none)
    else
      let s := s.put f
      if s.lastfrag ∧ blocksFull s.bitmap s.len then
        let hdr := { s.hdr with len := s.len + IP_HLEN, offset := 0 }.chksumSet
        ({ s with tmr := 0, len := s.len + IP_HLEN, hdr }, if room then some (hdr, read s.buf 0 s.len) else none)
      else (s, none)
  else (s, none)

/-- `ip_reass_tmr` -/
def tick (s : IpReass) : IpReass := { s with tmr := s.tmr - 1 }

/-- What comes of packets, each with what `pbuf_alloc` would say, and of seconds that pass between them. -/
def run (s : IpReass) : List (Option (IpPacket × Bool)) → IpReass × List (IpHdr × List UInt8)
  | [] => (s, [])
  | none :: es => s.tick.run es
  | some (f, room) :: es =>
    let r := s.reass f room
    let r' := r.1.run es
    (r'.1, r.2.toList ++ r'.2)

end IpReass

/-! ## Chains -/

theorem copyFromPbuf_spec : ∀ {p : List (List UInt8)} {offset len : Nat}, offset ≤ (p.headD []).length → offset + len ≤ p.flatten.length →
    (copyFromPbuf p offset len).1 = (p.flatten.drop offset).take len ∧ (0 < len →
      (copyFromPbuf p offset len).2.1.flatten.drop (copyFromPbuf p offset len).2.2 = p.flatten.drop (offset + len) ∧
        (copyFromPbuf p offset len).2.2 ≤ ((copyFromPbuf p offset len).2.1.headD []).length)
  | [], _, _, ho, hl => by
    obtain rfl : _ = 0 := Nat.eq_zero_of_le_zero (Nat.le_trans (Nat.le_add_left ..) hl)
    exact ⟨rfl, fun h => absurd h (Nat.lt_irrefl 0)⟩
  | q :: p, offset, len, ho, hl => by
    rw [List.flatten_cons, List.length_append] at hl
    have hdrop : (q :: p).flatten.drop offset = q.drop offset ++ p.flatten := List.drop_append_of_le_length ho
    have hpay : (q.drop offset).length = q.length - offset := List.length_drop
    rw [← List.drop_drop, hdrop, copyFromPbuf]
    dsimp only
    generalize q.drop offset = payload at hpay ⊢
    split
    next h0 =>
      rw [h0]
      exact ⟨rfl, fun h => absurd h (Nat.lt_irrefl 0)⟩
    next h0 =>
      by_cases hle : len ≤ payload.length
      · rw [Nat.min_eq_left hle, if_pos (Nat.sub_self len)]
        exact ⟨(List.take_append_of_le_length hle).symm, fun _ => ⟨rfl, hle⟩⟩
      · have hlt := Nat.not_le.1 hle
        have ho : offset ≤ q.length := ho
        rw [Nat.min_eq_right hlt.le, if_neg (Nat.sub_ne_zero_of_lt hlt)]
        obtain ⟨h1, h2⟩ := @copyFromPbuf_spec p 0 (len - payload.length) (Nat.zero_le _) (by omega)
        rw [List.drop_zero] at h1
        obtain ⟨h3, h4⟩ := h2 (Nat.sub_pos_of_lt hlt)
        rw [Nat.zero_add] at h3
        refine ⟨?_, fun _ => ⟨?_, h4⟩⟩
        · dsimp only
          rw [h1, List.take_append, List.take_of_length_le (Nat.le_refl _), List.take_of_length_le hlt.le]
        · dsimp only
          rw [h3, List.drop_append, List.drop_of_length_le hlt.le, List.nil_append]

theorem IpPacket.data_length (f : IpPacket) : f.data.length = f.hdr.size := by
  have hw := f.whole
  rw [IpPacket.data, (copyFromPbuf_spec f.first hw).1, List.length_take, List.length_drop]
  omega

/-! ## The bitmap -/

theorem bitmapBits_at : ∀ k < 8, ∀ i < 8, (bitmapBits k).getMsbD i = decide (k ≤ i) := by decide

/-- The `j`-th block came. -/
def Came (bitmap : Nat → BitVec 8) (j : Nat) : Prop := (bitmap (j / 8)).getMsbD (j % 8) = true

theorem came_mark {bitmap : Nat → BitVec 8} {offset len j : Nat} :
    Came (markBlocks bitmap offset len) j ↔ Came bitmap j ∨ offset / 8 ≤ j ∧ j < (offset + len) / 8 := by
  have hj : j % 8 < 8 := Nat.mod_lt _ (by decide)
  have ho := bitmapBits_at (offset / 8 % 8) (Nat.mod_lt _ (by decide)) (j % 8) hj
  have he := bitmapBits_at ((offset + len) / 8 % 8) (Nat.mod_lt _ (by decide)) (j % 8) hj
  have hff : (0xff : BitVec 8).getMsbD (j % 8) = true := bitmapBits_at 0 (by decide) _ hj
  unfold Came markBlocks
  -- by the byte of the block, and whether it had come before
  cases hb : (bitmap (j / 8)).getMsbD (j % 8)
  all_goals
    repeat' split
    all_goals
      simp only [BitVec.getMsbD_or, BitVec.getMsbD_and, BitVec.getMsbD_not, ho, he, hj, hb, hff, decide_true, Bool.true_and, Bool.true_or,
        Bool.false_or, Bool.and_eq_true, Bool.not_eq_true', decide_eq_true_eq, decide_eq_false_iff_not, true_or, Bool.false_eq_true, false_or,
        true_iff, false_iff] <;>
      omega

theorem came_full {bitmap : Nat → BitVec 8} {len : Nat} : blocksFull bitmap len ↔
    (∀ j, j / 8 < len / 64 - 1 → Came bitmap j) ∧ ∀ j, j / 8 = len / 64 → (Came bitmap j ↔ j < len / 8) := by
  unfold blocksFull Came
  have hbits : ∀ {x y : BitVec 8}, x = y ↔ ∀ k < 8, x.getMsbD k = y.getMsbD k := fun {x y} =>
    ⟨fun h k _ => by rw [h], fun h => BitVec.eq_of_getMsbD_eq h⟩
  have hff : ∀ k < 8, (0xff : BitVec 8).getMsbD k = true := fun k hk => bitmapBits_at 0 (by decide) k hk
  refine and_congr ⟨fun h j hj => ?_, fun h i hi => hbits.2 fun k hk => ?_⟩ (hbits.trans ⟨fun h j hj => ?_, fun h k hk => ?_⟩)
  · rw [h _ hj]
    exact hff _ (Nat.mod_lt _ (by decide))
  · have := h (8 * i + k) (by omega)
    rw [show (8 * i + k) / 8 = i by omega, show (8 * i + k) % 8 = k by omega] at this
    rw [this, hff k hk]
  · have hk : j % 8 < 8 := Nat.mod_lt _ (by decide)
    have := h _ hk
    rw [BitVec.getMsbD_not, bitmapBits_at _ (Nat.mod_lt _ (by decide)) _ hk] at this
    rw [hj, this]
    simp only [hk, decide_true, Bool.true_and, Bool.not_eq_true', decide_eq_false_iff_not]
    omega
  · have := h (len / 64 * 8 + k) (by omega)
    rw [show (len / 64 * 8 + k) / 8 = len / 64 by omega, show (len / 64 * 8 + k) % 8 = k by omega] at this
    rw [BitVec.getMsbD_not, bitmapBits_at _ (Nat.mod_lt _ (by decide)) _ hk, Bool.eq_iff_iff, this]
    simp only [hk, decide_true, Bool.true_and, Bool.not_eq_true', decide_eq_false_iff_not]
    omega

/-! ## What is put together -/

/-- What packets leave in a buffer, one after another. -/
def overlay (b : Nat → UInt8) (got : List IpPacket) : Nat → UInt8 := got.foldl (fun b g => write b g.hdr.start g.data) b

def IpPacket.stop (f : IpPacket) : Nat := f.hdr.start + f.hdr.size

namespace IpReass

/-- The packets of the datagram that came so far. -/
structure Holds (s : IpReass) (got : List IpPacket) : Prop where
  same : ∀ g ∈ got, s.hdr.src = g.hdr.src ∧ s.hdr.dest = g.hdr.dest ∧ s.hdr.id = g.hdr.id
  came : ∀ j, Came s.bitmap j ↔ ∃ g ∈ got, g.hdr.start / 8 ≤ j ∧ j < g.stop / 8
  buf : ∃ b, s.buf = overlay b got
  last : s.lastfrag = true ↔ ∃ g ∈ got, g.hdr.mf = false
  len : s.lastfrag = true → ∃ g ∈ got, g.hdr.mf = false ∧ s.len = g.stop

def Got (s : IpReass) (got : List IpPacket) : Prop := s.tmr = 0 ∧ got = [] ∨ s.tmr ≠ 0 ∧ s.Holds got

/-- `ip_frag_init` -/
def init (hdr : IpHdr) (buf : Nat → UInt8) : IpReass := ⟨hdr, buf, fun _ => 0, 0, false, 0⟩

end IpReass

/-- **What a datagram is made of**: packets of one datagram, the later over the earlier, up to the end of a last one, and none missing but
for 64 octets. -/
def IpMade (ps : List IpPacket) (d : IpHdr × List UInt8) : Prop :=
  ∃ got b, got.Sublist ps ∧ (∀ g ∈ got, d.1.src = g.hdr.src ∧ d.1.dest = g.hdr.dest ∧ d.1.id = g.hdr.id) ∧
    d.2 = read (overlay b got) 0 d.2.length ∧ (∃ g ∈ got, g.hdr.mf = false ∧ d.2.length = g.stop) ∧
    ∀ i < d.2.length, i / 64 + 1 ≠ d.2.length / 64 → ∃ g ∈ got, g.hdr.start ≤ i ∧ i < g.stop

variable {s : IpReass} {got ps : List IpPacket}

theorem IpReass.Got.begin (h : s.Got got) (hdr : IpHdr) : (s.begin hdr).tmr ≠ 0 ∧ (s.begin hdr).Holds got := by
  unfold IpReass.begin
  rcases h with ⟨h0, rfl⟩ | ⟨h0, h⟩
  · rw [if_pos h0]
    refine ⟨Nat.succ_ne_zero 2, fun g hg => (List.not_mem_nil hg).elim, fun j => ?_, ⟨s.buf, rfl⟩, by simp, fun h => by simp at h⟩
    simp [Came]
  · rw [if_neg h0]
    exact ⟨h0, h⟩

theorem IpReass.Holds.put (h : s.Holds got) {f : IpPacket}
    (hf : s.hdr.src = f.hdr.src ∧ s.hdr.dest = f.hdr.dest ∧ s.hdr.id = f.hdr.id) : (s.put f).Holds (got ++ [f]) := by
  have hex : ∀ P : IpPacket → Prop, (∃ g ∈ got ++ [f], P g) ↔ (∃ g ∈ got, P g) ∨ P f := fun P => by
    simp only [List.mem_append, List.mem_singleton, or_and_right, exists_or, exists_eq_left]
  obtain ⟨b, hb⟩ := h.buf
  have hbuf : write s.buf f.hdr.start f.data = overlay b (got ++ [f]) := by
    rw [overlay, List.foldl_append, hb]
    rfl
  have hsame : ∀ g ∈ got ++ [f], s.hdr.src = g.hdr.src ∧ s.hdr.dest = g.hdr.dest ∧ s.hdr.id = g.hdr.id := fun g hg => by
    rcases List.mem_append.1 hg with hg | hg
    · exact h.same g hg
    · rw [List.mem_singleton.1 hg]
      exact hf
  unfold IpReass.put
  dsimp only
  split
  next hmf =>
    refine ⟨hsame, fun j => ?_, ⟨b, hbuf⟩, ?_, fun hl => (hex _).2 (.inl (h.len hl))⟩
    · rw [hex, ← h.came]
      exact came_mark
    · rw [hex, ← h.last, hmf]
      simp
  next hmf =>
    have hlast := Bool.eq_false_iff.2 hmf
    refine ⟨hsame, fun j => ?_, ⟨b, hbuf⟩, ?_, fun _ => (hex _).2 (.inr ⟨hlast, rfl⟩)⟩
    · rw [hex, ← h.came]
      exact came_mark
    · exact iff_of_true rfl ((hex _).2 (.inr hlast))

/-- **One packet.** -/
theorem IpReass.Got.reass (h : s.Got got) (hsub : got.Sublist ps) (f : IpPacket) (room : Bool) :
    (∃ got', got'.Sublist (ps ++ [f]) ∧ (s.reass f room).1.Got got') ∧ ∀ d ∈ (s.reass f room).2, IpMade (ps ++ [f]) d := by
  obtain ⟨ht, hh⟩ := h.begin f.hdr
  unfold IpReass.reass
  dsimp only
  generalize s.begin f.hdr = s at ht hh
  split
  next hf =>
    have hput := hh.put hf
    split
    · exact ⟨⟨[], List.nil_sublist _, .inl ⟨rfl, rfl⟩⟩, fun d hd => by cases hd⟩
    · split
      next hfull =>
        refine ⟨⟨[], List.nil_sublist _, .inl ⟨rfl, rfl⟩⟩, fun d hd => ?_⟩
        split at hd
        · obtain rfl := Option.some.inj hd
          obtain ⟨b, hb⟩ := hput.buf
          obtain ⟨g, hg, hmf, hlen⟩ := hput.len hfull.1
          obtain ⟨hlow, hhigh⟩ := came_full.1 hfull.2
          refine ⟨got ++ [f], b, hsub.append_right _, hput.same, ?_, ⟨g, hg, hmf, (read_length ..).trans hlen⟩, ?_⟩
          · dsimp only
            rw [read_length, hb]
          · dsimp only
            rw [read_length]
            intro i hi hgap
            by_cases hblock : i / 8 < (s.put f).len / 8
            · -- a whole block is marked
              have hcame : Came (s.put f).bitmap (i / 8) := by
                rcases Nat.lt_or_ge (i / 8 / 8) ((s.put f).len / 64 - 1) with hj | hj
                · exact hlow _ hj
                · exact (hhigh _ (by omega)).2 hblock
              obtain ⟨g, hg, h1, h2⟩ := (hput.came _).1 hcame
              unfold IpHdr.start at h1
              exact ⟨g, hg, by unfold IpHdr.start; omega, by omega⟩
            · -- the rest is in the last one
              refine ⟨g, hg, ?_, by omega⟩
              unfold IpPacket.stop IpHdr.start at hlen
              unfold IpHdr.start
              omega
        · cases hd
      next hnot =>
        refine ⟨⟨got ++ [f], hsub.append_right _, .inr ⟨?_, hput⟩⟩, fun d hd => by cases hd⟩
        unfold IpReass.put
        dsimp only
        split <;> exact ht
  next hf => exact ⟨⟨got, hsub.trans (List.sublist_append_left ..), .inr ⟨ht, hh⟩⟩, fun d hd => by cases hd⟩

def ipPackets (es : List (Option (IpPacket × Bool))) : List IpPacket := es.filterMap (Option.map Prod.fst)

theorem IpReass.Got.run : ∀ {es : List (Option (IpPacket × Bool))} {s : IpReass} {got ps : List IpPacket}, s.Got got → got.Sublist ps →
    ∀ d ∈ (s.run es).2, IpMade (ps ++ ipPackets es) d
  | [], _, _, _, _, _, d, hd => (List.not_mem_nil hd).elim
  | none :: es, s, got, ps, h, hsub, d, hd => by
    have htick : ∃ got', got'.Sublist ps ∧ s.tick.Got got' := by
      by_cases h0 : s.tick.tmr = 0
      · exact ⟨[], List.nil_sublist _, .inl ⟨h0, rfl⟩⟩
      · rcases h with ⟨ht, -⟩ | ⟨-, hh⟩
        · exact absurd (by rw [IpReass.tick, ht]) h0
        · exact ⟨got, hsub, .inr ⟨h0, ⟨hh.same, hh.came, hh.buf, hh.last, hh.len⟩⟩⟩
    obtain ⟨got', hsub', h'⟩ := htick
    exact (h'.run hsub' d hd : IpMade (ps ++ ipPackets es) d)
  | some (f, room) :: es, s, got, ps, h, hsub, d, hd => by
    obtain ⟨⟨got', hsub', h'⟩, hmade⟩ := h.reass hsub f room
    have happ : ps ++ ipPackets (some (f, room) :: es) = ps ++ [f] ++ ipPackets es := by
      rw [List.append_assoc]
      rfl
    rw [happ]
    rcases List.mem_append.1 hd with hd | hd
    · obtain ⟨got, b, hsub, hrest⟩ := hmade d (Option.mem_toList.1 hd)
      exact ⟨got, b, hsub.trans (List.sublist_append_left ..), hrest⟩
    · exact h'.run hsub' d hd

/-- **What `ip_reass` gives away** is made of packets that came, with room for a gap: 64 octets that nobody looked for. -/
theorem ip_reass_sound (hdr : IpHdr) (buf : Nat → UInt8) (es : List (Option (IpPacket × Bool))) :
    ∀ d ∈ ((IpReass.init hdr buf).run es).2, IpMade (ipPackets es) d :=
  IpReass.Got.run (.inl ⟨rfl, rfl⟩) (List.Sublist.refl _)

/-- Two packets, with nothing for 64 octets between them. -/
theorem ip_reass_sound_gap :
    let h : IpHdr := ⟨0x4500, 84, 7, IP_MF, 0, 0, 1, 2⟩
    let g : IpPacket := ⟨h, [List.replicate 84 1], by decide, by decide⟩
    let f : IpPacket := ⟨{ h with offset := 16, len := 22 }, [List.replicate 22 2], by decide, by decide⟩
    IpMade [g, f] ({ h with len := 150, offset := 0 }.chksumSet, List.replicate 64 1 ++ List.replicate 64 0 ++ [2, 2]) := by
  intro h g f
  exact ip_reass_sound h (fun _ => 0) [some (g, true), some (f, true)] _ (by decide +kernel)

/-! ## Sent and put together -/

/-- A fragment of a datagram, whose octets are `xs`. -/
structure IpPart (hdr : IpHdr) (xs : List UInt8) (x : IpHdr × List UInt8) : Prop where
  like : ∃ o l, x.1 = { hdr with offset := o, len := l }.chksumSet
  size : x.1.size = x.2.length
  data : x.2 = (xs.drop x.1.start).take x.1.size
  le : x.1.start + x.1.size ≤ xs.length
  last : x.1.mf = false ↔ x.1.start + x.1.size = xs.length
  whole : x.1.mf = true → x.1.size % 8 = 0

section Sent
variable {hdr : IpHdr} {xs : List UInt8} {mtu : Nat}

/-- **The loop of `ip_frag`** sends what is left, in order. -/
theorem ipFragLoop_parts (hhl : hdr.hl = 5) (hmf : hdr.mf = false) (hmtu : IP_HLEN + 8 ≤ mtu) (hxs : xs.length ≤ IP_REASS_BUFSIZE) :
    ∀ {n i ofo nfb left : Nat} {p : List (List UInt8)} {poff : Nat}, left ≤ n → (ofo + nfb) * 8 + left = xs.length →
      p.flatten.drop poff = xs.drop ((ofo + nfb) * 8) → poff ≤ (p.headD []).length →
      let sent := (ipFragLoop hdr mtu (fun _ => true) n i ofo nfb left p poff).1
      (∀ x ∈ sent, IpPart hdr xs x) ∧ ∀ k < xs.length, (ofo + nfb) * 8 ≤ k → ∃ x ∈ sent, x.1.start ≤ k ∧ k < x.1.start + x.1.size
  | 0, _, _, _, left, _, _, hn, hleft, _, _ => by
    refine ⟨fun x hx => (List.not_mem_nil hx).elim, fun k hk hk' => absurd hk ?_⟩
    omega
  | n + 1, i, ofo, nfb, left, p, poff, hn, hleft, hdrop, hpoff => by
    rw [ipFragLoop]
    split
    next h0 =>
      refine ⟨fun x hx => (List.not_mem_nil hx).elim, fun k hk hk' => absurd hk ?_⟩
      omega
    next h0 =>
      dsimp only
      rw [hmf]
      simp only [Bool.false_eq_true, false_or, if_true]
      -- what is cut off
      generalize hcop : (if left ≤ mtu - IP_HLEN then left else (mtu - IP_HLEN) / 8 * 8) = cop
      have hmtu8 : 1 ≤ (mtu - IP_HLEN) / 8 := by omega
      have hcut : 0 < cop ∧ cop ≤ left ∧ (left ≤ mtu - IP_HLEN → cop = left) ∧
          (¬ left ≤ mtu - IP_HLEN → cop = (mtu - IP_HLEN) / 8 * 8 ∧ cop < left) := by
        rw [← hcop]
        split <;> omega
      have hbuf : xs.length ≤ 5760 := hxs
      have hlen : p.flatten.length - poff = xs.length - (ofo + nfb) * 8 := by rw [← List.length_drop, hdrop, List.length_drop]
      obtain ⟨hcopy, hrest⟩ := @copyFromPbuf_spec p poff cop hpoff (by omega)
      obtain ⟨hnext, hoff⟩ := hrest hcut.1
      generalize copyFromPbuf p poff cop = r at hcopy hnext hoff
      generalize hoffset : (if ¬ left ≤ mtu - IP_HLEN then IP_MF else 0) + (ofo + nfb) % 2 ^ 13 = offset
      generalize hh : ({ hdr with offset, len := cop + IP_HLEN } : IpHdr).chksumSet = h
      have hpos : (ofo + nfb) % 2 ^ 13 = ofo + nfb := Nat.mod_eq_of_lt (by omega)
      have hstart : h.start = (ofo + nfb) * 8 := by
        rw [← hh]
        show offset % 2 ^ 13 * 8 = _
        rw [← hoffset, hpos]
        unfold IP_MF
        split <;> omega
      have hsize : h.size = cop := by
        rw [← hh]
        show (cop + IP_HLEN + 2 ^ 16 - hdr.hl * 4) % 2 ^ 16 = cop
        rw [hhl, IP_HLEN]
        omega
      have hmore : h.mf = true ↔ ¬ left ≤ mtu - IP_HLEN := by
        rw [← hh]
        show decide (offset / IP_MF % 2 = 1) = true ↔ _
        rw [decide_eq_true_eq, ← hoffset, hpos]
        unfold IP_MF
        split <;> omega
      have hx : IpPart hdr xs (h, r.1) := by
        refine ⟨⟨_, _, hh.symm⟩, ?_, ?_, ?_, ?_, fun hm => ?_⟩
        · rw [hsize, hcopy, List.length_take, List.length_drop]
          omega
        · rw [hstart, hsize, ← hdrop]
          exact hcopy
        · rw [hstart, hsize]
          omega
        · rw [hstart, hsize, ← Bool.not_eq_true, hmore]
          omega
        · rw [hsize, (hcut.2.2.2 (hmore.1 hm)).1]
          exact Nat.mul_mod_left ..
      by_cases hl : left ≤ mtu - IP_HLEN
      · have hend : ∀ m i ofo nfb p poff, (ipFragLoop hdr mtu (fun _ => true) m i ofo nfb 0 p poff).1 = [] := fun m => by
          intros
          cases m <;> rfl
        rw [hcut.2.2.1 hl, Nat.sub_self, hend, List.forall_mem_singleton]
        exact ⟨hx, fun k hk hk' => ⟨_, List.mem_singleton_self _, by rw [hstart]; exact hk', by rw [hstart, hsize, hcut.2.2.1 hl]; omega⟩⟩
      · obtain ⟨hc, hlt⟩ := hcut.2.2.2 hl
        obtain ⟨hparts, hcover⟩ := ipFragLoop_parts hhl hmf hmtu hxs (by omega : left - cop ≤ n)
          (by omega : (ofo + nfb + (mtu - IP_HLEN) / 8) * 8 + (left - cop) = xs.length) (by rw [hnext, ← List.drop_drop, hdrop, List.drop_drop, hc, ← Nat.add_mul]) hoff
        refine ⟨List.forall_mem_cons.2 ⟨hx, hparts⟩, fun k hk hk' => ?_⟩
        by_cases hin : k < (ofo + nfb) * 8 + cop
        · exact ⟨_, List.mem_cons_self, by rw [hstart]; exact hk', by rw [hstart, hsize]; exact hin⟩
        · obtain ⟨x, hx, h1⟩ := hcover k hk (by omega)
          exact ⟨x, List.mem_cons_of_mem _ hx, h1⟩

/-- What has come agrees with the octets. -/
theorem overlay_at (b : Nat → UInt8) : ∀ {got : List IpPacket}, (∀ g ∈ got, IpPart hdr xs (g.hdr, g.data)) →
    ∀ i, (∃ g ∈ got, g.hdr.start ≤ i ∧ i < g.stop) → overlay b got i = xs.getD i 0 := by
  intro got
  induction got using List.reverseRecOn with
  | nil =>
    rintro - i ⟨g, hg, -⟩
    exact (List.not_mem_nil hg).elim
  | append_singleton got g ih =>
    rintro hgot i ⟨g', hg', hi⟩
    have hg := hgot g (List.mem_append_right _ (List.mem_singleton_self g))
    have hlen := g.data_length
    have hput : overlay b (got ++ [g]) = write (overlay b got) g.hdr.start g.data := by
      rw [overlay, List.foldl_append]
      rfl
    rw [hput]
    by_cases hin : g.hdr.start ≤ i ∧ i < g.stop
    · obtain ⟨k, rfl⟩ := Nat.exists_eq_add_of_le hin.1
      have hk : k < g.hdr.size := Nat.lt_of_add_lt_add_left hin.2
      have hdata : g.data = (xs.drop g.hdr.start).take g.hdr.size := hg.data
      rw [write_inside (by omega), hdata]
      simp only [List.getD_eq_getElem?_getD, List.getElem?_take_of_lt hk, List.getElem?_drop]
    · rw [write_outside (by unfold IpPacket.stop at hin; omega)]
      refine ih (fun g hg => hgot g (List.mem_append_left _ hg)) i ⟨g', ?_, hi⟩
      rcases List.mem_append.1 hg' with h | h
      · exact h
      · rw [List.mem_singleton.1 h] at hi
        exact absurd hi hin

/-- A header of the datagram. -/
def IpLike (hdr h : IpHdr) : Prop := ∃ o l c, h = { hdr with offset := o, len := l, chksum := c }

/-- **A packet of the datagram** is put beside the others. -/
theorem reass_part (hxs : xs.length ≤ IP_REASS_BUFSIZE) (h : s.Got got) (hs : s.tmr ≠ 0 → IpLike hdr s.hdr) {f : IpPacket}
    (hf : IpPart hdr xs (f.hdr, f.data)) (room : Bool) : ∃ s' : IpReass, s'.Holds (got ++ [f]) ∧ s'.tmr ≠ 0 ∧ IpLike hdr s'.hdr ∧
      s.reass f room = if s'.lastfrag ∧ blocksFull s'.bitmap s'.len then
        ({ s' with tmr := 0, len := s'.len + IP_HLEN, hdr := { s'.hdr with len := s'.len + IP_HLEN, offset := 0 }.chksumSet },
          if room then some ({ s'.hdr with len := s'.len + IP_HLEN, offset := 0 }.chksumSet, read s'.buf 0 s'.len) else none)
      else (s', none) := by
  obtain ⟨ht, hh⟩ := h.begin f.hdr
  obtain ⟨o, l, hhdr⟩ := hf.like
  have hlike : IpLike hdr (s.begin f.hdr).hdr := by
    unfold IpReass.begin
    split
    next h0 => exact ⟨o, l, _, hhdr⟩
    next h0 => exact hs h0
  have hle := hf.le
  unfold IpReass.reass
  dsimp only at hhdr hle ⊢
  generalize s.begin f.hdr = s at ht hh hlike
  have hsame : s.hdr.src = f.hdr.src ∧ s.hdr.dest = f.hdr.dest ∧ s.hdr.id = f.hdr.id := by
    obtain ⟨o', l', c', h'⟩ := hlike
    rw [h', hhdr]
    exact ⟨rfl, rfl, rfl⟩
  have hin : ¬ (f.hdr.start > IP_REASS_BUFSIZE ∨ f.hdr.start + f.hdr.size > IP_REASS_BUFSIZE) := by omega
  have hkeep : (s.put f).tmr = s.tmr ∧ (s.put f).hdr = s.hdr := by
    unfold IpReass.put
    dsimp only
    split <;> exact ⟨rfl, rfl⟩
  rw [if_pos hsame, if_neg hin]
  exact ⟨s.put f, hh.put hsame, by rw [hkeep.1]; exact ht, by rw [hkeep.2]; exact hlike, rfl⟩

/-- **Nothing comes out before the last fragment is there.** -/
theorem run_parts (hxs : xs.length ≤ IP_REASS_BUFSIZE) (es : List (Option (IpPacket × Bool))) : ∀ {arr : List (IpPacket × Bool)} {s : IpReass}
    {got : List IpPacket}, s.Got got → (s.tmr ≠ 0 → IpLike hdr s.hdr) → (∀ g ∈ got, g.hdr.mf = true) →
    (∀ g ∈ arr, IpPart hdr xs (g.1.hdr, g.1.data) ∧ g.1.hdr.mf = true) → ∃ s' : IpReass, s'.Got (got ++ arr.map Prod.fst) ∧
      (s'.tmr ≠ 0 → IpLike hdr s'.hdr) ∧ s.run (arr.map some ++ es) = s'.run es
  | [], s, got, h, hs, _, _ => ⟨s, by rw [List.map_nil, List.append_nil]; exact h, hs, rfl⟩
  | (g, room) :: arr, s, got, h, hs, hgot, harr => by
    obtain ⟨hg, harr⟩ := List.forall_mem_cons.1 harr
    obtain ⟨s', hh, ht, hl, hr⟩ := reass_part hxs h hs hg.1 room
    have hmf : ∀ x ∈ got ++ [g], x.hdr.mf = true := List.forall_mem_append.2 ⟨hgot, List.forall_mem_singleton.2 hg.2⟩
    have hnot : ¬ (s'.lastfrag = true ∧ blocksFull s'.bitmap s'.len) := fun hc => by
      obtain ⟨x, hx, hx'⟩ := hh.last.1 hc.1
      rw [hmf x hx] at hx'
      cases hx'
    rw [if_neg hnot] at hr
    obtain ⟨s'', h1, h2, h3⟩ := run_parts hxs es (.inr ⟨ht, hh⟩) (fun _ => hl) hmf harr
    refine ⟨s'', by rw [List.append_assoc] at h1; exact h1, h2, ?_⟩
    rw [← h3, List.map_cons, List.cons_append, IpReass.run, hr]
    rfl

end Sent

theorem wordOctets_length (ws : List Nat) : (wordOctets ws).length = 2 * ws.length := by
  induction ws with
  | nil => rfl
  | cons w ws ih =>
    rw [wordOctets, List.flatMap_cons, List.length_append, List.length_cons, ← wordOctets, ih]
    simp only [List.length_cons, List.length_nil]
    omega

/-- A header with its checksum verifies. -/
theorem inetChksum_set (h : IpHdr) : inetChksum h.chksumSet.octets = 0 := by
  have hlen : ∀ h : IpHdr, h.octets.length < 2 ^ 16 := fun h => by simp [IpHdr.octets, wordOctets_length]
  have hpre := wordOctets_length [h.v_hl_tos, h.len, h.id, h.offset, h.ttl_proto]
  obtain ⟨a, ha, hc⟩ := inetChksum_folds (hlen { h with chksum := 0 })
  obtain ⟨b, hb, hd⟩ := inetChksum_folds (hlen h.chksumSet)
  rw [hd]
  unfold IpHdr.chksumSet at hb
  rw [hc] at hb
  unfold IpHdr.octets at ha hb
  dsimp only at ha hb
  generalize wordOctets [h.v_hl_tos, h.len, h.id, h.offset, h.ttl_proto] = pre at ha hb hpre
  generalize wordOctets [h.src / 2 ^ 16, h.src, h.dest / 2 ^ 16, h.dest] = post at ha hb
  rw [Nat.zero_div] at ha
  have hsealed := @words_sealed pre post 0 a (by rw [hpre, Nat.mul_mod_right]) ha
  rw [← @UInt8.ofNat_mod_size (65535 - a)] at hb
  rw [Folds.unique hb hsealed]

theorem ipFragLoop_headers {hdr : IpHdr} {mtu : Nat} {header : Nat → Bool} : ∀ {n i ofo nfb left : Nat} {p : List (List UInt8)} {poff : Nat},
    ∀ x ∈ (ipFragLoop hdr mtu header n i ofo nfb left p poff).1, inetChksum x.1.octets = 0
  | 0, _, _, _, _, _, _, _, hx => (List.not_mem_nil hx).elim
  | n + 1, i, ofo, nfb, left, p, poff, x, hx => by
    rw [ipFragLoop] at hx
    split at hx
    · exact (List.not_mem_nil hx).elim
    · dsimp only at hx
      split at hx
      · rcases List.mem_cons.1 hx with rfl | hx
        · exact inetChksum_set _
        · exact ipFragLoop_headers x hx
      · exact (List.not_mem_nil hx).elim

theorem IpReass.run_headers : ∀ {es : List (Option (IpPacket × Bool))} {s : IpReass}, ∀ d ∈ (s.run es).2, inetChksum d.1.octets = 0
  | [], _, d, hd => (List.not_mem_nil hd).elim
  | none :: es, _, d, hd => @IpReass.run_headers es _ d hd
  | some (f, room) :: es, s, d, hd => by
    rcases List.mem_append.1 hd with hd | hd
    · have hd := Option.mem_toList.1 hd
      unfold IpReass.reass at hd
      dsimp only at hd
      repeat' split at hd
      all_goals cases hd
      exact inetChksum_set _
    · exact IpReass.run_headers d hd

end Libogc
