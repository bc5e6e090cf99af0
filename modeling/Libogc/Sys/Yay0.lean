import Libogc.Lib.BackRefs
import Libogc.Lib.Bytes
import Libogc.Lib.Words
import Mathlib.Data.Nat.Bitwise
/-!
# Yay0 — the decoder of `system.c`

The fonts of the machine are compressed.  `decode_szp` reads three streams next to each other: a bit for each token, the links of the back
references, and the bytes, which are also those of the long lengths.
-/
namespace Libogc

open Bytes LzToken

/-- The variables of `decode_szp`; `dest` is the memory from the destination on. -/
structure Szp where
  dest : Nat → UInt8
  loff : Nat
  coff : Nat
  roff : Nat
  cmask : Nat
  cnt : Nat
  bcnt : Nat

/-- `sizeof(yay0header)` -/
def sizeofYay0Header : Nat := 16

/-- `dest8[cnt++] = b` -/
def Szp.put (s : Szp) (b : UInt8) : Szp := { s with dest := Function.update s.dest s.cnt b, cnt := u32 (s.cnt + 1) }

/-- The loop that copies, from `i` on; `tmp` is seen from the destination. -/
def Szp.copy (tmp : Nat) : Nat → Nat → Szp → Szp
  | 0, _, s => s
  | n + 1, i, s => copy tmp n (i + 1) (s.put (s.dest (u32 (tmp + i))))

def Szp.refill (src : Nat → UInt8) (s : Szp) : Szp :=
  if s.bcnt = 0 then { s with cmask := be32 src s.roff, roff := u32 (s.roff + 4), bcnt := 32 } else s

/-- A token. -/
def Szp.token (src : Nat → UInt8) (s : Szp) : Szp :=
  if s.cmask.testBit 31 then { s.put (src s.coff) with coff := u32 (s.coff + 1) }
  else
    let link := be16 (src s.loff) (src (s.loff + 1))
    let s := { s with loff := u32 (s.loff + 2) }
    let tmp := uint32 (s.cnt - (link % 4096 : Nat) - 1)
    let k := link / 4096
    if k = 0 then { s with coff := u32 (s.coff + 1) }.copy tmp ((src s.coff).toNat + 18) 0
    else s.copy tmp (k + 2) 0

def Szp.round (src : Nat → UInt8) (s : Szp) : Szp :=
  let s := (s.refill src).token src
  { s with cmask := u32 (s.cmask <<< 1), bcnt := s.bcnt - 1 }

/-- `n` rounds at most. -/
def Szp.run (src : Nat → UInt8) (size : Nat) : Nat → Szp → Option Szp
  | 0, _ => none
  | n + 1, s => if (s.round src).cnt < size then (s.round src).run src size n else some (s.round src)

def Szp.start (src dest : Nat → UInt8) : Szp := ⟨dest, be32 src 8, be32 src 12, sizeofYay0Header, 0, 0, 0⟩

/-- The destination, if `n` rounds are enough. -/
def decodeSzp (n : Nat) (src dest : Nat → UInt8) : Option (Nat → UInt8) :=
  ((Szp.start src dest).run src (be32 src 4) n).map Szp.dest

/-! ## The format -/

/-- What a Yay0 link can say. -/
def yay0Token : LzToken UInt8 → Prop
  | .lit _ => True
  | .ref d n => d ≤ 4096 ∧ 3 ≤ n ∧ n ≤ 273

def yay0Chunk : LzToken UInt8 → List UInt8
  | .lit b => [b]
  | .ref _ n => if n < 18 then [] else [UInt8.ofNat (n - 18)]

def yay0LinkOf (d n : Nat) : Nat := (if n < 18 then n - 2 else 0) * 4096 + (d - 1)

def yay0Link : LzToken UInt8 → List UInt8
  | .lit _ => []
  | .ref d n => [hi8 (yay0LinkOf d n), lo8 (yay0LinkOf d n)]

/-- The bit of the token `i`; after the last there are zeros. -/
def yay0Flag (tokens : List (LzToken UInt8)) (i : Nat) : Bool :=
  match tokens[i]? with
  | some (.lit _) => true
  | _ => false

/-- A word of bits, the first in its highest. -/
def yay0FlagWord (tokens : List (LzToken UInt8)) (w : Nat) : Nat :=
  Nat.ofBits fun j : Fin 32 => yay0Flag tokens (32 * w + (31 - j))

/-- `n` words of bits, from the word `w` on. -/
def yay0FlagWords (tokens : List (LzToken UInt8)) : Nat → Nat → List UInt8
  | 0, _ => []
  | n + 1, w => bytes32 (yay0FlagWord tokens w) ++ yay0FlagWords tokens n (w + 1)

/-- The number of words that have a bit for each token. -/
def yay0Words (tokens : List (LzToken UInt8)) : Nat := (tokens.length + 31) / 32

def yay0Links (tokens : List (LzToken UInt8)) : List UInt8 := tokens.flatMap yay0Link

def yay0Chunks (tokens : List (LzToken UInt8)) : List UInt8 := tokens.flatMap yay0Chunk

/-- **The encoding**: the header, the bits, the links, the bytes. -/
def yay0Encode (tokens : List (LzToken UInt8)) : List UInt8 :=
  let links := sizeofYay0Header + 4 * yay0Words tokens
  [89, 97, 121, 48] ++ bytes32 (expand tokens).length ++ bytes32 links ++ bytes32 (links + (yay0Links tokens).length) ++
    yay0FlagWords tokens (yay0Words tokens) 0 ++ yay0Links tokens ++ yay0Chunks tokens

/-- A memory with a text at its start. -/
def yay0Written (dest : Nat → UInt8) (out : List UInt8) (i : Nat) : UInt8 := if i < out.length then out.getD i 0 else dest i

/-! ## The streams -/

variable {src dest : Nat → UInt8} {tokens done : List (LzToken UInt8)} {out : List UInt8} {s : Szp} {t : LzToken UInt8}

/-- **A source that holds the tokens**, with the links and the bytes wherever the header says. -/
structure Yay0At (src : Nat → UInt8) (tokens : List (LzToken UInt8)) : Prop where
  size : be32 src 4 = (expand tokens).length
  flags : ∀ w < yay0Words tokens, be32 src (sizeofYay0Header + 4 * w) = yay0FlagWord tokens w
  links : Stand src (be32 src 8) (yay0Links tokens)
  chunks : Stand src (be32 src 12) (yay0Chunks tokens)
  flagsFit : sizeofYay0Header + 4 * yay0Words tokens < 2 ^ 32
  linksFit : be32 src 8 + (yay0Links tokens).length < 2 ^ 32
  chunksFit : be32 src 12 + (yay0Chunks tokens).length < 2 ^ 32

theorem yay0FlagWord_testBit (tokens : List (LzToken UInt8)) {w i : Nat} (hi : i < 32) :
    (yay0FlagWord tokens w).testBit (31 - i) = yay0Flag tokens (32 * w + i) := by
  unfold yay0FlagWord
  rw [Nat.testBit_ofBits_lt _ _ (by omega)]
  dsimp only
  rw [show 31 - (31 - i) = i by omega]

theorem yay0FlagWord_lt (tokens : List (LzToken UInt8)) (w : Nat) : yay0FlagWord tokens w < 2 ^ 32 := Nat.ofBits_lt_two_pow _

theorem yay0FlagWords_length (tokens : List (LzToken UInt8)) (n : Nat) : ∀ w, (yay0FlagWords tokens n w).length = 4 * n := by
  induction n with
  | zero => exact fun _ => rfl
  | succ n ih =>
    intro w
    rw [yay0FlagWords, List.length_append, ih]
    show 4 + 4 * n = 4 * (n + 1)
    omega

theorem yay0FlagWords_stand {n : Nat} : ∀ {o w : Nat}, Stand src o (yay0FlagWords tokens n w) →
    ∀ i < n, be32 src (o + 4 * i) = yay0FlagWord tokens (w + i) := by
  induction n with
  | zero => exact fun _ i hi => absurd hi (Nat.not_lt_zero i)
  | succ n ih =>
    intro o w h i hi
    obtain ⟨hword, hrest⟩ := stand_append.mp h
    cases i with
    | zero => exact be32_of_stand (yay0FlagWord_lt _ _) hword
    | succ i =>
      have hi := ih hrest i (by omega)
      rw [show w + (i + 1) = w + 1 + i by omega, ← hi]
      exact congrArg _ (by show o + 4 * (i + 1) = o + 4 + 4 * i; omega)

theorem yay0Encode_at (h : Stand src 0 (yay0Encode tokens)) (hsize : (expand tokens).length < 2 ^ 32)
    (hfit : (yay0Encode tokens).length < 2 ^ 32) : Yay0At src tokens := by
  have hlen : (yay0Encode tokens).length =
      16 + 4 * yay0Words tokens + (yay0Links tokens).length + (yay0Chunks tokens).length := by
    simp only [yay0Encode, List.length_append, yay0FlagWords_length, bytes32, List.length_cons, List.length_nil]
  rw [hlen] at hfit
  unfold yay0Encode at h
  simp only [stand_append, List.length_append, yay0FlagWords_length, Nat.zero_add] at h
  obtain ⟨⟨⟨⟨⟨⟨-, hsz⟩, hl⟩, hc⟩, hf⟩, hlinks⟩, hchunks⟩ := h
  have hl := be32_of_stand (by unfold sizeofYay0Header; omega) hl
  have hc := be32_of_stand (by unfold sizeofYay0Header; omega) hc
  have hf := yay0FlagWords_stand hf
  change be32 src 8 = _ at hl
  change be32 src 12 = _ at hc
  refine ⟨be32_of_stand hsize hsz, fun w hw => ?_, ?_, ?_, ?_, ?_, ?_⟩
  · have hw := hf w hw
    rw [Nat.zero_add] at hw
    exact hw
  · rw [hl]
    exact hlinks
  · rw [hc]
    exact hchunks
  all_goals
    unfold sizeofYay0Header at *
    omega

/-! ## A token -/

theorem yay0Written_lt {i : Nat} (hi : i < out.length) : yay0Written dest out i = out.getD i 0 := if_pos hi

theorem yay0Written_put (dest : Nat → UInt8) (out : List UInt8) (b : UInt8) :
    Function.update (yay0Written dest out) out.length b = yay0Written dest (out ++ [b]) := by
  funext i
  unfold yay0Written
  rw [List.length_append, List.length_singleton]
  rcases Nat.lt_trichotomy i out.length with hi | rfl | hi
  · rw [Function.update_of_ne (by omega), if_pos hi, if_pos (by omega), List.getD_eq_getElem?_getD, List.getD_eq_getElem?_getD,
      List.getElem?_append_left hi]
  · rw [Function.update_self, if_pos (by omega), List.getD_eq_getElem?_getD, List.getElem?_append_right (Nat.le_refl _), Nat.sub_self]
    rfl
  · rw [Function.update_of_ne (by omega), if_neg (by omega), if_neg (by omega)]

/-- What is written is `out`, over what was in `dest`. -/
def Szp.holding (s : Szp) (dest : Nat → UInt8) (out : List UInt8) : Szp := { s with dest := yay0Written dest out, cnt := out.length }

theorem Szp.holding_put (b : UInt8) (hn : out.length + 1 < 2 ^ 32) : (s.holding dest out).put b = s.holding dest (out ++ [b]) := by
  unfold Szp.put Szp.holding
  dsimp only
  rw [yay0Written_put, u32_of_lt hn, List.length_append, List.length_singleton]

theorem Szp.holding_copy {d tmp : Nat} (n : Nat) : ∀ {i : Nat} {out : List UInt8}, 1 ≤ d → tmp + i + d = out.length →
    out.length + n < 2 ^ 32 → (s.holding dest out).copy tmp n i = s.holding dest (copyBack d n out) := by
  induction n with
  | zero => exact fun _ _ _ => rfl
  | succ n ih =>
    intro i out hd hi hn
    have hread : (s.holding dest out).dest (u32 (tmp + i)) = out.getD (out.length - d) default := by
      rw [u32_of_lt (by omega), show out.length - d = tmp + i by omega]
      exact yay0Written_lt (by omega)
    have hlen : (out ++ [out.getD (out.length - d) default]).length = out.length + 1 := List.length_append
    rw [Szp.copy, hread, Szp.holding_put _ (by omega), copyBack]
    exact ih hd (by omega) (by omega)

theorem yay0Link_stand {d n o : Nat} (h : Stand src o (yay0Link (.ref d n))) (hd : 1 ≤ d ∧ d ≤ 4096) (hn : n ≤ 273) :
    be16 (src o) (src (o + 1)) % 4096 = d - 1 ∧ be16 (src o) (src (o + 1)) / 4096 = if n < 18 then n - 2 else 0 := by
  obtain ⟨hhi, h⟩ := stand_cons.mp h
  obtain ⟨hlo, -⟩ := stand_cons.mp h
  have hlt : yay0LinkOf d n < 2 ^ 16 := by
    unfold yay0LinkOf
    split <;> omega
  rw [hhi, hlo, be16_hi_lo hlt]
  unfold yay0LinkOf
  split <;> omega

theorem Szp.token_spec (hmask : s.cmask.testBit 31 = match t with | .lit _ => true | .ref _ _ => false) (ht : yay0Token t)
    (hback : ∀ d n, t = .ref d n → 1 ≤ d ∧ d ≤ out.length) (hlink : Stand src s.loff (yay0Link t))
    (hchunk : Stand src s.coff (yay0Chunk t)) (hlfit : s.loff + (yay0Link t).length < 2 ^ 32)
    (hcfit : s.coff + (yay0Chunk t).length < 2 ^ 32) (hn : (emit out t).length < 2 ^ 32) :
    (s.holding dest out).token src =
      { s with loff := s.loff + (yay0Link t).length, coff := s.coff + (yay0Chunk t).length }.holding dest (emit out t) := by
  rw [emit_length] at hn
  unfold Szp.token
  cases t with
  | lit b =>
    rw [if_pos (show (s.holding dest out).cmask.testBit 31 = true from hmask), Szp.holding_put _ hn,
      show src (s.holding dest out).coff = b from (stand_cons.mp hchunk).1, show u32 ((s.holding dest out).coff + 1) = s.coff + 1 from
        u32_of_lt hcfit]
    rfl
  | ref d n =>
    obtain ⟨hd, h3, h273⟩ := ht
    obtain ⟨h1, hout⟩ := hback d n rfl
    obtain ⟨hmod, hdiv⟩ := yay0Link_stand hlink ⟨h1, hd⟩ h273
    have htmp : uint32 ((out.length : Int) - (d - 1 : Nat) - 1) = out.length - d := by
      change out.length + n < 2 ^ 32 at hn
      rw [uint32_of_range (by omega) (by omega)]
      omega
    have hloff : u32 (s.loff + 2) = s.loff + 2 := u32_of_lt hlfit
    rw [if_neg (show ¬ (s.holding dest out).cmask.testBit 31 = true from fun h => Bool.false_ne_true (hmask.symm.trans h))]
    show (if be16 (src s.loff) (src (s.loff + 1)) / 4096 = 0 then
        ({ s with loff := u32 (s.loff + 2), coff := u32 (s.coff + 1) }.holding dest out).copy
          (uint32 (out.length - (be16 (src s.loff) (src (s.loff + 1)) % 4096 : Nat) - 1)) ((src s.coff).toNat + 18) 0
      else
        ({ s with loff := u32 (s.loff + 2) }.holding dest out).copy
          (uint32 (out.length - (be16 (src s.loff) (src (s.loff + 1)) % 4096 : Nat) - 1))
          (be16 (src s.loff) (src (s.loff + 1)) / 4096 + 2) 0) = _
    rw [hmod, hdiv, htmp, hloff]
    by_cases hshort : n < 18
    · have hnil : yay0Chunk (.ref d n) = [] := if_pos hshort
      rw [if_pos hshort, if_neg (by omega), show n - 2 + 2 = n by omega, Szp.holding_copy n h1 (by omega) hn, hnil]
      rfl
    · -- the length is in the stream of bytes
      have hone : yay0Chunk (.ref d n) = [UInt8.ofNat (n - 18)] := if_neg hshort
      rw [hone] at hchunk hcfit ⊢
      have hbyte : (src s.coff).toNat + 18 = n := by
        rw [(stand_cons.mp hchunk).1, UInt8.toNat_ofNat']
        omega
      rw [if_neg hshort, if_pos rfl, hbyte, Szp.holding_copy n h1 (by omega) hn, show u32 (s.coff + 1) = s.coff + 1 from u32_of_lt hcfit]
      rfl

/-! ## The loop -/

/-- **Between two tokens**: what is before `ts` is decoded, and the three streams are at `ts`. -/
structure Szp.Between (s : Szp) (src : Nat → UInt8) (done ts : List (LzToken UInt8)) : Prop where
  links : Stand src s.loff (yay0Links ts) ∧ s.loff + (yay0Links ts).length < 2 ^ 32
  chunks : Stand src s.coff (yay0Chunks ts) ∧ s.coff + (yay0Chunks ts).length < 2 ^ 32
  word : ∃ w, s.roff = sizeofYay0Header + 4 * w ∧ done.length + s.bcnt = 32 * w ∧ s.bcnt ≤ 32
  mask : ∀ i < s.bcnt, s.cmask.testBit (31 - i) = yay0Flag (done ++ ts) (done.length + i)

theorem yay0Flag_here (done ts : List (LzToken UInt8)) (t : LzToken UInt8) :
    yay0Flag (done ++ t :: ts) done.length = match t with | .lit _ => true | .ref _ _ => false := by
  unfold yay0Flag
  rw [List.getElem?_append_right (Nat.le_refl _), Nat.sub_self]
  cases t <;> rfl

theorem Szp.Between.refill {ts : List (LzToken UInt8)} (h : s.Between src done (t :: ts)) (hat : Yay0At src (done ++ t :: ts)) :
    (s.refill src).Between src done (t :: ts) ∧ 1 ≤ (s.refill src).bcnt := by
  unfold Szp.refill
  by_cases h0 : s.bcnt = 0
  · rw [if_pos h0]
    obtain ⟨w, hroff, hw, -⟩ := h.word
    have hlt : w < yay0Words (done ++ t :: ts) := by
      unfold yay0Words
      rw [List.length_append, List.length_cons]
      omega
    have hfit := hat.flagsFit
    refine ⟨⟨h.links, h.chunks, ⟨w + 1, ?_, ?_, Nat.le_refl _⟩, fun i hi => ?_⟩, Nat.le_of_ble_eq_true rfl⟩
    · show u32 (s.roff + 4) = _
      rw [u32_of_lt (by omega)]
      omega
    · show done.length + 32 = 32 * (w + 1)
      omega
    · show (be32 src s.roff).testBit (31 - i) = _
      rw [hroff, hat.flags w hlt, yay0FlagWord_testBit _ hi]
      exact congrArg _ (by omega)
  · rw [if_neg h0]
    exact ⟨h, Nat.one_le_iff_ne_zero.mpr h0⟩

theorem testBit_shift_word {m i : Nat} (hi : i + 1 < 32) : (u32 (m <<< 1)).testBit (31 - i) = m.testBit (31 - (i + 1)) := by
  unfold u32
  rw [Nat.testBit_mod_two_pow, Nat.testBit_shiftLeft]
  simp only [show 31 - i < 32 by omega, show 31 - i ≥ 1 by omega, decide_true, Bool.true_and]
  rw [show 31 - i - 1 = 31 - (i + 1) by omega]

theorem Szp.round_spec (dest : Nat → UInt8) {ts : List (LzToken UInt8)} (h : s.Between src done (t :: ts)) (hat : Yay0At src (done ++ t :: ts))
    (ht : yay0Token t) (hback : ∀ d n, t = .ref d n → 1 ≤ d ∧ d ≤ out.length) (hn : (emit out t).length < 2 ^ 32) :
    ∃ s' : Szp, (s.holding dest out).round src = s'.holding dest (emit out t) ∧ s'.Between src (done ++ [t]) ts := by
  obtain ⟨⟨⟨hl, hlfit⟩, ⟨hc, hcfit⟩, ⟨w, hroff, hw, hle⟩, hmask⟩, hone⟩ := h.refill hat
  have hlapp : yay0Links (t :: ts) = yay0Link t ++ yay0Links ts := List.flatMap_cons
  have hcapp : yay0Chunks (t :: ts) = yay0Chunk t ++ yay0Chunks ts := List.flatMap_cons
  rw [hlapp, stand_append] at hl
  rw [hcapp, stand_append] at hc
  rw [hlapp, List.length_append] at hlfit
  rw [hcapp, List.length_append] at hcfit
  have hrefill : (s.holding dest out).refill src = (s.refill src).holding dest out := by
    unfold Szp.refill
    by_cases h0 : s.bcnt = 0
    · rw [if_pos h0]
      exact if_pos h0
    · rw [if_neg h0]
      exact if_neg h0
  have hhead := hmask 0 hone
  rw [Nat.add_zero, yay0Flag_here] at hhead
  have htoken : ((s.refill src).holding dest out).token src = _ := Szp.token_spec hhead ht hback hl.1 hc.1 (by omega) (by omega) hn
  unfold Szp.round
  rw [hrefill, htoken]
  refine ⟨{ s.refill src with
    loff := (s.refill src).loff + (yay0Link t).length
    coff := (s.refill src).coff + (yay0Chunk t).length
    cmask := u32 ((s.refill src).cmask <<< 1)
    bcnt := (s.refill src).bcnt - 1 }, rfl, ⟨hl.2, ?_⟩, ⟨hc.2, ?_⟩, ⟨w, hroff, ?_, ?_⟩, fun i hi => ?_⟩
  · dsimp only
    omega
  · dsimp only
    omega
  · dsimp only
    rw [List.length_append, List.length_singleton]
    omega
  · dsimp only
    omega
  · dsimp only at hi ⊢
    rw [testBit_shift_word (by omega), hmask (i + 1) (by omega), List.append_assoc, List.length_append, List.length_singleton,
      Nat.add_assoc, Nat.add_comm 1 i]
    rfl

theorem expand_concat (done : List (LzToken UInt8)) (t : LzToken UInt8) : expand (done ++ [t]) = emit (expand done) t :=
  expand_append done [t]

theorem yay0Token_size (ht : yay0Token t) : 1 ≤ t.size := by
  cases t with
  | lit b => exact Nat.le_refl 1
  | ref d n =>
    have h3 : 3 ≤ n := ht.2.1
    exact Nat.le_trans (by decide) h3

/-- The rounds decode the tokens that are left.  The induction is on them. -/
theorem Szp.run_spec (dest : Nat → UInt8) {tokens : List (LzToken UInt8)} (hat : Yay0At src tokens) (hsize : (expand tokens).length < 2 ^ 32)
    (ts : List (LzToken UInt8)) : ∀ {s : Szp} {done : List (LzToken UInt8)} {t : LzToken UInt8}, done ++ t :: ts = tokens →
      s.Between src done (t :: ts) → Allowed yay0Token (expand done) (t :: ts) →
      ∃ s' : Szp, (s.holding dest (expand done)).run src (expand tokens).length (ts.length + 1) = some s' ∧
        s'.dest = yay0Written dest (expand tokens) := by
  induction ts with
  | nil =>
    intro s done t hts h hall
    subst hts
    rw [expand_concat] at hsize ⊢
    obtain ⟨s', hs', -⟩ := Szp.round_spec dest h hat hall.1.1 hall.1.2 hsize
    refine ⟨s'.holding dest (emit (expand done) t), ?_, rfl⟩
    rw [Szp.run, hs']
    exact if_neg (Nat.lt_irrefl _)
  | cons u ts ih =>
    intro s done t hts h hall
    obtain ⟨⟨ht, hback⟩, hrest⟩ := hall
    have hsplit : (done ++ [t]) ++ u :: ts = tokens := by rw [List.append_assoc, ← hts]; rfl
    have hexp : expand tokens = ts.foldl emit (emit (expand (done ++ [t])) u) := by
      rw [← hsplit, expand_append]
      rfl
    have hle := foldl_emit_length ts (emit (expand (done ++ [t])) u)
    rw [emit_length, ← hexp] at hle
    have hpos := yay0Token_size hrest.1.1
    rw [← expand_concat] at hrest
    subst hts
    obtain ⟨s', hs', hb⟩ := Szp.round_spec dest h hat ht hback (by rw [← expand_concat]; omega)
    obtain ⟨s'', hs'', hd⟩ := ih hsplit hb hrest
    refine ⟨s'', ?_, hd⟩
    rw [List.length_cons, Szp.run, hs', ← expand_concat]
    exact (if_pos (show (expand (done ++ [t])).length < _ by omega)).trans hs''

/-- **A source that holds the tokens is decoded to them**, wherever its streams are. -/
theorem decodeSzp_spec (hat : Yay0At src tokens) (hne : tokens ≠ []) (hall : Allowed yay0Token [] tokens)
    (hsize : (expand tokens).length < 2 ^ 32) : decodeSzp tokens.length src dest = some (yay0Written dest (expand tokens)) := by
  obtain ⟨t, ts, rfl⟩ := List.exists_cons_of_ne_nil hne
  have hb : (Szp.start src dest).Between src [] (t :: ts) :=
    ⟨⟨hat.links, hat.linksFit⟩, ⟨hat.chunks, hat.chunksFit⟩, ⟨0, rfl, rfl, Nat.zero_le _⟩, fun i hi => absurd hi (Nat.not_lt_zero i)⟩
  obtain ⟨s', hs', hd⟩ := Szp.run_spec dest hat hsize ts rfl hb hall
  have hstart : (Szp.start src dest).holding dest (expand ([] : List (LzToken UInt8))) = Szp.start src dest := rfl
  rw [hstart] at hs'
  unfold decodeSzp
  rw [hat.size, List.length_cons, hs', Option.map_some, hd]

/-- **`decode_szp` writes the expansion of the tokens** that were encoded, and nothing beyond it. -/
theorem yay0_decodes (tokens : List (LzToken UInt8)) (hne : tokens ≠ []) (hall : Allowed yay0Token [] tokens)
    (hsize : (expand tokens).length < 2 ^ 32) (hfit : (yay0Encode tokens).length < 2 ^ 32) (src dest : Nat → UInt8)
    (h : Stand src 0 (yay0Encode tokens)) :
    decodeSzp tokens.length src dest = some (yay0Written dest (expand tokens)) :=
  decodeSzp_spec (yay0Encode_at h hsize hfit) hne hall hsize

/-- Two bytes, and a copy of them that is longer than they are. -/
def yay0Example : List (LzToken UInt8) := [.lit 97, .lit 98, .ref 2 19]

theorem yay0_decodes_overlap : decodeSzp 3 (fun i => (yay0Encode yay0Example).getD i 0) (fun _ => 0) =
    some (yay0Written (fun _ => 0) (expand yay0Example)) :=
  yay0_decodes yay0Example (by decide)
    ⟨⟨trivial, fun _ _ h => by cases h⟩, ⟨trivial, fun _ _ h => by cases h⟩, ⟨⟨by decide, by decide, by decide⟩, fun d n h => by
      cases h
      decide⟩, trivial⟩
    (by decide) (by decide) _ _ (by decide)

end Libogc
