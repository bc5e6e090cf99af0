import Libogc.Lib.Words
import Mathlib.Tactic.Common
/-!
# ExiTransfer — how `EXI_DmaEx` splits a buffer

A DMA begins at a multiple of 32 and has a length that is one.  `EXI_DmaEx` takes what is before and behind such a part by immediate transfers
of four bytes at most, and all of a buffer that has no such part (`exi_dmaex_covers`).  What `EXI_Imm`, `EXI_Dma` and the wait for the end of
each come to is an argument; the caches are left out.
-/
namespace Libogc

/-- A transfer that was started: what `EXI_Imm` or `EXI_Dma` was given. -/
structure ExiXfer where
  dma : Bool
  pData : Nat
  nLen : Nat
  nMode : Nat
  deriving DecidableEq, Repr

/-- The address register of a DMA, and the bytes that the control register of an immediate transfer asks for -/
def ExiXfer.mar (x : ExiXfer) : Nat := x.pData &&& 0x1FFFFFE0

def ExiXfer.tlen (x : ExiXfer) : Nat := (x.nLen - 1 &&& 0x03) + 1

/-- What the `i`-th transfer comes to: whether it is started, and whether its end is awaited. -/
structure ExiXfers where
  start : Nat → Bool
  sync : Nat → Bool

/-- `EXI_Imm` and `EXI_Sync`, or `EXI_Dma` and the wait -/
def exiXfer (o : ExiXfers) (x : ExiXfer) (xs : List ExiXfer) : List ExiXfer × Bool :=
  if o.start xs.length then (xs ++ [x], o.sync xs.length) else (xs, false)

/-- `EXI_ImmEx` behind the transfers that were started -/
def exiImmEx (o : ExiXfers) (nMode : Nat) (buf nLen : Nat) (xs : List ExiXfer) : List ExiXfer × Bool :=
  if nLen = 0 then (xs, true)
  else
    let len := if nLen > 4 then 4 else nLen
    let r := exiXfer o ⟨false, buf, len, nMode⟩ xs
    if r.2 then exiImmEx o nMode (u32 (buf + len)) (nLen - len) r.1 else r
termination_by nLen
decreasing_by split <;> omega

/-- `EXI_DmaEx` -/
def exiDmaEx (o : ExiXfers) (pData nLen nMode : Nat) : List ExiXfer × Bool :=
  let len := s32 nLen
  if pData = 0 ∨ len ≤ 0 then ([], false)
  else
    let missalign : Int := (uint32 (-pData) &&& 0x1f : Nat)
    if len - missalign < 32 then exiImmEx o nMode pData (uint32 len) []
    else
      let head := if missalign > 0 then exiImmEx o nMode pData (uint32 missalign) [] else ([], true)
      if !head.2 then head
      else
        let len := s32 (len - missalign)
        let ptr := u32 (pData + uint32 missalign)
        let roundlen := uint32 len &&& 0xffffffe0
        let body := exiXfer o ⟨true, ptr, roundlen, nMode⟩ head.1
        if !body.2 then body
        else
          let len := s32 (len - roundlen)
          let ptr := u32 (ptr + roundlen)
          if len > 0 then exiImmEx o nMode ptr (uint32 len) body.1 else (body.1, true)

/-! ## What is transferred -/

/-- The addresses from one on, as the machine counts them. -/
def exiPlaces (p n : Nat) : List Nat := (List.range n).map fun i => u32 (p + i)

def ExiXfer.places (x : ExiXfer) : List Nat := exiPlaces x.pData x.nLen

/-- A transfer that the hardware can do. -/
structure ExiXfer.Fits (nMode : Nat) (x : ExiXfer) : Prop where
  imm : x.dma = false → 1 ≤ x.nLen ∧ x.nLen ≤ 4 ∧ x.tlen = x.nLen
  dma : x.dma = true → x.pData % 32 = 0 ∧ x.nLen % 32 = 0 ∧ 0 < x.nLen ∧ x.mar = x.pData % 2 ^ 29
  mode : x.nMode = nMode

/-- **A buffer is covered**: the transfers have each byte of it once, in order. -/
structure ExiCovers (nMode p n : Nat) (xs : List ExiXfer) : Prop where
  places : xs.flatMap ExiXfer.places = exiPlaces p n
  fits : ∀ x ∈ xs, x.Fits nMode

section Covers
variable {o : ExiXfers} {nMode p m n : Nat} {xs ys : List ExiXfer}

theorem exiPlaces_add (p m n : Nat) : exiPlaces p (m + n) = exiPlaces p m ++ exiPlaces (u32 (p + m)) n := by
  unfold exiPlaces
  rw [List.range_add, List.map_append, List.map_map]
  congr 1
  apply List.map_congr_left
  intro i _
  rw [u32_add, Nat.add_assoc]
  rfl

theorem ExiCovers.nil : ExiCovers nMode p 0 [] := ⟨rfl, fun _ hx => absurd hx List.not_mem_nil⟩

theorem ExiCovers.append (hx : ExiCovers nMode p m xs) (hy : ExiCovers nMode (u32 (p + m)) n ys) : ExiCovers nMode p (m + n) (xs ++ ys) where
  places := by rw [List.flatMap_append, hx.places, hy.places, exiPlaces_add]
  fits x h := (List.mem_append.1 h).elim (hx.fits x) (hy.fits x)

theorem ExiCovers.single {x : ExiXfer} (h : x.Fits nMode) : ExiCovers nMode x.pData x.nLen [x] where
  places := by simp [ExiXfer.places]
  fits y hy := by
    rw [List.mem_singleton.1 hy]
    exact h

/-- Every step succeeds. -/
def ExiXfers.Succeed (o : ExiXfers) : Prop := ∀ i, o.start i = true ∧ o.sync i = true

theorem exiXfer_succeeds (ho : o.Succeed) (x : ExiXfer) (xs : List ExiXfer) : exiXfer o x xs = (xs ++ [x], true) := by
  unfold exiXfer
  rw [if_pos (ho _).1, (ho _).2]

/-- An immediate transfer of at most four bytes is one that the register has. -/
theorem exiImm_fits {len : Nat} (h1 : 1 ≤ len) (h4 : len ≤ 4) : ExiXfer.Fits nMode ⟨false, p, len, nMode⟩ where
  imm _ := by
    refine ⟨h1, h4, ?_⟩
    have hmask : (len - 1) &&& 0x03 = (len - 1) % 4 := Nat.and_two_pow_sub_one_eq_mod (len - 1) 2
    unfold ExiXfer.tlen
    dsimp only
    rw [hmask]
    omega
  dma h := Bool.noConfusion h
  mode := rfl

theorem exiImmEx_covers (ho : o.Succeed) (p n : Nat) (xs : List ExiXfer) :
    ∃ ys, exiImmEx o nMode p n xs = (xs ++ ys, true) ∧ ExiCovers nMode p n ys ∧ ∀ y ∈ ys, y.dma = false := by
  induction n using Nat.strongRecOn generalizing p xs with
  | ind n ih =>
    rw [exiImmEx]
    by_cases h0 : n = 0
    · subst h0
      exact ⟨[], by simp, .nil, fun _ hy => absurd hy List.not_mem_nil⟩
    · rw [if_neg h0]
      dsimp only
      generalize hlen : (if n > 4 then 4 else n) = len
      have hbounds : 1 ≤ len ∧ len ≤ 4 ∧ len ≤ n := by
        split at hlen <;> omega
      rw [exiXfer_succeeds ho, if_pos rfl]
      obtain ⟨ys, hys, hcovers, himm⟩ := ih (n - len) (by omega) (u32 (p + len)) (xs ++ [⟨false, p, len, nMode⟩])
      refine ⟨⟨false, p, len, nMode⟩ :: ys, ?_, ?_, ?_⟩
      · rw [hys, List.append_assoc]
        rfl
      · have hall := (ExiCovers.single (exiImm_fits hbounds.1 hbounds.2.1)).append hcovers
        dsimp only at hall
        rw [Nat.add_sub_cancel' hbounds.2.2] at hall
        exact hall
      · intro y hy
        rcases List.mem_cons.1 hy with rfl | hy
        · rfl
        · exact himm y hy

theorem exi_missalign (p : Nat) : (uint32 (-p) &&& 0x1f) < 32 ∧ (p + (uint32 (-p) &&& 0x1f)) % 32 = 0 := by
  have hmask : uint32 (-p) &&& 0x1f = uint32 (-p) % 32 := Nat.and_two_pow_sub_one_eq_mod _ 5
  rw [hmask]
  unfold uint32
  omega

theorem exi_roundlen {n : Nat} (hn : n < 2 ^ 32) : n &&& 0xffffffe0 = n / 32 * 32 := by
  apply Nat.eq_of_testBit_eq
  intro i
  have hmask : (0xffffffe0 : Nat) = (2 ^ 27 - 1) * 2 ^ 5 := by decide
  have hn32 : n / 32 * 32 = n / 2 ^ 5 * 2 ^ 5 := rfl
  rw [Nat.testBit_and, hmask, hn32, Nat.testBit_mul_two_pow, Nat.testBit_mul_two_pow, Nat.testBit_two_pow_sub_one, Nat.testBit_div_two_pow]
  by_cases h5 : 5 ≤ i
  · have hplace : i - 5 + 5 = i := by omega
    by_cases h27 : i - 5 < 27
    · simp [h5, h27, hplace]
    · have hhigh : n.testBit i = false := Nat.testBit_lt_two_pow (Nat.lt_of_lt_of_le hn (Nat.pow_le_pow_right (by decide) (by omega)))
      simp [h5, hplace, hhigh]
  · simp [h5]

theorem exiDma_fits {q len : Nat} (hq : q % 32 = 0) (hlen : len % 32 = 0) (hpos : 0 < len) :
    ExiXfer.Fits nMode ⟨true, q, len, nMode⟩ where
  imm h := Bool.noConfusion h
  dma _ := by
    refine ⟨hq, hlen, hpos, ?_⟩
    unfold ExiXfer.mar
    dsimp only
    apply Nat.eq_of_testBit_eq
    intro i
    have hmask : (0x1FFFFFE0 : Nat) = (2 ^ 24 - 1) * 2 ^ 5 := by decide
    rw [Nat.testBit_and, hmask, Nat.testBit_mul_two_pow, Nat.testBit_two_pow_sub_one, Nat.testBit_mod_two_pow]
    by_cases h5 : 5 ≤ i
    · by_cases h29 : i < 29
      · simp [h5, h29, show i - 5 < 24 by omega]
      · simp [h29, show ¬ i - 5 < 24 by omega]
    · -- the low bits are those of a multiple of 32
      have hlow : q.testBit i = false := by
        have hq' : q = q / 2 ^ 5 * 2 ^ 5 := (Nat.div_mul_cancel (Nat.dvd_of_mod_eq_zero hq)).symm
        rw [hq', Nat.testBit_mul_two_pow]
        simp [h5]
      simp [hlow]
  mode := rfl

theorem exiDmaEx_head (ho : o.Succeed) (p : Nat) {ma : Nat} (hma : ma < 32) :
    ∃ hs, (if (ma : Int) > 0 then exiImmEx o nMode p (uint32 ma) [] else ([], true)) = (hs, true) ∧ ExiCovers nMode p ma hs ∧
      ∀ x ∈ hs, x.dma = false := by
  have hu : uint32 ma = ma := by
    rw [uint32_natCast]
    omega
  by_cases h0 : (ma : Int) > 0
  · rw [if_pos h0, hu]
    obtain ⟨hs, heq, hcovers, himm⟩ := @exiImmEx_covers o nMode ho p ma []
    exact ⟨hs, heq, hcovers, himm⟩
  · have hzero : ma = 0 := by omega
    rw [if_neg h0, hzero]
    exact ⟨[], rfl, .nil, fun _ hx => absurd hx List.not_mem_nil⟩

theorem exiDmaEx_tail (ho : o.Succeed) (p : Nat) {n : Nat} (hn : n < 32) (xs : List ExiXfer) :
    ∃ ts, (if (n : Int) > 0 then exiImmEx o nMode p (uint32 n) xs else (xs, true)) = (xs ++ ts, true) ∧ ExiCovers nMode p n ts ∧
      ∀ x ∈ ts, x.dma = false := by
  have hu : uint32 n = n := by
    rw [uint32_natCast]
    omega
  by_cases h0 : (n : Int) > 0
  · rw [if_pos h0, hu]
    exact exiImmEx_covers ho p n xs
  · have hzero : n = 0 := by omega
    rw [if_neg h0, hzero]
    exact ⟨[], by rw [List.append_nil], .nil, fun _ hx => absurd hx List.not_mem_nil⟩

end Covers

/-- **`EXI_DmaEx` covers a buffer**: when every step succeeds, its transfers have each byte of the buffer once, in order; the immediate ones have
one to four bytes, and there is one DMA at most, from a multiple of 32 on and of a length that is one. -/
theorem exi_dmaex_covers {o : ExiXfers} {pData nLen nMode : Nat} (ho : o.Succeed) (hp : 0 < pData) (hp32 : pData < 2 ^ 32) (hpos : 1 ≤ nLen)
    (hlen : nLen < 2 ^ 31) : (exiDmaEx o pData nLen nMode).2 = true ∧ ExiCovers nMode pData nLen (exiDmaEx o pData nLen nMode).1 ∧
      (exiDmaEx o pData nLen nMode).1.countP ExiXfer.dma ≤ 1 := by
  have hnone : ∀ {ys : List ExiXfer}, (∀ y ∈ ys, y.dma = false) → ys.countP ExiXfer.dma = 0 := fun h =>
    List.countP_eq_zero.2 fun y hy => by simp [h y hy]
  obtain ⟨hma, halign⟩ := exi_missalign pData
  have hs : s32 nLen = nLen := s32_of_range (by omega) (by omega)
  have hu : uint32 nLen = nLen := by
    rw [uint32_natCast]
    omega
  unfold exiDmaEx
  dsimp only
  rw [hs, if_neg (by omega)]
  generalize uint32 (-pData) &&& 0x1f = ma at hma halign ⊢
  by_cases hshort : (nLen : Int) - (ma : Int) < 32
  · rw [if_pos hshort, hu]
    obtain ⟨ys, hys, hcovers, himm⟩ := @exiImmEx_covers o nMode ho pData nLen []
    rw [hys]
    exact ⟨rfl, hcovers, by rw [List.nil_append, hnone himm]; exact Nat.zero_le 1⟩
  · rw [if_neg hshort]
    obtain ⟨hs, hhead, hcovers, himm⟩ := @exiDmaEx_head o nMode ho pData ma hma
    have hma32 : uint32 ma = ma := by
      rw [uint32_natCast]
      omega
    obtain ⟨rest, hrest⟩ : ∃ rest : Nat, rest = nLen - ma := ⟨_, rfl⟩
    have hlong : 32 ≤ rest := by omega
    have hleft : s32 ((nLen : Int) - (ma : Int)) = (rest : Int) := by
      rw [s32_of_range (by omega) (by omega)]
      omega
    have hround : uint32 (rest : Int) &&& 0xffffffe0 = rest / 32 * 32 := by
      rw [uint32_natCast, Nat.mod_eq_of_lt (by omega), exi_roundlen (by omega)]
    have htail : s32 ((rest : Int) - (rest / 32 * 32 : Nat)) = (rest % 32 : Nat) := by
      rw [s32_of_range (by omega) (by omega)]
      omega
    rw [hhead, hma32, hleft, hround, exiXfer_succeeds ho, htail]
    have hfits : ExiXfer.Fits nMode ⟨true, u32 (pData + ma), rest / 32 * 32, nMode⟩ :=
      exiDma_fits (by unfold u32; omega) (by omega) (by omega)
    obtain ⟨ts, htailEq, htailCovers, htailImm⟩ := @exiDmaEx_tail o nMode ho (u32 (u32 (pData + ma) + rest / 32 * 32)) (rest % 32)
      (Nat.mod_lt _ (by decide)) (hs ++ [⟨true, u32 (pData + ma), rest / 32 * 32, nMode⟩])
    have hgo : ¬ (!true) = true := by decide
    dsimp only
    rw [htailEq, if_neg hgo, if_neg hgo]
    refine ⟨rfl, ?_, ?_⟩
    · have hall := hcovers.append ((ExiCovers.single hfits).append htailCovers)
      have hlength : ma + (rest / 32 * 32 + rest % 32) = nLen := by omega
      dsimp only at hall
      rw [hlength, ← List.append_assoc] at hall
      exact hall
    · rw [List.countP_append, List.countP_append, hnone himm, hnone htailImm]
      exact Nat.le_refl 1

/-- A buffer with bytes before and behind the part of a DMA. -/
theorem exi_dmaex_covers_both : ExiCovers 0 0x8000001c 40 (exiDmaEx ⟨fun _ => true, fun _ => true⟩ 0x8000001c 40 0).1 :=
  (exi_dmaex_covers (fun _ => ⟨rfl, rfl⟩) (by decide) (by decide) (by decide) (by decide)).2.1

end Libogc
