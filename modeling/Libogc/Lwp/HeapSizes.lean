import Libogc.Lwp.HeapRuns
/-!
# HeapSizes — what an allocation gets

The block that an allocation takes has the size that the request comes to in 32 bits.  Only the request itself is bounded, so
what it comes to can be short of it; the block is then short too, and its user's bytes run over the next block.
-/
namespace Libogc

variable {h start final pg : Nat} {m : Words} {bs : List HeapBlock} {fl : List Nat}

/-- What an allocation takes of a free block of `s` bytes: the end of it, or the whole. -/
def heapTaken (pgSize dsize s : Nat) : Nat := if s - dsize > u32 (pgSize + heapBlockUsedOverhead) then dsize else s

/-- Where the user part of what it takes starts, in a free block at `block`. -/
def heapTakenUser (pgSize dsize block s : Nat) : Nat := block + (s - heapTaken pgSize dsize s) + 8

def heapOffset (pgSize ptr : Nat) : Nat := pgSize - (ptr &&& (pgSize - 1))

/-- The user's bytes lie in the block that the pointer leads to, before the next block's header. -/
def heapInside (m : Words) (ptr size : Nat) : Prop :=
  lwpHeapUsrblockat m ptr + 8 ≤ ptr ∧ ptr + size ≤ lwpHeapNextblock m (lwpHeapUsrblockat m ptr)

instance (m : Words) (ptr size : Nat) : Decidable (heapInside m ptr size) := inferInstanceAs (Decidable (_ ∧ _))

/-- A free block that has room for the request with what is taken of it, or whose pointer comes out as `NULL`. -/
def heapSpares (pgSize size block s : Nat) : Prop :=
  let dsize := lwpHeapDsize pgSize size
  let ptr := heapTakenUser pgSize dsize block s
  8 + heapOffset pgSize ptr + size ≤ heapTaken pgSize dsize s ∨ ptr + heapOffset pgSize ptr = 2 ^ 32

/-! ## What is taken -/

variable {dsize s size : Nat} {b : HeapBlock}

theorem heapTaken_bounds (pg : Nat) (hge : dsize ≤ s) (hd4 : dsize % 4 = 0) (hs4 : s % 4 = 0) :
    dsize ≤ heapTaken pg dsize s ∧ heapTaken pg dsize s ≤ s ∧ heapTaken pg dsize s % 4 = 0 := by
  unfold heapTaken
  split <;> omega

theorem heapOffset_bounds (h8 : pg % 8 = 0) (hpos : 0 < pg) (ptr : Nat) (h4 : ptr % 4 = 0) :
    4 ≤ heapOffset pg ptr ∧ heapOffset pg ptr ≤ pg ∧ heapOffset pg ptr % 4 = 0 := by
  have hle : ptr &&& (pg - 1) ≤ pg - 1 := Nat.and_le_right
  have hmod : (ptr &&& (pg - 1)) % 2 ^ 2 = ptr % 2 ^ 2 &&& (pg - 1) % 2 ^ 2 := Nat.and_mod_two_pow ..
  rw [show ptr % 2 ^ 2 = 0 from h4, Nat.zero_and] at hmod
  unfold heapOffset
  omega

theorem HeapShape.taken (pg : Nat) (hr : HeapRoom h start final) (hi : HeapShape h start final m bs fl) (hb : b ∈ bs)
    (hu : b.use = none) (hd4 : dsize % 4 = 0) (h16 : 16 ≤ dsize) (hge : dsize ≤ b.size) :
    ∃ m', lwpHeapTake m pg dsize b.addr = (m', heapTakenUser pg dsize b.addr b.size) ∧
      m' (heapTakenUser pg dsize b.addr b.size - 4) = heapTaken pg dsize b.size + 1 := by
  have htop := hr.top
  have hbo := hi.tags b hb
  have hbig := hbo.big
  have heven := hbo.even
  have hbb := hi.tiled.bounds b hb
  have hfront : m (b.addr + 4) = b.size := by
    rw [hbo.front, HeapBlock.flag, hu]
    rfl
  unfold heapTakenUser heapTaken
  by_cases hcut : b.size - dsize > u32 (pg + heapBlockUsedOverhead)
  · have hsz : b.size = (b.size - dsize) + dsize := by omega
    rw [if_pos hcut, lwpHeapTake_end (hfront.trans hsz) hcut (by omega) hd4 (by omega)]
    refine ⟨_, rfl, ?_⟩
    rw [Words.set_ne _ _ (by omega), show b.addr + (b.size - dsize) + 8 - 4 = b.addr + (b.size - dsize) + 4 by omega,
      Words.set_self]
  · obtain ⟨f₁, f₂, rfl, hpv, hnx⟩ := hi.free_node hb hu
    obtain ⟨⟨hpvm, hpvy⟩, ⟨hnxm, hnxy⟩, -⟩ := hi.neighbours hr
    have hpvf := hi.node_far hr hb hpvm hpvy
    have hnxf := hi.node_far hr hb hnxm hnxy
    rw [if_neg hcut, lwpHeapTake_whole hfront hcut heven hbig (by omega) hnx hpv (by omega), Nat.sub_self]
    refine ⟨_, rfl, ?_⟩
    rw [Words.set_ne _ _ (by omega), Words.set_ne _ _ (by omega), show b.addr + 0 + 8 - 4 = b.addr + 4 by omega,
      Words.set_self]

theorem HeapShape.allocated (hr : HeapRoom h start final) (hi : HeapShape h start final m bs fl) (h8 : m (h + 20) % 8 = 0)
    (hpos : 0 < m (h + 20)) (h32 : m (h + 20) < 2 ^ 32) (hb : b ∈ bs) (hu : b.use = none)
    (hlim : size < 2 ^ 32 - 1 - heapBlockUsedOverhead)
    (hfind : lwpHeapFind m h (lwpHeapDsize (m (h + 20)) size) (m (h + 4)) (m (h + 8)) = some b.addr)
    (hge : lwpHeapDsize (m (h + 20)) size ≤ b.size) :
    ∃ p, (lwpHeapAllocate m h size).2 = some p ∧ (final + m (h + 20) ≤ 2 ^ 32 → p ≠ 0) ∧
      ((p ≠ 0 → heapInside (lwpHeapAllocate m h size).1 p size) ↔ heapSpares (m (h + 20)) size b.addr b.size) := by
  have htop := hr.top
  have hbo := hi.tags b hb
  have heven := hbo.even
  have hbb := hi.tiled.bounds b hb
  have ha4 := hi.tiled.addr_mod hr.aligned (fun c hc => (hi.tags c hc).even) b hb
  have hd := lwpHeapDsize_eq hpos size
  obtain ⟨-, -, hR8⟩ := heapRounding_bounds h8 hpos size
  have hR4 : u32 (heapRounding (m (h + 20)) size) % 4 = 0 := by
    unfold u32
    omega
  unfold heapSpares
  unfold lwpHeapAllocate
  rw [if_neg (by omega)]
  simp only [hfind]
  set pg := m (h + 20)
  set dsize := lwpHeapDsize pg size
  obtain ⟨t1, t2, t4⟩ := heapTaken_bounds pg hge (by omega) hbo.even
  obtain ⟨m', htake, htag⟩ := hi.taken pg hr hb hu (by omega) (by omega) hge
  simp only [htake]
  set t := heapTaken pg dsize b.size
  have hptr : heapTakenUser pg dsize b.addr b.size = b.addr + (b.size - t) + 8 := rfl
  set ptr := heapTakenUser pg dsize b.addr b.size
  have hoff : pg - (ptr &&& (pg - 1)) = heapOffset pg ptr := rfl
  obtain ⟨o4, op, om⟩ := heapOffset_bounds h8 hpos ptr (by omega)
  rw [hoff]
  set off := heapOffset pg ptr
  refine ⟨_, rfl, fun hlast => ?_, ?_⟩
  · unfold u32
    omega
  -- the pointer leads back to the block, whose tag the offset has not overwritten
  have hblock : u32 (ptr + off) ≠ 0 → lwpHeapUsrblockat (m'.set (u32 (ptr + off) - 4) off) (u32 (ptr + off)) = ptr - 8 := by
    intro h0
    unfold lwpHeapUsrblockat lwpHeapBlockat
    simp only [Words.set_self, show heapBlockUsedOverhead = 8 from rfl]
    unfold u32 at h0 ⊢
    omega
  have hnext : u32 (ptr + off) ≠ 0 → lwpHeapNextblock (m'.set (u32 (ptr + off) - 4) off) (ptr - 8) = ptr - 8 + t := by
    intro h0
    have hne : ptr - 8 + 4 ≠ u32 (ptr + off) - 4 := by
      unfold u32 at h0 ⊢
      omega
    rw [lwpHeapNextblock, Words.set_ne _ _ hne, show ptr - 8 + 4 = ptr - 4 by omega, htag, flagSize_used (by omega) t4,
      u32_of_lt (by omega)]
  unfold heapInside
  constructor
  · intro himp
    by_cases h0 : u32 (ptr + off) = 0
    · refine .inr ?_
      unfold u32 at h0
      omega
    · obtain ⟨h1, h2⟩ := himp h0
      rw [hblock h0] at h1 h2
      rw [hnext h0] at h2
      refine .inl ?_
      unfold u32 at h1 h2
      omega
  · rintro (hroom | hnull) h0
    · rw [hblock h0, hnext h0, u32_of_lt (by omega)]
      omega
    · exact absurd (by rw [hnull]; rfl) h0

/-- A request that comes to more than 32 bits is spared only by pages of more than a gigabyte, or by ones that reach behind the
address space. -/
theorem heapSpares_page {block : Nat} (h8 : pg % 8 = 0) (hpos : 0 < pg) (hge : lwpHeapDsize pg size ≤ s) (hs4 : s % 4 = 0)
    (hb4 : block % 4 = 0) (hz : block + s ≤ final) (hover : 2 ^ 32 ≤ heapRounding pg size) (hsp : heapSpares pg size block s) :
    2 ^ 30 < pg ∨ 2 ^ 32 < final + pg := by
  have hd := lwpHeapDsize_eq hpos size
  obtain ⟨-, hR, hR8⟩ := heapRounding_bounds h8 hpos size
  have hu : u32 (heapRounding pg size) ≤ heapRounding pg size - 2 ^ 32 := by
    unfold u32
    omega
  have hu4 : u32 (heapRounding pg size) % 4 = 0 := by
    unfold u32
    omega
  have hwrap : u32 (pg + heapBlockUsedOverhead) ≤ pg + 8 := Nat.mod_le ..
  unfold heapSpares at hsp
  dsimp only at hsp
  obtain ⟨t1, t2, t4⟩ := heapTaken_bounds pg hge (by omega) hs4
  have ht : heapTaken pg (lwpHeapDsize pg size) s ≤ lwpHeapDsize pg size + (pg + 8) := by
    unfold heapTaken
    split <;> omega
  have hptr : heapTakenUser pg (lwpHeapDsize pg size) block s = block + (s - heapTaken pg (lwpHeapDsize pg size) s) + 8 := rfl
  obtain ⟨o4, op, -⟩ := heapOffset_bounds h8 hpos (heapTakenUser pg (lwpHeapDsize pg size) block s) (by omega)
  omega

theorem lwpHeapAllocate_none (hn : (lwpHeapAllocate m h size).2 = none) : lwpHeapAllocate m h size = (m, none) := by
  unfold lwpHeapAllocate at hn ⊢
  split
  · rfl
  · rename_i hlim
    rw [if_neg hlim] at hn
    dsimp only at hn ⊢
    cases hf : lwpHeapFind m h (lwpHeapDsize (m (h + 20)) size) (m (h + 4)) (m (h + 8)) with
    | none => rfl
    | some block =>
      rw [hf] at hn
      cases hn

/-- **The search** finds a free block that is large enough, unless there is none. -/
theorem HeapShape.search (hr : HeapRoom h start final) (hi : HeapShape h start final m bs fl) (dsize : Nat) :
    (lwpHeapFind m h dsize (m (h + 4)) (m (h + 8)) = none ∧ ∀ b ∈ bs, b.use = none → b.size < dsize) ∨
      ∃ b ∈ bs, b.use = none ∧ dsize ≤ b.size ∧ lwpHeapFind m h dsize (m (h + 4)) (m (h + 8)) = some b.addr := by
  have hsize : ∀ b ∈ bs, b.use = none → m (b.addr + 4) = b.size := fun b hb hu => by
    rw [(hi.tags b hb).front, HeapBlock.flag, hu]
    rfl
  rw [hi.find hr dsize]
  cases hf : fl.find? fun x => decide (dsize ≤ m (x + 4)) with
  | none =>
    refine .inl ⟨rfl, fun b hb hu => ?_⟩
    have hm : b.addr ∈ fl := (hi.free.mem_iff).2 (List.mem_map.2 ⟨b, List.mem_filter.2 ⟨hb, by rw [hu]; rfl⟩, rfl⟩)
    have := List.find?_eq_none.1 hf _ hm
    rw [hsize b hb hu] at this
    simpa using this
  | some x =>
    have hge : dsize ≤ m (x + 4) := by simpa using List.find?_some hf
    obtain ⟨b, hb, rfl, hu, -⟩ := hi.node (List.mem_of_find?_eq_some hf)
    rw [hsize b hb hu] at hge
    exact .inr ⟨b, hb, hu, hge, rfl⟩

/-- **An allocation** gets nothing, and why, or it gets the free block that was found. -/
theorem HeapShape.allocate_cases (hr : HeapRoom h start final) (hi : HeapShape h start final m bs fl)
    (h8 : m (h + 20) % 8 = 0) (hpos : 0 < m (h + 20)) (h32 : m (h + 20) < 2 ^ 32) (size : Nat) :
    ((lwpHeapAllocate m h size).2 = none ∧ (2 ^ 32 - 1 - heapBlockUsedOverhead ≤ size ∨
      ∀ b ∈ bs, b.use = none → b.size < lwpHeapDsize (m (h + 20)) size)) ∨
    ∃ b ∈ bs, size < 2 ^ 32 - 1 - heapBlockUsedOverhead ∧ b.use = none ∧ lwpHeapDsize (m (h + 20)) size ≤ b.size ∧
      lwpHeapFind m h (lwpHeapDsize (m (h + 20)) size) (m (h + 4)) (m (h + 8)) = some b.addr ∧
      ∃ p, (lwpHeapAllocate m h size).2 = some p ∧ (final + m (h + 20) ≤ 2 ^ 32 → p ≠ 0) ∧
        ((p ≠ 0 → heapInside (lwpHeapAllocate m h size).1 p size) ↔ heapSpares (m (h + 20)) size b.addr b.size) := by
  by_cases hlim : 2 ^ 32 - 1 - heapBlockUsedOverhead ≤ size
  · rw [lwpHeapAllocate, if_pos hlim]
    exact .inl ⟨rfl, .inl hlim⟩
  rcases hi.search hr (lwpHeapDsize (m (h + 20)) size) with ⟨hfind, hnone⟩ | ⟨b, hb, hu, hge, hfind⟩
  · refine .inl ⟨?_, .inr hnone⟩
    unfold lwpHeapAllocate
    rw [if_neg hlim]
    simp only [hfind]
  · exact .inr ⟨b, hb, by omega, hu, hge, hfind, hi.allocated hr h8 hpos h32 hb hu (by omega) hfind hge⟩

/-- **What an allocation gets.**  The user's bytes lie inside the block exactly when the request is refused, or what it comes to
is a number of 32 bits, or no free block is as large as what is left of that, or the first that is has room enough all the
same. -/
theorem heap_allocate_inside {size : Nat} (hr : HeapRoom h start final) (hi : HeapShape h start final m bs fl)
    (hpage : lwpHeapPgsizeValid (m (h + 20)) = true) (h32 : m (h + 20) < 2 ^ 32) :
    (∀ p, (lwpHeapAllocate m h size).2 = some p → p ≠ 0 → heapInside (lwpHeapAllocate m h size).1 p size) ↔
      2 ^ 32 - 1 - heapBlockUsedOverhead ≤ size ∨ heapRounding (m (h + 20)) size < 2 ^ 32 ∨
        (∀ b ∈ bs, b.use = none → b.size < lwpHeapDsize (m (h + 20)) size) ∨
        (2 ^ 30 < m (h + 20) ∨ 2 ^ 32 < final + m (h + 20)) ∧
          ∃ b ∈ bs, lwpHeapFind m h (lwpHeapDsize (m (h + 20)) size) (m (h + 4)) (m (h + 8)) = some b.addr ∧
            heapSpares (m (h + 20)) size b.addr b.size := by
  have hvalid : m (h + 20) ≠ 0 ∧ m (h + 20) % 8 = 0 := by simpa [lwpHeapPgsizeValid] using hpage
  obtain ⟨hne, h8⟩ := hvalid
  have hpos := Nat.pos_of_ne_zero hne
  rcases hi.allocate_cases hr h8 hpos h32 size with ⟨hn, hwhy⟩ | ⟨b, hb, hlim, hu, hge, hfind, p, hp, -, hiff⟩
  · refine ⟨fun _ => ?_, fun _ p hp => by rw [hn] at hp; cases hp⟩
    rcases hwhy with hlim | hnone
    · exact .inl hlim
    · exact .inr (.inr (.inl hnone))
  · have hall : (∀ p, (lwpHeapAllocate m h size).2 = some p → p ≠ 0 → heapInside (lwpHeapAllocate m h size).1 p size) ↔
        heapSpares (m (h + 20)) size b.addr b.size := by
      rw [← hiff, hp]
      exact ⟨fun hq => hq p rfl, fun hq q hqp => by obtain rfl := Option.some.inj hqp; exact hq⟩
    rw [hall]
    have ha4 := hi.tiled.addr_mod hr.aligned (fun c hc => (hi.tags c hc).even) b hb
    constructor
    · intro hsp
      by_cases hfit : heapRounding (m (h + 20)) size < 2 ^ 32
      · exact .inr (.inl hfit)
      · refine .inr (.inr (.inr ⟨?_, b, hb, hfind, hsp⟩))
        exact heapSpares_page h8 hpos hge (hi.tags b hb).even ha4 (hi.tiled.bounds b hb).2 (by omega) hsp
    · rintro (hlt | hfit | hnone | ⟨-, c, hc, hfc, hsp⟩)
      · omega
      · -- the block is as large as the request with the longest offset
        obtain ⟨hd, hd4, hd16, -⟩ := lwpHeapDsize_spec h8 hpos hfit
        obtain ⟨t1, t2, t4⟩ := heapTaken_bounds (m (h + 20)) hge hd4 (hi.tags b hb).even
        have heven := (hi.tags b hb).even
        have hptr : heapTakenUser (m (h + 20)) (lwpHeapDsize (m (h + 20)) size) b.addr b.size =
          b.addr + (b.size - heapTaken (m (h + 20)) (lwpHeapDsize (m (h + 20)) size) b.size) + 8 := rfl
        obtain ⟨-, op, -⟩ := heapOffset_bounds h8 hpos
          (heapTakenUser (m (h + 20)) (lwpHeapDsize (m (h + 20)) size) b.addr b.size) (by omega)
        refine .inl ?_
        show 8 + heapOffset (m (h + 20)) (heapTakenUser (m (h + 20)) (lwpHeapDsize (m (h + 20)) size) b.addr b.size) + size ≤ _
        omega
      · exact absurd (hnone b hb hu) (by omega)
      · have he : b.addr = c.addr := Option.some.inj (hfind.symm.trans hfc)
        have hbig := (hi.tags b hb).big
        have hcbig := (hi.tags c hc).big
        rcases hi.tiled.apart hb hc with rfl | hlt | hlt
        · exact hsp
        · omega
        · omega

theorem heapStart_small : HeapShape 0 32 88 (heapStart (fun _ => 0) 0 32 64 8).mem [⟨32, 56, none⟩] [32] := by
  have hp : HeapPlace 0 32 (32 + (64 - 8)) 8 := ⟨⟨3, rfl⟩, by decide, by decide, by decide, by decide⟩
  exact (heapStart_inv (fun _ => 0) hp (by decide) (by decide)).shape

/-- A request of ten bytes to a new heap. -/
theorem heap_allocate_inside_ten : heapInside (lwpHeapAllocate (heapStart (fun _ => 0) 0 32 64 8).mem 0 10).1 72 10 :=
  (heap_allocate_inside (HeapPlace.room ⟨⟨3, rfl⟩, by decide, by decide, by decide, by decide⟩) heapStart_small
    (by decide +kernel) (by decide +kernel)).2 (.inr (.inl (by decide +kernel))) 72 (by decide +kernel) (by decide)

/-- A request of sixteen bytes less than the address space is given the smallest block. -/
theorem heap_allocate_short :
    HeapShape 0 32 88 (heapStart (fun _ => 0) 0 32 64 8).mem [⟨32, 56, none⟩] [32] ∧
      (lwpHeapAllocate (heapStart (fun _ => 0) 0 32 64 8).mem 0 (2 ^ 32 - 16)).2 = some 88 ∧
      ¬ heapInside (lwpHeapAllocate (heapStart (fun _ => 0) 0 32 64 8).mem 0 (2 ^ 32 - 16)).1 88 (2 ^ 32 - 16) := by
  exact ⟨heapStart_small, by decide +kernel, by decide +kernel⟩

end Libogc
