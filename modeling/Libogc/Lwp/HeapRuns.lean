import Libogc.Lib.Chains
import Libogc.Lwp.Heap
/-!
# HeapRuns — the blocks of a heap

`HeapInv` reads the memory as a list of blocks that tile the region, each with its tags, and as the free list that links the
free ones.  A block owns the words from its own size to the next block's copy of it; an operation rewrites a few neighbouring
blocks inside the words they own, and some links, and leaves every other block as it is (`HeapInv.rewrite`).
-/
namespace Libogc

open Runs Chains

/-! ## Flags -/

variable {n a x y size dsize nx s : Nat} {m m' : Words} {P : Nat → Prop} {f₁ f₂ : List Nat} {p u : Nat × Nat}

theorem flagSize_eq (hn : n < 2 ^ 32) : flagSize n = n - n % 2 := by
  have hk : 2 ^ 32 - 1 - heapBlockUsed = 2 * (2 ^ 31 - 1) := by decide
  have hdiv : flagSize n / 2 = n / 2 := by
    have h1 : flagSize n / 2 ^ 1 = n / 2 ^ 1 &&& (2 ^ 32 - 1 - heapBlockUsed) / 2 ^ 1 := Nat.and_div_two_pow ..
    rw [hk, show 2 * (2 ^ 31 - 1) / 2 ^ 1 = 2 ^ 31 - 1 by decide, Nat.and_two_pow_sub_one_eq_mod] at h1
    omega
  have hmod : flagSize n % 2 = 0 := by
    have h1 : flagSize n % 2 ^ 1 = n % 2 ^ 1 &&& (2 ^ 32 - 1 - heapBlockUsed) % 2 ^ 1 := Nat.and_mod_two_pow ..
    rw [hk, show 2 * (2 ^ 31 - 1) % 2 ^ 1 = 0 by decide, Nat.and_zero] at h1
    omega
  omega

theorem lwpHeapBuildflag_used (hn : n % 2 = 0) : lwpHeapBuildflag n heapBlockUsed = n + 1 := by
  have h1 := Nat.two_pow_add_eq_or_of_lt (i := 1) (b := 1) (by decide) (n / 2)
  have h2 : 2 ^ 1 * (n / 2) = n := by omega
  rw [h2] at h1
  exact h1.symm

theorem and_heapBlockUsed (n : Nat) : n &&& heapBlockUsed = n % 2 := Nat.and_one_is_mod n

/-! ## Blocks -/

/-- A block of a heap.  `use` is the offset and the size that a block in use was given to its user with. -/
structure HeapBlock where
  addr : Nat
  size : Nat
  use : Option (Nat × Nat)
  deriving DecidableEq, Repr

def HeapBlock.flag (b : HeapBlock) : Nat := b.size + if b.use.isSome then heapBlockUsed else 0

/-- The user's pointer, and the size asked for. -/
def HeapBlock.live (b : HeapBlock) : Option (Nat × Nat) := b.use.map fun u => (b.addr + 8 + u.1, u.2)

/-- **The words of a block**: its tags, and the offset before the user's pointer. -/
structure HeapBlock.Ok (pg : Nat) (m : Words) (b : HeapBlock) : Prop where
  big : 16 ≤ b.size
  even : b.size % 4 = 0
  front : m (b.addr + 4) = b.flag
  back : m (b.addr + b.size) = b.flag
  user : ∀ u, b.use = some u → 4 ≤ u.1 ∧ u.1 ≤ pg ∧ m (b.addr + 4 + u.1) = u.1 ∧ (b.addr + 8 + u.1) % pg = 0 ∧
    8 + u.1 + u.2 ≤ b.size

/-- The same without regard to pages. -/
structure HeapBlock.Tagged (m : Words) (b : HeapBlock) : Prop where
  big : 16 ≤ b.size
  even : b.size % 4 = 0
  front : m (b.addr + 4) = b.flag
  back : m (b.addr + b.size) = b.flag
  user : ∀ u, b.use = some u → 4 ≤ u.1 ∧ m (b.addr + 4 + u.1) = u.1 ∧ 8 + u.1 + u.2 ≤ b.size

variable {b : HeapBlock}

theorem HeapBlock.Ok.tagged {pg : Nat} (h : b.Ok pg m) : b.Tagged m := by
  refine ⟨h.big, h.even, h.front, h.back, fun u hu => ?_⟩
  obtain ⟨h1, -, h3, -, h5⟩ := h.user u hu
  exact ⟨h1, h3, h5⟩

theorem HeapBlock.Ok.frame {pg : Nat} (h : b.Ok pg m) (h1 : m' (b.addr + 4) = m (b.addr + 4))
    (h2 : m' (b.addr + b.size) = m (b.addr + b.size)) (h3 : b.use.isSome → ∀ a, b.addr + 8 ≤ a → a < b.addr + b.size → m' a = m a) :
    b.Ok pg m' := by
  refine ⟨h.big, h.even, h1.trans h.front, h2.trans h.back, fun u hu => ?_⟩
  obtain ⟨c1, c2, c3, c4, c5⟩ := h.user u hu
  refine ⟨c1, c2, ?_, c4, c5⟩
  rw [h3 (by rw [hu]; rfl) _ (by omega) (by omega)]
  exact c3

/-- The blocks fill the addresses from `a` to `z`. -/
def Tiled : Nat → List HeapBlock → Nat → Prop
  | a, [], z => a = z
  | a, b :: bs, z => b.addr = a ∧ Tiled (a + b.size) bs z

theorem Tiled.append : ∀ {l₁ l₂ : List HeapBlock} {a z : Nat}, Tiled a (l₁ ++ l₂) z ↔ ∃ c, Tiled a l₁ c ∧ Tiled c l₂ z
  | [], _, a, _ => by simp [Tiled]
  | b :: l₁, l₂, a, z => by
    simp only [List.cons_append, Tiled, @Tiled.append l₁]
    constructor
    · rintro ⟨h1, c, h2, h3⟩
      exact ⟨c, ⟨h1, h2⟩, h3⟩
    · rintro ⟨c, ⟨h1, h2⟩, h3⟩
      exact ⟨h1, c, h2, h3⟩

theorem Tiled.le : ∀ {bs : List HeapBlock} {a z : Nat}, Tiled a bs z → a ≤ z
  | [], _, _, h => le_of_eq h
  | b :: bs, a, z, h => by
    have := Tiled.le h.2
    omega

theorem Tiled.bounds : ∀ {bs : List HeapBlock} {a z : Nat}, Tiled a bs z → ∀ b ∈ bs, a ≤ b.addr ∧ b.addr + b.size ≤ z
  | [], _, _, _, b, hb => by cases hb
  | c :: bs, a, z, h, b, hb => by
    rcases List.mem_cons.1 hb with rfl | hb
    · have := Tiled.le h.2
      have := h.1
      omega
    · have := Tiled.bounds h.2 b hb
      omega

variable {c : HeapBlock}

variable {z v pv sc sa : Nat} {mid mid' : List HeapBlock} {fl' : List Nat} {live' : List (Nat × Nat)}

theorem Tiled.apart {bs : List HeapBlock} (h : Tiled a bs z) (hb : b ∈ bs) (hc : c ∈ bs) :
    b = c ∨ b.addr + b.size ≤ c.addr ∨ c.addr + c.size ≤ b.addr := by
  obtain ⟨l₁, l₂, rfl⟩ := List.append_of_mem hb
  obtain ⟨d, h1, h2⟩ := Tiled.append.1 h
  have hd : b.addr = d := h2.1
  rcases List.mem_append.1 hc with hc | hc
  · have := h1.bounds c hc
    omega
  · rcases List.mem_cons.1 hc with rfl | hc
    · exact .inl rfl
    · have := h2.2.bounds c hc
      omega

/-! ## The heap -/

/-- Where a heap can be: its words are inside the address space and outside its control block, and pages are a power of two. -/
structure HeapPlace (h start final pg : Nat) : Prop where
  page : ∃ n, pg = 2 ^ n
  eight : 8 ≤ pg
  aligned : start % 4 = 0
  top : final + 8 ≤ 2 ^ 32
  outside : h + 24 ≤ start ∨ final + 8 ≤ h

/-- The place of a heap whose pages may be of any size. -/
structure HeapRoom (h start final : Nat) : Prop where
  aligned : start % 4 = 0
  top : final + 8 ≤ 2 ^ 32
  outside : h + 24 ≤ start ∨ final + 8 ≤ h

theorem HeapPlace.room {h start final pg : Nat} (hp : HeapPlace h start final pg) : HeapRoom h start final :=
  ⟨hp.aligned, hp.top, hp.outside⟩

/-- The words of a list's nodes that hold its links. -/
def nextWord (b : Nat) : Nat := b + 8
def prevWord (b : Nat) : Nat := b + 12

def freeBlocks (bs : List HeapBlock) : List HeapBlock := bs.filter (·.use.isNone)

/-- **The invariant of a heap.** -/
structure HeapInv (h start final pg : Nat) (m : Words) (bs : List HeapBlock) (fl : List Nat) (live : List (Nat × Nat)) :
    Prop where
  ctrl : m h = start ∧ m (h + 4) = final ∧ m (h + 20) = pg
  tiled : Tiled start bs final
  ok : ∀ b ∈ bs, b.Ok pg m
  ends : m start = heapDummyFlag ∧ m (final + 4) = heapDummyFlag
  spaced : bs.IsChain fun b c => b.use.isSome ∨ c.use.isSome
  list : Linked nextWord prevWord m (h :: (fl ++ [h + 4]))
  free : fl.Perm ((freeBlocks bs).map (·.addr))
  live : live.Perm (bs.filterMap HeapBlock.live)

/-- **A consistent heap**, whatever its page size: blocks that tile it with agreeing tags, no two free ones next to each
other, and the free list of the free ones. -/
structure HeapShape (h start final : Nat) (m : Words) (bs : List HeapBlock) (fl : List Nat) : Prop where
  ctrl : m h = start ∧ m (h + 4) = final
  tiled : Tiled start bs final
  tags : ∀ b ∈ bs, b.Tagged m
  ends : m start = heapDummyFlag ∧ m (final + 4) = heapDummyFlag
  spaced : bs.IsChain fun b c => b.use.isSome ∨ c.use.isSome
  list : Linked nextWord prevWord m (h :: (fl ++ [h + 4]))
  free : fl.Perm ((freeBlocks bs).map (·.addr))

variable {h start final pg : Nat} {m m' : Words} {bs : List HeapBlock} {fl : List Nat} {live : List (Nat × Nat)}

theorem HeapInv.shape (hi : HeapInv h start final pg m bs fl live) : HeapShape h start final m bs fl :=
  ⟨⟨hi.ctrl.1, hi.ctrl.2.1⟩, hi.tiled, fun b hb => (hi.ok b hb).tagged, hi.ends, hi.spaced, hi.list, hi.free⟩

theorem HeapShape.node (hi : HeapShape h start final m bs fl) (hx : x ∈ fl) :
    ∃ b ∈ bs, b.addr = x ∧ b.use = none ∧ start ≤ x ∧ x + 16 ≤ final ∧ x + b.size ≤ final ∧ 16 ≤ b.size := by
  obtain ⟨b, hb, rfl⟩ := List.mem_map.1 ((hi.free.mem_iff).1 hx)
  obtain ⟨hb, hu⟩ := List.mem_filter.1 hb
  have h1 := hi.tiled.bounds b hb
  have h2 := (hi.tags b hb).big
  exact ⟨b, hb, rfl, by simpa using hu, h1.1, by omega, h1.2, h2⟩

theorem Tiled.addr_nodup : ∀ {bs : List HeapBlock} {a z : Nat}, Tiled a bs z → (∀ b ∈ bs, 16 ≤ b.size) →
    (bs.map (·.addr)).Nodup
  | [], _, _, _, _ => List.nodup_nil
  | b :: bs, a, z, h, hs => by
    rw [List.map_cons, List.nodup_cons]
    refine ⟨fun hm => ?_, Tiled.addr_nodup h.2 fun c hc => hs c (List.mem_cons_of_mem _ hc)⟩
    obtain ⟨c, hc, he⟩ := List.mem_map.1 hm
    have h1 := Tiled.bounds h.2 c hc
    have h2 := hs b List.mem_cons_self
    have h3 := h.1
    omega

theorem HeapShape.fl_nodup (hi : HeapShape h start final m bs fl) : fl.Nodup := by
  rw [hi.free.nodup_iff]
  refine (hi.tiled.addr_nodup fun b hb => (hi.tags b hb).big).sublist ?_
  exact (List.filter_sublist).map _

theorem HeapShape.nodes_apart (hi : HeapShape h start final m bs fl) (hx : x ∈ fl) (hy : y ∈ fl) : x = y ∨ x + 16 ≤ y ∨ y + 16 ≤ x := by
  obtain ⟨b, hb, rfl, -, -, -, -, hbs⟩ := hi.node hx
  obtain ⟨c, hc, rfl, -, -, -, -, hcs⟩ := hi.node hy
  rcases hi.tiled.apart hb hc with he | he | he
  · exact .inl (by rw [he])
  · omega
  · omega

theorem HeapShape.node_block (hi : HeapShape h start final m bs fl) (hx : x ∈ fl) (hb : b ∈ bs) :
    (x = b.addr ∧ b.use = none) ∨ x + 16 ≤ b.addr ∨ b.addr + b.size ≤ x := by
  obtain ⟨c, hc, rfl, hu, -, -, -, hcs⟩ := hi.node hx
  rcases hi.tiled.apart hb hc with he | he | he
  · exact .inl ⟨by rw [he], by rw [he]; exact hu⟩
  · exact .inr (.inr he)
  · exact .inr (.inl (by omega))

theorem HeapShape.list_nodup (hp : HeapRoom h start final) (hi : HeapShape h start final m bs fl) : (h :: (fl ++ [h + 4])).Nodup := by
  have ho := hp.outside
  have hn : ∀ x ∈ fl, x ≠ h ∧ x ≠ h + 4 := fun x hx => by
    obtain ⟨-, -, -, -, h1, h2, -⟩ := hi.node hx
    omega
  rw [List.nodup_cons, List.nodup_append]
  refine ⟨fun hm => ?_, hi.fl_nodup, List.nodup_singleton _, fun x hx y hy => ?_⟩
  · rcases List.mem_append.1 hm with hm | hm
    · exact (hn h hm).1 rfl
    · have := List.mem_singleton.1 hm
      omega
  · rw [List.mem_singleton.1 hy]
    exact (hn x hx).2

theorem Linked.kept (hl : Linked nextWord prevWord m (h :: (fl ++ [h + 4]))) (hh : m' (h + 8) = m (h + 8))
    (ht : m' (h + 16) = m (h + 16)) (hn : ∀ x ∈ fl, m' (x + 8) = m (x + 8) ∧ m' (x + 12) = m (x + 12)) :
    Linked nextWord prevWord m' (h :: (fl ++ [h + 4])) := by
  refine hl.frame (fun u hu => ?_) (fun v hv => ?_)
  · rw [← List.cons_append, List.dropLast_concat] at hu
    rcases List.mem_cons.1 hu with rfl | hu
    · exact hh
    · exact (hn u hu).1
  · rcases List.mem_append.1 hv with hv | hv
    · exact (hn v hv).2
    · rw [List.mem_singleton.1 hv]
      exact ht

variable {l₁ l₂ : List HeapBlock}

/-- **Rewriting some neighbouring blocks** inside the words they own, and links. -/
theorem HeapInv.rewrite (hp : HeapPlace h start final pg) {lo hi : Nat}
    (hinv : HeapInv h start final pg m (l₁ ++ (mid ++ l₂)) fl live) (h1 : Tiled start l₁ lo) (h3 : Tiled hi l₂ final)
    (hm : ∀ a, m' a ≠ m a → (lo + 4 ≤ a ∧ a ≤ hi) ∨ a = h + 8 ∨ a = h + 16 ∨ ∃ x ∈ fl, a = x + 8 ∨ a = x + 12)
    (hmid : Tiled lo mid' hi) (hok : ∀ b ∈ mid', b.Ok pg m')
    (hspaced : (l₁ ++ (mid' ++ l₂)).IsChain fun b c => b.use.isSome ∨ c.use.isSome)
    (hlist : Linked nextWord prevWord m' (h :: (fl' ++ [h + 4])))
    (hfree : fl'.Perm ((freeBlocks (l₁ ++ (mid' ++ l₂))).map (·.addr)))
    (hlive : live'.Perm ((l₁ ++ (mid' ++ l₂)).filterMap HeapBlock.live)) :
    HeapInv h start final pg m' (l₁ ++ (mid' ++ l₂)) fl' live' := by
  have hlo := h1.le
  have hhi := h3.le
  have hmidle := hmid.le
  have ho := hp.outside
  -- a word outside the rewritten blocks that is no link keeps its value
  have hkeep : ∀ a, (a < lo + 4 ∨ hi < a) → a ≠ h + 8 → a ≠ h + 16 → (∀ x ∈ fl, a ≠ x + 8 ∧ a ≠ x + 12) → m' a = m a := by
    intro a ha h8 h16 hx
    by_contra hne
    rcases hm a hne with hr | he | he | ⟨x, hxf, he⟩
    · omega
    · exact h8 he
    · exact h16 he
    · rcases he with he | he
      · exact (hx x hxf).1 he
      · exact (hx x hxf).2 he
  have hctrl : ∀ a, (a = h ∨ a = h + 4 ∨ a = h + 20) → m' a = m a := by
    intro a ha
    refine hkeep a ?_ (by omega) (by omega) fun x hx => ?_
    · omega
    · obtain ⟨-, -, -, -, hs, hf, -⟩ := hinv.shape.node hx
      omega
  have hblock : ∀ b ∈ l₁ ++ l₂, b.Ok pg m' := by
    intro b hb
    have hbs : b ∈ l₁ ++ (mid ++ l₂) := by
      rcases List.mem_append.1 hb with hb | hb
      · exact List.mem_append_left _ hb
      · exact List.mem_append_right _ (List.mem_append_right _ hb)
    have hbo := hinv.ok b hbs
    have hbig := hbo.big
    have hbb := hinv.tiled.bounds b hbs
    have hside : b.addr + b.size ≤ lo ∨ hi ≤ b.addr := by
      rcases List.mem_append.1 hb with hb | hb
      · exact .inl (h1.bounds b hb).2
      · exact .inr (h3.bounds b hb).1
    refine hbo.frame ?_ ?_ fun hu a ha1 ha2 => ?_
    · refine hkeep _ (by omega) (by omega) (by omega) fun x hx => ?_
      rcases hinv.shape.node_block hx hbs with ⟨he, -⟩ | he | he <;> omega
    · refine hkeep _ (by omega) (by omega) (by omega) fun x hx => ?_
      rcases hinv.shape.node_block hx hbs with ⟨he, -⟩ | he | he
      · omega
      · omega
      · omega
    · refine hkeep _ (by omega) (by omega) (by omega) fun x hx => ?_
      rcases hinv.shape.node_block hx hbs with ⟨-, he⟩ | he | he
      · rw [he] at hu
        cases hu
      · omega
      · omega
  obtain ⟨c1, c2, c3⟩ := hinv.ctrl
  refine ⟨⟨(hctrl h (by simp)).trans c1, (hctrl _ (by simp)).trans c2, (hctrl _ (by simp)).trans c3⟩, ?_, fun b hb => ?_,
    ⟨?_, ?_⟩, hspaced, hlist, hfree, hlive⟩
  · exact Tiled.append.2 ⟨lo, h1, Tiled.append.2 ⟨hi, hmid, h3⟩⟩
  · rcases List.mem_append.1 hb with hb | hb
    · exact hblock b (List.mem_append_left _ hb)
    · rcases List.mem_append.1 hb with hb | hb
      · exact hok b hb
      · exact hblock b (List.mem_append_right _ hb)
  · rw [hkeep start (by omega) (by omega) (by omega) fun x hx => ?_]
    · exact hinv.ends.1
    · obtain ⟨-, -, -, -, hs, hf, -⟩ := hinv.shape.node hx
      omega
  · rw [hkeep (final + 4) (by omega) (by omega) (by omega) fun x hx => ?_]
    · exact hinv.ends.2
    · obtain ⟨-, -, -, -, hs, hf, -⟩ := hinv.shape.node hx
      omega

theorem spaced_exchange {R : HeapBlock → HeapBlock → Prop} (hs : (l₁ ++ (mid ++ l₂)).IsChain R) (hm : mid'.IsChain R)
    (hne : mid' ≠ []) (hl : ∀ x ∈ l₁.getLast?, ∀ c ∈ mid'.head?, R x c) (hr : ∀ d ∈ mid'.getLast?, ∀ y ∈ l₂.head?, R d y) :
    (l₁ ++ (mid' ++ l₂)).IsChain R := by
  rw [List.isChain_append] at hs ⊢
  obtain ⟨h1, h2, -⟩ := hs
  rw [List.isChain_append] at h2
  refine ⟨h1, List.isChain_append.2 ⟨hm, h2.2.1, hr⟩, fun x hx c hc => hl x hx c ?_⟩
  rw [List.head?_append_of_ne_nil _ hne] at hc
  exact hc

/-! ## Allocation -/

theorem HeapPlace.page_mod (hp : HeapPlace h start final pg) : pg % 8 = 0 := by
  obtain ⟨n, hn⟩ := hp.page
  have h8 := hp.eight
  rcases Nat.lt_or_ge n 3 with hlt | hge
  · have : n = 0 ∨ n = 1 ∨ n = 2 := by omega
    rcases this with rfl | rfl | rfl <;> omega
  · obtain ⟨k, rfl⟩ := Nat.exists_eq_add_of_le hge
    rw [hn, Nat.pow_add]
    simp

theorem Tiled.addr_mod : ∀ {bs : List HeapBlock} {a z : Nat}, Tiled a bs z → a % 4 = 0 → (∀ b ∈ bs, b.size % 4 = 0) →
    ∀ b ∈ bs, b.addr % 4 = 0
  | [], _, _, _, _, _, b, hb => by cases hb
  | c :: bs, a, z, ht, ha, hs, b, hb => by
    rcases List.mem_cons.1 hb with rfl | hb
    · rw [ht.1]
      exact ha
    · have := hs c List.mem_cons_self
      exact Tiled.addr_mod ht.2 (by omega) (fun d hd => hs d (List.mem_cons_of_mem _ hd)) b hb

theorem pages_eq (hpos : 0 < pg) (size : Nat) : (size + (pg - 1)) / pg * pg = if size % pg = 0 then size else size + (pg - size % pg) := by
  have hdm := Nat.div_add_mod size pg
  have hlt := Nat.mod_lt size hpos
  set q := size / pg
  set r := size % pg
  by_cases h0 : r = 0
  · rw [if_pos h0]
    have : (size + (pg - 1)) / pg = q := by
      rw [← hdm, h0, Nat.add_zero, Nat.mul_add_div hpos, Nat.div_eq_of_lt (by omega), Nat.add_zero]
    rw [this, Nat.mul_comm]
    omega
  · rw [if_neg h0]
    have : (size + (pg - 1)) / pg = q + 1 := by
      rw [show size + (pg - 1) = pg * q + (r + (pg - 1)) by omega, Nat.mul_add_div hpos,
        show r + (pg - 1) = pg * 1 + (r - 1) by omega, Nat.mul_add_div hpos, Nat.div_eq_of_lt (by omega)]
    rw [this, Nat.add_mul, Nat.mul_comm q pg]
    omega

/-- What an allocation comes to: the request, a page for the offset and the tags, and less than a page more. -/
theorem heapRounding_bounds (h8 : pg % 8 = 0) (hpos : 0 < pg) (size : Nat) :
    size + pg + 8 ≤ heapRounding pg size ∧ heapRounding pg size ≤ size + 2 * pg + 7 ∧ heapRounding pg size % 8 = 0 := by
  have hover : heapBlockUsedOverhead = 8 := rfl
  have hlt := Nat.mod_lt size hpos
  have hmod : (size + (pg - 1)) / pg * pg % 8 = 0 := by rw [Nat.mul_mod, h8]; simp
  have hround := pages_eq hpos size
  rw [heapRounding, hover]
  split at hround
  · omega
  · omega

/-- The size of the block is what the allocation comes to, in 32 bits, and no less than the smallest block. -/
theorem lwpHeapDsize_eq (hpos : 0 < pg) (size : Nat) : lwpHeapDsize pg size = max (u32 (heapRounding pg size)) 16 := by
  have hover : heapBlockUsedOverhead = 8 := rfl
  have hbs : heapBlockSize = 16 := rfl
  have hlt := Nat.mod_lt size hpos
  have hround := pages_eq hpos size
  have hsum : (if size % pg ≠ 0 then u32 (u32 (size + pg + 8) + (pg - size % pg)) else u32 (size + pg + 8)) =
      u32 (heapRounding pg size) := by
    rw [heapRounding, hover, hround]
    by_cases h0 : size % pg = 0
    · rw [if_neg (not_not.2 h0), if_pos h0]
    · rw [if_pos h0, if_neg h0, u32_add]
      congr 1
      omega
  unfold lwpHeapDsize
  simp only [hover, hbs, hsum]
  split <;> omega

/-- **The rounded size**: enough for the tags, the longest offset and what was asked for. -/
theorem lwpHeapDsize_spec (h8 : pg % 8 = 0) (hpos : 0 < pg) (hfit : heapRounding pg size < 2 ^ 32) :
    size + pg + 8 ≤ lwpHeapDsize pg size ∧ lwpHeapDsize pg size % 4 = 0 ∧ 16 ≤ lwpHeapDsize pg size ∧
      lwpHeapDsize pg size < 2 ^ 32 := by
  obtain ⟨h1, -, h3⟩ := heapRounding_bounds h8 hpos size
  rw [lwpHeapDsize_eq hpos, u32_of_lt hfit]
  omega

/-! ## Memory and the search -/

@[simp] theorem Words.set_self (m : Words) (a v : Nat) : m.set a v a = v := Function.update_self ..

theorem Words.set_ne (m : Words) {b : Nat} (v : Nat) (hne : b ≠ a) : m.set a v b = m b := Function.update_of_ne hne ..

/-- Words that changed only where `P` holds have done so still after one is set there. -/
theorem Words.changed_set (ha : P a) (hm : ∀ b, m b ≠ m' b → P b) : ∀ b, m.set a v b ≠ m' b → P b := by
  intro b hne
  by_cases hb : b = a
  · rw [hb]
    exact ha
  · rw [Words.set_ne m v hb] at hne
    exact hm b hne

theorem Words.changed_trans {m'' : Words} (hm' : ∀ a, m'' a ≠ m' a → P a) (hm : ∀ a, m' a ≠ m a → P a) : ∀ a, m'' a ≠ m a → P a := by
  intro a hne
  by_cases ha : m'' a = m' a
  · rw [ha] at hne
    exact hm a hne
  · exact hm' a ha

theorem Words.changed_mono {R : Nat → Prop} (hPR : ∀ a, P a → R a) (hm : ∀ a, m' a ≠ m a → P a) :
    ∀ a, m' a ≠ m a → R a := fun a ha => hPR a (hm a ha)

theorem Words.kept (hm : ∀ a, m' a ≠ m a → P a) (ha : ¬ P a) : m' a = m a :=
  not_not.1 (mt (hm a) ha)

/-- The search goes through the free list and takes the first block that is large enough. -/
theorem lwpHeapFind_eq : ∀ {l : List Nat} {fuel : Nat}, Linked nextWord prevWord m (l ++ [h + 4]) →
    h + 4 ∉ l → l.length < fuel →
    lwpHeapFind m h dsize fuel (l.headD (h + 4)) = l.find? fun x => decide (dsize ≤ m (x + 4))
  | [], fuel + 1, _, _, _ => if_pos rfl
  | x :: l, fuel + 1, hl, hn, hf => by
    have hnext : m (x + 8) = l.headD (h + 4) := by
      cases l with
      | nil => exact (List.isChain_cons_cons.1 hl).1.1
      | cons y l => exact (List.isChain_cons_cons.1 hl).1.1
    have hx : x ≠ lwpHeapTail h := fun he => hn (by rw [← show x = h + 4 from he]; exact List.mem_cons_self)
    rw [List.headD_cons, lwpHeapFind, if_neg hx, hnext]
    by_cases hd : dsize ≤ m (x + 4)
    · rw [if_pos hd, List.find?_cons_of_pos (by simpa using hd)]
    · rw [if_neg hd, List.find?_cons_of_neg (by simpa using hd)]
      exact lwpHeapFind_eq hl.tail (fun hm => hn (List.mem_cons_of_mem _ hm)) (by simpa using hf)

theorem Tiled.length_le : ∀ {bs : List HeapBlock} {a z : Nat}, Tiled a bs z → (∀ b ∈ bs, 16 ≤ b.size) → a + bs.length * 16 ≤ z
  | [], _, _, ht, _ => by
    have : _ = _ := ht
    simp [this]
  | b :: bs, a, z, ht, hs => by
    have h1 := Tiled.length_le ht.2 fun c hc => hs c (List.mem_cons_of_mem _ hc)
    have h2 := hs b List.mem_cons_self
    rw [List.length_cons]
    omega

theorem HeapShape.first (hi : HeapShape h start final m bs fl) : m (h + 8) = fl.headD (h + 4) := by
  have hl := hi.list
  cases hf : fl with
  | nil =>
    rw [hf] at hl
    exact (List.isChain_cons_cons.1 hl).1.1
  | cons y l =>
    rw [hf] at hl
    exact (List.isChain_cons_cons.1 hl).1.1

theorem HeapShape.find (hp : HeapRoom h start final) (hi : HeapShape h start final m bs fl) (dsize : Nat) :
    lwpHeapFind m h dsize (m (h + 4)) (m (h + 8)) = fl.find? fun x => decide (dsize ≤ m (x + 4)) := by
  have hnd := hi.list_nodup hp
  rw [List.nodup_cons, List.nodup_append] at hnd
  have h1 := hi.tiled.length_le fun b hb => (hi.tags b hb).big
  have h2 : fl.length ≤ bs.length := by
    rw [hi.free.length_eq, List.length_map]
    exact List.length_filter_le ..
  rw [hi.first, hi.ctrl.2]
  rcases Nat.eq_zero_or_pos final with hz | hpos
  · obtain rfl : fl = [] := List.eq_nil_of_length_eq_zero (by omega)
    rw [hz]
    rfl
  · exact lwpHeapFind_eq hi.list.tail (fun hm => hnd.2.2.2 _ hm (h + 4) (by simp) rfl) (by omega)

/-! ## Taking a block -/

theorem HeapShape.around (hi : HeapShape h start final m bs fl) (hb : b ∈ bs) :
    ∃ l₁ l₂, bs = l₁ ++ ([b] ++ l₂) ∧ Tiled start l₁ b.addr ∧ Tiled (b.addr + b.size) l₂ final := by
  obtain ⟨l₁, l₂, rfl⟩ := List.append_of_mem hb
  obtain ⟨c, h1, h2⟩ := Tiled.append.1 hi.tiled
  have hc : b.addr = c := h2.1
  subst hc
  exact ⟨l₁, l₂, rfl, h1, h2.2⟩

theorem HeapPlace.offset (hp : HeapPlace h start final pg) (ha : a % 4 = 0) :
    4 ≤ pg - (a &&& (pg - 1)) ∧ pg - (a &&& (pg - 1)) ≤ pg ∧ (a + (pg - (a &&& (pg - 1)))) % pg = 0 := by
  have h8 := hp.page_mod
  have hpos := hp.eight
  obtain ⟨n, hn⟩ := hp.page
  have hand : a &&& (pg - 1) = a % pg := by
    rw [hn]
    exact Nat.and_two_pow_sub_one_eq_mod ..
  have hlt := Nat.mod_lt a (show 0 < pg by omega)
  have hdm := Nat.div_add_mod a pg
  have hmul : pg * (a / pg) % 4 = 0 := by
    rw [Nat.mul_mod, show pg % 4 = 0 by omega]
    simp
  rw [hand]
  refine ⟨by omega, by omega, ?_⟩
  rw [show a + (pg - a % pg) = pg * (a / pg + 1) by rw [Nat.mul_add]; omega]
  exact Nat.mul_mod_right ..

theorem flagSize_size (hn : n < 2 ^ 32) (he : n % 4 = 0) : flagSize n = n := by
  rw [flagSize_eq hn]
  omega

theorem flagSize_used (hn : n + 1 < 2 ^ 32) (he : n % 4 = 0) : flagSize (n + 1) = n := by
  rw [flagSize_eq hn]
  omega

/-- **The end of a free block is taken**: the rest stays where it is in the free list. -/
theorem HeapInv.take_end (hp : HeapPlace h start final pg) (hi : HeapInv h start final pg m (l₁ ++ ([b] ++ l₂)) fl live)
    (hu : b.use = none) (h1 : Tiled start l₁ b.addr) (h2 : Tiled (b.addr + b.size) l₂ final) (hd : size + pg + 8 ≤ dsize)
    (hd4 : dsize % 4 = 0) (hd16 : 16 ≤ dsize) (hbig : b.size - dsize > pg + 8) (off : Nat) (hoff4 : 4 ≤ off) (hoffp : off ≤ pg)
    (hpage : (b.addr + (b.size - dsize) + 8 + off) % pg = 0) : HeapInv h start final pg
      (((((m.set (b.addr + 4) (b.size - dsize)).set (b.addr + (b.size - dsize)) (b.size - dsize)).set
        (b.addr + (b.size - dsize) + 4) (dsize + 1)).set (b.addr + b.size) (dsize + 1)).set
        (b.addr + (b.size - dsize) + 4 + off) off)
      (l₁ ++ ([⟨b.addr, b.size - dsize, none⟩, ⟨b.addr + (b.size - dsize), dsize, some (off, size)⟩] ++ l₂)) fl
      ((b.addr + (b.size - dsize) + 8 + off, size) :: live) := by
  have hb : b ∈ l₁ ++ ([b] ++ l₂) := by simp
  have hbo := hi.ok b hb
  have hbb := hi.tiled.bounds b hb
  have heven := hbo.even
  have ho := hp.outside
  have h8 := hp.eight
  obtain ⟨r, hr⟩ : ∃ r, r = b.size - dsize := ⟨_, rfl⟩
  have hsize : b.size = r + dsize := by omega
  rw [← hr] at hpage ⊢
  set m' := ((((m.set (b.addr + 4) r).set (b.addr + r) r).set (b.addr + r + 4) (dsize + 1)).set (b.addr + b.size)
    (dsize + 1)).set (b.addr + r + 4 + off) off with hm'
  have hchanged : ∀ a, m' a ≠ m a → b.addr + 4 = a ∨ (b.addr + 16 ≤ a ∧ a ≤ b.addr + b.size) := by
    iterate 5 refine Words.changed_set (by omega) ?_
    exact fun a ha => absurd rfl ha
  have hkeep : ∀ a, b.addr + 4 ≠ a → (a < b.addr + 16 ∨ b.addr + b.size < a) → m' a = m a := by
    intro a h4 hr
    by_contra hne
    rcases hchanged a hne with he | he
    · exact h4 he
    · omega
  refine hi.rewrite hp h1 h2 (fun a ha => ?_) ?_ ?_ ?_ ?_ ?_ ?_
  · rcases hchanged a ha with he | he
    · exact .inl (by omega)
    · exact .inl (by omega)
  · refine ⟨rfl, rfl, ?_⟩
    show b.addr + r + dsize = b.addr + b.size
    omega
  · intro c hc
    simp only [List.mem_cons, List.not_mem_nil, or_false] at hc
    rcases hc with rfl | rfl
    · refine ⟨by show 16 ≤ r; omega, by show r % 4 = 0; omega, ?_, ?_, fun u hu => by cases hu⟩
      · show m' (b.addr + 4) = r + 0
        simp (disch := omega) only [hm', Words.set_ne, Words.set_self, Nat.add_zero]
      · show m' (b.addr + r) = r + 0
        simp (disch := omega) only [hm', Words.set_ne, Words.set_self, Nat.add_zero]
    · refine ⟨hd16, hd4, ?_, ?_, fun u hu => ?_⟩
      · show m' (b.addr + r + 4) = dsize + 1
        simp (disch := omega) only [hm', Words.set_ne, Words.set_self]
      · show m' (b.addr + r + dsize) = dsize + 1
        rw [hm', Words.set_ne _ _ (by omega), show b.addr + r + dsize = b.addr + b.size by omega, Words.set_self]
      · obtain rfl : (off, size) = u := Option.some.inj hu
        refine ⟨hoff4, hoffp, ?_, hpage, ?_⟩
        · show m' (b.addr + r + 4 + off) = off
          rw [hm', Words.set_self]
        · show 8 + off + size ≤ dsize
          omega
  · refine spaced_exchange hi.spaced ?_ (by simp) (fun x hx c hc => ?_) (fun d hd y hy => ?_)
    · exact List.isChain_pair.2 (.inr rfl)
    · have hs := (List.isChain_append.1 hi.spaced).2.2 x hx b (by simp)
      rw [hu] at hs
      exact .inl (by simpa using hs)
    · obtain rfl : _ = d := by simpa using hd
      exact .inl rfl
  · refine Linked.kept hi.list (hkeep _ (by omega) (by omega)) (hkeep _ (by omega) (by omega)) fun x hx => ?_
    rcases hi.shape.node_block hx hb with ⟨rfl, -⟩ | he | he
    · exact ⟨hkeep _ (by omega) (by omega), hkeep _ (by omega) (by omega)⟩
    · exact ⟨hkeep _ (by omega) (by omega), hkeep _ (by omega) (by omega)⟩
    · exact ⟨hkeep _ (by omega) (by omega), hkeep _ (by omega) (by omega)⟩
  · have hf := hi.free
    simp only [freeBlocks, List.filter_append, List.filter_cons, List.filter_nil, hu, Option.isNone_none,
      Option.isNone_some, if_true, List.map_append, List.map_cons, List.map_nil] at hf ⊢
    simpa using hf
  · have hl := hi.live
    simp only [List.filterMap_append, List.filterMap_cons, List.filterMap_nil, HeapBlock.live, hu, Option.map_none,
      Option.map_some, List.singleton_append] at hl ⊢
    exact (hl.cons _).trans List.perm_middle.symm

theorem getLastD_mem {N : Type} (h : N) (f : List N) : f.getLastD h ∈ h :: f := by
  obtain ⟨g, hg⟩ := exists_concat_getLastD h f
  rw [hg]
  simp

theorem headD_mem {N : Type} (t : N) (f : List N) : f.headD t ∈ f ++ [t] := by
  obtain ⟨g, hg⟩ := exists_cons_headD f t
  rw [hg]
  simp

theorem HeapShape.words_apart (hp : HeapRoom h start final) (hi : HeapShape h start final m bs fl) {u : Nat} (hu : u ∈ h :: fl)
    (hv : v ∈ fl ++ [h + 4]) : u + 8 ≠ v + 12 := by
  have ho := hp.outside
  rcases List.mem_cons.1 hu with rfl | hu
  · rcases List.mem_append.1 hv with hv | hv
    · obtain ⟨-, -, -, -, h1, h2, -⟩ := hi.node hv
      omega
    · have := List.mem_singleton.1 hv
      omega
  · rcases List.mem_append.1 hv with hv | hv
    · have := hi.nodes_apart hu hv
      omega
    · have := List.mem_singleton.1 hv
      obtain ⟨-, -, -, -, h1, h2, -⟩ := hi.node hu
      omega

theorem HeapShape.node_far (hp : HeapRoom h start final) (hi : HeapShape h start final m bs fl) (hb : b ∈ bs) {u : Nat}
    (hu : u ∈ h :: (fl ++ [h + 4])) (hne : u ≠ b.addr) : (u + 12 < b.addr ∨ b.addr + b.size < u + 8) := by
  have hbb := hi.tiled.bounds b hb
  have ho := hp.outside
  rcases List.mem_cons.1 hu with rfl | hu
  · omega
  rcases List.mem_append.1 hu with hu | hu
  · rcases hi.node_block hu hb with ⟨he, -⟩ | he | he
    · exact absurd he hne
    · omega
    · omega
  · have := List.mem_singleton.1 hu
    omega

theorem perm_drop_middle {N : Type} {l₁ l₂ k₁ k₂ : List N} {y : N} (hp : (l₁ ++ y :: l₂).Perm (k₁ ++ y :: k₂)) :
    (l₁ ++ l₂).Perm (k₁ ++ k₂) := ((List.perm_middle.symm.trans hp).trans List.perm_middle).cons_inv

theorem perm_put_middle {N : Type} {l₁ l₂ k₁ k₂ : List N} (y : N) (hp : (l₁ ++ l₂).Perm (k₁ ++ k₂)) :
    (l₁ ++ y :: l₂).Perm (k₁ ++ y :: k₂) := (List.perm_middle.trans (hp.cons y)).trans List.perm_middle.symm

theorem HeapInv.link_word (ha : a = f₁.getLastD h + 8 ∨ a = f₂.headD (h + 4) + 12) :
    a = h + 8 ∨ a = h + 16 ∨ ∃ x ∈ f₁ ++ y :: f₂, a = x + 8 ∨ a = x + 12 := by
  rcases ha with ha | ha
  · rcases List.mem_cons.1 (getLastD_mem h f₁) with hm | hm
    · exact .inl (by rw [ha, hm])
    · exact .inr (.inr ⟨_, List.mem_append_left _ hm, .inl ha⟩)
  · rcases List.mem_append.1 (headD_mem (h + 4) f₂) with hm | hm
    · exact .inr (.inr ⟨_, List.mem_append_right _ (List.mem_cons_of_mem _ hm), .inr ha⟩)
    · rw [List.mem_singleton.1 hm] at ha
      exact .inr (.inl ha)

/-- **A node leaves the free list**, or another takes its place: apart from its neighbours' links no link changed. -/
theorem HeapInv.respliced (hp : HeapPlace h start final pg) {new : List Nat} (hi : HeapInv h start final pg m bs (f₁ ++ y :: f₂) live)
    (hmid : Linked nextWord prevWord m' (f₁.getLastD h :: (new ++ [f₂.headD (h + 4)])))
    (hchanged : ∀ a, m' a ≠ m a → (a = f₁.getLastD h + 8 ∨ a = f₂.headD (h + 4) + 12) ∨ ∀ u ∈ h :: (f₁ ++ y :: f₂ ++ [h + 4]), u ≠ y → a ≠ u + 8 ∧ a ≠ u + 12) :
    Linked nextWord prevWord m' (h :: ((f₁ ++ (new ++ f₂)) ++ [h + 4])) := by
  have hnd := hi.shape.list_nodup hp.room
  have hsub : (h :: (f₁ ++ (f₂ ++ [h + 4]))).Sublist (h :: ((f₁ ++ y :: f₂) ++ [h + 4])) := by
    rw [List.append_assoc]
    refine List.Sublist.cons_cons _ (List.Sublist.append_left ?_ _)
    exact (List.Sublist.refl _).cons _
  have hy : ∀ u ∈ h :: (f₁ ++ (f₂ ++ [h + 4])), u ≠ y := by
    rw [show h :: ((f₁ ++ y :: f₂) ++ [h + 4]) = (h :: f₁) ++ y :: (f₂ ++ [h + 4]) by simp, List.nodup_middle,
      List.nodup_cons] at hnd
    exact fun u hu he => hnd.1 (he ▸ hu)
  have hlist : Linked nextWord prevWord m (h :: (f₁ ++ ([y] ++ (f₂ ++ [h + 4])))) := by
    have := hi.list
    rw [List.append_assoc] at this
    exact this
  have hcross : ∀ u ∈ h :: (f₁ ++ f₂), ∀ v ∈ f₁ ++ (f₂ ++ [h + 4]), u + 8 ≠ v + 12 := by
    intro u hu v hv
    refine hi.shape.words_apart hp.room ?_ ?_
    · simp only [List.mem_cons, List.mem_append] at hu ⊢
      tauto
    · simp only [List.mem_cons, List.mem_append] at hv ⊢
      tauto
  have hpv : f₁.getLastD h ∈ h :: (f₁ ++ f₂) := by
    rw [← List.cons_append]
    exact List.mem_append_left _ (getLastD_mem h f₁)
  have hnx : f₂.headD (h + 4) ∈ f₁ ++ (f₂ ++ [h + 4]) := List.mem_append_right _ (headD_mem (h + 4) f₂)
  have := hlist.splice (hnd.sublist hsub) hmid (fun u hu he => ?_) (fun v hv he => ?_)
  · simpa using this
  · have hm : u ∈ h :: (f₁ ++ (f₂ ++ [h + 4])) := by
      simp only [List.mem_cons, List.mem_append] at hu ⊢
      tauto
    by_contra hne
    rcases hchanged _ hne with (hc | hc) | hc
    · exact he (Nat.add_right_cancel hc)
    · exact hcross u hu _ hnx hc
    · exact (hc u (hsub.subset hm) (hy u hm)).1 rfl
  · have hm : v ∈ h :: (f₁ ++ (f₂ ++ [h + 4])) := List.mem_cons_of_mem _ hv
    by_contra hne
    rcases hchanged _ hne with (hc | hc) | hc
    · exact hcross _ hpv v hv hc.symm
    · exact he (Nat.add_right_cancel hc)
    · exact (hc v (hsub.subset hm) (hy v hm)).2 rfl

theorem HeapShape.neighbours (hp : HeapRoom h start final) (hi : HeapShape h start final m bs (f₁ ++ y :: f₂)) :
    (f₁.getLastD h ∈ h :: (f₁ ++ y :: f₂ ++ [h + 4]) ∧ f₁.getLastD h ≠ y) ∧
      (f₂.headD (h + 4) ∈ h :: (f₁ ++ y :: f₂ ++ [h + 4]) ∧ f₂.headD (h + 4) ≠ y) ∧
      f₁.getLastD h + 8 ≠ f₂.headD (h + 4) + 12 := by
  have hnd := hi.list_nodup hp
  rw [show h :: ((f₁ ++ y :: f₂) ++ [h + 4]) = (h :: f₁) ++ y :: (f₂ ++ [h + 4]) by simp] at hnd ⊢
  rw [List.nodup_middle, List.nodup_cons, List.mem_append, not_or] at hnd
  have h1 := getLastD_mem h f₁
  have h2 := headD_mem (h + 4) f₂
  refine ⟨⟨List.mem_append_left _ h1, fun he => hnd.1.1 (he ▸ h1)⟩,
    ⟨List.mem_append_right _ (List.mem_cons_of_mem _ h2), fun he => hnd.1.2 (he ▸ h2)⟩, hi.words_apart hp ?_ ?_⟩
  · rw [← List.cons_append]
    exact List.mem_append_left _ h1
  · rw [List.append_assoc]
    exact List.mem_append_right _ (List.mem_cons_of_mem _ h2)

theorem HeapInv.take_whole (hp : HeapPlace h start final pg)
    (hi : HeapInv h start final pg m (l₁ ++ ([b] ++ l₂)) (f₁ ++ b.addr :: f₂) live) (hu : b.use = none) (h1 : Tiled start l₁ b.addr)
    (h2 : Tiled (b.addr + b.size) l₂ final) (hd : size + pg + 8 ≤ b.size) (off : Nat) (hoff4 : 4 ≤ off) (hoffp : off ≤ pg)
    (hpage : (b.addr + 8 + off) % pg = 0) : HeapInv h start final pg
      (((((m.set (b.addr + b.size) (b.size + 1)).set (b.addr + 4) (b.size + 1)).set (f₂.headD (h + 4) + 12)
        (f₁.getLastD h)).set (f₁.getLastD h + 8) (f₂.headD (h + 4))).set (b.addr + 4 + off) off)
      (l₁ ++ ([⟨b.addr, b.size, some (off, size)⟩] ++ l₂)) (f₁ ++ f₂) ((b.addr + 8 + off, size) :: live) := by
  have hb : b ∈ l₁ ++ ([b] ++ l₂) := by simp
  have hbo := hi.ok b hb
  have hbig := hbo.big
  obtain ⟨⟨hpvm, hpvy⟩, ⟨hnxm, hnxy⟩, hcross⟩ := hi.shape.neighbours hp.room
  have hpv := hi.shape.node_far hp.room hb hpvm hpvy
  have hnx := hi.shape.node_far hp.room hb hnxm hnxy
  obtain ⟨pv, hpve⟩ : ∃ pv, pv = f₁.getLastD h := ⟨_, rfl⟩
  obtain ⟨nx, hnxe⟩ : ∃ nx, nx = f₂.headD (h + 4) := ⟨_, rfl⟩
  rw [← hpve, ← hnxe] at hcross ⊢
  rw [← hpve] at hpv
  rw [← hnxe] at hnx
  set m' := ((((m.set (b.addr + b.size) (b.size + 1)).set (b.addr + 4) (b.size + 1)).set (nx + 12) pv).set (pv + 8) nx).set
    (b.addr + 4 + off) off with hm'
  have hchanged : ∀ a, m' a ≠ m a → (b.addr + 4 ≤ a ∧ a ≤ b.addr + b.size) ∨ a = pv + 8 ∨ a = nx + 12 := by
    iterate 5 refine Words.changed_set (by omega) ?_
    exact fun a ha => absurd rfl ha
  refine hi.rewrite hp h1 h2 (fun a ha => ?_) ⟨rfl, rfl⟩ ?_ ?_ ?_ ?_ ?_
  · rcases hchanged a ha with he | he
    · exact .inl he
    · rw [hpve, hnxe] at he
      exact .inr (HeapInv.link_word he)
  · intro c hc
    obtain rfl := List.mem_singleton.1 hc
    refine ⟨hbo.big, hbo.even, ?_, ?_, fun u hu => ?_⟩
    · show m' (b.addr + 4) = b.size + 1
      simp (disch := omega) only [hm', Words.set_ne, Words.set_self]
    · show m' (b.addr + b.size) = b.size + 1
      simp (disch := omega) only [hm', Words.set_ne, Words.set_self]
    · obtain rfl : (off, size) = u := Option.some.inj hu
      refine ⟨hoff4, hoffp, ?_, hpage, ?_⟩
      · show m' (b.addr + 4 + off) = off
        rw [hm', Words.set_self]
      · show 8 + off + size ≤ b.size
        omega
  · refine spaced_exchange hi.spaced (List.isChain_singleton _) (by simp) (fun x hx c hc => ?_) (fun d hd y hy => ?_)
    · obtain rfl : _ = c := by simpa using hc
      exact .inr rfl
    · obtain rfl : _ = d := by simpa using hd
      exact .inl rfl
  · have hmid : Linked nextWord prevWord m' (f₁.getLastD h :: ([] ++ [f₂.headD (h + 4)])) := by
      rw [← hpve, ← hnxe]
      refine List.isChain_pair.2 ⟨?_, ?_⟩
      · show m' (pv + 8) = nx
        rw [hm', Words.set_ne _ _ (by omega), Words.set_self]
      · show m' (nx + 12) = pv
        simp (disch := omega) only [hm', Words.set_ne, Words.set_self]
    refine hi.respliced hp hmid fun a ha => ?_
    rcases hchanged a ha with he | he
    · refine .inr fun u hu hne => ?_
      have := hi.shape.node_far hp.room hb hu hne
      omega
    · rw [hpve, hnxe] at he
      exact .inl he
  · have hf := hi.free
    simp only [freeBlocks, List.filter_append, List.filter_cons, List.filter_nil, hu, Option.isNone_none,
      Option.isNone_some, if_true, List.map_append, List.map_cons, List.map_nil] at hf ⊢
    exact perm_drop_middle hf
  · have hl := hi.live
    simp only [List.filterMap_append, List.filterMap_cons, HeapBlock.live, hu, Option.map_none, Option.map_some,
      List.singleton_append] at hl ⊢
    exact (hl.cons _).trans List.perm_middle.symm

theorem lwpHeapTake_end {r : Nat} (hx : m (x + 4) = r + dsize) (hr : r > u32 (pg + 8)) (hr4 : r % 4 = 0) (hd4 : dsize % 4 = 0)
    (ht : x + (r + dsize) < 2 ^ 32) :
    lwpHeapTake m pg dsize x = ((((m.set (x + 4) r).set (x + r) r).set (x + r + 4) (dsize + 1)).set (x + (r + dsize)) (dsize + 1),
      x + r + 8) := by
  have hsub : m (x + 4) - dsize = r := by omega
  have hnext : lwpHeapNextblock (m.set (x + 4) r) x = x + r := by
    rw [lwpHeapNextblock, Words.set_self, flagSize_size (by omega) hr4, u32_of_lt (by omega)]
  have hflag : lwpHeapBuildflag dsize heapBlockUsed = dsize + 1 := lwpHeapBuildflag_used (by omega)
  have hat : lwpHeapBlockat (x + r) dsize = x + (r + dsize) := by
    rw [lwpHeapBlockat, u32_of_lt (by omega)]
    omega
  unfold lwpHeapTake
  rw [hsub, if_pos (show r > u32 (pg + heapBlockUsedOverhead) from hr)]
  simp only [hnext, hflag, hat, Words.set_self, lwpHeapStartuser]

theorem lwpHeapTake_whole (hx : m (x + 4) = size) (hr : ¬ size - dsize > u32 (pg + 8)) (hs4 : size % 4 = 0) (hs16 : 16 ≤ size)
    (ht : x + size < 2 ^ 32) (hnx : m (x + 8) = nx) (hpv : m (x + 12) = pv) (hne : nx + 12 ≠ x + 8 ∧ nx + 12 ≠ x + 12) :
    lwpHeapTake m pg dsize x = ((((m.set (x + size) (size + 1)).set (x + 4) (size + 1)).set (nx + 12) pv).set (pv + 8) nx,
      x + 8) := by
  have hnext : lwpHeapNextblock m x = x + size := by
    rw [lwpHeapNextblock, hx, flagSize_size (by omega) hs4, u32_of_lt (by omega)]
  have hflag : lwpHeapBuildflag size heapBlockUsed = size + 1 := lwpHeapBuildflag_used (by omega)
  unfold lwpHeapTake
  rw [hx, if_neg (show ¬ size - dsize > u32 (pg + heapBlockUsedOverhead) from hr)]
  simp only [hnext, hflag, Words.set_self, lwpHeapStartuser]
  set m₁ := (m.set (x + size) (size + 1)).set (x + 4) (size + 1) with hm₁
  have h8 : m₁ (x + 8) = nx := by
    simp (disch := omega) only [hm₁, Words.set_ne, hnx]
  have h12 : m₁ (x + 12) = pv := by
    simp (disch := omega) only [hm₁, Words.set_ne, hpv]
  rw [h8, h12, Words.set_ne _ _ (by omega), Words.set_ne _ _ (by omega), h8, h12]

/-- **An allocation keeps the invariant**: the block it returns is a new block in use. -/
theorem HeapInv.allocate (hp : HeapPlace h start final pg) (hi : HeapInv h start final pg m bs fl live)
    (hfit : heapRounding pg size < 2 ^ 32) : ∃ bs' fl', HeapInv h start final pg (lwpHeapAllocate m h size).1 bs' fl'
      (((lwpHeapAllocate m h size).2.map (·, size)).toList ++ live) := by
  have h8 := hp.eight
  have htop := hp.top
  obtain ⟨hd1, hd4, hd16, hd32⟩ := lwpHeapDsize_spec hp.page_mod (by omega) hfit
  rw [lwpHeapAllocate]
  by_cases hlim : size ≥ 2 ^ 32 - 1 - heapBlockUsedOverhead
  · rw [if_pos hlim]
    exact ⟨bs, fl, hi⟩
  rw [if_neg hlim]
  simp only [hi.ctrl.2.2]
  set dsize := lwpHeapDsize pg size
  rw [hi.shape.find hp.room dsize]
  cases hf : fl.find? fun x => decide (dsize ≤ m (x + 4)) with
  | none => exact ⟨bs, fl, hi⟩
  | some x =>
    have hx := List.mem_of_find?_eq_some hf
    have hge : dsize ≤ m (x + 4) := by simpa using List.find?_some hf
    obtain ⟨b, hb, rfl, hu, -, -, hbf, hbig⟩ := hi.shape.node hx
    have hbo := hi.ok b hb
    have hfront : m (b.addr + 4) = b.size := by
      rw [hbo.front, HeapBlock.flag, hu]
      rfl
    have ha4 := hi.tiled.addr_mod hp.aligned (fun c hc => (hi.ok c hc).even) b hb
    have heven := hbo.even
    rw [hfront] at hge
    have hover : u32 (pg + 8) = pg + 8 := u32_of_lt (by omega)
    by_cases hcut : b.size - dsize > pg + 8
    · obtain ⟨l₁, l₂, rfl, h1, h2⟩ := hi.shape.around hb
      have hsz : b.size = (b.size - dsize) + dsize := by omega
      obtain ⟨o1, o2, o3⟩ := hp.offset (a := b.addr + (b.size - dsize) + 8) (by omega)
      have hinv := hi.take_end hp hu h1 h2 hd1 hd4 hd16 hcut _ o1 o2 o3
      simp only [lwpHeapTake_end (hfront.trans hsz) (by rw [hover]; exact hcut) (by omega) hd4 (by omega)]
      set off := pg - (b.addr + (b.size - dsize) + 8 &&& (pg - 1))
      rw [u32_of_lt (by omega), ← hsz, show b.addr + (b.size - dsize) + 8 + off - 4 = b.addr + (b.size - dsize) + 4 + off by omega]
      exact ⟨_, _, hinv⟩
    · obtain ⟨f₁, f₂, rfl⟩ := List.append_of_mem hx
      have hlist : Linked nextWord prevWord m (h :: (f₁ ++ b.addr :: (f₂ ++ [h + 4]))) := by
        have := hi.list
        rw [List.append_assoc] at this
        exact this
      obtain ⟨hpv, hnx⟩ := hlist.between
      obtain ⟨-, ⟨hnxm, hnxy⟩, -⟩ := hi.shape.neighbours hp.room
      have hfar := hi.shape.node_far hp.room hb hnxm hnxy
      obtain ⟨o1, o2, o3⟩ := hp.offset (a := b.addr + 8) (by omega)
      simp only [lwpHeapTake_whole hfront (by rw [hover]; exact hcut) heven hbig (by omega) hnx hpv (by omega)]
      obtain ⟨l₁, l₂, rfl, h1, h2⟩ := hi.shape.around hb
      have hinv := hi.take_whole hp hu h1 h2 (by omega : size + pg + 8 ≤ b.size) _ o1 o2 o3
      set off := pg - (b.addr + 8 &&& (pg - 1))
      rw [u32_of_lt (by omega), show b.addr + 8 + off - 4 = b.addr + 4 + off by omega]
      exact ⟨_, _, hinv⟩

/-! ## Releasing a block -/

theorem HeapShape.node_ne_used (hp : HeapRoom h start final) (hi : HeapShape h start final m bs fl) (hb : b ∈ bs)
    (hu : b.use.isSome) {u : Nat} (hm : u ∈ h :: (fl ++ [h + 4])) : u ≠ b.addr := by
  have hbb := hi.tiled.bounds b hb
  have hbig := (hi.tags b hb).big
  have ho := hp.outside
  rcases List.mem_cons.1 hm with rfl | hm
  · omega
  rcases List.mem_append.1 hm with hm | hm
  · rcases hi.node_block hm hb with ⟨-, he⟩ | he | he
    · rw [he] at hu
      cases hu
    · omega
    · omega
  · have := List.mem_singleton.1 hm
    omega

theorem HeapInv.pointer (hi : HeapInv h start final pg m bs fl live) (hb : b ∈ bs) (hp : b.live = some p) :
    ∃ u, b.use = some u ∧ p = (b.addr + 8 + u.1, u.2) ∧ b.addr + 12 ≤ p.1 ∧ p.1 + p.2 ≤ b.addr + b.size ∧ p.1 % pg = 0 := by
  obtain ⟨u, hu, rfl⟩ := Option.map_eq_some_iff.1 hp
  obtain ⟨h1, -, -, h4, h5⟩ := (hi.ok b hb).user u hu
  exact ⟨u, hu, rfl, by show b.addr + 12 ≤ b.addr + 8 + u.1; omega, by show b.addr + 8 + u.1 + u.2 ≤ _; omega, h4⟩

theorem HeapInv.freed_live (hi : HeapInv h start final pg m (l₁ ++ ([b] ++ l₂)) fl live) (hu : b.use = some u) :
    (live.filter fun p => p.1 ≠ b.addr + 8 + u.1).Perm ((l₁ ++ l₂).filterMap HeapBlock.live) := by
  have hbm : b ∈ l₁ ++ ([b] ++ l₂) := by simp
  have hbl : b.live = some (b.addr + 8 + u.1, u.2) := by rw [HeapBlock.live, hu]; rfl
  have hbig := (hi.ok b hbm).big
  have hnd := (hi.tiled.addr_nodup fun c hc => (hi.ok c hc).big)
  rw [List.map_append, List.map_append, List.map_singleton, List.singleton_append, List.nodup_middle, List.nodup_cons,
    ← List.map_append] at hnd
  have hother : ∀ c ∈ l₁ ++ l₂, ∀ p ∈ c.live, p.1 ≠ b.addr + 8 + u.1 := by
    intro c hc p hp he
    have hcm : c ∈ l₁ ++ ([b] ++ l₂) := by
      simp only [List.mem_append] at hc ⊢
      tauto
    obtain ⟨-, -, -, hc1, hc2, -⟩ := hi.pointer hcm hp
    obtain ⟨-, -, -, hb1, hb2, -⟩ := hi.pointer hbm hbl
    rcases hi.tiled.apart hbm hcm with heq | hlt | hlt
    · exact hnd.1 (List.mem_map.2 ⟨c, hc, by rw [← heq]⟩)
    · simp only at hb2
      omega
    · simp only at hb1
      omega
  have hperm := hi.live.filter fun p => p.1 ≠ b.addr + 8 + u.1
  refine hperm.trans ?_
  have hkeep : ∀ l : List HeapBlock, (∀ c ∈ l, c ∈ l₁ ++ l₂) →
      (l.filterMap HeapBlock.live).filter (fun p => decide (p.1 ≠ b.addr + 8 + u.1)) = l.filterMap HeapBlock.live := by
    intro l hl
    refine List.filter_eq_self.2 fun p hp => ?_
    obtain ⟨c, hc, hcp⟩ := List.mem_filterMap.1 hp
    simpa using hother c (hl c hc) p hcp
  rw [List.filterMap_append, List.filterMap_append, List.filterMap_append, List.filter_append, List.filter_append,
    hkeep l₁ fun c hc => List.mem_append_left _ hc, hkeep l₂ fun c hc => List.mem_append_right _ hc]
  simp [hbl]

/-- **Some neighbouring blocks become one that is free**, between blocks that are not. -/
theorem HeapInv.rewrite_free (hp : HeapPlace h start final pg) (hinv : HeapInv h start final pg m (l₁ ++ (mid ++ l₂)) fl live)
    (h1 : Tiled start l₁ x) (h2 : Tiled (x + size) l₂ final)
    (hm : ∀ a, m' a ≠ m a → (x + 4 ≤ a ∧ a ≤ x + size) ∨ a = h + 8 ∨ a = h + 16 ∨ ∃ x ∈ fl, a = x + 8 ∨ a = x + 12)
    (hbig : 16 ≤ size) (heven : size % 4 = 0) (hfront : m' (x + 4) = size) (hback : m' (x + size) = size)
    (hpre : ∀ d ∈ l₁.getLast?, d.use.isSome) (hpost : ∀ d ∈ l₂.head?, d.use.isSome)
    (hlist : Linked nextWord prevWord m' (h :: (fl' ++ [h + 4])))
    (hfree : fl'.Perm ((freeBlocks (l₁ ++ ([⟨x, size, none⟩] ++ l₂))).map (·.addr)))
    (hlive : live'.Perm (List.filterMap HeapBlock.live (l₁ ++ ([⟨x, size, none⟩] ++ l₂)))) :
    HeapInv h start final pg m' (l₁ ++ ([⟨x, size, none⟩] ++ l₂)) fl' live' := by
  have hok : HeapBlock.Ok pg m' ⟨x, size, none⟩ :=
    ⟨hbig, heven, hfront.trans (Nat.add_zero _).symm, hback.trans (Nat.add_zero _).symm, fun u hu => by cases hu⟩
  refine hinv.rewrite hp h1 h2 hm ⟨rfl, rfl⟩ (fun b hb => ?_) ?_ hlist hfree hlive
  · obtain rfl := List.mem_singleton.1 hb
    exact hok
  · exact spaced_exchange hinv.spaced (List.isChain_singleton _) (List.cons_ne_nil _ _) (fun d hd c _ => .inl (hpre d hd))
      (fun d _ y hy => .inr (hpost y hy))

/-- **A block between blocks in use is released**: it comes to the front of the free list. -/
theorem HeapInv.release_alone (hp : HeapPlace h start final pg) (hi : HeapInv h start final pg m (l₁ ++ ([b] ++ l₂)) fl live)
    (hu : b.use = some u) (h1 : Tiled start l₁ b.addr) (h2 : Tiled (b.addr + b.size) l₂ final)
    (hpre : ∀ a ∈ l₁.getLast?, a.use.isSome) (hpost : ∀ c ∈ l₂.head?, c.use.isSome) : HeapInv h start final pg
      ((((((m.set (b.addr + 4) b.size).set (b.addr + b.size) b.size).set (b.addr + 12) h).set (b.addr + 8)
        (fl.headD (h + 4))).set (h + 8) b.addr).set (fl.headD (h + 4) + 12) b.addr)
      (l₁ ++ ([⟨b.addr, b.size, none⟩] ++ l₂)) (b.addr :: fl) (live.filter fun p => p.1 ≠ b.addr + 8 + u.1) := by
  have hb : b ∈ l₁ ++ ([b] ++ l₂) := by simp
  have hbo := hi.ok b hb
  have hbig := hbo.big
  have hbb := hi.tiled.bounds b hb
  have ho := hp.outside
  have husome : b.use.isSome := by rw [hu]; rfl
  have hfar : ∀ x ∈ h :: (fl ++ [h + 4]), x + 12 < b.addr ∨ b.addr + b.size < x + 8 := fun x hx =>
    hi.shape.node_far hp.room hb hx (hi.shape.node_ne_used hp.room hb husome hx)
  have hnxm := headD_mem (h + 4) fl
  have hnx := hfar _ (List.mem_cons_of_mem _ hnxm)
  have hcross : ∀ v ∈ fl ++ [h + 4], h + 8 ≠ v + 12 := fun v hv => hi.shape.words_apart hp.room List.mem_cons_self hv
  obtain ⟨nx, hnxe⟩ : ∃ nx, nx = fl.headD (h + 4) := ⟨_, rfl⟩
  rw [← hnxe] at hnx hnxm ⊢
  have hc := hcross nx hnxm
  set m' := (((((m.set (b.addr + 4) b.size).set (b.addr + b.size) b.size).set (b.addr + 12) h).set (b.addr + 8)
    nx).set (h + 8) b.addr).set (nx + 12) b.addr with hm'
  have hchanged : ∀ a, m' a ≠ m a → (b.addr + 4 ≤ a ∧ a ≤ b.addr + b.size) ∨ a = h + 8 ∨ a = nx + 12 := by
    iterate 6 refine Words.changed_set (by omega) ?_
    exact fun a ha => absurd rfl ha
  refine hi.rewrite_free hp h1 h2 (fun a ha => ?_) hbo.big hbo.even ?_ ?_ hpre hpost ?_ ?_ ?_
  · rcases hchanged a ha with he | he | he
    · exact .inl he
    · exact .inr (.inl he)
    · rcases List.mem_append.1 hnxm with hm | hm
      · exact .inr (.inr (.inr ⟨nx, hm, .inr he⟩))
      · have := List.mem_singleton.1 hm
        exact .inr (.inr (.inl (by omega)))
  · simp (disch := omega) only [hm', Words.set_ne, Words.set_self]
  · simp (disch := omega) only [hm', Words.set_ne, Words.set_self]
  · have hlist : Linked nextWord prevWord m (h :: ([] ++ ([] ++ (fl ++ [h + 4])))) := hi.list
    have hmid : Linked nextWord prevWord m' (([] : List Nat).getLastD h :: ([b.addr] ++ [fl.headD (h + 4)])) := by
      rw [← hnxe]
      refine List.isChain_cons_cons.2 ⟨⟨?_, ?_⟩, List.isChain_pair.2 ⟨?_, ?_⟩⟩
      · show m' (h + 8) = b.addr
        rw [hm', Words.set_ne _ _ (by omega), Words.set_self]
      · show m' (b.addr + 12) = h
        simp (disch := omega) only [hm', Words.set_ne, Words.set_self]
      · show m' (b.addr + 8) = nx
        simp (disch := omega) only [hm', Words.set_ne, Words.set_self]
      · show m' (nx + 12) = b.addr
        rw [hm', Words.set_self]
    refine hlist.splice (hi.shape.list_nodup hp.room) hmid (fun x hx he => ?_) (fun v hv he => ?_)
    · by_contra hne
      have hxm : x ∈ h :: (fl ++ [h + 4]) := by
        simp only [List.nil_append, List.mem_cons, List.mem_append] at hx ⊢
        tauto
      have := hfar x hxm
      rcases hchanged _ hne with hc | hc | hc
      · simp only [nextWord] at hc
        omega
      · exact he (Nat.add_right_cancel hc)
      · exact hi.shape.words_apart hp.room hx hnxm hc
    · by_contra hne
      have := hfar v (List.mem_cons_of_mem _ hv)
      rcases hchanged _ hne with hc | hc | hc
      · simp only [prevWord] at hc
        omega
      · exact hcross v hv hc.symm
      · rw [hnxe] at hc
        exact he (Nat.add_right_cancel hc)
  · have hf := hi.free
    simp only [freeBlocks, List.filter_append, List.filter_cons, List.filter_nil, hu, Option.isNone_none,
      Option.isNone_some, if_true, List.map_append, List.map_cons, List.map_nil] at hf ⊢
    simpa using (hf.cons b.addr).trans List.perm_middle.symm
  · refine (hi.freed_live hu).trans (List.Perm.of_eq ?_)
    simp [List.filterMap_cons, HeapBlock.live]

/-- **A block is released before a free one**, whose place in the free list it takes. -/
theorem HeapInv.release_next (hp : HeapPlace h start final pg)
    (hi : HeapInv h start final pg m (l₁ ++ ([b, c] ++ l₂)) (f₁ ++ c.addr :: f₂) live) (hu : b.use = some u) (hc : c.use = none)
    (h1 : Tiled start l₁ b.addr) (hbc : c.addr = b.addr + b.size) (h2 : Tiled (c.addr + c.size) l₂ final)
    (hpre : ∀ a ∈ l₁.getLast?, a.use.isSome) (hpost : ∀ d ∈ l₂.head?, d.use.isSome) : HeapInv h start final pg
      ((((((m.set (b.addr + 4) (b.size + c.size)).set (b.addr + (b.size + c.size)) (b.size + c.size)).set (b.addr + 8)
        (f₂.headD (h + 4))).set (b.addr + 12) (f₁.getLastD h)).set (f₁.getLastD h + 8) b.addr).set (f₂.headD (h + 4) + 12)
        b.addr)
      (l₁ ++ ([⟨b.addr, b.size + c.size, none⟩] ++ l₂)) (f₁ ++ b.addr :: f₂) (live.filter fun p => p.1 ≠ b.addr + 8 + u.1) := by
  have hb : b ∈ l₁ ++ ([b, c] ++ l₂) := by simp
  have hcm : c ∈ l₁ ++ ([b, c] ++ l₂) := by simp
  have hbo := hi.ok b hb
  have hco := hi.ok c hcm
  have hbig := hbo.big
  have hcbig := hco.big
  have hbe := hbo.even
  have hce := hco.even
  have husome : b.use.isSome := by rw [hu]; rfl
  obtain ⟨⟨hpvm, hpvy⟩, ⟨hnxm, hnxy⟩, hcross⟩ := hi.shape.neighbours hp.room
  have hfar : ∀ x ∈ h :: (f₁ ++ c.addr :: f₂ ++ [h + 4]), x ≠ c.addr →
      x + 12 < b.addr ∨ b.addr + (b.size + c.size) < x + 8 := by
    intro x hx hne
    have h1 := hi.shape.node_far hp.room hb hx (hi.shape.node_ne_used hp.room hb husome hx)
    have h2 := hi.shape.node_far hp.room hcm hx hne
    omega
  have hpv := hfar _ hpvm hpvy
  have hnx := hfar _ hnxm hnxy
  obtain ⟨pv, hpve⟩ : ∃ pv, pv = f₁.getLastD h := ⟨_, rfl⟩
  obtain ⟨nx, hnxe⟩ : ∃ nx, nx = f₂.headD (h + 4) := ⟨_, rfl⟩
  rw [← hpve, ← hnxe] at hcross ⊢
  rw [← hpve] at hpv
  rw [← hnxe] at hnx
  set S := b.size + c.size with hS
  set m' := (((((m.set (b.addr + 4) S).set (b.addr + S) S).set (b.addr + 8) nx).set (b.addr + 12) pv).set (pv + 8) b.addr).set
    (nx + 12) b.addr with hm'
  have hchanged : ∀ a, m' a ≠ m a → (b.addr + 4 ≤ a ∧ a ≤ b.addr + S) ∨ a = pv + 8 ∨ a = nx + 12 := by
    iterate 6 refine Words.changed_set (by omega) ?_
    exact fun a ha => absurd rfl ha
  rw [hbc, Nat.add_assoc, ← hS] at h2
  refine hi.rewrite_free hp h1 h2 (fun a ha => ?_) (by omega) (by omega) ?_ ?_ hpre hpost ?_ ?_ ?_
  · rcases hchanged a ha with he | he
    · exact .inl he
    · rw [hpve, hnxe] at he
      exact .inr (HeapInv.link_word he)
  · simp (disch := omega) only [hm', Words.set_ne, Words.set_self]
  · simp (disch := omega) only [hm', Words.set_ne, Words.set_self]
  · have hmid : Linked nextWord prevWord m' (f₁.getLastD h :: ([b.addr] ++ [f₂.headD (h + 4)])) := by
      rw [← hpve, ← hnxe]
      refine List.isChain_cons_cons.2 ⟨⟨?_, ?_⟩, List.isChain_pair.2 ⟨?_, ?_⟩⟩
      · show m' (pv + 8) = b.addr
        rw [hm', Words.set_ne _ _ (by omega), Words.set_self]
      · show m' (b.addr + 12) = pv
        simp (disch := omega) only [hm', Words.set_ne, Words.set_self]
      · show m' (b.addr + 8) = nx
        simp (disch := omega) only [hm', Words.set_ne, Words.set_self]
      · show m' (nx + 12) = b.addr
        rw [hm', Words.set_self]
    refine hi.respliced hp hmid fun a ha => ?_
    rcases hchanged a ha with he | he
    · refine .inr fun x hx hne => ?_
      have := hfar x hx hne
      omega
    · rw [hpve, hnxe] at he
      exact .inl he
  · have hf := hi.free
    simp only [freeBlocks, List.filter_append, List.filter_cons, List.filter_nil, hu, hc, Option.isNone_none,
      Option.isNone_some, if_true, List.map_append, List.map_cons, List.map_nil] at hf ⊢
    exact perm_put_middle b.addr (perm_drop_middle hf)
  · have hi' : HeapInv h start final pg m (l₁ ++ ([b] ++ (c :: l₂))) (f₁ ++ c.addr :: f₂) live := hi
    refine (hi'.freed_live hu).trans (List.Perm.of_eq ?_)
    simp [List.filterMap_cons, HeapBlock.live, hc]

theorem HeapInv.release_prev (hp : HeapPlace h start final pg) {a : HeapBlock}
    (hi : HeapInv h start final pg m (l₁ ++ ([a, b] ++ l₂)) fl live) (hu : b.use = some u) (ha : a.use = none)
    (h1 : Tiled start l₁ a.addr) (hab : b.addr = a.addr + a.size) (h2 : Tiled (b.addr + b.size) l₂ final)
    (hpre : ∀ d ∈ l₁.getLast?, d.use.isSome) (hpost : ∀ d ∈ l₂.head?, d.use.isSome) :
    HeapInv h start final pg ((m.set (a.addr + (a.size + b.size)) (a.size + b.size)).set (a.addr + 4) (a.size + b.size))
      (l₁ ++ ([⟨a.addr, a.size + b.size, none⟩] ++ l₂)) fl (live.filter fun p => p.1 ≠ b.addr + 8 + u.1) := by
  have ham : a ∈ l₁ ++ ([a, b] ++ l₂) := by simp
  have hb : b ∈ l₁ ++ ([a, b] ++ l₂) := by simp
  have hao := hi.ok a ham
  have hbo := hi.ok b hb
  have habig := hao.big
  have hbig := hbo.big
  have hae := hao.even
  have hbe := hbo.even
  have hbb := hi.tiled.bounds b hb
  have hab' := hi.tiled.bounds a ham
  have ho := hp.outside
  have husome : b.use.isSome := by rw [hu]; rfl
  set S := a.size + b.size with hS
  set m' := (m.set (a.addr + S) S).set (a.addr + 4) S with hm'
  have hchanged : ∀ x, m' x ≠ m x → x = a.addr + 4 ∨ x = a.addr + S := by
    refine Words.changed_set (.inl rfl) ?_
    refine Words.changed_set (.inr rfl) ?_
    exact fun x hx => absurd rfl hx
  have hkeep : ∀ x, x ≠ a.addr + 4 → x ≠ a.addr + S → m' x = m x := by
    intro x h1 h2
    by_contra hne
    rcases hchanged x hne with he | he
    · exact h1 he
    · exact h2 he
  rw [hab, Nat.add_assoc, ← hS] at h2
  refine hi.rewrite_free hp h1 h2 (fun x hx => ?_) (by omega) (by omega) ?_ ?_ hpre hpost ?_ ?_ ?_
  · rcases hchanged x hx with he | he
    · exact .inl (by omega)
    · exact .inl (by omega)
  · rw [hm', Words.set_self]
  · rw [hm', Words.set_ne _ _ (by omega), Words.set_self]
  · refine Linked.kept hi.list (hkeep _ (by omega) (by omega)) (hkeep _ (by omega) (by omega)) fun x hx => ?_
    rcases hi.shape.node_block hx ham with ⟨rfl, -⟩ | hx1 | hx1
    · exact ⟨hkeep _ (by omega) (by omega), hkeep _ (by omega) (by omega)⟩
    · exact ⟨hkeep _ (by omega) (by omega), hkeep _ (by omega) (by omega)⟩
    · have := hi.shape.node_block hx hb
      rw [hu] at this
      rcases this with ⟨-, hx2⟩ | hx2 | hx2
      · cases hx2
      · exact ⟨hkeep _ (by omega) (by omega), hkeep _ (by omega) (by omega)⟩
      · exact ⟨hkeep _ (by omega) (by omega), hkeep _ (by omega) (by omega)⟩
  · have hf := hi.free
    simp only [freeBlocks, List.filter_append, List.filter_cons, List.filter_nil, hu, ha, Option.isNone_none,
      Option.isNone_some, if_true, List.map_append, List.map_cons, List.map_nil] at hf ⊢
    simpa using hf
  · have hi' : HeapInv h start final pg m ((l₁ ++ [a]) ++ ([b] ++ l₂)) fl live := by
      simpa using hi
    refine (hi'.freed_live hu).trans (List.Perm.of_eq ?_)
    simp [List.filterMap_cons, HeapBlock.live, ha]

/-- **A block is released between two free ones**: the first grows over both, and the last leaves the free list. -/
theorem HeapInv.release_both (hp : HeapPlace h start final pg) {a : HeapBlock}
    (hi : HeapInv h start final pg m (l₁ ++ ([a, b, c] ++ l₂)) (f₁ ++ c.addr :: f₂) live) (hu : b.use = some u) (ha : a.use = none)
    (hc : c.use = none) (h1 : Tiled start l₁ a.addr) (hab : b.addr = a.addr + a.size) (hbc : c.addr = b.addr + b.size)
    (h2 : Tiled (c.addr + c.size) l₂ final) (hpre : ∀ d ∈ l₁.getLast?, d.use.isSome) (hpost : ∀ d ∈ l₂.head?, d.use.isSome) :
    HeapInv h start final pg
      ((((m.set (a.addr + 4) (a.size + (c.size + b.size))).set (a.addr + (a.size + (c.size + b.size)))
        (a.size + (c.size + b.size))).set (f₂.headD (h + 4) + 12) (f₁.getLastD h)).set (f₁.getLastD h + 8)
        (f₂.headD (h + 4)))
      (l₁ ++ ([⟨a.addr, a.size + (c.size + b.size), none⟩] ++ l₂)) (f₁ ++ f₂)
      (live.filter fun p => p.1 ≠ b.addr + 8 + u.1) := by
  have ham : a ∈ l₁ ++ ([a, b, c] ++ l₂) := by simp
  have hcm : c ∈ l₁ ++ ([a, b, c] ++ l₂) := by simp
  have hao := hi.ok a ham
  have hbo := hi.ok b (by simp)
  have hco := hi.ok c hcm
  have habig := hao.big
  have hcbig := hco.big
  have hae := hao.even
  have hbe := hbo.even
  have hce := hco.even
  obtain ⟨⟨hpvm, hpvy⟩, ⟨hnxm, hnxy⟩, hcross⟩ := hi.shape.neighbours hp.room
  set S := a.size + (c.size + b.size) with hS
  -- the first block stays a node, and its own tag is no link
  have hfar : ∀ x ∈ h :: (f₁ ++ c.addr :: f₂ ++ [h + 4]), x ≠ c.addr → a.addr + 4 ≠ x + 8 ∧ a.addr + 4 ≠ x + 12 ∧
      a.addr + S ≠ x + 8 ∧ a.addr + S ≠ x + 12 := by
    intro x hx hne
    have h2 := hi.shape.node_far hp.room hcm hx hne
    by_cases hxa : x = a.addr
    · omega
    · have h1 := hi.shape.node_far hp.room ham hx hxa
      omega
  have hpv := hfar _ hpvm hpvy
  have hnx := hfar _ hnxm hnxy
  obtain ⟨pv, hpve⟩ : ∃ pv, pv = f₁.getLastD h := ⟨_, rfl⟩
  obtain ⟨nx, hnxe⟩ : ∃ nx, nx = f₂.headD (h + 4) := ⟨_, rfl⟩
  rw [← hpve, ← hnxe] at hcross ⊢
  rw [← hpve] at hpv
  rw [← hnxe] at hnx
  set m' := (((m.set (a.addr + 4) S).set (a.addr + S) S).set (nx + 12) pv).set (pv + 8) nx with hm'
  have hchanged : ∀ x, m' x ≠ m x → (x = a.addr + 4 ∨ x = a.addr + S) ∨ x = pv + 8 ∨ x = nx + 12 := by
    refine Words.changed_set (.inr (.inl rfl)) ?_
    refine Words.changed_set (.inr (.inr rfl)) ?_
    refine Words.changed_set (.inl (.inr rfl)) ?_
    refine Words.changed_set (.inl (.inl rfl)) ?_
    exact fun x hx => absurd rfl hx
  have hend : c.addr + c.size = a.addr + S := by omega
  rw [hend] at h2
  refine hi.rewrite_free hp h1 h2 (fun x hx => ?_) (by omega) (by omega) ?_ ?_ hpre hpost ?_ ?_ ?_
  · rcases hchanged x hx with he | he
    · exact .inl (by omega)
    · rw [hpve, hnxe] at he
      exact .inr (HeapInv.link_word he)
  · rw [hm', Words.set_ne _ _ hpv.1, Words.set_ne _ _ hnx.2.1, Words.set_ne _ _ (by omega), Words.set_self]
  · rw [hm', Words.set_ne _ _ hpv.2.2.1, Words.set_ne _ _ hnx.2.2.2, Words.set_self]
  · have hmid : Linked nextWord prevWord m' (f₁.getLastD h :: ([] ++ [f₂.headD (h + 4)])) := by
      rw [← hpve, ← hnxe]
      refine List.isChain_pair.2 ⟨?_, ?_⟩
      · show m' (pv + 8) = nx
        rw [hm', Words.set_self]
      · show m' (nx + 12) = pv
        rw [hm', Words.set_ne _ _ hcross.symm, Words.set_self]
    refine hi.respliced hp hmid fun x hx => ?_
    rcases hchanged x hx with (he | he) | he
    · exact .inr fun y hy hne => by rw [he]; exact ⟨(hfar y hy hne).1, (hfar y hy hne).2.1⟩
    · exact .inr fun y hy hne => by rw [he]; exact (hfar y hy hne).2.2
    · rw [hpve, hnxe] at he
      exact .inl he
  · have hf := hi.free
    simp only [freeBlocks, List.filter_append, List.filter_cons, List.filter_nil, hu, ha, hc, Option.isNone_none,
      Option.isNone_some, if_true, List.map_append, List.map_cons, List.map_nil] at hf ⊢
    rw [show ∀ k : List Nat, ([a.addr] ++ k) = a.addr :: k from fun _ => rfl]
    refine perm_drop_middle (y := c.addr) (hf.trans ?_)
    refine List.Perm.append_left _ ?_
    exact List.Perm.swap ..
  · have hi' : HeapInv h start final pg m ((l₁ ++ [a]) ++ ([b] ++ (c :: l₂))) (f₁ ++ c.addr :: f₂) live := by
      simpa using hi
    refine (hi'.freed_live hu).trans (List.Perm.of_eq ?_)
    simp [List.filterMap_cons, HeapBlock.live, ha, hc]

/-! ## What a release writes -/

theorem lwpHeapBlockfree_iff (used : Bool) (hs : s % 4 = 0) (hm : m (x + 4) = s + if used then heapBlockUsed else 0) :
    lwpHeapBlockfree m x = !used := by
  unfold lwpHeapBlockfree
  rw [hm, and_heapBlockUsed]
  cases used with
  | false => simpa using (by omega : s % 2 = 0)
  | true => simpa [heapBlockUsed] using (by omega : (s + 1) % 2 ≠ 0)

theorem lwpHeapNextblock_of (hm : m (x + 4) = s) (hs : s % 4 = 0) (ht : x + s < 2 ^ 32) : lwpHeapNextblock m x = x + s := by
  rw [lwpHeapNextblock, hm, flagSize_size (by omega) hs, u32_of_lt ht]

theorem lwpHeapRelease_used (hused : lwpHeapBlockfree m (x + s) = false) (h8 : m (h + 8) = nx)
    (hne : h + 8 ≠ x + 4 ∧ h + 8 ≠ x + s ∧ h + 8 ≠ x + 12 ∧ h + 8 ≠ x + 8) : lwpHeapRelease m h x (x + s) s =
      ((((((m.set (x + 4) s).set (x + s) s).set (x + 12) h).set (x + 8) nx).set (h + 8) x).set (nx + 12) x) := by
  unfold lwpHeapRelease
  rw [if_neg (by rw [hused]; simp)]
  have hfirst : (((m.set (x + 4) s).set (x + s) s).set (x + 12) h) (h + 8) = nx := by
    rw [Words.set_ne _ _ hne.2.2.1, Words.set_ne _ _ hne.2.1, Words.set_ne _ _ hne.1, h8]
  simp only [lwpHeapHead, hfirst]
  rw [Words.set_ne _ _ hne.2.2.2.symm, Words.set_self]

theorem lwpHeapRelease_free (hfree : lwpHeapBlockfree m (x + s) = true) (hsc : m (x + s + 4) = sc) (h4 : (s + sc) % 4 = 0)
    (hs : 16 ≤ s) (hsc16 : 16 ≤ sc) (ht : x + (s + sc) < 2 ^ 32) (hnx : m (x + s + 8) = nx) (hpv : m (x + s + 12) = pv)
    (hne : ∀ a, (a = x + s + 8 ∨ a = x + s + 12) → a ≠ pv + 8) (hfirst : pv ≠ h → m (h + 8) ≠ x + s)
    (hh : pv ≠ h → h + 8 < x + 4 ∨ x + (s + sc) < h + 8) (hcross : h + 8 ≠ nx + 12) : lwpHeapRelease m h x (x + s) s =
      ((((((m.set (x + 4) (s + sc)).set (x + (s + sc)) (s + sc)).set (x + 8) nx).set (x + 12) pv).set (pv + 8) x).set (nx + 12)
        x) := by
  unfold lwpHeapRelease
  rw [if_pos hfree, hsc, u32_of_lt (by omega)]
  simp only [lwpHeapNextblock_of (Words.set_self m (x + 4) (s + sc)) h4 ht, Words.set_self]
  set m₁ := (m.set (x + 4) (s + sc)).set (x + (s + sc)) (s + sc) with hm₁
  have h8 : m₁ (x + s + 8) = nx := by
    simp (disch := omega) only [hm₁, Words.set_ne, hnx]
  have h12 : m₁ (x + s + 12) = pv := by
    simp (disch := omega) only [hm₁, Words.set_ne, hpv]
  have e12 : (m₁.set (x + 8) nx) (x + s + 12) = pv := by rw [Words.set_ne _ _ (by omega), h12]
  have e12' : ((m₁.set (x + 8) nx).set (x + 12) pv) (x + s + 12) = pv := by rw [Words.set_ne _ _ (by omega), e12]
  have e8 : (((m₁.set (x + 8) nx).set (x + 12) pv).set (pv + 8) x) (x + s + 8) = nx := by
    rw [Words.set_ne _ _ (hne _ (.inl rfl)), Words.set_ne _ _ (by omega), Words.set_ne _ _ (by omega), h8]
  simp only [h8, e12, e12', e8]
  -- the head of the list is no longer the block that was merged
  rw [if_neg]
  rw [Words.set_ne _ _ hcross]
  by_cases he : pv = h
  · rw [he, Words.set_self]
    omega
  · have := hh he
    rw [Words.set_ne _ _ (by omega), Words.set_ne _ _ (by omega), Words.set_ne _ _ (by omega), hm₁,
      Words.set_ne _ _ (by omega), Words.set_ne _ _ (by omega)]
    exact hfirst he

theorem lwpHeapMergePrev_used (hused : lwpHeapBlockfree m (x + s) = false) (hsa : m (y + 4) = sa) (ht : sa + s < 2 ^ 32) :
    lwpHeapMergePrev m y (x + s) s = (m.set (x + s) (sa + s)).set (y + 4) (sa + s) := by
  unfold lwpHeapMergePrev
  rw [if_neg (by rw [hused]; simp)]
  simp only [hsa, u32_of_lt ht]

theorem lwpHeapMergePrev_free (hfree : lwpHeapBlockfree m (x + s) = true) (hsa : m (y + 4) = sa) (hsc : m (x + s + 4) = sc)
    (h4 : (sa + (sc + s)) % 4 = 0) (hxy : y + sa = x) (ht : y + (sa + (sc + s)) < 2 ^ 32) (hsc16 : 16 ≤ sc)
    (hnx : m (x + s + 8) = nx) (hpv : m (x + s + 12) = pv) (hne : ∀ a, (a = x + s + 8 ∨ a = x + s + 12) → a ≠ nx + 12) :
    lwpHeapMergePrev m y (x + s) s =
      (((m.set (y + 4) (sa + (sc + s))).set (y + (sa + (sc + s))) (sa + (sc + s))).set (nx + 12) pv).set (pv + 8) nx := by
  unfold lwpHeapMergePrev
  rw [if_pos hfree, hsa, hsc, u32_of_lt (n := sc + s) (by omega), u32_of_lt (by omega)]
  simp only [lwpHeapNextblock_of (Words.set_self m (y + 4) (sa + (sc + s))) h4 ht, Words.set_self]
  set S := sa + (sc + s) with hS
  set m₁ := (m.set (y + 4) S).set (y + S) S with hm₁
  have h8 : m₁ (x + s + 8) = nx := by
    simp (disch := omega) only [hm₁, Words.set_ne, hnx]
  have h12 : m₁ (x + s + 12) = pv := by
    simp (disch := omega) only [hm₁, Words.set_ne, hpv]
  rw [h8, h12, Words.set_ne _ _ (hne _ (.inl rfl)), Words.set_ne _ _ (hne _ (.inr rfl)), h8, h12]

theorem lwpHeapFree_live {off : Nat} (hs : m h = start) (hf : m (h + 4) = final) (hoff : m (x + 4 + off) = off) (h4 : 4 ≤ off)
    (ho : 8 + off ≤ s) (hfront : m (x + 4) = s + 1) (hback : m (x + s) = s + 1) (hs4 : s % 4 = 0) (hx : start ≤ x)
    (hz : x + s ≤ final) (ht : final + 8 ≤ 2 ^ 32) : lwpHeapFree m h (x + 8 + off) =
      if lwpHeapPrevBlockfree m x then
        if lwpHeapBlockin m h (lwpHeapPrevblock m x) = false then (m, false)
        else (lwpHeapMergePrev m (lwpHeapPrevblock m x) (x + s) s, true)
      else (lwpHeapRelease m h x (x + s) s, true) := by
  have hblock : lwpHeapUsrblockat m (x + 8 + off) = x := by
    unfold lwpHeapUsrblockat lwpHeapBlockat
    rw [show x + 8 + off - 4 = x + 4 + off by omega, hoff]
    have : heapBlockUsedOverhead = 8 := rfl
    simp only [u32, this]
    omega
  have hsize : lwpHeapBlocksize m x = s := by
    rw [lwpHeapBlocksize, hfront, flagSize_used (by omega) hs4]
  have hnext : lwpHeapBlockat x s = x + s := u32_of_lt (by omega)
  have hin : ∀ a, start ≤ a → a ≤ final → lwpHeapBlockin m h a = true := by
    intro a h1 h2
    unfold lwpHeapBlockin
    rw [hs, hf]
    simpa using ⟨h1, h2⟩
  have hused : lwpHeapBlockfree m x = false := lwpHeapBlockfree_iff true hs4 hfront
  unfold lwpHeapFree
  simp only [hblock, hsize, hnext, hin x hx (by omega), hin (x + s) (by omega) hz, hused, hfront, hback]
  simp

/-! ## The neighbours of a block -/

/-- The block behind a point of the heap, or the end, which counts as in use. -/
theorem HeapShape.behind (hi : HeapShape h start final m (l₁ ++ l₂) fl) (h2 : Tiled z l₂ final) :
    (lwpHeapBlockfree m z = false ∧ ∀ c ∈ l₂.head?, c.use.isSome) ∨
      ∃ c l, l₂ = c :: l ∧ c.use = none ∧ c.addr = z ∧ m (z + 4) = c.size ∧ lwpHeapBlockfree m z = true := by
  cases l₂ with
  | nil =>
    obtain rfl : z = final := h2
    exact .inl ⟨lwpHeapBlockfree_iff true (Nat.zero_mod 4) hi.ends.2, fun c hc => by cases hc⟩
  | cons c l =>
    have hco := hi.tags c (by simp)
    obtain rfl : c.addr = z := h2.1
    cases hu : c.use with
    | some u =>
      refine .inl ⟨?_, fun d hd => ?_⟩
      · have hf : m (c.addr + 4) = c.size + heapBlockUsed := by rw [hco.front, HeapBlock.flag, hu]; rfl
        exact lwpHeapBlockfree_iff true hco.even hf
      · obtain rfl : c = d := by simpa using hd
        rw [hu]
        rfl
    | none =>
      have hf : m (c.addr + 4) = c.size := by rw [hco.front, HeapBlock.flag, hu]; rfl
      exact .inr ⟨c, l, rfl, hu, rfl, hf, lwpHeapBlockfree_iff false hco.even hf⟩

/-- The block before a point of the heap, or the start, which counts as in use. -/
theorem HeapShape.before (hi : HeapShape h start final m (l₁ ++ l₂) fl) (h1 : Tiled start l₁ z) :
    (lwpHeapPrevBlockfree m z = false ∧ ∀ a ∈ l₁.getLast?, a.use.isSome) ∨
      ∃ l a, l₁ = l ++ [a] ∧ a.use = none ∧ z = a.addr + a.size ∧ m z = a.size ∧ lwpHeapPrevBlockfree m z = true := by
  rcases List.eq_nil_or_concat l₁ with rfl | ⟨l, a, rfl⟩
  · obtain rfl : start = z := h1
    refine .inl ⟨?_, fun c hc => by cases hc⟩
    unfold lwpHeapPrevBlockfree
    rw [hi.ends.1]
    decide
  · rw [List.concat_eq_append] at *
    have hao := hi.tags a (by simp)
    obtain ⟨y, h1, hy, hz⟩ := Tiled.append.1 h1
    have hz : z = a.addr + a.size := by
      have : y + a.size = z := hz
      omega
    have heven := hao.even
    have hback := hao.back
    rw [← hz, HeapBlock.flag] at hback
    cases hu : a.use with
    | some u =>
      refine .inl ⟨?_, fun d hd => ?_⟩
      · rw [hu] at hback
        unfold lwpHeapPrevBlockfree
        rw [hback, and_heapBlockUsed]
        simpa [heapBlockUsed] using (by omega : (a.size + 1) % 2 ≠ 0)
      · obtain rfl : a = d := by simpa using hd
        rw [hu]
        rfl
    | none =>
      rw [hu] at hback
      have hback : m z = a.size := hback
      refine .inr ⟨l, a, rfl, hu, hz, hback, ?_⟩
      unfold lwpHeapPrevBlockfree
      rw [hback, and_heapBlockUsed]
      simpa using (by omega : a.size % 2 = 0)

theorem HeapShape.behind_free (hi : HeapShape h start final m (l₁ ++ c :: l₂) fl) (hc : c.use = none) : ∀ d ∈ l₂.head?, d.use.isSome := by
  intro d hd
  have hs := (List.isChain_append.1 hi.spaced).2.1
  obtain ⟨l, rfl⟩ : ∃ l, l₂ = d :: l := by
    cases l₂ with
    | nil => cases hd
    | cons x l =>
      obtain rfl : x = d := by simpa using hd
      exact ⟨l, rfl⟩
  have := (List.isChain_cons_cons.1 hs).1
  rw [hc] at this
  simpa using this

theorem HeapShape.before_free {a : HeapBlock} (hi : HeapShape h start final m (l₁ ++ a :: l₂) fl) (ha : a.use = none) :
    ∀ d ∈ l₁.getLast?, d.use.isSome := by
  intro d hd
  have := (List.isChain_append.1 hi.spaced).2.2 d hd a (by simp)
  rw [ha] at this
  simpa using this

theorem HeapShape.free_node (hi : HeapShape h start final m bs fl) (hc : c ∈ bs) (hu : c.use = none) :
    ∃ f₁ f₂, fl = f₁ ++ c.addr :: f₂ ∧ m (c.addr + 12) = f₁.getLastD h ∧ m (c.addr + 8) = f₂.headD (h + 4) := by
  have hm : c.addr ∈ fl := by
    rw [hi.free.mem_iff]
    exact List.mem_map.2 ⟨c, List.mem_filter.2 ⟨hc, by rw [hu]; rfl⟩, rfl⟩
  obtain ⟨f₁, f₂, rfl⟩ := List.append_of_mem hm
  have hlist : Linked nextWord prevWord m (h :: (f₁ ++ c.addr :: (f₂ ++ [h + 4]))) := by
    have := hi.list
    rw [List.append_assoc] at this
    exact this
  exact ⟨f₁, f₂, rfl, hlist.between⟩

/-- **What freeing a live pointer writes**, by whether the blocks before and behind it are free. -/
theorem HeapShape.freed (hp : HeapRoom h start final) (hi : HeapShape h start final m (l₁ ++ ([b] ++ l₂)) fl) (hu : b.use = some u)
    (h1 : Tiled start l₁ b.addr) (h2 : Tiled (b.addr + b.size) l₂ final) :
    (lwpHeapPrevBlockfree m b.addr = false ∧ lwpHeapBlockfree m (b.addr + b.size) = false ∧
      (∀ a ∈ l₁.getLast?, a.use.isSome) ∧ (∀ c ∈ l₂.head?, c.use.isSome) ∧
      lwpHeapFree m h (b.addr + 8 + u.1) =
        ((((((m.set (b.addr + 4) b.size).set (b.addr + b.size) b.size).set (b.addr + 12) h).set (b.addr + 8)
          (fl.headD (h + 4))).set (h + 8) b.addr).set (fl.headD (h + 4) + 12) b.addr, true)) ∨
    (lwpHeapPrevBlockfree m b.addr = false ∧ lwpHeapBlockfree m (b.addr + b.size) = true ∧
      (∀ a ∈ l₁.getLast?, a.use.isSome) ∧ ∃ c k f₁ f₂, l₂ = c :: k ∧ c.use = none ∧ c.addr = b.addr + b.size ∧
        fl = f₁ ++ c.addr :: f₂ ∧
        lwpHeapFree m h (b.addr + 8 + u.1) =
          ((((((m.set (b.addr + 4) (b.size + c.size)).set (b.addr + (b.size + c.size)) (b.size + c.size)).set (b.addr + 8)
            (f₂.headD (h + 4))).set (b.addr + 12) (f₁.getLastD h)).set (f₁.getLastD h + 8) b.addr).set
            (f₂.headD (h + 4) + 12) b.addr, true)) ∨
    (lwpHeapPrevBlockfree m b.addr = true ∧ lwpHeapBlockfree m (b.addr + b.size) = false ∧
      (∀ c ∈ l₂.head?, c.use.isSome) ∧ ∃ l a, l₁ = l ++ [a] ∧ a.use = none ∧ b.addr = a.addr + a.size ∧
        lwpHeapFree m h (b.addr + 8 + u.1) =
          ((m.set (a.addr + (a.size + b.size)) (a.size + b.size)).set (a.addr + 4) (a.size + b.size), true)) ∨
    (lwpHeapPrevBlockfree m b.addr = true ∧ lwpHeapBlockfree m (b.addr + b.size) = true ∧
      ∃ l a c k f₁ f₂, l₁ = l ++ [a] ∧ a.use = none ∧ b.addr = a.addr + a.size ∧ l₂ = c :: k ∧ c.use = none ∧
        c.addr = b.addr + b.size ∧ fl = f₁ ++ c.addr :: f₂ ∧
        lwpHeapFree m h (b.addr + 8 + u.1) =
          ((((m.set (a.addr + 4) (a.size + (c.size + b.size))).set (a.addr + (a.size + (c.size + b.size)))
            (a.size + (c.size + b.size))).set (f₂.headD (h + 4) + 12) (f₁.getLastD h)).set (f₁.getLastD h + 8)
            (f₂.headD (h + 4)), true)) := by
  have htop := hp.top
  have hout := hp.outside
  have hb : b ∈ l₁ ++ ([b] ++ l₂) := by simp
  have hbo := hi.tags b hb
  have hbb := hi.tiled.bounds b hb
  have hbig := hbo.big
  have heven := hbo.even
  obtain ⟨o1, o3, o5⟩ := hbo.user u hu
  have hflag : b.flag = b.size + 1 := by rw [HeapBlock.flag, hu]; rfl
  have hfree := lwpHeapFree_live (h := h) hi.ctrl.1 hi.ctrl.2 o3 o1 (by omega) (hbo.front.trans hflag)
    (hbo.back.trans hflag) heven hbb.1 hbb.2 htop
  have hib : HeapShape h start final m ((l₁ ++ [b]) ++ l₂) fl := by simpa using hi
  have hbehind := hib.behind h2
  rcases hi.before h1 with ⟨hpf, hpre⟩ | ⟨l, a, rfl, hau, hba, hma, hpf⟩
  · rw [hpf] at hfree
    simp only [Bool.false_eq_true, if_false] at hfree
    rw [hfree]
    rcases hbehind with ⟨hnf, hpost⟩ | ⟨c, k, rfl, hcu, hca, hmc, hnf⟩
    · rw [lwpHeapRelease_used hnf hi.first (by omega)]
      exact .inl ⟨hpf, hnf, hpre, hpost, rfl⟩
    · have hcm : c ∈ l₁ ++ ([b] ++ c :: k) := by simp
      have hcbig := (hi.tags c hcm).big
      have hceven := (hi.tags c hcm).even
      have hcb := hi.tiled.bounds c hcm
      obtain ⟨f₁, f₂, rfl, hpv, hnx⟩ := hi.free_node hcm hcu
      obtain ⟨⟨hpvm, hpvy⟩, -, -⟩ := hi.neighbours hp
      have hfar := hi.node_far hp hcm hpvm hpvy
      have hfirst : f₁.getLastD h ≠ h → m (h + 8) ≠ b.addr + b.size := by
        intro hne
        rw [hi.first, ← hca]
        cases f₁ with
        | nil => exact absurd rfl hne
        | cons z f =>
          have hnd := hi.fl_nodup
          rw [List.cons_append, List.nodup_cons] at hnd
          exact fun he => hnd.1 (by rw [show z = c.addr from he]; simp)
      have hcross : h + 8 ≠ f₂.headD (h + 4) + 12 := by
        refine hi.words_apart hp List.mem_cons_self ?_
        rw [List.append_assoc]
        exact List.mem_append_right _ (List.mem_cons_of_mem _ (headD_mem (h + 4) f₂))
      rw [hca] at hpv hnx
      rw [lwpHeapRelease_free hnf hmc (by omega) hbig hcbig (by omega) hnx hpv (fun x hx => by omega) hfirst
        (fun _ => by omega) hcross]
      exact .inr (.inl ⟨hpf, hnf, hpre, c, k, f₁, f₂, rfl, hcu, hca, rfl, rfl⟩)
  · have ham : a ∈ (l ++ [a]) ++ ([b] ++ l₂) := by simp
    have habig := (hi.tags a ham).big
    have haeven := (hi.tags a ham).even
    have hab := hi.tiled.bounds a ham
    have hprev : lwpHeapPrevblock m b.addr = a.addr := by
      rw [lwpHeapPrevblock, hma, flagSize_size (by omega) haeven, u32]
      omega
    have hin : lwpHeapBlockin m h a.addr = true := by
      unfold lwpHeapBlockin
      rw [hi.ctrl.1, hi.ctrl.2]
      simp
      omega
    have hfront : m (a.addr + 4) = a.size := by rw [(hi.tags a ham).front, HeapBlock.flag, hau]; rfl
    rw [hpf, hprev, hin] at hfree
    simp only [if_true, Bool.true_eq_false, if_false] at hfree
    rw [hfree]
    rcases hbehind with ⟨hnf, hpost⟩ | ⟨c, k, rfl, hcu, hca, hmc, hnf⟩
    · rw [lwpHeapMergePrev_used hnf hfront (by omega), hba, Nat.add_assoc]
      exact .inr (.inr (.inl ⟨hba ▸ hpf, by rw [← Nat.add_assoc, ← hba]; exact hnf, hpost, l, a, rfl, hau, rfl, rfl⟩))
    · have hcm : c ∈ (l ++ [a]) ++ ([b] ++ c :: k) := by simp
      have hcbig := (hi.tags c hcm).big
      have hceven := (hi.tags c hcm).even
      have hcb := hi.tiled.bounds c hcm
      obtain ⟨f₁, f₂, rfl, hpv, hnx⟩ := hi.free_node hcm hcu
      obtain ⟨-, ⟨hnxm, hnxy⟩, -⟩ := hi.neighbours hp
      have hfar := hi.node_far hp hcm hnxm hnxy
      rw [hca] at hpv hnx
      rw [lwpHeapMergePrev_free hnf hfront hmc (by omega) hba.symm (by omega) hcbig hnx hpv (fun x hx => by omega)]
      exact .inr (.inr (.inr ⟨hpf, hnf, l, a, c, k, f₁, f₂, rfl, hau, hba, rfl, hcu, hca, rfl, rfl⟩))

theorem HeapInv.free_live (hp : HeapPlace h start final pg) (hi : HeapInv h start final pg m bs fl live) (hpl : p ∈ live) :
    (lwpHeapFree m h p.1).2 = true ∧ ∃ bs' fl', HeapInv h start final pg (lwpHeapFree m h p.1).1 bs' fl'
      (live.filter fun q => q.1 ≠ p.1) := by
  obtain ⟨b, hb, hbl⟩ := List.mem_filterMap.1 ((hi.live.mem_iff).1 hpl)
  obtain ⟨u, hu, rfl, -⟩ := hi.pointer hb hbl
  obtain ⟨l₁, l₂, rfl, h1, h2⟩ := hi.shape.around hb
  have hbefore : ∀ {l a}, l₁ = l ++ [a] → Tiled start l a.addr := by
    rintro l a rfl
    obtain ⟨y, h1, hy, -⟩ := Tiled.append.1 h1
    rw [show a.addr = y from hy]
    exact h1
  rcases hi.shape.freed hp.room hu h1 h2 with ⟨-, -, hpre, hpost, hfree⟩ | ⟨-, -, hpre, c, k, f₁, f₂, rfl, hcu, hca, rfl, hfree⟩ |
    ⟨-, -, hpost, l, a, rfl, hau, hba, hfree⟩ | ⟨-, -, l, a, c, k, f₁, f₂, rfl, hau, hba, rfl, hcu, hca, rfl, hfree⟩
  · rw [hfree]
    exact ⟨rfl, _, _, hi.release_alone hp hu h1 h2 hpre hpost⟩
  · rw [hfree]
    have hi' : HeapInv h start final pg m (l₁ ++ ([b, c] ++ k)) (f₁ ++ c.addr :: f₂) live := hi
    have hb' : HeapInv h start final pg m ((l₁ ++ [b]) ++ c :: k) (f₁ ++ c.addr :: f₂) live := by simpa using hi
    exact ⟨rfl, _, _, hi'.release_next hp hu hcu h1 hca (by rw [hca]; exact h2.2) hpre (hb'.shape.behind_free hcu)⟩
  · rw [hfree]
    have hia : HeapInv h start final pg m (l ++ a :: ([b] ++ l₂)) fl live := by simpa using hi
    have hi' : HeapInv h start final pg m (l ++ ([a, b] ++ l₂)) fl live := by simpa using hi
    exact ⟨rfl, _, _, hi'.release_prev hp hu hau (hbefore rfl) hba h2 (hia.shape.before_free hau) hpost⟩
  · rw [hfree]
    have hia : HeapInv h start final pg m (l ++ a :: ([b] ++ c :: k)) (f₁ ++ c.addr :: f₂) live := by simpa using hi
    have hi' : HeapInv h start final pg m (l ++ ([a, b, c] ++ k)) (f₁ ++ c.addr :: f₂) live := by simpa using hi
    have hb' : HeapInv h start final pg m ((l ++ [a, b]) ++ c :: k) (f₁ ++ c.addr :: f₂) live := by simpa using hi
    exact ⟨rfl, _, _, hi'.release_both hp hu hau hcu (hbefore rfl) hba hca (by rw [hca]; exact h2.2)
      (hia.shape.before_free hau) (hb'.shape.behind_free hcu)⟩

/-! ## Runs -/

theorem HeapInv.users (hp : HeapPlace h start final pg) (hi : HeapInv h start final pg m bs fl live)
    (hm : ∀ a, m' a ≠ m a → ∃ p ∈ live, p.1 ≤ a ∧ a < p.1 + p.2) : HeapInv h start final pg m' bs fl live := by
  have ho := hp.outside
  -- a word that is in no live range is as it was
  have hkeep : ∀ a, (∀ b ∈ bs, ∀ u, b.use = some u → a < b.addr + 8 + u.1 ∨ b.addr + 8 + u.1 + u.2 ≤ a) → m' a = m a := by
    intro a ha
    by_contra hne
    obtain ⟨p, hpl, h1, h2⟩ := hm a hne
    obtain ⟨b, hb, hbl⟩ := List.mem_filterMap.1 ((hi.live.mem_iff).1 hpl)
    obtain ⟨u, hu, rfl, -⟩ := hi.pointer hb hbl
    have := ha b hb u hu
    simp only at h1 h2
    omega
  have huser : ∀ b ∈ bs, ∀ u, b.use = some u → start ≤ b.addr ∧ 4 ≤ u.1 ∧ b.addr + 8 + u.1 + u.2 ≤ b.addr + b.size ∧
      b.addr + b.size ≤ final := by
    intro b hb u hu
    obtain ⟨o1, -, -, -, o5⟩ := (hi.ok b hb).user u hu
    have hbb := hi.tiled.bounds b hb
    omega
  have hlink : ∀ x ∈ h :: (fl ++ [h + 4]), m' (x + 8) = m (x + 8) ∧ m' (x + 12) = m (x + 12) := by
    intro x hx
    refine ⟨hkeep _ fun b hb u hu => ?_, hkeep _ fun b hb u hu => ?_⟩
    · have := hi.shape.node_far hp.room hb hx (hi.shape.node_ne_used hp.room hb (by rw [hu]; rfl) hx)
      have := huser b hb u hu
      omega
    · have := hi.shape.node_far hp.room hb hx (hi.shape.node_ne_used hp.room hb (by rw [hu]; rfl) hx)
      have := huser b hb u hu
      omega
  obtain ⟨c1, c2, c3⟩ := hi.ctrl
  refine ⟨⟨?_, ?_, ?_⟩, hi.tiled, fun c hc => ?_, ⟨?_, ?_⟩, hi.spaced, ?_, hi.free, hi.live⟩
  · rw [hkeep h fun b hb u hu => by have := huser b hb u hu; omega, c1]
  · rw [hkeep (h + 4) fun b hb u hu => by have := huser b hb u hu; omega, c2]
  · rw [hkeep (h + 20) fun b hb u hu => by have := huser b hb u hu; omega, c3]
  · have hco := hi.ok c hc
    have hcbig := hco.big
    have hcc := hi.tiled.bounds c hc
    have htag : ∀ a, (a = c.addr + 4 ∨ a = c.addr + c.size) → m' a = m a := by
      intro a ha
      refine hkeep a fun b hb u hu => ?_
      have hub := huser b hb u hu
      rcases hi.tiled.apart hb hc with rfl | hlt | hlt <;> omega
    refine ⟨hco.big, hco.even, (htag _ (.inl rfl)).trans hco.front, (htag _ (.inr rfl)).trans hco.back, fun w hw => ?_⟩
    obtain ⟨d1, d2, d3, d4, d5⟩ := hco.user w hw
    refine ⟨d1, d2, ?_, d4, d5⟩
    rw [hkeep _ fun b hb u hu => ?_, d3]
    have hub := huser b hb u hu
    rcases hi.tiled.apart hb hc with rfl | hlt | hlt
    · obtain rfl := Option.some.inj (hu.symm.trans hw)
      omega
    · omega
    · omega
  · rw [hkeep start fun b hb u hu => by have := huser b hb u hu; omega, hi.ends.1]
  · rw [hkeep (final + 4) fun b hb u hu => by have := huser b hb u hu; omega, hi.ends.2]
  · refine Linked.kept hi.list (hlink h List.mem_cons_self).1 (hlink (h + 4) (by simp)).2 fun x hx => ?_
    exact hlink x (List.mem_cons_of_mem _ (List.mem_append_left _ hx))

theorem HeapInv.write (hp : HeapPlace h start final pg) (hi : HeapInv h start final pg m bs fl live) (hpl : p ∈ live) (h1 : p.1 ≤ a)
    (h2 : a < p.1 + p.2) (v : Nat) : HeapInv h start final pg (m.set a v) bs fl live := by
  refine hi.users hp fun b hb => ?_
  by_cases hba : b = a
  · exact ⟨p, hpl, by omega, by omega⟩
  · exact absurd (Words.set_ne _ _ hba) hb

theorem heap_step (hp : HeapPlace h start final pg) (s : HeapState) (e : HeapEvent)
    (hi : ∃ bs fl, HeapInv h start final pg s.mem bs fl s.live) (he : ((heapSystem h).restrict (heapFits h)).enabled s e) :
    ∃ bs fl, HeapInv h start final pg (heapNext h s e).mem bs fl (heapNext h s e).live := by
  obtain ⟨bs, fl, hi⟩ := hi
  obtain ⟨hg, hf⟩ := he
  cases e with
  | allocate size =>
    have hfit : heapRounding (s.mem (h + 20)) size < 2 ^ 32 := hf
    rw [hi.ctrl.2.2] at hfit
    exact hi.allocate hp hfit
  | free ptr =>
    obtain ⟨p, hpl, rfl⟩ := hg
    obtain ⟨hdone, bs', fl', hinv⟩ := hi.free_live hp hpl
    refine ⟨bs', fl', ?_⟩
    show HeapInv h start final pg (lwpHeapFree s.mem h p.1).1 bs' fl'
      (if (lwpHeapFree s.mem h p.1).2 then s.live.filter (·.1 ≠ p.1) else s.live)
    rw [hdone, if_pos rfl]
    exact hinv
  | write a v =>
    obtain ⟨-, p, hpl, h1, h2⟩ := hg
    exact ⟨bs, fl, hi.write hp hpl h1 h2 v⟩

theorem heapStart_inv (m₀ : Words) (hp : HeapPlace h start (start + (size - 8)) pg) (hs : 24 ≤ size) (hs4 : size % 4 = 0) :
    HeapInv h start (start + (size - 8)) pg (heapStart m₀ h start size pg).mem [⟨start, size - 8, none⟩] [start] [] := by
  have ho := hp.outside
  have htop := hp.top
  have h8 := hp.eight
  have hvalid : lwpHeapPgsizeValid pg = true := by
    unfold lwpHeapPgsizeValid
    have := hp.page_mod
    simp
    omega
  have hover : heapOverhead = 8 := rfl
  obtain ⟨d, hd⟩ : ∃ d, d = size - 8 := ⟨_, rfl⟩
  have hmem : (heapStart m₀ h start size pg).mem =
      (((((((((((m₀.set (h + 20) pg).set start 1).set (start + 4) d).set (start + 8) (h + 4)).set (start + 12) h).set h
        start).set (h + 8) start).set (h + 12) 0).set (h + 16) start).set (start + d) d).set (start + d + 4) 1).set (h + 4)
        (start + d) := by
    unfold heapStart lwpHeapInit
    rw [if_neg (by rw [hvalid, heapMinSize, hover, heapBlockSize]; simp; omega)]
    simp only [hover, ← hd, lwpHeapTail, lwpHeapHead]
    rw [lwpHeapNextblock_of (s := d)]
    · rfl
    · rw [Words.set_ne _ _ (by omega), Words.set_ne _ _ (by omega), Words.set_ne _ _ (by omega), Words.set_ne _ _ (by omega),
        Words.set_ne _ _ (by omega), Words.set_ne _ _ (by omega), Words.set_self]
    · omega
    · omega
  rw [hmem, ← hd]
  refine ⟨⟨?_, ?_, ?_⟩, ⟨rfl, rfl⟩, fun b hb => ?_, ⟨?_, ?_⟩, List.isChain_singleton _, ?_, List.Perm.refl _, List.Perm.refl _⟩
  · simp (disch := omega) only [Words.set_ne, Words.set_self]
  · simp (disch := omega) only [Words.set_self]
  · simp (disch := omega) only [Words.set_ne, Words.set_self]
  · obtain rfl := List.mem_singleton.1 hb
    refine ⟨by show 16 ≤ d; omega, by show d % 4 = 0; omega, ?_, ?_, fun u hu => by cases hu⟩
    · simp (disch := omega) only [Words.set_ne, Words.set_self]
      rfl
    · simp (disch := omega) only [Words.set_ne, Words.set_self]
      rfl
  · simp (disch := omega) only [Words.set_ne, Words.set_self]
    rfl
  · simp (disch := omega) only [Words.set_ne, Words.set_self]
    rfl
  · refine List.isChain_cons_cons.2 ⟨⟨?_, ?_⟩, List.isChain_pair.2 ⟨?_, ?_⟩⟩
    · simp (disch := omega) only [nextWord, Words.set_ne, Words.set_self]
    · simp (disch := omega) only [prevWord, Words.set_ne, Words.set_self]
    · simp (disch := omega) only [nextWord, Words.set_ne, Words.set_self]
    · show Words.set _ _ _ (h + 16) = start
      simp (disch := omega) only [Words.set_ne, Words.set_self]

theorem Tiled.live_apart : ∀ {bs : List HeapBlock} {a z : Nat}, Tiled a bs z →
    (∀ b ∈ bs, ∀ p ∈ b.live, b.addr ≤ p.1 ∧ p.1 + p.2 ≤ b.addr + b.size) →
    (bs.filterMap HeapBlock.live).Pairwise fun p q => p.1 + p.2 ≤ q.1 ∨ q.1 + q.2 ≤ p.1
  | [], _, _, _, _ => List.Pairwise.nil
  | b :: bs, a, z, ht, hin => by
    have ih := Tiled.live_apart ht.2 fun c hc => hin c (List.mem_cons_of_mem _ hc)
    cases hb : b.live with
    | none =>
      rw [List.filterMap_cons_none hb]
      exact ih
    | some p =>
      rw [List.filterMap_cons_some hb, List.pairwise_cons]
      refine ⟨fun q hq => ?_, ih⟩
      obtain ⟨c, hc, hcq⟩ := List.mem_filterMap.1 hq
      have h1 := hin b List.mem_cons_self p hb
      have h2 := hin c (List.mem_cons_of_mem _ hc) q hcq
      have h3 := ht.2.bounds c hc
      have h4 := ht.1
      omega

theorem HeapInv.live_inside (hi : HeapInv h start final pg m bs fl live) (hpl : p ∈ live) :
    start + 12 ≤ p.1 ∧ p.1 + p.2 ≤ final ∧ p.1 % pg = 0 := by
  obtain ⟨b, hb, hbl⟩ := List.mem_filterMap.1 ((hi.live.mem_iff).1 hpl)
  obtain ⟨-, -, -, h1, h2, h3⟩ := hi.pointer hb hbl
  have := hi.tiled.bounds b hb
  exact ⟨by omega, by omega, h3⟩

theorem HeapInv.live_apart (hi : HeapInv h start final pg m bs fl live) :
    live.Pairwise fun p q => p.1 + p.2 ≤ q.1 ∨ q.1 + q.2 ≤ p.1 := by
  refine (hi.live.pairwise_iff fun {p q} hpq => hpq.symm).2 (hi.tiled.live_apart fun b hb p hpb => ?_)
  obtain ⟨-, -, -, h1, h2, -⟩ := hi.pointer hb hpb
  omega

/-- **What a heap is for its users**: `bs` are its blocks in memory order and `fl` is its free list. -/
structure HeapSound (h start final pg : Nat) (m : Words) (live : List (Nat × Nat)) (bs : List HeapBlock) (fl : List Nat) :
    Prop where
  tiled : Tiled start bs final
  tags : ∀ b ∈ bs, lwpHeapBlocksize m b.addr = b.size ∧ lwpHeapBlockfree m b.addr = b.use.isNone ∧
    m (b.addr + b.size) = m (b.addr + 4)
  list : Linked nextWord prevWord m (lwpHeapHead h :: (fl ++ [lwpHeapTail h]))
  once : fl.Nodup
  free : ∀ x, x ∈ fl ↔ ∃ b ∈ bs, b.use = none ∧ b.addr = x
  spaced : bs.IsChain fun b c => b.use.isSome ∨ c.use.isSome
  used : live.Perm (bs.filterMap HeapBlock.live)
  aligned : ∀ p ∈ live, p.1 % pg = 0
  inside : ∀ p ∈ live, start ≤ p.1 ∧ p.1 + p.2 ≤ final
  untagged : ∀ p ∈ live, ∀ t ∈ bs.map (·.addr) ++ [final], p.1 + p.2 ≤ t ∨ t + 8 ≤ p.1
  apart : live.Pairwise fun p q => p.1 + p.2 ≤ q.1 ∨ q.1 + q.2 ≤ p.1
  whole : live = [] → bs = [⟨start, final - start, none⟩] ∧ fl = [start]

theorem HeapInv.sound (hp : HeapPlace h start final pg) (hlt : start < final) (hi : HeapInv h start final pg m bs fl live) :
    HeapSound h start final pg m live bs fl := by
  have htop := hp.top
  have hblock : ∀ p ∈ live, ∃ b ∈ bs, b.live = some p := fun p hpl => List.mem_filterMap.1 ((hi.live.mem_iff).1 hpl)
  refine ⟨hi.tiled, fun b hb => ?_, hi.list, hi.shape.fl_nodup, fun x => ?_, hi.spaced, hi.live,
    fun p hpl => (hi.live_inside hpl).2.2, fun p hpl => ?_, fun p hpl t ht => ?_, hi.live_apart, fun hnil => ?_⟩
  · have hbo := hi.ok b hb
    have hbb := hi.tiled.bounds b hb
    refine ⟨?_, ?_, hbo.back.trans hbo.front.symm⟩
    · rw [lwpHeapBlocksize, hbo.front, HeapBlock.flag]
      split
      · exact flagSize_used (by omega) hbo.even
      · exact flagSize_size (by omega) hbo.even
    · rw [lwpHeapBlockfree_iff b.use.isSome hbo.even hbo.front]
      simp
  · rw [hi.free.mem_iff]
    simp only [freeBlocks, List.mem_map, List.mem_filter, Option.isNone_iff_eq_none, and_assoc]
  · have := hi.live_inside hpl
    omega
  · obtain ⟨b, hb, hbl⟩ := hblock p hpl
    obtain ⟨-, -, -, h1, h2, -⟩ := hi.pointer hb hbl
    have hbb := hi.tiled.bounds b hb
    rcases List.mem_append.1 ht with ht | ht
    · obtain ⟨c, hc, rfl⟩ := List.mem_map.1 ht
      have hcbig := (hi.ok c hc).big
      rcases hi.tiled.apart hb hc with rfl | hlt | hlt
      · omega
      · omega
      · omega
    · have := List.mem_singleton.1 ht
      omega
  · have hl := hi.live
    rw [hnil, List.nil_perm, List.filterMap_eq_nil_iff] at hl
    have hnone : ∀ b ∈ bs, b.use = none := fun b hb => by simpa [HeapBlock.live] using hl b hb
    have hfree := hi.free
    have hsp := hi.spaced
    have ht := hi.tiled
    cases bs with
    | nil =>
      have : start = final := ht
      omega
    | cons b l =>
      have hb := hnone b List.mem_cons_self
      cases l with
      | cons c l =>
        have hs := (List.isChain_cons_cons.1 hsp).1
        rw [hb, hnone c (by simp)] at hs
        simp at hs
      | nil =>
        have h1 : b.addr = start := ht.1
        have h2 : start + b.size = final := ht.2
        obtain rfl : b = ⟨start, final - start, none⟩ := by
          rw [HeapBlock.mk.injEq]
          exact ⟨h1, by omega, hb⟩
        exact ⟨rfl, List.perm_singleton.1 hfree⟩

theorem heap_run_inv (m₀ : Words) {es : List HeapEvent} (hp : HeapPlace h start (start + (size - 8)) pg) (hs : 24 ≤ size)
    (hs4 : size % 4 = 0) (hl : ((heapSystem h).restrict (heapFits h)).Legal (heapStart m₀ h start size pg) es) :
    ∃ bs fl, HeapInv h start (start + (size - 8)) pg ((heapSystem h).run (heapStart m₀ h start size pg) es).mem bs fl
      ((heapSystem h).run (heapStart m₀ h start size pg) es).live :=
  hl.invariant (I := fun s => ∃ bs fl, HeapInv h start (start + (size - 8)) pg s.mem bs fl s.live)
    (fun s e hs he => heap_step hp s e hs he) ⟨_, _, heapStart_inv m₀ hp hs hs4⟩

/-- **The heap invariant.**  On every run whose allocations fit in the address space, the blocks tile the heap with agreeing
tags, the free list holds exactly the free blocks, and the live pointers are aligned, inside, and apart. -/
theorem heap_blocks {h start size pg : Nat} {m₀ : Words} {es : List HeapEvent} (hpage : ∃ n, pg = 2 ^ n) (h8 : pg % 8 = 0)
    (hstart : start % 4 = 0) (hsize : size % 4 = 0) (hmin : heapMinSize ≤ size) (htop : start + size ≤ 2 ^ 32)
    (hout : h + 24 ≤ start ∨ start + size ≤ h)
    (hl : ((heapSystem h).restrict (heapFits h)).Legal (heapStart m₀ h start size pg) es) :
    ∃ bs fl, HeapSound h start (start + (size - heapOverhead)) pg ((heapSystem h).run (heapStart m₀ h start size pg) es).mem
      ((heapSystem h).run (heapStart m₀ h start size pg) es).live bs fl := by
  have hmin' : 24 ≤ size := hmin
  have hover : heapOverhead = 8 := rfl
  have hpos : 0 < pg := by
    obtain ⟨n, rfl⟩ := hpage
    exact Nat.two_pow_pos n
  have hp : HeapPlace h start (start + (size - 8)) pg := ⟨hpage, by omega, hstart, by omega, by omega⟩
  rw [hover]
  obtain ⟨bs, fl, hi⟩ := heap_run_inv _ hp hmin' hsize hl
  exact ⟨bs, fl, hi.sound hp (by omega)⟩

/-- Two allocations, a write, and both pointers freed in turn. -/
theorem heap_blocks_sample :
    ∃ bs fl, HeapSound 0 32 (32 + (256 - heapOverhead)) 8
      ((heapSystem 0).run (heapStart (fun _ => 0) 0 32 256 8)
        [.allocate 10, .allocate 40, .write 208 7, .free 264, .free 208]).mem
      ((heapSystem 0).run (heapStart (fun _ => 0) 0 32 256 8)
        [.allocate 10, .allocate 40, .write 208 7, .free 264, .free 208]).live bs fl :=
  heap_blocks ⟨3, rfl⟩ (by decide) (by decide) (by decide) (by decide) (by decide) (by decide) (by decide +kernel)

/-- An allocation that comes to the whole address space is given the smallest block. -/
theorem heap_rounding_wraps :
    (heapSystem 0).Legal (heapStart (fun _ => 0) 0 32 64 8) [.allocate (2 ^ 32 - 16)] ∧
      ¬ ∃ bs fl, HeapSound 0 32 (32 + (64 - heapOverhead)) 8
        ((heapSystem 0).run (heapStart (fun _ => 0) 0 32 64 8) [.allocate (2 ^ 32 - 16)]).mem
        ((heapSystem 0).run (heapStart (fun _ => 0) 0 32 64 8) [.allocate (2 ^ 32 - 16)]).live bs fl := by
  refine ⟨by decide +kernel, ?_⟩
  rintro ⟨bs, fl, hs⟩
  have hin := (hs.inside (88, 2 ^ 32 - 16) (by decide +kernel)).2
  exact absurd hin (by decide)

end Libogc
