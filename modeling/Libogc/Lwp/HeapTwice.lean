import Libogc.Lwp.HeapRuns
/-!
# HeapTwice — a pointer that is freed twice

The second call finds the block again through the offset before the user's pointer, which a release may have overwritten with
a link of the free list, and tells by the block's tags whether it is in use.  A release between two free blocks rewrites
neither tag.
-/
namespace Libogc

open Runs Chains

variable {h start final pg : Nat} {m m' : Words} {bs : List HeapBlock} {fl : List Nat}

/-- Where the system's heaps are: cached addresses, with their control blocks. -/
structure HeapCached (h start final : Nat) : Prop where
  low : sysBaseCached ≤ start ∧ sysBaseCached ≤ h
  high : final + 8 ≤ sysBaseUncached ∧ h + 24 ≤ sysBaseUncached

/-! ## The second call -/

variable {ptr off s pv : Nat} {c a : HeapBlock}

theorem lwpHeapFree_refused
    (hb : lwpHeapBlockin m h (lwpHeapUsrblockat m ptr) = false ∨ lwpHeapBlockfree m (lwpHeapUsrblockat m ptr) = true) :
    lwpHeapFree m h ptr = (m, false) := by
  unfold lwpHeapFree
  exact if_pos hb

theorem lwpHeapFree_mismatch
    (hne : m (lwpHeapUsrblockat m ptr + 4) ≠ m (lwpHeapBlockat (lwpHeapUsrblockat m ptr) (lwpHeapBlocksize m (lwpHeapUsrblockat m ptr)))) :
    lwpHeapFree m h ptr = (m, false) := by
  unfold lwpHeapFree
  dsimp only
  split
  · rfl
  · exact if_pos (.inr hne)

variable {x nx : Nat} {b : HeapBlock} {u : Nat × Nat}

theorem lwpHeapUsrblockat_offset (hx : x + 8 + off < 2 ^ 32) (hm : m (x + 4 + off) = off) : lwpHeapUsrblockat m (x + 8 + off) = x := by
  unfold lwpHeapUsrblockat lwpHeapBlockat
  simp only [show x + 8 + off - 4 = x + 4 + off by omega, hm, show heapBlockUsedOverhead = 8 from rfl]
  unfold u32
  omega

/-- **A link in the place of the offset** leads out of the heap: no two cached addresses are as far apart as one of them is
from zero. -/
theorem HeapCached.link_out (hc : HeapCached h start final) (hctrl : m h = start ∧ m (h + 4) = final) {y : Nat}
    (hp1 : start + 8 ≤ ptr) (hp2 : ptr ≤ final + 8) (hy : m (ptr - 4) = y) (hy1 : sysBaseCached ≤ y) (hy2 : y ≤ sysBaseUncached) :
    lwpHeapBlockin m h (lwpHeapUsrblockat m ptr) = false := by
  have hlo := hc.low
  have hhi := hc.high
  have h1 : sysBaseCached = 2147483648 := rfl
  have h2 : sysBaseUncached = 3221225472 := rfl
  have hat : lwpHeapUsrblockat m ptr = (ptr + (2 ^ 32 - y) + (2 ^ 32 - 8)) % 2 ^ 32 := by
    unfold lwpHeapUsrblockat lwpHeapBlockat
    simp only [hy, show heapBlockUsedOverhead = 8 from rfl]
    unfold u32
    omega
  rw [hat, lwpHeapBlockin, hctrl.1, hctrl.2]
  simp only [decide_eq_false_iff_not]
  omega

theorem HeapCached.node (hc : HeapCached h start final) (hi : HeapShape h start final m bs fl) (hx : x ∈ h :: (fl ++ [h + 4])) :
    sysBaseCached ≤ x ∧ x ≤ sysBaseUncached := by
  have hlo := hc.low
  have hhi := hc.high
  rcases List.mem_cons.1 hx with rfl | hx
  · omega
  rcases List.mem_append.1 hx with hx | hx
  · obtain ⟨-, -, -, -, h1, h2, -⟩ := hi.node hx
    omega
  · rw [List.mem_singleton.1 hx]
    omega

theorem HeapShape.ctrl_far (hr : HeapRoom h start final) (hi : HeapShape h start final m bs fl) (hx : x ∈ h :: (fl ++ [h + 4])) :
    x + 8 ≠ h ∧ x + 8 ≠ h + 4 ∧ x + 12 ≠ h ∧ x + 12 ≠ h + 4 := by
  have ho := hr.outside
  rcases List.mem_cons.1 hx with rfl | hx
  · omega
  rcases List.mem_append.1 hx with hx | hx
  · obtain ⟨-, -, -, -, h1, h2, -⟩ := hi.node hx
    omega
  · have := List.mem_singleton.1 hx
    omega

/-- After a release the block is refused: it is free, and what is in the place of the offset is the offset or a link. -/
theorem HeapCached.refused (hc : HeapCached h start final) (hctrl : m h = start ∧ m (h + 4) = final) (hx : start ≤ x)
    (hz : x + 8 + off ≤ final + 8) (hs4 : s % 4 = 0) (htag : m (x + 4) = s)
    (hword : m (x + 4 + off) = off ∨ sysBaseCached ≤ m (x + 4 + off) ∧ m (x + 4 + off) ≤ sysBaseUncached) :
    lwpHeapFree m h (x + 8 + off) = (m, false) := by
  have hhi := hc.high
  have hbase : sysBaseUncached = 3221225472 := rfl
  refine lwpHeapFree_refused ?_
  rcases hword with hword | ⟨hy1, hy2⟩
  · rw [lwpHeapUsrblockat_offset (by omega) hword]
    exact .inr (lwpHeapBlockfree_iff false hs4 htag)
  · exact .inl (hc.link_out hctrl (by omega) hz (by rw [show x + 8 + off - 4 = x + 4 + off by omega]) hy1 hy2)

theorem HeapShape.used_far (hr : HeapRoom h start final) (hi : HeapShape h start final m bs fl) (hb : b ∈ bs) (hu : b.use.isSome)
    (hx : x ∈ h :: (fl ++ [h + 4])) : x + 12 < b.addr ∨ b.addr + b.size < x + 8 :=
  hi.node_far hr hb hx (hi.node_ne_used hr hb hu hx)

/-- **After a release that links the block into the list** it is free, and in the place of the offset is the offset or a link. -/
theorem HeapCached.linked_refused (hc : HeapCached h start final) (hi : HeapShape h start final m bs fl) (hb : b ∈ bs)
    (hu : b.use = some u) (hs4 : s % 4 = 0) (hnm : nx ∈ h :: (fl ++ [h + 4])) (hpm : pv ∈ h :: (fl ++ [h + 4]))
    (hctrl : m' h = m h ∧ m' (h + 4) = m (h + 4)) (htag : m' (b.addr + 4) = s) (hnext : m' (b.addr + 8) = nx)
    (hprev : m' (b.addr + 12) = pv) (hoff : u.1 ≠ 4 → u.1 ≠ 8 → m' (b.addr + 4 + u.1) = m (b.addr + 4 + u.1)) :
    lwpHeapFree m' h (b.addr + 8 + u.1) = (m', false) := by
  have hbb := hi.tiled.bounds b hb
  obtain ⟨-, ho, htop⟩ := (hi.tags b hb).user u hu
  refine hc.refused ⟨hctrl.1.trans hi.ctrl.1, hctrl.2.trans hi.ctrl.2⟩ hbb.1 (by omega) hs4 htag ?_
  by_cases h4 : u.1 = 4
  · rw [h4, show b.addr + 4 + 4 = b.addr + 8 by omega, hnext]
    exact .inr (hc.node hi hnm)
  by_cases h8 : u.1 = 8
  · rw [h8, show b.addr + 4 + 8 = b.addr + 12 by omega, hprev]
    exact .inr (hc.node hi hpm)
  · exact .inl ((hoff h4 h8).trans ho)

/-- After a release between blocks in use the block is the first of the list. -/
theorem HeapCached.alone_refused (hr : HeapRoom h start final) (hc : HeapCached h start final)
    (hi : HeapShape h start final m bs fl) (hb : b ∈ bs) (hu : b.use = some u) (hnm : nx ∈ h :: (fl ++ [h + 4]))
    (hm : m' = (((((m.set (b.addr + 4) b.size).set (b.addr + b.size) b.size).set (b.addr + 12) h).set (b.addr + 8) nx).set (h + 8) b.addr).set (nx + 12) b.addr) :
    lwpHeapFree m' h (b.addr + 8 + u.1) = (m', false) := by
  have hch : ∀ y, m' y ≠ m y →
      y = nx + 12 ∨ y = h + 8 ∨ y = b.addr + 8 ∨ y = b.addr + 12 ∨ y = b.addr + b.size ∨ y = b.addr + 4 := by
    rw [hm]
    iterate 6 refine Words.changed_set (by omega) ?_
    exact fun y hy => absurd rfl hy
  have ho := hr.outside
  have hbo := hi.tags b hb
  have hbb := hi.tiled.bounds b hb
  have hbig := hbo.big
  have hctrl : m' h = m h ∧ m' (h + 4) = m (h + 4) := by
    obtain ⟨-, -, c1, c2⟩ := hi.ctrl_far hr hnm
    exact ⟨Words.kept hch (by omega), Words.kept hch (by omega)⟩
  obtain ⟨o1, -, o5⟩ := hbo.user u hu
  have hnx := hi.used_far hr hb (by rw [hu]; rfl) hnm
  refine hc.linked_refused hi hb hu hbo.even hnm List.mem_cons_self hctrl ?_ ?_ ?_ fun h4 h8 => ?_
  · simp (disch := omega) only [hm, Words.set_ne, Words.set_self]
  · simp (disch := omega) only [hm, Words.set_ne, Words.set_self]
  · simp (disch := omega) only [hm, Words.set_ne, Words.set_self]
  · exact Words.kept hch (by omega)

/-- After a release before a free block it has taken over that block's links. -/
theorem HeapCached.front_refused (hr : HeapRoom h start final) (hc : HeapCached h start final)
    (hi : HeapShape h start final m bs fl) (hb : b ∈ bs) (hu : b.use = some u) (hcb : c ∈ bs) (hca : c.addr = b.addr + b.size)
    (hnm : nx ∈ h :: (fl ++ [h + 4])) (hpm : pv ∈ h :: (fl ++ [h + 4]))
    (hm : m' = (((((m.set (b.addr + 4) (b.size + c.size)).set (b.addr + (b.size + c.size)) (b.size + c.size)).set (b.addr + 8) nx).set (b.addr + 12) pv).set (pv + 8) b.addr).set (nx + 12) b.addr) :
    lwpHeapFree m' h (b.addr + 8 + u.1) = (m', false) := by
  have hch : ∀ y, m' y ≠ m y → y = nx + 12 ∨ y = pv + 8 ∨ y = b.addr + 12 ∨ y = b.addr + 8 ∨
      y = b.addr + (b.size + c.size) ∨ y = b.addr + 4 := by
    rw [hm]
    iterate 6 refine Words.changed_set (by omega) ?_
    exact fun y hy => absurd rfl hy
  have ho := hr.outside
  have hbo := hi.tags b hb
  have hbig := hbo.big
  have heven := hbo.even
  have hbb := hi.tiled.bounds b hb
  have hceven := (hi.tags c hcb).even
  have hcc := hi.tiled.bounds c hcb
  have hctrl : m' h = m h ∧ m' (h + 4) = m (h + 4) := by
    obtain ⟨-, -, c1, c2⟩ := hi.ctrl_far hr hnm
    obtain ⟨c3, c4, -, -⟩ := hi.ctrl_far hr hpm
    exact ⟨Words.kept hch (by omega), Words.kept hch (by omega)⟩
  obtain ⟨o1, -, o5⟩ := hbo.user u hu
  have hnx := hi.used_far hr hb (by rw [hu]; rfl) hnm
  have hpv := hi.used_far hr hb (by rw [hu]; rfl) hpm
  refine hc.linked_refused (s := b.size + c.size) hi hb hu (by omega) hnm hpm hctrl ?_ ?_ ?_ fun h4 h8 => ?_
  · simp (disch := omega) only [hm, Words.set_ne, Words.set_self]
  · simp (disch := omega) only [hm, Words.set_ne, Words.set_self]
  · simp (disch := omega) only [hm, Words.set_ne, Words.set_self]
  · exact Words.kept hch (by omega)

/-- After a release behind a free block the tags differ: the next block's copy is the size of both. -/
theorem HeapShape.grown_refused (hr : HeapRoom h start final) (hi : HeapShape h start final m bs fl) (ha : a ∈ bs) (hb : b ∈ bs)
    (hu : b.use = some u) (hba : b.addr = a.addr + a.size)
    (hm : m' = (m.set (a.addr + (a.size + b.size)) (a.size + b.size)).set (a.addr + 4) (a.size + b.size)) :
    lwpHeapFree m' h (b.addr + 8 + u.1) = (m', false) := by
  have htop := hr.top
  have habig := (hi.tags a ha).big
  have haeven := (hi.tags a ha).even
  have hbo := hi.tags b hb
  have hbig := hbo.big
  have heven := hbo.even
  have hbb := hi.tiled.bounds b hb
  obtain ⟨o1, o3, o5⟩ := hbo.user u hu
  have hfront : m (b.addr + 4) = b.size + 1 := by rw [hbo.front, HeapBlock.flag, hu]; rfl
  have hat : lwpHeapUsrblockat m' (b.addr + 8 + u.1) = b.addr := by
    refine lwpHeapUsrblockat_offset (by omega) ?_
    rw [hm, Words.set_ne _ _ (by omega), Words.set_ne _ _ (by omega)]
    exact o3
  have htag : m' (b.addr + 4) = b.size + 1 := by
    rw [hm, Words.set_ne _ _ (by omega), Words.set_ne _ _ (by omega)]
    exact hfront
  have hcopy : m' (b.addr + b.size) = a.size + b.size := by
    rw [hm, Words.set_ne _ _ (by omega), show b.addr + b.size = a.addr + (a.size + b.size) by omega, Words.set_self]
  refine lwpHeapFree_mismatch ?_
  rw [hat, lwpHeapBlocksize, htag, flagSize_used (by omega) heven, lwpHeapBlockat, u32_of_lt (by omega), hcopy]
  omega

/-- **A release that leaves the block's words alone can be made again**, behind a free block. -/
theorem HeapShape.freed_again (hr : HeapRoom h start final) (hi : HeapShape h start final m bs fl) (ha : a ∈ bs)
    (hau : a.use = none) (hb : b ∈ bs) (hu : b.use = some u) (hba : b.addr = a.addr + a.size) (hctrl : m' h = m h ∧ m' (h + 4) = m (h + 4))
    (hm : ∀ y, y = b.addr ∨ y = b.addr + 4 ∨ y = b.addr + 4 + u.1 ∨ y = b.addr + b.size → m' y = m y) :
    (lwpHeapFree m' h (b.addr + 8 + u.1)).2 = true := by
  have htop := hr.top
  have hao := hi.tags a ha
  have habig := hao.big
  have haeven := hao.even
  have hab := hi.tiled.bounds a ha
  have hbo := hi.tags b hb
  have hbb := hi.tiled.bounds b hb
  obtain ⟨o1, o3, o5⟩ := hbo.user u hu
  have hflag : b.flag = b.size + 1 := by rw [HeapBlock.flag, hu]; rfl
  have hsize : m' b.addr = a.size := by
    rw [hm _ (.inl rfl), hba, hao.back, HeapBlock.flag, hau]
    rfl
  have hpf : lwpHeapPrevBlockfree m' b.addr = true := by
    unfold lwpHeapPrevBlockfree
    rw [hsize, and_heapBlockUsed]
    simpa using (by omega : a.size % 2 = 0)
  have hprev : lwpHeapPrevblock m' b.addr = a.addr := by
    rw [lwpHeapPrevblock, hsize, flagSize_size (by omega) haeven, u32]
    omega
  have hin : lwpHeapBlockin m' h a.addr = true := by
    unfold lwpHeapBlockin
    rw [hctrl.1, hctrl.2, hi.ctrl.1, hi.ctrl.2]
    simp
    omega
  rw [lwpHeapFree_live (h := h) (hctrl.1.trans hi.ctrl.1) (hctrl.2.trans hi.ctrl.2)
    ((hm _ (.inr (.inr (.inl rfl)))).trans o3) o1 (by omega)
    ((hm _ (.inr (.inl rfl))).trans (hbo.front.trans hflag))
    ((hm _ (.inr (.inr (.inr rfl)))).trans (hbo.back.trans hflag)) hbo.even hbb.1 hbb.2 htop, if_pos hpf, hprev, hin]
  rfl

theorem HeapShape.both_again (hr : HeapRoom h start final) (hi : HeapShape h start final m bs fl) (ha : a ∈ bs) (hau : a.use = none)
    (hb : b ∈ bs) (hu : b.use = some u) (hba : b.addr = a.addr + a.size) (hcb : c ∈ bs) (hca : c.addr = b.addr + b.size)
    (hnm : nx ∈ h :: (fl ++ [h + 4])) (hpm : pv ∈ h :: (fl ++ [h + 4]))
    (hm : m' = (((m.set (a.addr + 4) (a.size + (c.size + b.size))).set (a.addr + (a.size + (c.size + b.size))) (a.size + (c.size + b.size))).set (nx + 12) pv).set (pv + 8) nx) :
    (lwpHeapFree m' h (b.addr + 8 + u.1)).2 = true := by
  have hch : ∀ y, m' y ≠ m y → y = pv + 8 ∨ y = nx + 12 ∨ y = a.addr + (a.size + (c.size + b.size)) ∨ y = a.addr + 4 := by
    rw [hm]
    iterate 4 refine Words.changed_set (by omega) ?_
    exact fun y hy => absurd rfl hy
  have ho := hr.outside
  have habig := (hi.tags a ha).big
  have hab := hi.tiled.bounds a ha
  have hcc := hi.tiled.bounds c hcb
  have hcbig := (hi.tags c hcb).big
  have hctrl : m' h = m h ∧ m' (h + 4) = m (h + 4) := by
    obtain ⟨-, -, c1, c2⟩ := hi.ctrl_far hr hnm
    obtain ⟨c3, c4, -, -⟩ := hi.ctrl_far hr hpm
    exact ⟨Words.kept hch (by omega), Words.kept hch (by omega)⟩
  obtain ⟨o1, -, o5⟩ := (hi.tags b hb).user u hu
  have hnx := hi.used_far hr hb (by rw [hu]; rfl) hnm
  have hpv := hi.used_far hr hb (by rw [hu]; rfl) hpm
  refine hi.freed_again hr ha hau hb hu hba hctrl fun y hy => Words.kept hch ?_
  have hin : b.addr ≤ y ∧ y ≤ b.addr + b.size := by omega
  omega

/-- **A pointer freed twice.**  The second call is refused, and writes nothing, exactly when one of the blocks next to the
pointer's was in use at the first. -/
theorem heap_free_twice {b : HeapBlock} {p : Nat × Nat} (hr : HeapRoom h start final) (hc : HeapCached h start final)
    (hi : HeapShape h start final m bs fl) (hb : b ∈ bs) (hp : b.live = some p) :
    ((lwpHeapFree m h p.1).2 = true →
      lwpHeapFree (lwpHeapFree m h p.1).1 h p.1 = ((lwpHeapFree m h p.1).1, false)) ↔
    ¬ (lwpHeapPrevBlockfree m b.addr = true ∧ lwpHeapBlockfree m (b.addr + b.size) = true) := by
  obtain ⟨u, hu, rfl⟩ := Option.map_eq_some_iff.1 hp
  obtain ⟨l₁, l₂, rfl, h1, h2⟩ := hi.around hb
  dsimp only
  rcases hi.freed hr hu h1 h2 with ⟨hpf, hnf, -, -, hfree⟩ | ⟨hpf, hnf, -, c, k, f₁, f₂, rfl, hcu, hca, rfl, hfree⟩ |
    ⟨hpf, hnf, -, l, a, rfl, hau, hba, hfree⟩ | ⟨hpf, hnf, l, a, c, k, f₁, f₂, rfl, hau, hba, rfl, hcu, hca, rfl, hfree⟩
  · rw [hfree]
    refine ⟨fun _ hn => Bool.false_ne_true (hpf.symm.trans hn.1), fun _ _ => ?_⟩
    exact hc.alone_refused hr hi hb hu (List.mem_cons_of_mem _ (headD_mem (h + 4) fl)) rfl
  · rw [hfree]
    refine ⟨fun _ hn => Bool.false_ne_true (hpf.symm.trans hn.1), fun _ _ => ?_⟩
    obtain ⟨⟨hpm, -⟩, ⟨hnm, -⟩, -⟩ := hi.neighbours hr
    exact hc.front_refused hr hi hb hu (c := c) (by simp) hca hnm hpm rfl
  · rw [hfree]
    refine ⟨fun _ hn => Bool.false_ne_true (hnf.symm.trans hn.2), fun _ _ => ?_⟩
    exact hi.grown_refused hr (a := a) (by simp) hb hu hba rfl
  · refine ⟨fun himp => ?_, fun hn => absurd ⟨hpf, hnf⟩ hn⟩
    rw [hfree] at himp
    obtain ⟨⟨hpm, -⟩, ⟨hnm, -⟩, -⟩ := hi.neighbours hr
    have hagain := hi.both_again hr (a := a) (c := c) (by simp) hau hb hu hba (by simp) hca hnm hpm rfl
    have := congrArg Prod.snd (himp rfl)
    rw [hagain] at this
    cases this

/-- One allocation from a heap of 64 bytes: the block before the pointer's is free, and the heap ends behind it. -/
theorem heap_free_twice_last :
    lwpHeapFree (lwpHeapFree (lwpHeapAllocate (heapStart (fun _ => 0) 0x80000000 0x80000020 64 8).mem 0x80000000 10).1
        0x80000000 0x80000048).1 0x80000000 0x80000048 =
      ((lwpHeapFree (lwpHeapAllocate (heapStart (fun _ => 0) 0x80000000 0x80000020 64 8).mem 0x80000000 10).1
        0x80000000 0x80000048).1, false) := by
  have hi : HeapShape 0x80000000 0x80000020 0x80000058
      (lwpHeapAllocate (heapStart (fun _ => 0) 0x80000000 0x80000020 64 8).mem 0x80000000 10).1
      [⟨0x80000020, 24, none⟩, ⟨0x80000038, 32, some (8, 10)⟩] [0x80000020] := by
    refine ⟨by decide +kernel, ⟨rfl, rfl, rfl⟩, fun b hb => ?_, by decide +kernel, by decide, ?_, by decide⟩
    · simp only [List.mem_cons, List.not_mem_nil, or_false] at hb
      rcases hb with rfl | rfl
      · exact ⟨by decide, by decide, by decide +kernel, by decide +kernel, fun u hu => by cases hu⟩
      · exact ⟨by decide, by decide, by decide +kernel, by decide +kernel, fun u hu => by cases hu; decide +kernel⟩
    · unfold Linked
      decide +kernel
  exact (heap_free_twice (b := ⟨0x80000038, 32, some (8, 10)⟩) (p := (0x80000048, 10)) ⟨by decide, by decide, by decide⟩
    ⟨by decide, by decide⟩ hi (by simp) rfl).2 (by decide +kernel) (by decide +kernel)

/-- Three allocations, of which the outer two are freed first: the third pointer can be freed twice. -/
theorem heap_free_twice_between :
    HeapShape 0x80000000 0x80000020 0x80000118
      ((heapSystem 0x80000000).run (heapStart (fun _ => 0) 0x80000000 0x80000020 256 8)
        [.allocate 10, .allocate 10, .allocate 10, .free 0x80000108, .free 0x800000C8]).mem
      [⟨0x80000020, 184, none⟩, ⟨0x800000D8, 32, some (8, 10)⟩, ⟨0x800000F8, 32, none⟩] [0x800000F8, 0x80000020] ∧
    (lwpHeapFree ((heapSystem 0x80000000).run (heapStart (fun _ => 0) 0x80000000 0x80000020 256 8)
        [.allocate 10, .allocate 10, .allocate 10, .free 0x80000108, .free 0x800000C8]).mem 0x80000000 0x800000E8).2 = true ∧
    (lwpHeapFree (lwpHeapFree ((heapSystem 0x80000000).run (heapStart (fun _ => 0) 0x80000000 0x80000020 256 8)
        [.allocate 10, .allocate 10, .allocate 10, .free 0x80000108, .free 0x800000C8]).mem 0x80000000 0x800000E8).1
        0x80000000 0x800000E8).2 = true := by
  refine ⟨⟨by decide +kernel, ⟨rfl, rfl, rfl, rfl⟩, fun b hb => ?_, by decide +kernel, by decide, ?_, by decide⟩,
    by decide +kernel, by decide +kernel⟩
  · simp only [List.mem_cons, List.not_mem_nil, or_false] at hb
    rcases hb with rfl | rfl | rfl
    · exact ⟨by decide, by decide, by decide +kernel, by decide +kernel, fun u hu => by cases hu⟩
    · exact ⟨by decide, by decide, by decide +kernel, by decide +kernel, fun u hu => by cases hu; decide +kernel⟩
    · exact ⟨by decide, by decide, by decide +kernel, by decide +kernel, fun u hu => by cases hu⟩
  · unfold Linked
    decide +kernel

end Libogc
