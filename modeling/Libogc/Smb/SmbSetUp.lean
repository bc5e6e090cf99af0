import Libogc.Smb.SmbCaches
/-!
# SmbSetUp — setting up the caches when allocations fail

`SMBEnableReadAhead` sets the count of the pages before it has any.  Where the array or the buffer of a page does not come, the count stays,
and `__smb_close` looks through an array that is not there; where the write block does not come, or no pages are asked for, `__smb_write`
writes to no block.  `DestroySMBReadAheadCache` puts the count and the pointers back.
-/
namespace Libogc

open Runs Ledger

namespace SmbCaches

/-- **Fully cached**: the buffers of `SMB_RA_pages` pages and the write block are allocated. -/
structure Full (s : SmbCaches) : Prop where
  count : 0 < s.raPages
  array : s.heap.Live s.raCache
  write : s.heap.Live s.writePtr
  pages : ∀ i : Nat, (i : Int) < s.raPages → s.heap.Live (s.page i).ptr

/-- No pointer was used that is null or to a freed block, and no block was freed twice. -/
structure Sound (s : SmbCaches) : Prop where
  ok : s.ok = true
  freed : (replay [] s.heap.log).isSome = true

/-- Whatever is called from here on, up to the next set-up and with it, is sound. -/
def Safe (p : Places) (w : SmbPeer) (s : SmbCaches) : Prop :=
  ∀ fuel es, (smbCacheSystem p w fuel).Legal s es → (∀ e ∈ es.dropLast, e.mounts = false) → ((smbCacheSystem p w fuel).run s es).Sound

end SmbCaches

/-- A set-up that leaves the caches in order, when `tries` allocations were tried before: it asks for pages, and every allocation succeeds.
A count that is negative as an `int` does as well, when there is a write block and no array. -/
def SmbSetUp (p : Places) (tries : Nat) (pages : UInt32) : Prop :=
  (0 < s32 pages.toNat ∧ p.Serves tries ((s32 pages.toNat).toNat + 2)) ∨
    (s32 pages.toNat < 0 ∧ (p.place tries).isSome ∧ p.place (tries + 1) = none)

/-- The set-ups of a run go well. -/
def smbSetUps (p : Places) (s : SmbCaches) : SmbCacheEvent → Prop
  | .mount pages => SmbSetUp p s.heap.tries pages
  | _ => True

instance (p : Places) (tries : Nat) (pages : UInt32) : Decidable (SmbSetUp p tries pages) :=
  have (n : Nat) : Decidable (p.Serves tries n) := inferInstanceAs (Decidable (∀ k < n, _))
  inferInstanceAs (Decidable (_ ∨ _))

instance (p : Places) (s : SmbCaches) (e : SmbCacheEvent) : Decidable (smbSetUps p s e) :=
  match e with
  | .mount pages => inferInstanceAs (Decidable (SmbSetUp p s.heap.tries pages))
  | .open .. | .read .. | .write .. | .seek .. | .close .. | .expire | .unmount => inferInstanceAs (Decidable True)

namespace SmbCaches
variable {p : Places} {w : SmbPeer} {f : Nat} {s s' : SmbCaches} {ks : List Nat}

/-! ## The blocks -/

/-- The array, and the buffers of its pages. -/
def arrays (s : SmbCaches) : List Nat :=
  if s.raCache = 0 then [] else s.raCache :: (List.range s.raPages.toNat).map fun i => (s.page i).ptr

/-- **The caches in order**: just what the pointers are to is allocated, and nothing waits in a write block that is not there. -/
structure Held (p : Places) (s : SmbCaches) : Prop where
  owns : CHeap.Owns p [] s.heap (CHeap.block s.writePtr ++ s.arrays)
  ok : s.ok = true
  pages : s.raCache ≠ 0 → 0 < s.raPages
  without : s.raCache = 0 → s.raPages ≤ 0
  idle : s.writePtr = 0 → s.writeFile = none

/-- Nothing is allocated. -/
structure Bare (p : Places) (s : SmbCaches) : Prop where
  owns : CHeap.Owns p [] s.heap []
  ok : s.ok = true
  raCache : s.raCache = 0
  writePtr : s.writePtr = 0
  writeFile : s.writeFile = none
  raPages : s.raPages ≤ 0

variable {a ptr i t fuel len : Nat} {page : Nat → SmbCachePage Nat Nat} {pages : UInt32} {n : Int} {b : SmbCaches} {heap : CHeap}
  {e : SmbCacheEvent}

theorem mem_block (h : a ≠ 0) : a ∈ CHeap.block a := by
  unfold CHeap.block
  simp [h]

theorem Held.usable (h : Held p s) (hw : s.writePtr ≠ 0) : s.Usable where
  write := h.owns.live_iff.2 (List.mem_append_left _ (mem_block hw))
  pages hra := by
    have hlive : ∀ a ∈ s.raCache :: (List.range s.raPages.toNat).map fun i => (s.page i).ptr, s.heap.Live a := by
      intro a ha
      apply h.owns.live_iff.2 (List.mem_append_right _ ?_)
      unfold arrays
      rw [if_neg hra]
      exact ha
    refine ⟨h.pages hra, hlive _ List.mem_cons_self, fun i hi => hlive _ (List.mem_cons_of_mem _ ?_)⟩
    exact List.mem_map_of_mem (mem_range_raPages.2 hi)
  without := h.without

theorem Held.sound (h : Held p s) : s.Sound where
  ok := h.ok
  freed := by
    obtain ⟨live, hreplay, -⟩ := h.owns.replays
    rw [hreplay]
    rfl

theorem Same.arrays (h : Same s s') : s'.arrays = s.arrays := by
  unfold SmbCaches.arrays
  rw [h.raCache, h.raPages]
  simp only [h.ptr]

theorem Same.held (h : Same s s') (hs : Held p s) (hw : s.writePtr ≠ 0) : Held p s' where
  owns := by
    rw [h.heap, h.writePtr, h.arrays]
    exact hs.owns
  ok := (h.ok (hs.usable hw)).trans hs.ok
  pages := by
    rw [h.raCache, h.raPages]
    exact hs.pages
  without := by
    rw [h.raCache, h.raPages]
    exact hs.without
  idle := by
    rw [h.writePtr]
    exact fun hzero => absurd hzero hw

theorem use_live (h : s.heap.Live ptr) : s.use ptr = s := by
  unfold use
  simp [h]

theorem freePages_spec (is : List Nat) : ∀ {s : SmbCaches}, CHeap.Owns p [] s.heap ((is.map fun i => (s.page i).ptr) ++ ks) →
    s.raCache ∈ ks → ∃ heap, s.freePages is = { s with heap := heap } ∧ CHeap.Owns p [] heap ks ∧ heap.tries = s.heap.tries := by
  induction is with
  | nil => exact fun {s} h _ => ⟨s.heap, rfl, h, rfl⟩
  | cons i is ih =>
    intro s h hra
    have hlive : s.heap.Live s.raCache := h.live_iff.2 (List.mem_append_right _ hra)
    have hstep : s.freePages (i :: is) = (s.free (s.page i).ptr).freePages is := by
      unfold freePages
      rw [List.foldl_cons, use_live hlive]
    obtain ⟨heap, hrest, howns, htries⟩ := ih (s := s.free (s.page i).ptr) (CHeap.Owns.free h) hra
    refine ⟨heap, ?_, howns, ?_⟩
    · rw [hstep, hrest]
      rfl
    · rw [htries]
      exact CHeap.free_tries _ _

/-! ## What was there is given back -/

theorem flushLoop_rest (fuel : Nat) : ∀ s : SmbCaches, (flushLoop w f fuel s).1.connected = s.connected ∧
    (flushLoop w f fuel s).1.hung = s.hung := by
  induction fuel with
  | zero => exact fun s => ⟨rfl, rfl⟩
  | succ fuel ih =>
    intro s
    rw [flushLoop]
    dsimp only
    split
    · exact ⟨rfl, rfl⟩
    · split
      · exact ⟨rfl, rfl⟩
      · exact ih _

theorem flush_rest (s : SmbCaches) : (s.flushWriteSMBCache w).1.connected = s.connected ∧ (s.flushWriteSMBCache w).1.hung = s.hung := by
  unfold flushWriteSMBCache
  split
  · exact ⟨rfl, rfl⟩
  · cases s.writeFile with
    | none => exact ⟨rfl, rfl⟩
    | some f =>
      dsimp only
      split
      · exact ⟨rfl, rfl⟩
      · obtain ⟨hconn, hhung⟩ := flushLoop_rest (w := w) (f := f) s.writeLen s
        generalize flushLoop w f s.writeLen s = res at hconn hhung
        obtain ⟨s', ok⟩ := res
        cases ok <;> exact ⟨hconn, hhung⟩

/-- `DestroySMBReadAheadCache` without an array: the write block is flushed and freed. -/
theorem destroyWrite_spec (howns : CHeap.Owns p [] s.heap (CHeap.block s.writePtr)) (hok : s.ok = true) (hra : s.raCache = 0)
    (hn : s.raPages ≤ 0) (hidle : s.writePtr = 0 → s.writeFile = none) :
    Bare p { (s.flushWriteSMBCache w).1.free (s.flushWriteSMBCache w).1.writePtr with writeLen := 0, writeFile := none, writePtr := 0 } ∧
      ((s.flushWriteSMBCache w).1.free (s.flushWriteSMBCache w).1.writePtr).heap.tries = s.heap.tries := by
  have hflush := flush_same (w := w) s
  have hok' : (s.flushWriteSMBCache w).1.ok = true := by
    by_cases hw : s.writePtr = 0
    · have hnone : (s.flushWriteSMBCache w).1 = s := by
        unfold flushWriteSMBCache
        rw [hidle hw]
        split <;> rfl
      rw [hnone]
      exact hok
    · have hu : s.Usable := ⟨howns.live_iff.2 (mem_block hw), fun hne => absurd hra hne, fun _ => hn⟩
      exact (hflush.ok hu).trans hok
  have hheap : ((s.flushWriteSMBCache w).1.free (s.flushWriteSMBCache w).1.writePtr).heap = s.heap.free s.writePtr := by
    unfold SmbCaches.free
    rw [hflush.heap, hflush.writePtr]
  refine ⟨⟨?_, hok', hflush.raCache.trans hra, rfl, rfl, hflush.raPages.trans_le hn⟩, ?_⟩
  · show CHeap.Owns p [] ((s.flushWriteSMBCache w).1.free (s.flushWriteSMBCache w).1.writePtr).heap []
    rw [hheap]
    rw [← List.append_nil (CHeap.block s.writePtr)] at howns
    exact howns.free_block
  · rw [hheap]
    exact CHeap.free_tries _ _

theorem destroy_spec (h : Held p s) :
    Bare p (s.destroySMBReadAheadCache w) ∧ (s.destroySMBReadAheadCache w).heap.tries = s.heap.tries ∧
      (s.destroySMBReadAheadCache w).connected = s.connected ∧ (s.destroySMBReadAheadCache w).hung = s.hung := by
  have howns := h.owns
  unfold arrays at howns
  unfold destroySMBReadAheadCache
  dsimp only
  by_cases hra : s.raCache = 0
  · rw [if_pos hra, List.append_nil] at howns
    rw [if_pos hra]
    obtain ⟨hbare, htries⟩ := destroyWrite_spec (w := w) howns h.ok hra (h.without hra) h.idle
    exact ⟨hbare, htries, flush_rest s⟩
  · rw [if_neg hra] at howns
    rw [if_neg hra]
    have hperm : (((List.range s.raPages.toNat).map fun i => (s.page i).ptr) ++ s.raCache :: CHeap.block s.writePtr).Perm
        (CHeap.block s.writePtr ++ s.raCache :: (List.range s.raPages.toNat).map fun i => (s.page i).ptr) :=
      (List.perm_append_comm).trans (List.perm_middle.symm)
    obtain ⟨heap, hfree, hpages, htries⟩ := freePages_spec _ (Owned.perm howns hperm) List.mem_cons_self
    rw [hfree]
    obtain ⟨hbare, htries'⟩ := destroyWrite_spec (w := w)
      (s := { ({ s with heap := heap } : SmbCaches).free s.raCache with raCache := 0, raPages := 0 }) hpages.free h.ok rfl (le_refl _) h.idle
    refine ⟨hbare, htries'.trans ?_, flush_rest _⟩
    exact (CHeap.free_tries _ _).trans htries

/-! ## What comes is kept track of -/

theorem map_update {is : List Nat} {new : SmbCachePage Nat Nat} (h : ∀ j ∈ is, j ≠ i) :
    (is.map fun j => (Function.update page i new j).ptr) = is.map fun j => (page j).ptr := by
  apply List.map_congr_left
  intro j hj
  rw [Function.update_of_ne (h j hj)]

theorem mem_range_reverse {j : Nat} (h : j ∈ (List.range i).reverse) : j ≠ i := by
  have := List.mem_range.1 (List.mem_reverse.1 h)
  omega

/-- **The loop of `SMBEnableReadAhead`** has every buffer, or gives back all there was. -/
theorem allocPages_spec (n : Nat) : ∀ {i : Nat} {s : SmbCaches},
    CHeap.Owns p [] s.heap (((List.range i).reverse.map fun j => (s.page j).ptr) ++ s.raCache :: CHeap.block s.writePtr) →
    (p.Serves s.heap.tries n → ∃ heap page, s.allocPages p n i = { s with heap := heap, page := page } ∧
      CHeap.Owns p [] heap (((List.range (i + n)).reverse.map fun j => (page j).ptr) ++ s.raCache :: CHeap.block s.writePtr)) ∧
    (¬ p.Serves s.heap.tries n → ∃ heap page, s.allocPages p n i = { s with heap := heap, page := page, raCache := 0 } ∧
      CHeap.Owns p [] heap []) := by
  induction n with
  | zero =>
    intro i s h
    exact ⟨fun _ => ⟨s.heap, s.page, rfl, h⟩, fun hno => absurd (fun k hk => absurd hk (Nat.not_lt_zero k)) hno⟩
  | succ n ih =>
    intro i s h
    have hlive : s.heap.Live s.raCache := h.live_iff.2 (List.mem_append_right _ List.mem_cons_self)
    obtain ⟨howns, htries, hsome⟩ := CHeap.Owns.malloc h
    rw [allocPages]
    dsimp only
    rw [use_live hlive]
    generalize hm : s.heap.malloc p = res at howns htries hsome
    obtain ⟨heap, ptr⟩ := res
    dsimp only at howns htries hsome
    rw [Places.serves_succ]
    have hmap : ((List.range i).reverse.map fun j => (Function.update s.page i ⟨0, 0, none, ptr⟩ j).ptr) =
        (List.range i).reverse.map fun j => (s.page j).ptr := map_update fun _ => mem_range_reverse
    by_cases hptr : ptr = 0
    · have hnone : ¬ (p.place s.heap.tries).isSome := fun hp => hsome.2 hp hptr
      refine ⟨fun hyes => absurd hyes.1 hnone, fun _ => ?_⟩
      rw [if_pos hptr]
      rw [hptr, CHeap.block, if_pos rfl, List.nil_append, ← hmap] at howns
      obtain ⟨heap₁, hfree, hpages, -⟩ := freePages_spec (s := ({ s with heap := heap } : SmbCaches).setPage i ⟨0, 0, none, ptr⟩)
        _ howns List.mem_cons_self
      rw [hfree]
      have harray := CHeap.Owns.free hpages
      rw [← List.append_nil (CHeap.block s.writePtr)] at harray
      exact ⟨_, _, rfl, harray.free_block⟩
    · have hnext : CHeap.Owns p [] heap (((List.range (i + 1)).reverse.map fun j => (Function.update s.page i ⟨0, 0, none, ptr⟩ j).ptr) ++
          s.raCache :: CHeap.block s.writePtr) := by
        rw [List.range_succ, List.reverse_append, List.reverse_singleton, List.singleton_append, List.map_cons, hmap, Function.update_self]
        rw [CHeap.block, if_neg hptr] at howns
        exact howns
      have huse : (({ s with heap := heap } : SmbCaches).setPage i ⟨0, 0, none, ptr⟩).heap.Live ptr := by
        apply hnext.live_iff.2 (List.mem_append_left _ ?_)
        rw [List.range_succ, List.reverse_append, List.reverse_singleton, List.singleton_append, List.map_cons, Function.update_self]
        exact List.mem_cons_self
      rw [if_neg hptr, use_live huse]
      obtain ⟨hyes, hno⟩ := ih (i := i + 1) (s := ({ s with heap := heap } : SmbCaches).setPage i ⟨0, 0, none, ptr⟩) hnext
      have htried : (({ s with heap := heap } : SmbCaches).setPage i ⟨0, 0, none, ptr⟩).heap.tries = s.heap.tries + 1 := htries
      rw [htried] at hyes hno
      rw [Nat.add_right_comm, Nat.add_assoc] at hyes
      constructor
      · intro hall
        obtain ⟨heap₁, page, heq, hown⟩ := hyes hall.2
        exact ⟨heap₁, page, heq, hown⟩
      · intro hsome'
        obtain ⟨heap₁, page, heq, hown⟩ := hno fun hrest => hsome' ⟨hsome.1 hptr, hrest⟩
        exact ⟨heap₁, page, heq, hown⟩

/-- What a set-up leaves: the state that it found, with other blocks. -/
def outfitted (s : SmbCaches) (heap : CHeap) (writePtr raCache : Nat) (raPages : Int) (page : Nat → SmbCachePage Nat Nat) : SmbCaches :=
  { s with heap := heap, writePtr := writePtr, writeLen := 0, writeFile := none, raCache := raCache, raPages := raPages, page := page }

/-- What a set-up leaves that did not go well. -/
inductive Torn (s : SmbCaches) : Prop where
  /-- There is no write block. -/
  | noBlock (h : s.writePtr = 0)
  /-- There is no array, and pages count. -/
  | noArray (hra : s.raCache = 0) (hn : 0 < s.raPages)
  /-- There is an array, and a count that is negative. -/
  | noPages (hra : s.raCache ≠ 0) (hn : s.raPages < 0) (hptr : (s.page 0).ptr = 0)

/-- What a set-up leaves: the caches in order just when it goes well. -/
structure SetUpAs (p : Places) (tries : Nat) (pages : UInt32) (s r : SmbCaches) : Prop where
  connected : r.connected = s.connected
  hung : r.hung = s.hung
  writeFile : r.writeFile = none
  ok : r.ok = true
  owns : ∃ ks, CHeap.Owns p [] r.heap ks
  held : SmbSetUp p tries pages → Held p r ∧ r.writePtr ≠ 0
  count : SmbSetUp p tries pages → r.raPages = s32 pages.toNat
  torn : ¬ SmbSetUp p tries pages → r.Torn

theorem s32_eq_zero (h : s32 pages.toNat = 0) : pages = 0 := by
  have hlt := pages.toNat_lt
  have hback := uint32_s32 pages.toNat
  rw [h] at hback
  apply UInt32.toNat_inj.1
  have hzero : uint32 0 = 0 := by decide
  rw [hzero, Nat.mod_eq_of_lt hlt] at hback
  exact hback.symm

theorem smbSetUp_pos (hs : s32 pages.toNat = n) (hn : 0 < n) :
    SmbSetUp p t pages ↔ (p.place t).isSome ∧ (p.place (t + 1)).isSome ∧ p.Serves (t + 1 + 1) n.toNat := by
  rw [← Places.serves_succ, ← Places.serves_succ]
  unfold SmbSetUp
  rw [hs]
  constructor
  · rintro (h | h)
    · exact h.2
    · exact absurd h.1 (Int.not_lt.2 (Int.le_of_lt hn))
  · exact fun h => .inl ⟨hn, h⟩

theorem smbSetUp_neg (hs : s32 pages.toNat = n) (hn : n < 0) : SmbSetUp p t pages ↔ (p.place t).isSome ∧ p.place (t + 1) = none := by
  unfold SmbSetUp
  rw [hs]
  constructor
  · rintro (h | h)
    · exact absurd h.1 (Int.not_lt.2 (Int.le_of_lt hn))
    · exact h.2
  · exact fun h => .inr ⟨hn, h⟩

theorem held_full {n : Int} {heap : CHeap} {a c : Nat} {page : Nat → SmbCachePage Nat Nat} (hok : s.ok = true) (hn : 0 < n) (ha : a ≠ 0)
    (hc : c ≠ 0) (h : CHeap.Owns p [] heap (((List.range (0 + n.toNat)).reverse.map fun j => (page j).ptr) ++ c :: CHeap.block a)) :
    Held p (s.outfitted heap a c n page) where
  owns := by
    unfold arrays outfitted
    dsimp only
    rw [if_neg hc]
    rw [Nat.zero_add] at h
    refine Owned.perm h ?_
    refine List.perm_append_comm.trans ?_
    exact (((List.reverse_perm _).map _).symm.cons c).append_right _ |>.trans List.perm_middle.symm
  ok := hok
  pages _ := hn
  without hzero := absurd hzero hc
  idle hzero := absurd hzero ha

theorem allocPages_setUp {c : Nat} (hok : b.ok = true) (h : CHeap.Owns p [] heap (c :: CHeap.block a)) (hc : c ≠ 0)
    (htries : heap.tries = t + 1 + 1) (ha : a ≠ 0 ↔ (p.place t).isSome) (hc' : (p.place (t + 1)).isSome) (hpage : (page 0).ptr = 0)
    (hne : pages ≠ 0) (hs : s32 pages.toNat = n) : SetUpAs p t pages b ((b.outfitted heap a c n page).allocPages p n.toNat 0) := by
  rcases lt_trichotomy n 0 with hn | hn | hn
  · -- the count is negative, and no page is gone to
    have hnil : n.toNat = 0 := Int.toNat_eq_zero.2 (Int.le_of_lt hn)
    rw [hnil]
    have hno : ¬ SmbSetUp p t pages := by
      rw [smbSetUp_neg hs hn]
      rintro ⟨-, hnone⟩
      rw [hnone] at hc'
      cases hc'
    exact ⟨rfl, rfl, rfl, hok, ⟨_, h⟩, fun hyes => absurd hyes hno, fun hyes => absurd hyes hno, fun _ => .noPages hc hn hpage⟩
  · exact absurd (s32_eq_zero (hs.trans hn)) hne
  · obtain ⟨hyes, hno⟩ := allocPages_spec n.toNat (i := 0) (s := b.outfitted heap a c n page) h
    have htries' : (b.outfitted heap a c n page).heap.tries = t + 1 + 1 := htries
    rw [htries'] at hyes hno
    by_cases hserves : p.Serves (t + 1 + 1) n.toNat
    · obtain ⟨heap', page', heq, howns⟩ := hyes hserves
      rw [heq]
      refine ⟨rfl, rfl, rfl, hok, ⟨_, howns⟩, fun hset => ?_, fun _ => hs.symm, fun hset => .noBlock ?_⟩
      · have hne' := ha.2 ((smbSetUp_pos hs hn).1 hset).1
        exact ⟨held_full hok hn hne' hc howns, hne'⟩
      · refine Classical.byContradiction fun hne' => hset ?_
        exact (smbSetUp_pos hs hn).2 ⟨ha.1 hne', hc', hserves⟩
    · obtain ⟨heap', page', heq, howns⟩ := hno hserves
      rw [heq]
      have hset : ¬ SmbSetUp p t pages := fun hset => hserves ((smbSetUp_pos hs hn).1 hset).2.2
      exact ⟨rfl, rfl, rfl, hok, ⟨_, howns⟩, fun hyes => absurd hyes hset, fun hyes => absurd hyes hset, fun _ => .noArray rfl hn⟩

theorem outfitted_setUp (hok : b.ok = true) (h : CHeap.Owns p [] heap (CHeap.block a)) (ha : a ≠ 0 ↔ (p.place t).isSome)
    (hc : p.place (t + 1) = none) (hne : pages ≠ 0) (hs : s32 pages.toNat = n) : SetUpAs p t pages b (b.outfitted heap a 0 n page) := by
  rcases lt_trichotomy n 0 with hn | hn | hn
  · refine ⟨rfl, rfl, rfl, hok, ⟨_, h⟩, fun hset => ?_, fun _ => hs.symm, fun hset => .noBlock ?_⟩
    · have hne' := ha.2 ((smbSetUp_neg hs hn).1 hset).1
      refine ⟨⟨?_, hok, fun hzero => absurd rfl hzero, fun _ => Int.le_of_lt hn, fun hzero => absurd hzero hne'⟩, hne'⟩
      unfold arrays outfitted
      rw [if_pos rfl, List.append_nil]
      exact h
    · refine Classical.byContradiction fun hne' => hset ?_
      exact (smbSetUp_neg hs hn).2 ⟨ha.1 hne', hc⟩
  · exact absurd (s32_eq_zero (hs.trans hn)) hne
  · have hset : ¬ SmbSetUp p t pages := by
      rw [smbSetUp_pos hs hn, hc]
      rintro ⟨-, hfalse, -⟩
      cases hfalse
    exact ⟨rfl, rfl, rfl, hok, ⟨_, h⟩, fun hyes => absurd hyes hset, fun hyes => absurd hyes hset, fun _ => .noArray rfl hn⟩

theorem enable_spec (h : Held p s) (pages : UInt32) : SetUpAs p s.heap.tries pages s (s.enableReadAhead p w pages) := by
  obtain ⟨hbare, htries, hconn, hhung⟩ := destroy_spec (w := w) h
  unfold enableReadAhead
  generalize s.destroySMBReadAheadCache w = b at hbare htries hconn hhung
  dsimp only
  by_cases hne : pages = 0
  · rw [if_pos hne, hne]
    have hset : ¬ SmbSetUp p s.heap.tries 0 := by
      have hzero : s32 (0 : UInt32).toNat = 0 := by decide
      unfold SmbSetUp
      rw [hzero]
      simp
    exact ⟨hconn, hhung, hbare.writeFile, hbare.ok, ⟨_, hbare.owns⟩, fun hyes => absurd hyes hset, fun hyes => absurd hyes hset,
      fun _ => .noBlock hbare.writePtr⟩
  · rw [if_neg hne]
    generalize hs : s32 pages.toNat = n
    obtain ⟨howns, htries₁, hsome₁⟩ := CHeap.Owns.malloc hbare.owns
    rw [htries] at hsome₁ htries₁
    generalize b.heap.malloc p = res at howns htries₁ hsome₁
    obtain ⟨heap₁, a⟩ := res
    dsimp only at howns htries₁ hsome₁ ⊢
    obtain ⟨howns₂, htries₂, hsome₂⟩ := CHeap.Owns.malloc howns
    rw [htries₁] at hsome₂ htries₂
    generalize heap₁.malloc p = res at howns₂ htries₂ hsome₂
    obtain ⟨heap₂, c⟩ := res
    dsimp only at howns₂ htries₂ hsome₂ ⊢
    rw [List.append_nil] at howns₂
    have hret : ∀ {r}, SetUpAs p s.heap.tries pages b r → SetUpAs p s.heap.tries pages s r := fun hr =>
      ⟨hr.connected.trans hconn, hr.hung.trans hhung, hr.writeFile, hr.ok, hr.owns, hr.held, hr.count, hr.torn⟩
    apply hret
    by_cases hc : c = 0
    · rw [if_pos hc]
      have hnone : p.place (s.heap.tries + 1) = none := by
        rw [← Option.not_isSome_iff_eq_none, ← hsome₂]
        exact not_not_intro hc
      rw [hc] at howns₂ ⊢
      exact outfitted_setUp hbare.ok howns₂ hsome₁ hnone hne hs
    · rw [if_neg hc]
      rw [CHeap.block, if_neg hc, List.singleton_append] at howns₂
      exact allocPages_setUp hbare.ok howns₂ hc htries₂ hsome₁ (hsome₂.1 hc) rfl hne hs

/-! ## Caches in order -/

/-- **Along the runs whose set-ups go well**: the caches are in order, and before the first of them nothing is open. -/
structure Ordered (p : Places) (s : SmbCaches) : Prop where
  held : Held p s
  fresh : s.writePtr = 0 → s.connected = false ∧ ∀ f, s.opened f = false

theorem Ordered.start (p : Places) (tries : Nat) : Ordered p (smbCacheStart tries) where
  held := ⟨Owned.start id p tries [], rfl, fun h => absurd rfl h, fun _ => le_refl _, fun _ => rfl⟩
  fresh _ := ⟨rfl, fun _ => rfl⟩

theorem mount_spec (h : Held p s) (pages : UInt32) : SetUpAs p s.heap.tries pages { s with connected := true } (s.mount p w pages) := by
  have h' : Held p { s with connected := true } := ⟨h.owns, h.ok, h.pages, h.without, h.idle⟩
  unfold mount
  exact enable_spec h' pages

theorem Held.next (fuel : Nat) (h : Held p s) (hw : s.writePtr ≠ 0) (he : e.mounts = false) :
    Held p (smbCacheNext p w fuel s e) ∧ (smbCacheNext p w fuel s e).writePtr ≠ 0 := by
  have hsame := next_same (p := p) (w := w) fuel he s
  refine ⟨hsame.held h hw, ?_⟩
  rw [hsame.writePtr]
  exact hw

theorem Ordered.idle (h : Ordered p s) (hw : s.writePtr = 0) (he : smbCacheEnabled s e = true) (hm : e.mounts = false) :
    smbCacheNext p w fuel s e = s := by
  obtain ⟨hconn, hopen⟩ := h.fresh hw
  cases e with
  | «open» f filename size append =>
    unfold smbCacheNext smbOpen
    simp [hconn]
  | read f len | write f len | seek f position | close f =>
    have hf : s.opened f = true := he
    rw [hopen f] at hf
    cases hf
  | expire | unmount =>
    have hc : s.connected = true := he
    rw [hconn] at hc
    cases hc
  | mount pages => cases hm

theorem Ordered.next (h : Ordered p s) (he : smbCacheEnabled s e = true) (hset : smbSetUps p s e) :
    Ordered p (smbCacheNext p w fuel s e) := by
  cases hm : e.mounts with
  | true =>
    cases e with
    | mount pages =>
      obtain ⟨hheld, hw⟩ := (mount_spec (w := w) h.held pages).held hset
      exact ⟨hheld, fun hzero => absurd hzero hw⟩
    | _ => cases hm
  | false =>
    by_cases hw : s.writePtr = 0
    · rw [h.idle hw he hm]
      exact h
    · obtain ⟨hheld, hw'⟩ := h.held.next (w := w) fuel hw hm
      exact ⟨hheld, fun hzero => absurd hzero hw'⟩

theorem Held.run (fuel : Nat) {es : List SmbCacheEvent} : ∀ {s : SmbCaches}, Held p s → s.writePtr ≠ 0 → (∀ e ∈ es, e.mounts = false) →
    Held p ((smbCacheSystem p w fuel).run s es) ∧ ((smbCacheSystem p w fuel).run s es).writePtr ≠ 0 := by
  induction es with
  | nil => exact fun h hw _ => ⟨h, hw⟩
  | cons e es ih =>
    intro s h hw hes
    obtain ⟨h', hw'⟩ := h.next (w := w) fuel hw (hes e List.mem_cons_self)
    exact ih h' hw' fun e' he' => hes e' (List.mem_cons_of_mem e he')

theorem Held.safe (h : Held p s) (hw : s.writePtr ≠ 0) : s.Safe p w := by
  intro fuel es hl hes
  rcases List.eq_nil_or_concat es with rfl | ⟨init, e, rfl⟩
  · exact h.sound
  · rw [List.concat_eq_append, List.dropLast_concat] at hes
    rw [List.concat_eq_append, System.run_append]
    obtain ⟨h', hw'⟩ := Held.run (w := w) fuel h hw hes
    generalize (smbCacheSystem p w fuel).run s init = s' at h' hw'
    show (smbCacheNext p w fuel s' e).Sound
    cases hm : e.mounts with
    | true =>
      cases e with
      | mount pages =>
        have hset := mount_spec (w := w) h' pages
        obtain ⟨ks, howns⟩ := hset.owns
        obtain ⟨live, hreplay, -⟩ := howns.replays
        exact ⟨hset.ok, Option.isSome_of_eq_some hreplay⟩
      | _ => cases hm
    | false => exact (h'.next fuel hw' hm).1.sound

theorem Held.full (h : Held p s) (hw : s.writePtr ≠ 0) (hn : 0 < s.raPages) : s.Full := by
  have hu := h.usable hw
  obtain ⟨-, harray, hpages⟩ := hu.pages (hu.array hn)
  exact ⟨hn, harray, hu.write, hpages⟩

/-! ## Uses that show -/

theorem writeLoop_ok (hlen : len ≠ 0) (h : (writeLoop w f (fuel + 1) len s).1.ok = true) : s.heap.Live s.writePtr := by
  rw [writeLoop, if_neg hlen] at h
  dsimp only at h
  apply use_ok
  split at h
  · split at h
    · exact h
    · have hused := (writeLoop_same fuel _ _).mono h
      exact hused
  · exact h

theorem clear_ok (hn : 0 < s.raPages) (h : (s.clearSMBFileCache f).ok = true) : s.heap.Live s.raCache := by
  obtain ⟨n, hlast⟩ : ∃ n, s.raPages.toNat = n + 1 := ⟨s.raPages.toNat - 1, by omega⟩
  have hrest : ∀ i ∈ (List.range n).map Nat.succ, (i : Int) < s.raPages := by
    intro i hi
    obtain ⟨j, hj, rfl⟩ := List.mem_map.1 hi
    have := List.mem_range.1 hj
    omega
  have hfirst := clearPage_same (f := f) (i := 0) hn
  unfold clearSMBFileCache at h
  rw [hlast, List.range_succ_eq_map, List.foldl_cons] at h
  rw [← hfirst.raPages] at hrest
  have hpage := (clearPages_same hrest).mono h
  apply use_ok
  unfold clearPage at hpage
  dsimp only at hpage
  split at hpage
  · exact (Same.mono (Same.use fun hu => (hu.pages (hu.array hn)).2.2 0 hn) hpage : (s.use s.raCache).ok = true)
  · exact hpage

theorem fillLoop_ok {cacheToRead : Nat} (hm : 0 < cacheToRead) (hu : ¬ s.Usable)
    (h : (fillLoop w ptr cacheToRead (fuel + 1) 0 s).1.ok = true) : s.heap.Live ptr := by
  rw [fillLoop, if_neg (Nat.not_le.2 hm)] at h
  dsimp only at h
  apply use_ok
  cases hans : w.answer s.asked with
  | fails left =>
    rw [hans] at h
    exact h
  | reads n =>
    rw [hans] at h
    have hno : ¬ ({ s.use ptr with asked := s.asked + 1 } : SmbCaches).Usable := fun hu' => hu ⟨hu'.write, hu'.pages, hu'.without⟩
    exact (fillLoop_same fuel _ _ fun hu' => absurd hu' hno).mono h

theorem fill_ok {cacheOffset : Nat} (hn : s.raPages < 0) (hra : s.raCache ≠ 0) (hlen : cacheOffset < (s.file f).len)
    (h : (s.fill w f cacheOffset).1.ok = true) : s.heap.Live (s.page 0).ptr := by
  have hzero : s.raPages.toNat = 0 := Int.toNat_eq_zero.2 (Int.le_of_lt hn)
  have hleast : s.leastUsed = 0 := by
    unfold leastUsed
    rw [hzero]
    rfl
  have hsame : s.clearIntersecting f cacheOffset = s := by
    unfold clearIntersecting
    simp [hzero]
  have hu : ¬ s.Usable := by
    intro hu
    have := (hu.pages hra).1
    omega
  unfold fill at h
  rw [hsame, hleast] at h
  dsimp only at h
  obtain ⟨m, hm⟩ : ∃ m, min ((s.file f).len - cacheOffset) SMB_READ_BUFFERSIZE = m + 1 := by
    have hpos : 0 < min ((s.file f).len - cacheOffset) SMB_READ_BUFFERSIZE := Nat.lt_min.2 ⟨by omega, by decide⟩
    exact ⟨_, (Nat.succ_pred_eq_of_pos hpos).symm⟩
  rw [hm] at h
  have hloop : (fillLoop w (s.page 0).ptr (m + 1) (m + 1) 0 s).1.ok = true → s.heap.Live (s.page 0).ptr :=
    fillLoop_ok (Nat.succ_pos m) hu
  generalize fillLoop w (s.page 0).ptr (m + 1) (m + 1) 0 s = res at h hloop
  obtain ⟨s', ok⟩ := res
  cases ok <;> exact hloop h

theorem continueRead_ok {newOffset rest : Nat} (hn : s.raPages < 0) (hra : s.raCache ≠ 0) (hlen : newOffset < (s.file f).len)
    (h : (continueRead w f (fuel + 1) newOffset rest s).1.ok = true) : s.heap.Live (s.page 0).ptr := by
  have hzero : s.raPages.toNat = 0 := Int.toNat_eq_zero.2 (Int.le_of_lt hn)
  have hat : (s.use s.raCache).pageAt f newOffset = none := by
    have huse : (s.use s.raCache).raPages.toNat = 0 := hzero
    unfold pageAt
    rw [huse]
    rfl
  have hfill : ((s.use s.raCache).fill w f newOffset).1.ok = true → s.heap.Live (s.page 0).ptr :=
    fill_ok (s := s.use s.raCache) hn hra hlen
  rw [continueRead] at h
  dsimp only at h
  rw [hat] at h
  dsimp only at h
  have hra' := (fill_same (w := w) (f := f) (s := s.use s.raCache) hra newOffset).raCache.trans_ne hra
  generalize (s.use s.raCache).fill w f newOffset = res at h hfill hra'
  obtain ⟨s', ok⟩ := res
  apply hfill
  cases ok with
  | false => exact h
  | true => exact (continueRead_same fuel newOffset rest s' hra').mono h

theorem readBlocks_ok {rounds done : Nat} (hlen : done < len) (h : (readBlocks w f fuel len (rounds + 1) done s).1.ok = true) :
    (s.readSMBFromCache w f fuel (min (len - done) SMB_READ_BUFFERSIZE)).1.ok = true := by
  rw [readBlocks, if_neg (Nat.not_le.2 hlen)] at h
  dsimp only at h
  generalize s.readSMBFromCache w f fuel (min (len - done) SMB_READ_BUFFERSIZE) = res at h ⊢
  obtain ⟨s', ok⟩ := res
  cases ok with
  | false => exact h
  | true =>
    have hread := (readBlocks_same fuel len rounds _ _).mono h
    exact hread

theorem smbRead_ok (hn : s.raPages < 0) (hra : s.raCache ≠ 0) (hw : s.flushOwn w f = s) (hfile : s.file f = ⟨"", 0, 1⟩)
    (h : (s.smbRead w f (fuel + 1) 1).ok = true) : s.heap.Live (s.page 0).ptr := by
  have hblocks : (readBlocks w f (fuel + 1) 1 1 0 s).1.ok = true := by
    unfold smbRead at h
    rw [if_neg Nat.one_ne_zero, hw] at h
    dsimp only at h
    rw [hfile] at h
    dsimp only at h
    rw [if_neg (by decide), Nat.sub_zero, Nat.min_self] at h
    generalize readBlocks w f (fuel + 1) 1 1 0 s = res at h ⊢
    obtain ⟨s', done, ok⟩ := res
    cases ok with
    | true => exact h
    | false => exact (retryRead_same (fuel + 1) 1 2 done s').mono h
  have hread := readBlocks_ok Nat.one_pos hblocks
  have hsize : min (1 - 0) SMB_READ_BUFFERSIZE = 1 := by decide
  rw [hsize] at hread
  unfold readSMBFromCache at hread
  rw [if_neg Nat.one_ne_zero, if_neg hra] at hread
  refine continueRead_ok hn hra ?_ hread
  rw [hfile]
  exact Nat.one_pos

theorem smbWrite_ok (hw : s.writeFile = none) (hfile : s.file f = ⟨"", 0, 1⟩) (h : (s.smbWrite w f (fuel + 1) 1).ok = true) :
    s.heap.Live s.writePtr := by
  unfold smbWrite at h
  rw [hfile, if_neg (by decide), if_neg Nat.one_ne_zero] at h
  unfold writeSMBUsingCache at h
  rw [hw] at h
  have hlive := writeLoop_ok Nat.one_ne_zero h
  exact hlive

/-! ## Caches that are torn -/

theorem clearPages_rest (is : List Nat) : ∀ s : SmbCaches, ∃ ok page, is.foldl (clearPage f) s = { s with ok := ok, page := page } := by
  induction is with
  | nil => exact fun s => ⟨s.ok, s.page, rfl⟩
  | cons i is ih =>
    intro s
    have hpage : ∃ ok page, s.clearPage f i = { s with ok := ok, page := page } := by
      unfold clearPage
      dsimp only
      split <;> exact ⟨_, _, rfl⟩
    obtain ⟨ok, page, heq⟩ := hpage
    rw [List.foldl_cons, heq]
    exact ih _

theorem flushOwn_idle (hw : s.writeFile = none) : s.flushOwn w f = s := by
  unfold flushOwn
  rw [hw]
  exact if_neg nofun

theorem reopened (fuel : Nat) (hconn : s.connected = true) (hhung : s.hung = false) (hw : s.writeFile = none) :
    ∃ es, (∀ e ∈ es, e.mounts = false) ∧ (smbCacheSystem p w fuel).Legal s es ∧ ∃ s', (smbCacheSystem p w fuel).run s es = s' ∧
      Same s s' ∧ s'.hung = false ∧ s'.writeFile = none ∧ s'.opened 0 = true ∧ s'.file 0 = ⟨"", 0, 1⟩ := by
  have hopen {s : SmbCaches} (hconn : s.connected = true) (hhung : s.hung = false) (hw : s.writeFile = none) (hop : s.opened 0 = false) :
      (smbCacheSystem p w fuel).Legal s [.open 0 "" (some 1) false] ∧ Same s (s.smbOpen 0 "" (some 1) false) ∧
        (s.smbOpen 0 "" (some 1) false).hung = false ∧ (s.smbOpen 0 "" (some 1) false).writeFile = none ∧
        (s.smbOpen 0 "" (some 1) false).opened 0 = true ∧ (s.smbOpen 0 "" (some 1) false).file 0 = ⟨"", 0, 1⟩ := by
    refine ⟨⟨⟨hhung, ?_⟩, trivial⟩, smbOpen_same _ _ _ s, ?_⟩
    · unfold smbCacheEnabled
      simp [hop]
    · unfold smbOpen setFile
      simp [hconn, hhung, hw]
  cases hop : s.opened 0 with
  | false =>
    obtain ⟨hl, hres⟩ := hopen hconn hhung hw hop
    refine ⟨[.open 0 "" (some 1) false], fun e he => ?_, hl, _, rfl, hres⟩
    obtain rfl := List.mem_singleton.1 he
    rfl
  | true =>
    obtain ⟨ok, page, hclear⟩ := clearPages_rest (f := 0) (List.range s.raPages.toNat) s
    have hclosed : s.smbClose w 0 = { ({ s with ok := ok, page := page } : SmbCaches).setFile 0 ⟨"", 0, 0⟩ with
        opened := Function.update s.opened 0 false } := by
      unfold smbClose
      rw [flushOwn_idle hw]
      unfold clearSMBFileCache
      rw [hclear]
    have hsame := smbClose_same (w := w) (f := 0) s
    have hstep : (smbCacheSystem p w fuel).enabled s (.close 0) := ⟨hhung, hop⟩
    have hrest : (s.smbClose w 0).connected = true ∧ (s.smbClose w 0).hung = false ∧ (s.smbClose w 0).writeFile = none ∧
        (s.smbClose w 0).opened 0 = false := by
      rw [hclosed]
      exact ⟨hconn, hhung, hw, Function.update_self (0 : Nat) false s.opened⟩
    obtain ⟨hl, hres⟩ := hopen hrest.1 hrest.2.1 hrest.2.2.1 hrest.2.2.2
    refine ⟨[.close 0, .open 0 "" (some 1) false], fun e he => ?_, ⟨hstep, hl⟩, _, rfl, hsame.trans hres.1, hres.2⟩
    rcases List.mem_cons.1 he with rfl | he
    · rfl
    · obtain rfl := List.mem_singleton.1 he
      rfl


theorem Torn.not_full (h : Torn s) (hdead : ¬ s.heap.Live 0) : ¬ s.Full := by
  intro hf
  cases h with
  | noBlock hw =>
    have hlive := hf.write
    rw [hw] at hlive
    exact hdead hlive
  | noArray hra hn =>
    have hlive := hf.array
    rw [hra] at hlive
    exact hdead hlive
  | noPages hra hn hptr => exact absurd hf.count (Int.not_lt.2 (Int.le_of_lt hn))

/-- **Caches that are torn are not safe**: a write, a close or a read uses what is not there. -/
theorem Torn.not_safe (h : Torn s) (hdead : ¬ s.heap.Live 0) (hconn : s.connected = true) (hhung : s.hung = false)
    (hw : s.writeFile = none) : ¬ s.Safe p w := by
  intro hsafe
  obtain ⟨es, hes, hl, s', hrun, hsame, hhung', hw', hopen, hfile⟩ := reopened (p := p) (w := w) 1 hconn hhung hw
  have hnext (e : SmbCacheEvent) (he : smbCacheEnabled s' e = true) : (smbCacheNext p w 1 s' e).ok = true := by
    have hlast : (smbCacheSystem p w 1).Legal ((smbCacheSystem p w 1).run s es) [e] := by
      rw [hrun]
      exact ⟨⟨hhung', he⟩, trivial⟩
    have hsound := hsafe 1 (es ++ [e]) (System.legal_append hl hlast) (by rw [List.dropLast_concat]; exact hes)
    rw [System.run_append, hrun] at hsound
    exact hsound.ok
  apply hdead
  rw [← hsame.heap]
  cases h with
  | noBlock hptr =>
    rw [← hptr, ← hsame.writePtr]
    exact smbWrite_ok hw' hfile (hnext (.write 0 1) hopen)
  | noArray hra hn =>
    rw [← hra, ← hsame.raCache]
    have hclose : (s'.smbClose w 0).ok = true := hnext (.close 0) hopen
    unfold smbClose at hclose
    rw [flushOwn_idle hw'] at hclose
    refine clear_ok ?_ hclose
    rw [hsame.raPages]
    exact hn
  | noPages hra hn hptr =>
    rw [← hptr, ← hsame.ptr 0]
    refine smbRead_ok ?_ ?_ (flushOwn_idle hw') hfile (hnext (.read 0 1) hopen)
    · rw [hsame.raPages]
      exact hn
    · rw [hsame.raCache]
      exact hra

theorem mount_iff (h : Held p s) (hhung : s.hung = false) (pages : UInt32) :
    ((s.mount p w pages).Full ∨ (s.mount p w pages).Safe p w) ↔ SmbSetUp p s.heap.tries pages := by
  have hset := mount_spec (w := w) h pages
  constructor
  · intro hor
    refine Classical.byContradiction fun hno => ?_
    have htorn := hset.torn hno
    obtain ⟨ks, howns⟩ := hset.owns
    have hdead : ¬ (s.mount p w pages).heap.Live 0 := fun hlive => howns.ne_zero (howns.live_iff.1 hlive) rfl
    rcases hor with hfull | hsafe
    · exact htorn.not_full hdead hfull
    · exact htorn.not_safe hdead hset.connected (hset.hung.trans hhung) hset.writeFile hsafe
  · intro hyes
    obtain ⟨hheld, hw⟩ := hset.held hyes
    rcases hyes with hpos | hneg
    · refine .inl (hheld.full hw ?_)
      rw [hset.count (.inl hpos)]
      exact hpos.1
    · exact .inr (hheld.safe hw)

end SmbCaches

/-- **Setting up the caches**, after any run whose set-ups went well: what is left is fully cached, or safe, just when pages are asked for
and every allocation succeeds (or the count is negative, and there is a write block and no array). -/
theorem smb_caches_set_up (p : Places) (w : SmbPeer) (fuel tries : Nat) {es : List SmbCacheEvent}
    (hl : ((smbCacheSystem p w fuel).restrict (smbSetUps p)).Legal (smbCacheStart tries) es) (pages : UInt32)
    (he : (smbCacheSystem p w fuel).enabled ((smbCacheSystem p w fuel).run (smbCacheStart tries) es) (.mount pages)) :
    (((smbCacheSystem p w fuel).run (smbCacheStart tries) (es ++ [.mount pages])).Full ∨
        ((smbCacheSystem p w fuel).run (smbCacheStart tries) (es ++ [.mount pages])).Safe p w) ↔
      SmbSetUp p ((smbCacheSystem p w fuel).run (smbCacheStart tries) es).heap.tries pages := by
  have hrun : (((smbCacheSystem p w fuel).restrict (smbSetUps p)).run (smbCacheStart tries) es).Ordered p :=
    System.Legal.invariant (fun _ _ h hen => h.next hen.1.2 hen.2) (SmbCaches.Ordered.start p tries) hl
  have hordered : ((smbCacheSystem p w fuel).run (smbCacheStart tries) es).Ordered p := hrun
  rw [System.run_append]
  exact SmbCaches.mount_iff hordered.held he.1 pages

/-- Allocations of which the one number `lost` fails. -/
def smbPlaces (lost : Nat) : Places where
  place n := if n = lost then none else some (n + 1)
  pos n a h := by
    split at h
    · cases h
    · obtain rfl := Option.some.inj h
      exact Nat.succ_pos n
  inj m n a hm hn := by
    split at hm
    · cases hm
    · split at hn
      · cases hn
      · exact Nat.succ.inj ((Option.some.inj hm).trans (Option.some.inj hn).symm)

/-- A server that answers every time. -/
def smbPeer : SmbPeer where
  clock n := n
  answer _ := .reads 1
  reach _ := true
  opens _ := true
  takes _ := 1

/-- One page is set up, a file written to, and the share is left; the next set-up comes to its two pages as well. -/
theorem smb_caches_set_up_again :
    (((smbCacheSystem (smbPlaces 100) smbPeer 9).run (smbCacheStart 0)
          ([.mount 1, .open 0 "a" none false, .write 0 3, .close 0, .unmount] ++ [.mount 2])).Full ∨
        ((smbCacheSystem (smbPlaces 100) smbPeer 9).run (smbCacheStart 0)
          ([.mount 1, .open 0 "a" none false, .write 0 3, .close 0, .unmount] ++ [.mount 2])).Safe (smbPlaces 100) smbPeer) ↔
      SmbSetUp (smbPlaces 100) ((smbCacheSystem (smbPlaces 100) smbPeer 9).run (smbCacheStart 0)
        [.mount 1, .open 0 "a" none false, .write 0 3, .close 0, .unmount]).heap.tries 2 :=
  smb_caches_set_up (smbPlaces 100) smbPeer 9 0 (by decide) 2 (by decide)

/-- The buffer of the third of eight pages does not come: a file that is closed then is looked for in an array that is not there. -/
theorem smb_caches_half_set_up :
    ¬ (((smbCacheSystem (smbPlaces 4) smbPeer 9).run (smbCacheStart 0) [.mount 8]).Full ∨
      ((smbCacheSystem (smbPlaces 4) smbPeer 9).run (smbCacheStart 0) [.mount 8]).Safe (smbPlaces 4) smbPeer) := by
  rintro (hfull | hsafe)
  · exact absurd hfull.array (by decide)
  · have hsound := hsafe 9 [.open 0 "a" none false, .close 0] (by decide) (by decide)
    exact absurd hsound.ok (by decide)

end Libogc
