import Libogc.Lib.Places
import Libogc.Lib.Words
import Libogc.Smb.SmbPages
/-!
# SmbCaches — the blocks behind the caches of `smb_devoptab.c`

Where the cache pointers of an environment point to, and every use that is made of them: the array of the pages, their buffers, the write
block.  The uses go on the record `ok`: a pointer that is used is to a block that is allocated and was not freed.  What the buffers hold is
`SmbPages`.

The two loops that the source does not bound take `fuel`; a call that runs out of it is cut off there (`hung`), and nothing follows it.
-/
namespace Libogc

open Runs

def SMB_WRITE_BUFFERSIZE : Nat := 60 * 1024

/-- What the outside answers, with what `SMB_WriteFile` returns. -/
structure SmbPeer extends SmbWorld where
  takes : Nat → Int

/-- What the caches read of an `SMBFILESTRUCT`. -/
structure SmbFileStruct where
  filename : String
  offset : Nat
  len : Nat
  deriving DecidableEq, Repr

/-- The caches of an `smb_env`, and the files; a file is known by where its `SMBFILESTRUCT` is. -/
structure SmbCaches where
  heap : CHeap
  ok : Bool
  hung : Bool
  connected : Bool
  writeLen : Nat
  writeFile : Option Nat
  writePtr : Nat
  raCache : Nat
  raPages : Int
  page : Nat → SmbCachePage Nat Nat
  file : Nat → SmbFileStruct
  opened : Nat → Bool
  dated : Nat
  asked : Nat
  tries : Nat
  wrote : Nat

namespace SmbCaches
variable (p : Places) (w : SmbPeer) (f : Nat) (s : SmbCaches)

/-- What a pointer is to is read or written. -/
def use (ptr : Nat) : SmbCaches := { s with ok := s.ok && decide (s.heap.Live ptr) }

def free (ptr : Nat) : SmbCaches := { s with heap := s.heap.free ptr }

def setPage (i : Nat) (page : SmbCachePage Nat Nat) : SmbCaches := { s with page := Function.update s.page i page }

def setFile (file : SmbFileStruct) : SmbCaches := { s with file := Function.update s.file f file }

/-- So many bytes of a file were written. -/
def advance (written : Nat) : SmbCaches :=
  let offset := (s.file f).offset + written
  s.setFile f { s.file f with offset := offset, len := max (s.file f).len offset }

/-! ## The write block -/

/-- The loop of `FlushWriteSMBCache`; a round that goes on writes a byte at least, and `SMB_WriteFile` writes no more than it was given. -/
def flushLoop : Nat → SmbCaches → SmbCaches × Bool
  | 0, s => (s, true)
  | fuel + 1, s =>
    if s.writeLen = 0 then (s, true)
    else
      let ret := w.takes s.wrote
      let s := { s.use s.writePtr with wrote := s.wrote + 1 }
      if ret ≤ 0 then (s, false)
      else
        let ret := min ret.toNat s.writeLen
        flushLoop fuel ({ s with writeLen := s.writeLen - ret }.advance f ret)

/-- `FlushWriteSMBCache` -/
def flushWriteSMBCache : SmbCaches × Bool :=
  if !s.connected then (s, false)
  else
    match s.writeFile with
    | none => (s, true)
    | some f =>
      if s.writeLen = 0 then (s, true)
      else
        match flushLoop w f s.writeLen s with
        | (s, false) => (s, false)
        | (s, true) => ({ s with writeFile := none }, true)

/-- A call on a file begins with a flush of what it has in the write block. -/
def flushOwn : SmbCaches := if s.writeFile = some f then (s.flushWriteSMBCache w).1 else s

/-- The loop of `WriteSMBUsingCache`, with `len` bytes to go. -/
def writeLoop : Nat → Nat → SmbCaches → SmbCaches × Bool
  | 0, _, s => ({ s with hung := true }, false)
  | fuel + 1, len, s =>
    if len = 0 then (s, true)
    else
      let s := s.use s.writePtr
      if SMB_WRITE_BUFFERSIZE ≤ s.writeLen + len then
        let rest := SMB_WRITE_BUFFERSIZE - s.writeLen
        let written := w.takes s.wrote
        let s := { s with wrote := s.wrote + 1 }
        if written < 0 then (s, false)
        else writeLoop fuel (len - rest) ({ s with writeLen := 0 }.advance f written.toNat)
      else ({ s with writeLen := s.writeLen + len }, true)

/-- `WriteSMBUsingCache`: the files are told apart by their names. -/
def writeSMBUsingCache (fuel len : Nat) : SmbCaches × Bool :=
  match s.writeFile with
  | none => writeLoop w f fuel len { s with writeFile := some f, writeLen := 0 }
  | some g =>
    if (s.file g).filename = (s.file f).filename then writeLoop w f fuel len s
    else
      match s.flushWriteSMBCache w with
      | (s, false) => (s, false)
      | (s, true) => writeLoop w f fuel len { s with writeFile := some f, writeLen := 0 }

/-! ## The pages -/

/-- The buffers of some pages are freed. -/
def freePages (is : List Nat) : SmbCaches := is.foldl (fun s i => (s.use s.raCache).free (s.page i).ptr) s

/-- `DestroySMBReadAheadCache` -/
def destroySMBReadAheadCache : SmbCaches :=
  let s :=
    if s.raCache = 0 then s
    else { (s.freePages (List.range s.raPages.toNat)).free s.raCache with raCache := 0, raPages := 0 }
  let s := (s.flushWriteSMBCache w).1
  { s.free s.writePtr with writeLen := 0, writeFile := none, writePtr := 0 }

/-- The loop of `SMBEnableReadAhead`, with `n` pages to go from page `i` on.  The buffer of a page comes and is cleared; where it does not
come, what was allocated is freed. -/
def allocPages : Nat → Nat → SmbCaches → SmbCaches
  | 0, _, s => s
  | n + 1, i, s =>
    let (heap, ptr) := s.heap.malloc p
    let s := { s.use s.raCache with heap := heap }.setPage i ⟨0, 0, none, ptr⟩
    if ptr = 0 then
      let s := s.freePages (List.range i).reverse
      { s.free s.raCache with raCache := 0 }.free s.writePtr
    else allocPages n (i + 1) (s.use ptr)

/-- `SMBEnableReadAhead`.  The count of the pages becomes an `int`; what stands in a new array is no pointer. -/
def enableReadAhead (pages : UInt32) : SmbCaches :=
  let s := s.destroySMBReadAheadCache w
  if pages = 0 then s
  else
    let (heap, ptr) := s.heap.malloc p
    let s := { s with heap := heap, writePtr := ptr, writeLen := 0, writeFile := none, raPages := s32 pages.toNat }
    let (heap, ptr) := s.heap.malloc p
    let s := { s with heap := heap, raCache := ptr, page := fun _ => ⟨0, 0, none, 0⟩ }
    if ptr = 0 then s else s.allocPages p s.raPages.toNat 0

/-- One page of `ClearSMBFileCache`. -/
def clearPage (i : Nat) : SmbCaches :=
  let s := s.use s.raCache
  if (s.page i).file = some f then (s.use (s.page i).ptr).setPage i ⟨0, 0, none, (s.page i).ptr⟩ else s

/-- `ClearSMBFileCache` -/
def clearSMBFileCache : SmbCaches := (List.range s.raPages.toNat).foldl (clearPage f) s

/-- The first page of the file that the offset is on. -/
def pageAt (newOffset : Nat) : Option Nat :=
  (List.range s.raPages.toNat).find? fun i =>
    (s.page i).file = some f ∧ (s.page i).offset ≤ newOffset ∧ newOffset < (s.page i).offset + SMB_READ_BUFFERSIZE

def leastUsed : Nat :=
  (List.range s.raPages.toNat).foldl (fun least i => if (s.page i).lastUsed < (s.page least).lastUsed then i else least) 0

/-- The loop that fills the buffer `ptr` from `done` on; a round that goes on reads a byte at least. -/
def fillLoop (ptr cacheToRead : Nat) : Nat → Nat → SmbCaches → SmbCaches × Bool
  | 0, _, s => (s, true)
  | fuel + 1, done, s =>
    if cacheToRead ≤ done then (s, true)
    else
      let answer := w.answer s.asked
      let s := { s.use ptr with asked := s.asked + 1 }
      match answer with
      | .fails _ => (s, false)
      | .reads n => fillLoop ptr cacheToRead fuel (done + smbDelivered (cacheToRead - done) n) s

/-- The pages but the least used one that a new page intersects with are cleared. -/
def clearIntersecting (cacheOffset : Nat) : SmbCaches :=
  { s with page := fun i => if i = s.leastUsed ∨ s.raPages.toNat ≤ i then s.page i else (s.page i).cleared f cacheOffset }

/-- The least used page is filled anew. -/
def fill (cacheOffset : Nat) : SmbCaches × Bool :=
  let least := s.leastUsed
  let s := s.clearIntersecting f cacheOffset
  let cacheToRead := min ((s.file f).len - cacheOffset) SMB_READ_BUFFERSIZE
  match fillLoop w (s.page least).ptr cacheToRead cacheToRead 0 s with
  | (s, false) => (s.setPage least { s.page least with file := none }, false)
  | (s, true) =>
    ({ s.setPage least { s.page least with offset := cacheOffset, lastUsed := w.clock s.dated, file := some f } with
      dated := s.dated + 1 }, true)

/-- `continue_read`, with `rest` bytes to go. -/
def continueRead : Nat → Nat → Nat → SmbCaches → SmbCaches × Bool
  | 0, _, _, s => ({ s with hung := true }, false)
  | fuel + 1, newOffset, rest, s =>
    let s := s.use s.raCache
    match s.pageAt f newOffset with
    | none =>
      match s.fill w f newOffset with
      | (s, false) => (s, false)
      | (s, true) => continueRead fuel newOffset rest s
    | some i =>
      let bufferUsed := min ((s.page i).offset + SMB_READ_BUFFERSIZE - newOffset) rest
      let s := { (s.use (s.page i).ptr).setPage i { s.page i with lastUsed := w.clock s.dated } with dated := s.dated + 1 }
      if rest - bufferUsed = 0 then (s, true) else continueRead fuel (newOffset + bufferUsed) (rest - bufferUsed) s

/-- `ReadSMBFromCache`: without the array the file is read directly. -/
def readSMBFromCache (fuel len : Nat) : SmbCaches × Bool :=
  if len = 0 then (s, true)
  else if s.raCache = 0 then
    ({ s with asked := s.asked + 1 },
      match w.answer s.asked with
      | .fails _ => false
      | .reads _ => true)
  else continueRead w f fuel (s.file f).offset len s

/-! ## The calls on files -/

/-- `__smb_open`, when it comes as far as the file; `size` is what the server says of a file that exists. -/
def smbOpen (filename : String) (size : Option Nat) (append : Bool) : SmbCaches :=
  if !s.connected then s
  else
    let len := size.getD 0
    { s.setFile f ⟨filename, if append then len else 0, len⟩ with opened := Function.update s.opened f true }

/-- The loop of `retry_read`, with `done` of the `len` bytes read. -/
def readBlocks (fuel len : Nat) : Nat → Nat → SmbCaches → SmbCaches × Nat × Bool
  | 0, done, s => (s, done, true)
  | rounds + 1, done, s =>
    if len ≤ done then (s, done, true)
    else
      let readsize := min (len - done) SMB_READ_BUFFERSIZE
      match s.readSMBFromCache w f fuel readsize with
      | (s, false) => (s, done, false)
      | (s, true) => readBlocks fuel len rounds (done + readsize) (s.setFile f { s.file f with offset := (s.file f).offset + readsize })

/-- `retry_reconnect`, with `cntRetry` left. -/
def retryRead (fuel len : Nat) : Nat → Nat → SmbCaches → SmbCaches
  | 0, _, s => s
  | cntRetry + 1, done, s =>
    if s.hung then s
    else
      let reached := s.connected && w.reach s.tries
      let opens := w.opens s.tries
      let s := { s with tries := s.tries + 1 }
      if !reached then retryRead fuel len cntRetry done s
      else
        let s := s.clearSMBFileCache f
        if !opens then s
        else
          match readBlocks w f fuel len len done s with
          | (s, _, true) => s
          | (s, done, false) => retryRead fuel len cntRetry done s

/-- `__smb_read` -/
def smbRead (fuel len : Nat) : SmbCaches :=
  if len = 0 then s
  else
    let s := s.flushOwn w f
    if (s.file f).len ≤ (s.file f).offset then s
    else
      let len := min len ((s.file f).len - (s.file f).offset)
      match readBlocks w f fuel len len 0 s with
      | (s, _, true) => s
      | (s, done, false) => retryRead w f fuel len 2 done s

/-- `__smb_write` -/
def smbWrite (fuel len : Nat) : SmbCaches :=
  if (s.file f).len < (s.file f).offset then s
  else if len = 0 then s
  else (s.writeSMBUsingCache w f fuel len).1

/-- `__smb_seek` to a position that is none before the file. -/
def smbSeek (position : Nat) : SmbCaches :=
  let s := s.flushOwn w f
  s.setFile f { s.file f with offset := position }

/-- `__smb_close` -/
def smbClose : SmbCaches :=
  let s := (s.flushOwn w f).clearSMBFileCache f
  { s.setFile f ⟨"", 0, 0⟩ with opened := Function.update s.opened f false }

/-- `MountDevice`: the environment is connected, and its caches are set up. -/
def mount (pages : UInt32) : SmbCaches := { s with connected := true }.enableReadAhead p w pages

end SmbCaches

/-! ## The system -/

/-- The calls on files, a round of `process_cache_thread` that finds the write block old enough, and the ends of a mount. -/
inductive SmbCacheEvent where
  | open (f : Nat) (filename : String) (size : Option Nat) (append : Bool)
  | read (f len : Nat)
  | write (f len : Nat)
  | seek (f position : Nat)
  | close (f : Nat)
  | expire
  | unmount
  | mount (pages : UInt32)

def SmbCacheEvent.mounts : SmbCacheEvent → Bool
  | .mount _ => true
  | _ => false

def smbCacheNext (p : Places) (w : SmbPeer) (fuel : Nat) (s : SmbCaches) : SmbCacheEvent → SmbCaches
  | .open f filename size append => s.smbOpen f filename size append
  | .read f len => s.smbRead w f fuel len
  | .write f len => s.smbWrite w f fuel len
  | .seek f position => s.smbSeek w f position
  | .close f => s.smbClose w f
  | .expire => (s.flushWriteSMBCache w).1
  | .unmount => { s with connected := false }
  | .mount pages => s.mount p w pages

def smbCacheEnabled (s : SmbCaches) : SmbCacheEvent → Bool
  | .open f _ _ _ => !s.opened f
  | .read f _ | .write f _ | .seek f _ | .close f => s.opened f
  | .expire | .unmount => s.connected
  | .mount _ => !s.connected

def smbCacheSystem (p : Places) (w : SmbPeer) (fuel : Nat) : System SmbCaches SmbCacheEvent where
  enabled s e := s.hung = false ∧ smbCacheEnabled s e = true
  next := smbCacheNext p w fuel

instance (p : Places) (w : SmbPeer) (fuel : Nat) (s : SmbCaches) (e : SmbCacheEvent) : Decidable ((smbCacheSystem p w fuel).enabled s e) :=
  inferInstanceAs (Decidable (_ ∧ _))

/-- Nothing is mounted yet; `tries` allocations were made by others. -/
def smbCacheStart (tries : Nat) : SmbCaches where
  heap := ⟨tries, []⟩
  ok := true
  hung := false
  connected := false
  writeLen := 0
  writeFile := none
  writePtr := 0
  raCache := 0
  raPages := 0
  page := fun _ => ⟨0, 0, none, 0⟩
  file := fun _ => ⟨"", 0, 0⟩
  opened := fun _ => false
  dated := 0
  asked := 0
  tries := 0
  wrote := 0

/-! ## What a call leaves as it is -/

namespace SmbCaches

/-- **The caches can be used**: the write block is there, and with the array the buffer of every page; without it no page counts. -/
structure Usable (s : SmbCaches) : Prop where
  write : s.heap.Live s.writePtr
  pages : s.raCache ≠ 0 → 0 < s.raPages ∧ s.heap.Live s.raCache ∧ ∀ i : Nat, (i : Int) < s.raPages → s.heap.Live (s.page i).ptr
  without : s.raCache = 0 → s.raPages ≤ 0

/-- No call on a file moves a pointer; a bad use stays on the record, and where the caches can be used there is none. -/
structure Same (s s' : SmbCaches) : Prop where
  heap : s'.heap = s.heap
  writePtr : s'.writePtr = s.writePtr
  raCache : s'.raCache = s.raCache
  raPages : s'.raPages = s.raPages
  ptr : ∀ i, (s'.page i).ptr = (s.page i).ptr
  mono : s'.ok = true → s.ok = true
  ok : s.Usable → s'.ok = s.ok

variable {p : Places} {w : SmbPeer} {f : Nat} {s s' s'' : SmbCaches}

theorem Same.usable (h : Same s s') (hu : s.Usable) : s'.Usable where
  write := by
    rw [h.heap, h.writePtr]
    exact hu.write
  pages hra := by
    rw [h.raCache] at hra
    obtain ⟨hpos, hlive, hpages⟩ := hu.pages hra
    rw [h.heap, h.raCache, h.raPages]
    refine ⟨hpos, hlive, fun i hi => ?_⟩
    rw [h.ptr i]
    exact hpages i hi
  without hra := by
    rw [h.raCache] at hra
    rw [h.raPages]
    exact hu.without hra

theorem Same.refl (s : SmbCaches) : Same s s := ⟨rfl, rfl, rfl, rfl, fun _ => rfl, id, fun _ => rfl⟩

theorem Same.trans (h : Same s s') (h' : Same s' s'') : Same s s'' where
  heap := h'.heap.trans h.heap
  writePtr := h'.writePtr.trans h.writePtr
  raCache := h'.raCache.trans h.raCache
  raPages := h'.raPages.trans h.raPages
  ptr i := (h'.ptr i).trans (h.ptr i)
  mono hok := h.mono (h'.mono hok)
  ok hu := (h'.ok (h.usable hu)).trans (h.ok hu)

theorem Same.of_eq (hheap : s'.heap = s.heap) (hwrite : s'.writePtr = s.writePtr) (hra : s'.raCache = s.raCache)
    (hn : s'.raPages = s.raPages) (hptr : ∀ i, (s'.page i).ptr = (s.page i).ptr) (hok : s'.ok = s.ok) : Same s s' :=
  ⟨hheap, hwrite, hra, hn, hptr, fun h => hok ▸ h, fun _ => hok⟩

theorem Same.use {ptr : Nat} (h : s.Usable → s.heap.Live ptr) : Same s (s.use ptr) where
  heap := rfl
  writePtr := rfl
  raCache := rfl
  raPages := rfl
  ptr _ := rfl
  mono hok := by
    unfold SmbCaches.use at hok
    simp only [Bool.and_eq_true] at hok
    exact hok.1
  ok hu := by
    unfold SmbCaches.use
    simp [h hu]

theorem use_ok {ptr : Nat} (h : (s.use ptr).ok = true) : s.heap.Live ptr := by
  unfold use at h
  simp only [Bool.and_eq_true, decide_eq_true_eq] at h
  exact h.2

theorem Same.setPage {i : Nat} {page : SmbCachePage Nat Nat} (h : page.ptr = (s.page i).ptr) : Same s (s.setPage i page) := by
  have hptr : ∀ j, (Function.update s.page i page j).ptr = (s.page j).ptr := by
    intro j
    by_cases hj : j = i
    · subst hj
      simp [h]
    · simp [Function.update_of_ne hj]
  exact .of_eq rfl rfl rfl rfl hptr rfl

theorem Same.setFile (s : SmbCaches) (f : Nat) (file : SmbFileStruct) : Same s (s.setFile f file) :=
  .of_eq rfl rfl rfl rfl (fun _ => rfl) rfl

/-! ### The write block -/

theorem flushLoop_same (fuel : Nat) : ∀ s, Same s (flushLoop w f fuel s).1 := by
  induction fuel with
  | zero => exact Same.refl
  | succ fuel ih =>
    intro s
    rw [flushLoop]
    split
    · exact Same.refl s
    · have huse : Same s { s.use s.writePtr with wrote := s.wrote + 1 } :=
        (Same.use fun hu => hu.write).trans (.of_eq rfl rfl rfl rfl (fun _ => rfl) rfl)
      dsimp only
      split
      · exact huse
      · refine (huse.trans ?_).trans (ih _)
        exact .of_eq rfl rfl rfl rfl (fun _ => rfl) rfl

theorem flush_same (s : SmbCaches) : Same s (s.flushWriteSMBCache w).1 := by
  unfold flushWriteSMBCache
  split
  · exact Same.refl s
  · cases s.writeFile with
    | none => exact Same.refl s
    | some f =>
      dsimp only
      split
      · exact Same.refl s
      · have hloop := flushLoop_same (w := w) (f := f) s.writeLen s
        cases hres : flushLoop w f s.writeLen s with
        | mk s' ok =>
          rw [hres] at hloop
          cases ok with
          | false => exact hloop
          | true => exact hloop.trans (.of_eq rfl rfl rfl rfl (fun _ => rfl) rfl)

theorem flushOwn_same (s : SmbCaches) : Same s (s.flushOwn w f) := by
  unfold flushOwn
  split
  · exact flush_same s
  · exact Same.refl s

theorem writeLoop_same (fuel : Nat) : ∀ len s, Same s (writeLoop w f fuel len s).1 := by
  induction fuel with
  | zero => exact fun _ s => .of_eq rfl rfl rfl rfl (fun _ => rfl) rfl
  | succ fuel ih =>
    intro len s
    rw [writeLoop]
    split
    · exact Same.refl s
    · have huse : Same s (s.use s.writePtr) := Same.use fun hu => hu.write
      dsimp only
      split
      · split
        · exact huse.trans (.of_eq rfl rfl rfl rfl (fun _ => rfl) rfl)
        · refine (huse.trans ?_).trans (ih _ _)
          exact .of_eq rfl rfl rfl rfl (fun _ => rfl) rfl
      · exact huse.trans (.of_eq rfl rfl rfl rfl (fun _ => rfl) rfl)

theorem writeSMBUsingCache_same (fuel len : Nat) (s : SmbCaches) : Same s (s.writeSMBUsingCache w f fuel len).1 := by
  have hnew (s : SmbCaches) : Same s { s with writeFile := some f, writeLen := 0 } := .of_eq rfl rfl rfl rfl (fun _ => rfl) rfl
  unfold writeSMBUsingCache
  cases s.writeFile with
  | none => exact (hnew s).trans (writeLoop_same fuel len _)
  | some g =>
    dsimp only
    split
    · exact writeLoop_same fuel len s
    · have hflush := flush_same (w := w) s
      cases hres : s.flushWriteSMBCache w with
      | mk s' ok =>
        rw [hres] at hflush
        cases ok with
        | false => exact hflush
        | true => exact (hflush.trans (hnew s')).trans (writeLoop_same fuel len _)

/-! ### The pages -/

theorem Usable.array (hu : s.Usable) (hn : 0 < s.raPages) : s.raCache ≠ 0 := by
  intro hra
  exact absurd (hu.without hra) (Int.not_le.2 hn)

theorem clearPage_same {i : Nat} (hi : (i : Int) < s.raPages) : Same s (s.clearPage f i) := by
  have hn : 0 < s.raPages := by omega
  have huse : Same s (s.use s.raCache) := Same.use fun hu => (hu.pages (hu.array hn)).2.1
  unfold clearPage
  dsimp only
  split
  · have hptr : Same (s.use s.raCache) ((s.use s.raCache).use (s.page i).ptr) := Same.use fun hu => (hu.pages (hu.array hn)).2.2 i hi
    exact (huse.trans hptr).trans (Same.setPage rfl)
  · exact huse

theorem mem_range_raPages {i : Nat} : i ∈ List.range s.raPages.toNat ↔ (i : Int) < s.raPages := by
  rw [List.mem_range]
  omega

theorem clearPages_same {is : List Nat} (his : ∀ i ∈ is, (i : Int) < s.raPages) : Same s (is.foldl (clearPage f) s) := by
  induction is generalizing s with
  | nil => exact Same.refl s
  | cons i is ih =>
    have hpage := clearPage_same (f := f) (his i List.mem_cons_self)
    refine hpage.trans (ih fun j hj => ?_)
    rw [hpage.raPages]
    exact his j (List.mem_cons_of_mem i hj)

theorem clear_same (s : SmbCaches) : Same s (s.clearSMBFileCache f) := clearPages_same fun _ hi => mem_range_raPages.1 hi

theorem pageAt_lt {newOffset i : Nat} (h : s.pageAt f newOffset = some i) : (i : Int) < s.raPages :=
  mem_range_raPages.1 (List.mem_of_find?_eq_some h)

theorem leastUsed_lt (hn : 0 < s.raPages) : (s.leastUsed : Int) < s.raPages := by
  have hall (is : List Nat) (his : ∀ i ∈ is, (i : Int) < s.raPages) : ∀ least : Nat, (least : Int) < s.raPages →
      ((is.foldl (fun least i => if (s.page i).lastUsed < (s.page least).lastUsed then i else least) least : Nat) : Int) < s.raPages := by
    induction is with
    | nil => exact fun _ h => h
    | cons i is ih =>
      intro least h
      apply ih fun j hj => his j (List.mem_cons_of_mem i hj)
      dsimp only
      split
      · exact his i List.mem_cons_self
      · exact h
  exact hall _ (fun i hi => mem_range_raPages.1 hi) 0 hn

theorem fillLoop_same {ptr cacheToRead : Nat} (fuel : Nat) : ∀ done s, (s.Usable → s.heap.Live ptr) →
    Same s (fillLoop w ptr cacheToRead fuel done s).1 := by
  induction fuel with
  | zero => exact fun _ s _ => Same.refl s
  | succ fuel ih =>
    intro done s h
    rw [fillLoop]
    split
    · exact Same.refl s
    · have huse : Same s { s.use ptr with asked := s.asked + 1 } := (Same.use h).trans (.of_eq rfl rfl rfl rfl (fun _ => rfl) rfl)
      dsimp only
      cases w.answer s.asked with
      | fails left => exact huse
      | reads n => exact huse.trans (ih _ _ fun hu => h ⟨hu.write, hu.pages, hu.without⟩)

theorem cleared_ptr (page : SmbCachePage Nat Nat) (cacheOffset : Nat) : (page.cleared f cacheOffset).ptr = page.ptr := by
  unfold SmbCachePage.cleared
  split <;> rfl

theorem clearIntersecting_same (cacheOffset : Nat) (s : SmbCaches) : Same s (s.clearIntersecting f cacheOffset) := by
  refine .of_eq rfl rfl rfl rfl (fun i => ?_) rfl
  unfold clearIntersecting
  dsimp only
  split
  · rfl
  · exact cleared_ptr _ _

theorem fill_same (hra : s.raCache ≠ 0) (cacheOffset : Nat) : Same s (s.fill w f cacheOffset).1 := by
  have hsame := clearIntersecting_same (f := f) cacheOffset s
  unfold fill
  dsimp only
  generalize s.clearIntersecting f cacheOffset = s₁ at hsame
  have hlive : s₁.Usable → s₁.heap.Live (s₁.page s.leastUsed).ptr := by
    intro hu
    rw [← hsame.raCache] at hra
    obtain ⟨hn, -, hpages⟩ := hu.pages hra
    apply hpages
    rw [hsame.raPages] at hn ⊢
    exact leastUsed_lt hn
  generalize min ((s₁.file f).len - cacheOffset) SMB_READ_BUFFERSIZE = m
  have hloop : Same s₁ (fillLoop w (s₁.page s.leastUsed).ptr m m 0 s₁).1 := fillLoop_same m 0 s₁ hlive
  generalize fillLoop w (s₁.page s.leastUsed).ptr m m 0 s₁ = res at hloop
  obtain ⟨s₂, ok⟩ := res
  cases ok with
  | false => exact (hsame.trans hloop).trans (Same.setPage rfl)
  | true =>
    have hset : Same s₂ (s₂.setPage s.leastUsed
      { s₂.page s.leastUsed with offset := cacheOffset, lastUsed := w.clock s₂.dated, file := some f }) := Same.setPage rfl
    exact ((hsame.trans hloop).trans hset).trans (.of_eq rfl rfl rfl rfl (fun _ => rfl) rfl)

theorem continueRead_same (fuel : Nat) : ∀ newOffset rest s, s.raCache ≠ 0 → Same s (continueRead w f fuel newOffset rest s).1 := by
  induction fuel with
  | zero => exact fun _ _ s _ => .of_eq rfl rfl rfl rfl (fun _ => rfl) rfl
  | succ fuel ih =>
    intro newOffset rest s hra
    have huse : Same s (s.use s.raCache) := Same.use fun hu => (hu.pages hra).2.1
    rw [continueRead]
    dsimp only
    cases hat : (s.use s.raCache).pageAt f newOffset with
    | none =>
      have hfill := fill_same (w := w) (f := f) (s := s.use s.raCache) hra newOffset
      dsimp only
      cases hres : (s.use s.raCache).fill w f newOffset with
      | mk s' ok =>
        rw [hres] at hfill
        cases ok with
        | false => exact huse.trans hfill
        | true => exact (huse.trans hfill).trans (ih _ _ s' (by rw [hfill.raCache]; exact hra))
    | some i =>
      have hptr : Same (s.use s.raCache) ((s.use s.raCache).use (s.page i).ptr) :=
        Same.use fun hu => (hu.pages hra).2.2 i (pageAt_lt hat)
      have hset : Same ((s.use s.raCache).use (s.page i).ptr) (((s.use s.raCache).use (s.page i).ptr).setPage i
        { s.page i with lastUsed := w.clock s.dated }) := Same.setPage rfl
      have hdated : Same s { (((s.use s.raCache).use (s.page i).ptr).setPage i { s.page i with lastUsed := w.clock s.dated }) with
          dated := s.dated + 1 } := ((huse.trans hptr).trans hset).trans (.of_eq rfl rfl rfl rfl (fun _ => rfl) rfl)
      dsimp only
      split
      · exact hdated
      · exact hdated.trans (ih _ _ _ hra)

theorem readSMBFromCache_same (fuel len : Nat) (s : SmbCaches) : Same s (s.readSMBFromCache w f fuel len).1 := by
  unfold readSMBFromCache
  split
  · exact Same.refl s
  · split
    · exact .of_eq rfl rfl rfl rfl (fun _ => rfl) rfl
    · exact continueRead_same fuel _ len s ‹_›

/-! ### The calls on files -/

theorem readBlocks_same (fuel len rounds : Nat) : ∀ done s, Same s (readBlocks w f fuel len rounds done s).1 := by
  induction rounds with
  | zero => exact fun _ => Same.refl
  | succ rounds ih =>
    intro done s
    rw [readBlocks]
    split
    · exact Same.refl s
    · have hread := readSMBFromCache_same (w := w) (f := f) fuel (min (len - done) SMB_READ_BUFFERSIZE) s
      dsimp only
      cases hres : s.readSMBFromCache w f fuel (min (len - done) SMB_READ_BUFFERSIZE) with
      | mk s' ok =>
        rw [hres] at hread
        cases ok with
        | false => exact hread
        | true => exact (hread.trans (Same.setFile s' f _)).trans (ih _ _)

theorem retryRead_same (fuel len cntRetry : Nat) : ∀ done s, Same s (retryRead w f fuel len cntRetry done s) := by
  induction cntRetry with
  | zero => exact fun _ => Same.refl
  | succ cntRetry ih =>
    intro done s
    have htried : Same s { s with tries := s.tries + 1 } := .of_eq rfl rfl rfl rfl (fun _ => rfl) rfl
    have hclear := htried.trans (clear_same (f := f) { s with tries := s.tries + 1 })
    rw [retryRead]
    dsimp only
    split
    · exact Same.refl s
    · split
      · exact htried.trans (ih _ _)
      · split
        · exact hclear
        · generalize ({ s with tries := s.tries + 1 } : SmbCaches).clearSMBFileCache f = s₁ at hclear
          have hread := readBlocks_same (w := w) (f := f) fuel len len done s₁
          generalize readBlocks w f fuel len len done s₁ = res at hread
          obtain ⟨s', done', ok⟩ := res
          cases ok with
          | true => exact hclear.trans hread
          | false => exact (hclear.trans hread).trans (ih _ _)

theorem smbRead_same (fuel len : Nat) (s : SmbCaches) : Same s (s.smbRead w f fuel len) := by
  have hown := flushOwn_same (w := w) (f := f) s
  unfold smbRead
  dsimp only
  split
  · exact Same.refl s
  · generalize s.flushOwn w f = s₁ at hown
    split
    · exact hown
    · have hread := readBlocks_same (w := w) (f := f) fuel (min len ((s₁.file f).len - (s₁.file f).offset))
        (min len ((s₁.file f).len - (s₁.file f).offset)) 0 s₁
      generalize readBlocks w f fuel (min len ((s₁.file f).len - (s₁.file f).offset))
        (min len ((s₁.file f).len - (s₁.file f).offset)) 0 s₁ = res at hread
      obtain ⟨s', done, ok⟩ := res
      cases ok with
      | true => exact hown.trans hread
      | false => exact (hown.trans hread).trans (retryRead_same fuel _ 2 done s')

theorem smbWrite_same (fuel len : Nat) (s : SmbCaches) : Same s (s.smbWrite w f fuel len) := by
  unfold smbWrite
  split
  · exact Same.refl s
  · split
    · exact Same.refl s
    · exact writeSMBUsingCache_same fuel len s

theorem smbOpen_same (filename : String) (size : Option Nat) (append : Bool) (s : SmbCaches) :
    Same s (s.smbOpen f filename size append) := by
  unfold smbOpen
  split
  · exact Same.refl s
  · exact .of_eq rfl rfl rfl rfl (fun _ => rfl) rfl

theorem smbClose_same (s : SmbCaches) : Same s (s.smbClose w f) := by
  refine ((flushOwn_same (w := w) (f := f) s).trans (clear_same (f := f) _)).trans ?_
  exact .of_eq rfl rfl rfl rfl (fun _ => rfl) rfl

/-- **A call on a file**, and what else is not a mount, moves no pointer and makes no bad use of one. -/
theorem next_same (fuel : Nat) {e : SmbCacheEvent} (he : e.mounts = false) (s : SmbCaches) : Same s (smbCacheNext p w fuel s e) := by
  cases e with
  | «open» f filename size append => exact smbOpen_same filename size append s
  | read f len => exact smbRead_same fuel len s
  | write f len => exact smbWrite_same fuel len s
  | seek f position => exact (flushOwn_same s).trans (Same.setFile _ f _)
  | close f => exact smbClose_same s
  | expire => exact flush_same s
  | unmount => exact .of_eq rfl rfl rfl rfl (fun _ => rfl) rfl
  | mount pages => cases he

end SmbCaches

end Libogc
