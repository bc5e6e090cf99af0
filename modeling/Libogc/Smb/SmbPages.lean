import Libogc.Lib.Bytes
import Libogc.Lib.Runs
import Mathlib.Data.List.FinRange
/-!
# SmbPages — the read-ahead pages of `smb_devoptab.c`

`ReadSMBFromCache` copies out of the pages that hold a file, and fills the least used one when none of them holds the offset it is at.  A
page may begin at any offset.  The pages are there, one at least; the loops carry fuel, which never runs out.

What the outside answers, call after call, is `SmbWorld`: the time, and what `SMB_ReadFile`, `smbCheckConnection` and `SMB_OpenFile` return.
-/
namespace Libogc

open Bytes Runs

def SMB_READ_BUFFERSIZE : Nat := 65472

/-- What a call of `SMB_ReadFile` does: it fails, and leaves whatever it likes in the buffer, or it delivers some of the bytes. -/
inductive SmbReadAnswer where
  | fails (left : List UInt8)
  | reads (n : Nat)

structure SmbWorld where
  clock : Nat → Nat
  answer : Nat → SmbReadAnswer
  reach : Nat → Bool
  opens : Nat → Bool

/-- A file on the server, with the length that was recorded when it was opened. -/
structure SmbContent where
  bytes : Nat → UInt8
  len : Nat

/-- A page of what was read ahead: `smb_cache_page`.  Its buffer is what stands in it, or where it is. -/
structure SmbCachePage (F B : Type) where
  offset : Nat
  lastUsed : Nat
  file : Option F
  ptr : B

/-- `SMBReadAheadCache`, and how often the clock, the server and the connection were asked. -/
structure SmbPages (F : Type) (n : Nat) where
  page : Fin (n + 1) → SmbCachePage F (Nat → UInt8)
  dated : Nat
  asked : Nat
  tries : Nat

variable {F B : Type} [DecidableEq F] {n : Nat}

section Calls
variable (w : SmbWorld) (f : F) (c : SmbContent)

/-- The first page of the file that the offset is on. -/
def smbPageAt (s : SmbPages F n) (newOffset : Nat) : Option (Fin (n + 1)) :=
  (List.finRange (n + 1)).find? fun i =>
    (s.page i).file = some f ∧ (s.page i).offset ≤ newOffset ∧ newOffset < (s.page i).offset + SMB_READ_BUFFERSIZE

omit [DecidableEq F] in
def smbLeastUsed (s : SmbPages F n) : Fin (n + 1) :=
  (List.finRange (n + 1)).foldl (fun least i => if (s.page i).lastUsed < (s.page least).lastUsed then i else least) 0

/-- A page that a new page at `cacheOffset` intersects with, by its tail or by its head. -/
def SmbCachePage.intersects (page : SmbCachePage F B) (cacheOffset : Nat) : Prop :=
  (cacheOffset < page.offset ∧ page.offset < cacheOffset + SMB_READ_BUFFERSIZE) ∨
    (page.offset ≤ cacheOffset ∧ cacheOffset < page.offset + SMB_READ_BUFFERSIZE)

instance (page : SmbCachePage F B) (cacheOffset : Nat) : Decidable (page.intersects cacheOffset) := inferInstanceAs (Decidable (_ ∨ _))

/-- The page, unless a new page at `cacheOffset` intersects with it. -/
def SmbCachePage.cleared (page : SmbCachePage F B) (cacheOffset : Nat) : SmbCachePage F B :=
  if page.file = some f ∧ page.intersects cacheOffset then { page with file := none } else page

/-- How many of `size` bytes a read delivers: at least one. -/
def smbDelivered (size n : Nat) : Nat := max 1 (min n size)

/-- The loop that fills a page from `done` on; `fuel` bounds its rounds.  It gives the page, the calls made, and whether all went well. -/
def smbFillLoop (cacheOffset cacheToRead : Nat) : Nat → Nat → Nat → (Nat → UInt8) → (Nat → UInt8) × Nat × Bool
  | 0, _, asked, ptr => (ptr, asked, true)
  | fuel + 1, done, asked, ptr =>
    if cacheToRead ≤ done then (ptr, asked, true)
    else
      match w.answer asked with
      | .fails left => (write ptr done (left.take (cacheToRead - done)), asked + 1, false)
      | .reads n =>
        let readed := smbDelivered (cacheToRead - done) n
        smbFillLoop cacheOffset cacheToRead fuel (done + readed) (asked + 1) (write ptr done (read c.bytes (cacheOffset + done) readed))

/-- The least used page is filled anew. -/
def smbFill (cacheOffset : Nat) (s : SmbPages F n) : SmbPages F n × Bool :=
  let least := smbLeastUsed s
  let cleared i := (s.page i).cleared f cacheOffset
  let cacheToRead := min (c.len - cacheOffset) SMB_READ_BUFFERSIZE
  match smbFillLoop w c cacheOffset cacheToRead cacheToRead 0 s.asked (s.page least).ptr with
  | (ptr, asked, false) =>
    ({ s with page := Function.update cleared least { s.page least with file := none, ptr := ptr }, asked := asked }, false)
  | (ptr, asked, true) =>
    ({ s with
      page := Function.update cleared least ⟨cacheOffset, w.clock s.dated, some f, ptr⟩
      dated := s.dated + 1
      asked := asked }, true)

omit [DecidableEq F] in
/-- A page is dated. -/
def SmbPages.used (s : SmbPages F n) (i : Fin (n + 1)) : SmbPages F n :=
  { s with page := Function.update s.page i { s.page i with lastUsed := w.clock s.dated }, dated := s.dated + 1 }

/-- `continue_read` of `ReadSMBFromCache`, with `rest` bytes to go to `buf` from `pos` on. -/
def smbContinueRead : Nat → Nat → Nat → Nat → (Nat → UInt8) → SmbPages F n → Option (SmbPages F n × (Nat → UInt8) × Int)
  | 0, _, _, _, _, _ => none
  | fuel + 1, newOffset, rest, pos, buf, s =>
    match smbPageAt f s newOffset with
    | none =>
      match smbFill w f c newOffset s with
      | (s, false) => some (s, buf, -1)
      | (s, true) => smbContinueRead fuel newOffset rest pos buf s
    | some i =>
      let page := s.page i
      let bufferUsed := min (page.offset + SMB_READ_BUFFERSIZE - newOffset) rest
      let buf := write buf pos (read page.ptr (newOffset - page.offset) bufferUsed)
      let s := s.used w i
      if rest - bufferUsed = 0 then some (s, buf, 0)
      else smbContinueRead fuel (newOffset + bufferUsed) (rest - bufferUsed) (pos + bufferUsed) buf s

/-- `ReadSMBFromCache` -/
def readSMBFromCache (fuel offset len pos : Nat) (buf : Nat → UInt8) (s : SmbPages F n) : Option (SmbPages F n × (Nat → UInt8) × Int) :=
  if len = 0 then some (s, buf, 0) else smbContinueRead w f c fuel offset len pos buf s

/-- `ClearSMBFileCache` -/
def clearSMBFileCache (s : SmbPages F n) : SmbPages F n :=
  { s with page := fun i => if (s.page i).file = some f then ⟨0, 0, none, fun _ => 0⟩ else s.page i }

end Calls

/-! ## What the pages hold -/

section Pages
variable {w : SmbWorld} {f : F} {c : SmbContent} {content : F → Option SmbContent} {s : SmbPages F n}

omit [DecidableEq F] in
/-- A page shows a file: where the file has bytes, they are the file's. -/
def SmbCachePage.Shows (page : SmbCachePage F (Nat → UInt8)) (c : SmbContent) : Prop :=
  ∀ k < SMB_READ_BUFFERSIZE, page.offset + k < c.len → page.ptr k = c.bytes (page.offset + k)

omit [DecidableEq F] in
/-- **The pages hold** what the open files have. -/
def SmbPages.Hold (s : SmbPages F n) (content : F → Option SmbContent) : Prop :=
  ∀ i f, (s.page i).file = some f → ∃ c, content f = some c ∧ (s.page i).Shows c

theorem smbPageAt_some {newOffset : Nat} {i : Fin (n + 1)} (h : smbPageAt f s newOffset = some i) :
    (s.page i).file = some f ∧ (s.page i).offset ≤ newOffset ∧ newOffset < (s.page i).offset + SMB_READ_BUFFERSIZE := by
  simpa using List.find?_some h

theorem smbPageAt_isSome {newOffset : Nat} {i : Fin (n + 1)} (hf : (s.page i).file = some f) (ho : (s.page i).offset = newOffset) :
    (smbPageAt f s newOffset).isSome := by
  unfold smbPageAt
  rw [List.find?_isSome]
  refine ⟨i, List.mem_finRange i, ?_⟩
  simp [hf, ho, SMB_READ_BUFFERSIZE]

theorem cleared_file {page : SmbCachePage F B} {cacheOffset : Nat} {g : F} (h : (page.cleared f cacheOffset).file = some g) :
    page.cleared f cacheOffset = page := by
  unfold SmbCachePage.cleared at h ⊢
  split at h
  · cases h
  · exact if_neg ‹_›

/-- What the loop has filled up to `done`, it has filled to the end when all goes well. -/
theorem smbFillLoop_spec {o m : Nat} (fuel : Nat) : ∀ {done a : Nat} {p : Nat → UInt8},
    m ≤ done + fuel → (∀ k < done, k < m → p k = c.bytes (o + k)) → (smbFillLoop w c o m fuel done a p).2.2 = true →
    ∀ k < m, (smbFillLoop w c o m fuel done a p).1 k = c.bytes (o + k) := by
  induction fuel with
  | zero => exact fun hfuel hptr _ k hk => hptr k (by omega) hk
  | succ fuel ih =>
    intro done a p hfuel hptr
    rw [smbFillLoop]
    split
    · exact fun _ k hk => hptr k (by omega) hk
    · cases w.answer a with
      | fails left => exact fun h => nomatch h
      | reads n =>
        have hone : 1 ≤ smbDelivered (m - done) n := Nat.le_max_left ..
        refine ih (by omega) fun k hk hlt => ?_
        by_cases hold : k < done
        · rw [write_outside (.inl hold)]
          exact hptr k hold hlt
        · obtain ⟨j, rfl⟩ := Nat.exists_eq_add_of_le (Nat.le_of_not_lt hold)
          have hj : j < smbDelivered (m - done) n := by omega
          rw [write_inside (by rw [read_length]; exact hj), read_getD hj, Nat.add_assoc]

/-- **The fill**: the pages still hold the files, and when all went well the offset is on one. -/
theorem smbFill_spec (h : s.Hold content) (hc : content f = some c) (cacheOffset : Nat) :
    (smbFill w f c cacheOffset s).1.Hold content ∧
      ((smbFill w f c cacheOffset s).2 = true → (smbPageAt f (smbFill w f c cacheOffset s).1 cacheOffset).isSome) := by
  have hother : ∀ i g, ((s.page i).cleared f cacheOffset).file = some g →
      ∃ c, content g = some c ∧ ((s.page i).cleared f cacheOffset).Shows c := by
    intro i g hg
    have heq := cleared_file hg
    rw [heq] at hg ⊢
    exact h i g hg
  have hfilled := smbFillLoop_spec (w := w) (c := c) (o := cacheOffset) (min (c.len - cacheOffset) SMB_READ_BUFFERSIZE)
    (a := s.asked) (p := (s.page (smbLeastUsed s)).ptr) (Nat.le_of_eq (Nat.zero_add _).symm) fun k hk => absurd hk (Nat.not_lt_zero k)
  unfold smbFill
  dsimp only
  generalize smbFillLoop w c cacheOffset (min (c.len - cacheOffset) SMB_READ_BUFFERSIZE) (min (c.len - cacheOffset) SMB_READ_BUFFERSIZE) 0
    s.asked (s.page (smbLeastUsed s)).ptr = res at hfilled
  obtain ⟨ptr, asked, ok⟩ := res
  cases ok with
  | false =>
    refine ⟨fun i g hg => ?_, fun h => nomatch h⟩
    by_cases hi : i = smbLeastUsed s
    · subst hi
      simp only [Function.update_self] at hg
      cases hg
    · simp only [Function.update_of_ne hi] at hg ⊢
      exact hother i g hg
  | true =>
    refine ⟨fun i g hg => ?_, fun _ => smbPageAt_isSome (i := smbLeastUsed s) (by simp) (by simp)⟩
    by_cases hi : i = smbLeastUsed s
    · subst hi
      simp only [Function.update_self] at hg ⊢
      cases hg
      exact ⟨c, hc, fun k hk hlen => hfilled rfl k (by dsimp only at hlen; omega)⟩
    · simp only [Function.update_of_ne hi] at hg ⊢
      exact hother i g hg

/-! ## A read -/

/-- The rounds to go: a hit takes one, a miss one more. -/
def smbRounds (f : F) (s : SmbPages F n) (newOffset rest : Nat) : Nat := 2 * rest - (if (smbPageAt f s newOffset).isSome then 1 else 0)

theorem smbHit_spec (h : s.Hold content) (hc : content f = some c) {newOffset rest : Nat} {i : Fin (n + 1)}
    (hi : smbPageAt f s newOffset = some i) (hlen : newOffset + rest ≤ c.len) :
    read (s.page i).ptr (newOffset - (s.page i).offset) (min ((s.page i).offset + SMB_READ_BUFFERSIZE - newOffset) rest) =
      read c.bytes newOffset (min ((s.page i).offset + SMB_READ_BUFFERSIZE - newOffset) rest) := by
  obtain ⟨hfile, hle, hlt⟩ := smbPageAt_some hi
  obtain ⟨c', hc', hshows⟩ := h i f hfile
  obtain rfl : c = c' := Option.some.inj (hc.symm.trans hc')
  apply read_congr
  intro k hk
  have hplace : newOffset - (s.page i).offset + k = newOffset + k - (s.page i).offset := by omega
  have hback : (s.page i).offset + (newOffset + k - (s.page i).offset) = newOffset + k := by omega
  rw [hplace, hshows _ (by omega) (by omega), hback]

omit [DecidableEq F] in
theorem SmbPages.Hold.used (h : s.Hold content) (i : Fin (n + 1)) : (s.used w i).Hold content := by
  intro j g hg
  unfold SmbPages.used at hg ⊢
  by_cases hj : j = i
  · subst hj
    simp only [Function.update_self] at hg ⊢
    exact h j g hg
  · simp only [Function.update_of_ne hj] at hg ⊢
    exact h j g hg

/-- **A copy** comes to an end, keeps the pages and what stands around its place in the buffer, and is right when it says so. -/
def SmbCopies (w : SmbWorld) (f : F) (c : SmbContent) (content : F → Option SmbContent) (rounds newOffset rest pos : Nat)
    (buf : Nat → UInt8) (s : SmbPages F n) : Prop :=
  ∃ s' buf' ret, (∀ fuel, rounds ≤ fuel → smbContinueRead w f c fuel newOffset rest pos buf s = some (s', buf', ret)) ∧
    s'.Hold content ∧ (∀ k, k < pos ∨ pos + rest ≤ k → buf' k = buf k) ∧
      (ret = -1 ∨ (ret = 0 ∧ (newOffset + rest ≤ c.len → buf' = write buf pos (read c.bytes newOffset rest))))

section Copies
variable {rounds newOffset rest pos : Nat} {buf : Nat → UInt8} {i : Fin (n + 1)}

theorem smbContinueRead_succ {r : Option (SmbPages F n × (Nat → UInt8) × Int)}
    (h : ∀ fuel, rounds ≤ fuel → smbContinueRead w f c (fuel + 1) newOffset rest pos buf s = r) (fuel : Nat) (hfuel : rounds + 1 ≤ fuel) :
    smbContinueRead w f c fuel newOffset rest pos buf s = r := by
  obtain ⟨fuel, rfl⟩ : ∃ k, fuel = k + 1 := ⟨fuel - 1, by omega⟩
  exact h fuel (Nat.le_of_succ_le_succ hfuel)

theorem SmbCopies.miss (h : s.Hold content) (hc : content f = some c) (hi : smbPageAt f s newOffset = none)
    (hnext : (smbFill w f c newOffset s).2 = true → SmbCopies w f c content rounds newOffset rest pos buf (smbFill w f c newOffset s).1) :
    SmbCopies w f c content (rounds + 1) newOffset rest pos buf s := by
  have hhold := (smbFill_spec (w := w) h hc newOffset).1
  cases hfill : smbFill w f c newOffset s with
  | mk s₁ ok =>
    rw [hfill] at hhold hnext
    cases ok with
    | false =>
      refine ⟨s₁, buf, -1, smbContinueRead_succ fun fuel _ => ?_, hhold, fun _ _ => rfl, .inl rfl⟩
      rw [smbContinueRead, hi]
      simp only [hfill]
    | true =>
      obtain ⟨s', buf', ret, hrun, hhold', hright⟩ := hnext rfl
      refine ⟨s', buf', ret, smbContinueRead_succ fun fuel hfuel => ?_, hhold', hright⟩
      rw [smbContinueRead, hi]
      simp only [hfill]
      exact hrun fuel hfuel

theorem SmbCopies.hit (h : s.Hold content) (hc : content f = some c) (hi : smbPageAt f s newOffset = some i) {used : Nat}
    (hused : min ((s.page i).offset + SMB_READ_BUFFERSIZE - newOffset) rest = used)
    (hnext : rest - used ≠ 0 → SmbCopies w f c content rounds (newOffset + used) (rest - used) (pos + used)
      (write buf pos (read (s.page i).ptr (newOffset - (s.page i).offset) used)) (s.used w i)) :
    SmbCopies w f c content (rounds + 1) newOffset rest pos buf s := by
  have hhit := fun (hlen : newOffset + rest ≤ c.len) => smbHit_spec h hc hi hlen
  rw [hused] at hhit
  have hsplit : rest = used + (rest - used) := by omega
  by_cases hdone : rest - used = 0
  · refine ⟨s.used w i, write buf pos (read (s.page i).ptr (newOffset - (s.page i).offset) used), 0, smbContinueRead_succ fun fuel _ => ?_,
      h.used i, fun k hk => ?_, .inr ⟨rfl, fun hlen => ?_⟩⟩
    · rw [smbContinueRead, hi]
      simp only [hused, hdone, if_true]
    · apply write_outside
      rw [read_length]
      omega
    · rw [hhit hlen, hsplit, hdone, Nat.add_zero]
  · obtain ⟨s', buf', ret, hrun, hhold', hframe, hright⟩ := hnext hdone
    refine ⟨s', buf', ret, smbContinueRead_succ fun fuel hfuel => ?_, hhold', fun k hk => ?_,
      hright.imp_right fun hret => ⟨hret.1, fun hlen => ?_⟩⟩
    · rw [smbContinueRead, hi]
      simp only [hused, hdone, if_false]
      exact hrun fuel hfuel
    · rw [hframe k (by omega)]
      apply write_outside
      rw [read_length]
      omega
    · have hwrite := write_append buf pos (read c.bytes newOffset used) (read c.bytes (newOffset + used) (rest - used))
      rw [read_length] at hwrite
      rw [hret.2 (by omega), hhit hlen, hwrite, ← read_add, ← hsplit]

end Copies

theorem smbContinueRead_spec (hc : content f = some c) (rounds : Nat) : ∀ {s : SmbPages F n} {newOffset rest pos : Nat} {buf : Nat → UInt8},
    s.Hold content → 0 < rest → smbRounds f s newOffset rest ≤ rounds → SmbCopies w f c content rounds newOffset rest pos buf s := by
  induction rounds with
  | zero =>
    intro s newOffset rest pos buf _ hrest hrounds
    unfold smbRounds at hrounds
    split at hrounds <;> omega
  | succ rounds ih =>
    intro s newOffset rest pos buf h hrest hrounds
    unfold smbRounds at hrounds
    cases hi : smbPageAt f s newOffset with
    | none =>
      refine SmbCopies.miss h hc hi fun hok => ih (smbFill_spec h hc newOffset).1 hrest ?_
      unfold smbRounds
      rw [if_pos ((smbFill_spec h hc newOffset).2 hok)]
      rw [hi, if_neg (by simp)] at hrounds
      omega
    | some i =>
      obtain ⟨-, hle, hlt⟩ := smbPageAt_some hi
      rw [hi, Option.isSome_some, if_pos rfl] at hrounds
      refine SmbCopies.hit h hc hi rfl fun hmore => ih (h.used i) (Nat.pos_of_ne_zero hmore) ?_
      unfold smbRounds
      omega

theorem smbContinueRead_copies (h : s.Hold content) (hc : content f = some c) {rest : Nat} (hrest : 0 < rest) (newOffset pos : Nat)
    (buf : Nat → UInt8) : SmbCopies w f c content (2 * rest) newOffset rest pos buf s :=
  smbContinueRead_spec hc (2 * rest) h hrest (Nat.sub_le ..)

/-- A file that is cleared is on no page; the other files are where they were. -/
theorem clearSMBFileCache_file {i : Fin (n + 1)} {g : F} (h : ((clearSMBFileCache f s).page i).file = some g) :
    g ≠ f ∧ (clearSMBFileCache f s).page i = s.page i := by
  unfold clearSMBFileCache at h ⊢
  dsimp only at h ⊢
  split at h
  · cases h
  · rename_i hne
    refine ⟨?_, if_neg hne⟩
    rintro rfl
    exact hne h

theorem SmbPages.Hold.clear (h : s.Hold content) (content' : F → Option SmbContent) (hsame : ∀ g, g ≠ f → content' g = content g) :
    (clearSMBFileCache f s).Hold content' := by
  intro i g hg
  obtain ⟨hne, heq⟩ := clearSMBFileCache_file hg
  rw [heq] at hg ⊢
  rw [hsame g hne]
  exact h i g hg

end Pages

end Libogc
