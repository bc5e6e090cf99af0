import Libogc.Smb.SmbPages
/-!
# SmbReads — reading open files through the pages

`__smb_read` asks for what is before the end of the file only, block by block, and tries twice more after a failure, with the pages of the
file cleared and the file opened again.  Files are opened, read, sought in and closed in any order; what the server has of an open file does
not change.
-/
namespace Libogc

open Bytes Runs

/-- An open file. -/
structure SmbOpened where
  content : SmbContent
  offset : Nat

structure SmbReader (F : Type) (n : Nat) where
  pages : SmbPages F n
  file : F → Option SmbOpened

inductive SmbErrno where
  | eoverflow
  | enoent
  | eio
  deriving DecidableEq, Repr

/-- The variables of `__smb_read`, with the offset of the file. -/
structure SmbReading (F : Type) (n : Nat) where
  pages : SmbPages F n
  buf : Nat → UInt8
  offset : Nat
  done : Nat

variable {F : Type} [DecidableEq F] {n : Nat}

section Calls
variable (w : SmbWorld) (f : F) (c : SmbContent) (len : Nat)

/-- The loop of `retry_read`: it goes to the end, or to a block that fails. -/
def smbReadBlocks : Nat → SmbReading F n → Option (SmbReading F n × Bool)
  | 0, r => if len ≤ r.done then some (r, true) else none
  | fuel + 1, r =>
    if len ≤ r.done then some (r, true)
    else
      let readsize := min (len - r.done) SMB_READ_BUFFERSIZE
      match readSMBFromCache w f c (2 * readsize) r.offset readsize r.done r.buf r.pages with
      | none => none
      | some (pages, buf, ret) =>
        if ret < 0 then some ({ r with pages := pages, buf := buf }, false)
        else smbReadBlocks fuel ⟨pages, buf, r.offset + readsize, r.done + readsize⟩

omit [DecidableEq F] in
/-- The connection was tried once more. -/
def SmbReading.tried (r : SmbReading F n) : SmbReading F n := { r with pages := { r.pages with tries := r.pages.tries + 1 } }

/-- `retry_reconnect`, with `cntRetry` left. -/
def smbRetryRead : Nat → SmbReading F n → Option (SmbReading F n × Except SmbErrno Nat)
  | 0, r => some (r, .error .eio)
  | cntRetry + 1, r =>
    if w.reach r.pages.tries then
      let opens := w.opens r.pages.tries
      let r := { r.tried with pages := clearSMBFileCache f r.tried.pages }
      if !opens then some (r, .error .enoent)
      else
        match smbReadBlocks w f c len len r with
        | none => none
        | some (r, true) => some (r, .ok len)
        | some (r, false) => smbRetryRead cntRetry r
    else smbRetryRead cntRetry r.tried

/-- `__smb_read`: what it returns, and whether the end of the file came before the end of the buffer. -/
def smbReadBytes (file : SmbOpened) (buf : Nat → UInt8) (pages : SmbPages F n) :
    Option (SmbReading F n × Except SmbErrno Nat × Option SmbErrno) :=
  if len = 0 then some (⟨pages, buf, file.offset, 0⟩, .ok 0, none)
  else if file.content.len ≤ file.offset then some (⟨pages, buf, file.offset, 0⟩, .ok 0, some .eoverflow)
  else
    let overflow := if file.content.len < len + file.offset then some SmbErrno.eoverflow else none
    let len := min len (file.content.len - file.offset)
    match smbReadBlocks w f file.content len len ⟨pages, buf, file.offset, 0⟩ with
    | none => none
    | some (r, true) => some (r, .ok len, overflow)
    | some (r, false) => (smbRetryRead w f file.content len 2 r).map fun ret => (ret.1, ret.2, overflow)

end Calls

/-! ## The system -/

inductive SmbReadEvent (F : Type) where
  | open (f : F) (file : SmbOpened)
  | read (f : F) (len : Nat) (buf : Nat → UInt8)
  | seek (f : F) (offset : Nat)
  | close (f : F)

def SmbReader.setOffset (s : SmbReader F n) (f : F) (offset : Nat) : SmbReader F n :=
  { s with file := Function.update s.file f ((s.file f).map fun file => { file with offset := offset }) }

def smbReadNext (w : SmbWorld) (s : SmbReader F n) : SmbReadEvent F → SmbReader F n
  | .open f file => { s with file := Function.update s.file f (some file) }
  | .read f len buf =>
    match s.file f with
    | none => s
    | some file =>
      match smbReadBytes w f len file buf s.pages with
      | none => s
      | some (r, _) => { s with pages := r.pages }.setOffset f r.offset
  | .seek f offset => s.setOffset f offset
  | .close f => ⟨clearSMBFileCache f s.pages, Function.update s.file f none⟩

def smbReadEnabled (s : SmbReader F n) : SmbReadEvent F → Bool
  | .open f _ => (s.file f).isNone
  | .read f _ _ | .seek f _ | .close f => (s.file f).isSome

def smbReadSystem (w : SmbWorld) : System (SmbReader F n) (SmbReadEvent F) where
  enabled s e := smbReadEnabled s e = true
  next := smbReadNext w

instance (w : SmbWorld) (s : SmbReader F n) (e : SmbReadEvent F) : Decidable ((smbReadSystem w).enabled s e) :=
  inferInstanceAs (Decidable (_ = _))

omit [DecidableEq F] in
/-- Open files, and nothing in the pages. -/
def smbReadStart (file : F → Option SmbOpened) : SmbReader F n where
  pages := ⟨fun _ => ⟨0, 0, none, fun _ => 0⟩, 0, 0, 0⟩
  file := file

/-! ## A read -/

section Reads
variable {w : SmbWorld} {f : F} {c : SmbContent} {content : F → Option SmbContent} {len o : Nat} {buf₀ : Nat → UInt8}

omit [DecidableEq F] in
/-- Where a read from the offset `o` is: what is done is right, and nothing stands behind the end of the buffer that was not there. -/
structure SmbReadingAt (c : SmbContent) (content : F → Option SmbContent) (len o : Nat) (buf₀ : Nat → UInt8) (r : SmbReading F n) : Prop where
  hold : r.pages.Hold content
  offset : r.offset = o + r.done
  done : r.done ≤ len
  right : read r.buf 0 r.done = read c.bytes o r.done
  frame : ∀ k, len ≤ k → r.buf k = buf₀ k

theorem smbReadBlocks_spec (hc : content f = some c) (hlen : o + len ≤ c.len) (fuel : Nat) : ∀ {r : SmbReading F n},
    SmbReadingAt c content len o buf₀ r → len ≤ r.done + fuel →
    ∃ r' ok, smbReadBlocks w f c len fuel r = some (r', ok) ∧ SmbReadingAt c content len o buf₀ r' ∧ (ok = true → r'.done = len) := by
  induction fuel with
  | zero =>
    intro r h hfuel
    refine ⟨r, true, ?_, h, fun _ => Nat.le_antisymm h.done hfuel⟩
    rw [smbReadBlocks]
    exact if_pos hfuel
  | succ fuel ih =>
    intro r h hfuel
    rw [smbReadBlocks]
    by_cases hend : len ≤ r.done
    · refine ⟨r, true, ?_, h, fun _ => Nat.le_antisymm h.done hend⟩
      rw [if_pos hend]
    · rw [if_neg hend]
      dsimp only
      generalize hsize : min (len - r.done) SMB_READ_BUFFERSIZE = readsize
      have hpos : 0 < readsize := by
        have hbuffer : 0 < SMB_READ_BUFFERSIZE := by decide
        omega
      obtain ⟨pages, buf, ret, hrun, hhold, hframe, hret⟩ := smbContinueRead_copies (w := w) h.hold hc hpos r.offset r.done r.buf
      have hcall : readSMBFromCache w f c (2 * readsize) r.offset readsize r.done r.buf r.pages = some (pages, buf, ret) := by
        unfold readSMBFromCache
        rw [if_neg (Nat.pos_iff_ne_zero.1 hpos)]
        exact hrun _ (Nat.le_refl _)
      have hbefore : ∀ k, len ≤ k → buf k = buf₀ k := by
        intro k hk
        rw [hframe k (.inr (by omega))]
        exact h.frame k hk
      rw [hcall]
      dsimp only
      rcases hret with rfl | ⟨rfl, hright⟩
      · rw [if_pos (by decide)]
        refine ⟨_, false, rfl, ⟨hhold, h.offset, h.done, ?_, hbefore⟩, fun h => nomatch h⟩
        rw [← h.right]
        apply read_congr
        intro k (hk : k < r.done)
        exact hframe _ (.inl (by omega))
      · rw [if_neg (by decide)]
        refine ih ⟨hhold, ?_, ?_, ?_, hbefore⟩ ?_
        · rw [h.offset, Nat.add_assoc]
        · dsimp only
          omega
        · have hoffset := h.offset
          have happend := read_write_append r.buf r.done (read c.bytes r.offset readsize)
          rw [read_length, ← hright (by omega), h.right, hoffset, ← read_add] at happend
          exact happend
        · dsimp only
          omega

/-- What `__smb_read` brings about: the bytes of the file and its offset behind them, or a failure. -/
structure SmbReadDone (c : SmbContent) (content : F → Option SmbContent) (len o : Nat) (buf₀ : Nat → UInt8) (r : SmbReading F n)
    (ret : Except SmbErrno Nat) : Prop where
  here : SmbReadingAt c content len o buf₀ r
  all : ∀ k, ret = .ok k → k = len ∧ r.done = len

theorem smbRetryRead_spec (hc : content f = some c) (hlen : o + len ≤ c.len) (cntRetry : Nat) : ∀ {r : SmbReading F n},
    SmbReadingAt c content len o buf₀ r →
    ∃ r' ret, smbRetryRead w f c len cntRetry r = some (r', ret) ∧ SmbReadDone c content len o buf₀ r' ret := by
  induction cntRetry with
  | zero => exact fun h => ⟨_, _, rfl, h, fun k hk => nomatch hk⟩
  | succ cntRetry ih =>
    intro r h
    have htried : SmbReadingAt c content len o buf₀ r.tried := ⟨h.hold, h.offset, h.done, h.right, h.frame⟩
    rw [smbRetryRead]
    split
    · have hclear : SmbReadingAt c content len o buf₀ { r.tried with pages := clearSMBFileCache f r.tried.pages } :=
        ⟨htried.hold.clear content fun _ _ => rfl, h.offset, h.done, h.right, h.frame⟩
      dsimp only
      split
      · exact ⟨_, _, rfl, hclear, fun k hk => nomatch hk⟩
      · obtain ⟨r', ok, hrun, hat, hdone⟩ := smbReadBlocks_spec (w := w) hc hlen len hclear (Nat.le_add_left ..)
        rw [hrun]
        cases ok with
        | false => exact ih hat
        | true => exact ⟨r', .ok len, rfl, hat, fun k hk => ⟨(Except.ok.inj hk).symm, hdone rfl⟩⟩
    · exact ih htried

/-- **A read** comes to an end; what it returns is what there is up to the end of the file, or a failure. -/
theorem smbReadBytes_spec {file : SmbOpened} {pages : SmbPages F n} (h : pages.Hold content) (hc : content f = some file.content)
    (len : Nat) (buf : Nat → UInt8) :
    ∃ r ret errno, smbReadBytes w f len file buf pages = some (r, ret, errno) ∧
      SmbReadDone file.content content (min len (file.content.len - file.offset)) file.offset buf r ret := by
  have hstart : SmbReadingAt file.content content (min len (file.content.len - file.offset)) file.offset buf ⟨pages, buf, file.offset, 0⟩ :=
    ⟨h, rfl, Nat.zero_le _, rfl, fun _ _ => rfl⟩
  have hnone : min len (file.content.len - file.offset) = 0 →
      SmbReadDone file.content content (min len (file.content.len - file.offset)) file.offset buf ⟨pages, buf, file.offset, 0⟩ (.ok 0) :=
    fun hzero => ⟨hstart, fun k hk => ⟨(Except.ok.inj hk).symm.trans hzero.symm, hzero.symm⟩⟩
  unfold smbReadBytes
  split
  · exact ⟨_, _, _, rfl, hnone (by omega)⟩
  · split
    · exact ⟨_, _, _, rfl, hnone (by omega)⟩
    · dsimp only
      have hlen : file.offset + min len (file.content.len - file.offset) ≤ file.content.len := by omega
      obtain ⟨r, ok, hrun, hat, hdone⟩ := smbReadBlocks_spec (w := w) hc hlen _ hstart (Nat.le_add_left ..)
      rw [hrun]
      cases ok with
      | true => exact ⟨r, _, _, rfl, hat, fun k hk => ⟨(Except.ok.inj hk).symm, hdone rfl⟩⟩
      | false =>
        obtain ⟨r', ret, hretry, hread⟩ := smbRetryRead_spec (w := w) hc hlen 2 hat
        dsimp only
        rw [hretry]
        exact ⟨r', ret, _, rfl, hread⟩

end Reads

/-! ## The runs -/

section Runs
variable {w : SmbWorld} {s : SmbReader F n} {f : F} {file : SmbOpened}

def SmbReader.content (s : SmbReader F n) (f : F) : Option SmbContent := (s.file f).map SmbOpened.content

theorem SmbReader.setOffset_content (s : SmbReader F n) (f : F) (offset : Nat) : (s.setOffset f offset).content = s.content := by
  funext g
  unfold SmbReader.content SmbReader.setOffset
  dsimp only
  by_cases hg : g = f
  · subst hg
    rw [Function.update_self, Option.map_map]
    rfl
  · rw [Function.update_of_ne hg]

/-- **The pages hold what the open files have.** -/
def SmbReader.Coherent (s : SmbReader F n) : Prop := s.pages.Hold s.content

omit [DecidableEq F] in
theorem SmbReader.content_of (hf : s.file f = some file) : s.content f = some file.content := by
  unfold SmbReader.content
  rw [hf]
  rfl

theorem SmbReader.content_update {g : F} (hg : g ≠ f) (pages : SmbPages F n) (now : Option SmbOpened) :
    SmbReader.content ⟨pages, Function.update s.file f now⟩ g = s.content g := by
  unfold SmbReader.content
  dsimp only
  rw [Function.update_of_ne hg]

theorem SmbReader.Coherent.step (h : s.Coherent) (e : SmbReadEvent F) (he : (smbReadSystem w).enabled s e) :
    ((smbReadSystem w).next s e).Coherent := by
  show (smbReadNext w s e).Coherent
  have he : smbReadEnabled s e = true := he
  cases e with
  | «open» f file =>
    -- no page is the file's before it is opened
    have hnone : s.content f = none := by
      unfold SmbReader.content
      rw [Option.isNone_iff_eq_none.1 he]
      rfl
    intro i g hg
    obtain ⟨c, hc, hshows⟩ := h i g hg
    refine ⟨c, ?_, hshows⟩
    rw [smbReadNext, SmbReader.content_update]
    · exact hc
    · rintro rfl
      rw [hnone] at hc
      cases hc
  | read f len buf =>
    obtain ⟨file, hf⟩ := Option.isSome_iff_exists.1 he
    obtain ⟨r, ret, errno, hrun, hread⟩ := smbReadBytes_spec (w := w) h (SmbReader.content_of hf) len buf
    rw [smbReadNext]
    simp only [hf, hrun]
    unfold SmbReader.Coherent
    rw [SmbReader.setOffset_content]
    exact hread.here.hold
  | seek f offset =>
    rw [smbReadNext]
    unfold SmbReader.Coherent
    rw [SmbReader.setOffset_content]
    exact h
  | close f => exact SmbPages.Hold.clear h _ fun g hg => SmbReader.content_update hg _ _

omit [DecidableEq F] in
theorem smbReadStart_coherent (opened : F → Option SmbOpened) : (smbReadStart opened : SmbReader F n).Coherent :=
  fun _ _ hg => nomatch hg

theorem SmbReader.Coherent.run (opened : F → Option SmbOpened) {es : List (SmbReadEvent F)}
    (hl : (smbReadSystem w).Legal (smbReadStart opened : SmbReader F n) es) : ((smbReadSystem w).run (smbReadStart opened : SmbReader F n) es).Coherent :=
  System.Legal.invariant (fun _ e h he => h.step e he) (smbReadStart_coherent opened) hl

/-- **Reading through the pages**: after any calls, `ReadSMBFromCache` comes to an end, writes only where it should, and returns 0 only with
the bytes of the file in the buffer. -/
theorem smb_read_ahead (w : SmbWorld) (opened : F → Option SmbOpened) {es : List (SmbReadEvent F)}
    (hl : (smbReadSystem w).Legal (smbReadStart opened : SmbReader F n) es)
    (hs : (smbReadSystem w).run (smbReadStart opened) es = s) (hf : s.file f = some file) {len : Nat}
    (hlen : file.offset + len ≤ file.content.len) (pos : Nat) (buf : Nat → UInt8) :
    ∃ pages buf' ret,
      (∀ fuel, 2 * len ≤ fuel → readSMBFromCache w f file.content fuel file.offset len pos buf s.pages = some (pages, buf', ret)) ∧
      (∀ k, k < pos ∨ pos + len ≤ k → buf' k = buf k) ∧
      (ret = 0 → read buf' pos len = read file.content.bytes file.offset len) := by
  have h : s.Coherent := hs ▸ SmbReader.Coherent.run opened hl
  unfold readSMBFromCache
  by_cases hzero : len = 0
  · subst hzero
    exact ⟨s.pages, buf, 0, fun _ _ => if_pos rfl, fun _ _ => rfl, fun _ => rfl⟩
  · simp only [if_neg hzero]
    obtain ⟨pages, buf', ret, hrun, -, hframe, hright⟩ :=
      smbContinueRead_copies (w := w) h (SmbReader.content_of hf) (Nat.pos_of_ne_zero hzero) file.offset pos buf
    refine ⟨pages, buf', ret, hrun, hframe, fun hret => ?_⟩
    rcases hright with hneg | ⟨-, hright⟩
    · rw [hret] at hneg
      cases hneg
    · have hread := read_write buf pos (read file.content.bytes file.offset len)
      rwa [read_length, ← hright hlen] at hread

/-- The server gives a byte or two more each time, and fails when it is asked for the fourth time. -/
def smbReadSampleWorld : SmbWorld where
  clock n := n
  answer n := if n = 3 then .fails [9] else .reads (n + 1)
  reach _ := false
  opens _ := false

/-- A file of five bytes and one of three. -/
def smbReadSampleFile (f : Bool) : SmbOpened := ⟨⟨fun k => if f then 10 + UInt8.ofNat k else 20, if f then 5 else 3⟩, 0⟩

def smbReadSampleCalls : List (SmbReadEvent Bool) := [.read true 1 fun _ => 0, .read false 3 fun _ => 0]

/-- The one page is lost to a read of the other file, which fails. -/
theorem smb_read_ahead_sample : ∃ pages buf' ret,
    (∀ fuel, 2 * 3 ≤ fuel → readSMBFromCache smbReadSampleWorld true (smbReadSampleFile true).content fuel 1 3 0 (fun _ => 0)
      ((smbReadSystem smbReadSampleWorld).run (smbReadStart (n := 0) (some ∘ smbReadSampleFile)) smbReadSampleCalls).pages =
        some (pages, buf', ret)) ∧
    (∀ k, k < 0 ∨ 0 + 3 ≤ k → buf' k = 0) ∧ (ret = 0 → read buf' 0 3 = [11, 12, 13]) := by
  have hl : (smbReadSystem smbReadSampleWorld).Legal (smbReadStart (n := 0) (some ∘ smbReadSampleFile)) smbReadSampleCalls := by decide
  have hf : ((smbReadSystem smbReadSampleWorld).run (smbReadStart (n := 0) (some ∘ smbReadSampleFile)) smbReadSampleCalls).file true =
      some ⟨(smbReadSampleFile true).content, 1⟩ := rfl
  exact smb_read_ahead smbReadSampleWorld _ hl rfl hf (by decide) 0 fun _ => 0

end Runs

end Libogc
