import Libogc.Lib.Files
import Libogc.Smb.SmbCaches
import Libogc.Smb.SmbReads
/-!
# SmbReadWrite — a file that is read and written

One file is open, with the pages of what was read ahead and the block of what is not written yet.  Where the bytes of the block belong is
known only by the offset of the file, which is the offset before them.  The server carries out every request in full, and the cache thread
flushes at any time.

A page is not told of what is written to where it was read: `smb_read_your_writes` is about the runs in which nothing is.
-/
namespace Libogc

open Bytes Files Runs

/-- The file, its pages and its block; `owned` says that it is the file of the block.  `got` is what was read so far. -/
structure SmbReadWrite (n : Nat) where
  server : Nat → UInt8
  offset : Nat
  len : Nat
  owned : Bool
  block : List UInt8
  pages : SmbPages Unit n
  got : List (List UInt8)

inductive SmbRwEvent where
  | call (c : Call)
  | flush
  deriving DecidableEq, Repr

/-- A server that carries out every read in full. -/
def smbFull (clock : Nat → Nat) : SmbWorld where
  clock := clock
  answer _ := .reads SMB_READ_BUFFERSIZE
  reach _ := true
  opens _ := true

namespace SmbReadWrite
variable {n : Nat} (w : SmbWorld) (s : SmbReadWrite n)

/-- `SMB_WriteFile` at the offset of the file, which goes on behind what is written. -/
def send (xs : List UInt8) : SmbReadWrite n :=
  { s with server := write s.server s.offset xs, offset := s.offset + xs.length, len := max s.len (s.offset + xs.length) }

/-- `FlushWriteSMBCache`: one request takes the whole block. -/
def flushWriteSMBCache : SmbReadWrite n :=
  if s.owned = false ∨ s.block = [] then s else { s.send s.block with block := [], owned := false }

/-- A call begins with a flush of what the file has in the block. -/
def flushOwn : SmbReadWrite n := if s.owned then s.flushWriteSMBCache else s

/-- The loop of `WriteSMBUsingCache`; each round takes a byte at least. -/
def writeLoop : Nat → List UInt8 → SmbReadWrite n → SmbReadWrite n
  | 0, _, s => s
  | fuel + 1, buf, s =>
    if buf = [] then s
    else if SMB_WRITE_BUFFERSIZE ≤ s.block.length + buf.length then
      let rest := SMB_WRITE_BUFFERSIZE - s.block.length
      writeLoop fuel (buf.drop rest) { s.send (s.block ++ buf.take rest) with block := [] }
    else { s with block := s.block ++ buf }

/-- `WriteSMBUsingCache`, when the block is the file's or nobody's. -/
def writeSMBUsingCache (buf : List UInt8) : SmbReadWrite n :=
  writeLoop buf.length buf (if s.owned then s else { s with owned := true, block := [] })

/-- `__smb_write` -/
def smbWrite (buf : List UInt8) : SmbReadWrite n :=
  if s.len < s.offset then s
  else if buf = [] then s
  else s.writeSMBUsingCache buf

/-- `__smb_read`, and the bytes that it leaves in the buffer. -/
def smbRead (len : Nat) : SmbReadWrite n × List UInt8 :=
  if len = 0 then (s, [])
  else
    let s := s.flushOwn
    match smbReadBytes w () len ⟨⟨s.server, s.len⟩, s.offset⟩ (fun _ => 0) s.pages with
    | some (r, .ok k, _) => ({ s with pages := r.pages, offset := r.offset }, read r.buf 0 k)
    | some (r, .error _, _) => ({ s with pages := r.pages, offset := r.offset }, [])
    | none => (s, [])

/-- The switch of `__smb_seek`. -/
def position (pos : Int) : Whence → Option Int
  | .set => some pos
  | .cur => some (s.offset + pos)
  | .end => some (s.len + pos)
  | .other => none

/-- `__smb_seek` -/
def smbSeek (pos : Int) (dir : Whence) : SmbReadWrite n :=
  let s := s.flushOwn
  match s.position pos dir with
  | none => s
  | some position => if position < 0 then s else { s with offset := position.toNat }

def next : SmbRwEvent → SmbReadWrite n
  | .call (.read len) => { (s.smbRead w len).1 with got := s.got ++ [(s.smbRead w len).2] }
  | .call (.write buf) => s.smbWrite buf
  | .call (.seek dir pos) => s.smbSeek pos dir
  | .flush => s.flushWriteSMBCache

end SmbReadWrite

def smbRwSystem (n : Nat) (w : SmbWorld) : System (SmbReadWrite n) SmbRwEvent where
  enabled _ _ := True
  next := SmbReadWrite.next w

instance (n : Nat) (w : SmbWorld) (s : SmbReadWrite n) (e : SmbRwEvent) : Decidable ((smbRwSystem n w).enabled s e) :=
  inferInstanceAs (Decidable True)

/-- A file that was just opened, to append to it or not. -/
def smbRwStart (n : Nat) (server : Nat → UInt8) (len : Nat) (append : Bool) : SmbReadWrite n where
  server := server
  offset := if append then len else 0
  len := len
  owned := false
  block := []
  pages := ⟨fun _ => ⟨0, 0, none, fun _ => 0⟩, 0, 0, 0⟩
  got := []

def plainNext (p : PlainFile) : SmbRwEvent → PlainFile
  | .call c => (p.call c).1
  | .flush => p

/-- What a plain file gives to a read. -/
def plainGot (p : PlainFile) : SmbRwEvent → List (List UInt8)
  | .call (.read n) => [(p.call (.read n)).2]
  | _ => []

def plainReads : PlainFile → List SmbRwEvent → List (List UInt8)
  | _, [] => []
  | p, e :: es => plainGot p e ++ plainReads (plainNext p e) es

namespace SmbReadWrite
variable {n : Nat} (s : SmbReadWrite n)

/-- How many bytes an event sends to the server. -/
def sent : SmbRwEvent → Nat
  | .call (.read len) => if len = 0 then 0 else s.block.length
  | .call (.write buf) => if s.len < s.offset then 0 else (s.block.length + buf.length) / SMB_WRITE_BUFFERSIZE * SMB_WRITE_BUFFERSIZE
  | .call (.seek ..) | .flush => s.block.length

/-- The next `m` bytes of the file are on no page. -/
def Clear (m : Nat) : Prop :=
  ∀ k < m, ∀ i, (s.pages.page i).file = some () →
    ¬ ((s.pages.page i).offset ≤ s.offset + k ∧ s.offset + k < (s.pages.page i).offset + SMB_READ_BUFFERSIZE)

instance (m : Nat) : Decidable (s.Clear m) := inferInstanceAs (Decidable (∀ k < m, _))

/-- **No page is written to**: what an event sends to the server is on no page of the file. -/
def Apart (e : SmbRwEvent) : Prop := s.Clear (s.sent e)

instance (e : SmbRwEvent) : Decidable (s.Apart e) := inferInstanceAs (Decidable (s.Clear _))

end SmbReadWrite

/-! ## A server that does not fail -/

section Full
variable {F : Type} [DecidableEq F] {n : Nat} {clock : Nat → Nat} {f : F} {c : SmbContent}

theorem smbFillLoop_full (cacheOffset cacheToRead fuel : Nat) : ∀ done asked ptr,
    (smbFillLoop (smbFull clock) c cacheOffset cacheToRead fuel done asked ptr).2.2 = true := by
  induction fuel with
  | zero => exact fun _ _ _ => rfl
  | succ fuel ih =>
    intro done asked ptr
    rw [smbFillLoop]
    split
    · rfl
    · exact ih _ _ _

theorem smbFill_full (cacheOffset : Nat) (s : SmbPages F n) : (smbFill (smbFull clock) f c cacheOffset s).2 = true := by
  unfold smbFill
  dsimp only
  generalize min (c.len - cacheOffset) SMB_READ_BUFFERSIZE = m
  have hloop : (smbFillLoop (smbFull clock) c cacheOffset m m 0 s.asked (s.page (smbLeastUsed s)).ptr).2.2 = true :=
    smbFillLoop_full cacheOffset m m 0 s.asked _
  generalize smbFillLoop (smbFull clock) c cacheOffset m m 0 s.asked (s.page (smbLeastUsed s)).ptr = res at hloop
  obtain ⟨ptr, asked, ok⟩ := res
  cases ok with
  | false => cases hloop
  | true => rfl

theorem smbContinueRead_full (fuel : Nat) : ∀ {newOffset rest pos : Nat} {buf : Nat → UInt8} {s : SmbPages F n}
    {res : SmbPages F n × (Nat → UInt8) × Int}, smbContinueRead (smbFull clock) f c fuel newOffset rest pos buf s = some res → res.2.2 = 0 := by
  induction fuel with
  | zero => exact fun h => by cases h
  | succ fuel ih =>
    intro newOffset rest pos buf s res h
    rw [smbContinueRead] at h
    cases hi : smbPageAt f s newOffset with
    | none =>
      rw [hi] at h
      have hfill : (smbFill (smbFull clock) f c newOffset s).2 = true := smbFill_full newOffset s
      cases hres : smbFill (smbFull clock) f c newOffset s with
      | mk s' ok =>
        rw [hres] at hfill
        obtain rfl : ok = true := hfill
        simp only [hres] at h
        exact ih h
    | some i =>
      rw [hi] at h
      dsimp only at h
      split at h
      · obtain rfl := Option.some.inj h
        rfl
      · exact ih h

theorem smbReadBlocks_full {len : Nat} (fuel : Nat) : ∀ {r r' : SmbReading F n} {ok : Bool},
    smbReadBlocks (smbFull clock) f c len fuel r = some (r', ok) → ok = true := by
  induction fuel with
  | zero =>
    intro r r' ok h
    rw [smbReadBlocks] at h
    split at h
    · cases h
      rfl
    · cases h
  | succ fuel ih =>
    intro r r' ok h
    rw [smbReadBlocks] at h
    split at h
    · cases h
      rfl
    · dsimp only at h
      cases hcall : readSMBFromCache (smbFull clock) f c (2 * min (len - r.done) SMB_READ_BUFFERSIZE) r.offset
          (min (len - r.done) SMB_READ_BUFFERSIZE) r.done r.buf r.pages with
      | none =>
        rw [hcall] at h
        cases h
      | some res =>
        obtain ⟨pages, buf, ret⟩ := res
        have hret : ret = 0 := by
          unfold readSMBFromCache at hcall
          split at hcall
          · cases hcall
            rfl
          · exact smbContinueRead_full _ hcall
        rw [hcall, hret] at h
        exact ih h

theorem smbReadBytes_full {len : Nat} {file : SmbOpened} {buf : Nat → UInt8} {pages : SmbPages F n} {r : SmbReading F n}
    {ret : Except SmbErrno Nat} {errno : Option SmbErrno}
    (h : smbReadBytes (smbFull clock) f len file buf pages = some (r, ret, errno)) : ∃ k, ret = .ok k := by
  unfold smbReadBytes at h
  split at h
  · cases h
    exact ⟨0, rfl⟩
  · split at h
    · cases h
      exact ⟨0, rfl⟩
    · dsimp only at h
      cases hblocks : smbReadBlocks (smbFull clock) f file.content (min len (file.content.len - file.offset))
          (min len (file.content.len - file.offset)) ⟨pages, buf, file.offset, 0⟩ with
      | none =>
        rw [hblocks] at h
        cases h
      | some res =>
        obtain ⟨r', ok⟩ := res
        obtain rfl := smbReadBlocks_full _ hblocks
        rw [hblocks] at h
        cases h
        exact ⟨_, rfl⟩

end Full

namespace SmbReadWrite
variable {n : Nat} {s : SmbReadWrite n} {p : PlainFile}

/-! ## What the file is -/

/-- The file as the server has it, at its offset. -/
def disk (s : SmbReadWrite n) : PlainFile := ⟨s.server, s.len, s.offset⟩

/-- The file with what is in the block. -/
def view (s : SmbReadWrite n) : PlainFile := if s.block = [] then s.disk else s.disk.write s.block

def content (s : SmbReadWrite n) : Unit → Option SmbContent := fun _ => some ⟨s.server, s.len⟩

/-- **The caches are faithful** to a plain file: with the block it is the file, and the pages hold what the server has. -/
structure Faithful (s : SmbReadWrite n) (p : PlainFile) : Prop where
  file : s.view = p
  hold : s.pages.Hold s.content
  inside : s.block ≠ [] → s.offset ≤ s.len
  owned : s.owned = false → s.block = []
  short : s.block.length < SMB_WRITE_BUFFERSIZE

theorem view_eq (h : s.offset ≤ s.len) : s.view = s.disk.write s.block := by
  unfold view
  split
  · rename_i hnil
    rw [hnil]
    exact (PlainFile.write_nil h).symm
  · rfl

theorem hold_send {xs : List UInt8} (h : s.pages.Hold s.content) (ho : s.offset ≤ s.len) (hclear : s.Clear xs.length) :
    s.pages.Hold (s.send xs).content := by
  intro i f hf
  obtain ⟨c, hc, hshows⟩ := h i f hf
  obtain rfl := Option.some.inj hc
  refine ⟨_, rfl, fun k hk hlen => ?_⟩
  have hout : (s.pages.page i).offset + k < s.offset ∨ s.offset + xs.length ≤ (s.pages.page i).offset + k := by
    by_contra hin
    refine hclear ((s.pages.page i).offset + k - s.offset) (by omega) i hf ?_
    rw [Nat.add_sub_cancel' (by omega)]
    exact ⟨Nat.le_add_right _ k, Nat.add_lt_add_left hk _⟩
  have hold : (s.pages.page i).offset + k < s.len := by
    have hlen : (s.pages.page i).offset + k < max s.len (s.offset + xs.length) := hlen
    omega
  exact (hshows k hk hold).trans (write_outside hout).symm

theorem Faithful.send (h : Faithful s p) (ho : s.offset ≤ s.len) {xs : List UInt8} (hclear : s.Clear (s.block ++ xs).length) :
    Faithful { s.send (s.block ++ xs) with block := [] } (p.write xs) where
  file := by
    have hview : ({ s.send (s.block ++ xs) with block := [] } : SmbReadWrite n).view = s.disk.write (s.block ++ xs) := rfl
    rw [hview, ← PlainFile.write_append, ← view_eq ho, h.file]
  hold := hold_send h.hold ho hclear
  inside hne := absurd rfl hne
  owned _ := rfl
  short := (by decide : 0 < SMB_WRITE_BUFFERSIZE)

/-! ## Writing -/

theorem Faithful.flush (h : Faithful s p) (hclear : s.Clear s.block.length) :
    Faithful s.flushWriteSMBCache p ∧ s.flushWriteSMBCache.block = [] := by
  unfold flushWriteSMBCache
  split
  · rename_i hnone
    have hnil : s.block = [] := hnone.elim h.owned id
    exact ⟨h, hnil⟩
  · rename_i hsome
    have hne : s.block ≠ [] := fun hnil => hsome (.inr hnil)
    have ho := h.inside hne
    have hnone : s.Clear (s.block ++ []).length := by
      rw [List.append_nil]
      exact hclear
    have hsend := h.send ho hnone
    have hpos : p.pos ≤ p.size := by
      rw [← h.file, view_eq ho]
      exact Nat.le_max_right _ _
    rw [List.append_nil, PlainFile.write_nil hpos] at hsend
    exact ⟨⟨hsend.file, hsend.hold, hsend.inside, fun _ => rfl, hsend.short⟩, rfl⟩

theorem Faithful.flushOwn (h : Faithful s p) (hclear : s.Clear s.block.length) : Faithful s.flushOwn p ∧ s.flushOwn.block = [] := by
  unfold SmbReadWrite.flushOwn
  split
  · exact h.flush hclear
  · rename_i hno
    exact ⟨h, h.owned (Bool.not_eq_true _ ▸ hno)⟩

theorem Faithful.pos_le (h : Faithful s p) (ho : s.offset ≤ s.len) : p.pos ≤ p.size := by
  rw [← h.file, view_eq ho]
  exact Nat.le_max_right _ _

theorem Clear.mono {m m' : Nat} (h : s.Clear m) (hm : m' ≤ m) : s.Clear m' := fun k hk => h k (Nat.lt_of_lt_of_le hk hm)

theorem Faithful.full {buf : List UInt8} (h : Faithful s p) (ho : s.offset ≤ s.len)
    (hfull : SMB_WRITE_BUFFERSIZE ≤ s.block.length + buf.length)
    (hclear : s.Clear ((s.block.length + buf.length) / SMB_WRITE_BUFFERSIZE * SMB_WRITE_BUFFERSIZE)) :
    Faithful { s.send (s.block ++ buf.take (SMB_WRITE_BUFFERSIZE - s.block.length)) with block := [] }
        (p.write (buf.take (SMB_WRITE_BUFFERSIZE - s.block.length))) ∧
      ({ s.send (s.block ++ buf.take (SMB_WRITE_BUFFERSIZE - s.block.length)) with block := [] } : SmbReadWrite n).Clear
        ((buf.drop (SMB_WRITE_BUFFERSIZE - s.block.length)).length / SMB_WRITE_BUFFERSIZE * SMB_WRITE_BUFFERSIZE) := by
  have hshort := h.short
  have hpos : 0 < SMB_WRITE_BUFFERSIZE := by decide
  have hlen : (s.block ++ buf.take (SMB_WRITE_BUFFERSIZE - s.block.length)).length = SMB_WRITE_BUFFERSIZE := by
    rw [List.length_append, List.length_take]
    omega
  have htotal : s.block.length + buf.length = (buf.drop (SMB_WRITE_BUFFERSIZE - s.block.length)).length + SMB_WRITE_BUFFERSIZE := by
    rw [List.length_drop]
    omega
  rw [htotal, Nat.add_div_right _ hpos, Nat.succ_mul] at hclear
  refine ⟨h.send ho ?_, fun k hk i hi => ?_⟩
  · rw [hlen]
    exact hclear.mono (Nat.le_add_left _ _)
  · have hon := hclear (SMB_WRITE_BUFFERSIZE + k) (by omega) i hi
    have hoffset : ({ s.send (s.block ++ buf.take (SMB_WRITE_BUFFERSIZE - s.block.length)) with block := [] } : SmbReadWrite n).offset =
        s.offset + SMB_WRITE_BUFFERSIZE := congrArg (s.offset + ·) hlen
    rw [hoffset, Nat.add_assoc]
    exact hon

theorem Faithful.writeLoop (fuel : Nat) : ∀ {s : SmbReadWrite n} {p : PlainFile} {buf : List UInt8}, Faithful s p → s.owned = true →
    s.offset ≤ s.len → buf.length ≤ fuel → s.Clear ((s.block.length + buf.length) / SMB_WRITE_BUFFERSIZE * SMB_WRITE_BUFFERSIZE) →
    Faithful (writeLoop fuel buf s) (p.write buf) := by
  induction fuel with
  | zero =>
    intro s p buf h _ ho hfuel _
    obtain rfl := List.length_eq_zero_iff.1 (Nat.le_zero.1 hfuel)
    rw [PlainFile.write_nil (h.pos_le ho)]
    exact h
  | succ fuel ih =>
    intro s p buf h hown ho hfuel hclear
    rw [SmbReadWrite.writeLoop]
    by_cases hnil : buf = []
    · rw [if_pos hnil, hnil, PlainFile.write_nil (h.pos_le ho)]
      exact h
    · rw [if_neg hnil]
      by_cases hfull : SMB_WRITE_BUFFERSIZE ≤ s.block.length + buf.length
      · rw [if_pos hfull]
        have hshort := h.short
        obtain ⟨hnext, hclear'⟩ := h.full ho hfull hclear
        have hsplit := p.write_append (buf.take (SMB_WRITE_BUFFERSIZE - s.block.length)) (buf.drop (SMB_WRITE_BUFFERSIZE - s.block.length))
        rw [List.take_append_drop] at hsplit
        rw [← hsplit]
        refine ih hnext hown (Nat.le_max_right _ _) ?_ ?_
        · rw [List.length_drop]
          omega
        · rw [List.length_nil, Nat.zero_add]
          exact hclear'
      · rw [if_neg hfull]
        refine ⟨?_, h.hold, fun _ => ho, fun hno => ?_, ?_⟩
        · have hview : ({ s with block := s.block ++ buf } : SmbReadWrite n).view = s.disk.write (s.block ++ buf) := view_eq ho
          rw [hview, ← PlainFile.write_append, ← view_eq ho, h.file]
        · rw [hown] at hno
          cases hno
        · rw [List.length_append]
          exact Nat.lt_of_not_le hfull

theorem Faithful.smbWrite {buf : List UInt8} (h : Faithful s p) (hclear : s.Apart (.call (.write buf))) :
    Faithful (s.smbWrite buf) (p.call (.write buf)).1 := by
  unfold SmbReadWrite.Apart sent at hclear
  unfold SmbReadWrite.smbWrite PlainFile.call
  dsimp only at hclear ⊢
  by_cases hbehind : s.len < s.offset
  · have hnil : s.block = [] := by
      by_contra hne
      exact absurd (h.inside hne) (Nat.not_le.2 hbehind)
    have hfile : p = s.disk := by
      rw [← h.file]
      exact if_pos hnil
    rw [if_pos hbehind, hfile, if_pos (show s.disk.size < s.disk.pos from hbehind), ← hfile]
    exact h
  · have ho := Nat.le_of_not_lt hbehind
    rw [if_neg hbehind] at hclear
    rw [if_neg hbehind, if_neg (Nat.not_lt.2 (h.pos_le ho))]
    split
    · rename_i hnil
      rw [hnil, PlainFile.write_nil (h.pos_le ho)]
      exact h
    · unfold writeSMBUsingCache
      cases hown : s.owned with
      | true => exact h.writeLoop _ hown ho (Nat.le_refl _) hclear
      | false =>
        have hnil := h.owned hown
        have htaken : Faithful { s with owned := true, block := [] } p := by
          refine ⟨?_, h.hold, fun hne => absurd rfl hne, fun _ => rfl, (by decide : 0 < SMB_WRITE_BUFFERSIZE)⟩
          rw [← h.file]
          unfold view
          rw [hnil]
          rfl
        rw [hnil] at hclear
        exact htaken.writeLoop _ rfl ho (Nat.le_refl _) hclear

/-! ## Reading and seeking -/

theorem Faithful.disk (h : Faithful s p) (hnil : s.block = []) : p = s.disk := by
  rw [← h.file]
  exact if_pos hnil

theorem Faithful.smbRead (clock : Nat → Nat) {len : Nat} (h : Faithful s p) (hclear : s.Apart (.call (.read len))) :
    Faithful (s.smbRead (smbFull clock) len).1 (p.call (.read len)).1 ∧ (s.smbRead (smbFull clock) len).2 = (p.call (.read len)).2 := by
  unfold SmbReadWrite.Apart sent at hclear
  unfold SmbReadWrite.smbRead PlainFile.call
  dsimp only at hclear ⊢
  by_cases hzero : len = 0
  · subst hzero
    have hnone : p.next 0 = [] := by
      unfold PlainFile.next
      rw [Nat.zero_min]
      rfl
    rw [if_pos rfl, hnone]
    exact ⟨h, rfl⟩
  · rw [if_neg hzero] at hclear ⊢
    obtain ⟨hown, hnil⟩ := h.flushOwn hclear
    generalize s.flushOwn = s₁ at hown hnil
    obtain rfl := hown.disk hnil
    have hfile : s₁.content () = some (SmbOpened.content ⟨⟨s₁.server, s₁.len⟩, s₁.offset⟩) := rfl
    obtain ⟨r, ret, errno, hrun, hread⟩ := smbReadBytes_spec (w := smbFull clock) hown.hold hfile len fun _ => 0
    obtain ⟨k, rfl⟩ := smbReadBytes_full hrun
    obtain ⟨hk, hdone⟩ := hread.all k rfl
    have hnext : read r.buf 0 k = s₁.disk.next len := by
      have hright := hread.here.right
      rw [hdone, ← hk] at hright
      rw [hright, hk]
      rfl
    have hlength : (s₁.disk.next len).length = k := by
      rw [← hnext, read_length]
    simp only [hrun]
    refine ⟨⟨?_, hread.here.hold, fun hne => absurd hnil hne, fun _ => hnil, hown.short⟩, hnext⟩
    have hview : ({ s₁ with pages := r.pages, offset := r.offset } : SmbReadWrite n).view = ⟨s₁.server, s₁.len, r.offset⟩ := if_pos hnil
    rw [hview, hread.here.offset, hdone, ← hk, hlength]
    rfl

theorem Faithful.smbSeek {dir : Whence} {pos : Int} (h : Faithful s p) (hclear : s.Apart (.call (.seek dir pos))) :
    Faithful (s.smbSeek pos dir) (p.call (.seek dir pos)).1 := by
  obtain ⟨hown, hnil⟩ := h.flushOwn hclear
  unfold SmbReadWrite.smbSeek PlainFile.call PlainFile.seek
  dsimp only
  generalize s.flushOwn = s₁ at hown hnil
  obtain rfl := hown.disk hnil
  have hmoved (o : Nat) : Faithful { s₁ with offset := o } { s₁.disk with pos := o } :=
    ⟨if_pos hnil, hown.hold, fun hne => absurd hnil hne, hown.owned, hown.short⟩
  have hplace : s₁.position pos dir = s₁.disk.place pos dir := by cases dir <;> rfl
  rw [hplace]
  cases s₁.disk.place pos dir with
  | none => exact hown
  | some position =>
    dsimp only
    split
    · exact hown
    · exact hmoved _

/-! ## The runs -/

theorem Faithful.start (server : Nat → UInt8) (len : Nat) (append : Bool) :
    Faithful (smbRwStart n server len append) ⟨server, len, if append then len else 0⟩ where
  file := rfl
  hold _ _ hf := by cases hf
  inside hne := absurd rfl hne
  owned _ := rfl
  short := (by decide : 0 < SMB_WRITE_BUFFERSIZE)

theorem flush_got (s : SmbReadWrite n) : s.flushWriteSMBCache.got = s.got := by
  unfold flushWriteSMBCache
  split <;> rfl

theorem flushOwn_got (s : SmbReadWrite n) : s.flushOwn.got = s.got := by
  unfold SmbReadWrite.flushOwn
  split
  · exact flush_got s
  · rfl

theorem writeLoop_got (fuel : Nat) : ∀ (buf : List UInt8) (s : SmbReadWrite n), (SmbReadWrite.writeLoop fuel buf s).got = s.got := by
  induction fuel with
  | zero => exact fun _ _ => rfl
  | succ fuel ih =>
    intro buf s
    rw [SmbReadWrite.writeLoop]
    split
    · rfl
    · split
      · exact ih _ _
      · rfl

theorem smbWrite_got (buf : List UInt8) (s : SmbReadWrite n) : (s.smbWrite buf).got = s.got := by
  unfold SmbReadWrite.smbWrite writeSMBUsingCache
  split
  · rfl
  · split
    · rfl
    · rw [writeLoop_got]
      split <;> rfl

theorem smbSeek_got (pos : Int) (dir : Whence) (s : SmbReadWrite n) : (s.smbSeek pos dir).got = s.got := by
  unfold SmbReadWrite.smbSeek
  dsimp only
  cases s.flushOwn.position pos dir with
  | none => exact flushOwn_got s
  | some position =>
    dsimp only
    split <;> exact flushOwn_got s

theorem Faithful.next (clock : Nat → Nat) {e : SmbRwEvent} (h : Faithful s p) (happart : s.Apart e) :
    Faithful (s.next (smbFull clock) e) (plainNext p e) ∧ (s.next (smbFull clock) e).got = s.got ++ plainGot p e := by
  cases e with
  | flush => exact ⟨(h.flush happart).1, (flush_got s).trans (List.append_nil _).symm⟩
  | call c =>
    cases c with
    | read len =>
      obtain ⟨hread, hbytes⟩ := h.smbRead clock happart
      exact ⟨⟨hread.file, hread.hold, hread.inside, hread.owned, hread.short⟩, congrArg (fun bytes => s.got ++ [bytes]) hbytes⟩
    | write buf => exact ⟨h.smbWrite happart, (smbWrite_got buf s).trans (List.append_nil _).symm⟩
    | seek dir pos => exact ⟨h.smbSeek happart, (smbSeek_got pos dir s).trans (List.append_nil _).symm⟩

theorem Faithful.run (clock : Nat → Nat) {es : List SmbRwEvent} : ∀ {s : SmbReadWrite n} {p : PlainFile}, Faithful s p →
    ((smbRwSystem n (smbFull clock)).restrict Apart).Legal s es →
    ((smbRwSystem n (smbFull clock)).run s es).got = s.got ++ plainReads p es := by
  induction es with
  | nil => exact fun _ _ => (List.append_nil _).symm
  | cons e es ih =>
    rintro s p h ⟨⟨-, happart⟩, hrest⟩
    obtain ⟨hnext, hgot⟩ := h.next clock happart
    have hrun := ih hnext hrest
    rw [hgot, List.append_assoc] at hrun
    exact hrun

end SmbReadWrite

end Libogc
