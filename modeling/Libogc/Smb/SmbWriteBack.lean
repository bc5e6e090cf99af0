import Libogc.Lib.Files
import Libogc.Smb.SmbCaches
/-!
# SmbWriteBack — the one write block of all files

The open files of a share write through one block.  Where its bytes belong is known only by the offset of the file that owns it, which is
the offset before them; whether a file owns it is told by its name.  The server fails a request, or writes some of its bytes; a flush goes
on with the rest, a full block does not.

`sent` and `accepted` are the bytes with their positions, in the order in which the server wrote them and `__smb_write` took them.
-/
namespace Libogc

open Files Runs

/-- What `SMB_WriteFile` does with a request. -/
inductive SmbWritten where
  | fails
  | writes (n : Nat)
  deriving DecidableEq, Repr

structure SmbWriteBack (F : Type) where
  file : F → SmbFileStruct
  opened : F → Bool
  owner : Option F
  block : List UInt8
  sent : F → List (Nat × UInt8)
  accepted : F → List (Nat × UInt8)

/-- The calls, each with what the server does with its requests: those of a flush, and those for blocks that are full.  A read says how far
it moves the offset. -/
inductive SmbBackEvent (F : Type) where
  | write (f : F) (buf : List UInt8) (flushed full : Nat → SmbWritten)
  | read (f : F) (len moved : Nat) (flushed : Nat → SmbWritten)
  | seek (f : F) (position : Option Nat) (flushed : Nat → SmbWritten)
  | close (f : F) (flushed : Nat → SmbWritten)
  | flush (flushed : Nat → SmbWritten)

variable {F : Type} [DecidableEq F]

namespace SmbWriteBack
variable (s : SmbWriteBack F) (f : F)

def setFile (file : SmbFileStruct) : SmbWriteBack F := { s with file := Function.update s.file f file }

/-- `SMB_WriteFile` has written bytes at the offset of a file, which goes on behind them. -/
def send (xs : List UInt8) : SmbWriteBack F :=
  { s.setFile f { s.file f with offset := (s.file f).offset + xs.length, len := max (s.file f).len ((s.file f).offset + xs.length) } with
    sent := Function.update s.sent f (s.sent f ++ placed (s.file f).offset xs) }

/-- The loop of `FlushWriteSMBCache`, with `written` bytes gone; what is left when it fails is the length, not the place. -/
def flushLoop (answers : Nat → SmbWritten) : Nat → Nat → Nat → SmbWriteBack F → SmbWriteBack F × Bool
  | 0, _, _, s => (s, true)
  | fuel + 1, k, written, s =>
    let rest := s.block.drop written
    match answers k with
    | .fails => ({ s with block := s.block.take rest.length }, false)
    | .writes n =>
      let ret := smbDelivered rest.length n
      let s := s.send f (rest.take ret)
      if rest.length - ret = 0 then ({ s with block := [], owner := none }, true)
      else flushLoop answers fuel (k + 1) (written + ret) s

/-- `FlushWriteSMBCache` -/
def flushWriteSMBCache (answers : Nat → SmbWritten) : SmbWriteBack F × Bool :=
  match s.owner with
  | none => (s, true)
  | some f => if s.block = [] then (s, true) else flushLoop f answers s.block.length 0 0 s

/-- A call begins with a flush of what its file has in the block, whatever comes of it. -/
def flushOwn (answers : Nat → SmbWritten) : SmbWriteBack F := if s.owner = some f then (s.flushWriteSMBCache answers).1 else s

/-- The loop of `WriteSMBUsingCache`; each round takes a byte at least. -/
def writeLoop (answers : Nat → SmbWritten) : Nat → Nat → List UInt8 → SmbWriteBack F → SmbWriteBack F × Bool
  | 0, _, _, s => (s, true)
  | fuel + 1, k, buf, s =>
    if buf = [] then (s, true)
    else if SMB_WRITE_BUFFERSIZE ≤ s.block.length + buf.length then
      let rest := SMB_WRITE_BUFFERSIZE - s.block.length
      match answers k with
      | .fails => (s, false)
      | .writes n =>
        let s := s.send f ((s.block ++ buf.take rest).take (smbDelivered SMB_WRITE_BUFFERSIZE n))
        writeLoop answers fuel (k + 1) (buf.drop rest) { s with block := [] }
    else ({ s with block := s.block ++ buf }, true)

/-- `WriteSMBUsingCache` -/
def writeSMBUsingCache (buf : List UInt8) (flushed full : Nat → SmbWritten) : SmbWriteBack F × Bool :=
  match s.owner with
  | none => writeLoop f full buf.length 0 buf { s with owner := some f, block := [] }
  | some g =>
    if (s.file g).filename = (s.file f).filename then writeLoop f full buf.length 0 buf s
    else
      match s.flushWriteSMBCache flushed with
      | (s, false) => (s, false)
      | (s, true) => writeLoop f full buf.length 0 buf { s with owner := some f, block := [] }

/-- `__smb_write`, and whether the bytes were accepted. -/
def smbWrite (buf : List UInt8) (flushed full : Nat → SmbWritten) : SmbWriteBack F × Bool :=
  if (s.file f).len < (s.file f).offset then (s, false)
  else if buf = [] then (s, true)
  else s.writeSMBUsingCache f buf flushed full

/-- `__smb_read`; what is read does not matter here. -/
def smbRead (len moved : Nat) (flushed : Nat → SmbWritten) : SmbWriteBack F :=
  if len = 0 then s
  else
    let s := s.flushOwn f flushed
    s.setFile f { s.file f with offset := (s.file f).offset + min moved (min len ((s.file f).len - (s.file f).offset)) }

/-- `__smb_seek`, to a position or refused. -/
def smbSeek (position : Option Nat) (flushed : Nat → SmbWritten) : SmbWriteBack F :=
  let s := s.flushOwn f flushed
  s.setFile f { s.file f with offset := position.getD (s.file f).offset }

/-- `__smb_close` -/
def smbClose (flushed : Nat → SmbWritten) : SmbWriteBack F :=
  let s := s.flushOwn f flushed
  { s.setFile f ⟨"", 0, 0⟩ with opened := Function.update s.opened f false }

/-- How many bytes of the file wait in the block. -/
def waiting : Nat := if s.owner = some f then s.block.length else 0

/-- The bytes of a write are accepted, where the file is. -/
def accept (buf : List UInt8) (position : Nat) : SmbWriteBack F :=
  { s with accepted := Function.update s.accepted f (s.accepted f ++ placed position buf) }

/-- What a write leaves: its bytes are accepted, or it has failed. -/
def wrote (res : SmbWriteBack F × Bool) (f : F) (buf : List UInt8) (position : Nat) : SmbWriteBack F :=
  if res.2 then res.1.accept f buf position else res.1

def next : SmbBackEvent F → SmbWriteBack F
  | .write f buf flushed full => wrote (s.smbWrite f buf flushed full) f buf ((s.file f).offset + s.waiting f)
  | .read f len moved flushed => s.smbRead f len moved flushed
  | .seek f position flushed => s.smbSeek f position flushed
  | .close f flushed => s.smbClose f flushed
  | .flush flushed => (s.flushWriteSMBCache flushed).1

def Enabled : SmbBackEvent F → Prop
  | .write f _ _ _ | .read f _ _ _ | .seek f _ _ | .close f _ => s.opened f = true
  | .flush _ => True

instance (e : SmbBackEvent F) : Decidable (s.Enabled e) :=
  match e with
  | .write .. | .read .. | .seek .. | .close .. => inferInstanceAs (Decidable (_ = _))
  | .flush _ => inferInstanceAs (Decidable True)

end SmbWriteBack

def smbBackSystem (F : Type) [DecidableEq F] : System (SmbWriteBack F) (SmbBackEvent F) where
  enabled := SmbWriteBack.Enabled
  next := SmbWriteBack.next

instance (s : SmbWriteBack F) (e : SmbBackEvent F) : Decidable ((smbBackSystem F).enabled s e) := inferInstanceAs (Decidable (s.Enabled e))

/-- Open files, nothing written yet. -/
def smbBackStart (file : F → SmbFileStruct) : SmbWriteBack F where
  file := file
  opened _ := true
  owner := none
  block := []
  sent _ := []
  accepted _ := []

/-! ## When the bytes are kept -/

/-- The requests of a flush of `m` bytes all go well. -/
def smbFlushes (answers : Nat → SmbWritten) : Nat → Nat → Nat → Prop
  | 0, _, _ => True
  | fuel + 1, k, m =>
    match answers k with
    | .fails => False
    | .writes n => m - smbDelivered m n = 0 ∨ smbFlushes answers fuel (k + 1) (m - smbDelivered m n)

instance smbFlushesDec (answers : Nat → SmbWritten) : ∀ fuel k m, Decidable (smbFlushes answers fuel k m)
  | 0, _, _ => inferInstanceAs (Decidable True)
  | fuel + 1, k, m => by
    unfold smbFlushes
    cases answers k with
    | fails => exact inferInstanceAs (Decidable False)
    | writes n =>
      have := smbFlushesDec answers fuel (k + 1) (m - smbDelivered m n)
      exact inferInstanceAs (Decidable (_ ∨ _))

/-- A request for a full block that is written in full. -/
def SmbWritten.full : SmbWritten → Bool
  | .fails => false
  | .writes n => SMB_WRITE_BUFFERSIZE ≤ n

namespace SmbWriteBack
variable (s : SmbWriteBack F)

/-- The block can be flushed. -/
def Flushes (answers : Nat → SmbWritten) : Prop := smbFlushes answers s.block.length 0 s.block.length

instance (answers : Nat → SmbWritten) : Decidable (s.Flushes answers) := smbFlushesDec answers _ 0 _

/-- A flush goes well, or fails with its first request. -/
def Settles (answers : Nat → SmbWritten) : Prop := s.Flushes answers ∨ answers 0 = .fails

instance (answers : Nat → SmbWritten) : Decidable (s.Settles answers) := inferInstanceAs (Decidable (_ ∨ _))

/-- The block is nobody's, the file's own, or a file's of another name. -/
def Yields (f : F) (flushed : Nat → SmbWritten) : Prop :=
  match s.owner with
  | none => True
  | some g => g = f ∨ ((s.file g).filename ≠ (s.file f).filename ∧ s.Settles flushed)

instance (f : F) (flushed : Nat → SmbWritten) : Decidable (s.Yields f flushed) := by
  unfold Yields
  cases s.owner <;> infer_instance

/-- **A step that keeps the bytes**: the block is not another file's of the same name, full blocks are written in full or the first one
fails, and a flush goes well; where its failure stops the step, it may fail with its first request. -/
def Keeps : SmbBackEvent F → Prop
  | .write f buf flushed full =>
    (s.file f).len < (s.file f).offset ∨ buf = [] ∨
      (s.Yields f flushed ∧ ((∀ k < (s.waiting f + buf.length) / SMB_WRITE_BUFFERSIZE, (full k).full = true) ∨ full 0 = .fails))
  | .read f len _ flushed => len = 0 ∨ s.owner ≠ some f ∨ s.Flushes flushed
  | .seek f _ flushed | .close f flushed => s.owner ≠ some f ∨ s.Flushes flushed
  | .flush flushed => s.Settles flushed

instance (e : SmbBackEvent F) : Decidable (s.Keeps e) :=
  match e with
  | .write .. => inferInstanceAs (Decidable (_ ∨ _))
  | .read .. | .seek .. | .close .. => inferInstanceAs (Decidable (_ ∨ _))
  | .flush flushed => inferInstanceAs (Decidable (s.Settles flushed))

end SmbWriteBack

namespace SmbWriteBack
variable {s : SmbWriteBack F} {f : F} {answers flushed full : Nat → SmbWritten}

/-! ## What is sent -/

@[simp] theorem send_file (s : SmbWriteBack F) (f : F) (xs : List UInt8) : (s.send f xs).file f =
    { s.file f with offset := (s.file f).offset + xs.length, len := max (s.file f).len ((s.file f).offset + xs.length) } :=
  Function.update_self ..

@[simp] theorem send_sent (s : SmbWriteBack F) (f : F) (xs : List UInt8) :
    (s.send f xs).sent f = s.sent f ++ placed (s.file f).offset xs := Function.update_self ..

theorem send_send (s : SmbWriteBack F) (f : F) (xs ys : List UInt8) : (s.send f xs).send f ys = s.send f (xs ++ ys) := by
  have hlen : max (max (s.file f).len ((s.file f).offset + xs.length)) ((s.file f).offset + xs.length + ys.length) =
      max (s.file f).len ((s.file f).offset + (xs.length + ys.length)) := by omega
  have hfile : ({ (s.send f xs).file f with
      offset := ((s.send f xs).file f).offset + ys.length
      len := max ((s.send f xs).file f).len (((s.send f xs).file f).offset + ys.length) } : SmbFileStruct) =
      { s.file f with
        offset := (s.file f).offset + (xs ++ ys).length
        len := max (s.file f).len ((s.file f).offset + (xs ++ ys).length) } := by
    rw [send_file, List.length_append, ← hlen]
    simp [Nat.add_assoc]
  have hsent : (s.send f xs).sent f ++ placed ((s.send f xs).file f).offset ys = s.sent f ++ placed (s.file f).offset (xs ++ ys) := by
    rw [send_sent, send_file, placed_append, List.append_assoc]
  rw [send, hfile, hsent]
  unfold send setFile
  simp [Function.update_idem]

theorem flushLoop_spec (fuel : Nat) : ∀ {k written : Nat} {s : SmbWriteBack F}, (s.block.drop written).length ≤ fuel →
    s.block.drop written ≠ [] → smbFlushes answers fuel k (s.block.drop written).length →
    flushLoop f answers fuel k written s = ({ s.send f (s.block.drop written) with block := [], owner := none }, true) := by
  induction fuel with
  | zero => exact fun {k written s} hfuel hne _ => absurd (List.length_eq_zero_iff.1 (Nat.le_zero.1 hfuel)) hne
  | succ fuel ih =>
    intro k written s hfuel hne hflushes
    rw [flushLoop]
    rw [smbFlushes] at hflushes
    dsimp only
    cases hans : answers k with
    | fails =>
      rw [hans] at hflushes
      exact hflushes.elim
    | writes n =>
      rw [hans] at hflushes
      dsimp only at hflushes ⊢
      have hone : 1 ≤ smbDelivered (s.block.drop written).length n := Nat.le_max_left ..
      generalize smbDelivered (s.block.drop written).length n = ret at hflushes hone ⊢
      by_cases hdone : (s.block.drop written).length - ret = 0
      · rw [if_pos hdone, List.take_of_length_le (Nat.le_of_sub_eq_zero hdone)]
      · rw [if_neg hdone]
        have hdrop : (s.block.drop written).drop ret = s.block.drop (written + ret) := List.drop_drop
        have hlen : (s.block.drop (written + ret)).length = (s.block.drop written).length - ret := by
          rw [← hdrop, List.length_drop]
        have hmore : s.block.drop (written + ret) ≠ [] := by
          intro hnil
          rw [hnil, List.length_nil] at hlen
          exact hdone hlen.symm
        have hrest : smbFlushes answers fuel (k + 1) (s.block.drop (written + ret)).length := by
          rw [hlen]
          exact hflushes.resolve_left hdone
        have hshort : (s.block.drop (written + ret)).length ≤ fuel := by omega
        rw [ih (s := s.send f ((s.block.drop written).take ret)) hshort hmore hrest, send_send]
        have hblock : (s.send f ((s.block.drop written).take ret)).block.drop (written + ret) = (s.block.drop written).drop ret :=
          hdrop.symm
        rw [hblock, List.take_append_drop]

variable {g : F} {buf : List UInt8}

theorem flush_spec (hg : s.owner = some g) (hne : s.block ≠ []) (hflushes : s.Flushes answers) :
    s.flushWriteSMBCache answers = ({ s.send g s.block with block := [], owner := none }, true) := by
  unfold flushWriteSMBCache
  rw [hg]
  dsimp only
  rw [if_neg hne]
  have hall : (s.block.drop 0).length ≤ s.block.length := Nat.le_refl _
  exact flushLoop_spec s.block.length hall hne hflushes

theorem flush_empty (hnil : s.block = []) : s.flushWriteSMBCache answers = (s, true) := by
  unfold flushWriteSMBCache
  cases s.owner with
  | none => rfl
  | some g => exact if_pos hnil

theorem flush_fails (hg : s.owner = some g) (hne : s.block ≠ []) (hfails : answers 0 = .fails) :
    s.flushWriteSMBCache answers = (s, false) := by
  obtain ⟨fuel, hfuel⟩ := Nat.exists_eq_succ_of_ne_zero fun hzero => hne (List.length_eq_zero_iff.1 hzero)
  unfold flushWriteSMBCache
  rw [hg]
  dsimp only
  rw [if_neg hne, hfuel, Nat.succ_eq_add_one, flushLoop, hfails]
  simp

/-! ## The account -/

/-- What waits in the block for a file, where it belongs. -/
def pending (s : SmbWriteBack F) (f : F) : List (Nat × UInt8) := if s.owner = some f then placed (s.file f).offset s.block else []

/-- Nothing waits for the file. -/
def Bare (s : SmbWriteBack F) (f : F) : Prop := s.owner ≠ some f ∨ s.block = []

/-- **The bytes are accounted for**: what was sent for a file and what waits for it is what was accepted. -/
structure Accounted (s : SmbWriteBack F) : Prop where
  bytes : ∀ f, s.sent f ++ s.pending f = s.accepted f
  closed : ∀ f, s.opened f = false → Bare s f
  idle : s.owner = none → s.block = []
  short : s.block.length < SMB_WRITE_BUFFERSIZE

theorem Accounted.start (file : F → SmbFileStruct) : Accounted (smbBackStart file) where
  bytes _ := rfl
  closed _ hf := by cases hf
  idle _ := rfl
  short := (by decide : 0 < SMB_WRITE_BUFFERSIZE)

theorem pending_owner (h : s.owner = some f) : s.pending f = placed (s.file f).offset s.block := if_pos h

theorem pending_other (h : s.owner ≠ some f) : s.pending f = [] := if_neg h

theorem pending_nil (h : s.block = []) (f : F) : s.pending f = [] := by
  unfold pending
  rw [h]
  split <;> rfl

theorem Bare.pending (h : Bare s f) : s.pending f = [] := h.elim pending_other fun hnil => pending_nil hnil f

theorem send_sent_other (hne : g ≠ f) (xs : List UInt8) : (s.send f xs).sent g = s.sent g := Function.update_of_ne hne ..

theorem Accounted.owned (h : Accounted s) (hne : s.block ≠ []) : ∃ g, s.owner = some g := by
  cases hg : s.owner with
  | none => exact absurd (h.idle hg) hne
  | some g => exact ⟨g, rfl⟩

theorem Accounted.flush (h : Accounted s) (hflushes : s.Flushes answers) :
    Accounted (s.flushWriteSMBCache answers).1 ∧ (s.flushWriteSMBCache answers).1.block = [] := by
  by_cases hne : s.block = []
  · rw [flush_empty hne]
    exact ⟨h, hne⟩
  · obtain ⟨g, hg⟩ := h.owned hne
    rw [flush_spec hg hne hflushes]
    refine ⟨⟨fun f => ?_, fun _ _ => .inr rfl, fun _ => rfl, (by decide : 0 < SMB_WRITE_BUFFERSIZE)⟩, rfl⟩
    rw [pending_nil rfl, List.append_nil]
    show (s.send g s.block).sent f = s.accepted f
    rw [← h.bytes f]
    by_cases hf : f = g
    · subst hf
      rw [send_sent, pending_owner hg]
    · have hother : s.owner ≠ some f := by
        rw [hg]
        exact fun heq => hf (Option.some.inj heq).symm
      rw [send_sent_other hf, pending_other hother, List.append_nil]

theorem Accounted.settle (h : Accounted s) (hsettles : s.Settles answers) : Accounted (s.flushWriteSMBCache answers).1 := by
  rcases hsettles with hflushes | hfails
  · exact (h.flush hflushes).1
  · by_cases hne : s.block = []
    · rw [flush_empty hne]
      exact h
    · obtain ⟨g, hg⟩ := h.owned hne
      rw [flush_fails hg hne hfails]
      exact h

theorem Accounted.flushOwn (h : Accounted s) (hown : s.owner ≠ some f ∨ s.Flushes answers) :
    Accounted (s.flushOwn f answers) ∧ Bare (s.flushOwn f answers) f := by
  unfold SmbWriteBack.flushOwn
  split
  · rename_i hf
    obtain ⟨hkeep, hnil⟩ := h.flush (hown.resolve_left (not_not_intro hf))
    exact ⟨hkeep, .inr hnil⟩
  · rename_i hf
    exact ⟨h, .inl hf⟩

theorem Accounted.setFile (h : Accounted s) (hbare : Bare s f) (file : SmbFileStruct) : Accounted (s.setFile f file) where
  bytes g := by
    show s.sent g ++ (s.setFile f file).pending g = s.accepted g
    rw [← h.bytes g]
    refine congrArg (s.sent g ++ ·) ?_
    by_cases hg : g = f
    · subst hg
      have hbare' : Bare (s.setFile g file) g := hbare
      rw [hbare.pending, hbare'.pending]
    · unfold SmbWriteBack.pending SmbWriteBack.setFile
      dsimp only
      rw [Function.update_of_ne hg]
  closed := h.closed
  idle := h.idle
  short := h.short

/-! ## A write -/

theorem send_nil (h : (s.file f).offset ≤ (s.file f).len) : s.send f [] = s := by
  unfold send SmbWriteBack.setFile
  simp [placed, Nat.max_eq_left h]

theorem full_rest {b m : Nat} (hshort : b < SMB_WRITE_BUFFERSIZE) (hfull : SMB_WRITE_BUFFERSIZE ≤ b + m) :
    (b + m) / SMB_WRITE_BUFFERSIZE = (m - (SMB_WRITE_BUFFERSIZE - b)) / SMB_WRITE_BUFFERSIZE + 1 := by
  have hpos : 0 < SMB_WRITE_BUFFERSIZE := by decide
  have htotal : b + m = (m - (SMB_WRITE_BUFFERSIZE - b)) + SMB_WRITE_BUFFERSIZE := by omega
  rw [htotal, Nat.add_div_right _ hpos]

theorem full_delivered {a : SmbWritten} (h : a.full = true) :
    ∃ n, a = .writes n ∧ smbDelivered SMB_WRITE_BUFFERSIZE n = SMB_WRITE_BUFFERSIZE := by
  cases a with
  | fails => cases h
  | writes n =>
    have hn : SMB_WRITE_BUFFERSIZE ≤ n := of_decide_eq_true h
    refine ⟨n, rfl, ?_⟩
    unfold smbDelivered
    rw [Nat.min_eq_right hn]
    decide

/-- **The loop of a write**: what is sent and what is left in the block are the block and the buffer. -/
theorem writeLoop_spec (fuel : Nat) : ∀ {k : Nat} {buf : List UInt8} {s : SmbWriteBack F}, s.block.length < SMB_WRITE_BUFFERSIZE →
    (s.file f).offset ≤ (s.file f).len → buf.length ≤ fuel →
    (∀ j < (s.block.length + buf.length) / SMB_WRITE_BUFFERSIZE, (full (k + j)).full = true) →
    ∃ xs ys, xs ++ ys = s.block ++ buf ∧ ys.length < SMB_WRITE_BUFFERSIZE ∧
      writeLoop f full fuel k buf s = ({ s.send f xs with block := ys }, true) := by
  induction fuel with
  | zero =>
    intro k buf s hshort ho hfuel _
    obtain rfl := List.length_eq_zero_iff.1 (Nat.le_zero.1 hfuel)
    refine ⟨[], s.block, (List.append_nil _).symm, hshort, ?_⟩
    rw [send_nil ho]
    rfl
  | succ fuel ih =>
    intro k buf s hshort ho hfuel hfull
    rw [writeLoop]
    by_cases hnil : buf = []
    · refine ⟨[], s.block, ?_, hshort, ?_⟩
      · rw [hnil, List.append_nil, List.nil_append]
      · rw [if_pos hnil, send_nil ho]
    · rw [if_neg hnil]
      by_cases hlast : SMB_WRITE_BUFFERSIZE ≤ s.block.length + buf.length
      · rw [full_rest hshort hlast] at hfull
        rw [if_pos hlast]
        generalize hrest : SMB_WRITE_BUFFERSIZE - s.block.length = rest at hfull
        obtain ⟨n, hans, hdelivered⟩ := full_delivered (hfull 0 (Nat.succ_pos _))
        have hans : full k = .writes n := hans
        have hlen : (s.block ++ buf.take rest).length = SMB_WRITE_BUFFERSIZE := by
          rw [List.length_append, List.length_take]
          omega
        have htake : (s.block ++ buf.take rest).take SMB_WRITE_BUFFERSIZE = s.block ++ buf.take rest :=
          List.take_of_length_le (Nat.le_of_eq hlen)
        have hsplit : (s.block ++ buf.take rest) ++ buf.drop rest = s.block ++ buf := by
          rw [List.append_assoc, List.take_append_drop]
        have hdrop : (buf.drop rest).length = buf.length - rest := List.length_drop
        dsimp only
        rw [hans]
        dsimp only
        rw [hdelivered, htake]
        generalize s.block ++ buf.take rest = sending at hsplit
        have hempty : ([] : List UInt8).length < SMB_WRITE_BUFFERSIZE := by decide
        have hoffset : (({ s.send f sending with block := [] } : SmbWriteBack F).file f).offset ≤
            (({ s.send f sending with block := [] } : SmbWriteBack F).file f).len := by
          show ((s.send f sending).file f).offset ≤ ((s.send f sending).file f).len
          rw [send_file]
          exact Nat.le_max_right _ _
        have hmore : ∀ j < (([] : List UInt8).length + (buf.drop rest).length) / SMB_WRITE_BUFFERSIZE, (full (k + 1 + j)).full = true := by
          intro j hj
          rw [List.length_nil, Nat.zero_add, hdrop] at hj
          rw [Nat.add_assoc, Nat.add_comm 1 j]
          exact hfull (j + 1) (Nat.succ_lt_succ hj)
        obtain ⟨xs, ys, hxs, hys, hrun⟩ := ih (s := { s.send f sending with block := [] }) hempty hoffset (by omega) hmore
        refine ⟨sending ++ xs, ys, ?_, hys, ?_⟩
        · rw [List.append_assoc, hxs]
          exact hsplit
        · rw [hrun, ← send_send]
          rfl
      · refine ⟨[], s.block ++ buf, rfl, ?_, ?_⟩
        · rw [List.length_append]
          exact Nat.lt_of_not_le hlast
        · rw [if_neg hlast, send_nil ho]

theorem writeLoop_fails (hshort : s.block.length < SMB_WRITE_BUFFERSIZE)
    (hlast : SMB_WRITE_BUFFERSIZE ≤ s.block.length + buf.length) (hfails : full 0 = .fails) :
    writeLoop f full buf.length 0 buf s = (s, false) := by
  have hne : buf.length ≠ 0 := by omega
  obtain ⟨fuel, hfuel⟩ := Nat.exists_eq_succ_of_ne_zero hne
  rw [hfuel, Nat.succ_eq_add_one, writeLoop, if_neg fun hnil => hne (List.length_eq_zero_iff.2 hnil), if_pos hlast, hfails]

theorem accept_nil (s : SmbWriteBack F) (f : F) (o : Nat) : s.accept f [] o = s := by
  unfold accept
  simp [placed]

theorem Accounted.writeLoop (h : Accounted s) (hopen : s.opened f = true) (hown : s.owner = some f)
    (ho : (s.file f).offset ≤ (s.file f).len)
    (hfull : (∀ k < (s.block.length + buf.length) / SMB_WRITE_BUFFERSIZE, (full k).full = true) ∨ full 0 = .fails) :
    Accounted (wrote (writeLoop f full buf.length 0 buf s) f buf ((s.file f).offset + s.block.length)) := by
  by_cases hstop : SMB_WRITE_BUFFERSIZE ≤ s.block.length + buf.length ∧ full 0 = .fails
  · rw [writeLoop_fails h.short hstop.1 hstop.2]
    exact h
  · have hall : ∀ k < (s.block.length + buf.length) / SMB_WRITE_BUFFERSIZE, (full (0 + k)).full = true := by
      intro k hk
      rw [Nat.zero_add]
      rcases hfull with hfull | hfails
      · exact hfull k hk
      · have hshort : s.block.length + buf.length < SMB_WRITE_BUFFERSIZE := Nat.lt_of_not_le fun hle => hstop ⟨hle, hfails⟩
        rw [Nat.div_eq_of_lt hshort] at hk
        exact absurd hk (Nat.not_lt_zero k)
    obtain ⟨xs, ys, hsplit, hys, hrun⟩ := writeLoop_spec buf.length h.short ho (Nat.le_refl _) hall
    rw [hrun]
    refine ⟨fun g => ?_, fun g hclosed => .inl fun hg => ?_, fun hnone => ?_, hys⟩
    · by_cases hg : g = f
      · subst hg
        have hpending : placed ((s.file g).offset + xs.length) ys =
            (wrote ({ s.send g xs with block := ys }, true) g buf ((s.file g).offset + s.block.length)).pending g := by
          have hfile : ((s.send g xs).file g).offset = (s.file g).offset + xs.length := by rw [send_file]
          rw [← hfile]
          exact (if_pos hown).symm
        have haccepted : (wrote ({ s.send g xs with block := ys }, true) g buf ((s.file g).offset + s.block.length)).accepted g =
            s.accepted g ++ placed ((s.file g).offset + s.block.length) buf := Function.update_self ..
        rw [← hpending, haccepted, ← h.bytes g, pending_owner hown, List.append_assoc, ← placed_append, ← hsplit, placed_append,
          ← List.append_assoc]
        exact congrArg (· ++ placed ((s.file g).offset + xs.length) ys) (send_sent s g xs)
      · have hother : s.owner ≠ some g := by
          rw [hown]
          exact fun heq => hg (Option.some.inj heq).symm
        have hpending : (wrote ({ s.send f xs with block := ys }, true) f buf ((s.file f).offset + s.block.length)).pending g = [] :=
          pending_other hother
        have haccepted : (wrote ({ s.send f xs with block := ys }, true) f buf ((s.file f).offset + s.block.length)).accepted g =
            s.accepted g := Function.update_of_ne hg ..
        rw [hpending, haccepted, List.append_nil, ← h.bytes g, pending_other hother, List.append_nil]
        exact send_sent_other hg xs
    · obtain rfl : f = g := Option.some.inj (hown.symm.trans hg)
      exact Bool.noConfusion (hopen.symm.trans hclosed)
    · have hnone : s.owner = none := hnone
      rw [hown] at hnone
      cases hnone

theorem Accounted.give (h : Accounted s) (hnil : s.block = []) (f : F) : Accounted { s with owner := some f, block := [] } where
  bytes g := by
    rw [pending_nil rfl, ← h.bytes g, pending_nil hnil]
  closed _ _ := .inr rfl
  idle hnone := by cases hnone
  short := (by decide : 0 < SMB_WRITE_BUFFERSIZE)

theorem Accounted.writeGiven (h : Accounted s) (hopen : s.opened f = true) (hnil : s.block = []) (ho : (s.file f).offset ≤ (s.file f).len)
    (hfull : (∀ k < (0 + buf.length) / SMB_WRITE_BUFFERSIZE, (full k).full = true) ∨ full 0 = .fails) :
    Accounted (wrote (SmbWriteBack.writeLoop f full buf.length 0 buf { s with owner := some f, block := [] }) f buf
      ((s.file f).offset + 0)) :=
  (h.give hnil f).writeLoop hopen rfl ho hfull

theorem Accounted.smbWrite (h : Accounted s) (hopen : s.opened f = true) (hkeeps : s.Keeps (.write f buf flushed full)) :
    Accounted (s.next (.write f buf flushed full)) := by
  unfold Keeps at hkeeps
  unfold next SmbWriteBack.smbWrite
  dsimp only at hkeeps ⊢
  by_cases hbehind : (s.file f).len < (s.file f).offset
  · rw [if_pos hbehind]
    exact h
  have ho := Nat.le_of_not_lt hbehind
  rw [if_neg hbehind]
  by_cases hnil : buf = []
  · rw [if_pos hnil, hnil]
    unfold wrote
    rw [if_pos rfl, accept_nil]
    exact h
  rw [if_neg hnil]
  obtain ⟨hyields, hfull⟩ := (hkeeps.resolve_left hbehind).resolve_left hnil
  unfold Yields at hyields
  unfold waiting writeSMBUsingCache at *
  cases hg : s.owner with
  | none =>
    rw [hg] at hfull
    rw [if_neg (by simp)] at hfull ⊢
    exact h.writeGiven hopen (h.idle hg) ho hfull
  | some g =>
    rw [hg] at hyields hfull
    dsimp only at hyields ⊢
    rcases hyields with rfl | ⟨hname, hsettles⟩
    · rw [if_pos rfl] at hfull
      rw [if_pos rfl, if_pos rfl]
      exact h.writeLoop hopen hg ho hfull
    · have hne : g ≠ f := fun heq => hname (heq ▸ rfl)
      have hother : some g ≠ some f := fun heq => hne (Option.some.inj heq)
      rw [if_neg hother] at hfull
      rw [if_neg hname, if_neg hother]
      by_cases hempty : s.block = []
      · rw [flush_empty hempty]
        exact h.writeGiven hopen hempty ho hfull
      · rcases hsettles with hflushes | hfails
        · have hflush := (h.flush hflushes).1
          rw [flush_spec hg hempty hflushes] at hflush ⊢
          have hsame : ({ s.send g s.block with block := [], owner := none } : SmbWriteBack F).file f = s.file f :=
            Function.update_of_ne (Ne.symm hne) ..
          have ho' : (({ s.send g s.block with block := [], owner := none } : SmbWriteBack F).file f).offset ≤
              (({ s.send g s.block with block := [], owner := none } : SmbWriteBack F).file f).len := by
            rw [hsame]
            exact ho
          have hwrite := hflush.writeGiven hopen rfl ho' hfull
          rw [hsame] at hwrite
          exact hwrite
        · rw [flush_fails hg hempty hfails]
          exact h

/-! ## The other calls -/

theorem Accounted.smbRead {len moved : Nat} (h : Accounted s) (hkeeps : s.Keeps (.read f len moved flushed)) :
    Accounted (s.smbRead f len moved flushed) := by
  unfold SmbWriteBack.smbRead
  split
  · exact h
  · rename_i hlen
    obtain ⟨hown, hbare⟩ := h.flushOwn (hkeeps.resolve_left hlen)
    exact hown.setFile hbare _

theorem Accounted.smbSeek {position : Option Nat} (h : Accounted s) (hkeeps : s.Keeps (.seek f position flushed)) :
    Accounted (s.smbSeek f position flushed) := by
  obtain ⟨hown, hbare⟩ := h.flushOwn hkeeps
  exact hown.setFile hbare _

theorem Accounted.smbClose (h : Accounted s) (hkeeps : s.Keeps (.close f flushed)) : Accounted (s.smbClose f flushed) := by
  obtain ⟨hown, hbare⟩ := h.flushOwn hkeeps
  have hclosed := hown.setFile hbare ⟨"", 0, 0⟩
  refine ⟨hclosed.bytes, fun g hg => ?_, hclosed.idle, hclosed.short⟩
  by_cases hf : g = f
  · subst hf
    exact hbare
  · have hg : Function.update (s.flushOwn f flushed).opened f false g = false := hg
    rw [Function.update_of_ne hf] at hg
    exact hclosed.closed g hg

theorem Accounted.step {e : SmbBackEvent F} (h : Accounted s) (he : s.Enabled e) (hkeeps : s.Keeps e) : Accounted (s.next e) := by
  cases e with
  | write f buf flushed full => exact h.smbWrite he hkeeps
  | read f len moved flushed => exact h.smbRead hkeeps
  | seek f position flushed => exact h.smbSeek hkeeps
  | close f flushed => exact h.smbClose hkeeps
  | flush flushed => exact h.settle hkeeps

end SmbWriteBack

/-- **The bytes are kept** in every run of such steps: what was sent for a file and what waits for it in the block is what was accepted for
it, each byte at its position, in order.  Nothing waits for a file that was closed. -/
theorem smb_write_back (F : Type) [DecidableEq F] (file : F → SmbFileStruct) {es : List (SmbBackEvent F)}
    (hl : ((smbBackSystem F).restrict SmbWriteBack.Keeps).Legal (smbBackStart file) es) (f : F) :
    ((smbBackSystem F).run (smbBackStart file) es).sent f ++ ((smbBackSystem F).run (smbBackStart file) es).pending f =
        ((smbBackSystem F).run (smbBackStart file) es).accepted f ∧
      (((smbBackSystem F).run (smbBackStart file) es).opened f = false →
        ((smbBackSystem F).run (smbBackStart file) es).sent f = ((smbBackSystem F).run (smbBackStart file) es).accepted f) := by
  have hrun : (((smbBackSystem F).restrict SmbWriteBack.Keeps).run (smbBackStart file) es).Accounted :=
    System.Legal.invariant (fun _ _ h he => h.step he.1 he.2) (SmbWriteBack.Accounted.start file) hl
  refine ⟨hrun.bytes f, fun hclosed => ?_⟩
  have hbytes := hrun.bytes f
  rw [(hrun.closed f hclosed).pending, List.append_nil] at hbytes
  exact hbytes

/-- Two files that are written in turn, with a flush that takes two requests; then one is closed. -/
theorem smb_write_back_in_turn :
    ((smbBackSystem Bool).run (smbBackStart fun f => ⟨if f then "a" else "b", 0, 0⟩)
        [.write true [1, 2] (fun _ => .fails) (fun _ => .fails), .write false [3] (fun _ => .writes 1) (fun _ => .fails),
          .close false fun _ => .writes 9]).sent false ++
        ((smbBackSystem Bool).run (smbBackStart fun f => ⟨if f then "a" else "b", 0, 0⟩)
          [.write true [1, 2] (fun _ => .fails) (fun _ => .fails), .write false [3] (fun _ => .writes 1) (fun _ => .fails),
            .close false fun _ => .writes 9]).pending false =
        ((smbBackSystem Bool).run (smbBackStart fun f => ⟨if f then "a" else "b", 0, 0⟩)
          [.write true [1, 2] (fun _ => .fails) (fun _ => .fails), .write false [3] (fun _ => .writes 1) (fun _ => .fails),
            .close false fun _ => .writes 9]).accepted false ∧
      (((smbBackSystem Bool).run (smbBackStart fun f => ⟨if f then "a" else "b", 0, 0⟩)
          [.write true [1, 2] (fun _ => .fails) (fun _ => .fails), .write false [3] (fun _ => .writes 1) (fun _ => .fails),
            .close false fun _ => .writes 9]).opened false = false →
        ((smbBackSystem Bool).run (smbBackStart fun f => ⟨if f then "a" else "b", 0, 0⟩)
          [.write true [1, 2] (fun _ => .fails) (fun _ => .fails), .write false [3] (fun _ => .writes 1) (fun _ => .fails),
            .close false fun _ => .writes 9]).sent false =
          ((smbBackSystem Bool).run (smbBackStart fun f => ⟨if f then "a" else "b", 0, 0⟩)
            [.write true [1, 2] (fun _ => .fails) (fun _ => .fails), .write false [3] (fun _ => .writes 1) (fun _ => .fails),
              .close false fun _ => .writes 9]).accepted false) :=
  smb_write_back Bool _ (by decide) false

/-- A byte for one handle of a file goes out on the other one. -/
theorem smb_write_back_crossed :
    (smbBackSystem Bool).Legal (smbBackStart fun _ => ⟨"a", 0, 0⟩)
        [.write true [1] (fun _ => .fails) (fun _ => .fails), .write false [2] (fun _ => .fails) (fun _ => .fails),
          .flush fun _ => .writes 2] ∧
      ((smbBackSystem Bool).run (smbBackStart fun _ => ⟨"a", 0, 0⟩)
        [.write true [1] (fun _ => .fails) (fun _ => .fails), .write false [2] (fun _ => .fails) (fun _ => .fails),
          .flush fun _ => .writes 2]).accepted false = [(0, 2)] ∧
      ((smbBackSystem Bool).run (smbBackStart fun _ => ⟨"a", 0, 0⟩)
        [.write true [1] (fun _ => .fails) (fun _ => .fails), .write false [2] (fun _ => .fails) (fun _ => .fails),
          .flush fun _ => .writes 2]).sent true = [(0, 1), (1, 2)] := by
  decide

end Libogc
