import Libogc.Lib.Pool
import Libogc.Lib.Runs
import Mathlib.Data.List.FinRange
/-!
# SmbFiles — the file handles of `smb.c` and the files of `smb_devoptab.c`

`SMB_OpenFile` takes a handle off `smb_filehandle_queue` and `SMB_CloseFile` puts it back.  `__smb_read` reconnects and opens the file again
when the server fails.

What the server and the connection answer is up to the events; a call is one step.  Names are numbers.
-/
namespace Libogc

open Runs Pools

def SMB_CONNHANDLES_MAX : Nat := 8
def SMB_FILEHANDLES_MAX : Nat := 32 * SMB_CONNHANDLES_MAX
def MAX_SMB_MOUNTED : Nat := 10

/-- A mounted share: `SMBEnv`. -/
structure SmbEnv where
  name : Nat
  connected : Bool
  smbconn : Nat
  deriving DecidableEq, Repr

/-- An open file: `SMBFILESTRUCT`. -/
structure SmbFile where
  env : Fin MAX_SMB_MOUNTED
  handle : Option (Fin SMB_FILEHANDLES_MAX)
  deriving DecidableEq, Repr

/-- The queue, the connection each handle was made for, the connections there are, the shares, and the open files. -/
structure Smb (F : Type) where
  queue : List (Fin SMB_FILEHANDLES_MAX)
  conn : Fin SMB_FILEHANDLES_MAX → Nat
  isOpen : Nat → Bool
  env : Fin MAX_SMB_MOUNTED → SmbEnv
  file : F → Option SmbFile

/-- What a read meets with at each try: whether the loop over the pages goes through, as it does when nothing is to be read; whether the
connection is there; and whether the server opens the file. -/
structure SmbAnswers where
  read : Nat → Bool
  reach : Nat → Bool
  opens : Nat → Bool

inductive SmbEvent (F : Type) where
  | init (name : Nat) (smbconn : Option Nat)
  | smbClose (name : Nat)
  | open (f : F) (name : Nat) (reach accepts opens : Bool)
  | read (f : F) (answers : SmbAnswers)
  | write (f : F)
  | close (f : F)

variable {F : Type} [DecidableEq F]

/-- `FindSMBEnv` -/
def findSMBEnv (s : Smb F) (name : Nat) : Option (Fin MAX_SMB_MOUNTED) :=
  (List.finRange MAX_SMB_MOUNTED).find? fun i => (s.env i).connected && decide ((s.env i).name = name)

/-- `smbCheckConnection`; `SMB_Reconnect` needs a connection that was not closed. -/
def smbCheckConnection (s : Smb F) (name : Nat) (reach : Bool) : Bool :=
  match findSMBEnv s name with
  | none => false
  | some i => s.isOpen (s.env i).smbconn && reach

/-- `SMB_OpenFile`; the handle is taken once the server has opened the file. -/
def smbOpenFile (s : Smb F) (smbhndl : Nat) (opens : Bool) : Smb F × Option (Fin SMB_FILEHANDLES_MAX) :=
  if s.isOpen smbhndl && opens then
    match s.queue with
    | [] => (s, none)
    | fid :: queue => ({ s with queue := queue, conn := Function.update s.conn fid smbhndl }, some fid)
  else (s, none)

/-- `SMB_CloseFile` -/
def smbCloseFile (s : Smb F) : Option (Fin SMB_FILEHANDLES_MAX) → Smb F
  | none => s
  | some fid => if s.isOpen (s.conn fid) then { s with queue := s.queue ++ [fid] } else s

/-- The file is opened again, and its handle is the new one. -/
def smbReopen (s : Smb F) (f : F) (file : SmbFile) (opens : Bool) : Smb F × Option (Fin SMB_FILEHANDLES_MAX) :=
  let (s, handle) := smbOpenFile s (s.env file.env).smbconn opens
  ({ s with file := Function.update s.file f (some { file with handle := handle }) }, handle)

/-- `retry_reconnect` of `__smb_read`, with `cnt_retry` left. -/
def smbRetryReconnect (answers : SmbAnswers) (f : F) (file : SmbFile) : Nat → Nat → Smb F → Smb F
  | 0, _, s => s
  | cntRetry + 1, k, s =>
    if smbCheckConnection s (s.env file.env).name (answers.reach k) then
      match smbReopen s f file (answers.opens k) with
      | (s, none) => s
      | (s, some _) => if answers.read (k + 1) then s else smbRetryReconnect answers f file cntRetry (k + 1) s
    else smbRetryReconnect answers f file cntRetry (k + 1) s

/-- `__smb_read` of an open file. -/
def smbRead (answers : SmbAnswers) (f : F) (file : SmbFile) (s : Smb F) : Smb F :=
  if answers.read 0 then s else smbRetryReconnect answers f file 2 0 s

/-- `smbInitDevice`; a device of the name must not be there yet. -/
def smbInitDevice (s : Smb F) (name : Nat) (smbconn : Option Nat) : Smb F :=
  if (findSMBEnv s name).isSome then s
  else
    match smbconn, (List.finRange MAX_SMB_MOUNTED).find? fun i => !(s.env i).connected with
    | some smbconn, some i =>
      { s with isOpen := Function.update s.isOpen smbconn true, env := Function.update s.env i ⟨name, true, smbconn⟩ }
    -- a connection for which there is no room is closed again
    | _, _ => s

def smbNext (s : Smb F) : SmbEvent F → Smb F
  | .init name smbconn => smbInitDevice s name smbconn
  | .smbClose name =>
    match findSMBEnv s name with
    | none => s
    | some i =>
      { s with
        isOpen := Function.update s.isOpen (s.env i).smbconn false
        env := Function.update s.env i { s.env i with connected := false } }
  | .open f name reach accepts opens =>
    match findSMBEnv s name with
    | none => s
    | some i =>
      if smbCheckConnection s (s.env i).name reach && accepts then
        match smbOpenFile s (s.env i).smbconn opens with
        | (s, none) => s
        | (s, some fid) => { s with file := Function.update s.file f (some ⟨i, some fid⟩) }
      else s
  | .read f answers =>
    match s.file f with
    | none => s
    | some file => smbRead answers f file s
  | .write _ => s
  | .close f =>
    match s.file f with
    | none => s
    | some file =>
      let s := smbCloseFile s file.handle
      { s with file := Function.update s.file f none }

/-- A new connection has an identifier of the class that is not in use. -/
def smbEnabled (s : Smb F) : SmbEvent F → Bool
  | .init _ smbconn => smbconn.all fun c => c < SMB_CONNHANDLES_MAX && !s.isOpen c
  | .smbClose _ => true
  | .open f _ _ _ _ => (s.file f).isNone
  | .read f _ | .write f | .close f => (s.file f).isSome

def smbSystem : System (Smb F) (SmbEvent F) where
  enabled s e := smbEnabled s e = true
  next := smbNext

instance (s : Smb F) (e : SmbEvent F) : Decidable ((smbSystem (F := F)).enabled s e) := inferInstanceAs (Decidable (_ = _))

/-- `__smb_init` -/
def smbStart : Smb F where
  queue := List.finRange SMB_FILEHANDLES_MAX
  conn _ := 0
  isOpen _ := false
  env _ := ⟨0, false, 0⟩
  file _ := none

def Smb.handle (s : Smb F) (f : F) : Option (Fin SMB_FILEHANDLES_MAX) := (s.file f).bind SmbFile.handle

/-- The connection is there at the try `k` of a read. -/
def Smb.reaches (s : Smb F) (file : SmbFile) (answers : SmbAnswers) (k : Nat) : Bool :=
  smbCheckConnection s (s.env file.env).name (answers.reach k)

/-- **A read that keeps the handles**: it does not open the file again, or only once and the file had no handle. -/
def smbReadKeeps (s : Smb F) (file : SmbFile) (answers : SmbAnswers) : Prop :=
  answers.read 0 = true ∨ (s.reaches file answers 0 = false ∧ s.reaches file answers 1 = false) ∨
    (file.handle = none ∧ ¬ (s.reaches file answers 0 = true ∧
      (s.isOpen (s.env file.env).smbconn = true ∧ answers.opens 0 = true ∧ s.queue ≠ []) ∧
      answers.read 1 = false ∧ s.reaches file answers 1 = true))

/-- **A step that keeps the handles**: so does a read, and a file is closed while its connection is there. -/
def smbKeeps (s : Smb F) : SmbEvent F → Prop
  | .read f answers => ∀ file, s.file f = some file → smbReadKeeps s file answers
  | .close f => ∀ fid, s.handle f = some fid → s.isOpen (s.conn fid) = true
  | _ => True

/-! ## The calls -/

section Calls
variable {s : Smb F} {f : F} {file : SmbFile} {fid : Fin SMB_FILEHANDLES_MAX}

omit [DecidableEq F] in
/-- `SMB_OpenFile` changes nothing, or takes the first handle of the queue. -/
theorem smbOpenFile_cases (s : Smb F) (smbhndl : Nat) (opens : Bool) :
    (¬ (s.isOpen smbhndl = true ∧ opens = true ∧ s.queue ≠ []) ∧ smbOpenFile s smbhndl opens = (s, none)) ∨
      ((s.isOpen smbhndl = true ∧ opens = true ∧ s.queue ≠ []) ∧ ∃ fid queue, s.queue = fid :: queue ∧
        smbOpenFile s smbhndl opens = ({ s with queue := queue, conn := Function.update s.conn fid smbhndl }, some fid)) := by
  unfold smbOpenFile
  by_cases ho : s.isOpen smbhndl = true ∧ opens = true
  · rw [ho.1, ho.2]
    cases hq : s.queue with
    | nil => exact .inl ⟨fun h => h.2.2 rfl, rfl⟩
    | cons fid queue => exact .inr ⟨⟨rfl, rfl, List.cons_ne_nil _ _⟩, fid, queue, rfl, rfl⟩
  · rw [if_neg (by rw [Bool.and_eq_true]; exact ho)]
    exact .inl ⟨fun h => ho ⟨h.1, h.2.1⟩, rfl⟩

theorem Smb.handle_update (s s' : Smb F) (f : F) (file : Option SmbFile) (h : s'.file = Function.update s.file f file) :
    s'.handle = Function.update s.handle f (file.bind SmbFile.handle) := by
  funext f'
  unfold Smb.handle
  rw [h]
  by_cases hf : f' = f
  · subst hf
    rw [Function.update_self, Function.update_self]
  · rw [Function.update_of_ne hf, Function.update_of_ne hf]

theorem smbReopen_cases (s : Smb F) (f : F) (file : SmbFile) (opens : Bool) :
    (smbReopen s f file opens).1.env = s.env ∧ (smbReopen s f file opens).1.isOpen = s.isOpen ∧
      (smbReopen s f file opens).1.handle = Function.update s.handle f (smbReopen s f file opens).2 ∧
      ((¬ (s.isOpen (s.env file.env).smbconn = true ∧ opens = true ∧ s.queue ≠ []) ∧ (smbReopen s f file opens).2 = none ∧
          (smbReopen s f file opens).1.queue = s.queue) ∨
        ((s.isOpen (s.env file.env).smbconn = true ∧ opens = true ∧ s.queue ≠ []) ∧ ∃ fid,
          (smbReopen s f file opens).2 = some fid ∧ s.queue = fid :: (smbReopen s f file opens).1.queue)) := by
  unfold smbReopen
  rcases smbOpenFile_cases s (s.env file.env).smbconn opens with ⟨hno, heq⟩ | ⟨hyes, fid, queue, hq, heq⟩
  · rw [heq]
    exact ⟨rfl, rfl, Smb.handle_update s _ f (some { file with handle := none }) rfl, .inl ⟨hno, rfl, rfl⟩⟩
  · rw [heq]
    exact ⟨rfl, rfl, Smb.handle_update s _ f (some { file with handle := some fid }) rfl, .inr ⟨hyes, fid, rfl, hq⟩⟩

def Smb.accounted (s : Smb F) : Prop := Accounted s.queue s.handle

theorem Smb.accounted.reopen (h : s.accounted) (hf : s.handle f = none) (opens : Bool) : (smbReopen s f file opens).1.accounted := by
  obtain ⟨-, -, hhandle, hcases⟩ := smbReopen_cases s f file opens
  unfold Smb.accounted
  rw [hhandle]
  rcases hcases with ⟨-, hnone, hq⟩ | ⟨-, fid, hsome, hq⟩
  · rw [hnone, hq]
    exact Accounted.unheld h hf
  · rw [hsome]
    exact Accounted.take (hq ▸ h) hf

theorem Smb.accounted.reopen_lost (h : s.accounted) (hf : s.handle f = some fid) (opens : Bool) :
    Lost fid (smbReopen s f file opens).1.queue (smbReopen s f file opens).1.handle := by
  obtain ⟨-, -, hhandle, hcases⟩ := smbReopen_cases s f file opens
  have hheld : ∀ f', (smbReopen s f file opens).1.handle f' = s.handle f' ∨ f' = f := by
    intro f'
    by_cases hne : f' = f
    · exact .inr hne
    · rw [hhandle]
      exact .inl (Function.update_of_ne hne _ _)
  have hself : (smbReopen s f file opens).1.handle f = (smbReopen s f file opens).2 := by
    rw [hhandle, Function.update_self]
  rcases hcases with ⟨-, hnone, hq⟩ | ⟨-, fid', hsome, hq⟩
  · refine Accounted.overwrite h hf (fun j hj => hq ▸ hj) hheld ?_
    rw [hself, hnone]
    exact (Option.some_ne_none _).symm
  · refine Accounted.overwrite h hf (fun j hj => hq ▸ List.mem_cons_of_mem _ hj) hheld fun he => ?_
    rw [hself, hsome] at he
    obtain rfl := Option.some.inj he
    exact h.apart hf (hq ▸ List.mem_cons_self)

theorem lost_reopen (h : Lost fid s.queue s.handle) (f : F) (file : SmbFile) (opens : Bool) :
    Lost fid (smbReopen s f file opens).1.queue (smbReopen s f file opens).1.handle := by
  obtain ⟨-, -, hhandle, hcases⟩ := smbReopen_cases s f file opens
  have hnew : ∀ f' j, (smbReopen s f file opens).1.handle f' = some j → s.handle f' = some j ∨ (smbReopen s f file opens).2 = some j := by
    intro f' j he
    rw [hhandle] at he
    by_cases hne : f' = f
    · rw [hne, Function.update_self] at he
      exact .inr he
    · rw [Function.update_of_ne hne] at he
      exact .inl he
  rcases hcases with ⟨-, hnone, hq⟩ | ⟨-, fid', hsome, hq⟩
  · refine h.mono (fun j hj => hq ▸ hj) fun f' j he => .inl ((hnew f' j he).resolve_right fun hs => ?_)
    rw [hnone] at hs
    cases hs
  · refine h.mono (fun j hj => hq ▸ List.mem_cons_of_mem _ hj) fun f' j he => (hnew f' j he).imp_right fun hs => ?_
    rw [hsome] at hs
    obtain rfl := Option.some.inj hs
    exact hq ▸ List.mem_cons_self

theorem lost_retry {answers : SmbAnswers} (cntRetry : Nat) : ∀ {k : Nat} {s : Smb F}, Lost fid s.queue s.handle →
    Lost fid (smbRetryReconnect answers f file cntRetry k s).queue (smbRetryReconnect answers f file cntRetry k s).handle := by
  induction cntRetry with
  | zero => exact fun h => h
  | succ cntRetry ih =>
    intro k s h
    rw [smbRetryReconnect]
    split
    · have hre := lost_reopen h f file (answers.opens k)
      generalize smbReopen s f file (answers.opens k) = res at hre
      obtain ⟨s', handle⟩ := res
      cases handle with
      | none => exact hre
      | some fid' =>
        dsimp only
        split
        · exact hre
        · exact ih hre
    · exact ih h

/-! ## A read -/

variable {answers : SmbAnswers} {k n : Nat}

theorem smbRetry_skip (hr : s.reaches file answers k = false) :
    smbRetryReconnect answers f file (n + 1) k s = smbRetryReconnect answers f file n (k + 1) s := by
  rw [smbRetryReconnect]
  exact if_neg (by rw [show smbCheckConnection s _ _ = false from hr]; exact Bool.false_ne_true)

theorem smbRetry_reopen (hr : s.reaches file answers k = true) :
    (((smbReopen s f file (answers.opens k)).2 = none ∨ answers.read (k + 1) = true) ∧
        smbRetryReconnect answers f file (n + 1) k s = (smbReopen s f file (answers.opens k)).1) ∨
      ((smbReopen s f file (answers.opens k)).2 ≠ none ∧ answers.read (k + 1) = false ∧
        smbRetryReconnect answers f file (n + 1) k s =
          smbRetryReconnect answers f file n (k + 1) (smbReopen s f file (answers.opens k)).1) := by
  rw [smbRetryReconnect, if_pos (show smbCheckConnection s _ _ = true from hr)]
  generalize smbReopen s f file (answers.opens k) = res
  obtain ⟨s', handle⟩ := res
  cases handle with
  | none => exact .inl ⟨.inl rfl, rfl⟩
  | some fid =>
    dsimp only
    cases hread : answers.read (k + 1) with
    | true => exact .inl ⟨.inr rfl, if_pos rfl⟩
    | false => exact .inr ⟨Option.some_ne_none _, rfl, if_neg Bool.false_ne_true⟩

theorem Smb.accounted.retry_lost (h : s.accounted) (hf : s.handle f = some fid) (hr : s.reaches file answers k = true) :
    ¬ (smbRetryReconnect answers f file (n + 1) k s).accounted := by
  have hlost : Lost fid (smbReopen s f file (answers.opens k)).1.queue (smbReopen s f file (answers.opens k)).1.handle :=
    h.reopen_lost hf (answers.opens k)
  rcases smbRetry_reopen (f := f) (n := n) hr with ⟨-, heq⟩ | ⟨-, -, heq⟩
  · rw [heq]
    exact hlost.not_accounted
  · rw [heq]
    exact (lost_retry n hlost).not_accounted

theorem Smb.accounted.retry_last (h : s.accounted) (hf : s.handle f = none) : (smbRetryReconnect answers f file 1 k s).accounted := by
  cases hr : s.reaches file answers k with
  | false =>
    rw [smbRetry_skip hr]
    exact h
  | true =>
    rcases smbRetry_reopen (f := f) (n := 0) hr with ⟨-, heq⟩ | ⟨-, -, heq⟩
    · rw [heq]
      exact h.reopen hf _
    · rw [heq]
      exact h.reopen hf _

theorem Smb.accounted.retry_second (h : s.accounted) (hf : s.handle f = some fid) :
    (smbRetryReconnect answers f file 1 k s).accounted ↔ s.reaches file answers k = false := by
  cases hr : s.reaches file answers k with
  | false =>
    rw [smbRetry_skip hr]
    exact iff_of_true h rfl
  | true => exact iff_of_false (h.retry_lost hf hr) Bool.true_eq_false.mp

theorem reaches_reopen (opens : Bool) : (smbReopen s f file opens).1.reaches file answers k = s.reaches file answers k := by
  obtain ⟨henv, hopen, -⟩ := smbReopen_cases s f file opens
  unfold Smb.reaches smbCheckConnection findSMBEnv
  rw [henv, hopen]

theorem Smb.accounted.read_iff (h : s.accounted) (hf : s.file f = some file) :
    (smbRead answers f file s).accounted ↔ smbReadKeeps s file answers := by
  have hhandle : s.handle f = file.handle := by
    unfold Smb.handle
    rw [hf]
    rfl
  unfold smbRead smbReadKeeps
  cases h0 : answers.read 0 with
  | true => exact iff_of_true h (.inl rfl)
  | false =>
    rw [if_neg Bool.false_ne_true, or_iff_right Bool.false_ne_true]
    cases hfid : file.handle with
    | some fid =>
      rw [hfid] at hhandle
      -- whichever try reaches the server first loses the handle
      cases hr : s.reaches file answers 0 with
      | true =>
        refine iff_of_false (h.retry_lost hhandle hr) ?_
        rintro (⟨hr0, -⟩ | ⟨hnone, -⟩)
        · cases hr0
        · cases hnone
      | false =>
        rw [smbRetry_skip hr, h.retry_second hhandle]
        refine ⟨fun hr1 => .inl ⟨rfl, hr1⟩, ?_⟩
        rintro (⟨-, hr1⟩ | ⟨hnone, -⟩)
        · exact hr1
        · cases hnone
    | none =>
      rw [hfid] at hhandle
      cases hr : s.reaches file answers 0 with
      | false =>
        rw [smbRetry_skip hr]
        exact iff_of_true (h.retry_last hhandle) (.inr ⟨rfl, fun hall => absurd hall.1 Bool.false_ne_true⟩)
      | true =>
        have hre : (smbReopen s f file (answers.opens 0)).1.accounted := h.reopen hhandle _
        obtain ⟨-, -, hnew, hcases⟩ := smbReopen_cases s f file (answers.opens 0)
        rcases smbRetry_reopen (f := f) (n := 1) hr with ⟨hwhy, heq⟩ | ⟨hsome, hread, heq⟩
        · rw [heq]
          refine iff_of_true hre (.inr ⟨rfl, ?_⟩)
          rintro ⟨-, hcan, hread, -⟩
          rcases hwhy with hnone | hread'
          · rcases hcases with ⟨hno, -⟩ | ⟨-, fid, hsome, -⟩
            · exact hno hcan
            · rw [hnone] at hsome
              cases hsome
          · rw [hread] at hread'
            cases hread'
        · obtain ⟨fid, hfid'⟩ := Option.ne_none_iff_exists'.mp hsome
          have hheld : (smbReopen s f file (answers.opens 0)).1.handle f = some fid := by
            rw [hnew, Function.update_self, hfid']
          have hcan : s.isOpen (s.env file.env).smbconn = true ∧ answers.opens 0 = true ∧ s.queue ≠ [] := by
            rcases hcases with ⟨-, hnone, -⟩ | ⟨hcan, -⟩
            · exact absurd hnone hsome
            · exact hcan
          rw [heq, hre.retry_second hheld, reaches_reopen]
          constructor
          · intro hr1
            refine .inr ⟨rfl, fun hall => ?_⟩
            rw [hr1] at hall
            exact Bool.false_ne_true hall.2.2.2
          · rintro (⟨hr0, -⟩ | ⟨-, hnot⟩)
            · cases hr0
            · exact Bool.eq_false_iff.mpr fun hr1 => hnot ⟨rfl, hcan, hread, hr1⟩

/-! ## The other calls -/

omit [DecidableEq F] in
theorem Smb.accounted.init (h : s.accounted) (name : Nat) (smbconn : Option Nat) : (smbInitDevice s name smbconn).accounted := by
  unfold smbInitDevice
  split
  · exact h
  · split
    · exact h
    · exact h

theorem Smb.accounted.open (h : s.accounted) (hf : s.file f = none) (name : Nat) (reach accepts opens : Bool) :
    (smbNext s (.open f name reach accepts opens)).accounted := by
  unfold smbNext
  dsimp only
  cases findSMBEnv s name with
  | none => exact h
  | some i =>
    dsimp only
    split
    · rcases smbOpenFile_cases s (s.env i).smbconn opens with ⟨-, heq⟩ | ⟨-, fid, queue, hq, heq⟩
      · rw [heq]
        exact h
      · rw [heq]
        unfold Smb.accounted
        dsimp only
        rw [Smb.handle_update s _ f (some ⟨i, some fid⟩) rfl]
        have hnone : s.handle f = none := by
          unfold Smb.handle
          rw [hf]
          rfl
        exact Accounted.take (hq ▸ h) hnone
    · exact h

/-- **A file that is closed gives its handle back exactly when its connection is there.** -/
theorem Smb.accounted.close_iff (h : s.accounted) (hf : s.file f = some file) :
    (smbNext s (.close f)).accounted ↔ ∀ fid, s.handle f = some fid → s.isOpen (s.conn fid) = true := by
  have hhandle : s.handle f = file.handle := by
    unfold Smb.handle
    rw [hf]
    rfl
  unfold smbNext Smb.accounted
  dsimp only
  rw [hf]
  dsimp only
  cases hfid : file.handle with
  | none =>
    rw [hfid] at hhandle
    refine iff_of_true ?_ fun fid hs => ?_
    · rw [Smb.handle_update s _ f none rfl]
      exact Accounted.unheld h hhandle
    · rw [hhandle] at hs
      cases hs
  | some fid =>
    rw [hfid] at hhandle
    unfold smbCloseFile
    dsimp only
    split
    · rename_i hopen
      refine iff_of_true ?_ fun fid' hs => ?_
      · rw [Smb.handle_update s _ f none rfl]
        exact Accounted.put h hhandle
      · rw [hhandle] at hs
        exact Option.some.inj hs ▸ hopen
    · rename_i hclosed
      refine iff_of_false (Lost.not_accounted (i := fid) ?_) fun hall => hclosed (hall fid hhandle)
      rw [Smb.handle_update s _ f none rfl]
      refine Accounted.overwrite h hhandle (fun j hj => hj) (fun f' => ?_) ?_
      · by_cases hne : f' = f
        · exact .inr hne
        · exact .inl (Function.update_of_ne hne _ _)
      · rw [Function.update_self]
        exact (Option.some_ne_none _).symm

theorem smbNext_accounted (h : s.accounted) {e : SmbEvent F} (he : smbSystem.enabled s e) : (smbNext s e).accounted ↔ smbKeeps s e := by
  cases e with
  | init name smbconn => exact iff_of_true (h.init name smbconn) trivial
  | smbClose name =>
    refine iff_of_true ?_ trivial
    unfold smbNext
    dsimp only
    cases findSMBEnv s name with
    | none => exact h
    | some i => exact h
  | «open» f name reach accepts opens => exact iff_of_true (h.open (Option.isNone_iff_eq_none.mp he) name reach accepts opens) trivial
  | read f answers =>
    obtain ⟨file, hf⟩ := Option.isSome_iff_exists.mp he
    unfold smbNext smbKeeps
    dsimp only
    rw [hf]
    exact (h.read_iff hf).trans ⟨fun hk file' he' => Option.some.inj he' ▸ hk, fun hk => hk file rfl⟩
  | write f => exact iff_of_true h trivial
  | close f =>
    obtain ⟨file, hf⟩ := Option.isSome_iff_exists.mp he
    exact h.close_iff hf

end Calls

omit [DecidableEq F] in
theorem smbStart_accounted : (smbStart (F := F)).accounted := by
  have hd : (List.finRange SMB_FILEHANDLES_MAX).Nodup := List.nodup_finRange _
  have hall : ∀ fid, fid ∈ List.finRange SMB_FILEHANDLES_MAX := fun fid => List.mem_finRange fid
  have hhandle : (smbStart (F := F)).handle = fun _ => none := rfl
  unfold Smb.accounted
  rw [hhandle]
  unfold smbStart
  dsimp only
  exact Accounted.all_free hd hall

/-- **The file handles are accounted for** all along a run exactly when each step keeps them. -/
theorem smb_file_handles {es : List (SmbEvent F)} (hl : smbSystem.Legal smbStart es) :
    (smbSystem.restrict smbKeeps).Legal smbStart es ↔ ∀ pre, pre <+: es → (smbSystem.run smbStart pre).accounted :=
  System.Legal.always_iff (I := Smb.accounted) (fun _ _ h he => smbNext_accounted h he) smbStart_accounted hl

/-- A share that goes away for a while, and two files on it. -/
def smbSample : List (SmbEvent (Fin 2)) :=
  [.init 7 (some 0), .open 0 7 true true true, .open 1 7 true true true, .read 0 ⟨fun _ => false, fun _ => false, fun _ => true⟩, .write 1,
    .close 0, .close 1, .smbClose 7]

theorem smb_file_handles_sample : (smbSystem.restrict smbKeeps).Legal smbStart smbSample ↔
    ∀ pre, pre <+: smbSample → (smbSystem.run smbStart pre).accounted :=
  smb_file_handles (by decide +kernel)

/-- A file whose first read fails. -/
def smbReadFails : List (SmbEvent (Fin 2)) :=
  [.init 7 (some 0), .open 0 7 true true true, .read 0 ⟨fun k => decide (k = 1), fun _ => true, fun _ => true⟩]

/-- The file is opened again: its first handle is neither on the queue nor the file's. -/
theorem smb_read_leaks : smbSystem.Legal smbStart smbReadFails ∧ ¬ (smbSystem.run smbStart smbReadFails).accounted := by
  have hlost : Lost ⟨0, by decide⟩ (smbSystem.run smbStart smbReadFails).queue (smbSystem.run smbStart smbReadFails).handle :=
    ⟨by decide +kernel, by decide +kernel⟩
  exact ⟨by decide +kernel, hlost.not_accounted⟩

end Libogc
