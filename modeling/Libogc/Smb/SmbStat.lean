import Libogc.Smb.SmbPath
import Libogc.Lib.Runs
/-!
# SmbStat — asking for a path after a directory was listed

`__smb_dirnext` keeps the entry it has given out last, with the directory it belongs to, and `__smb_stat` gives it out again for the path
that the two make.  No other call touches it.

The server, with the connection to it, is a parameter: what it has at a path, and what each request makes of it.  A write is what has been
flushed, to the file of the name that was kept when it was opened.  Calls that are about the paths of the one share are left; `d` stands for a directory iterator.
-/
namespace Libogc

open Runs

def SMB_SRCH_DIRECTORY : Nat := 16

/-- What the server tells of an entry. -/
structure SmbInfo where
  size : Nat
  ctime : Nat
  atime : Nat
  mtime : Nat
  attributes : Nat
  deriving DecidableEq, Repr

/-- `SMBDIRENTRY` -/
structure SmbDirEntry where
  info : SmbInfo
  name : List UInt8
  deriving DecidableEq, Repr

structure SmbServer (S : Type) where
  info : S → List UInt8 → Option SmbInfo
  openFile : S → List UInt8 → Nat → S
  writeFile : S → List UInt8 → Nat → List UInt8 → S
  closeFile : S → List UInt8 → S
  deleteFile : S → List UInt8 → S
  rename : S → List UInt8 → List UInt8 → S
  createDirectory : S → List UInt8 → S
  deleteDirectory : S → List UInt8 → S
  findFirst : S → List UInt8 → S × Option (Nat × SmbDirEntry)
  findNext : S → Nat → S × Option SmbDirEntry
  findClose : S → Nat → S

/-- `SMBDIRSTATESTRUCT` -/
structure SmbDirState where
  sid : Nat
  smbdir : SmbDirEntry
  dir : List UInt8
  deriving DecidableEq, Repr

/-- The share and the server; `last` is `last_path` and `last_dentry`. -/
structure SmbShare (S D : Type) where
  server : S
  currentpath : List UInt8
  firstItemDir : Bool
  diropenRoot : Bool
  last : Option (List UInt8 × SmbDirEntry)
  dirs : D → Option SmbDirState

/-- `struct stat`, as far as it is not the same for every entry.  Times are seconds and nanoseconds. -/
structure SmbStatBuf where
  directory : Bool
  size : Nat
  atime : Int × Nat
  mtime : Int × Nat
  ctime : Int × Nat
  deriving DecidableEq, Repr

inductive SmbStatErrno where
  | einval
  | enoent
  deriving DecidableEq, Repr

def smbTime (t : Nat) : Int × Nat := (t / 10000000 - 11644473600, t % 10000000 * 100)

def SmbInfo.isDirectory (i : SmbInfo) : Bool := i.attributes &&& SMB_SRCH_DIRECTORY ≠ 0

/-- `dentry_to_stat` -/
def dentryToStat (dentry : SmbDirEntry) : SmbStatBuf where
  directory := dentry.info.isDirectory
  size := dentry.info.size
  atime := smbTime dentry.info.atime
  mtime := smbTime dentry.info.mtime
  ctime := smbTime dentry.info.ctime

variable {S D : Type} [DecidableEq D]

section Calls
variable (srv : SmbServer S)

/-- `realfile` of `SMB_PathInfo` -/
def smbRealfile (filename : List UInt8) : List UInt8 := if filename.head? = some 92 then filename else 92 :: filename

/-- `SMB_PathInfo` -/
def smbPathInfo (server : S) (filename : List UInt8) : Option SmbDirEntry :=
  (srv.info server (smbRealfile filename)).map fun info => ⟨info, smbRealfile filename⟩

/-! ## Directories -/

/-- A directory, with the backslash at its end. -/
def smbDirPath (path : List UInt8) : List UInt8 := if path ≠ [] ∧ path.getLast? ≠ some 92 then path ++ [92] else path

omit [DecidableEq D] in
/-- The root need not be checked; another path must be a directory. -/
def SmbShare.isDirectory (s : SmbShare S D) (path : List UInt8) : Bool :=
  s.diropenRoot || (smbPathInfo srv s.server path).any fun dentry => dentry.info.isDirectory

/-- `__smb_diropen`; `reach` says whether the connection is there.  42 is the star. -/
def smbDiropen (s : SmbShare S D) (d : D) (path : List UInt8) (reach : Bool) : SmbShare S D :=
  match smbAbsolutePathNoDevice s.currentpath path with
  | none => s
  | some (pathAbsolute, _) =>
    let pathAbsolute := smbDirPath pathAbsolute
    let s := { s with diropenRoot := decide (pathAbsolute = [92]) }
    if !reach || !s.isDirectory srv pathAbsolute then s
    else
      match srv.findFirst s.server (pathAbsolute ++ [42]) with
      | (server, none) => { s with server := server }
      | (server, some (sid, dentry)) =>
        { s with server := server, firstItemDir := true, dirs := Function.update s.dirs d (some ⟨sid, dentry, pathAbsolute⟩) }

/-- `__smb_dirreset`: it lists the current path. -/
def smbDirreset (s : SmbShare S D) (d : D) (state : SmbDirState) : SmbShare S D :=
  let s := { s with server := srv.findClose s.server state.sid }
  match srv.findFirst s.server (s.currentpath ++ [42]) with
  | (server, none) => { s with server := server }
  | (server, some (sid, dentry)) =>
    if !dentry.info.isDirectory then { s with server := server }
    else { s with server := server, firstItemDir := true, dirs := Function.update s.dirs d (some ⟨sid, dentry, state.dir⟩) }

omit [DecidableEq D] in
/-- The entry that `__smb_dirnext` comes to. -/
def smbNextEntry (s : SmbShare S D) (state : SmbDirState) : S × Option SmbDirEntry :=
  if s.firstItemDir then (s.server, some state.smbdir)
  else
    match srv.findNext s.server state.sid with
    | (server, none) => (server, none)
    | (server, some dentry) => if s.diropenRoot ∧ dentry.name = [46, 46] then srv.findNext server state.sid else (server, some dentry)

/-- `__smb_dirnext` -/
def smbDirnext (s : SmbShare S D) (d : D) (state : SmbDirState) : SmbShare S D :=
  if s.currentpath = [] then s
  else
    match smbNextEntry srv s state with
    | (server, none) => { s with server := server }
    | (server, some dentry) =>
      { s with
        server := server
        firstItemDir := false
        last := some (state.dir, dentry)
        dirs := Function.update s.dirs d (some { state with smbdir := dentry }) }

/-! ## `__smb_stat` -/

omit [DecidableEq D] in
/-- The shortcut. -/
def SmbShare.shortcut (s : SmbShare S D) (path : List UInt8) : Option SmbDirEntry :=
  s.last.bind fun last => if last.1 ++ last.2.name = path then some last.2 else none

omit [DecidableEq D] in
/-- `__smb_stat` -/
def smbStat (s : SmbShare S D) (path : List UInt8) : Except SmbStatErrno SmbStatBuf :=
  if path = [46] ∨ path = [46, 46] then .ok ⟨true, 0, (0, 0), (0, 0), (0, 0)⟩
  else
    match smbAbsolutePathNoDevice s.currentpath path with
    | none => .error .einval
    | some (pathAbsolute, _) =>
      match s.shortcut pathAbsolute with
      | some dentry => .ok (dentryToStat dentry)
      | none =>
        match smbPathInfo srv s.server pathAbsolute with
        | none => .error .enoent
        | some dentry => if dentry.name = [] then .error .enoent else .ok (dentryToStat dentry)

/-! ## The system -/

inductive SmbShareEvent (D : Type) where
  | diropen (d : D) (path : List UInt8) (reach : Bool)
  | dirreset (d : D)
  | dirnext (d : D)
  | dirclose (d : D)
  | chdir (path : List UInt8) (reach : Bool)
  | open (path : List UInt8) (mode : Nat)
  | write (filename : List UInt8) (offset : Nat) (data : List UInt8)
  | close (filename : List UInt8)
  | unlink (name : List UInt8)
  | rename (oldName newName : List UInt8)
  | mkdir (name : List UInt8)
  | rmdir (name : List UInt8)

omit [DecidableEq D] in
/-- A call that sends a request about a path. -/
def SmbShare.request (s : SmbShare S D) (path : List UInt8) (server : List UInt8 → S) : SmbShare S D :=
  match smbAbsolutePathNoDevice s.currentpath path with
  | none => s
  | some (fixedName, _) => { s with server := server fixedName }

def smbShareNext (s : SmbShare S D) : SmbShareEvent D → SmbShare S D
  | .diropen d path reach => smbDiropen srv s d path reach
  | .dirreset d =>
    match s.dirs d with
    | none => s
    | some state => smbDirreset srv s d state
  | .dirnext d =>
    match s.dirs d with
    | none => s
    | some state => smbDirnext srv s d state
  | .dirclose d =>
    match s.dirs d with
    | none => s
    | some state => { s with server := srv.findClose s.server state.sid, dirs := Function.update s.dirs d none }
  | .chdir path reach =>
    let info := (smbAbsolutePathNoDevice s.currentpath path).bind fun p => smbPathInfo srv s.server p.1
    { s with currentpath := smbChdir s.currentpath path reach (info.map fun dentry => dentry.info.isDirectory) }
  | .open path mode => s.request path fun fixedName => srv.openFile s.server fixedName mode
  | .write filename offset data => { s with server := srv.writeFile s.server filename offset data }
  | .close filename => { s with server := srv.closeFile s.server filename }
  | .unlink name => s.request name (srv.deleteFile s.server)
  | .rename oldName newName =>
    match smbAbsolutePathNoDevice s.currentpath newName with
    | none => s
    | some (fixedNewName, _) => s.request oldName fun fixedOldName => srv.rename s.server fixedOldName fixedNewName
  | .mkdir name => s.request name (srv.createDirectory s.server)
  | .rmdir name => s.request name (srv.deleteDirectory s.server)

omit [DecidableEq D] in
def smbShareEnabled (s : SmbShare S D) : SmbShareEvent D → Bool
  | .diropen d _ _ => (s.dirs d).isNone
  | .dirreset d | .dirnext d | .dirclose d => (s.dirs d).isSome
  | _ => true

def smbShareSystem : System (SmbShare S D) (SmbShareEvent D) where
  enabled s e := smbShareEnabled s e = true
  next := smbShareNext srv

instance (s : SmbShare S D) (e : SmbShareEvent D) : Decidable ((smbShareSystem srv).enabled s e) := inferInstanceAs (Decidable (_ = _))

omit [DecidableEq D] in
/-- A share on which nothing was listed. -/
def smbShareStart (server : S) (currentpath : List UInt8) : SmbShare S D where
  server := server
  currentpath := currentpath
  firstItemDir := false
  diropenRoot := false
  last := none
  dirs _ := none

/-! ## What is remembered -/

omit [DecidableEq D] in
/-- **`__smb_stat` tells what the server has** at the path, or that there is nothing. -/
def SmbStatAgrees (s : SmbShare S D) (path : List UInt8) : Prop :=
  ∀ p reads, smbAbsolutePathNoDevice s.currentpath path = some (p, reads) →
    smbStat srv s path =
      match smbPathInfo srv s.server p with
      | none => .error .enoent
      | some dentry => .ok (dentryToStat dentry)

/-- What the server tells of a path. -/
def smbStatAt (server : S) (path : List UInt8) : Option SmbStatBuf := (smbPathInfo srv server path).map dentryToStat

/-- **A call that the remembered entry survives**: a listing comes to an entry that is as the server has it, at the path that will be asked
for; another call leaves what the server tells of the remembered path as it was. -/
def SmbKeepsLast (s : SmbShare S D) (e : SmbShareEvent D) : Prop :=
  match e with
  | .dirnext d =>
    ∀ state, s.dirs d = some state →
      match smbNextEntry srv s state with
      | (server, some dentry) => smbStatAt srv server (state.dir ++ dentry.name) = some (dentryToStat dentry)
      | (server, none) => ∀ dir dentry, s.last = some (dir, dentry) →
          smbStatAt srv server (dir ++ dentry.name) = smbStatAt srv s.server (dir ++ dentry.name)
  | e =>
    ∀ dir dentry, s.last = some (dir, dentry) →
      smbStatAt srv (smbShareNext srv s e).server (dir ++ dentry.name) = smbStatAt srv s.server (dir ++ dentry.name)

omit [DecidableEq D] in
/-- The remembered entry is as the server has it. -/
def SmbShare.Current (s : SmbShare S D) : Prop :=
  ∀ dir dentry, s.last = some (dir, dentry) → smbStatAt srv s.server (dir ++ dentry.name) = some (dentryToStat dentry)

end Calls

section Remembered
variable {srv : SmbServer S} {s : SmbShare S D}

omit [DecidableEq D] in
variable {path : List UInt8} {e : SmbShareEvent D}

theorem smbPathInfo_name {server : S} {dentry : SmbDirEntry} (h : smbPathInfo srv server path = some dentry) : dentry.name ≠ [] := by
  obtain ⟨info, -, rfl⟩ := Option.map_eq_some_iff.1 h
  unfold smbRealfile
  split
  · rename_i hfirst
    rintro rfl
    cases hfirst
  · exact List.cons_ne_nil _ _

omit [DecidableEq D] in
theorem SmbShare.Current.agrees (h : s.Current srv) (hdot : path ≠ [46]) (hdots : path ≠ [46, 46]) : SmbStatAgrees srv s path := by
  intro p reads hp
  unfold smbStat
  rw [if_neg (not_or.2 ⟨hdot, hdots⟩), hp]
  dsimp only
  cases hshort : s.shortcut p with
  | some dentry =>
    obtain ⟨⟨dir, dentry'⟩, hlast, heq⟩ := Option.bind_eq_some_iff.1 hshort
    split at heq
    · rename_i hpath
      obtain rfl := Option.some.inj heq
      obtain ⟨found, hfound, hsame⟩ := Option.map_eq_some_iff.1 (h dir dentry' hlast)
      rw [← hpath, hfound]
      exact congrArg Except.ok hsame.symm
    · cases heq
  | none =>
    cases hinfo : smbPathInfo srv s.server p with
    | none => rfl
    | some dentry => exact if_neg (smbPathInfo_name hinfo)

omit [DecidableEq D] in
theorem request_last (path : List UInt8) (server : List UInt8 → S) : (s.request path server).last = s.last := by
  unfold SmbShare.request
  split <;> rfl

theorem smbDiropen_last (d : D) (path : List UInt8) (reach : Bool) : (smbDiropen srv s d path reach).last = s.last := by
  unfold smbDiropen
  split
  · rfl
  · dsimp only
    split
    · rfl
    · split <;> rfl

theorem smbDirreset_last (d : D) (state : SmbDirState) : (smbDirreset srv s d state).last = s.last := by
  unfold smbDirreset
  dsimp only
  split
  · rfl
  · split <;> rfl

theorem smbShareNext_last (he : ∀ d, e ≠ .dirnext d) : (smbShareNext srv s e).last = s.last := by
  cases e with
  | diropen d path reach => exact smbDiropen_last d path reach
  | dirreset d =>
    rw [smbShareNext]
    split
    · rfl
    · exact smbDirreset_last d _
  | dirnext d => exact absurd rfl (he d)
  | dirclose d =>
    rw [smbShareNext]
    split <;> rfl
  | chdir path reach => rfl
  | rename oldName newName =>
    rw [smbShareNext]
    split
    · rfl
    · exact request_last _ _
  | «open» path mode => exact request_last _ _
  | write filename offset data => rfl
  | close filename => rfl
  | unlink name => exact request_last _ _
  | mkdir name => exact request_last _ _
  | rmdir name => exact request_last _ _

theorem SmbShare.Current.dirnext (h : s.Current srv) {d : D} (hkeep : SmbKeepsLast srv s (.dirnext d)) :
    (smbShareNext srv s (.dirnext d)).Current srv := by
  rw [smbShareNext]
  cases hd : s.dirs d with
  | none => exact h
  | some state =>
    have hkeep := hkeep state hd
    dsimp only
    unfold smbDirnext
    split
    · exact h
    · generalize smbNextEntry srv s state = entry at hkeep
      obtain ⟨server, found⟩ := entry
      cases found with
      | none => exact fun dir dentry hlast => (hkeep dir dentry hlast).trans (h dir dentry hlast)
      | some dentry =>
        intro dir dentry' hlast
        obtain ⟨rfl, rfl⟩ := Prod.mk.inj (Option.some.inj hlast)
        exact hkeep

theorem SmbShare.Current.step (h : s.Current srv) (hkeep : SmbKeepsLast srv s e) : (smbShareNext srv s e).Current srv := by
  by_cases he : ∃ d, e = .dirnext d
  · obtain ⟨d, rfl⟩ := he
    exact h.dirnext hkeep
  · have hne : ∀ d, e ≠ .dirnext d := fun d hd => he ⟨d, hd⟩
    have hsame : ∀ dir dentry, s.last = some (dir, dentry) →
        smbStatAt srv (smbShareNext srv s e).server (dir ++ dentry.name) = smbStatAt srv s.server (dir ++ dentry.name) := by
      cases e with
      | dirnext d => exact absurd rfl (hne d)
      | _ => exact hkeep
    intro dir dentry hlast
    rw [smbShareNext_last hne] at hlast
    rw [hsame dir dentry hlast]
    exact h dir dentry hlast

end Remembered

/-! ## A share with one file -/

/-- A server that has the file `f` in its root, or nothing. -/
def smbOneFile : SmbServer (Option SmbInfo) where
  info server path := if path = [92, 102] then server else none
  openFile server _ _ := server
  writeFile server path offset data :=
    server.map fun i => if path = [92, 102] then { i with size := max i.size (offset + data.length) } else i
  closeFile server _ := server
  deleteFile server path := if path = [92, 102] then none else server
  rename server _ _ := server
  createDirectory server _ := server
  deleteDirectory server _ := server
  findFirst server _ := (server, server.map fun i => (1, ⟨i, [102]⟩))
  findNext server _ := (server, none)
  findClose server _ := server

end Libogc
