import Libogc.Iso9660.Cached
/-!
# Directory — the scan of a directory of `iso9660.c`

`read_direntry` takes one record, and `read_directory` goes from record to record and from sector to sector, reading the rest of the
sector for each record.  Nothing it finds on the disc is checked.
-/
namespace Libogc

open Bytes

def OFFSET_EXTENDED : Nat := 1
def OFFSET_SECTOR : Nat := 6
def OFFSET_SIZE : Nat := 14
def OFFSET_FLAGS : Nat := 25
def OFFSET_NAMELEN : Nat := 32
def OFFSET_NAME : Nat := 33

def ISO_MAXPATHLEN : Nat := 128

/-- A `DIR_ENTRY` among the children of another.  The name is what was stored of it, before the zero that ends it. -/
structure IsoChild where
  name : List UInt8
  sector : Nat
  size : Nat
  flags : UInt8
  deriving DecidableEq, Repr

/-- The `DIR_ENTRY` that is scanned; `P` is what stands for its `PATH_ENTRY`. -/
structure IsoDir (P : Type) where
  sector : Nat
  size : Nat
  flags : UInt8
  pathEntry : Option P
  children : List IsoChild
  deriving DecidableEq, Repr

/-- What the scan reads of a mount: `iso_unicode`, and the sector of `iso_rootentry`. -/
structure IsoVolume where
  unicode : Bool
  rootSector : Nat
  deriving DecidableEq, Repr

/-- `flags & FLAG_DIR` -/
def isDir (flags : UInt8) : Bool := flags &&& 2 ≠ 0

/-- The name of a record, as it is stored in a child. -/
def isoStoredName (v : IsoVolume) (buf : Nat → UInt8) : List UInt8 :=
  let namelen := (buf OFFSET_NAMELEN).toNat
  if namelen = 1 ∧ buf OFFSET_NAME = 1 then [46, 46]
  else if v.unicode then (List.range (namelen / 2)).map fun i => buf (OFFSET_NAME + i * 2 + 1)
  else read buf OFFSET_NAME namelen

/-- `namelen` when the version suffix is looked for. -/
def isoStoredLength (v : IsoVolume) (buf : Nat → UInt8) : Nat :=
  let namelen := (buf OFFSET_NAMELEN).toNat
  if namelen = 1 ∧ buf OFFSET_NAME = 1 then namelen
  else if v.unicode then namelen / 2
  else namelen

/-- A semicolon before the last character of a file's name is made the end of the name. -/
def isoCutVersion (flags : UInt8) (namelen : Nat) (name : List UInt8) : List UInt8 :=
  if isDir flags = false ∧ namelen ≥ 2 ∧ name[namelen - 2]? = some 59 then name.set (namelen - 2) 0 else name

/-- `read_direntry`; `room` is whether there is memory for a child. -/
def isoReadDirentry {P : Type} (v : IsoVolume) (room : Bool) (entry : IsoDir P) (buf : Nat → UInt8) : IsoDir P × Int :=
  let sector := u32 (be32 buf OFFSET_SECTOR + (buf OFFSET_EXTENDED).toNat)
  let size := be32 buf OFFSET_SIZE
  let flags := buf OFFSET_FLAGS
  let namelen := buf OFFSET_NAMELEN
  if namelen = 1 ∧ buf OFFSET_NAME = 1 ∧ v.rootSector = entry.sector then (entry, (buf 0).toNat)
  else if namelen = 1 ∧ buf OFFSET_NAME = 0 then
    ({ entry with sector := sector, size := size, flags := flags }, (buf 0).toNat)
  else if room then
    let name := isoCutVersion flags (isoStoredLength v buf) (isoStoredName v buf)
    ({ entry with children := entry.children ++ [⟨name, sector, size, flags⟩] }, (buf 0).toNat)
  else (entry, -1)

/-- The variables of `read_directory`, with `cluster_buffer`; `passed` counts the sectors it is done with. -/
structure IsoScan (P : Type) where
  mount : IsoMount
  cluster : Nat → UInt8
  entry : IsoDir P
  sector : Nat
  remaining : Nat
  sectorOffset : Nat
  passed : Nat

/-- What a read leaves in `cluster_buffer`. -/
def isoFill (data : List UInt8) (cluster : Nat → UInt8) (i : Nat) : UInt8 := data.getD i (cluster i)

/-- The disc and the memory that a scan finds: `room` says which child there is memory for. -/
structure IsoWorld where
  disc : IsoDisc
  volume : IsoVolume
  room : Nat → Bool

variable {P : Type}

/-- The read at the head of a round. -/
def IsoScan.load (w : IsoWorld) (s : IsoScan P) : IsoScan P × Bool :=
  let r := isoReadChunk w.disc s.mount (s.sector * SECTOR_SIZE + s.sectorOffset) (SECTOR_SIZE - s.sectorOffset)
  ({ s with mount := r.1, cluster := isoFill r.2.2 s.cluster }, r.2.1 = (SECTOR_SIZE - s.sectorOffset : Nat))

/-- What follows `read_direntry` in a round: the size is taken over, and the scan moves on by `offset`. -/
def IsoScan.advance (path : P) (s : IsoScan P) (offset : Nat) : IsoScan P :=
  let s := if s.remaining = 0 then { s with remaining := s.entry.size, entry := { s.entry with pathEntry := some path } } else s
  let sectorOffset := s.sectorOffset + offset
  if sectorOffset ≥ SECTOR_SIZE ∨ s.cluster offset = 0 then
    { s with
      remaining := u32 (s.remaining + 2 ^ 32 - SECTOR_SIZE)
      sectorOffset := 0
      sector := u32 (s.sector + 1)
      passed := s.passed + 1 }
  else { s with sectorOffset := sectorOffset }

/-- One round of `read_directory`, with what it returns if it returns. -/
def IsoScan.round (w : IsoWorld) (path : P) (s : IsoScan P) : IsoScan P × Option Bool :=
  let r := s.load w
  let s := r.1
  if !r.2 then (s, some false)
  else
    let e := isoReadDirentry w.volume (w.room s.entry.children.length) s.entry s.cluster
    let s := { s with entry := e.1 }
    if e.2 = -1 then (s, some false)
    else
      let s := s.advance path e.2.toNat
      if s.remaining > 0 then (s, none) else (s, some true)

/-- `read_directory`, as far as a number of rounds goes. -/
def IsoScan.run (w : IsoWorld) (path : P) : Nat → IsoScan P → Option (IsoScan P × Bool)
  | 0, _ => none
  | n + 1, s =>
    match s.round w path with
    | (s, some ret) => some (s, ret)
    | (s, none) => s.run w path n

/-- The state in which `read_directory` starts, with an entry that was cleared. -/
def isoScanStart (mount : IsoMount) (cluster : Nat → UInt8) (sector : Nat) : IsoScan P where
  mount := mount
  cluster := cluster
  entry := ⟨0, 0, 0, none, []⟩
  sector := sector
  remaining := 0
  sectorOffset := 0
  passed := 0

end Libogc
