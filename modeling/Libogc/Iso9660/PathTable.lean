import Libogc.Iso9660.Decode
import Libogc.Lib.Rose
/-!
# PathTable — the tree of directories of `iso9660.c`

`read_directories` finds the volume, and builds a tree of `PATH_ENTRY` from its path table.  A pointer into the tree is the address of a
node: children are only put behind others, so that it stays the same node wherever `realloc` moves it.
-/
namespace Libogc

open Bytes Rose

/-- `PATHTABLE_ENTRY`; of the name, what stands before the zero that ends it. -/
structure IsoTableEntry where
  nameLength : Nat
  extendedSectors : UInt8
  sector : Nat
  parent : Nat
  name : List UInt8
  deriving DecidableEq, Repr

/-- A `PATH_ENTRY` without its children. -/
structure IsoPathLabel where
  index : Nat
  entry : IsoTableEntry
  deriving DecidableEq, Repr

abbrev IsoPathEntry := Rose IsoPathLabel

def sizeofTableEntry : Nat := 136

/-- `sizeof(PATHTABLE_ENTRY) - ISO_MAXPATHLEN` -/
def tableHeader : Nat := 8

/-- `entry_from_index`, from the root -/
def isoEntryFromIndex (root : IsoPathEntry) (index : Nat) : Option (List Nat) := root.find? fun l => l.index = index

/-- `readSectors` of one sector. -/
def isoReadSector (d : IsoDisc) (m : IsoMount) (sector : Nat) : IsoMount × Bool :=
  match d.outcome m.reads with
  | none =>
    ({ m with
        readBuffer := fun i => if i < SECTOR_SIZE then d.bytes (sector * SECTOR_SIZE + i) else m.readBuffer i
        reads := m.reads + 1 }, true)
  | some junk => ({ m with readBuffer := junk, reads := m.reads + 1 }, false)

/-- `CD001` and a version of 1 -/
def isoSignature : List UInt8 := [67, 68, 48, 48, 49, 1]

/-- The loop of `read_volume_descriptor`, `n` sectors from its end; the descriptor it finds is in the read buffer. -/
def isoReadVolumeDescriptor (d : IsoDisc) (descriptor : UInt8) : Nat → Nat → IsoMount → IsoMount × Bool
  | 0, _, m => (m, false)
  | n + 1, sector, m =>
    let r := isoReadSector d m sector
    if !r.2 then (r.1, false)
    else if read r.1.readBuffer 1 6 = isoSignature then
      if r.1.readBuffer 0 = descriptor then (r.1, true)
      else if r.1.readBuffer 0 = 0xff then (r.1, false)
      else isoReadVolumeDescriptor d descriptor n (sector + 1) r.1
    else isoReadVolumeDescriptor d descriptor n (sector + 1) r.1

/-- The record that was read into a `PATHTABLE_ENTRY`. -/
def isoTableEntryOf (buf : Nat → UInt8) : IsoTableEntry where
  nameLength := (buf 0).toNat
  extendedSectors := buf 1
  sector := be32 buf 2
  parent := be16 (buf 6) (buf 7)
  name := read buf 8 128

/-- What becomes of it in the child. -/
def isoDecodeEntry (unicode : Bool) (e : IsoTableEntry) : IsoTableEntry :=
  if unicode then
    { e with name := (List.range (e.nameLength / 2)).map (fun i => e.name.getD (i * 2 + 1) 0), nameLength := e.nameLength / 2 }
  else { e with name := e.name.take e.nameLength }

/-- The variables of `read_directories` in its loop; `parent` is the address of a node. -/
structure IsoTableScan where
  mount : IsoMount
  root : IsoPathEntry
  parent : List Nat
  i : Nat
  offset : Nat

/-- Where the path table is. -/
structure IsoTable where
  unicode : Bool
  pathTable : Nat
  pathTableLen : Nat
  deriving DecidableEq, Repr

/-- `parent`, when it is not the node that the record names, is looked for. -/
def IsoTableScan.parentOf (s : IsoTableScan) (parent : Nat) : Option (List Nat) :=
  if (s.root.at? s.parent).map (fun u => u.label.index) ≠ some parent then isoEntryFromIndex s.root parent else some s.parent

/-- One round of the loop, with what it returns if it returns; `room` is whether there is memory for a child. -/
def IsoTableScan.round (d : IsoDisc) (t : IsoTable) (room : Bool) (s : IsoTableScan) : IsoTableScan × Bool :=
  let r := isoReadChunk d s.mount (t.pathTable * SECTOR_SIZE + s.offset) sizeofTableEntry
  let s := { s with mount := r.1 }
  if r.2.1 ≠ (sizeofTableEntry : Nat) then (s, false)
  else
    let entry := isoTableEntryOf fun i => r.2.2.getD i 0
    match s.parentOf entry.parent with
    | none => (s, false)
    | some parent =>
      let s := { s with parent := parent }
      if !room then (s, false)
      else
        let i := s.i + 1
        ({ s with
            root := s.root.addAt parent (.node ⟨i, isoDecodeEntry t.unicode entry⟩ [])
            i := i
            offset := s.offset + tableHeader + entry.nameLength + if entry.nameLength % 2 = 1 then 1 else 0 }, true)

/-- The loop; `i` counts up to 0xffff. -/
def IsoTableScan.run (d : IsoDisc) (t : IsoTable) (room : Nat → Bool) : Nat → IsoTableScan → IsoTableScan × Bool
  | 0, s => (s, true)
  | n + 1, s =>
    if s.i < 0xffff ∧ s.offset < t.pathTableLen then
      match s.round d t (room s.i) with
      | (s, true) => s.run d t room n
      | (s, false) => (s, false)
    else (s, true)

/-- A mount after `read_directories`, with what it returned. -/
structure IsoMounted where
  mount : IsoMount
  unicode : Bool
  volumeId : List UInt8
  rootentry : Option IsoPathEntry
  ret : Bool

/-- The root, from the record for it in the volume descriptor. -/
def isoRootLabel (volume : Nat → UInt8) : IsoPathLabel where
  index := 1
  entry :=
    { nameLength := 1
      extendedSectors := volume 157
      sector := be32 volume 162
      parent := 0
      name := [] }

/-- What `read_directories` does with a volume descriptor, which is in the read buffer; `room` is whether there is memory for the root,
and for the child after a number of nodes. -/
def isoReadTable (d : IsoDisc) (room : Nat → Bool) (m : IsoMount) (unicode : Bool) : IsoMounted :=
  if !room 0 then ⟨m, unicode, [], none, false⟩
  else
    let volume := m.readBuffer
    let table : IsoTable := ⟨unicode, be32 volume 148, be32 volume 136⟩
    let r := IsoTableScan.run d table room 0xffff ⟨m, .node (isoRootLabel volume) [], [], 1, tableHeader + 2⟩
    ⟨r.1.mount, unicode, read volume 40 31, some r.1.root, r.2⟩

/-- `read_directories` -/
def isoReadDirectories (d : IsoDisc) (room : Nat → Bool) (m : IsoMount) : IsoMounted :=
  let joliet := isoReadVolumeDescriptor d 2 16 16 m
  if joliet.2 then isoReadTable d room joliet.1 true
  else
    let primary := isoReadVolumeDescriptor d 1 16 16 joliet.1
    if primary.2 then isoReadTable d room primary.1 false
    else ⟨primary.1, false, [], none, false⟩

/-! ## The format -/

/-- A directory of the table but for the root.  The directories are numbered from 1, the root's number. -/
structure IsoDirRecord where
  extended : UInt8
  sector : Nat
  parent : Nat
  name : List UInt8
  sector_lt : sector < 2 ^ 32
  parent_lt : parent < 2 ^ 16
  name_pos : 1 ≤ name.length
  name_le : name.length ≤ 127

def IsoDirRecord.encode (r : IsoDirRecord) : List UInt8 :=
  lo8 r.name.length :: r.extended :: (bytes32 r.sector ++ ([hi8 r.parent, lo8 r.parent] ++
    (r.name ++ if r.name.length % 2 = 1 then [0] else [])))

/-- The record of the root. -/
def isoRootRecord (sector : Nat) : List UInt8 := [1, 0] ++ bytes32 sector ++ [0, 1, 0, 0]

/-- Every directory comes after the one that it is in, as it does in the order of levels. -/
def isoOrdered (recs : List IsoDirRecord) : Prop := ∀ k (h : k < recs.length), 1 ≤ (recs.get ⟨k, h⟩).parent ∧ (recs.get ⟨k, h⟩).parent ≤ k + 1

/-- The descriptor that the loop comes to, on the disc. -/
def isoFindDescriptor (bytes : Nat → UInt8) (descriptor : UInt8) : Nat → Nat → Option Nat
  | 0, _ => none
  | n + 1, sector =>
    if read bytes (sector * SECTOR_SIZE + 1) 6 = isoSignature then
      if bytes (sector * SECTOR_SIZE) = descriptor then some sector
      else if bytes (sector * SECTOR_SIZE) = 0xff then none
      else isoFindDescriptor bytes descriptor n (sector + 1)
    else isoFindDescriptor bytes descriptor n (sector + 1)

/-- The disc has a supplementary volume, which is Joliet's, or else a primary one. -/
def isoVolumeOf (bytes : Nat → UInt8) (unicode : Bool) (sector : Nat) : Prop :=
  if unicode then isoFindDescriptor bytes 2 16 16 = some sector
  else isoFindDescriptor bytes 2 16 16 = none ∧ isoFindDescriptor bytes 1 16 16 = some sector

/-- **The path table of a disc** is the encoding of these directories. -/
structure IsoPathTable (bytes : Nat → UInt8) (unicode : Bool) (volume : Nat) (rootSector : Nat) (recs : List IsoDirRecord) : Prop where
  volume_at : isoVolumeOf bytes unicode volume
  root_sector : be32 bytes (volume * SECTOR_SIZE + 162) = rootSector
  length : be32 bytes (volume * SECTOR_SIZE + 136) = (isoRootRecord rootSector ++ recs.flatMap IsoDirRecord.encode).length
  table : Stand bytes (be32 bytes (volume * SECTOR_SIZE + 148) * SECTOR_SIZE) (isoRootRecord rootSector ++ recs.flatMap IsoDirRecord.encode)
  inside : be32 bytes (volume * SECTOR_SIZE + 148) * SECTOR_SIZE +
    (isoRootRecord rootSector ++ recs.flatMap IsoDirRecord.encode).length + sizeofTableEntry ≤ isoEnd
  count : recs.length + 1 < 65535
  ordered : isoOrdered recs

/-! ## What the tree should be -/

/-- The name of a directory in the tree. -/
def IsoDirRecord.decoded (unicode : Bool) (r : IsoDirRecord) : List UInt8 :=
  if unicode then lowBytes r.name else r.name

/-- The node for a directory. -/
def IsoDirRecord.label (unicode : Bool) (r : IsoDirRecord) (index : Nat) : IsoPathLabel :=
  ⟨index, (r.decoded unicode).length, r.extended, r.sector, r.parent, r.decoded unicode⟩

/-- The numbers of the directories in the directory `k`, in the order of the table. -/
def isoInside (recs : List IsoDirRecord) (k : Nat) : List Nat :=
  ((recs.zipIdx 2).filter fun r => r.1.parent = k).map Prod.snd

/-- **A tree of these directories**: every number is a node's, and a node is the directory of its number, with the directories in it as
children, in the order of the table. -/
structure IsoTreeOf (unicode : Bool) (root : IsoPathLabel) (recs : List IsoDirRecord) (t : IsoPathEntry) : Prop where
  root_label : t.label = root
  indices : (t.keys IsoPathLabel.index).Perm (List.range' 1 (recs.length + 1))
  label : ∀ v ∈ t.nodes, v.label = root ∨ ∃ k, ∃ h : k < recs.length, v.label = (recs.get ⟨k, h⟩).label unicode (k + 2)
  children : ∀ v ∈ t.nodes, v.children.map (fun c => c.label.index) = isoInside recs v.label.index

/-! ## The volume -/

section Volume
variable {d : IsoDisc} {m : IsoMount}

theorem isoReadSector_spec (d : IsoDisc) (m : IsoMount) (sector : Nat) :
    let r := isoReadSector d m sector
    r.1.cacheSectors = m.cacheSectors ∧ r.1.reads = m.reads + 1 ∧
      ((r.2 = true ∧ ∀ i < SECTOR_SIZE, r.1.readBuffer i = d.bytes (sector * SECTOR_SIZE + i)) ∨
        (r.2 = false ∧ IsoFailed d m r.1)) := by
  unfold isoReadSector
  cases hout : d.outcome m.reads with
  | none => exact ⟨rfl, rfl, .inl ⟨rfl, fun i hi => if_pos hi⟩⟩
  | some junk =>
    refine ⟨rfl, rfl, .inr ⟨rfl, m.reads, Nat.le_refl _, Nat.lt_succ_self _, ?_⟩⟩
    rw [hout]
    exact Option.some_ne_none junk

/-- **The search for a descriptor** ends as it does on the disc, unless a read has failed. -/
theorem isoReadVolumeDescriptor_spec (descriptor : UInt8) (n : Nat) : ∀ (sector : Nat) (m : IsoMount),
    let r := isoReadVolumeDescriptor d descriptor n sector m
    r.1.cacheSectors = m.cacheSectors ∧ m.reads ≤ r.1.reads ∧
      ((r.2 = false ∧ IsoFailed d m r.1) ∨ (r.2 = false ∧ isoFindDescriptor d.bytes descriptor n sector = none) ∨
        (r.2 = true ∧ ∃ s, isoFindDescriptor d.bytes descriptor n sector = some s ∧
          ∀ i < SECTOR_SIZE, r.1.readBuffer i = d.bytes (s * SECTOR_SIZE + i))) := by
  induction n with
  | zero => exact fun sector m => ⟨rfl, Nat.le_refl _, .inr (.inl ⟨rfl, rfl⟩)⟩
  | succ n ih =>
    intro sector m
    obtain ⟨hcache, hreads, hor⟩ := isoReadSector_spec d m sector
    have hle : m.reads ≤ (isoReadSector d m sector).1.reads := Nat.le_trans (Nat.le_succ _) (Nat.le_of_eq hreads.symm)
    rw [isoReadVolumeDescriptor, isoFindDescriptor]
    dsimp only
    rcases hor with ⟨hok, hbuf⟩ | ⟨hno, hfail⟩
    · have hsig : read (isoReadSector d m sector).1.readBuffer 1 6 = read d.bytes (sector * SECTOR_SIZE + 1) 6 := by
        refine read_congr fun i hi => ?_
        rw [hbuf (1 + i) (by unfold SECTOR_SIZE; omega), Nat.add_assoc]
      have htype : (isoReadSector d m sector).1.readBuffer 0 = d.bytes (sector * SECTOR_SIZE) := by
        rw [hbuf 0 (by unfold SECTOR_SIZE; omega), Nat.add_zero]
      -- the rest of the search, after a sector with another descriptor or none
      have hnext := ih (sector + 1) (isoReadSector d m sector).1
      have hrest : let r := isoReadVolumeDescriptor d descriptor n (sector + 1) (isoReadSector d m sector).1
          r.1.cacheSectors = m.cacheSectors ∧ m.reads ≤ r.1.reads ∧
            ((r.2 = false ∧ IsoFailed d m r.1) ∨ (r.2 = false ∧ isoFindDescriptor d.bytes descriptor n (sector + 1) = none) ∨
              (r.2 = true ∧ ∃ s, isoFindDescriptor d.bytes descriptor n (sector + 1) = some s ∧
                ∀ i < SECTOR_SIZE, r.1.readBuffer i = d.bytes (s * SECTOR_SIZE + i))) := by
        obtain ⟨hcache', hreads', hor⟩ := hnext
        refine ⟨hcache'.trans hcache, Nat.le_trans hle hreads', ?_⟩
        rcases hor with ⟨hf, hfail⟩ | hor
        · exact .inl ⟨hf, hfail.trans hle⟩
        · exact .inr hor
      rw [hok, if_neg (by decide), hsig, htype]
      by_cases hs : read d.bytes (sector * SECTOR_SIZE + 1) 6 = isoSignature
      · rw [if_pos hs, if_pos hs]
        by_cases ht : d.bytes (sector * SECTOR_SIZE) = descriptor
        · rw [if_pos ht, if_pos ht]
          exact ⟨hcache, hle, .inr (.inr ⟨rfl, sector, rfl, hbuf⟩)⟩
        · rw [if_neg ht, if_neg ht]
          by_cases he : d.bytes (sector * SECTOR_SIZE) = 0xff
          · rw [if_pos he, if_pos he]
            exact ⟨hcache, hle, .inr (.inl ⟨rfl, rfl⟩)⟩
          · rw [if_neg he, if_neg he]
            exact hrest
      · rw [if_neg hs, if_neg hs]
        exact hrest
    · rw [hno, if_pos (by decide)]
      exact ⟨hcache, hle, .inl ⟨rfl, hfail⟩⟩

end Volume

/-! ## One record -/

section Record
variable {buf : Nat → UInt8} {r : IsoDirRecord}

theorem IsoDirRecord.encode_length (r : IsoDirRecord) :
    r.encode.length = tableHeader + r.name.length + if r.name.length % 2 = 1 then 1 else 0 := by
  unfold IsoDirRecord.encode bytes32 tableHeader
  simp only [List.length_cons, List.length_append, List.length_nil]
  split <;> simp only [List.length_cons, List.length_nil] <;> omega

theorem IsoDirRecord.encode_le (r : IsoDirRecord) : r.encode.length ≤ sizeofTableEntry := by
  have hle := r.name_le
  rw [r.encode_length]
  unfold tableHeader sizeofTableEntry
  split <;> omega

theorem isoDecodeEntry_spec (h : Stand buf 0 r.encode) (unicode : Bool) :
    (isoTableEntryOf buf).nameLength = r.name.length ∧ (isoTableEntryOf buf).parent = r.parent ∧
      ∀ index, IsoPathLabel.mk index (isoDecodeEntry unicode (isoTableEntryOf buf)) = r.label unicode index := by
  obtain ⟨hlen, h⟩ := stand_cons.mp h
  obtain ⟨hext, h⟩ := stand_cons.mp h
  obtain ⟨hsec, h⟩ := stand_append.mp h
  obtain ⟨hpar, h⟩ := stand_append.mp h
  obtain ⟨hname, -⟩ := stand_append.mp h
  obtain ⟨hhi, hpar⟩ := stand_cons.mp hpar
  obtain ⟨hlo, -⟩ := stand_cons.mp hpar
  have hle := r.name_le
  have hlength : (isoTableEntryOf buf).nameLength = r.name.length := by
    show (buf 0).toNat = r.name.length
    rw [hlen, lo8, UInt8.toNat_ofNat']
    exact Nat.mod_eq_of_lt (by omega)
  have hparent : (isoTableEntryOf buf).parent = r.parent := by
    show be16 (buf 6) (buf 7) = r.parent
    rw [show buf 6 = hi8 r.parent from hhi, show buf 7 = lo8 r.parent from hlo, be16_hi_lo r.parent_lt]
  have hsector : (isoTableEntryOf buf).sector = r.sector := be32_of_stand r.sector_lt hsec
  have hstand : Stand buf 8 r.name := hname
  -- the name is what the array begins with
  have htake : (isoTableEntryOf buf).name.take r.name.length = r.name := by
    show (read buf 8 128).take r.name.length = r.name
    rw [show 128 = r.name.length + (128 - r.name.length) by omega, read_add, List.take_left' (read_length ..)]
    exact hstand
  refine ⟨hlength, hparent, fun index => ?_⟩
  unfold isoDecodeEntry IsoDirRecord.label IsoDirRecord.decoded
  cases unicode with
  | true =>
    have hlow : (List.range (r.name.length / 2)).map (fun i => (isoTableEntryOf buf).name.getD (i * 2 + 1) 0) = lowBytes r.name := by
      rw [← range_map_lowBytes buf 8 r.name hstand]
      refine List.map_congr_left fun i hi => ?_
      have hi := List.mem_range.mp hi
      show (read buf 8 128).getD (i * 2 + 1) 0 = buf (8 + i * 2 + 1)
      rw [read_getD (by omega), Nat.add_assoc]
    rw [if_pos rfl, if_pos rfl, hlength, hlow, lowBytes_length, hsector, hparent]
    exact congrArg (fun x => IsoPathLabel.mk index ⟨_, x, _, _, _⟩) hext
  | false =>
    rw [if_neg Bool.false_ne_true, if_neg Bool.false_ne_true, hlength, htake, hsector, hparent]
    exact congrArg (fun x => IsoPathLabel.mk index ⟨_, x, _, _, _⟩) hext

end Record

/-! ## The tree -/

section Tree
variable {unicode : Bool} {root : IsoPathLabel} {recs : List IsoDirRecord} {r : IsoDirRecord} {t u : IsoPathEntry} {path : List Nat}

theorem isoInside_concat (recs : List IsoDirRecord) (r : IsoDirRecord) (k : Nat) :
    isoInside (recs ++ [r]) k = isoInside recs k ++ if r.parent = k then [recs.length + 2] else [] := by
  unfold isoInside
  rw [List.zipIdx_append, List.filter_append, List.map_append, Nat.add_comm 2]
  congr 1
  by_cases h : r.parent = k <;> simp [h]

theorem isoInside_eq_nil {k : Nat} (h : ∀ r ∈ recs, r.parent ≠ k) : isoInside recs k = [] := by
  unfold isoInside
  rw [List.filter_eq_nil_iff.mpr, List.map_nil]
  intro r hr
  simpa using h r.1 (List.fst_mem_of_mem_zipIdx hr)

theorem isoOrdered.le (h : isoOrdered recs) (hr : r ∈ recs) : r.parent ≤ recs.length := by
  obtain ⟨k, rfl⟩ := List.get_of_mem hr
  exact Nat.le_trans (h k k.isLt).2 k.isLt

theorem IsoTreeOf.lone (root : IsoPathLabel) (hroot : root.index = 1) : IsoTreeOf unicode root [] (.node root []) where
  root_label := rfl
  indices := by
    rw [keys_node, hroot]
    exact .refl _
  label := by
    intro v hv
    obtain rfl := List.mem_singleton.mp hv
    exact .inl rfl
  children := by
    intro v hv
    obtain rfl := List.mem_singleton.mp hv
    rfl

theorem IsoTreeOf.node_of_index (h : IsoTreeOf unicode root recs t) {k : Nat} (hk : 1 ≤ k) (hk' : k ≤ recs.length + 1) :
    ∃ u ∈ t.nodes, u.label.index = k := by
  have hmem : k ∈ t.keys IsoPathLabel.index := by
    rw [h.indices.mem_iff, List.mem_range'_1]
    omega
  obtain ⟨u, hu, rfl⟩ := List.mem_map.mp hmem
  exact ⟨u, hu, rfl⟩

theorem IsoTreeOf.addAt (h : IsoTreeOf unicode root recs t) (hord : isoOrdered recs) (hr : r.parent ≤ recs.length + 1)
    (hu : t.at? path = some u) (hindex : u.label.index = r.parent) :
    IsoTreeOf unicode root (recs ++ [r]) (t.addAt path (.node (r.label unicode (recs.length + 2)) [])) := by
  have hnodup : (t.keys IsoPathLabel.index).Nodup := h.indices.nodup_iff.mpr List.nodup_range'
  refine ⟨?_, ?_, ?_, ?_⟩
  · rw [addAt_label, h.root_label]
  · refine (addAt_keys IsoPathLabel.index _ hu).trans ?_
    rw [List.length_append, List.length_singleton, List.range'_1_concat, Nat.add_comm 1]
    exact List.perm_append_comm.trans (h.indices.append_right _)
  · intro v hv
    rcases addAt_nodes _ hnodup hu v hv with hv | ⟨v₀, hv₀, hlabel, -⟩
    · obtain rfl := List.mem_singleton.mp hv
      refine .inr ⟨recs.length, by simp, ?_⟩
      show r.label unicode _ = _
      rw [List.get_eq_getElem, List.getElem_concat_length rfl]
    · rcases h.label v₀ hv₀ with he | ⟨k, hk, he⟩
      · exact .inl (hlabel.trans he)
      · refine .inr ⟨k, by simp; omega, ?_⟩
        rw [hlabel, he, List.get_eq_getElem, List.get_eq_getElem, List.getElem_append_left hk]
  · intro v hv
    rw [isoInside_concat]
    rcases addAt_nodes _ hnodup hu v hv with hv | ⟨v₀, hv₀, hlabel, hgrown⟩
    · -- nothing is in a directory yet when its record is read
      obtain rfl := List.mem_singleton.mp hv
      have hnone : isoInside recs (recs.length + 2) = [] := by
        refine isoInside_eq_nil fun r hr => ?_
        have := hord.le hr
        omega
      show [] = isoInside recs (recs.length + 2) ++ if r.parent = recs.length + 2 then _ else _
      rw [hnone, if_neg (by omega), List.append_nil]
    · have hchildren := h.children v₀ hv₀
      rw [hlabel, ← hchildren]
      have hmap : ∀ l : List IsoPathEntry, l.map (fun c => c.label.index) = (l.map Rose.label).map IsoPathLabel.index := by
        intro l
        rw [List.map_map]
        rfl
      rw [hmap, hmap]
      rcases hgrown with ⟨hne, hsame⟩ | ⟨heq, hmore⟩
      · rw [if_neg (fun he => hne (he.symm.trans hindex.symm)), hsame, List.append_nil]
      · rw [if_pos (hindex.symm.trans heq.symm), hmore, List.map_append]
        rfl

end Tree

/-! ## The loop -/

/-- The loop after the directories `recs`. -/
structure IsoTableScan.At (d : IsoDisc) (unicode : Bool) (root : IsoPathLabel) (recs : List IsoDirRecord) (s : IsoTableScan) : Prop where
  cached : s.mount.Cached d
  tree : IsoTreeOf unicode root recs s.root
  parent : ∃ u, s.root.at? s.parent = some u
  counted : s.i = recs.length + 1
  place : s.offset = tableHeader + 2 + (recs.flatMap IsoDirRecord.encode).length

/-- The path table that the loop goes over. -/
structure IsoTable.Holds (bytes : Nat → UInt8) (t : IsoTable) (recs : List IsoDirRecord) : Prop where
  length : t.pathTableLen = tableHeader + 2 + (recs.flatMap IsoDirRecord.encode).length
  table : Stand bytes (t.pathTable * SECTOR_SIZE + (tableHeader + 2)) (recs.flatMap IsoDirRecord.encode)
  inside : t.pathTable * SECTOR_SIZE + t.pathTableLen + sizeofTableEntry ≤ isoEnd
  count : recs.length + 1 < 65535
  ordered : isoOrdered recs

section Loop
variable {d : IsoDisc} {t : IsoTable} {root : IsoPathLabel} {recs done rest : List IsoDirRecord} {r : IsoDirRecord} {s : IsoTableScan}
  {room : Nat → Bool}

theorem isoOrdered.take (h : isoOrdered (done ++ rest)) : isoOrdered done := by
  intro k hk
  have hk' : k < (done ++ rest).length := by
    rw [List.length_append]
    omega
  have hle := h k hk'
  rw [List.get_eq_getElem, List.getElem_append_left hk] at hle
  exact hle

theorem isoOrdered.next (h : isoOrdered (done ++ r :: rest)) : 1 ≤ r.parent ∧ r.parent ≤ done.length + 1 := by
  have hlt : done.length < (done ++ r :: rest).length := by
    rw [List.length_append, List.length_cons]
    omega
  have hle := h done.length hlt
  rw [List.get_eq_getElem, List.getElem_append_right (Nat.le_refl _)] at hle
  simpa using hle

theorem IsoTableScan.At.parentOf (h : s.At d t.unicode root done) {parent : Nat} (hpos : 1 ≤ parent) (hle : parent ≤ done.length + 1) :
    ∃ path u, s.parentOf parent = some path ∧ s.root.at? path = some u ∧ u.label.index = parent := by
  obtain ⟨u, hu⟩ := h.parent
  unfold IsoTableScan.parentOf
  rw [hu]
  by_cases hcached : u.label.index = parent
  · refine ⟨s.parent, u, if_neg ?_, hu, hcached⟩
    rw [Option.map_some, hcached]
    exact not_not_intro rfl
  · obtain ⟨v, hv, hindex⟩ := h.tree.node_of_index hpos hle
    obtain ⟨path, hpath⟩ := find?_isSome (fun l : IsoPathLabel => l.index = parent) s.root v hv (decide_eq_true hindex)
    obtain ⟨w, hw, hw'⟩ := find?_some _ s.root path hpath
    refine ⟨path, w, ?_, hw, of_decide_eq_true hw'⟩
    rw [if_pos]
    · exact hpath
    · rw [Option.map_some]
      exact fun he => hcached (Option.some.inj he)

/-- **One round** adds the next directory, unless a read fails or memory is short. -/
theorem IsoTableScan.round_spec (ht : t.Holds d.bytes recs) (h : s.At d t.unicode root done) (hrecs : recs = done ++ r :: rest)
    (room : Bool) :
    let res := s.round d t room
    (res.2 = true ∧ res.1.At d t.unicode root (done ++ [r]) ∧ s.mount.reads ≤ res.1.mount.reads) ∨
      (res.2 = false ∧ (IsoFailed d s.mount res.1.mount ∨ room = false)) := by
  have hord := ht.ordered
  have htable := ht.table
  have hinside := ht.inside
  rw [ht.length] at hinside
  rw [hrecs] at hord htable hinside
  rw [List.flatMap_append, List.flatMap_cons] at htable hinside
  rw [List.length_append, List.length_append] at hinside
  obtain ⟨-, hrest⟩ := stand_append.mp htable
  obtain ⟨hr, -⟩ := stand_append.mp hrest
  rw [Nat.add_assoc, ← h.place] at hr
  have hlt : t.pathTable * SECTOR_SIZE + s.offset + sizeofTableEntry ≤ isoEnd := by
    rw [h.place]
    omega
  have hchunk : isoChunkLength (t.pathTable * SECTOR_SIZE + s.offset) sizeofTableEntry = sizeofTableEntry := by
    unfold isoChunkLength BUFFER_SIZE SECTOR_SIZE sizeofTableEntry
    omega
  obtain ⟨hc, hreads, hor⟩ := isoReadChunk_spec h.cached (by decide) hlt
  rw [hchunk] at hor
  unfold IsoTableScan.round
  dsimp only
  rcases hor with ⟨hret, hdata⟩ | ⟨hret, hfail⟩
  · have hbuf : Stand (fun i => (read d.bytes (t.pathTable * SECTOR_SIZE + s.offset) sizeofTableEntry).getD i 0) 0 r.encode :=
      hr.copy fun i hi => read_getD (Nat.lt_of_lt_of_le hi r.encode_le) 0
    obtain ⟨hname, hparent, hentry⟩ := isoDecodeEntry_spec hbuf t.unicode
    obtain ⟨hpos, hle⟩ := hord.next
    obtain ⟨path, u, hpath, hu, hindex⟩ := h.parentOf hpos hle
    have hpath' : ({ s with mount := (isoReadChunk d s.mount (t.pathTable * SECTOR_SIZE + s.offset) sizeofTableEntry).1 } :
        IsoTableScan).parentOf r.parent = some path := hpath
    rw [hret, if_neg (not_not_intro rfl), hdata, hparent, hpath']
    dsimp only
    cases room with
    | false => exact .inr ⟨rfl, .inr rfl⟩
    | true =>
      refine .inl ⟨rfl, ⟨hc, ?_, ?_, ?_, ?_⟩, hreads⟩
      · have htree := h.tree.addAt hord.take hle hu hindex
        rw [← hentry] at htree
        rw [h.counted]
        exact htree
      · exact ⟨_, addAt_at? _ hu⟩
      · rw [h.counted, List.length_append]
        rfl
      · show s.offset + tableHeader + (isoTableEntryOf _).nameLength + (if (isoTableEntryOf _).nameLength % 2 = 1 then 1 else 0) = _
        rw [hname, h.place, List.flatMap_append, List.length_append, List.flatMap_cons, List.flatMap_nil, List.append_nil,
          r.encode_length]
        omega
  · rw [hret, if_pos (by decide)]
    exact .inr ⟨rfl, .inl hfail⟩

theorem IsoTableScan.run_spec (ht : t.Holds d.bytes recs) : ∀ {rest done : List IsoDirRecord} {s : IsoTableScan} {n : Nat},
    s.At d t.unicode root done → recs = done ++ rest → rest.length < n →
    let res := s.run d t room n
    (res.2 = true ∧ res.1.At d t.unicode root recs) ∨
      (res.2 = false ∧ (IsoFailed d s.mount res.1.mount ∨ ∃ k, room k = false))
  | [], done, s, n + 1, h, hrecs, _ => by
    have hdone : recs = done := hrecs.trans (List.append_nil _)
    rw [IsoTableScan.run, if_neg]
    · exact .inl ⟨rfl, hdone ▸ h⟩
    · rw [ht.length, h.place, hdone]
      exact fun he => Nat.lt_irrefl _ he.2
  | r :: rest, done, s, n + 1, h, hrecs, hn => by
    have hgo : s.i < 0xffff ∧ s.offset < t.pathTableLen := by
      have hcount := ht.count
      rw [hrecs, List.length_append, List.length_cons] at hcount
      rw [ht.length, h.place, h.counted, hrecs, List.flatMap_append, List.length_append, List.flatMap_cons, List.length_append,
        r.encode_length]
      unfold tableHeader
      omega
    rw [IsoTableScan.run, if_pos hgo]
    have hround := round_spec ht h hrecs (room s.i)
    generalize s.round d t (room s.i) = res at hround
    obtain ⟨s', ok⟩ := res
    rcases hround with ⟨rfl, hat, hreads⟩ | ⟨rfl, hwhy⟩
    · have hnext := run_spec ht hat (hrecs.trans (List.append_cons done r rest)) (Nat.lt_of_succ_lt_succ hn)
      rcases hnext with hok | ⟨hno, hwhy⟩
      · exact .inl hok
      · exact .inr ⟨hno, hwhy.imp_left fun hfail => hfail.trans hreads⟩
    · exact .inr ⟨rfl, hwhy.imp_right fun hroom => ⟨_, hroom⟩⟩

end Loop

/-! ## The volume's tree -/

section Read
variable {d : IsoDisc} {room : Nat → Bool} {m : IsoMount} {unicode : Bool} {volume rootSector : Nat} {recs : List IsoDirRecord}

theorem isoReadChunk_reads_le (d : IsoDisc) (m : IsoMount) (offset len : Nat) : m.reads ≤ (isoReadChunk d m offset len).1.reads := by
  unfold isoReadChunk isoReadSectors
  dsimp only
  split
  · exact Nat.le_refl _
  · split
    · split <;> exact Nat.le_succ _
    · split <;> exact Nat.le_succ _

theorem IsoTableScan.round_reads_le (t : IsoTable) (room : Bool) (s : IsoTableScan) : s.mount.reads ≤ (s.round d t room).1.mount.reads := by
  have hle := isoReadChunk_reads_le d s.mount (t.pathTable * SECTOR_SIZE + s.offset) sizeofTableEntry
  unfold IsoTableScan.round
  dsimp only
  split
  · exact hle
  · split
    · exact hle
    · split <;> exact hle

theorem IsoTableScan.run_reads_le (t : IsoTable) (n : Nat) : ∀ s : IsoTableScan, s.mount.reads ≤ (s.run d t room n).1.mount.reads := by
  induction n with
  | zero => exact fun s => Nat.le_refl _
  | succ n ih =>
    intro s
    have hle := round_reads_le (d := d) t (room s.i) s
    rw [IsoTableScan.run]
    split
    · generalize s.round d t (room s.i) = res at hle
      obtain ⟨s', ok⟩ := res
      cases ok with
      | true => exact Nat.le_trans hle (ih s')
      | false => exact hle
    · exact Nat.le_refl _

theorem isoReadTable_reads_le (m : IsoMount) (unicode : Bool) : m.reads ≤ (isoReadTable d room m unicode).mount.reads := by
  unfold isoReadTable
  dsimp only
  split
  · exact Nat.le_refl _
  · exact IsoTableScan.run_reads_le ⟨unicode, be32 m.readBuffer 148, be32 m.readBuffer 136⟩ 0xffff
      ⟨m, .node (isoRootLabel m.readBuffer) [], [], 1, tableHeader + 2⟩

theorem IsoFailed.mono {m' m'' : IsoMount} (h : IsoFailed d m m') (hle : m'.reads ≤ m''.reads) : IsoFailed d m m'' := by
  obtain ⟨n, hn, hn', hout⟩ := h
  exact ⟨n, hn, Nat.lt_of_lt_of_le hn' hle, hout⟩

theorem isoRootRecord_length (sector : Nat) : (isoRootRecord sector).length = tableHeader + 2 := rfl

theorem isoReadTable_spec (hp : IsoPathTable d.bytes unicode volume rootSector recs) (hm : m.Cached d)
    (hbuf : ∀ i < SECTOR_SIZE, m.readBuffer i = d.bytes (volume * SECTOR_SIZE + i)) :
    let res := isoReadTable d room m unicode
    (res.ret = true ∧ res.unicode = unicode ∧ ∃ t, res.rootentry = some t ∧
        IsoTreeOf unicode ⟨1, 1, d.bytes (volume * SECTOR_SIZE + 157), rootSector, 0, []⟩ recs t) ∨
      (res.ret = false ∧ (IsoFailed d m res.mount ∨ ∃ k, room k = false)) := by
  have hword : ∀ o, o + 4 ≤ SECTOR_SIZE → be32 m.readBuffer o = be32 d.bytes (volume * SECTOR_SIZE + o) := by
    intro o ho
    unfold be32
    rw [hbuf o (by omega), hbuf (o + 1) (by omega), hbuf (o + 2) (by omega), hbuf (o + 3) (by omega), Nat.add_assoc, Nat.add_assoc,
      Nat.add_assoc]
  have hroot : isoRootLabel m.readBuffer = ⟨1, 1, d.bytes (volume * SECTOR_SIZE + 157), rootSector, 0, []⟩ := by
    unfold isoRootLabel
    rw [hbuf 157 (by unfold SECTOR_SIZE; omega), hword 162 (by unfold SECTOR_SIZE; omega), hp.root_sector]
  unfold isoReadTable
  dsimp only
  by_cases hroom : room 0 = true
  · rw [hword 148 (by unfold SECTOR_SIZE; omega), hword 136 (by unfold SECTOR_SIZE; omega), hroot, hroom]
    have hlen := hp.length
    have hinside := hp.inside
    rw [List.length_append, isoRootRecord_length] at hlen hinside
    have ht : IsoTable.Holds d.bytes
        ⟨unicode, be32 d.bytes (volume * SECTOR_SIZE + 148), be32 d.bytes (volume * SECTOR_SIZE + 136)⟩ recs := by
      refine ⟨hlen, (stand_append.mp hp.table).2, ?_, hp.count, hp.ordered⟩
      show _ + be32 d.bytes (volume * SECTOR_SIZE + 136) + _ ≤ _
      rw [hlen]
      exact hinside
    have hstart : IsoTableScan.At d unicode ⟨1, 1, d.bytes (volume * SECTOR_SIZE + 157), rootSector, 0, []⟩ []
        ⟨m, .node ⟨1, 1, d.bytes (volume * SECTOR_SIZE + 157), rootSector, 0, []⟩ [], [], 1, tableHeader + 2⟩ :=
      ⟨hm, .lone _ rfl, ⟨_, rfl⟩, rfl, rfl⟩
    have hcount := hp.count
    rcases IsoTableScan.run_spec ht hstart rfl (by omega : recs.length < 0xffff) with ⟨hok, hat⟩ | ⟨hno, hwhy⟩
    · exact .inl ⟨hok, rfl, _, rfl, hat.tree⟩
    · exact .inr ⟨hno, hwhy⟩
  · rw [if_pos (by rw [Bool.not_eq_true] at hroom; rw [hroom]; rfl)]
    exact .inr ⟨rfl, .inr ⟨0, Bool.not_eq_true _ ▸ hroom⟩⟩

end Read

/-- **The path table is decoded.**  On a disc with the path table of these directories, `read_directories` succeeds with their tree, unless
a read of sectors fails or memory is short. -/
theorem iso_path_table_decode (d : IsoDisc) (room : Nat → Bool) (buffer : Nat → UInt8) (unicode : Bool) (volume rootSector : Nat)
    (recs : List IsoDirRecord) (hp : IsoPathTable d.bytes unicode volume rootSector recs) :
    let m := isoFresh buffer
    let res := isoReadDirectories d room m
    (res.ret = true ∧ res.unicode = unicode ∧ ∃ t, res.rootentry = some t ∧
        IsoTreeOf unicode ⟨1, 1, d.bytes (volume * SECTOR_SIZE + 157), rootSector, 0, []⟩ recs t) ∨
      IsoFailed d m res.mount ∨ (res.ret = false ∧ ∃ k, room k = false) := by
  intro m res
  have hres : res = isoReadDirectories d room m := rfl
  clear_value res
  unfold isoReadDirectories at hres
  dsimp only at hres
  obtain ⟨hcache, hreads, hjoliet⟩ := isoReadVolumeDescriptor_spec (d := d) 2 16 16 m
  generalize isoReadVolumeDescriptor d 2 16 16 m = joliet at hres hcache hreads hjoliet
  obtain ⟨m₁, ok₁⟩ := joliet
  dsimp only at hres hcache hreads hjoliet
  obtain ⟨hcache', hreads', hprimary⟩ := isoReadVolumeDescriptor_spec (d := d) 1 16 16 m₁
  generalize isoReadVolumeDescriptor d 1 16 16 m₁ = primary at hres hcache' hreads' hprimary
  obtain ⟨m₂, ok₂⟩ := primary
  dsimp only at hres hcache' hreads' hprimary
  -- what was read later is counted on
  have hlater : ok₁ = false → m₂.reads ≤ res.mount.reads := by
    rintro rfl
    rw [hres, if_neg Bool.false_ne_true]
    cases ok₂ with
    | true => exact isoReadTable_reads_le m₂ false
    | false => exact Nat.le_refl _
  -- what the table makes of a descriptor that is in the buffer
  have htable : ∀ m' : IsoMount, m'.cacheSectors = 0 → m.reads ≤ m'.reads →
      (∀ i < SECTOR_SIZE, m'.readBuffer i = d.bytes (volume * SECTOR_SIZE + i)) → res = isoReadTable d room m' unicode →
      (res.ret = true ∧ res.unicode = unicode ∧ ∃ t, res.rootentry = some t ∧
          IsoTreeOf unicode ⟨1, 1, d.bytes (volume * SECTOR_SIZE + 157), rootSector, 0, []⟩ recs t) ∨
        IsoFailed d m res.mount ∨ (res.ret = false ∧ ∃ k, room k = false) := by
    intro m' hempty hle hbuf he
    rw [he]
    rcases isoReadTable_spec hp (.inl hempty) hbuf with hgood | ⟨hno, hfail | hroom⟩
    · exact .inl hgood
    · exact .inr (.inl (hfail.trans hle))
    · exact .inr (.inr ⟨hno, hroom⟩)
  have hvolume := hp.volume_at
  rcases hjoliet with ⟨rfl, hfail⟩ | ⟨rfl, hnone⟩ | ⟨rfl, v, hv, hbuf⟩
  · exact .inr (.inl (hfail.mono (Nat.le_trans hreads' (hlater rfl))))
  · -- not a Joliet disc
    cases unicode with
    | true => exact absurd (hnone.symm.trans hvolume) (Option.some_ne_none _).symm
    | false =>
      obtain ⟨-, hvolume⟩ := hvolume
      rcases hprimary with ⟨rfl, hfail⟩ | ⟨rfl, hnone'⟩ | ⟨rfl, v, hv, hbuf⟩
      · exact .inr (.inl ((hfail.trans hreads).mono (hlater rfl)))
      · exact absurd (hnone'.symm.trans hvolume) (Option.some_ne_none _).symm
      · obtain rfl := Option.some.inj (hv.symm.trans hvolume)
        exact htable m₂ (hcache'.trans hcache) (Nat.le_trans hreads hreads') hbuf hres
  · cases unicode with
    | true =>
      obtain rfl := Option.some.inj (hv.symm.trans hvolume)
      exact htable m₁ hcache hreads hbuf hres
    | false => exact absurd (hvolume.1.symm.trans hv) (Option.some_ne_none _).symm

/-- Two directories of a Joliet disc, and one in the second of them. -/
def isoSampleDirs : List IsoDirRecord :=
  [⟨0, 30, 1, [0, 65], by decide, by decide, by decide, by decide⟩, ⟨0, 31, 1, [0, 66, 0, 67], by decide, by decide, by decide, by decide⟩,
    ⟨0, 32, 3, [0, 68], by decide, by decide, by decide, by decide⟩]

/-- A disc with a supplementary volume in its sector 16 and the path table of these directories in sector 20. -/
def isoSampleTable : IsoDisc where
  bytes := fun i =>
    if i / SECTOR_SIZE = 16 then
      match i % SECTOR_SIZE with
      | 0 => 2
      | 1 => 67
      | 2 => 68
      | 3 => 48
      | 4 => 48
      | 5 => 49
      | 6 => 1
      | 139 => 42
      | 151 => 20
      | 165 => 29
      | _ => 0
    else if i / SECTOR_SIZE = 20 then (isoRootRecord 29 ++ isoSampleDirs.flatMap IsoDirRecord.encode).getD (i % SECTOR_SIZE) 0
    else 0
  outcome := fun _ => none

theorem iso_path_table_decode_sample :
    let res := isoReadDirectories isoSampleTable (fun _ => true) (isoFresh fun _ => 0)
    res.ret = true ∧ res.unicode = true ∧ ∃ t, res.rootentry = some t ∧ IsoTreeOf true ⟨1, 1, 0, 29, 0, []⟩ isoSampleDirs t := by
  have hp : IsoPathTable isoSampleTable.bytes true 16 29 isoSampleDirs := by
    refine ⟨?_, ?_, ?_, ?_, ?_, ?_, ?_⟩
    · show isoFindDescriptor isoSampleTable.bytes 2 16 16 = some 16
      decide +kernel
    · decide +kernel
    · decide +kernel
    · decide +kernel
    · decide +kernel
    · decide +kernel
    · unfold isoOrdered
      decide +kernel
  rcases iso_path_table_decode isoSampleTable (fun _ => true) (fun _ => 0) true 16 29 isoSampleDirs hp with hgood | ⟨n, -, -, hout⟩ | ⟨-, k, hk⟩
  · exact hgood
  · exact absurd rfl hout
  · cases hk

end Libogc
