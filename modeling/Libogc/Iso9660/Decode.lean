import Libogc.Lib.Strings
import Libogc.Iso9660.Directory
/-!
# Decode — what a scan makes of a directory that is laid out by the format

A sector holds records one after the other, and zeroes after the last one.  The scan takes them in order.
-/
namespace Libogc

open Bytes

/-! ## The format -/

structure IsoRecord where
  length : Nat
  sector : Nat
  size : Nat
  flags : UInt8
  name : List UInt8
  name_pos : 1 ≤ name.length
  name_le : name.length ≤ 127
  name_fits : OFFSET_NAME + name.length ≤ length

/-- The record stands at `o`; what else is in it is not read. -/
structure IsoRecord.At (mem : Nat → UInt8) (o : Nat) (r : IsoRecord) : Prop where
  length : (mem o).toNat = r.length
  extended : mem (o + OFFSET_EXTENDED) = 0
  sector : be32 mem (o + OFFSET_SECTOR) = r.sector
  size : be32 mem (o + OFFSET_SIZE) = r.size
  flags : mem (o + OFFSET_FLAGS) = r.flags
  namelen : (mem (o + OFFSET_NAMELEN)).toNat = r.name.length
  name : Stand mem (o + OFFSET_NAME) r.name

/-- The records stand in a sector from `o` on, and zeroes after them. -/
def isoSectorAt (mem : Nat → UInt8) (base : Nat) : Nat → List IsoRecord → Prop
  | o, [] => ∀ i, o ≤ i → i < SECTOR_SIZE → mem (base + i) = 0
  | o, r :: rs => r.At mem (base + o) ∧ o + r.length ≤ SECTOR_SIZE ∧ isoSectorAt mem base (o + r.length) rs

/-- The sectors of a directory stand on the disc from a sector on. -/
def isoSectorsAt (mem : Nat → UInt8) : Nat → List (List IsoRecord) → Prop
  | _, [] => True
  | k, rs :: rest => rs ≠ [] ∧ isoSectorAt mem (k * SECTOR_SIZE) 0 rs ∧ isoSectorsAt mem (k + 1) rest

/-- **A directory laid out by the format**: the record `.` first, and no other of that name. -/
structure IsoExtent (mem : Nat → UInt8) (start : Nat) (dot : IsoRecord) (rs : List IsoRecord) (rest : List (List IsoRecord)) :
    Prop where
  sectors : isoSectorsAt mem start ((dot :: rs) :: rest)
  inside : start + (rest.length + 1) ≤ 2 ^ 32 - 16
  dot_name : dot.name = [0]
  dot_sector : dot.sector = start
  dot_size : dot.size = (rest.length + 1) * SECTOR_SIZE
  names : ∀ r ∈ rs ++ rest.flatten, r.name ≠ [0]

/-! ## What a scan should yield -/

/-- The low bytes of UCS-2 characters. -/
def lowBytes : List UInt8 → List UInt8
  | [] => []
  | [_] => []
  | _ :: lo :: rest => lo :: lowBytes rest

/-- A name without a version. -/
def withoutVersion (name : List UInt8) : List UInt8 :=
  if 2 ≤ name.length ∧ name[name.length - 2]? = some 59 then name.take (name.length - 2) else name

/-- The name of a record in a listing. -/
def IsoRecord.listed (unicode : Bool) (r : IsoRecord) : List UInt8 :=
  if r.name = [1] then [46, 46]
  else
    let name := if unicode then lowBytes r.name else r.name
    if isDir r.flags then name else withoutVersion name

/-- What a listing shows of a child. -/
def IsoChild.shown (c : IsoChild) : List UInt8 × Nat × Nat × UInt8 := (cstr c.name, c.sector, c.size, c.flags)

def IsoRecord.shown (unicode : Bool) (r : IsoRecord) : List UInt8 × Nat × Nat × UInt8 :=
  (cstr (r.listed unicode), r.sector, r.size, r.flags)

/-- The records of a directory that are listed: in the root directory `..` is not. -/
def isoListed (v : IsoVolume) (start : Nat) (rs : List IsoRecord) : List IsoRecord :=
  rs.filter fun r => ¬ (r.name = [1] ∧ v.rootSector = start)

/-! ## Names -/

theorem lowBytes_length : ∀ name : List UInt8, (lowBytes name).length = name.length / 2
  | [] => rfl
  | [_] => by simp [lowBytes]
  | _ :: lo :: rest => by
    rw [lowBytes, List.length_cons, lowBytes_length rest, List.length_cons, List.length_cons]
    omega

theorem range_map_lowBytes (mem : Nat → UInt8) : ∀ (o : Nat) (name : List UInt8), Stand mem o name →
    ((List.range (name.length / 2)).map fun i => mem (o + i * 2 + 1)) = lowBytes name
  | _, [], _ => rfl
  | _, [_], _ => by simp [lowBytes]
  | o, hi :: lo :: rest, h => by
    obtain ⟨-, h⟩ := stand_cons.mp h
    obtain ⟨hlo, h⟩ := stand_cons.mp h
    have ih := range_map_lowBytes mem (o + 1 + 1) rest h
    rw [show (hi :: lo :: rest).length / 2 = rest.length / 2 + 1 by rw [List.length_cons, List.length_cons]; omega,
      List.range_succ_eq_map, List.map_cons, List.map_map, lowBytes, ← ih, ← hlo]
    congr 1
    refine List.map_congr_left fun i _ => ?_
    show mem (o + (i + 1) * 2 + 1) = mem (o + 1 + 1 + i * 2 + 1)
    congr 1
    omega

theorem takeWhile_set_zero : ∀ (name : List UInt8) (k : Nat), k < name.length → cstr (name.set k 0) = cstr (name.take k)
  | [], k, h => absurd h (Nat.not_lt_zero k)
  | x :: xs, 0, _ => rfl
  | x :: xs, k + 1, h => by
    have ih := takeWhile_set_zero xs k (Nat.lt_of_succ_lt_succ h)
    unfold cstr at *
    rw [List.set_cons_succ, List.take_succ_cons, List.takeWhile_cons, List.takeWhile_cons, ih]

theorem cstr_cutVersion (flags : UInt8) (name : List UInt8) :
    cstr (isoCutVersion flags name.length name) = cstr (if isDir flags then name else withoutVersion name) := by
  unfold isoCutVersion withoutVersion
  by_cases hd : isDir flags = true
  · rw [if_pos hd, if_neg (by simp [hd])]
  · have hd' : isDir flags = false := by simpa using hd
    rw [if_neg hd]
    by_cases hv : 2 ≤ name.length ∧ name[name.length - 2]? = some 59
    · rw [if_pos ⟨hd', hv⟩, if_pos hv]
      exact takeWhile_set_zero _ _ (by omega)
    · rw [if_neg (fun h => hv h.2), if_neg hv]

/-! ## One record -/

section Record
variable {P : Type} {mem buf : Nat → UInt8} {o : Nat} {r : IsoRecord} {v : IsoVolume}

theorem IsoRecord.At.copy (h : r.At mem o) (hbuf : ∀ i < r.length, buf i = mem (o + i)) : r.At buf 0 := by
  have hfits := r.name_fits
  have hpos := r.name_pos
  have hbyte : ∀ {k : Nat}, k < 34 → buf (0 + k) = mem (o + k) := by
    intro k hk
    rw [Nat.zero_add]
    unfold OFFSET_NAME at hfits
    exact hbuf k (by omega)
  have hbe : ∀ {k : Nat}, k + 3 < 34 → be32 buf (0 + k) = be32 mem (o + k) := by
    intro k hk
    unfold be32
    rw [hbyte (by omega), Nat.add_assoc 0, hbyte (by omega), Nat.add_assoc 0, hbyte (by omega), Nat.add_assoc 0, hbyte (by omega),
      Nat.add_assoc, Nat.add_assoc, Nat.add_assoc]
  refine ⟨?_, ?_, ?_, ?_, ?_, ?_, ?_⟩
  · rw [← h.length]
    exact congrArg UInt8.toNat (hbyte (k := 0) (by decide))
  · rw [hbyte (by decide), h.extended]
  · rw [hbe (by decide), h.sector]
  · rw [hbe (by decide), h.size]
  · rw [hbyte (by decide), h.flags]
  · rw [hbyte (by decide), h.namelen]
  · have hname : read mem (o + OFFSET_NAME) r.name.length = r.name := h.name
    unfold Stand
    rw [← hname, read_length]
    refine read_congr fun i hi => ?_
    rw [Nat.zero_add, hbuf _ (by omega), ← Nat.add_assoc]

theorem IsoRecord.At.name_eq (h : r.At buf 0) (x : UInt8) : (buf OFFSET_NAMELEN = 1 ∧ buf OFFSET_NAME = x) ↔ r.name = [x] := by
  have hlen : (buf OFFSET_NAMELEN).toNat = r.name.length := by simpa using h.namelen
  have hname : Stand buf OFFSET_NAME r.name := by simpa using h.name
  have hone : buf OFFSET_NAMELEN = 1 ↔ r.name.length = 1 := by
    rw [← hlen]
    exact ⟨fun he => by rw [he]; rfl, fun he => UInt8.toNat_inj.mp he⟩
  rw [hone]
  constructor
  · rintro ⟨hl, hx⟩
    obtain ⟨y, hy⟩ := List.length_eq_one_iff.mp hl
    rw [hy] at hname ⊢
    rw [← hx, (stand_cons.mp hname).1]
  · intro hn
    rw [hn] at hname ⊢
    exact ⟨rfl, (stand_cons.mp hname).1⟩

theorem IsoRecord.At.stored (h : r.At buf 0) :
    cstr (isoCutVersion (buf OFFSET_FLAGS) (isoStoredLength v buf) (isoStoredName v buf)) = cstr (r.listed v.unicode) := by
  have hlen : (buf OFFSET_NAMELEN).toNat = r.name.length := by simpa using h.namelen
  have hname : Stand buf OFFSET_NAME r.name := by simpa using h.name
  have hflags : buf OFFSET_FLAGS = r.flags := by simpa using h.flags
  have hone : (buf OFFSET_NAMELEN).toNat = 1 ∧ buf OFFSET_NAME = 1 ↔ r.name = [1] := by
    rw [← h.name_eq 1]
    exact and_congr_left' ⟨fun he => UInt8.toNat_inj.mp he, fun he => by rw [he]; rfl⟩
  unfold isoStoredLength isoStoredName IsoRecord.listed
  dsimp only
  by_cases hdd : r.name = [1]
  · rw [if_pos (hone.mpr hdd), if_pos (hone.mpr hdd), if_pos hdd, (hone.mpr hdd).1]
    unfold isoCutVersion
    rw [if_neg (by omega)]
  · rw [if_neg (fun he => hdd (hone.mp he)), if_neg (fun he => hdd (hone.mp he)), if_neg hdd, hlen, hflags]
    cases hu : v.unicode with
    | true =>
      have hlow := range_map_lowBytes buf OFFSET_NAME r.name hname
      rw [if_pos rfl, if_pos rfl, if_pos rfl, hlow, ← lowBytes_length]
      exact cstr_cutVersion ..
    | false =>
      have hread : read buf OFFSET_NAME r.name.length = r.name := hname
      rw [if_neg Bool.false_ne_true, if_neg Bool.false_ne_true, if_neg Bool.false_ne_true, hread]
      exact cstr_cutVersion ..

theorem IsoRecord.At.sector_eq (h : r.At buf 0) : u32 (be32 buf OFFSET_SECTOR + (buf OFFSET_EXTENDED).toNat) = r.sector := by
  have hext : buf OFFSET_EXTENDED = 0 := by simpa using h.extended
  have hsec : be32 buf OFFSET_SECTOR = r.sector := by simpa using h.sector
  rw [hext]
  show u32 (be32 buf OFFSET_SECTOR + 0) = r.sector
  rw [Nat.add_zero, u32_of_lt (be32_lt ..), hsec]

theorem isoReadDirentry_dot (h : r.At buf 0) (hdot : r.name = [0]) (room : Bool) (entry : IsoDir P) :
    isoReadDirentry v room entry buf = ({ entry with sector := r.sector, size := r.size, flags := r.flags }, (r.length : Int)) := by
  have hone : ¬ (buf OFFSET_NAMELEN = 1 ∧ buf OFFSET_NAME = 1 ∧ v.rootSector = entry.sector) := by
    rintro ⟨hl, hb, -⟩
    rw [(h.name_eq 1).mp ⟨hl, hb⟩] at hdot
    cases hdot
  unfold isoReadDirentry
  dsimp only
  rw [if_neg hone, if_pos ((h.name_eq 0).mpr hdot), h.sector_eq, h.length,
    show be32 buf OFFSET_SIZE = r.size by simpa using h.size, show buf OFFSET_FLAGS = r.flags by simpa using h.flags]

theorem isoReadDirentry_record (h : r.At buf 0) (hdot : r.name ≠ [0]) (room : Bool) (entry : IsoDir P) :
    (r.name = [1] ∧ v.rootSector = entry.sector ∧ isoReadDirentry v room entry buf = (entry, (r.length : Int))) ∨
      (¬ (r.name = [1] ∧ v.rootSector = entry.sector) ∧
        ((room = false ∧ isoReadDirentry v room entry buf = (entry, -1)) ∨
          ∃ c : IsoChild, c.shown = r.shown v.unicode ∧
            isoReadDirentry v room entry buf = ({ entry with children := entry.children ++ [c] }, (r.length : Int)))) := by
  have hiff : (buf OFFSET_NAMELEN = 1 ∧ buf OFFSET_NAME = 1 ∧ v.rootSector = entry.sector) ↔
      r.name = [1] ∧ v.rootSector = entry.sector := by
    rw [← h.name_eq 1, and_assoc]
  unfold isoReadDirentry
  dsimp only
  by_cases hdd : r.name = [1] ∧ v.rootSector = entry.sector
  · rw [if_pos (hiff.mpr hdd), h.length]
    exact .inl ⟨hdd.1, hdd.2, rfl⟩
  · rw [if_neg (fun he => hdd (hiff.mp he)), if_neg (fun he => hdot ((h.name_eq 0).mp he)), h.length]
    refine .inr ⟨hdd, ?_⟩
    cases room with
    | false => exact .inl ⟨rfl, rfl⟩
    | true =>
      refine .inr ⟨_, ?_, rfl⟩
      show (_, _, _, _) = (_, _, _, _)
      rw [h.stored, h.sector_eq, show be32 buf OFFSET_SIZE = r.size by simpa using h.size,
        show buf OFFSET_FLAGS = r.flags by simpa using h.flags]

end Record

/-! ## One round -/

section Rounds
variable {P : Type} {w : IsoWorld} {s : IsoScan P} {path : P} {start len : Nat} {r : IsoRecord} {rs : List IsoRecord}
  {rest : List (List IsoRecord)}

/-- **The read at the head of a round** brings the rest of the sector, or a read of sectors has failed. -/
theorem isoLoad_spec (hm : s.mount.Cached w.disc) (ho : s.sectorOffset < SECTOR_SIZE) (hsec : s.sector < 2 ^ 32 - 16) :
    ∃ mount cluster, (s.load w).1 = { s with mount := mount, cluster := cluster } ∧ mount.Cached w.disc ∧
      s.mount.reads ≤ mount.reads ∧
      (((s.load w).2 = true ∧ ∀ i < SECTOR_SIZE - s.sectorOffset,
          cluster i = w.disc.bytes (s.sector * SECTOR_SIZE + s.sectorOffset + i)) ∨
        ((s.load w).2 = false ∧ IsoFailed w.disc s.mount mount)) := by
  have hend : s.sector * SECTOR_SIZE + s.sectorOffset + (SECTOR_SIZE - s.sectorOffset) ≤ isoEnd := by
    unfold isoEnd SECTOR_SIZE at *
    omega
  have hchunk : isoChunkLength (s.sector * SECTOR_SIZE + s.sectorOffset) (SECTOR_SIZE - s.sectorOffset) =
      SECTOR_SIZE - s.sectorOffset := by
    unfold isoChunkLength BUFFER_SIZE SECTOR_SIZE at *
    omega
  obtain ⟨hm', hreads, hor⟩ := isoReadChunk_spec
    hm (by omega) hend
  rw [hchunk] at hor
  refine ⟨_, _, rfl, hm', hreads, ?_⟩
  unfold IsoScan.load
  rcases hor with ⟨hret, hdata⟩ | ⟨hret, hfail⟩
  · refine .inl ⟨decide_eq_true hret, fun i hi => ?_⟩
    unfold isoFill
    rw [hdata]
    exact read_getD hi _
  · refine .inr ⟨decide_eq_false ?_, hfail⟩
    rw [hret]
    omega

/-- A round that has returned false: a read has failed, or there was no room for a child. -/
def IsoScan.GaveUp (w : IsoWorld) (s t : IsoScan P) : Prop :=
  IsoFailed w.disc s.mount t.mount ∨ w.room t.entry.children.length = false

/-- How the scan goes on after a round. -/
def IsoScan.goOn (w : IsoWorld) (path : P) (n : Nat) (t : IsoScan P) : Option (IsoScan P × Bool) :=
  if t.remaining > 0 then t.run w path n else some (t, true)

/-- A round that has taken a record is done with it when it advances by its length. -/
theorem isoRun_advance {t : IsoScan P} (entry : IsoDir P) (hload : (s.load w).2 = true)
    (hentry : isoReadDirentry w.volume (w.room (s.load w).1.entry.children.length) (s.load w).1.entry (s.load w).1.cluster =
      (entry, (len : Int))) (ht : t = { (s.load w).1 with entry := entry }) (n : Nat) :
    s.run w path (n + 1) = (t.advance path len).goOn w path n := by
  have hround : s.round w path = (t.advance path len, if (t.advance path len).remaining > 0 then none else some true) := by
    unfold IsoScan.round
    dsimp only
    rw [hload, hentry, ← ht, if_neg (by decide)]
    dsimp only
    rw [if_neg (by omega), Int.toNat_natCast]
    split <;> rfl
  rw [IsoScan.run, hround]
  unfold IsoScan.goOn
  by_cases hrem : (t.advance path len).remaining > 0
  · rw [if_pos hrem, if_pos hrem]
  · rw [if_neg hrem, if_neg hrem]

/-- **The scan stands behind a record** of length `len`, with the records `rs` of its sector and the sectors `rest` to come. -/
structure IsoBehind (w : IsoWorld) (s : IsoScan P) (start len : Nat) (rs : List IsoRecord) (rest : List (List IsoRecord)) : Prop where
  cached : s.mount.Cached w.disc
  cluster : ∀ i < SECTOR_SIZE - s.sectorOffset, s.cluster i = w.disc.bytes (s.sector * SECTOR_SIZE + s.sectorOffset + i)
  fits : s.sectorOffset + len ≤ SECTOR_SIZE
  here : isoSectorAt w.disc.bytes (s.sector * SECTOR_SIZE) (s.sectorOffset + len) rs
  next : isoSectorsAt w.disc.bytes (s.sector + 1) rest
  inside : s.sector + (rest.length + 1) ≤ 2 ^ 32 - 16
  small : rest.length < 2 ^ 21
  entry : s.entry.sector = start
  names : ∀ r ∈ rs ++ rest.flatten, r.name ≠ [0]
  remaining : s.remaining = (rest.length + 1) * SECTOR_SIZE

/-- The children that a scan has found, as a listing shows them. -/
def IsoScan.listing (s : IsoScan P) : List (List UInt8 × Nat × Nat × UInt8) := s.entry.children.map IsoChild.shown

/-- **The scan is about to read** the records `rs` of its sector, and then the sectors `rest`. -/
structure IsoFacing (w : IsoWorld) (s : IsoScan P) (start : Nat) (rs : List IsoRecord) (rest : List (List IsoRecord)) : Prop where
  cached : s.mount.Cached w.disc
  here : isoSectorAt w.disc.bytes (s.sector * SECTOR_SIZE) s.sectorOffset rs
  next : isoSectorsAt w.disc.bytes (s.sector + 1) rest
  inside : s.sector + (rest.length + 1) ≤ 2 ^ 32 - 16
  small : rest.length < 2 ^ 21
  entry : s.entry.sector = start
  names : ∀ r ∈ rs ++ rest.flatten, r.name ≠ [0]
  remaining : s.remaining = (rest.length + 1) * SECTOR_SIZE

/-- What a scan makes of the records that are still to come. -/
def IsoScan.Yields (w : IsoWorld) (start : Nat) (rs : List IsoRecord) (s : IsoScan P)
    (run : Nat → Option (IsoScan P × Bool)) : Prop :=
  ∃ n t ret, run n = some (t, ret) ∧ s.mount.reads ≤ t.mount.reads ∧
    ((ret = true ∧ t.entry.pathEntry = s.entry.pathEntry ∧
        t.listing = s.listing ++ (isoListed w.volume start rs).map (IsoRecord.shown w.volume.unicode)) ∨
      (ret = false ∧ s.GaveUp w t))

theorem isoRecord_length_pos (r : IsoRecord) : 0 < r.length := by
  have := r.name_fits
  unfold OFFSET_NAME at this
  omega

theorem isoRemaining_next {k : Nat} (hk : k < 2 ^ 21) : u32 ((k + 1) * SECTOR_SIZE + 2 ^ 32 - SECTOR_SIZE) = k * SECTOR_SIZE := by
  unfold u32 SECTOR_SIZE
  omega

theorem isoAdvance_in (hrem : s.remaining ≠ 0) (hlt : s.sectorOffset + len < SECTOR_SIZE) (hne : s.cluster len ≠ 0) :
    s.advance path len = { s with sectorOffset := s.sectorOffset + len } := by
  unfold IsoScan.advance
  rw [if_neg hrem]
  exact if_neg (by rintro (h | h); exacts [absurd hlt (by omega), hne h])

theorem isoAdvance_over (hrem : s.remaining ≠ 0) (hover : s.sectorOffset + len ≥ SECTOR_SIZE ∨ s.cluster len = 0) :
    s.advance path len =
      { s with
        remaining := u32 (s.remaining + 2 ^ 32 - SECTOR_SIZE)
        sectorOffset := 0
        sector := u32 (s.sector + 1)
        passed := s.passed + 1 } := by
  unfold IsoScan.advance
  rw [if_neg hrem]
  exact if_pos hover

theorem IsoBehind.remaining_ne (h : IsoBehind w s start len rs rest) : s.remaining ≠ 0 := by
  rw [h.remaining]
  unfold SECTOR_SIZE
  omega

theorem IsoBehind.advance_in (h : IsoBehind w s start len (r :: rs) rest) :
    s.advance path len = { s with sectorOffset := s.sectorOffset + len } ∧ IsoFacing w (s.advance path len) start (r :: rs) rest := by
  obtain ⟨hr, hfits, hrs⟩ := h.here
  have hpos := isoRecord_length_pos r
  have hlt : s.sectorOffset + len < SECTOR_SIZE := by omega
  have hne : s.cluster len ≠ 0 := by
    intro hz
    have hlen := hr.length
    rw [← Nat.add_assoc, ← h.cluster len (by omega), hz] at hlen
    have : r.length = 0 := hlen.symm
    omega
  have heq := @isoAdvance_in _ _ path _ h.remaining_ne hlt hne
  rw [heq]
  exact ⟨rfl, ⟨h.cached, ⟨hr, hfits, hrs⟩, h.next, h.inside, h.small, h.entry, h.names, h.remaining⟩⟩

theorem IsoBehind.advance_over (h : IsoBehind w s start len [] rest) :
    s.advance path len =
      { s with remaining := rest.length * SECTOR_SIZE, sectorOffset := 0, sector := s.sector + 1, passed := s.passed + 1 } := by
  have hinside := h.inside
  have hover : s.sectorOffset + len ≥ SECTOR_SIZE ∨ s.cluster len = 0 := by
    by_cases hlt : s.sectorOffset + len < SECTOR_SIZE
    · right
      rw [h.cluster len (by omega), Nat.add_assoc]
      exact h.here (s.sectorOffset + len) (Nat.le_refl _) hlt
    · exact .inl (by omega)
  rw [isoAdvance_over h.remaining_ne hover, h.remaining, isoRemaining_next h.small, u32_of_lt (by omega)]

theorem isoListed_append (v : IsoVolume) (start : Nat) (rs rs' : List IsoRecord) :
    isoListed v start (rs ++ rs') = isoListed v start rs ++ isoListed v start rs' := List.filter_append ..

/-- **One round over a record** other than `.`: it is listed as it should be, or the scan has given up. -/
theorem isoRun_record (h : IsoFacing w s start (r :: rs) rest) :
    (∃ t, s.mount.reads ≤ t.mount.reads ∧ s.GaveUp w t ∧ ∀ n, s.run w path (n + 1) = some (t, false)) ∨
      ∃ t, IsoBehind w t start r.length rs rest ∧ s.mount.reads ≤ t.mount.reads ∧ t.entry.pathEntry = s.entry.pathEntry ∧
        t.listing = s.listing ++ (isoListed w.volume start [r]).map (IsoRecord.shown w.volume.unicode) ∧
        ∀ n, s.run w path (n + 1) = (t.advance path r.length).goOn w path n := by
  obtain ⟨hr, hfits, hrs⟩ := h.here
  have hlen := isoRecord_length_pos r
  have hinside := h.inside
  obtain ⟨mount, cluster, hload, hm, hreads, hor⟩ := isoLoad_spec (w := w) h.cached (by omega) (by omega)
  rcases hor with ⟨hok, hcluster⟩ | ⟨hno, hfail⟩
  · have hcopy : r.At cluster 0 := by
      refine hr.copy fun i hi => ?_
      rw [hcluster i (by omega), Nat.add_assoc]
    have hdot : r.name ≠ [0] := h.names r (by simp)
    -- how the scan stands behind the record, once it has its entry
    have hbehind : ∀ entry : IsoDir P, entry.sector = s.entry.sector →
        IsoBehind w { s with mount := mount, cluster := cluster, entry := entry } start r.length rs rest :=
      fun entry he => ⟨hm, hcluster, hfits, hrs, h.next, h.inside, h.small, he.trans h.entry,
        fun r' hr' => h.names r' (List.mem_cons_of_mem _ hr'), h.remaining⟩
    have hrun : ∀ entry : IsoDir P, isoReadDirentry w.volume (w.room s.entry.children.length) s.entry cluster = (entry, (r.length : Int)) →
        ∀ n, s.run w path (n + 1) =
          (({ s with mount := mount, cluster := cluster, entry := entry } : IsoScan P).advance path r.length).goOn w path n := by
      intro entry he n
      refine isoRun_advance entry hok ?_ ?_ n
      · rw [hload]
        exact he
      · rw [hload]
    rcases isoReadDirentry_record (v := w.volume) hcopy hdot (w.room s.entry.children.length) s.entry with
      ⟨hdd, hroot, he⟩ | ⟨hlisted, ⟨hroom, he⟩ | ⟨c, hc, he⟩⟩
    · -- `..` of the root directory
      refine .inr ⟨_, hbehind s.entry rfl, hreads, rfl, ?_, hrun _ he⟩
      have hskip : isoListed w.volume start [r] = [] :=
        List.filter_eq_nil_iff.mpr (by simp [hdd, hroot, h.entry])
      rw [hskip]
      exact (List.append_nil _).symm
    · refine .inl ⟨{ s with mount := mount, cluster := cluster }, hreads, .inr hroom, fun n => ?_⟩
      rw [IsoScan.run]
      unfold IsoScan.round
      dsimp only
      rw [hok, if_neg (by decide), hload]
      dsimp only
      rw [he]
      rfl
    · refine .inr ⟨_, hbehind { s.entry with children := s.entry.children ++ [c] } rfl, hreads, rfl, ?_, hrun _ he⟩
      have hkeep : isoListed w.volume start [r] = [r] := by
        rw [h.entry] at hlisted
        refine List.filter_eq_self.mpr fun r' hr' => ?_
        rw [List.mem_singleton.mp hr']
        exact decide_eq_true hlisted
      rw [hkeep]
      show (s.entry.children ++ [c]).map IsoChild.shown = _
      rw [List.map_append, List.map_singleton, List.map_singleton, hc]
      rfl
  · refine .inl ⟨{ s with mount := mount, cluster := cluster }, hreads, .inl hfail, fun n => ?_⟩
    rw [IsoScan.run]
    unfold IsoScan.round
    dsimp only
    rw [hno, if_pos (by decide), hload]

theorem IsoScan.GaveUp.trans {t u : IsoScan P} (h : t.GaveUp w u) (hle : s.mount.reads ≤ t.mount.reads) : s.GaveUp w u := by
  rcases h with hf | hr
  · exact .inl (hf.trans hle)
  · exact .inr hr

theorem isoYields_round (h : IsoFacing w s start (r :: rs) rest)
    (hgo : ∀ t : IsoScan P, IsoBehind w t start r.length rs rest →
      t.Yields w start (rs ++ rest.flatten) fun n => (t.advance path r.length).goOn w path n) :
    s.Yields w start (r :: rs ++ rest.flatten) fun n => s.run w path n := by
  rcases isoRun_record h with ⟨t, hreads, hgave, hrun⟩ | ⟨t, hbehind, hreads, hpath, hlist, hrun⟩
  · exact ⟨1, t, false, hrun 0, hreads, .inr ⟨rfl, hgave⟩⟩
  · obtain ⟨n, u, ret, hn, hreads', hor⟩ := hgo t hbehind
    refine ⟨n + 1, u, ret, (hrun n).trans hn, Nat.le_trans hreads hreads', ?_⟩
    rcases hor with ⟨hret, hpath', hlist'⟩ | ⟨hret, hgave⟩
    · refine .inl ⟨hret, hpath'.trans hpath, ?_⟩
      rw [hlist', hlist, List.append_assoc, ← List.map_append, ← isoListed_append]
      rfl
    · exact .inr ⟨hret, hgave.trans hreads⟩

theorem isoGoOn_run {t : IsoScan P} (h : t.remaining ≠ 0) (n : Nat) : t.goOn w path n = t.run w path n :=
  if_pos (Nat.pos_of_ne_zero h)

theorem isoYields_in (h : IsoBehind w s start len (r :: rs) rest)
    (hgo : ∀ t : IsoScan P, IsoBehind w t start r.length rs rest →
      t.Yields w start (rs ++ rest.flatten) fun n => (t.advance path r.length).goOn w path n) :
    s.Yields w start (r :: rs ++ rest.flatten) fun n => (s.advance path len).goOn w path n := by
  obtain ⟨heq, hface⟩ := h.advance_in
  have hrun : ∀ n, (s.advance path len).goOn w path n = (s.advance path len).run w path n :=
    isoGoOn_run (by rw [heq]; exact h.remaining_ne)
  have hy := isoYields_round hface hgo
  simp only [hrun]
  rw [heq] at hy ⊢
  exact hy

theorem isoYields_over {rs' : List IsoRecord} (h : IsoBehind w s start len [] ((r :: rs') :: rest))
    (hgo : ∀ t : IsoScan P, IsoBehind w t start r.length rs' rest →
      t.Yields w start (rs' ++ rest.flatten) fun n => (t.advance path r.length).goOn w path n) :
    s.Yields w start (r :: rs' ++ rest.flatten) fun n => (s.advance path len).goOn w path n := by
  obtain ⟨-, hhere, hnext⟩ := h.next
  have hinside := h.inside
  have hsmall := h.small
  rw [List.length_cons] at hinside hsmall
  have heq := @IsoBehind.advance_over _ _ _ path _ _ _ h
  have hface : IsoFacing w (s.advance path len) start (r :: rs') rest := by
    rw [heq]
    exact ⟨h.cached, hhere, hnext, by show s.sector + 1 + _ ≤ _; omega, by omega, h.entry,
      fun r' hr' => h.names r' (by simpa using hr'), rfl⟩
  have hrun : ∀ n, (s.advance path len).goOn w path n = (s.advance path len).run w path n := by
    refine isoGoOn_run ?_
    rw [heq]
    show (rest.length + 1) * SECTOR_SIZE ≠ 0
    unfold SECTOR_SIZE
    omega
  have hy := isoYields_round hface hgo
  simp only [hrun]
  rw [heq] at hy ⊢
  exact hy

theorem isoYields_end (h : IsoBehind w s start len [] []) :
    s.Yields w start [] fun n => (s.advance path len).goOn w path n := by
  have heq := @IsoBehind.advance_over _ _ _ path _ _ _ h
  refine ⟨0, s.advance path len, true, ?_, ?_, .inl ⟨rfl, ?_, ?_⟩⟩
  · refine if_neg ?_
    rw [heq]
    exact Nat.lt_irrefl 0
  · exact Nat.le_of_eq (by rw [heq])
  · rw [heq]
  · rw [heq]
    exact (List.append_nil _).symm

/-- **The scan behind a record** yields the records that follow, of its sector and of all others. -/
theorem isoYields_behind : ∀ (rest : List (List IsoRecord)) (rs : List IsoRecord) (s : IsoScan P) (len : Nat),
    IsoBehind w s start len rs rest →
      s.Yields w start (rs ++ rest.flatten) fun n => (s.advance path len).goOn w path n := by
  intro rest
  induction rest with
  | nil =>
    intro rs
    induction rs with
    | nil => exact fun s len h => isoYields_end h
    | cons r rs ih => exact fun s len h => isoYields_in h fun t ht => ih t r.length ht
  | cons rs₂ rest ihrest =>
    intro rs
    induction rs with
    | nil =>
      intro s len h
      obtain ⟨r, rs', rfl⟩ := List.exists_cons_of_ne_nil h.next.1
      exact isoYields_over h fun t ht => ihrest rs' t r.length ht
    | cons r rs ih => exact fun s len h => isoYields_in h fun t ht => ih t r.length ht

theorem isoAdvance_first (hrem : s.remaining = 0) (hsize : s.entry.size ≠ 0) :
    s.advance path len = ({ s with remaining := s.entry.size, entry := { s.entry with pathEntry := some path } } : IsoScan P).advance path len := by
  unfold IsoScan.advance
  rw [if_pos hrem, if_neg hsize]

end Rounds

/-- **Directories decode.**  On every disc with a directory that is laid out by the format, and whatever was read before, the scan
returns; it returns true with the records other than `.`, and `..` of the root directory, in their order, or it returns false and a
read of sectors has failed, or there was no memory for a child. -/
theorem iso_directory_decode {P : Type} (w : IsoWorld) (buffer : Nat → UInt8) (calls : List (Nat × Nat))
    (hcalls : ∀ call ∈ calls, 0 < call.2 ∧ call.1 + call.2 ≤ isoEnd) (cluster : Nat → UInt8) (path : P) (start : Nat)
    (dot : IsoRecord) (rs : List IsoRecord) (rest : List (List IsoRecord))
    (h : IsoExtent w.disc.bytes start dot rs rest) :
    let s := isoScanStart (isoHistory w.disc (isoFresh buffer) calls) cluster start
    ∃ n t ret, s.run w path n = some (t, ret) ∧
      ((ret = true ∧ t.entry.pathEntry = some path ∧
          t.entry.children.map IsoChild.shown =
            (isoListed w.volume start (rs ++ rest.flatten)).map (IsoRecord.shown w.volume.unicode)) ∨
        (ret = false ∧ (IsoFailed w.disc s.mount t.mount ∨ w.room t.entry.children.length = false))) := by
  intro s
  have hm : s.mount.Cached w.disc := isoHistory_cached hcalls (isoFresh_cached buffer)
  have hinside := h.inside
  obtain ⟨-, ⟨hdot, hfits, hrs⟩, hnext⟩ := h.sectors
  have hfits : 0 + dot.length ≤ SECTOR_SIZE := hfits
  have hlen := isoRecord_length_pos dot
  obtain ⟨mount, cluster', hload, hm', hreads, hor⟩ := isoLoad_spec (w := w) (s := s) hm (by show 0 < SECTOR_SIZE; decide)
    (by show start < _; omega)
  rcases hor with ⟨hok, hcluster⟩ | ⟨hno, hfail⟩
  · have hcopy : dot.At cluster' 0 := by
      refine hdot.copy fun i hi => ?_
      exact hcluster i (by show i < SECTOR_SIZE - 0; omega)
    have hentry := isoReadDirentry_dot (v := w.volume) hcopy h.dot_name (w.room s.entry.children.length) s.entry
    have hsize : dot.size ≠ 0 := by
      rw [h.dot_size]
      unfold SECTOR_SIZE
      omega
    have hsmall : rest.length < 2 ^ 21 := by
      have hlt := be32_lt w.disc.bytes (start * SECTOR_SIZE + 0 + OFFSET_SIZE)
      rw [hdot.size, h.dot_size] at hlt
      unfold SECTOR_SIZE at hlt
      omega
    -- the state behind the first record, once it has the size
    let t : IsoScan P :=
      { s with mount := mount, cluster := cluster', remaining := dot.size, entry := ⟨dot.sector, dot.size, dot.flags, some path, []⟩ }
    have hbehind : IsoBehind w t start dot.length rs rest :=
      ⟨hm', hcluster, hfits, hrs, hnext, hinside, hsmall, h.dot_sector, h.names, h.dot_size⟩
    have hrun : ∀ n, s.run w path (n + 1) = (t.advance path dot.length).goOn w path n := by
      intro n
      have hfirst := @isoRun_advance _ w s path _ _ _ hok (by rw [hload]; exact hentry) rfl n
      rw [hload] at hfirst
      rw [hfirst]
      exact congrArg (fun u : IsoScan P => u.goOn w path n) (isoAdvance_first rfl hsize)
    obtain ⟨n, u, ret, hn, hreads', hor⟩ := isoYields_behind rest rs t dot.length hbehind
    refine ⟨n + 1, u, ret, (hrun n).trans hn, ?_⟩
    rcases hor with ⟨hret, hpath, hlist⟩ | ⟨hret, hgave⟩
    · exact .inl ⟨hret, hpath, hlist⟩
    · exact .inr ⟨hret, IsoScan.GaveUp.trans (s := s) hgave hreads⟩
  · refine ⟨1, { s with mount := mount, cluster := cluster' }, false, ?_, .inr ⟨rfl, .inl hfail⟩⟩
    rw [IsoScan.run]
    unfold IsoScan.round
    dsimp only
    rw [hno, if_pos (by decide), hload]

/-- A sector with the record `.` and a file. -/
def isoSampleBytes : List UInt8 :=
  [34, 0, 20, 0, 0, 0, 0, 0, 0, 20, 0, 8, 0, 0, 0, 0, 8, 0, 0, 0, 0, 0, 0, 0, 0, 2, 0, 0, 1, 0, 0, 1, 1, 0,
    36, 0, 21, 0, 0, 0, 0, 0, 0, 21, 5, 0, 0, 0, 0, 0, 0, 5, 0, 0, 0, 0, 0, 0, 0, 0, 0, 0, 1, 0, 0, 1, 3, 65, 59, 49]

def isoSampleDisc (n : Nat) : UInt8 := isoSampleBytes.getD (n - 40960) 0

def isoSampleWorld : IsoWorld where
  disc := ⟨isoSampleDisc, fun _ => none⟩
  volume := ⟨false, 20⟩
  room := fun _ => true

def isoSampleDot : IsoRecord := ⟨34, 20, 2048, 2, [0], by decide, by decide, by decide⟩

def isoSampleFile : IsoRecord := ⟨36, 21, 5, 0, [65, 59, 49], by decide, by decide, by decide⟩

theorem isoSample_extent : IsoExtent isoSampleWorld.disc.bytes 20 isoSampleDot [isoSampleFile] [] where
  sectors := by
    refine ⟨List.cons_ne_nil _ _, ⟨?_, by decide, ?_, by decide, fun i hi _ => ?_⟩, trivial⟩
    · constructor <;> decide +kernel
    · constructor <;> decide +kernel
    · have hi : 70 ≤ i := hi
      have hplace : 20 * SECTOR_SIZE + i - 40960 = i := by
        unfold SECTOR_SIZE
        omega
      unfold isoSampleWorld isoSampleDisc
      dsimp only
      rw [hplace]
      have hlen : isoSampleBytes.length = 70 := by decide +kernel
      rw [List.getD_eq_getElem?_getD, List.getElem?_eq_none (by rw [hlen]; exact hi)]
      rfl
  inside := by decide
  dot_name := rfl
  dot_sector := rfl
  dot_size := rfl
  names := by decide

theorem iso_directory_decode_sample : IsoExtent isoSampleWorld.disc.bytes 20 isoSampleDot [isoSampleFile] [] ∧
    ∃ n t, (isoScanStart (isoHistory isoSampleWorld.disc (isoFresh fun _ => 0) []) (fun _ => 0) 20).run isoSampleWorld () n =
        some (t, true) ∧ t.entry.children.map IsoChild.shown = [([65], 21, 5, 0)] := by
  have hcalls : ∀ call ∈ ([] : List (Nat × Nat)), 0 < call.2 ∧ call.1 + call.2 ≤ isoEnd := by simp
  obtain ⟨n, t, ret, hn, hor⟩ := iso_directory_decode isoSampleWorld (fun _ => 0) [] hcalls (fun _ => 0) () 20 isoSampleDot
    [isoSampleFile] [] isoSample_extent
  refine ⟨isoSample_extent, n, t, ?_⟩
  rcases hor with ⟨rfl, -, hlist⟩ | ⟨-, ⟨k, -, -, hout⟩ | hroom⟩
  · exact ⟨hn, hlist.trans (by decide +kernel)⟩
  · exact absurd rfl hout
  · cases hroom

end Libogc
