import Libogc.Lib.Bytes
import Libogc.Lib.Words
/-!
# Cached — the reads of `iso9660.c`

`__read` keeps the sixteen sectors that it read last, for all files and all scans of directories; `_read` goes on until it has all
bytes; `_ISO9660_read_r` reads on in a file.
-/
namespace Libogc

open Bytes

def SECTOR_SIZE : Nat := 0x800

def BUFFER_SIZE : Nat := 0x8000

/-- A disc, and what each read of its sectors does: it succeeds, or fails with something left in the buffer. -/
structure IsoDisc where
  bytes : Nat → UInt8
  outcome : Nat → Option (Nat → UInt8)

/-- The cache of `MOUNT_DESCR`, and how often sectors were read. -/
structure IsoMount where
  readBuffer : Nat → UInt8
  cacheStart : Nat
  cacheSectors : Nat
  reads : Nat

/-- `readSectors` of as many sectors as fit the buffer. -/
def isoReadSectors (d : IsoDisc) (m : IsoMount) (sector : Nat) : IsoMount × Bool :=
  match d.outcome m.reads with
  | none =>
    ({ m with
        readBuffer := fun i => if i < BUFFER_SIZE then d.bytes (sector * SECTOR_SIZE + i) else m.readBuffer i
        reads := m.reads + 1 }, true)
  | some junk => ({ m with readBuffer := junk, reads := m.reads + 1 }, false)

/-- `__read`; with the number it returns go the bytes it copies. -/
def isoReadChunk (d : IsoDisc) (m : IsoMount) (offset len : Nat) : IsoMount × Int × List UInt8 :=
  let sector := u32 (offset / SECTOR_SIZE)
  let endSector := u32 ((offset + len + (2 ^ 64 - 1)) % 2 ^ 64 / SECTOR_SIZE)
  let sectors := min (BUFFER_SIZE / SECTOR_SIZE) (u32 (endSector + 2 ^ 32 - sector + 1))
  let sectorOffset := offset % SECTOR_SIZE
  let len := min (BUFFER_SIZE - sectorOffset) len
  if m.cacheSectors ≠ 0 ∧ m.cacheStart ≤ sector ∧ u32 (sector + sectors) ≤ u32 (m.cacheStart + m.cacheSectors) then
    (m, len, read m.readBuffer ((sector - m.cacheStart) * SECTOR_SIZE + sectorOffset) len)
  else
    let r := isoReadSectors d m sector
    if r.2 then
      ({ r.1 with cacheStart := sector, cacheSectors := BUFFER_SIZE / SECTOR_SIZE }, len, read r.1.readBuffer sectorOffset len)
    else ({ r.1 with cacheSectors := 0 }, -1, [])

/-- The loop of `_read`, with the bits of `read` and the bytes copied so far. -/
def isoReadLoop (d : IsoDisc) (offset len : Nat) : Nat → IsoMount → Nat → List UInt8 → IsoMount × Int × List UInt8
  | 0, m, done, data => (m, s32 done, data)
  | fuel + 1, m, done, data =>
    if done < len then
      let r := isoReadChunk d m (u64 (offset + s32 done)) (len - done)
      if r.2.1 > 0 then isoReadLoop d offset len fuel r.1 (u32 (done + r.2.1.toNat)) (data ++ r.2.2)
      else if r.2.1 = 0 then (r.1, s32 done, data)
      else (r.1, -1, data)
    else (m, s32 done, data)

/-- `_read`; every round copies a byte at least. -/
def isoRead (d : IsoDisc) (m : IsoMount) (offset len : Nat) : IsoMount × Int × List UInt8 :=
  isoReadLoop d offset len len m 0 []

/-- `FILE_STRUCT`, with the sector and the size of its entry. -/
structure IsoFile where
  sector : Nat
  size : Nat
  offset : Nat
  inUse : Bool
  deriving DecidableEq, Repr

inductive IsoErrno where
  | EBADF
  | EOVERFLOW
  | EIO
  deriving DecidableEq, Repr

open IsoErrno

structure IsoReadResult where
  mount : IsoMount
  file : IsoFile
  ret : Int
  data : List UInt8
  errno : Option IsoErrno

/-- `_ISO9660_read_r` -/
def iso9660ReadR (d : IsoDisc) (m : IsoMount) (f : IsoFile) (len : Nat) : IsoReadResult :=
  if !f.inUse then ⟨m, f, -1, [], some .EBADF⟩
  else if f.offset ≥ f.size then ⟨m, f, 0, [], some .EOVERFLOW⟩
  else
    let errno := if len + f.offset > f.size then some IsoErrno.EOVERFLOW else none
    let len := if len + f.offset > f.size then f.size - f.offset else len
    if len = 0 then ⟨m, f, 0, [], errno⟩
    else
      let r := isoRead d m (f.sector * SECTOR_SIZE + f.offset) len
      if r.2.1 < 0 then ⟨r.1, f, -1, r.2.2, some EIO⟩
      else ⟨r.1, { f with offset := f.offset + r.2.1.toNat }, r.2.1, r.2.2, errno⟩

/-- A mount whose cache is empty yet. -/
def isoFresh (buffer : Nat → UInt8) : IsoMount := ⟨buffer, 0, 0, 0⟩

/-- A mount after calls of `__read`, each with its offset and length. -/
def isoHistory (d : IsoDisc) (m : IsoMount) (calls : List (Nat × Nat)) : IsoMount :=
  calls.foldl (fun m call => (isoReadChunk d m call.1 call.2).1) m

/-- Where the sectors end whose numbers are below 2^32 - 16. -/
def isoEnd : Nat := (2 ^ 32 - 16) * SECTOR_SIZE

/-! ## One read -/

/-- **What the cache says it holds, it holds.** -/
def IsoMount.Cached (d : IsoDisc) (m : IsoMount) : Prop :=
  m.cacheSectors = 0 ∨ (m.cacheSectors = BUFFER_SIZE / SECTOR_SIZE ∧ m.cacheStart < 2 ^ 32 - 16 ∧
    ∀ i < BUFFER_SIZE, m.readBuffer i = d.bytes (m.cacheStart * SECTOR_SIZE + i))

/-- A read of the sectors failed between two states of a mount. -/
def IsoFailed (d : IsoDisc) (m m' : IsoMount) : Prop := ∃ n, m.reads ≤ n ∧ n < m'.reads ∧ d.outcome n ≠ none

/-- How many bytes one call copies. -/
def isoChunkLength (offset len : Nat) : Nat := min (BUFFER_SIZE - offset % SECTOR_SIZE) len

theorem isoChunkLength_pos {offset len : Nat} (h : 0 < len) : 0 < isoChunkLength offset len := by
  unfold isoChunkLength BUFFER_SIZE SECTOR_SIZE
  omega

theorem isoChunkLength_le {offset len : Nat} : isoChunkLength offset len ≤ len := Nat.min_le_right ..

section Reads
variable {d : IsoDisc} {m : IsoMount} {offset len : Nat}

theorem isoSectors_eq (hpos : 0 < len) (hend : offset + len ≤ isoEnd) :
    u32 (offset / SECTOR_SIZE) = offset / SECTOR_SIZE ∧
      u32 (u32 ((offset + len + (2 ^ 64 - 1)) % 2 ^ 64 / SECTOR_SIZE) + 2 ^ 32 - offset / SECTOR_SIZE + 1) =
        (offset + len - 1) / SECTOR_SIZE - offset / SECTOR_SIZE + 1 := by
  unfold isoEnd at hend
  unfold u32 SECTOR_SIZE at *
  omega

/-- **One call of `__read`** copies what stands on the disc, or a read of the sectors has failed; in both cases the cache holds what it
says. -/
theorem isoReadChunk_spec (hm : m.Cached d) (hpos : 0 < len) (hend : offset + len ≤ isoEnd) :
    let r := isoReadChunk d m offset len
    r.1.Cached d ∧ m.reads ≤ r.1.reads ∧ ((r.2.1 = isoChunkLength offset len ∧ r.2.2 = read d.bytes offset (isoChunkLength offset len)) ∨
      (r.2.1 = -1 ∧ IsoFailed d m r.1)) := by
  obtain ⟨hsector, hsectors⟩ := isoSectors_eq hpos hend
  unfold isoReadChunk
  dsimp only
  rw [hsector, hsectors]
  have hlen : min (BUFFER_SIZE - offset % SECTOR_SIZE) len = isoChunkLength offset len := rfl
  have hsplit : offset / SECTOR_SIZE * SECTOR_SIZE + offset % SECTOR_SIZE = offset := by
    rw [Nat.mul_comm]
    exact Nat.div_add_mod ..
  rw [hlen]
  split
  · -- a hit
    rename_i hhit
    obtain ⟨hne, hle, hfits⟩ := hhit
    obtain ⟨hcount, hstart, hbuf⟩ := hm.resolve_left hne
    refine ⟨.inr ⟨hcount, hstart, hbuf⟩, Nat.le_refl _, .inl ⟨rfl, read_congr fun i hi => ?_⟩⟩
    have hin : (offset / SECTOR_SIZE - m.cacheStart) * SECTOR_SIZE + offset % SECTOR_SIZE + i < BUFFER_SIZE := by
      rw [hcount] at hfits
      unfold isoChunkLength at hi
      unfold isoEnd at hend
      unfold u32 BUFFER_SIZE SECTOR_SIZE at *
      omega
    have hplace : m.cacheStart * SECTOR_SIZE + ((offset / SECTOR_SIZE - m.cacheStart) * SECTOR_SIZE + offset % SECTOR_SIZE + i) =
        offset + i := by
      rw [Nat.sub_mul]
      have := Nat.mul_le_mul_right SECTOR_SIZE hle
      omega
    rw [hbuf _ hin, hplace]
  · unfold isoReadSectors
    cases hout : d.outcome m.reads with
    | none =>
      refine ⟨.inr ⟨rfl, ?_, fun i hi => if_pos hi⟩, Nat.le_succ _, .inl ⟨rfl, read_congr fun i hi => ?_⟩⟩
      · show offset / SECTOR_SIZE < 2 ^ 32 - 16
        unfold isoEnd at hend
        unfold SECTOR_SIZE at *
        omega
      · have hin : offset % SECTOR_SIZE + i < BUFFER_SIZE := by
          unfold isoChunkLength at hi
          unfold BUFFER_SIZE SECTOR_SIZE at *
          omega
        show (if offset % SECTOR_SIZE + i < BUFFER_SIZE then _ else _) = _
        rw [if_pos hin, ← Nat.add_assoc, hsplit]
    | some junk =>
      refine ⟨.inl rfl, Nat.le_succ _, .inr ⟨rfl, m.reads, Nat.le_refl _, Nat.lt_succ_self _, ?_⟩⟩
      rw [hout]
      exact Option.some_ne_none junk

theorem IsoFailed.trans {m' m'' : IsoMount} (h : IsoFailed d m' m'') (hle : m.reads ≤ m'.reads) : IsoFailed d m m'' := by
  obtain ⟨n, hn, hn', hout⟩ := h
  exact ⟨n, Nat.le_trans hle hn, hn', hout⟩

/-- **The loop of `_read`**, when `done` bytes are copied: as long as the length is a number of 31 bits, they are counted right, and
enough rounds copy all of them. -/
theorem isoReadLoop_spec (hlen : len < 2 ^ 31) (hend : offset + len ≤ isoEnd) :
    ∀ {fuel : Nat} {m : IsoMount} {done : Nat} (_ : m.Cached d) (_ : done ≤ len) (_ : len ≤ done + fuel),
      let r := isoReadLoop d offset len fuel m done (read d.bytes offset done)
      r.1.Cached d ∧ m.reads ≤ r.1.reads ∧
        ((r.2.1 = len ∧ r.2.2 = read d.bytes offset len) ∨ (r.2.1 = -1 ∧ IsoFailed d m r.1)) := by
  have hs32 : ∀ {n : Nat}, n ≤ len → s32 (n : Int) = n := fun hn => s32_of_range (by omega) (by omega)
  intro fuel
  induction fuel with
  | zero =>
    intro m done hm hle hfuel
    have hdone : done = len := by omega
    subst hdone
    rw [isoReadLoop]
    dsimp only
    exact ⟨hm, Nat.le_refl _, .inl ⟨hs32 hle, rfl⟩⟩
  | succ fuel ih =>
    intro m done hm hle hfuel
    rw [isoReadLoop]
    by_cases hlt : done < len
    · have hplace : u64 (offset + s32 done) = offset + done := by
        rw [hs32 hle]
        unfold isoEnd SECTOR_SIZE at hend
        unfold u64
        omega
      have hpos : 0 < len - done := by omega
      have hrest : offset + done + (len - done) ≤ isoEnd := by omega
      obtain ⟨hm', hreads, hor⟩ := isoReadChunk_spec hm hpos hrest
      rw [if_pos hlt, hplace]
      dsimp only
      rcases hor with ⟨hret, hdata⟩ | ⟨hret, hfail⟩
      · have hchunk := @isoChunkLength_pos (offset + done) _ hpos
        have hchunk' := @isoChunkLength_le (offset + done) (len - done)
        have hnext : u32 (done + (isoChunkLength (offset + done) (len - done) : Int).toNat) =
            done + isoChunkLength (offset + done) (len - done) := by
          rw [Int.toNat_natCast]
          exact u32_of_lt (by omega)
        rw [hret, if_pos (by omega), hnext, hdata, ← read_add]
        have hdone : done + isoChunkLength (offset + done) (len - done) ≤ len := by omega
        obtain ⟨hc, hr, hor⟩ := ih hm' hdone (by omega)
        refine ⟨hc, Nat.le_trans hreads hr, ?_⟩
        rcases hor with hgood | ⟨hret, hfail⟩
        · exact .inl hgood
        · exact .inr ⟨hret, hfail.trans hreads⟩
      · rw [hret, if_neg (by omega), if_neg (by omega)]
        exact ⟨hm', hreads, .inr ⟨rfl, hfail⟩⟩
    · have hdone : done = len := by omega
      subst hdone
      rw [if_neg hlt]
      dsimp only
      exact ⟨hm, Nat.le_refl _, .inl ⟨hs32 hle, rfl⟩⟩

theorem isoRead_spec (hm : m.Cached d) (hlen : len < 2 ^ 31) (hend : offset + len ≤ isoEnd) :
    let r := isoRead d m offset len
    r.1.Cached d ∧ m.reads ≤ r.1.reads ∧
      ((r.2.1 = len ∧ r.2.2 = read d.bytes offset len) ∨ (r.2.1 = -1 ∧ IsoFailed d m r.1)) :=
  isoReadLoop_spec hlen hend hm (Nat.zero_le _) (by omega)

theorem isoHistory_cached {calls : List (Nat × Nat)} (hcalls : ∀ call ∈ calls, 0 < call.2 ∧ call.1 + call.2 ≤ isoEnd) :
    ∀ {m : IsoMount}, m.Cached d → (isoHistory d m calls).Cached d := by
  induction calls with
  | nil => exact fun hm => hm
  | cons call calls ih =>
    intro m hm
    obtain ⟨hpos, hend⟩ := hcalls call List.mem_cons_self
    exact ih (fun c hc => hcalls c (List.mem_cons_of_mem _ hc)) (isoReadChunk_spec hm hpos hend).1

theorem isoFresh_cached (buffer : Nat → UInt8) : (isoFresh buffer).Cached d := .inl rfl

/-- How many bytes of a file are left for a read. -/
def IsoFile.next (f : IsoFile) (len : Nat) : Nat := min len (f.size - f.offset)

theorem iso9660ReadR_spec {f : IsoFile} (hm : m.Cached d) (hopen : f.inUse = true)
    (hfile : f.sector * SECTOR_SIZE + f.size ≤ isoEnd) (hlen : f.next len < 2 ^ 31) :
    let r := iso9660ReadR d m f len
    (r.ret = f.next len ∧ r.data = read d.bytes (f.sector * SECTOR_SIZE + f.offset) (f.next len) ∧
        r.file = { f with offset := f.offset + f.next len }) ∨
      (r.ret = -1 ∧ IsoFailed d m r.mount ∧ r.file = f) := by
  have hno : ¬ (!f.inUse) = true := by
    rw [hopen]
    decide
  unfold iso9660ReadR
  dsimp only
  rw [if_neg hno]
  by_cases hpast : f.offset ≥ f.size
  · have hzero : f.next len = 0 := by
      unfold IsoFile.next
      omega
    rw [if_pos hpast, hzero]
    exact .inl ⟨rfl, rfl, rfl⟩
  · have hnext : (if len + f.offset > f.size then f.size - f.offset else len) = f.next len := by
      unfold IsoFile.next
      split <;> omega
    rw [if_neg hpast, hnext]
    by_cases hzero : f.next len = 0
    · rw [if_pos hzero, hzero]
      exact .inl ⟨rfl, rfl, rfl⟩
    · have hle : f.next len ≤ f.size - f.offset := Nat.min_le_right ..
      rw [if_neg hzero]
      have hend : f.sector * SECTOR_SIZE + f.offset + f.next len ≤ isoEnd := by omega
      obtain ⟨-, -, hor⟩ := isoRead_spec hm hlen hend
      rcases hor with ⟨hret, hdata⟩ | ⟨hret, hfail⟩
      · rw [hret, if_neg (by omega)]
        exact .inl ⟨rfl, hdata, rfl⟩
      · rw [hret, if_pos (by omega)]
        exact .inr ⟨rfl, hfail, rfl⟩

end Reads

/-- **The cached reads.**  Whatever was read before and whichever of these reads failed, `_read` returns the length it was given and
copies the bytes of the disc, or it returns -1 and a read of sectors has failed meanwhile; so `_ISO9660_read_r` on an open file returns
and copies what is next in the file, as far as it goes, and moves the file's offset on by that much. -/
theorem iso_cached_reads (d : IsoDisc) (buffer : Nat → UInt8) (calls : List (Nat × Nat))
    (hcalls : ∀ call ∈ calls, 0 < call.2 ∧ call.1 + call.2 ≤ isoEnd) :
    let m := isoHistory d (isoFresh buffer) calls
    (∀ offset len, 0 < len → len < 2 ^ 31 → offset + len ≤ isoEnd →
      let r := isoRead d m offset len
      (r.2.1 = len ∧ r.2.2 = read d.bytes offset len) ∨ (r.2.1 = -1 ∧ IsoFailed d m r.1)) ∧
    ∀ (f : IsoFile) len, f.inUse = true → f.sector * SECTOR_SIZE + f.size ≤ isoEnd → f.next len < 2 ^ 31 →
      let r := iso9660ReadR d m f len
      (r.ret = f.next len ∧ r.data = read d.bytes (f.sector * SECTOR_SIZE + f.offset) (f.next len) ∧
          r.file = { f with offset := f.offset + f.next len }) ∨
        (r.ret = -1 ∧ IsoFailed d m r.mount ∧ r.file = f) := by
  intro m
  have hm : m.Cached d := isoHistory_cached hcalls (isoFresh_cached buffer)
  exact ⟨fun offset len _ hlen hend => (isoRead_spec hm hlen hend).2.2,
    fun f len hopen hfile hlen => iso9660ReadR_spec hm hopen hfile hlen⟩

/-- A disc on which no read fails. -/
def isoDiscCounting : IsoDisc := ⟨fun n => UInt8.ofNat n, fun _ => none⟩

/-- A read across the end of what the cache holds. -/
theorem iso_cached_reads_across : (0 < 4 ∧ 2 + 4 ≤ isoEnd) ∧
    (isoRead isoDiscCounting (isoHistory isoDiscCounting (isoFresh fun _ => 0) [(2, 4)]) 32766 4).2.2 = [254, 255, 0, 1] := by
  have hcalls : ∀ call ∈ [(2, 4)], 0 < call.2 ∧ call.1 + call.2 ≤ isoEnd := by decide
  refine ⟨by decide, ?_⟩
  rcases (iso_cached_reads isoDiscCounting (fun _ => 0) [(2, 4)] hcalls).1 32766 4 (by decide) (by decide) (by decide) with
    ⟨-, hdata⟩ | ⟨-, n, -, -, hout⟩
  · exact hdata
  · exact absurd rfl hout

theorem isoReadLoop_int (d : IsoDisc) (offset len : Nat) :
    ∀ (fuel : Nat) (m : IsoMount) (done : Nat) (data : List UInt8), ∃ n, (isoReadLoop d offset len fuel m done data).2.1 = s32 n := by
  intro fuel
  induction fuel with
  | zero =>
    intro m done data
    refine ⟨done, ?_⟩
    rw [isoReadLoop]
  | succ fuel ih =>
    intro m done data
    rw [isoReadLoop]
    dsimp only
    split
    · split
      · exact ih ..
      · split
        · refine ⟨done, ?_⟩
          dsimp only
        · have hminus : s32 (-1) = -1 := s32_of_range (by decide) (by decide)
          refine ⟨-1, ?_⟩
          dsimp only
          rw [hminus]
    · refine ⟨done, ?_⟩
      dsimp only

/-- **A length of 2^31** is none that `_read` can return. -/
theorem iso_read_no_length : (∀ n, isoDiscCounting.outcome n = none) ∧
    (isoRead isoDiscCounting (isoFresh fun _ => 0) 0 (2 ^ 31)).2.1 ≠ 2 ^ 31 := by
  refine ⟨fun _ => rfl, ?_⟩
  obtain ⟨n, hn⟩ := isoReadLoop_int isoDiscCounting 0 (2 ^ 31) (2 ^ 31) (isoFresh fun _ => 0) 0 []
  unfold isoRead
  rw [hn]
  exact Int.ne_of_lt (s32_range n).2

end Libogc
