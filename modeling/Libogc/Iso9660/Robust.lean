import Mathlib.Data.Nat.Find
import Mathlib.Logic.Function.Iterate
import Libogc.Iso9660.Decode
/-!
# Robust — what a scan does on any disc

Where the records of a directory are is decided by the bytes of the disc alone: an `IsoCursor` goes from one to the next.  The scan
follows it until the sectors that it has passed are as many as the size of the directory says; a size that is no number of sectors
never runs out.
-/
namespace Libogc

open Bytes

/-- Where a scan is on a disc, and what its reads have left. -/
structure IsoCursor where
  mount : IsoMount
  cluster : Nat → UInt8
  sector : Nat
  sectorOffset : Nat
  passed : Nat

def IsoCursor.load (d : IsoDisc) (c : IsoCursor) : IsoCursor :=
  let r := isoReadChunk d c.mount (c.sector * SECTOR_SIZE + c.sectorOffset) (SECTOR_SIZE - c.sectorOffset)
  { c with mount := r.1, cluster := isoFill r.2.2 c.cluster }

/-- The record after this one. -/
def IsoCursor.next (d : IsoDisc) (c : IsoCursor) : IsoCursor :=
  let c := c.load d
  let offset := (c.cluster 0).toNat
  if c.sectorOffset + offset ≥ SECTOR_SIZE ∨ c.cluster offset = 0 then
    { c with sectorOffset := 0, sector := u32 (c.sector + 1), passed := c.passed + 1 }
  else { c with sectorOffset := c.sectorOffset + offset }

/-- The bytes of the `k`-th record, as the scan sees them. -/
def IsoCursor.record (d : IsoDisc) (c : IsoCursor) (k : Nat) : Nat → UInt8 := (((IsoCursor.next d)^[k] c).load d).cluster

/-- The size that a directory gets from its first record, which should be the record `.`. -/
def isoDotSize (buf : Nat → UInt8) : Nat := if buf OFFSET_NAMELEN = 1 ∧ buf OFFSET_NAME = 0 then be32 buf OFFSET_SIZE else 0

/-- The name of a record fits a child, with the zero that ends it. -/
def isoNameFits (v : IsoVolume) (buf : Nat → UInt8) : Prop := v.unicode = true ∨ (buf OFFSET_NAMELEN).toNat < ISO_MAXPATHLEN

/-- **The disc keeps to what the scan relies on**: the first record is the record `.` with a size of some whole sectors, and in these
sectors every name fits. -/
def isoScanSafe (w : IsoWorld) (c : IsoCursor) : Prop :=
  let size := isoDotSize (c.record w.disc 0)
  (size ≠ 0 ∧ SECTOR_SIZE ∣ size) ∧
    ∀ k, ((IsoCursor.next w.disc)^[k] c).passed * SECTOR_SIZE < size → isoNameFits w.volume (c.record w.disc k)

def IsoScan.cursor {P : Type} (s : IsoScan P) : IsoCursor := ⟨s.mount, s.cluster, s.sector, s.sectorOffset, s.passed⟩

/-- How many sectors a scan has visited. -/
def IsoScan.visited {P : Type} (s : IsoScan P) : Nat := s.passed + if s.sectorOffset = 0 then 0 else 1

/-! ## The cursor -/

section Cursor
variable {d : IsoDisc} {c : IsoCursor}

theorem IsoCursor.next_cases (d : IsoDisc) (c : IsoCursor) :
    ((c.next d).passed = c.passed + 1 ∧ (c.next d).sectorOffset = 0) ∨
      ((c.next d).passed = c.passed ∧ c.sectorOffset < (c.next d).sectorOffset ∧ (c.next d).sectorOffset < SECTOR_SIZE) := by
  unfold IsoCursor.next
  dsimp only
  split
  · exact .inl ⟨rfl, rfl⟩
  · rename_i h
    obtain ⟨hlt, hne⟩ := not_or.mp h
    refine .inr ⟨rfl, ?_, by show c.sectorOffset + _ < _; exact Nat.lt_of_not_le hlt⟩
    -- a record of length 0 would end the sector
    have hpos : ((c.load d).cluster 0).toNat ≠ 0 := by
      intro hz
      rw [hz] at hne
      exact hne (UInt8.toNat_inj.mp hz)
    show c.sectorOffset < c.sectorOffset + _
    omega

theorem IsoCursor.iterate_lt (h : c.sectorOffset < SECTOR_SIZE) (k : Nat) : ((next d)^[k] c).sectorOffset < SECTOR_SIZE := by
  induction k with
  | zero => exact h
  | succ k ih =>
    rw [Function.iterate_succ_apply']
    rcases IsoCursor.next_cases d ((next d)^[k] c) with ⟨-, hz⟩ | ⟨-, -, hlt⟩
    · rw [hz]
      decide
    · exact hlt

theorem IsoCursor.passed_mono (d : IsoDisc) (c : IsoCursor) {j k : Nat} (h : j ≤ k) :
    ((next d)^[j] c).passed ≤ ((next d)^[k] c).passed := by
  induction k with
  | zero =>
    rw [Nat.le_zero.mp h]
  | succ k ih =>
    rcases Nat.lt_or_eq_of_le h with hlt | heq
    · have hk := ih (by omega)
      rw [Function.iterate_succ_apply']
      rcases IsoCursor.next_cases d ((next d)^[k] c) with ⟨hp, -⟩ | ⟨hp, -, -⟩ <;> omega
    · rw [heq]

theorem IsoCursor.leaves (d : IsoDisc) : ∀ (n : Nat) (c : IsoCursor), SECTOR_SIZE - c.sectorOffset ≤ n →
    ∃ k, ((next d)^[k] c).passed = c.passed + 1 := by
  intro n
  induction n with
  | zero =>
    intro c hn
    refine ⟨1, ?_⟩
    rcases IsoCursor.next_cases d c with ⟨hp, -⟩ | ⟨-, hlt, hlt'⟩
    · exact hp
    · omega
  | succ n ih =>
    intro c hn
    rcases IsoCursor.next_cases d c with ⟨hp, -⟩ | ⟨hp, hlt, hlt'⟩
    · exact ⟨1, hp⟩
    · obtain ⟨k, hk⟩ := ih (c.next d) (by omega)
      exact ⟨k + 1, by rw [Function.iterate_succ_apply, hk, hp]⟩

theorem IsoCursor.reaches (d : IsoDisc) (c : IsoCursor) (p : Nat) : ∃ k, ((next d)^[k] c).passed = c.passed + p := by
  induction p with
  | zero => exact ⟨0, rfl⟩
  | succ p ih =>
    obtain ⟨k, hk⟩ := ih
    obtain ⟨j, hj⟩ := IsoCursor.leaves d _ ((next d)^[k] c) (Nat.le_refl _)
    refine ⟨j + k, ?_⟩
    rw [Function.iterate_add_apply, hj, hk]
    omega

end Cursor

/-! ## A round on a disc that can be read -/

section Rounds
variable {P : Type} {w : IsoWorld} {s : IsoScan P} {path : P}

/-- The state after a round when no read fails and there is memory. -/
def IsoScan.follow (w : IsoWorld) (path : P) (s : IsoScan P) : IsoScan P :=
  let l := (s.load w).1
  ({ l with entry := (isoReadDirentry w.volume true l.entry l.cluster).1 } : IsoScan P).advance path (l.cluster 0).toNat

theorem isoReadChunk_ok (hdisc : ∀ n, w.disc.outcome n = none) (m : IsoMount) (offset len : Nat) :
    (isoReadChunk w.disc m offset len).2.1 = isoChunkLength offset len := by
  unfold isoReadChunk
  dsimp only
  split
  · rfl
  · unfold isoReadSectors
    rw [hdisc]
    rfl

theorem isoReadDirentry_ret (v : IsoVolume) (entry : IsoDir P) (buf : Nat → UInt8) :
    (isoReadDirentry v true entry buf).2 = (buf 0).toNat := by
  unfold isoReadDirentry
  dsimp only
  split
  · rfl
  · split
    · rfl
    · rfl

theorem isoRound_ok (hdisc : ∀ n, w.disc.outcome n = none) (hroom : ∀ k, w.room k = true) (ho : s.sectorOffset < SECTOR_SIZE) :
    s.round w path = (s.follow w path, if (s.follow w path).remaining > 0 then none else some true) := by
  have hchunk : isoChunkLength (s.sector * SECTOR_SIZE + s.sectorOffset) (SECTOR_SIZE - s.sectorOffset) =
      SECTOR_SIZE - s.sectorOffset := by
    unfold isoChunkLength BUFFER_SIZE SECTOR_SIZE at *
    omega
  have hok : (s.load w).2 = true := by
    unfold IsoScan.load
    dsimp only
    rw [isoReadChunk_ok hdisc, hchunk]
    exact decide_eq_true rfl
  unfold IsoScan.round IsoScan.follow
  dsimp only
  rw [hok, hroom, if_neg (by decide), isoReadDirentry_ret, if_neg (by omega), Int.toNat_natCast]
  split <;> rfl

theorem isoFollow_cursor (s : IsoScan P) : (s.follow w path).cursor = s.cursor.next w.disc := by
  have htook : ∀ t : IsoScan P, ∀ n, (t.advance path n).cursor =
      if t.sectorOffset + n ≥ SECTOR_SIZE ∨ t.cluster n = 0 then
        { t.cursor with sectorOffset := 0, sector := u32 (t.sector + 1), passed := t.passed + 1 }
      else { t.cursor with sectorOffset := t.sectorOffset + n } := by
    intro t n
    unfold IsoScan.advance
    dsimp only
    by_cases hrem : t.remaining = 0
    · rw [if_pos hrem]
      split <;> rfl
    · rw [if_neg hrem]
      split <;> rfl
  exact htook _ _

theorem isoFollow_remaining (s : IsoScan P) :
    let rem := if s.remaining = 0 then (isoReadDirentry w.volume true s.entry (s.load w).1.cluster).1.size else s.remaining
    ((s.follow w path).passed = s.passed + 1 ∧ (s.follow w path).remaining = u32 (rem + 2 ^ 32 - SECTOR_SIZE)) ∨
      ((s.follow w path).passed = s.passed ∧ (s.follow w path).remaining = rem) := by
  intro rem
  have hrem : (s.load w).1.remaining = s.remaining := rfl
  have hentry : (s.load w).1.entry = s.entry := rfl
  unfold IsoScan.follow IsoScan.advance
  dsimp only
  by_cases hz : s.remaining = 0
  · have hr : rem = (isoReadDirentry w.volume true s.entry (s.load w).1.cluster).1.size := if_pos hz
    rw [hrem, if_pos hz, hr, hentry]
    split
    · exact .inl ⟨rfl, rfl⟩
    · exact .inr ⟨rfl, rfl⟩
  · have hr : rem = s.remaining := if_neg hz
    rw [hrem, if_neg hz, hr]
    split
    · exact .inl ⟨rfl, rfl⟩
    · exact .inr ⟨rfl, rfl⟩

theorem isoCutVersion_length (flags : UInt8) (n : Nat) (name : List UInt8) : (isoCutVersion flags n name).length = name.length := by
  unfold isoCutVersion
  split
  · exact List.length_set
  · rfl

theorem isoStoredName_length (v : IsoVolume) (buf : Nat → UInt8) (hdd : ¬ ((buf OFFSET_NAMELEN).toNat = 1 ∧ buf OFFSET_NAME = 1)) :
    (isoStoredName v buf).length = if v.unicode then (buf OFFSET_NAMELEN).toNat / 2 else (buf OFFSET_NAMELEN).toNat := by
  unfold isoStoredName
  dsimp only
  rw [if_neg hdd]
  split
  · rw [List.length_map, List.length_range]
  · exact read_length ..

theorem isoReadDirentry_fits (v : IsoVolume) (entry : IsoDir P) (buf : Nat → UInt8)
    (hfit : ∀ c ∈ entry.children, c.name.length + 1 ≤ ISO_MAXPATHLEN) :
    (∀ c ∈ (isoReadDirentry v true entry buf).1.children, c.name.length + 1 ≤ ISO_MAXPATHLEN) ↔ isoNameFits v buf := by
  have hone : ∀ {x : UInt8}, x = 1 → x.toNat < ISO_MAXPATHLEN := by
    rintro x rfl
    decide
  unfold isoReadDirentry
  dsimp only
  split
  · rename_i h
    exact ⟨fun _ => .inr (hone h.1), fun _ => hfit⟩
  · split
    · rename_i h
      exact ⟨fun _ => .inr (hone h.1), fun _ => hfit⟩
    · rw [if_pos rfl]
      have hlast : (∀ c ∈ entry.children ++ [(⟨isoCutVersion (buf OFFSET_FLAGS) (isoStoredLength v buf) (isoStoredName v buf),
            u32 (be32 buf OFFSET_SECTOR + (buf OFFSET_EXTENDED).toNat), be32 buf OFFSET_SIZE, buf OFFSET_FLAGS⟩ : IsoChild)],
          c.name.length + 1 ≤ ISO_MAXPATHLEN) ↔ (isoStoredName v buf).length + 1 ≤ ISO_MAXPATHLEN := by
        rw [List.forall_mem_append, List.forall_mem_singleton, isoCutVersion_length]
        exact ⟨fun h => h.2, fun h => ⟨hfit, h⟩⟩
      refine hlast.trans ?_
      have hbyte := (buf OFFSET_NAMELEN).toNat_lt
      unfold isoNameFits
      by_cases hdd : (buf OFFSET_NAMELEN).toNat = 1 ∧ buf OFFSET_NAME = 1
      · have hlen : (isoStoredName v buf).length = 2 := by
          unfold isoStoredName
          dsimp only
          rw [if_pos hdd]
          rfl
        rw [hlen, hdd.1]
        exact ⟨fun _ => .inr (by decide), fun _ => by decide⟩
      · rw [isoStoredName_length v buf hdd]
        unfold ISO_MAXPATHLEN
        cases v.unicode with
        | true =>
          rw [if_pos rfl]
          exact ⟨fun _ => .inl rfl, fun _ => by omega⟩
        | false =>
          rw [if_neg Bool.false_ne_true]
          constructor
          · exact fun h => .inr (by omega)
          · rintro (h | h)
            · cases h
            · omega

/-! ## Runs -/

theorem isoFollow_iterate (s : IsoScan P) (k : Nat) : ((IsoScan.follow w path)^[k] s).cursor = (IsoCursor.next w.disc)^[k] s.cursor := by
  induction k with
  | zero => rfl
  | succ k ih => rw [Function.iterate_succ_apply', Function.iterate_succ_apply', isoFollow_cursor, ih]

theorem isoFollow_passed (s : IsoScan P) (k : Nat) :
    ((IsoScan.follow w path)^[k] s).passed = ((IsoCursor.next w.disc)^[k] s.cursor).passed :=
  congrArg IsoCursor.passed (isoFollow_iterate s k)

theorem isoFollow_offset (s : IsoScan P) (k : Nat) :
    ((IsoScan.follow w path)^[k] s).sectorOffset = ((IsoCursor.next w.disc)^[k] s.cursor).sectorOffset :=
  congrArg IsoCursor.sectorOffset (isoFollow_iterate s k)

/-- A scan that returns has followed the cursor to the first place where nothing remained. -/
theorem isoRun_some (hdisc : ∀ n, w.disc.outcome n = none) (hroom : ∀ k, w.room k = true) {n : Nat} :
    ∀ {s t : IsoScan P} {ret : Bool}, s.sectorOffset < SECTOR_SIZE → s.run w path n = some (t, ret) →
      ∃ k, t = (IsoScan.follow w path)^[k + 1] s ∧ t.remaining = 0 ∧
        ∀ j < k, ((IsoScan.follow w path)^[j + 1] s).remaining ≠ 0 := by
  induction n with
  | zero => exact fun _ h => absurd h (Option.some_ne_none _).symm
  | succ n ih =>
    intro s t ret ho h
    rw [IsoScan.run, isoRound_ok hdisc hroom ho] at h
    by_cases hrem : (s.follow w path).remaining > 0
    · rw [if_pos hrem] at h
      have ho' : (s.follow w path).sectorOffset < SECTOR_SIZE := by
        have hlt := IsoCursor.iterate_lt (d := w.disc) (c := s.cursor) ho 1
        rwa [← isoFollow_offset] at hlt
      obtain ⟨k, ht, hz, hne⟩ := ih ho' h
      refine ⟨k + 1, by rw [Function.iterate_succ_apply]; exact ht, hz, fun j hj => ?_⟩
      rw [Function.iterate_succ_apply]
      cases j with
      | zero => exact Nat.pos_iff_ne_zero.mp hrem
      | succ j => exact hne j (by omega)
    · rw [if_neg hrem] at h
      obtain ⟨rfl, -⟩ := Prod.mk.inj (Option.some.inj h)
      exact ⟨0, rfl, by omega, fun j hj => absurd hj (Nat.not_lt_zero j)⟩

theorem isoRun_of (hdisc : ∀ n, w.disc.outcome n = none) (hroom : ∀ k, w.room k = true) {k : Nat} :
    ∀ {s : IsoScan P}, s.sectorOffset < SECTOR_SIZE → ((IsoScan.follow w path)^[k + 1] s).remaining = 0 →
      (∀ j < k, ((IsoScan.follow w path)^[j + 1] s).remaining ≠ 0) →
      s.run w path (k + 1) = some ((IsoScan.follow w path)^[k + 1] s, true) := by
  induction k with
  | zero =>
    intro s ho hz _
    have hz : (s.follow w path).remaining = 0 := hz
    rw [IsoScan.run, isoRound_ok hdisc hroom ho, hz]
    rfl
  | succ k ih =>
    intro s ho hz hne
    have hrem : (s.follow w path).remaining > 0 := Nat.pos_of_ne_zero (hne 0 (by omega))
    have ho' : (s.follow w path).sectorOffset < SECTOR_SIZE := by
      have hlt := IsoCursor.iterate_lt (d := w.disc) (c := s.cursor) ho 1
      rwa [← isoFollow_offset] at hlt
    rw [IsoScan.run, isoRound_ok hdisc hroom ho, if_pos hrem]
    exact ih ho' hz fun j hj => hne (j + 1) (by omega)

end Rounds

/-! ## The scan of a directory -/

section Scan
variable {P : Type} {w : IsoWorld} {path : P} {mount : IsoMount} {cluster : Nat → UInt8} {start : Nat}

/-- The state of a scan that has taken `k` records. -/
def isoScanned (w : IsoWorld) (path : P) (mount : IsoMount) (cluster : Nat → UInt8) (start k : Nat) : IsoScan P :=
  (IsoScan.follow w path)^[k] (isoScanStart mount cluster start)

/-- Where it is. -/
def isoPlace (w : IsoWorld) (mount : IsoMount) (cluster : Nat → UInt8) (start k : Nat) : IsoCursor :=
  (IsoCursor.next w.disc)^[k] ⟨mount, cluster, start, 0, 0⟩

theorem isoScanned_passed (k : Nat) :
    (isoScanned w path mount cluster start k).passed = (isoPlace w mount cluster start k).passed := isoFollow_passed _ k

theorem isoScanned_succ (k : Nat) :
    isoScanned w path mount cluster start (k + 1) = (isoScanned w path mount cluster start k).follow w path :=
  Function.iterate_succ_apply' ..

theorem isoScanned_offset (k : Nat) :
    (isoScanned w path mount cluster start k).sectorOffset = (isoPlace w mount cluster start k).sectorOffset := isoFollow_offset _ k

theorem isoPlace_succ (k : Nat) :
    isoPlace w mount cluster start (k + 1) = (isoPlace w mount cluster start k).next w.disc := Function.iterate_succ_apply' ..

theorem isoDirentry_size (v : IsoVolume) (buf : Nat → UInt8) :
    (isoReadDirentry v true (isoScanStart (P := P) mount cluster start).entry buf).1.size = isoDotSize buf := by
  unfold isoReadDirentry isoDotSize
  dsimp only
  split
  · rename_i h
    rw [if_neg (by rintro ⟨-, h0⟩; rw [h.2.1] at h0; cases h0)]
    rfl
  · split <;> rfl

theorem isoDotSize_lt (buf : Nat → UInt8) : isoDotSize buf < 2 ^ 32 := by
  unfold isoDotSize
  split
  · exact be32_lt ..
  · decide

/-- **What remains**: with the sectors that are passed it makes up the size, as long as the scan goes on. -/
theorem isoRemaining_spec (k : Nat) (hne : ∀ j < k, (isoScanned w path mount cluster start (j + 1)).remaining ≠ 0) :
    (isoScanned w path mount cluster start (k + 1)).remaining < 2 ^ 32 ∧
      u32 ((isoScanned w path mount cluster start (k + 1)).remaining +
        (isoPlace w mount cluster start (k + 1)).passed * SECTOR_SIZE) =
        isoDotSize ((IsoCursor.mk mount cluster start 0 0).record w.disc 0) := by
  have hlt := isoDotSize_lt ((IsoCursor.mk mount cluster start 0 0).record w.disc 0)
  induction k with
  | zero =>
    have hp : (isoScanned w path mount cluster start 0).passed = 0 := rfl
    have hz : (isoScanned w path mount cluster start 0).remaining = 0 := rfl
    have hrem := @isoFollow_remaining _ w path (isoScanned w path mount cluster start 0)
    rw [← isoScanned_succ] at hrem
    rw [← isoScanned_passed]
    dsimp only at hrem
    rw [if_pos hz] at hrem
    have hsize : (isoReadDirentry w.volume true (isoScanned w path mount cluster start 0).entry
        ((isoScanned w path mount cluster start 0).load w).1.cluster).1.size =
        isoDotSize ((IsoCursor.mk mount cluster start 0 0).record w.disc 0) := isoDirentry_size ..
    rw [hsize, hp] at hrem
    rcases hrem with ⟨hp', hr⟩ | ⟨hp', hr⟩
    · rw [hp', hr]
      unfold u32 SECTOR_SIZE
      omega
    · rw [hp', hr]
      unfold u32
      omega
  | succ k ih =>
    obtain ⟨hlt', hsum⟩ := ih fun j hj => hne j (by omega)
    have hrem := @isoFollow_remaining _ w path (isoScanned w path mount cluster start (k + 1))
    rw [← isoScanned_succ] at hrem
    rw [← @isoScanned_passed _ _ path] at hsum ⊢
    dsimp only at hrem
    rw [if_neg (hne k (by omega))] at hrem
    rcases hrem with ⟨hp', hr⟩ | ⟨hp', hr⟩
    · rw [hp', hr]
      rw [← hsum]
      unfold u32 SECTOR_SIZE
      omega
    · rw [hp', hr]
      exact ⟨hlt', hsum⟩

theorem isoChildren_fit (k : Nat) :
    (∀ c ∈ (isoScanned w path mount cluster start k).entry.children, c.name.length + 1 ≤ ISO_MAXPATHLEN) ↔
      ∀ j < k, isoNameFits w.volume ((IsoCursor.mk mount cluster start 0 0).record w.disc j) := by
  have hstep : ∀ k, (isoScanned w path mount cluster start (k + 1)).entry.children =
      (isoReadDirentry w.volume true (isoScanned w path mount cluster start k).entry
        ((IsoCursor.mk mount cluster start 0 0).record w.disc k)).1.children := by
    intro k
    have hcluster : ((isoScanned w path mount cluster start k).load w).1.cluster =
        (IsoCursor.mk mount cluster start 0 0).record w.disc k := by
      have hcur : (isoScanned w path mount cluster start k).cursor = isoPlace w mount cluster start k := isoFollow_iterate _ k
      unfold IsoCursor.record
      show _ = ((isoPlace w mount cluster start k).load w.disc).cluster
      rw [← hcur]
      rfl
    rw [isoScanned_succ, ← hcluster]
    unfold IsoScan.follow IsoScan.advance
    dsimp only
    split <;> split <;> rfl
  have hmono : ∀ (entry : IsoDir P) (buf : Nat → UInt8) (c : IsoChild), c ∈ entry.children →
      c ∈ (isoReadDirentry w.volume true entry buf).1.children := by
    intro entry buf c hc
    unfold isoReadDirentry
    dsimp only
    split
    · exact hc
    · split
      · exact hc
      · exact List.mem_append_left _ hc
  induction k with
  | zero => exact ⟨fun _ j hj => absurd hj (Nat.not_lt_zero j), fun _ c hc => absurd hc List.not_mem_nil⟩
  | succ k ih =>
    rw [hstep]
    constructor
    · intro hfit
      have hold : ∀ c ∈ (isoScanned w path mount cluster start k).entry.children, c.name.length + 1 ≤ ISO_MAXPATHLEN :=
        fun c hc => hfit c (hmono _ _ c hc)
      intro j hj
      rcases Nat.lt_succ_iff_lt_or_eq.mp hj with hlt | rfl
      · exact ih.mp hold j hlt
      · exact (isoReadDirentry_fits _ _ _ hold).mp hfit
    · intro hall
      have hold := ih.mpr fun j hj => hall j (by omega)
      exact (isoReadDirentry_fits _ _ _ hold).mpr (hall k (by omega))

theorem isoPlace_mono {j k : Nat} (h : j ≤ k) : (isoPlace w mount cluster start j).passed ≤ (isoPlace w mount cluster start k).passed :=
  IsoCursor.passed_mono w.disc _ h

theorem isoScanned_visited (k : Nat) : 0 < (isoScanned w path mount cluster start (k + 1)).visited := by
  unfold IsoScan.visited
  rw [isoScanned_offset, isoScanned_passed, isoPlace_succ]
  rcases IsoCursor.next_cases w.disc (isoPlace w mount cluster start k) with ⟨hp, -⟩ | ⟨-, hlt, -⟩
  · omega
  · rw [if_neg (by omega)]
    omega

/-- **A size of some whole sectors runs out** when that many sectors are passed, and not before. -/
theorem isoScan_returns (hdisc : ∀ n, w.disc.outcome n = none) (hroom : ∀ k, w.room k = true) {count : Nat} (hpos : 0 < count)
    (hsize : isoDotSize ((IsoCursor.mk mount cluster start 0 0).record w.disc 0) = count * SECTOR_SIZE) :
    ∃ k, (isoScanStart mount cluster start).run w path (k + 1) = some (isoScanned w path mount cluster start (k + 1), true) ∧
      (isoScanned w path mount cluster start (k + 1)).visited = count ∧
      ∀ j < k + 1, (isoPlace w mount cluster start j).passed < count := by
  have hlt := isoDotSize_lt ((IsoCursor.mk mount cluster start 0 0).record w.disc 0)
  rw [hsize] at hlt
  have hex : ∃ k, (isoPlace w mount cluster start k).passed = count := by
    obtain ⟨k, hk⟩ := IsoCursor.reaches w.disc ⟨mount, cluster, start, 0, 0⟩ count
    exact ⟨k, hk.trans (Nat.zero_add count)⟩
  obtain ⟨k, hk, hmin⟩ : ∃ k, (isoPlace w mount cluster start k).passed = count ∧
      ∀ j < k, (isoPlace w mount cluster start j).passed ≠ count :=
    ⟨Nat.find hex, Nat.find_spec hex, fun j hj => Nat.find_min hex hj⟩
  have hbefore : ∀ j < k, (isoPlace w mount cluster start j).passed < count := by
    intro j hj
    have hle := @isoPlace_mono w mount cluster start _ _ (Nat.le_of_lt hj)
    have := hmin j hj
    omega
  cases k with
  | zero =>
    have hzero : (0 : Nat) = count := hk
    omega
  | succ k =>
    -- the step that passes the last sector
    have hlast : (isoPlace w mount cluster start (k + 1)).sectorOffset = 0 := by
      have hkb := hbefore k (by omega)
      rw [isoPlace_succ] at hk ⊢
      rcases IsoCursor.next_cases w.disc (isoPlace w mount cluster start k) with ⟨-, hz⟩ | ⟨hp, -, -⟩
      · exact hz
      · omega
    have hne : ∀ j < k, (isoScanned w path mount cluster start (j + 1)).remaining ≠ 0 := by
      intro j
      induction j using Nat.strongRecOn with
      | ind j ih =>
        intro hj hz
        obtain ⟨-, hsum⟩ := isoRemaining_spec j fun i hi => ih i hi (by omega)
        have hp := hbefore (j + 1) (by omega)
        have hfew : (isoPlace w mount cluster start (j + 1)).passed * SECTOR_SIZE < 2 ^ 32 :=
          Nat.lt_of_le_of_lt (Nat.mul_le_mul_right _ (Nat.le_of_lt hp)) hlt
        rw [hz, Nat.zero_add, hsize, u32_of_lt hfew] at hsum
        exact Nat.ne_of_lt hp (Nat.eq_of_mul_eq_mul_right (by decide) hsum)
    have hzero : (isoScanned w path mount cluster start (k + 1)).remaining = 0 := by
      obtain ⟨hr, hsum⟩ := isoRemaining_spec k hne
      rw [hk, hsize] at hsum
      unfold u32 SECTOR_SIZE at *
      omega
    have hstart : (isoScanStart (P := P) mount cluster start).sectorOffset < SECTOR_SIZE := by
      show 0 < SECTOR_SIZE
      decide
    refine ⟨k, isoRun_of (s := isoScanStart mount cluster start) hdisc hroom hstart hzero hne, ?_, hbefore⟩
    unfold IsoScan.visited
    rw [isoScanned_offset, hlast, if_pos rfl, isoScanned_passed, hk, Nat.add_zero]

/-- **What a scan that returns tells of the size**: it was no more than the sectors passed, counted in 32 bits. -/
theorem isoScan_size (hdisc : ∀ n, w.disc.outcome n = none) (hroom : ∀ k, w.room k = true) {n : Nat} {t : IsoScan P} {ret : Bool}
    (h : (isoScanStart mount cluster start).run w path n = some (t, ret)) :
    ∃ k, t = isoScanned w path mount cluster start (k + 1) ∧
      u32 ((isoPlace w mount cluster start (k + 1)).passed * SECTOR_SIZE) =
        isoDotSize ((IsoCursor.mk mount cluster start 0 0).record w.disc 0) := by
  obtain ⟨k, rfl, hz, hne⟩ := isoRun_some hdisc hroom (by show 0 < SECTOR_SIZE; decide) h
  obtain ⟨-, hsum⟩ := isoRemaining_spec k hne
  have hz : (isoScanned w path mount cluster start (k + 1)).remaining = 0 := hz
  rw [hz, Nat.zero_add] at hsum
  exact ⟨k, rfl, hsum⟩

/-- **The scan on any disc.**  When the reads succeed and there is memory, the scan returns after no more sectors than the size of the
directory has, with every name inside its array, exactly if the size is some whole sectors and the names in them fit. -/
theorem iso_scan_robust (hdisc : ∀ n, w.disc.outcome n = none) (hroom : ∀ k, w.room k = true) (mount : IsoMount)
    (cluster : Nat → UInt8) (path : P) (start : Nat) :
    (∃ n t ret, (isoScanStart mount cluster start).run w path n = some (t, ret) ∧
        t.visited ≤ (isoDotSize ((IsoCursor.mk mount cluster start 0 0).record w.disc 0) + (SECTOR_SIZE - 1)) / SECTOR_SIZE ∧
        ∀ c ∈ t.entry.children, c.name.length + 1 ≤ ISO_MAXPATHLEN) ↔
      isoScanSafe w ⟨mount, cluster, start, 0, 0⟩ := by
  have hlt := isoDotSize_lt ((IsoCursor.mk mount cluster start 0 0).record w.disc 0)
  unfold isoScanSafe
  constructor
  · rintro ⟨n, t, ret, hrun, hvisited, hfit⟩
    obtain ⟨k, rfl, hsum⟩ := isoScan_size hdisc hroom hrun
    have hpos := @isoScanned_visited _ w path mount cluster start k
    have hle : (isoPlace w mount cluster start (k + 1)).passed ≤ (isoScanned w path mount cluster start (k + 1)).visited := by
      unfold IsoScan.visited
      rw [isoScanned_passed]
      exact Nat.le_add_right ..
    generalize hsize : isoDotSize ((IsoCursor.mk mount cluster start 0 0).record w.disc 0) = size at *
    have heq : (isoPlace w mount cluster start (k + 1)).passed * SECTOR_SIZE = size := by
      unfold u32 SECTOR_SIZE at *
      omega
    refine ⟨⟨?_, ⟨_, (heq.symm.trans (Nat.mul_comm ..))⟩⟩, fun j hj => (isoChildren_fit (k + 1)).mp hfit j ?_⟩
    · rintro rfl
      unfold SECTOR_SIZE at *
      omega
    · rw [← heq] at hj
      have hj : (isoPlace w mount cluster start j).passed < (isoPlace w mount cluster start (k + 1)).passed :=
        Nat.lt_of_mul_lt_mul_right hj
      by_contra hge
      have := @isoPlace_mono w mount cluster start _ _ (Nat.le_of_not_lt hge)
      omega
  · rintro ⟨⟨hne, count, hcount⟩, hnames⟩
    rw [Nat.mul_comm] at hcount
    have hpos : 0 < count := by
      refine Nat.pos_of_ne_zero ?_
      rintro rfl
      exact hne (by rw [hcount, Nat.zero_mul])
    obtain ⟨k, hrun, hvisited, hbefore⟩ := isoScan_returns hdisc hroom hpos hcount
    refine ⟨k + 1, _, true, hrun, ?_, (isoChildren_fit (k + 1)).mpr fun j hj => hnames j ?_⟩
    · rw [hvisited, hcount]
      unfold SECTOR_SIZE
      omega
    · have hp := hbefore j hj
      rw [hcount]
      exact Nat.mul_lt_mul_of_pos_right hp (by decide)

end Scan

theorem isoSample_safe : isoScanSafe isoSampleWorld ⟨isoFresh fun _ => 0, fun _ => 0, 20, 0, 0⟩ := by
  have hsize : isoDotSize ((IsoCursor.mk (isoFresh fun _ => 0) (fun _ => 0) 20 0 0).record isoSampleWorld.disc 0) = 2048 := by
    decide +kernel
  have hpassed : ((IsoCursor.next isoSampleWorld.disc)^[2] ⟨isoFresh fun _ => 0, fun _ => 0, 20, 0, 0⟩).passed = 1 := by
    decide +kernel
  unfold isoScanSafe
  dsimp only
  rw [hsize]
  refine ⟨⟨by decide, ⟨1, rfl⟩⟩, fun k hk => ?_⟩
  have hcases : k = 0 ∨ k = 1 ∨ 2 ≤ k := by omega
  rcases hcases with rfl | rfl | htwo
  · exact .inr (by decide +kernel)
  · exact .inr (by decide +kernel)
  · have hmono := IsoCursor.passed_mono isoSampleWorld.disc ⟨isoFresh fun _ => 0, fun _ => 0, 20, 0, 0⟩ htwo
    rw [hpassed] at hmono
    unfold SECTOR_SIZE at hk
    omega

/-- A directory of one sector with a file. -/
theorem iso_scan_robust_sample : isoScanSafe isoSampleWorld ⟨isoFresh fun _ => 0, fun _ => 0, 20, 0, 0⟩ ∧
    ∃ n t ret, (isoScanStart (isoFresh fun _ => 0) (fun _ => 0) 20).run isoSampleWorld () n = some (t, ret) ∧
      t.visited ≤ (isoDotSize ((IsoCursor.mk (isoFresh fun _ => 0) (fun _ => 0) 20 0 0).record isoSampleWorld.disc 0) +
        (SECTOR_SIZE - 1)) / SECTOR_SIZE ∧
      ∀ c ∈ t.entry.children, c.name.length + 1 ≤ ISO_MAXPATHLEN :=
  ⟨isoSample_safe, (iso_scan_robust (w := isoSampleWorld) (fun _ => rfl) (fun _ => rfl) (isoFresh fun _ => 0) (fun _ => 0) () 20).mpr
    isoSample_safe⟩

/-- The sample disc with other bytes. -/
def isoChangedWorld (bytes : List UInt8) : IsoWorld where
  disc := ⟨fun n => bytes.getD (n - 40960) 0, fun _ => none⟩
  volume := ⟨false, 20⟩
  room := fun _ => true

/-- The record `.` has a size of 3000. -/
def isoOddWorld : IsoWorld := isoChangedWorld ((isoSampleBytes.set 16 11).set 17 184)

/-- The file has a name of 200 bytes. -/
def isoLongWorld : IsoWorld := isoChangedWorld ((isoSampleBytes.set 34 255).set 66 200)

/-- **A size that is no number of sectors** is never used up, and **a long name** is stored as far as it goes. -/
theorem iso_scan_misses : (∀ n, (isoScanStart (isoFresh fun _ => 0) (fun _ => 0) 20).run isoOddWorld () n = none) ∧
    ((isoScanStart (isoFresh fun _ => 0) (fun _ => 0) 20).run isoLongWorld () 2).map
      (fun r => r.1.entry.children.map fun c => c.name.length) = some [200] := by
  refine ⟨fun n => ?_, by decide +kernel⟩
  cases h : (isoScanStart (isoFresh fun _ => 0) (fun _ => 0) 20).run isoOddWorld () n with
  | none => rfl
  | some r =>
    obtain ⟨k, -, hsum⟩ := isoScan_size (w := isoOddWorld) (fun _ => rfl) (fun _ => rfl) h
    have hsize : isoDotSize ((IsoCursor.mk (isoFresh fun _ => 0) (fun _ => 0) 20 0 0).record isoOddWorld.disc 0) = 3000 := by
      decide +kernel
    rw [hsize] at hsum
    unfold u32 SECTOR_SIZE at hsum
    omega

end Libogc
