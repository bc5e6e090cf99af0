import Libogc.Sys.Conf
/-!
# ConfBounds — what the lookups in SYSCONF read

The count, the offsets and the lengths of the file are taken as they are.  The reads of each function are listed as offsets from
`__conf_buffer`; `memcmp` reads as many bytes as it is told to compare.
-/
namespace Libogc

open Bytes

/-- The bytes that `CONF_Init` reads. -/
def sizeofConf : Nat := 0x4000

def confScanReads (c : Conf) (name : List UInt8) : Nat → Nat → List Nat
  | 0, _ => []
  | count + 1, offset =>
    let entry := c.u16 offset
    offset :: (offset + 1) :: entry :: (if name.length = (c.buffer entry &&& 0x0F).toNat + 1 then places (entry + 1) name.length else []) ++
      if name.length = (c.buffer entry &&& 0x0F).toNat + 1 ∧ read c.buffer (entry + 1) name.length = name then []
      else confScanReads c name count (offset + 2)

def confFindReads (c : Conf) (name : List UInt8) : List Nat := 4 :: 5 :: confScanReads c name (c.u16 4) 6

def confGetTypeReads (c : Conf) (name : List UInt8) : List Nat :=
  if !c.inited then []
  else match confFind c name with
    | none => confFindReads c name
    | some entry => confFindReads c name ++ [entry]

/-- The length that stands between a name and a payload, in bytes. -/
def confLengthBytes : Nat → Nat
  | 1 => 2
  | 2 => 1
  | _ => 0

def confGetLengthReads (c : Conf) (name : List UInt8) : List Nat :=
  if !c.inited then []
  else match confFind c name with
    | none => confFindReads c name
    | some entry => confFindReads c name ++ entry :: places (entry + name.length + 1) (confLengthBytes (c.entryType entry))

def confGetReads (c : Conf) (name : List UInt8) (length : Nat) : List Nat :=
  if !c.inited then []
  else match confFind c name with
    | none => confFindReads c name
    | some entry =>
      let len := confGetLength c name
      confFindReads c name ++ confGetLengthReads c name ++
        if len < 0 then []
        else if len > length then []
        else
          entry :: match c.entryType entry with
            | 1 => places (entry + name.length + 3) len.toNat
            | 2 => places (entry + name.length + 2) len.toNat
            | 3 | 4 | 5 | 7 => places (entry + name.length + 1) len.toNat
            | _ => []

/-- **The functions read the file only.** -/
structure ConfBounded (c : Conf) (name : List UInt8) (length : Nat) : Prop where
  find : Within (confFindReads c name) sizeofConf
  getType : Within (confGetTypeReads c name) sizeofConf
  getLength : Within (confGetLengthReads c name) sizeofConf
  get : Within (confGetReads c name length) sizeofConf

/-! ## The file -/

/-- Where the item `k` is. -/
def Conf.entry (c : Conf) (k : Nat) : Nat := c.u16 (6 + 2 * k)

/-- The item has a name as long as this one. -/
def Conf.namedLike (c : Conf) (name : List UInt8) (k : Nat) : Prop := name.length = (c.buffer (c.entry k) &&& 0x0F).toNat + 1

instance (c : Conf) (name : List UInt8) (k : Nat) : Decidable (c.namedLike name k) := inferInstanceAs (Decidable (_ = _))

def Conf.named (c : Conf) (name : List UInt8) (k : Nat) : Prop :=
  c.namedLike name k ∧ read c.buffer (c.entry k + 1) name.length = name

instance (c : Conf) (name : List UInt8) (k : Nat) : Decidable (c.named name k) := inferInstanceAs (Decidable (_ ∧ _))

/-- The item `k` is the first with the name. -/
def Conf.firstNamed (c : Conf) (name : List UInt8) (k : Nat) : Prop := k < c.u16 4 ∧ c.named name k ∧ ∀ j < k, ¬ c.named name j

/-- The length of a payload, as the item has it; there is none for a type that no lookup decodes. -/
def Conf.payloadLength (c : Conf) (name : List UInt8) (entry : Nat) : Option Nat :=
  match c.entryType entry with
  | 1 => some (c.u16 (entry + name.length + 1) + 1)
  | 2 => some ((c.buffer (entry + name.length + 1)).toNat + 1)
  | 3 | 7 => some 1
  | 4 => some 2
  | 5 => some 4
  | _ => none

/-- The item, as far as the search looks at it, is inside the file. -/
def Conf.itemInside (c : Conf) (name : List UInt8) (k : Nat) : Prop :=
  6 + 2 * k + 1 < sizeofConf ∧ c.entry k < sizeofConf ∧ (c.namedLike name k → c.entry k + name.length < sizeofConf)

/-- **What has to be inside the file**: of each item up to the first with the name, its offset, its type, and its name if it is as long;
of that first one, the length of its payload, and the payload if it is copied. -/
structure ConfInside (c : Conf) (name : List UInt8) (length : Nat) : Prop where
  table : ∀ k < c.u16 4, (∀ j < k, ¬ c.named name j) → c.itemInside name k
  field : c.inited = true → ∀ k, c.firstNamed name k →
    c.entry k + name.length + confLengthBytes (c.entryType (c.entry k)) < sizeofConf
  payload : c.inited = true → ∀ k, c.firstNamed name k → ∀ len, c.payloadLength name (c.entry k) = some len → len ≤ length →
    c.entry k + name.length + confLengthBytes (c.entryType (c.entry k)) + len < sizeofConf

/-! ## The search -/

variable {c : Conf} {name : List UInt8} {length : Nat}

theorem confScan_succ (count k : Nat) : confScan c name (count + 1) (6 + 2 * k) =
    if c.named name k then some (c.entry k) else confScan c name count (6 + 2 * (k + 1)) := rfl

theorem confScanReads_succ (count k : Nat) : confScanReads c name (count + 1) (6 + 2 * k) =
    (6 + 2 * k) :: (6 + 2 * k + 1) :: c.entry k :: (if c.namedLike name k then places (c.entry k + 1) name.length else []) ++
      if c.named name k then [] else confScanReads c name count (6 + 2 * (k + 1)) := rfl

theorem within_item (k : Nat) :
    Within ((6 + 2 * k) :: (6 + 2 * k + 1) :: c.entry k :: if c.namedLike name k then places (c.entry k + 1) name.length else [])
      sizeofConf ↔ c.itemInside name k := by
  rw [within_cons, within_cons, within_cons]
  unfold Conf.itemInside
  by_cases hl : c.namedLike name k
  · have hpos : 1 ≤ name.length := by
      unfold Conf.namedLike at hl
      omega
    rw [if_pos hl, within_places]
    refine ⟨fun h => ⟨h.2.1, h.2.2.1, fun _ => by omega⟩, fun h => ⟨by omega, h.1, h.2.1, .inr ?_⟩⟩
    have hin := h.2.2 hl
    omega
  · rw [if_neg hl]
    exact ⟨fun h => ⟨h.2.1, h.2.2.1, fun hh => absurd hh hl⟩, fun h => ⟨by omega, h.1, h.2.1, within_nil _⟩⟩

/-- The search from the item `k` on.  The induction is on the items that are left. -/
theorem confScan_some (n : Nat) : ∀ {k entry : Nat}, confScan c name n (6 + 2 * k) = some entry ↔
    ∃ i, k ≤ i ∧ i < k + n ∧ c.named name i ∧ (∀ j, k ≤ j → j < i → ¬ c.named name j) ∧ entry = c.entry i := by
  induction n with
  | zero => exact fun {k entry} => ⟨fun h => (nomatch h), fun ⟨i, h1, h2, _⟩ => by omega⟩
  | succ n ih =>
    intro k entry
    rw [confScan_succ]
    by_cases hk : c.named name k
    · rw [if_pos hk]
      constructor
      · intro h
        exact ⟨k, Nat.le_refl k, by omega, hk, fun j h1 h2 => by omega, (Option.some.inj h).symm⟩
      · rintro ⟨i, h1, h2, hi, hfirst, rfl⟩
        obtain rfl : i = k := by
          by_contra hne
          exact hfirst k (Nat.le_refl k) (by omega) hk
        rfl
    · rw [if_neg hk, ih]
      constructor
      · rintro ⟨i, h1, h2, hi, hfirst, he⟩
        refine ⟨i, by omega, by omega, hi, fun j hj1 hj2 => ?_, he⟩
        by_cases hjk : j = k
        · exact hjk ▸ hk
        · exact hfirst j (by omega) hj2
      · rintro ⟨i, h1, h2, hi, hfirst, he⟩
        have hne : i ≠ k := fun h => hk (h ▸ hi)
        exact ⟨i, by omega, by omega, hi, fun j hj1 hj2 => hfirst j (by omega) hj2, he⟩

theorem confScan_within (n : Nat) : ∀ {k : Nat}, Within (confScanReads c name n (6 + 2 * k)) sizeofConf ↔
    ∀ i, k ≤ i → i < k + n → (∀ j, k ≤ j → j < i → ¬ c.named name j) → c.itemInside name i := by
  induction n with
  | zero => exact fun {k} => iff_of_true (within_nil _) fun i h1 h2 => by omega
  | succ n ih =>
    intro k
    rw [confScanReads_succ, within_append, within_item]
    by_cases hk : c.named name k
    · rw [if_pos hk, and_iff_left (within_nil _)]
      refine ⟨fun h i h1 h2 hfirst => ?_, fun h => h k (Nat.le_refl k) (by omega) fun j h1 h2 => by omega⟩
      obtain rfl : i = k := by
        by_contra hne
        exact hfirst k (Nat.le_refl k) (by omega) hk
      exact h
    · rw [if_neg hk, ih]
      constructor
      · rintro ⟨hkin, h⟩ i h1 h2 hfirst
        by_cases hik : i = k
        · exact hik ▸ hkin
        · exact h i (by omega) (by omega) fun j hj1 hj2 => hfirst j (by omega) hj2
      · intro h
        refine ⟨h k (Nat.le_refl k) (by omega) fun j h1 h2 => by omega, fun i h1 h2 hfirst => h i (by omega) (by omega) fun j hj1 hj2 => ?_⟩
        by_cases hjk : j = k
        · exact hjk ▸ hk
        · exact hfirst j (by omega) hj2

variable {entry k len : Nat}

theorem confFind_iff : confFind c name = some entry ↔ ∃ k, c.firstNamed name k ∧ entry = c.entry k := by
  refine (confScan_some (k := 0) (c.u16 4)).trans ?_
  constructor
  · rintro ⟨i, -, hi, hn, hfirst, he⟩
    exact ⟨i, ⟨by omega, hn, fun j hj => hfirst j (Nat.zero_le j) hj⟩, he⟩
  · rintro ⟨i, ⟨hi, hn, hfirst⟩, he⟩
    exact ⟨i, Nat.zero_le i, by omega, hn, fun j _ hj => hfirst j hj, he⟩

theorem Conf.firstNamed.unique {k' : Nat} (h : c.firstNamed name k) (h' : c.firstNamed name k') : k = k' := by
  rcases Nat.lt_trichotomy k k' with hlt | he | hgt
  · exact absurd h.2.1 (h'.2.2 k hlt)
  · exact he
  · exact absurd h'.2.1 (h.2.2 k' hgt)

theorem confFind_within : Within (confFindReads c name) sizeofConf ↔ ∀ k < c.u16 4, (∀ j < k, ¬ c.named name j) → c.itemInside name k := by
  unfold confFindReads
  rw [within_cons, within_cons]
  refine (and_iff_right (by decide)).trans ((and_iff_right (by decide)).trans ((confScan_within (k := 0) (c.u16 4)).trans ?_))
  constructor
  · exact fun h k hk hfirst => h k (Nat.zero_le k) (by omega) fun j _ hj => hfirst j hj
  · exact fun h k _ hk hfirst => h k (by omega) fun j hj => hfirst j (Nat.zero_le j) hj

/-! ## The calls -/

theorem confGetLength_found (hi : c.inited = true) (hf : confFind c name = some entry) :
    confGetLength c name = match c.payloadLength name entry with
      | some len => (len : Int)
      | none => CONF_ENOTIMPL := by
  unfold confGetLength Conf.payloadLength
  rw [hi, hf]
  dsimp only
  rw [Bool.not_true, if_neg Bool.false_ne_true]
  generalize c.entryType entry = t
  rcases t with _ | _ | _ | _ | _ | _ | _ | _ | t <;> rfl

theorem Conf.payloadLength_pos (h : c.payloadLength name entry = some len) : 1 ≤ len := by
  unfold Conf.payloadLength at h
  split at h <;> cases h <;> omega

theorem confGet_payload (h : c.payloadLength name entry = some len) : (match c.entryType entry with
      | 1 => places (entry + name.length + 3) len
      | 2 => places (entry + name.length + 2) len
      | 3 | 4 | 5 | 7 => places (entry + name.length + 1) len
      | _ => []) = places (entry + name.length + 1 + confLengthBytes (c.entryType entry)) len := by
  unfold Conf.payloadLength at h
  unfold confLengthBytes
  generalize c.entryType entry = t at h ⊢
  rcases t with _ | _ | _ | _ | _ | _ | _ | _ | t <;> first | rfl | cases h

theorem confGet_within (hi : c.inited = true) (hfind : Within (confFindReads c name) sizeofConf)
    (hlen : Within (confGetLengthReads c name) sizeofConf) (hf : confFind c name = some entry) (hentry : entry < sizeofConf) :
    Within (confGetReads c name length) sizeofConf ↔ ∀ len, c.payloadLength name entry = some len → len ≤ length →
      entry + name.length + confLengthBytes (c.entryType entry) + len < sizeofConf := by
  have hget := confGetLength_found hi hf
  unfold confGetReads
  rw [hi, hf]
  dsimp only
  rw [Bool.not_true, if_neg Bool.false_ne_true, within_append, within_append, and_iff_right (And.intro hfind hlen)]
  cases hp : c.payloadLength name entry with
  | none =>
    rw [hp] at hget
    rw [hget, if_pos (show CONF_ENOTIMPL < 0 by decide)]
    exact iff_of_true (within_nil _) fun len h => by cases h
  | some len =>
    have hpos := Conf.payloadLength_pos hp
    rw [hp] at hget
    dsimp only at hget
    rw [hget, if_neg (by omega)]
    by_cases hbig : (len : Int) > length
    · rw [if_pos hbig]
      refine iff_of_true (within_nil _) fun len' h hle => ?_
      obtain rfl := Option.some.inj h
      omega
    · rw [if_neg hbig, Int.toNat_natCast, confGet_payload hp, within_cons, within_places]
      constructor
      · rintro ⟨-, h⟩ len' h' hle
        obtain rfl := Option.some.inj h'
        omega
      · intro h
        have hlt := h len rfl (by omega)
        exact ⟨hentry, by omega⟩

theorem Conf.firstNamed.inside (h : c.firstNamed name k) (hfind : Within (confFindReads c name) sizeofConf) :
    c.entry k < sizeofConf ∧ c.entry k + name.length < sizeofConf := by
  obtain ⟨-, he, hl⟩ := confFind_within.mp hfind k h.1 h.2.2
  exact ⟨he, hl h.2.1.1⟩

theorem confGetLength_within (hi : c.inited = true) (hfind : Within (confFindReads c name) sizeofConf) (h : c.firstNamed name k) :
    Within (confGetLengthReads c name) sizeofConf ↔
      c.entry k + name.length + confLengthBytes (c.entryType (c.entry k)) < sizeofConf := by
  obtain ⟨he, hn⟩ := h.inside hfind
  unfold confGetLengthReads
  rw [hi, confFind_iff.mpr ⟨k, h, rfl⟩]
  dsimp only
  rw [Bool.not_true, if_neg Bool.false_ne_true, within_append, and_iff_right hfind, within_cons, and_iff_right he, within_places]
  omega

/-- **The lookups stay inside the file exactly when the items they look at do.** -/
theorem conf_bounded (c : Conf) (name : List UInt8) (length : Nat) : ConfBounded c name length ↔ ConfInside c name length := by
  constructor
  · intro h
    refine ⟨confFind_within.mp h.find, fun hi k hk => (confGetLength_within hi h.find hk).mp h.getLength, fun hi k hk => ?_⟩
    exact (confGet_within hi h.find h.getLength (confFind_iff.mpr ⟨k, hk, rfl⟩) (hk.inside h.find).1).mp h.get
  · intro h
    have hfind : Within (confFindReads c name) sizeofConf := confFind_within.mpr h.table
    cases hi : c.inited with
    | false =>
      refine ⟨hfind, ?_, ?_, ?_⟩
      · unfold confGetTypeReads
        rw [hi]
        exact within_nil _
      · unfold confGetLengthReads
        rw [hi]
        exact within_nil _
      · unfold confGetReads
        rw [hi]
        exact within_nil _
    | true =>
      cases hf : confFind c name with
      | none =>
        refine ⟨hfind, ?_, ?_, ?_⟩
        · unfold confGetTypeReads
          rw [hi, hf]
          exact hfind
        · unfold confGetLengthReads
          rw [hi, hf]
          exact hfind
        · unfold confGetReads
          rw [hi, hf]
          exact hfind
      | some entry =>
        obtain ⟨k, hk, rfl⟩ := confFind_iff.mp hf
        have hlen := (confGetLength_within hi hfind hk).mpr (h.field hi k hk)
        refine ⟨hfind, ?_, hlen, ?_⟩
        · unfold confGetTypeReads
          rw [hi, hf]
          exact within_append.mpr ⟨hfind, within_cons.mpr ⟨(hk.inside hfind).1, within_nil _⟩⟩
        · exact (confGet_within hi hfind hlen hf (hk.inside hfind).1).mpr (h.payload hi k hk)

/-- A file with one item, which it says is behind its end. -/
def confBehind : Conf where
  inited := true
  buffer o := [0x53, 0x43, 0x76, 0x30, 0, 1, 0x40, 0].getD o 0

theorem conf_reads_behind : read confBehind.buffer 0 4 = [0x53, 0x43, 0x76, 0x30] ∧ ¬ ConfBounded confBehind [65] 1 :=
  ⟨by decide, fun h => absurd (h.find 0x4000 (by decide)) (by decide)⟩

end Libogc
