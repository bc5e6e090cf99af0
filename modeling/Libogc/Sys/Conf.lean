import Libogc.Lib.Numerals
import Mathlib.Data.List.Nodup
import Libogc.Lib.Bytes
/-!
# Conf — lookups in SYSCONF

`__CONF_Find`, `CONF_GetLength`, `CONF_GetType` and `CONF_Get` of `conf.c`, over the bytes that `CONF_Init` has read.  The header
counts the items and has the offset of each; an item is a byte for its type and the length of its name, the name, a length when
its type needs one, and the payload.
-/
namespace Libogc

open Bytes

def CONF_ENOENT : Int := -0x6002

def CONF_ETOOBIG : Int := -0x6003

def CONF_ENOTINIT : Int := -0x6004

def CONF_ENOTIMPL : Int := -0x6005

/-- `__conf_inited`, and the memory from `__conf_buffer` on. -/
structure Conf where
  inited : Bool
  buffer : Nat → UInt8

/-- A big-endian halfword of the buffer. -/
def Conf.u16 (c : Conf) (o : Nat) : Nat := be16 (c.buffer o) (c.buffer (o + 1))

/-- The loop of `__CONF_Find`; the entry is returned as its offset. -/
def confScan (c : Conf) (name : List UInt8) : Nat → Nat → Option Nat
  | 0, _ => none
  | count + 1, offset =>
    let entry := c.u16 offset
    if name.length = (c.buffer entry &&& 0x0F).toNat + 1 ∧ read c.buffer (entry + 1) name.length = name then some entry
    else confScan c name count (offset + 2)

def confFind (c : Conf) (name : List UInt8) : Option Nat := confScan c name (c.u16 4) 6

/-- `*entry>>5` -/
def Conf.entryType (c : Conf) (entry : Nat) : Nat := (c.buffer entry >>> 5).toNat

def confGetLength (c : Conf) (name : List UInt8) : Int :=
  if !c.inited then CONF_ENOTINIT
  else match confFind c name with
    | none => CONF_ENOENT
    | some entry =>
      match c.entryType entry with
      | 1 => (c.u16 (entry + name.length + 1) + 1 : Nat)
      | 2 => ((c.buffer (entry + name.length + 1)).toNat + 1 : Nat)
      | 3 => 1
      | 4 => 2
      | 5 => 4
      | 7 => 1
      | _ => CONF_ENOTIMPL

def confGetType (c : Conf) (name : List UInt8) : Int :=
  if !c.inited then CONF_ENOTINIT
  else match confFind c name with
    | none => CONF_ENOENT
    | some entry => c.entryType entry

def memcpy (dst src : List UInt8) : List UInt8 := src ++ dst.drop src.length

/-- `memset` to zero. -/
def memzero (dst : List UInt8) (n : Nat) : List UInt8 := List.replicate n 0 ++ dst.drop n

/-- `CONF_Get` into the memory `dst`, of which the caller says that `length` bytes are its own. -/
def confGet (c : Conf) (name : List UInt8) (dst : List UInt8) (length : Nat) : Int × List UInt8 :=
  if !c.inited then (CONF_ENOTINIT, dst)
  else match confFind c name with
    | none => (CONF_ENOENT, dst)
    | some entry =>
      let len := confGetLength c name
      if len < 0 then (len, dst)
      else if len > length then (CONF_ETOOBIG, dst)
      else match c.entryType entry with
        | 1 => (len, memcpy dst (read c.buffer (entry + name.length + 3) len.toNat))
        | 2 => (len, memcpy dst (read c.buffer (entry + name.length + 2) len.toNat))
        | 3 | 4 | 5 | 7 => (len, memcpy (memzero dst length) (read c.buffer (entry + name.length + 1) len.toNat))
        | _ => (CONF_ENOTIMPL, dst)

/-! ## What a buffer holds -/

/-- The types a lookup can decode. -/
def confSupported (type : Fin 8) : Prop := type ≠ 0 ∧ type ≠ 6

instance (type : Fin 8) : Decidable (confSupported type) := inferInstanceAs (Decidable (_ ∧ _))

/-- How many bytes of payload an item of a type can have. -/
def payloadFits (type : Fin 8) (n : Nat) : Prop :=
  match type with
  | 1 => 1 ≤ n ∧ n ≤ 0x10000
  | 2 => 1 ≤ n ∧ n ≤ 0x100
  | 3 | 7 => n = 1
  | 4 => n = 2
  | 5 => n = 4
  | _ => True

/-- An item, apart from how it is encoded. -/
structure ConfItem where
  type : Fin 8
  name : List UInt8
  payload : List UInt8
  name_pos : 1 ≤ name.length
  name_le : name.length ≤ 16
  payload_fits : payloadFits type payload.length

/-- The length that stands between the name and the payload. -/
def lengthField (type : Fin 8) (n : Nat) : List UInt8 :=
  match type with
  | 1 => [hi8 (n - 1), lo8 (n - 1)]
  | 2 => [lo8 (n - 1)]
  | _ => []

def ConfItem.tag (i : ConfItem) : UInt8 := UInt8.ofNat (32 * i.type + (i.name.length - 1))

def ConfItem.encode (i : ConfItem) : List UInt8 :=
  i.tag :: (i.name ++ (lengthField i.type i.payload.length ++ i.payload))

/-- **The buffer is well formed**, and these are its items: the header points at an encoding of each, inside the file. -/
structure Conf.Holds (c : Conf) (items : List ConfItem) : Prop where
  inited : c.inited = true
  count : c.u16 4 = items.length
  table : 6 + 2 * items.length ≤ 0x4000
  item : ∀ k (h : k < items.length), Stand c.buffer (c.u16 (6 + 2 * k)) (items.get ⟨k, h⟩).encode
  inside : ∀ k (h : k < items.length), c.u16 (6 + 2 * k) + (items.get ⟨k, h⟩).encode.length ≤ 0x4000
  distinct : (items.map ConfItem.name).Nodup

/-! ## The tag of an item -/

theorem tag_name_type : ∀ (type : Fin 8) (n : Fin 16),
    (UInt8.ofNat (32 * type + n) &&& 0x0F).toNat = n ∧ (UInt8.ofNat (32 * type + n) >>> 5).toNat = type := by
  decide +kernel

theorem ConfItem.tag_spec (i : ConfItem) : (i.tag &&& 0x0F).toNat + 1 = i.name.length ∧ (i.tag >>> 5).toNat = i.type := by
  have hpos := i.name_pos
  have hle := i.name_le
  obtain ⟨hname, htype⟩ := tag_name_type i.type ⟨i.name.length - 1, by omega⟩
  refine ⟨?_, htype⟩
  unfold ConfItem.tag
  rw [hname]
  show i.name.length - 1 + 1 = i.name.length
  omega

/-! ## The search -/

section Lookup
variable {c : Conf} {items : List ConfItem} {i : ConfItem} {name : List UInt8} {entry offset : Nat}

theorem entry_matches (h : Stand c.buffer entry i.encode) :
    (name.length = (c.buffer entry &&& 0x0F).toNat + 1 ∧ read c.buffer (entry + 1) name.length = name) ↔ i.name = name := by
  obtain ⟨htag, hrest⟩ := stand_cons.mp h
  obtain ⟨hname, -⟩ := stand_append.mp hrest
  rw [htag, i.tag_spec.1]
  constructor
  · rintro ⟨hl, hread⟩
    exact (hname.read_eq_iff hl).mp hread
  · rintro rfl
    exact ⟨rfl, (hname.read_eq_iff rfl).mpr rfl⟩

/-- What the search finds is an item with the name, and it finds one if there is one. -/
theorem confScan_spec (h : ∀ k (hk : k < items.length), Stand c.buffer (c.u16 (offset + 2 * k)) (items.get ⟨k, hk⟩).encode) :
    (confScan c name items.length offset = none ∧ ∀ i ∈ items, i.name ≠ name) ∨
      ∃ i ∈ items, i.name = name ∧ ∃ entry, confScan c name items.length offset = some entry ∧ Stand c.buffer entry i.encode := by
  induction items generalizing offset with
  | nil => exact .inl ⟨rfl, by simp⟩
  | cons x xs ih =>
    have hx : Stand c.buffer (c.u16 offset) x.encode := h 0 (by simp)
    have hxs : ∀ k (hk : k < xs.length), Stand c.buffer (c.u16 (offset + 2 + 2 * k)) (xs.get ⟨k, hk⟩).encode := by
      intro k hk
      rw [show offset + 2 + 2 * k = offset + 2 * (k + 1) by omega]
      exact h (k + 1) (by simpa using hk)
    by_cases hn : x.name = name
    · refine .inr ⟨x, by simp, hn, c.u16 offset, ?_, hx⟩
      rw [List.length_cons, confScan]
      exact if_pos ((entry_matches hx).mpr hn)
    · have hstep : confScan c name (x :: xs).length offset = confScan c name xs.length (offset + 2) := by
        rw [List.length_cons, confScan]
        exact if_neg (fun hm => hn ((entry_matches hx).mp hm))
      rw [hstep]
      rcases ih hxs with ⟨hnone, hall⟩ | ⟨i, hi, hin, entry, hs, he⟩
      · exact .inl ⟨hnone, by simpa using ⟨hn, hall⟩⟩
      · exact .inr ⟨i, List.mem_cons_of_mem _ hi, hin, entry, hs, he⟩

theorem confFind_none (h : c.Holds items) (hn : ∀ i ∈ items, i.name ≠ name) : confFind c name = none := by
  unfold confFind
  rw [h.count]
  rcases confScan_spec h.item with ⟨hnone, -⟩ | ⟨i, hi, hin, -⟩
  · exact hnone
  · exact absurd hin (hn i hi)

theorem confFind_some (h : c.Holds items) (hi : i ∈ items) : ∃ entry, confFind c i.name = some entry ∧ Stand c.buffer entry i.encode := by
  unfold confFind
  rw [h.count]
  rcases confScan_spec h.item with ⟨-, hnone⟩ | ⟨j, hj, hjn, entry, hs, he⟩
  · exact absurd rfl (hnone i hi)
  · have hij : j = i := List.inj_on_of_nodup_map h.distinct hj hi hjn
    exact ⟨entry, hs, hij ▸ he⟩

/-! ## What stands at an entry -/

theorem entryType_of_stand (h : Stand c.buffer entry i.encode) : c.entryType entry = i.type := by
  unfold Conf.entryType
  rw [(stand_cons.mp h).1, i.tag_spec.2]

theorem stand_length (h : Stand c.buffer entry i.encode) :
    Stand c.buffer (entry + i.name.length + 1) (lengthField i.type i.payload.length) := by
  have h' := (stand_append.mp (stand_append.mp (stand_cons.mp h).2).2).1
  rwa [Nat.add_right_comm] at h'

theorem read_payload (h : Stand c.buffer entry i.encode) :
    read c.buffer (entry + i.name.length + 1 + (lengthField i.type i.payload.length).length) i.payload.length = i.payload := by
  have h' := (stand_append.mp (stand_append.mp (stand_cons.mp h).2).2).2
  rwa [Nat.add_right_comm entry] at h'

/-! ## The calls -/

theorem confGetType_some (h : c.Holds items) (hi : i ∈ items) : confGetType c i.name = i.type := by
  obtain ⟨entry, hfind, hstand⟩ := confFind_some h hi
  unfold confGetType
  rw [h.inited, hfind]
  show (c.entryType entry : Int) = i.type
  rw [entryType_of_stand hstand]

/-- The length of a payload is read back from where the encoding has put it. -/
theorem confGetLength_supported (h : c.Holds items) (hi : i ∈ items) (hs : confSupported i.type) :
    confGetLength c i.name = i.payload.length := by
  obtain ⟨entry, hfind, hstand⟩ := confFind_some h hi
  have htype := entryType_of_stand hstand
  have hlen := stand_length hstand
  have hfits := i.payload_fits
  unfold confGetLength
  rw [h.inited, hfind]
  simp only [Bool.not_true, Bool.false_eq_true, if_false, htype]
  generalize i.payload.length = n at hlen hfits ⊢
  generalize i.type = t at hs hlen hfits ⊢
  match t with
  | 0 => exact absurd rfl hs.1
  | 1 =>
    have hfits : 1 ≤ n ∧ n ≤ 0x10000 := hfits
    obtain ⟨hhi, hlo⟩ := stand_cons.mp hlen
    obtain ⟨hlo, -⟩ := stand_cons.mp hlo
    have hu16 : c.u16 (entry + i.name.length + 1) = n - 1 := by
      unfold Conf.u16
      rw [hhi, hlo]
      exact be16_hi_lo (by omega)
    show ((c.u16 (entry + i.name.length + 1) + 1 : Nat) : Int) = n
    rw [hu16]
    omega
  | 2 =>
    have hfits : 1 ≤ n ∧ n ≤ 0x100 := hfits
    have hbyte : (c.buffer (entry + i.name.length + 1)).toNat = n - 1 := by
      rw [(stand_cons.mp hlen).1, lo8, UInt8.toNat_ofNat']
      exact Nat.mod_eq_of_lt (by omega)
    show (((c.buffer (entry + i.name.length + 1)).toNat + 1 : Nat) : Int) = n
    rw [hbyte]
    omega
  | 3 =>
    have hfits : n = 1 := hfits
    rw [hfits]; rfl
  | 4 =>
    have hfits : n = 2 := hfits
    rw [hfits]; rfl
  | 5 =>
    have hfits : n = 4 := hfits
    rw [hfits]; rfl
  | 6 => exact absurd rfl hs.2
  | 7 =>
    have hfits : n = 1 := hfits
    rw [hfits]; rfl

theorem confGetLength_unsupported (h : c.Holds items) (hi : i ∈ items) (hs : ¬ confSupported i.type) :
    confGetLength c i.name = CONF_ENOTIMPL := by
  obtain ⟨entry, hfind, hstand⟩ := confFind_some h hi
  have htype := entryType_of_stand hstand
  have hor : i.type = 0 ∨ i.type = 6 := by
    by_contra hno
    exact hs (not_or.mp hno)
  unfold confGetLength
  rw [h.inited, hfind]
  simp only [Bool.not_true, Bool.false_eq_true, if_false, htype]
  rcases hor with h0 | h6
  · rw [h0]; rfl
  · rw [h6]; rfl

/-- What a call leaves in the caller's memory when the payload fits: scalars clear it first. -/
def confFilled (i : ConfItem) (dst : List UInt8) (length : Nat) : List UInt8 :=
  if i.type = 1 ∨ i.type = 2 then memcpy dst i.payload else memcpy (memzero dst length) i.payload

theorem confGet_supported (h : c.Holds items) (hi : i ∈ items) (hs : confSupported i.type) (dst : List UInt8) (length : Nat) :
    confGet c i.name dst length =
      if length < i.payload.length then (CONF_ETOOBIG, dst) else (i.payload.length, confFilled i dst length) := by
  have hlen := confGetLength_supported h hi hs
  obtain ⟨entry, hfind, hstand⟩ := confFind_some h hi
  have htype := entryType_of_stand hstand
  have hread := read_payload hstand
  unfold confGet
  rw [h.inited, hfind, hlen]
  simp only [Bool.not_true, Bool.false_eq_true, if_false, htype, Int.toNat_natCast]
  rw [if_neg (by omega)]
  by_cases hbig : length < i.payload.length
  · rw [if_pos (by omega), if_pos hbig]
  · rw [if_neg (by omega), if_neg hbig]
    unfold confFilled
    generalize i.type = t at hs hread ⊢
    match t with
    | 0 => exact absurd rfl hs.1
    | 1 => exact congrArg (fun p => ((i.payload.length : Int), memcpy dst p)) hread
    | 2 => exact congrArg (fun p => ((i.payload.length : Int), memcpy dst p)) hread
    | 3 => exact congrArg (fun p => ((i.payload.length : Int), memcpy (memzero dst length) p)) hread
    | 4 => exact congrArg (fun p => ((i.payload.length : Int), memcpy (memzero dst length) p)) hread
    | 5 => exact congrArg (fun p => ((i.payload.length : Int), memcpy (memzero dst length) p)) hread
    | 6 => exact absurd rfl hs.2
    | 7 => exact congrArg (fun p => ((i.payload.length : Int), memcpy (memzero dst length) p)) hread

theorem confGet_unsupported (h : c.Holds items) (hi : i ∈ items) (hs : ¬ confSupported i.type) (dst : List UInt8)
    (length : Nat) : confGet c i.name dst length = (CONF_ENOTIMPL, dst) := by
  have hlen := confGetLength_unsupported h hi hs
  obtain ⟨entry, hfind, -⟩ := confFind_some h hi
  unfold confGet
  rw [h.inited, hfind, hlen]
  rfl

theorem confGet_none (h : c.Holds items) (hn : ∀ i ∈ items, i.name ≠ name) (dst : List UInt8) (length : Nat) :
    confGetType c name = CONF_ENOENT ∧ confGetLength c name = CONF_ENOENT ∧ confGet c name dst length = (CONF_ENOENT, dst) := by
  unfold confGetType confGetLength confGet
  rw [h.inited, confFind_none h hn]
  exact ⟨rfl, rfl, rfl⟩

end Lookup

/-! ## Every lookup -/

/-- **Lookups.**  An item is found by its name: its type always, its length and its payload when the type is a supported one, and
the two calls that would have to decode an unsupported one say so.  A name that no item has is not found.  The only payloads that
are too big are those that are longer than the caller's memory. -/
theorem conf_lookup (c : Conf) (items : List ConfItem) (h : c.Holds items) (dst : List UInt8) (length : Nat) :
    (∀ i ∈ items, confGetType c i.name = i.type ∧
      (confSupported i.type → confGetLength c i.name = i.payload.length ∧
        (i.payload.length ≤ length → (confGet c i.name dst length).1 = i.payload.length ∧
          (confGet c i.name dst length).2.take i.payload.length = i.payload)) ∧
      (¬ confSupported i.type → confGetLength c i.name = CONF_ENOTIMPL ∧ confGet c i.name dst length = (CONF_ENOTIMPL, dst))) ∧
    (∀ name, (∀ i ∈ items, i.name ≠ name) → confGetType c name = CONF_ENOENT ∧ confGetLength c name = CONF_ENOENT ∧
      confGet c name dst length = (CONF_ENOENT, dst)) ∧
    ∀ name, (confGet c name dst length).1 = CONF_ETOOBIG ↔
      ∃ i ∈ items, i.name = name ∧ confSupported i.type ∧ length < i.payload.length := by
  refine ⟨fun i hi => ⟨confGetType_some h hi, fun hs => ⟨confGetLength_supported h hi hs, fun hle => ?_⟩, fun hs => ?_⟩,
    fun name hn => confGet_none h hn dst length, fun name => ?_⟩
  · rw [confGet_supported h hi hs, if_neg (by omega)]
    refine ⟨rfl, ?_⟩
    show (confFilled i dst length).take i.payload.length = i.payload
    unfold confFilled memcpy
    split
    · exact List.take_left
    · exact List.take_left
  · exact ⟨confGetLength_unsupported h hi hs, confGet_unsupported h hi hs dst length⟩
  · constructor
    · intro hbig
      by_cases hn : ∀ i ∈ items, i.name ≠ name
      · rw [(confGet_none h hn dst length).2.2] at hbig
        exact absurd hbig (show CONF_ENOENT ≠ CONF_ETOOBIG by decide)
      · push Not at hn
        obtain ⟨i, hi, rfl⟩ := hn
        by_cases hs : confSupported i.type
        · refine ⟨i, hi, rfl, hs, ?_⟩
          rw [confGet_supported h hi hs] at hbig
          split at hbig
          · assumption
          · have hlen : (i.payload.length : Int) = -0x6003 := hbig
            omega
        · rw [confGet_unsupported h hi hs] at hbig
          exact absurd hbig (show CONF_ENOTIMPL ≠ CONF_ETOOBIG by decide)
    · rintro ⟨i, hi, rfl, hs, hlt⟩
      rw [confGet_supported h hi hs, if_pos hlt]

/-- A file with two items, one a prefix of the other's name and of a type that no lookup decodes. -/
def confTwo : Conf where
  inited := true
  buffer o := [0x53, 0x43, 0x76, 0x30, 0, 2, 0, 10, 0, 17, 0x41, 65, 66, 2, 7, 8, 9, 0xC0, 65, 5].getD o 0

def confTwoItems : List ConfItem :=
  [⟨2, [65, 66], [7, 8, 9], by decide, by decide, ⟨by decide, by decide⟩⟩, ⟨6, [65], [5], by decide, by decide, trivial⟩]

theorem confTwo_holds : confTwo.Holds confTwoItems where
  inited := rfl
  count := by decide
  table := by decide
  item := by decide
  inside := by decide
  distinct := by decide

theorem conf_lookup_two : confTwo.Holds confTwoItems ∧
    (confGet confTwo [65, 66] [0, 0, 0, 0] 4).1 = 3 ∧ (confGet confTwo [65, 66] [0, 0, 0, 0] 4).2.take 3 = [7, 8, 9] :=
  have hfound := (conf_lookup confTwo confTwoItems confTwo_holds [0, 0, 0, 0] 4).1 _ List.mem_cons_self
  ⟨confTwo_holds, (hfound.2.1 (by decide)).2 (by decide)⟩

/-- The type of an item is told whether or not it is a supported one. -/
theorem conf_type_of_unsupported : confTwo.Holds confTwoItems ∧ ∃ i ∈ confTwoItems, ¬ confSupported i.type ∧
    confGetType confTwo i.name = 6 ∧ confGetType confTwo i.name ≠ CONF_ENOTIMPL :=
  ⟨confTwo_holds, ⟨6, [65], [5], by decide, by decide, trivial⟩, List.mem_cons_of_mem _ List.mem_cons_self, by decide, by decide,
    by decide⟩

end Libogc
