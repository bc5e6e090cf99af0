import Mathlib.Tactic.Common
/-!
# Numbers — the numbers of the debugger's packets

A number is written in hexadecimal digits, either as many as it needs (`int2vhstr`, `thread2vhstr`) or eight, with eight zeros before those of a
thread (`int2fhstr`, `thread2fhstr`).  A number that is read may be followed by anything but a digit.  The reader of threads takes nothing for a
number, and not the number 0 (`dbg_numbers`).

A text ends with the byte 0, which is not in the list.
-/
namespace Libogc

/-- `hexchars` -/
def hexchars (n : Nat) : UInt8 := "0123456789abcdef".toList.map (fun c => UInt8.ofNat c.toNat) |>.getD n 0

/-- `hstr2nibble` -/
def hstr2nibble (buf : List UInt8) : Option (BitVec 32) :=
  let ch := buf.headD 0
  if 0x30 ≤ ch ∧ ch ≤ 0x39 then some (BitVec.ofNat 32 (ch.toNat - 0x30))
  else if 0x61 ≤ ch ∧ ch ≤ 0x66 then some (BitVec.ofNat 32 (ch.toNat - 0x61 + 10))
  else if 0x41 ≤ ch ∧ ch ≤ 0x46 then some (BitVec.ofNat 32 (ch.toNat - 0x41 + 10))
  else none

/-! ## Writers -/

/-- The `i`-th digit of eight. -/
def dbgNibble (val : BitVec 32) (i : Nat) : BitVec 32 := val.sshiftRight (28 - 4 * i) &&& 0x0f

def dbgDigits (val : BitVec 32) (i : Nat) : List UInt8 := (List.range' i (8 - i)).map fun i => hexchars (dbgNibble val i).toNat

/-- `int2fhstr` -/
def int2fhstr (val : BitVec 32) : List UInt8 := dbgDigits val 0

/-- `int2vhstr`, from the first digit that is not 0 on -/
def int2vhstr (val : BitVec 32) : List UInt8 :=
  match (List.range 8).find? fun i => dbgNibble val i ≠ 0 with
  | none => [0x30]
  | some i => dbgDigits val i

/-- `thread2fhstr` -/
def thread2fhstr (thread : BitVec 32) : List UInt8 := List.replicate 8 0x30 ++ dbgDigits thread 0

/-- `thread2vhstr` -/
def thread2vhstr (thread : BitVec 32) : List UInt8 := int2vhstr thread

/-! ## Readers -/

/-- The digits that are 0 at the beginning of a text, up to a limit, and what is behind them. -/
def dbgZeros : Nat → List UInt8 → Nat × List UInt8
  | 0, buf => (0, buf)
  | n + 1, buf => if buf.headD 0 = 0x30 then ((dbgZeros n buf.tail).1 + 1, (dbgZeros n buf.tail).2) else (0, buf)

/-- The digits behind them, the `i`-th of which is next.  At the end of the digits `null` says that there is no number. -/
def dbgVhstrLoop (null : Nat → Bool) : Nat → Nat → BitVec 32 → List UInt8 → Option (BitVec 32 × List UInt8)
  | 0, _, val, buf => if (hstr2nibble buf).isSome then none else some (val, buf)
  | n + 1, i, val, buf =>
    match hstr2nibble buf with
    | none => if null i then none else some (val, buf)
    | some nibble => dbgVhstrLoop null n (i + 1) (val <<< 4 ||| nibble) buf.tail

/-- `vhstr2int` and `vhstr2thread` are this for a number of digits and a test of the digit's place and of the zeros that were found. -/
def dbgVhstr (digits : Nat) (null : Nat → Bool → Bool) (buf : List UInt8) : Option (BitVec 32 × List UInt8) :=
  let r := dbgZeros digits buf
  let found0 := decide (0 < r.1)
  dbgVhstrLoop (fun i => null i found0) (digits - r.1) 0 0 r.2

/-- `vhstr2int` -/
def vhstr2int (buf : List UInt8) : Option (BitVec 32 × List UInt8) := dbgVhstr 8 (fun i found0 => i == 0 && !found0) buf

/-- `vhstr2thread`, which has the test of the zeros the other way -/
def vhstr2thread (buf : List UInt8) : Option (BitVec 32 × List UInt8) := dbgVhstr 16 (fun i found0 => i == 0 && found0) buf

/-- Digits as many as there have to be. -/
def dbgFhstrLoop : Nat → BitVec 32 → List UInt8 → Option (BitVec 32 × List UInt8)
  | 0, val, buf => some (val, buf)
  | n + 1, val, buf =>
    match hstr2nibble buf with
    | none => none
    | some nibble => dbgFhstrLoop n (val <<< 4 ||| nibble) buf.tail

/-- `fhstr2int` -/
def fhstr2int (buf : List UInt8) : Option (BitVec 32 × List UInt8) := dbgFhstrLoop 8 0 buf

/-- `fhstr2thread` -/
def fhstr2thread (buf : List UInt8) : Option (BitVec 32 × List UInt8) :=
  let r := dbgZeros 8 buf
  if r.1 < 8 then none else dbgFhstrLoop 8 0 r.2

/-- The four kinds of numbers. -/
inductive DbgCodec where
  | vint
  | fint
  | vthread
  | fthread
  deriving DecidableEq, Repr

def DbgCodec.encode : DbgCodec → BitVec 32 → List UInt8
  | vint => int2vhstr
  | fint => int2fhstr
  | vthread => thread2vhstr
  | fthread => thread2fhstr

def DbgCodec.decode : DbgCodec → List UInt8 → Option (BitVec 32 × List UInt8)
  | vint => vhstr2int
  | fint => fhstr2int
  | vthread => vhstr2thread
  | fthread => fhstr2thread

/-- A reader is given what its writer has made of a number and a text behind it, or the text alone. -/
inductive DbgUse where
  | number (c : DbgCodec) (val : BitVec 32) (text : List UInt8)
  | text (c : DbgCodec) (text : List UInt8)

namespace DbgUse

def rest : DbgUse → List UInt8
  | number _ _ rest => rest
  | text _ rest => rest

/-- **What a reader has to say** of a text that does not begin with a digit: the number and the text, or nothing. -/
def Right : DbgUse → Prop
  | number c val rest => c.decode (c.encode val ++ rest) = some (val, rest)
  | text c rest => c.decode rest = none

/-- A thread is read that is not 0, if it is read by `vhstr2thread`. -/
def exact : DbgUse → Prop
  | number .vthread val _ => val ≠ 0
  | text .vthread _ => False
  | _ => True

end DbgUse

/-! ## Digits -/

section Digits
variable {v d : BitVec 32} {buf rest : List UInt8} {k : Nat}

theorem dbgNibble_lt (v : BitVec 32) (i : Nat) : (dbgNibble v i).toNat < 16 := by
  unfold dbgNibble
  rw [BitVec.toNat_and]
  exact Nat.lt_succ_of_le Nat.and_le_right

theorem hstr2nibble_hexchars (hd : d.toNat < 16) (rest : List UInt8) : hstr2nibble (hexchars d.toNat :: rest) = some d := by
  have hall : ∀ n < 16, hstr2nibble [hexchars n] = some (BitVec.ofNat 32 n) := by decide
  have hnat := hall d.toNat hd
  rw [BitVec.ofNat_toNat, BitVec.setWidth_eq] at hnat
  exact hnat

theorem hexchars_zero (hd : d.toNat < 16) : hexchars d.toNat = 0x30 ↔ d = 0 := by
  have hall : ∀ n < 16, hexchars n = 0x30 ↔ n = 0 := by decide
  rw [hall d.toNat hd]
  exact ⟨fun h => BitVec.eq_of_toNat_eq h, fun h => by rw [h]; rfl⟩

theorem dbgNibble_getLsbD (hk : k < 8) (j : Nat) : (dbgNibble v k).getLsbD j = (decide (j < 4) && v.getLsbD (28 - 4 * k + j)) := by
  have hmask : (0x0f : BitVec 32).getLsbD j = decide (j < 4) := by
    by_cases hj : j < 32
    · revert hj
      revert j
      decide
    · rw [BitVec.getLsbD_of_ge _ _ (Nat.le_of_not_lt hj)]
      exact (decide_eq_false (by omega)).symm
  unfold dbgNibble
  rw [BitVec.getLsbD_and, hmask, BitVec.getLsbD_sshiftRight]
  by_cases hj : j < 4
  · have hin : 28 - 4 * k + j < 32 := by omega
    simp [hj, hin]
    omega
  · simp [hj]

/-- The number of some digits. -/
def dbgValue (val : BitVec 32) (ds : List (BitVec 32)) : BitVec 32 := ds.foldl (fun val nibble => val <<< 4 ||| nibble) val

/-- The first digits of a number are what is left of it when the others are shifted out. -/
theorem dbgValue_range (v : BitVec 32) : ∀ {k : Nat}, k ≤ 8 → dbgValue 0 ((List.range k).map (dbgNibble v)) = v >>> (32 - 4 * k)
  | 0, _ => by
    apply BitVec.eq_of_getLsbD_eq
    intro j hj
    simp [dbgValue]
  | k + 1, hk => by
    have ih := dbgValue_range v (Nat.le_of_succ_le hk)
    unfold dbgValue at ih ⊢
    rw [List.range_succ, List.map_append, List.foldl_append, ih]
    apply BitVec.eq_of_getLsbD_eq
    intro j hj
    show (v >>> (32 - 4 * k) <<< 4 ||| dbgNibble v k).getLsbD j = _
    rw [BitVec.getLsbD_or, BitVec.getLsbD_shiftLeft, BitVec.getLsbD_ushiftRight, BitVec.getLsbD_ushiftRight, dbgNibble_getLsbD hk]
    by_cases h4 : j < 4
    · have hplace : 32 - 4 * (k + 1) + j = 28 - 4 * k + j := by omega
      simp [h4, hplace]
    · have hplace : 32 - 4 * k + (j - 4) = 32 - 4 * (k + 1) + j := by omega
      simp [h4, hj, hplace]

theorem dbgValue_zeros : ∀ {ds : List (BitVec 32)}, (∀ d ∈ ds, d = 0) → dbgValue 0 ds = 0
  | [], _ => rfl
  | d :: ds, h => by
    have hrest := dbgValue_zeros fun x hx => h x (List.mem_cons_of_mem _ hx)
    rw [h d List.mem_cons_self]
    exact hrest

theorem dbgValue_skip (v : BitVec 32) {i : Nat} (hi : i ≤ 8) (hzero : ∀ j < i, dbgNibble v j = 0) :
    dbgValue 0 ((List.range' i (8 - i)).map (dbgNibble v)) = v := by
  have hall := dbgValue_range v (Nat.le_refl 8)
  have hsplit : List.range 8 = List.range i ++ List.range' i (8 - i) := by
    have happend := @List.range'_append_1 0 i (8 - i)
    rw [Nat.zero_add, Nat.add_sub_cancel' hi] at happend
    rw [List.range_eq_range', List.range_eq_range', happend]
  have hprefix : dbgValue 0 ((List.range i).map (dbgNibble v)) = 0 := by
    refine dbgValue_zeros fun d hd => ?_
    obtain ⟨j, hj, rfl⟩ := List.mem_map.1 hd
    exact hzero j (List.mem_range.1 hj)
  unfold dbgValue at hall hprefix ⊢
  rw [hsplit, List.map_append, List.foldl_append, hprefix] at hall
  rw [hall]
  exact BitVec.ushiftRight_zero v

end Digits

/-! ## What is read of what was written -/

section Readers
variable {rest : List UInt8}

def dbgText (ds : List (BitVec 32)) : List UInt8 := ds.map fun d => hexchars d.toNat

theorem dbgDigits_eq (v : BitVec 32) (i : Nat) : dbgDigits v i = dbgText ((List.range' i (8 - i)).map (dbgNibble v)) := by
  unfold dbgDigits dbgText
  rw [List.map_map]
  rfl

theorem dbgVhstrLoop_digits (hrest : hstr2nibble rest = none) (null : Nat → Bool) : ∀ {ds : List (BitVec 32)} {n i : Nat} {val : BitVec 32},
    (∀ d ∈ ds, d.toNat < 16) → ds.length ≤ n → dbgVhstrLoop null n i val (dbgText ds ++ rest) =
      if ds.length < n ∧ null (i + ds.length) = true then none else some (dbgValue val ds, rest)
  | [], 0, i, val, _, _ => by
    have hnot : ¬ (hstr2nibble rest).isSome = true := by simp [hrest]
    show dbgVhstrLoop null 0 i val rest = _
    rw [dbgVhstrLoop, if_neg hnot, if_neg fun h => absurd h.1 (Nat.lt_irrefl 0)]
    rfl
  | [], n + 1, i, val, _, _ => by
    show dbgVhstrLoop null (n + 1) i val rest = _
    rw [dbgVhstrLoop, hrest]
    cases null i <;> simp [dbgValue]
  | d :: ds, n + 1, i, val, hds, hlen => by
    have hd := hds d List.mem_cons_self
    have hplace : i + (d :: ds).length = i + 1 + ds.length := by
      rw [List.length_cons]
      omega
    show dbgVhstrLoop null (n + 1) i val (hexchars d.toNat :: (dbgText ds ++ rest)) = _
    rw [dbgVhstrLoop, hstr2nibble_hexchars hd, hplace, List.length_cons]
    dsimp only
    rw [List.tail_cons, dbgVhstrLoop_digits hrest null (fun d hd => hds d (List.mem_cons_of_mem _ hd)) (Nat.le_of_succ_le_succ hlen)]
    simp only [Nat.succ_lt_succ_iff]
    rfl

theorem dbgFhstrLoop_digits : ∀ {ds : List (BitVec 32)} {val : BitVec 32}, (∀ d ∈ ds, d.toNat < 16) →
    dbgFhstrLoop ds.length val (dbgText ds ++ rest) = some (dbgValue val ds, rest)
  | [], _, _ => rfl
  | d :: ds, val, hds => by
    show dbgFhstrLoop (ds.length + 1) val (hexchars d.toNat :: (dbgText ds ++ rest)) = _
    rw [dbgFhstrLoop, hstr2nibble_hexchars (hds d List.mem_cons_self)]
    exact dbgFhstrLoop_digits fun d hd => hds d (List.mem_cons_of_mem _ hd)

theorem dbgNibbles_lt (v : BitVec 32) (is : List Nat) : ∀ d ∈ is.map (dbgNibble v), d.toNat < 16 := by
  intro d hd
  obtain ⟨i, -, rfl⟩ := List.mem_map.1 hd
  exact dbgNibble_lt v i

theorem head_ne_zero (hrest : hstr2nibble rest = none) : rest.headD 0 ≠ 0x30 := by
  intro h
  unfold hstr2nibble at hrest
  rw [h] at hrest
  exact absurd hrest (by decide)

theorem dbgZeros_none {buf : List UInt8} (h : buf.headD 0 ≠ 0x30) : ∀ n, dbgZeros n buf = (0, buf)
  | 0 => rfl
  | n + 1 => by rw [dbgZeros, if_neg h]

theorem dbgZeros_cons (n : Nat) (buf : List UInt8) : dbgZeros (n + 1) (0x30 :: buf) = ((dbgZeros n buf).1 + 1, (dbgZeros n buf).2) :=
  if_pos rfl

theorem dbgFhstrLoop_all (v : BitVec 32) (rest : List UInt8) : dbgFhstrLoop 8 0 (dbgDigits v 0 ++ rest) = some (v, rest) := by
  have hvalue := dbgValue_skip v (Nat.zero_le 8) fun j hj => absurd hj (Nat.not_lt_zero j)
  have hloop := @dbgFhstrLoop_digits rest _ 0 (dbgNibbles_lt v (List.range' 0 (8 - 0)))
  rw [hvalue, List.length_map, List.length_range'] at hloop
  rw [dbgDigits_eq]
  exact hloop

variable {digits : Nat} {null : Nat → Bool → Bool}

theorem dbgVhstr_digits (hrest : hstr2nibble rest = none) (hdigits : 8 ≤ digits) (hnull : ∀ i, 0 < i → null i false = false)
    {v : BitVec 32} {i : Nat} (hi : i < 8) (hne : dbgNibble v i ≠ 0) (hzero : ∀ j < i, dbgNibble v j = 0) :
    dbgVhstr digits null (dbgDigits v i ++ rest) = some (v, rest) := by
  have hvalue := dbgValue_skip v (Nat.le_of_lt hi) hzero
  have hlen : ((List.range' i (8 - i)).map (dbgNibble v)).length = 8 - i := by rw [List.length_map, List.length_range']
  have hhead : (dbgText ((List.range' i (8 - i)).map (dbgNibble v)) ++ rest).headD 0 ≠ 0x30 := by
    obtain ⟨n, hn⟩ : ∃ n, 8 - i = n + 1 := ⟨7 - i, by omega⟩
    rw [hn, List.range'_succ]
    show hexchars (dbgNibble v i).toNat ≠ 0x30
    rw [ne_eq, hexchars_zero (dbgNibble_lt v i)]
    exact hne
  unfold dbgVhstr
  rw [dbgDigits_eq, dbgZeros_none hhead]
  dsimp only
  rw [dbgVhstrLoop_digits hrest _ (dbgNibbles_lt v _) (by rw [hlen]; omega), hvalue, hlen, if_neg]
  rintro ⟨-, h⟩
  have hfalse : null (0 + (8 - i)) (decide (0 < 0)) = false := hnull _ (by omega)
  rw [hfalse] at h
  exact Bool.noConfusion h

theorem int2vhstr_zero : int2vhstr 0 = [0x30] := by decide

theorem int2vhstr_ne_zero {v : BitVec 32} (hv : v ≠ 0) :
    ∃ i < 8, int2vhstr v = dbgDigits v i ∧ dbgNibble v i ≠ 0 ∧ ∀ j < i, dbgNibble v j = 0 := by
  unfold int2vhstr
  cases hfind : (List.range 8).find? fun i => decide (dbgNibble v i ≠ 0) with
  | none =>
    refine absurd ?_ hv
    have hall : dbgValue 0 ((List.range 8).map (dbgNibble v)) = 0 := by
      refine dbgValue_zeros fun d hd => ?_
      obtain ⟨j, hj, rfl⟩ := List.mem_map.1 hd
      simpa using List.find?_eq_none.1 hfind j hj
    rw [dbgValue_range v (Nat.le_refl 8)] at hall
    rw [← hall]
    exact (BitVec.ushiftRight_zero v).symm
  | some i =>
    obtain ⟨hne, hlt, hbefore⟩ := List.find?_range_eq_some.1 hfind
    refine ⟨i, List.mem_range.1 hlt, rfl, of_decide_eq_true hne, fun j hj => ?_⟩
    simpa using hbefore j hj

theorem dbgVhstrLoop_none (hrest : hstr2nibble rest = none) (null : Nat → Bool) {n : Nat} (hn : 0 < n) :
    dbgVhstrLoop null n 0 0 rest = if null 0 = true then none else some (0, rest) := by
  have hloop := @dbgVhstrLoop_digits rest hrest null [] n 0 0 (fun _ hd => absurd hd List.not_mem_nil) (Nat.zero_le n)
  rw [List.length_nil] at hloop
  simp only [hn, true_and] at hloop
  exact hloop

theorem dbgVhstr_zero (hrest : hstr2nibble rest = none) (hdigits : 1 < digits) (null : Nat → Bool → Bool) :
    dbgVhstr digits null (int2vhstr 0 ++ rest) = if null 0 true = true then none else some (0, rest) := by
  obtain ⟨n, rfl⟩ : ∃ n, digits = n + 1 := ⟨digits - 1, by omega⟩
  have hzeros : dbgZeros (n + 1) (int2vhstr 0 ++ rest) = (1, rest) := by
    rw [int2vhstr_zero]
    show dbgZeros (n + 1) (0x30 :: rest) = _
    rw [dbgZeros_cons, dbgZeros_none (head_ne_zero hrest)]
  unfold dbgVhstr
  rw [hzeros]
  exact dbgVhstrLoop_none hrest _ (by omega)

theorem dbgVhstr_text (hrest : hstr2nibble rest = none) (hdigits : 0 < digits) (null : Nat → Bool → Bool) :
    dbgVhstr digits null rest = if null 0 false = true then none else some (0, rest) := by
  unfold dbgVhstr
  rw [dbgZeros_none (head_ne_zero hrest)]
  exact dbgVhstrLoop_none hrest _ hdigits

theorem dbgVhstr_number (hrest : hstr2nibble rest = none) (hdigits : 8 ≤ digits) (hnull : ∀ i, 0 < i → null i false = false)
    {v : BitVec 32} (hv : v ≠ 0) : dbgVhstr digits null (int2vhstr v ++ rest) = some (v, rest) := by
  obtain ⟨i, hi, hdigit, hne, hzero⟩ := int2vhstr_ne_zero hv
  rw [hdigit]
  exact dbgVhstr_digits hrest hdigits hnull hi hne hzero

theorem dbgZeros_replicate : ∀ (n : Nat) (buf : List UInt8), dbgZeros n (List.replicate n 0x30 ++ buf) = (n, buf)
  | 0, _ => rfl
  | n + 1, buf => by
    show dbgZeros (n + 1) (0x30 :: (List.replicate n 0x30 ++ buf)) = _
    rw [dbgZeros_cons, dbgZeros_replicate n buf]

end Readers

/-- **The numbers of the debugger** are read back, and what is no number is refused, exactly if it is not `vhstr2thread` that reads the thread 0
or what is no number. -/
theorem dbg_numbers (u : DbgUse) (hrest : hstr2nibble u.rest = none) : u.Right ↔ u.exact := by
  have hplace : ∀ found0 : Bool, ∀ i, 0 < i → (i == 0 && found0) = false := by
    intro found0 i hi
    rw [beq_false_of_ne (Nat.ne_of_gt hi)]
    rfl
  cases u with
  | number c v rest =>
    have hr : hstr2nibble rest = none := hrest
    cases c with
    | vint =>
      refine iff_of_true ?_ trivial
      show vhstr2int (int2vhstr v ++ rest) = some (v, rest)
      by_cases hv : v = 0
      · subst hv
        exact dbgVhstr_zero hr (by decide : 1 < 8) _
      · exact dbgVhstr_number hr (Nat.le_refl 8) (hplace true) hv
    | fint => exact iff_of_true (dbgFhstrLoop_all v rest) trivial
    | vthread =>
      by_cases hv : v = 0
      · -- the zero that was found is taken for none
        subst hv
        have hread : vhstr2thread (thread2vhstr 0 ++ rest) = none := dbgVhstr_zero hr (by decide : 1 < 16) _
        refine iff_of_false (fun h => ?_) fun h => h rfl
        have hright : vhstr2thread (thread2vhstr 0 ++ rest) = some (0, rest) := h
        rw [hread] at hright
        exact absurd hright (Option.some_ne_none _).symm
      · exact iff_of_true (dbgVhstr_number hr (by decide : 8 ≤ 16) (hplace false) hv) hv
    | fthread =>
      refine iff_of_true ?_ trivial
      show fhstr2thread (thread2fhstr v ++ rest) = some (v, rest)
      unfold fhstr2thread thread2fhstr
      rw [List.append_assoc, dbgZeros_replicate]
      exact dbgFhstrLoop_all v rest
  | text c rest =>
    have hr : hstr2nibble rest = none := hrest
    cases c with
    | vint =>
      refine iff_of_true ?_ trivial
      show vhstr2int rest = none
      exact dbgVhstr_text hr (by decide : 0 < 8) _
    | fint =>
      refine iff_of_true ?_ trivial
      show fhstr2int rest = none
      unfold fhstr2int
      rw [dbgFhstrLoop, hr]
    | vthread =>
      have hread : vhstr2thread rest = some (0, rest) := dbgVhstr_text hr (by decide : 0 < 16) _
      refine iff_of_false (fun h => ?_) fun h => h
      have hright : vhstr2thread rest = none := h
      rw [hread] at hright
      exact absurd hright (Option.some_ne_none _)
    | fthread =>
      refine iff_of_true ?_ trivial
      show fhstr2thread rest = none
      unfold fhstr2thread
      rw [dbgZeros_none (head_ne_zero hr)]
      rfl

theorem dbg_numbers_thread : (DbgUse.number .vthread 0x1f [0x3b]).Right ↔ (DbgUse.number .vthread 0x1f [0x3b]).exact :=
  dbg_numbers _ (by decide)

/-- The thread 0 is not read. -/
theorem dbg_numbers_zero : ¬ ∀ u : DbgUse, hstr2nibble u.rest = none → u.Right := fun h =>
  absurd (h (.number .vthread 0 []) (by decide)) (by decide : ¬ vhstr2thread (thread2vhstr 0 ++ []) = some (0, []))

end Libogc
