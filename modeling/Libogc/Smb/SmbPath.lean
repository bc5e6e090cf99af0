import Libogc.Lib.Bytes
import Libogc.Lib.Strings
/-!
# SmbPath — the paths of `smb_devoptab.c`

`smb_absolute_path_no_device` puts the current path of the share in front of a relative path and writes one backslash for each run of
separators.  Its loop has the two in one buffer; where it looks for a backslash it looks at the path it was called with, at the index of the
buffer.

A pointer into a string is what is left of it; behind the end a zero is read.  47 and 92 are the two separators, 46 the dot, 58 the colon.
-/
namespace Libogc

open Bytes

def SMB_MAXPATH : Nat := 4096

def isSmbSeparator (c : UInt8) : Bool := c = 47 || c = 92

/-- The loop that skips separators, from the index `i` on. -/
def smbSkipSeparators : Nat → List UInt8 → Nat × List UInt8
  | i, [] => (i, [])
  | i, c :: t => if i < SMB_MAXPATH && isSmbSeparator c then smbSkipSeparators (i + 1) t else (i, c :: t)

/-- The loop of `smb_absolute_path_no_device` from the index `i` on, where `t` stands in `temp`; `fuel` bounds its rounds.  It gives what is
written to `destpath`, and the indexes at which `srcpath` is read. -/
def smbPathLoop (srcpath : List UInt8) : Nat → Nat → List UInt8 → List UInt8 × List Nat
  | 0, _, _ => ([], [])
  | _ + 1, _, [] => ([], [])
  | fuel + 1, i, c :: t =>
    if SMB_MAXPATH ≤ i then ([], [])
    else if c = 47 then
      let next := smbSkipSeparators i (c :: t)
      let rest := smbPathLoop srcpath fuel next.1 next.2
      (92 :: rest.1, rest.2)
    else if srcpath.getD i 0 = 92 then
      let next := smbSkipSeparators (i + 1) t
      let rest := smbPathLoop srcpath fuel next.1 next.2
      (c :: rest.1, i :: rest.2)
    else
      let rest := smbPathLoop srcpath fuel (i + 1) t
      (c :: rest.1, i :: rest.2)

/-- `srcpath` behind its device. -/
def smbPathPart (srcpath : List UInt8) : List UInt8 :=
  match strchr srcpath 58 with
  | some device => device.tail
  | none => srcpath

/-- `temp`, before the loop. -/
def smbPathTemp (currentpath srcpath : List UInt8) : List UInt8 :=
  let temp := if srcpath.headD 0 ≠ 92 ∧ srcpath.headD 0 ≠ 47 then currentpath else []
  if srcpath.headD 0 = 0 then temp
  else if srcpath.headD 0 = 46 ∧ (srcpath.getD 1 0 = 92 ∨ srcpath.getD 1 0 = 0) then temp ++ srcpath.tail
  else temp ++ srcpath

/-- `smb_absolute_path_no_device`: `destpath`, with the indexes at which the loop reads what is behind the device. -/
def smbAbsolutePathNoDevice (currentpath srcpath : List UInt8) : Option (List UInt8 × List Nat) :=
  let srcpath := smbPathPart srcpath
  match strchr srcpath 58 with
  | some _ => none
  | none =>
    let temp := smbPathTemp currentpath srcpath
    some (smbPathLoop srcpath temp.length 0 temp)

/-! ## What is meant -/

/-- The string with one backslash for each run of separators; `prev` says that a run goes on. -/
def smbCollapse : Bool → List UInt8 → List UInt8
  | _, [] => []
  | prev, c :: t =>
    if isSmbSeparator c then if prev then smbCollapse true t else 92 :: smbCollapse true t
    else c :: smbCollapse false t

/-- A dot that stands for the current path. -/
def smbDropDot : List UInt8 → List UInt8
  | [46] => []
  | 46 :: 92 :: t => 92 :: t
  | t => t

/-- The path that is meant. -/
def smbMeantPath (currentpath part : List UInt8) : List UInt8 :=
  if part.head?.any isSmbSeparator then part else currentpath ++ smbDropDot part

/-- **A right path**: no string is left by a read, the path is the one that is meant, and it is its own absolute path. -/
def SmbPathRight (currentpath srcpath : List UInt8) (result : Option (List UInt8 × List Nat)) : Prop :=
  ∃ destpath reads, result = some (destpath, reads) ∧ Within reads ((smbPathPart srcpath).length + 1) ∧
    destpath = smbCollapse false (smbMeantPath currentpath (smbPathPart srcpath)) ∧
    ∀ currentpath', (smbAbsolutePathNoDevice currentpath' destpath).map Prod.fst = some destpath

/-- **Where it does not matter** that the wrong string is looked at.  At each character that a run does not go on with, a slash apart: it is
not too far from the beginning, and before a separator there is a backslash in the one string where there is one in the other. -/
def SmbPathHarmless (part : List UInt8) : Bool → Nat → List UInt8 → Prop
  | _, _, [] => True
  | prev, i, c :: t =>
    (¬ (prev = true ∧ isSmbSeparator c = true) → c ≠ 47 →
      i ≤ part.length ∧ (t.head?.any isSmbSeparator = true → (part.getD i 0 = 92 ↔ c = 92))) ∧
    SmbPathHarmless part (isSmbSeparator c) (i + 1) t

/-! ## Runs of separators -/

section Separators
variable {part t rest : List UInt8} {c : UInt8} {i : Nat} {prev : Bool}

theorem smbSkipSeparators_eq (h : i + t.length ≤ SMB_MAXPATH) :
    smbSkipSeparators i t = (i + (t.takeWhile isSmbSeparator).length, t.dropWhile isSmbSeparator) := by
  induction t generalizing i with
  | nil => rfl
  | cons c t ih =>
    rw [List.length_cons] at h
    rw [smbSkipSeparators]
    cases hc : isSmbSeparator c with
    | false => simp [hc]
    | true =>
      have hi : i < SMB_MAXPATH := by omega
      simp only [hi, decide_true, Bool.and_true, if_true, List.takeWhile_cons_of_pos hc, List.dropWhile_cons_of_pos hc, List.length_cons]
      rw [ih (by omega), Nat.add_assoc, Nat.add_comm 1]

theorem dropWhile_head (t : List UInt8) : (t.dropWhile isSmbSeparator).head?.any isSmbSeparator = false := by
  induction t with
  | nil => rfl
  | cons c t ih =>
    cases hc : isSmbSeparator c with
    | false => simp [hc]
    | true =>
      rw [List.dropWhile_cons_of_pos hc]
      exact ih

theorem takeWhile_none (h : t.head?.any isSmbSeparator = false) : t.takeWhile isSmbSeparator = [] ∧ t.dropWhile isSmbSeparator = t := by
  cases t with
  | nil => exact ⟨rfl, rfl⟩
  | cons c t =>
    have hc : isSmbSeparator c = false := h
    simp [hc]

theorem smbCollapse_run (t : List UInt8) : smbCollapse true t = smbCollapse false (t.dropWhile isSmbSeparator) := by
  induction t with
  | nil => rfl
  | cons c t ih =>
    cases hc : isSmbSeparator c with
    | false => simp [smbCollapse, hc]
    | true =>
      rw [List.dropWhile_cons_of_pos hc, ← ih]
      simp [smbCollapse, hc]

theorem smbCollapse_head (t : List UInt8) :
    (smbCollapse false t).head? = t.head?.map fun c => if isSmbSeparator c then 92 else c := by
  cases t with
  | nil => rfl
  | cons c t => cases hc : isSmbSeparator c <;> simp [smbCollapse, hc]

theorem harmless_run : SmbPathHarmless part true i t ↔
    SmbPathHarmless part false (i + (t.takeWhile isSmbSeparator).length) (t.dropWhile isSmbSeparator) := by
  induction t generalizing i with
  | nil => exact Iff.rfl
  | cons c t ih =>
    cases hc : isSmbSeparator c with
    | false => simp [SmbPathHarmless, hc]
    | true =>
      rw [List.takeWhile_cons_of_pos hc, List.dropWhile_cons_of_pos hc, List.length_cons, Nat.add_comm _ 1, ← Nat.add_assoc, ← ih]
      simp [SmbPathHarmless, hc]

theorem smbCollapse_separator (hc : isSmbSeparator c = true) :
    smbCollapse false (c :: t) = 92 :: smbCollapse false (t.dropWhile isSmbSeparator) := by
  rw [← smbCollapse_run]
  simp [smbCollapse, hc]

theorem smbCollapse_first (h : t.head?.any isSmbSeparator = true) : (smbCollapse false t).head? = some 92 := by
  cases t with
  | nil => cases h
  | cons c t =>
    rw [smbCollapse_separator h]
    rfl

theorem smbCollapse_plain (hc : isSmbSeparator c = false) : smbCollapse false (c :: t) = c :: smbCollapse false t := by
  simp [smbCollapse, hc]

theorem harmless_separator (hc : isSmbSeparator c = true) : SmbPathHarmless part false i (c :: t) ↔
    (c ≠ 47 → i ≤ part.length ∧ (t.head?.any isSmbSeparator = true → (part.getD i 0 = 92 ↔ c = 92))) ∧
      SmbPathHarmless part false (i + 1 + (t.takeWhile isSmbSeparator).length) (t.dropWhile isSmbSeparator) := by
  rw [← harmless_run, SmbPathHarmless, hc]
  simp

theorem harmless_plain (hc : isSmbSeparator c = false) : SmbPathHarmless part false i (c :: t) ↔
    (i ≤ part.length ∧ (t.head?.any isSmbSeparator = true → part.getD i 0 ≠ 92)) ∧ SmbPathHarmless part false (i + 1) t := by
  have hslash : c ≠ 47 := fun h => by simp [h, isSmbSeparator] at hc
  have hback : c ≠ 92 := fun h => by simp [h, isSmbSeparator] at hc
  rw [SmbPathHarmless, hc]
  simp [hslash, hback]

end Separators

/-! ## The loop -/

section Loop
variable {part : List UInt8}

theorem separator_cases {c : UInt8} (h : isSmbSeparator c = true) : c = 47 ∨ c = 92 := by simpa [isSmbSeparator] using h

theorem smbPathLoop_head {fuel i : Nat} {t : List UInt8} (hi : i + t.length < SMB_MAXPATH) (hfuel : t.length ≤ fuel) :
    (smbPathLoop part fuel i t).1.head? = t.head?.map fun c => if isSmbSeparator c then 92 else c := by
  cases t with
  | nil => cases fuel <;> rfl
  | cons c t =>
    rw [List.length_cons] at hi hfuel
    obtain ⟨fuel, rfl⟩ : ∃ k, fuel = k + 1 := ⟨fuel - 1, by omega⟩
    rw [smbPathLoop, if_neg (by omega)]
    split
    · rename_i hc
      subst hc
      rfl
    · rename_i hc
      have hother : (if isSmbSeparator c then 92 else c) = c := by
        split
        · exact ((separator_cases ‹_›).resolve_left hc).symm
        · rfl
      split <;> simp [hother]

/-- A list that begins with a backslash is none that does not begin with a separator. -/
theorem head_ne {t : List UInt8} {out : List UInt8} (hout : out.head? = t.head?.map fun c => if isSmbSeparator c then 92 else c)
    (ht : t.head?.any isSmbSeparator = false) (rest : List UInt8) : out ≠ 92 :: rest := by
  rintro rfl
  cases t with
  | nil => cases hout
  | cons c t =>
    have hc : isSmbSeparator c = false := ht
    simp only [List.head?_cons, Option.map_some, hc] at hout
    obtain rfl : 92 = c := Option.some.inj hout
    cases hc

theorem written_iff {c : UInt8} {out out' : List UInt8} {p q : Prop} : (c :: out = c :: out' ∧ p ∧ q) ↔ p ∧ out = out' ∧ q := by
  rw [List.cons.injEq, and_iff_right rfl, and_left_comm]

theorem smbPathLoop_iff (fuel : Nat) : ∀ {i : Nat} {t : List UInt8}, i + t.length < SMB_MAXPATH → t.length ≤ fuel →
    ((smbPathLoop part fuel i t).1 = smbCollapse false t ∧ Within (smbPathLoop part fuel i t).2 (part.length + 1) ↔
      SmbPathHarmless part false i t) := by
  induction fuel with
  | zero =>
    intro i t _ hfuel
    obtain rfl := List.length_eq_zero_iff.1 (Nat.le_zero.1 hfuel)
    exact iff_of_true ⟨rfl, within_nil _⟩ trivial
  | succ fuel ih =>
    intro i t hi hfuel
    cases t with
    | nil => exact iff_of_true ⟨rfl, within_nil _⟩ trivial
    | cons c t =>
      rw [List.length_cons] at hi hfuel
      have hdrop := List.length_dropWhile_le isSmbSeparator t
      have htake : (t.takeWhile isSmbSeparator).length + (t.dropWhile isSmbSeparator).length = t.length := by
        rw [← List.length_append, List.takeWhile_append_dropWhile]
      have hskip : smbSkipSeparators (i + 1) t = (i + 1 + (t.takeWhile isSmbSeparator).length, t.dropWhile isSmbSeparator) :=
        smbSkipSeparators_eq (by omega)
      -- the loop behind the run that follows
      have hbehind := ih (i := i + 1 + (t.takeWhile isSmbSeparator).length) (t := t.dropWhile isSmbSeparator) (by omega) (by omega)
      rw [smbPathLoop, if_neg (by omega)]
      by_cases hslash : c = 47
      · subst hslash
        rw [if_pos rfl, smbSkipSeparators, if_pos (by simp [isSmbSeparator]; omega), hskip]
        rw [smbCollapse_separator rfl, harmless_separator rfl, ← hbehind]
        simp
      · rw [if_neg hslash]
        have hwithin : ∀ reads, Within (i :: reads) (part.length + 1) ↔ i ≤ part.length ∧ Within reads (part.length + 1) :=
          fun reads => within_cons.trans (and_congr_left' Nat.lt_succ_iff)
        by_cases hpart : part.getD i 0 = 92
        · rw [if_pos hpart, hskip]
          dsimp only
          rw [hwithin]
          cases hc : isSmbSeparator c with
          | true =>
            obtain rfl := (separator_cases hc).resolve_left hslash
            rw [smbCollapse_separator hc, harmless_separator hc, ← hbehind, forall_prop_of_true hslash,
              and_iff_left fun _ => iff_of_true hpart rfl, written_iff]
          | false =>
            rw [smbCollapse_plain hc, harmless_plain hc]
            cases ht : t.head?.any isSmbSeparator with
            | false =>
              obtain ⟨htake0, hdrop0⟩ := takeWhile_none ht
              rw [htake0, hdrop0, List.length_nil, Nat.add_zero] at hbehind ⊢
              rw [← hbehind, and_iff_left (fun h => nomatch h), written_iff]
            | true =>
              -- the run is skipped, and no backslash is written for it
              refine iff_of_false (fun h => ?_) fun h => h.1.2 rfl hpart
              obtain ⟨d, t, rfl⟩ : ∃ d t', t = d :: t' := List.exists_cons_of_ne_nil (by rintro rfl; cases ht)
              have hbad := (List.cons.inj h.1).2
              rw [smbCollapse_separator ht] at hbad
              exact head_ne (smbPathLoop_head (by omega) (by omega)) (dropWhile_head _) _ hbad
        · rw [if_neg hpart]
          dsimp only
          rw [hwithin]
          have hnext := ih (i := i + 1) (t := t) (by omega) (by omega)
          cases hc : isSmbSeparator c with
          | false =>
            rw [smbCollapse_plain hc, harmless_plain hc, ← hnext, and_iff_left fun _ => hpart, written_iff]
          | true =>
            obtain rfl := (separator_cases hc).resolve_left hslash
            rw [smbCollapse_separator hc, harmless_separator hc]
            cases ht : t.head?.any isSmbSeparator with
            | false =>
              obtain ⟨htake0, hdrop0⟩ := takeWhile_none ht
              rw [htake0, hdrop0, List.length_nil, Nat.add_zero, ← hnext, forall_prop_of_true hslash,
                and_iff_left (fun h => nomatch h), written_iff]
            | true =>
              -- the run goes on, and a backslash is written for each of its characters
              refine iff_of_false (fun h => ?_) fun h => hpart ((h.1 (by decide)).2 rfl |>.2 rfl)
              have hbad := (List.cons.inj h.1).2
              obtain ⟨d, t, rfl⟩ : ∃ d t', t = d :: t' := List.exists_cons_of_ne_nil (by rintro rfl; cases ht)
              have hhead : (smbPathLoop part fuel (i + 1) (d :: t)).1.head? = _ := smbPathLoop_head (by omega) (by omega)
              have hd : isSmbSeparator d = true := ht
              rw [List.head?_cons, Option.map_some, if_pos hd, List.head?_eq_some_iff] at hhead
              obtain ⟨rest, hrest⟩ := hhead
              exact head_ne (smbCollapse_head _) (dropWhile_head _) rest (hbad.symm.trans hrest)

theorem harmless_self {prev : Bool} : ∀ {i : Nat} {t : List UInt8}, part.drop i = t → SmbPathHarmless part prev i t := by
  intro i t h
  induction t generalizing i prev with
  | nil => trivial
  | cons c t ih =>
    have hi : i < part.length := by
      by_contra hge
      rw [List.drop_of_length_le (Nat.le_of_not_lt hge)] at h
      cases h
    have hsplit := List.drop_eq_getElem_cons hi
    rw [h] at hsplit
    obtain ⟨hc, ht⟩ := List.cons.inj hsplit
    refine ⟨fun _ _ => ⟨Nat.le_of_lt hi, fun _ => ?_⟩, ih ht.symm⟩
    rw [List.getD_eq_getElem _ _ hi, ← hc]

end Loop

/-! ## The path that is meant -/

section Meant
variable {cur part t : List UInt8} {prev : Bool}

theorem smbCollapse_idem (prev : Bool) (t : List UInt8) : smbCollapse prev (smbCollapse prev t) = smbCollapse prev t := by
  induction t generalizing prev with
  | nil => rfl
  | cons c t ih =>
    have hback : isSmbSeparator 92 = true := rfl
    cases hc : isSmbSeparator c <;> cases prev <;> simp [smbCollapse, hc, hback, ih]

theorem smbCollapse_length (prev : Bool) (t : List UInt8) : (smbCollapse prev t).length ≤ t.length := by
  induction t generalizing prev with
  | nil => exact Nat.le_refl 0
  | cons c t ih =>
    have htrue := ih true
    have hfalse := ih false
    unfold smbCollapse
    split_ifs <;> simp only [List.length_cons] <;> omega

theorem mem_smbCollapse {x : UInt8} (h : x ∈ smbCollapse prev t) : x = 92 ∨ x ∈ t := by
  induction t generalizing prev with
  | nil => cases h
  | cons c t ih =>
    have hrest : ∀ {prev}, x ∈ smbCollapse prev t → x = 92 ∨ x ∈ c :: t := fun h => (ih h).imp_right (List.mem_cons_of_mem c)
    unfold smbCollapse at h
    split_ifs at h
    · exact hrest h
    · exact (List.mem_cons.1 h).elim .inl hrest
    · exact (List.mem_cons.1 h).elim (fun he => .inr (he ▸ List.mem_cons_self)) hrest

theorem smbDropDot_suffix (part : List UInt8) : smbDropDot part <:+ part := by
  unfold smbDropDot
  split
  · exact List.nil_suffix
  · exact List.suffix_cons _ _
  · exact List.suffix_refl _

theorem smbPathTemp_eq (h0 : 0 ∉ part) : smbPathTemp cur part = smbMeantPath cur part := by
  unfold smbPathTemp smbMeantPath
  cases part with
  | nil => simp [smbDropDot]
  | cons c t =>
    have hc : c ≠ 0 := fun h => h0 (h ▸ List.mem_cons_self)
    cases hsep : isSmbSeparator c with
    | true => rcases separator_cases hsep with rfl | rfl <;> simp [isSmbSeparator]
    | false =>
      have hdot : isSmbSeparator 46 = false := rfl
      have hslash : c ≠ 47 := fun h => by simp [h, isSmbSeparator] at hsep
      have hback : c ≠ 92 := fun h => by simp [h, isSmbSeparator] at hsep
      cases t with
      | nil => by_cases h46 : c = 46 <;> simp [hc, hslash, hback, hsep, hdot, h46, smbDropDot]
      | cons d t =>
        have hd : d ≠ 0 := fun h => h0 (h ▸ List.mem_cons_of_mem _ List.mem_cons_self)
        by_cases h46 : c = 46 <;> by_cases h92 : d = 92 <;> simp [hc, hd, hslash, hback, hsep, hdot, h46, h92, smbDropDot]

end Meant

/-! ## The paths of a share -/

/-- **A current path**: it begins and ends with a backslash, and is a string without a device. -/
structure SmbCurrent (currentpath : List UInt8) : Prop where
  first : currentpath.head? = some 92
  last : currentpath.getLast? = some 92
  string : 0 ∉ currentpath
  noDevice : 58 ∉ currentpath

section Paths
variable {cur srcpath : List UInt8}

theorem smbPathPart_suffix (srcpath : List UInt8) : smbPathPart srcpath <:+ srcpath := by
  unfold smbPathPart
  split
  · rename_i device h
    exact (List.tail_suffix device).trans (strchr_suffix h)
  · exact List.suffix_refl _

theorem smbPathPart_noDevice (hcolon : srcpath.count 58 ≤ 1) : 58 ∉ smbPathPart srcpath := by
  unfold smbPathPart
  rcases strchr_once hcolon with ⟨hno, hnone⟩ | ⟨t, hsome, hno⟩
  · rw [hnone]
    exact hno
  · rw [hsome]
    exact hno

theorem smbAbsolutePathNoDevice_eq (hcolon : 58 ∉ smbPathPart srcpath) (h0 : 0 ∉ smbPathPart srcpath) :
    smbAbsolutePathNoDevice cur srcpath = some (smbPathLoop (smbPathPart srcpath) (smbMeantPath cur (smbPathPart srcpath)).length 0
      (smbMeantPath cur (smbPathPart srcpath))) := by
  unfold smbAbsolutePathNoDevice
  dsimp only
  rw [strchr_none hcolon, smbPathTemp_eq h0]

theorem smbPath_absolute (hcolon : 58 ∉ srcpath) (h0 : 0 ∉ srcpath) (hsep : srcpath.head?.any isSmbSeparator = true)
    (hlen : srcpath.length < SMB_MAXPATH) : (smbAbsolutePathNoDevice cur srcpath).map Prod.fst = some (smbCollapse false srcpath) := by
  have hpart : smbPathPart srcpath = srcpath := by
    unfold smbPathPart
    rw [strchr_none hcolon]
  have hmeant : smbMeantPath cur srcpath = srcpath := if_pos hsep
  have heq := @smbAbsolutePathNoDevice_eq cur srcpath (hpart.symm ▸ hcolon) (hpart.symm ▸ h0)
  rw [hpart, hmeant] at heq
  rw [heq, Option.map_some]
  exact congrArg some ((smbPathLoop_iff srcpath.length (by omega) (Nat.le_refl _)).2 (harmless_self rfl)).1

theorem smbMeantPath_spec (hcur : SmbCurrent cur) {part : List UInt8} (hpart : 58 ∉ part) (h0 : 0 ∉ part)
    (hlen : cur.length + part.length < SMB_MAXPATH) :
    (smbMeantPath cur part).head?.any isSmbSeparator = true ∧ (smbMeantPath cur part).length < SMB_MAXPATH ∧
      58 ∉ smbMeantPath cur part ∧ 0 ∉ smbMeantPath cur part := by
  unfold smbMeantPath
  split
  · exact ⟨‹_›, by omega, hpart, h0⟩
  · have hdrop := smbDropDot_suffix part
    have hshort := hdrop.length_le
    refine ⟨?_, ?_, ?_, ?_⟩
    · rw [List.head?_append, hcur.first]
      rfl
    · rw [List.length_append]
      omega
    · rw [List.mem_append, not_or]
      exact ⟨hcur.noDevice, fun h => hpart (hdrop.subset h)⟩
    · rw [List.mem_append, not_or]
      exact ⟨hcur.string, fun h => h0 (hdrop.subset h)⟩

/-- **Paths are normalised** just when the wrong string does not matter. -/
theorem smb_path_normalised (hcur : SmbCurrent cur) (h0 : 0 ∉ srcpath) (hcolon : srcpath.count 58 ≤ 1)
    (hlen : cur.length + (smbPathPart srcpath).length < SMB_MAXPATH) :
    SmbPathRight cur srcpath (smbAbsolutePathNoDevice cur srcpath) ↔
      SmbPathHarmless (smbPathPart srcpath) false 0 (smbMeantPath cur (smbPathPart srcpath)) := by
  have hno := smbPathPart_noDevice hcolon
  have hpart0 : 0 ∉ smbPathPart srcpath := fun h => h0 ((smbPathPart_suffix srcpath).subset h)
  obtain ⟨hsep, hshort, hno', h0'⟩ := smbMeantPath_spec hcur hno hpart0 hlen
  have heq := @smbAbsolutePathNoDevice_eq cur srcpath hno hpart0
  unfold SmbPathRight
  rw [heq, ← smbPathLoop_iff (smbMeantPath cur (smbPathPart srcpath)).length (by omega) (Nat.le_refl _)]
  constructor
  · rintro ⟨destpath, reads, hsome, hwithin, hdest, -⟩
    rw [Option.some.inj hsome]
    exact ⟨hdest, hwithin⟩
  · rintro ⟨hdest, hwithin⟩
    refine ⟨_, _, rfl, hwithin, hdest, fun cur' => ?_⟩
    have hhead : (smbCollapse false (smbMeantPath cur (smbPathPart srcpath))).head?.any isSmbSeparator = true := by
      rw [smbCollapse_first hsep]
      rfl
    have hlen' := smbCollapse_length false (smbMeantPath cur (smbPathPart srcpath))
    rw [hdest, smbPath_absolute _ _ hhead (by omega), smbCollapse_idem]
    · intro h
      exact (mem_smbCollapse h).elim (by decide) hno'
    · intro h
      exact (mem_smbCollapse h).elim (by decide) h0'

/-- `smb:dir//file`, at the root. -/
theorem smb_path_normalised_root :
    SmbPathRight [92] [115, 109, 98, 58, 100, 47, 47, 102] (smbAbsolutePathNoDevice [92] [115, 109, 98, 58, 100, 47, 47, 102]) ↔
      SmbPathHarmless [100, 47, 47, 102] false 0 [92, 100, 47, 47, 102] :=
  smb_path_normalised ⟨rfl, rfl, by decide, by decide⟩ (by decide) (by decide) (by decide)

/-- A dot and a backslash before a name, at the root: two backslashes are written. -/
theorem smb_path_doubled : ¬ SmbPathRight [92] [46, 92, 102] (smbAbsolutePathNoDevice [92] [46, 92, 102]) := by
  rintro ⟨destpath, reads, hsome, -, hdest, -⟩
  obtain ⟨rfl, rfl⟩ := Prod.mk.inj (Option.some.inj hsome)
  exact absurd hdest (by decide)

/-! ## Changing the current path -/

/-- `__smb_chdir`: whether the connection is there, and what the server says of the path, that it is a directory or not. -/
def smbChdir (currentpath path : List UInt8) (reach : Bool) (info : Option Bool) : List UInt8 :=
  match smbAbsolutePathNoDevice currentpath path with
  | none => currentpath
  | some (pathAbsolute, _) =>
    if reach && info = some true then
      if pathAbsolute ≠ [] ∧ pathAbsolute.getLast? ≠ some 92 then pathAbsolute ++ [92] else pathAbsolute
    else currentpath

theorem smbSkipSeparators_suffix {i : Nat} {t : List UInt8} : (smbSkipSeparators i t).2 <:+ t := by
  induction t generalizing i with
  | nil => exact List.suffix_refl _
  | cons c t ih =>
    rw [smbSkipSeparators]
    split
    · exact ih.trans (List.suffix_cons c t)
    · exact List.suffix_refl _

theorem mem_smbPathLoop {part : List UInt8} {x : UInt8} (fuel : Nat) : ∀ {i : Nat} {t : List UInt8},
    x ∈ (smbPathLoop part fuel i t).1 → x = 92 ∨ x ∈ t := by
  induction fuel with
  | zero => exact fun h => nomatch h
  | succ fuel ih =>
    intro i t h
    cases t with
    | nil => cases h
    | cons c t =>
      have hrest : ∀ {j u}, u <:+ c :: t → x ∈ (smbPathLoop part fuel j u).1 → x = 92 ∨ x ∈ c :: t :=
        fun hu h => (ih h).imp_right fun hm => hu.subset hm
      have hfirst : x = c → x = 92 ∨ x ∈ c :: t := fun he => .inr (he ▸ List.mem_cons_self)
      rw [smbPathLoop] at h
      split at h
      · cases h
      · split at h
        · exact (List.mem_cons.1 h).elim .inl (hrest smbSkipSeparators_suffix)
        · split at h
          · exact (List.mem_cons.1 h).elim hfirst (hrest (smbSkipSeparators_suffix.trans (List.suffix_cons c t)))
          · exact (List.mem_cons.1 h).elim hfirst (hrest (List.suffix_cons c t))

theorem SmbCurrent.chdir (hcur : SmbCurrent cur) (h0 : 0 ∉ srcpath) (hlen : cur.length + (smbPathPart srcpath).length < SMB_MAXPATH)
    (reach : Bool) (info : Option Bool) : SmbCurrent (smbChdir cur srcpath reach info) := by
  unfold smbChdir
  by_cases hcolon : 58 ∈ smbPathPart srcpath
  · obtain ⟨u, v, huv, hu⟩ := List.eq_append_cons_of_mem hcolon
    have hnone : smbAbsolutePathNoDevice cur srcpath = none := by
      unfold smbAbsolutePathNoDevice
      dsimp only
      rw [huv, strchr_some hu]
    rw [hnone]
    exact hcur
  · have hpart0 : 0 ∉ smbPathPart srcpath := fun h => h0 ((smbPathPart_suffix srcpath).subset h)
    obtain ⟨hsep, hshort, hno', h0'⟩ := smbMeantPath_spec hcur hcolon hpart0 hlen
    rw [smbAbsolutePathNoDevice_eq hcolon hpart0]
    generalize smbMeantPath cur (smbPathPart srcpath) = temp at hsep hshort hno' h0'
    have hhead : (smbPathLoop (smbPathPart srcpath) temp.length 0 temp).1.head? =
        temp.head?.map fun c => if isSmbSeparator c then 92 else c :=
      smbPathLoop_head (by omega) (Nat.le_refl _)
    have hmem : ∀ x ∈ (smbPathLoop (smbPathPart srcpath) temp.length 0 temp).1, x = 92 ∨ x ∈ temp := fun _ h => mem_smbPathLoop _ h
    generalize smbPathLoop (smbPathPart srcpath) temp.length 0 temp = result at hhead hmem
    obtain ⟨pathAbsolute, reads⟩ := result
    dsimp only at hhead hmem ⊢
    have hfirst : pathAbsolute.head? = some 92 := by
      cases hm : temp.head? with
      | none =>
        rw [hm] at hsep
        cases hsep
      | some c =>
        rw [hm] at hsep hhead
        rw [hhead, Option.map_some, if_pos (show isSmbSeparator c = true from hsep)]
    have hzero : 0 ∉ pathAbsolute := fun h => (hmem 0 h).elim (by decide) h0'
    have hdevice : 58 ∉ pathAbsolute := fun h => (hmem 58 h).elim (by decide) hno'
    split
    · split
      · refine ⟨?_, List.getLast?_concat, ?_, ?_⟩
        · rw [List.head?_append, hfirst]
          rfl
        · simp [hzero]
        · simp [hdevice]
      · rename_i hlast
        refine ⟨hfirst, ?_, hzero, hdevice⟩
        by_contra hne
        exact hlast ⟨fun hnil => by simp [hnil] at hfirst, hne⟩
    · exact hcur

end Paths

end Libogc
