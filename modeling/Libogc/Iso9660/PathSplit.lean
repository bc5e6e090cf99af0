import Libogc.Iso9660.Path
import Libogc.Lib.Words
/-!
# PathSplit — `dirname` and `basename` of `iso9660.c`

Both go back from the end of the path to its last separator.  The index of `basename` is signed and runs below zero when there is none;
that of `dirname` is a `size_t`, and goes around instead.
-/
namespace Libogc

/-- The path without the name of the device. -/
def isoAfterDevice (constPath : List UInt8) : List UInt8 :=
  match strchr constPath 58 with
  | some t => t.tail
  | none => constPath

/-- The loop that takes separators off the end, when `len` characters are left. -/
def isoTrim (path : List UInt8) : Nat → List UInt8
  | len + 2 => if path.getD (len + 1) 0 = DIR_SEPARATOR then isoTrim path (len + 1) else path.take (len + 2)
  | len => path.take len

/-- The path that `entry_from_path` splits. -/
def isoSplitPath (constPath : List UInt8) : List UInt8 := isoTrim (isoAfterDevice constPath) (isoAfterDevice constPath).length

/-- The memory from the start of a string on, with what is around it. -/
def isoMemory (s : List UInt8) (around : Nat → UInt8) (i : Nat) : UInt8 :=
  if i < s.length then s.getD i 0 else if i = s.length then 0 else around i

/-- `n` rounds of the loop of `dirname`: what they read, and where they find a separator. -/
def isoDirnameScan (result : Nat → UInt8) : Nat → Nat → List Nat × Option Nat
  | 0, _ => ([], none)
  | n + 1, i =>
    if result i = DIR_SEPARATOR then ([i], some i)
    else
      let r := isoDirnameScan result n (u32Pred i)
      (i :: r.1, r.2)

/-- `dirname`: what `strlen` and the loop read, and the string, if `n` rounds are enough.  Nothing comes of `j < 0`: it is unsigned. -/
def isoDirname (n : Nat) (path : List UInt8) (around : Nat → UInt8) : List Nat × Option (List UInt8) :=
  let r := isoDirnameScan (isoMemory path around) n (u32Pred path.length)
  (List.range (path.length + 1) ++ r.1, r.2.map fun i => cstr (path.set i 0))

/-- The loop of `basename`, which goes down to zero. -/
def isoBasenameScan (path : Nat → UInt8) : Nat → List Nat × Option Nat
  | 0 => ([], none)
  | i + 1 =>
    if path i = DIR_SEPARATOR then ([i], some i)
    else
      let r := isoBasenameScan path i
      (i :: r.1, r.2)

def isoBasename (path : List UInt8) (around : Nat → UInt8) : List Nat × List UInt8 :=
  let r := isoBasenameScan (isoMemory path around) (s32 (path.length - 1) + 1).toNat
  (List.range (path.length + 1) ++ r.1,
    match r.2 with
    | some i => path.drop (i + 1)
    | none => path)

/-- `dir` and `base` are what stands before and after the last separator. -/
def IsoSplitAt (path dir base : List UInt8) : Prop :=
  (path = dir ++ DIR_SEPARATOR :: base ∧ DIR_SEPARATOR ∉ base) ∨ (DIR_SEPARATOR ∉ path ∧ dir = [] ∧ base = path)

/-- **The path is split**: the loops come to an end, read the string and its zero only, and give its two parts. -/
structure IsoSplits (constPath : List UInt8) (around : Nat → UInt8) : Prop where
  ends : ∃ n, (isoDirname n (isoSplitPath constPath) around).2.isSome
  inside : ∀ n, ∀ i ∈ (isoDirname n (isoSplitPath constPath) around).1 ++ (isoBasename (isoSplitPath constPath) around).1,
    i ≤ (isoSplitPath constPath).length
  split : ∀ n dir, (isoDirname n (isoSplitPath constPath) around).2 = some dir →
    IsoSplitAt ((isoAfterDevice constPath).rdropWhile (· = DIR_SEPARATOR)) dir (isoBasename (isoSplitPath constPath) around).2

/-! ## The end of the path -/

variable {constPath path u v : List UInt8} {around : Nat → UInt8}

theorem isoAfterDevice_suffix (constPath : List UInt8) : isoAfterDevice constPath <:+ constPath := by
  unfold isoAfterDevice
  split
  · rename_i t ht
    exact (List.tail_suffix t).trans (strchr_suffix ht)
  · exact List.suffix_refl _

theorem IsoSplitAt.base {dir base : List UInt8} (h : IsoSplitAt path dir base) : DIR_SEPARATOR ∉ base := by
  rcases h with ⟨-, hb⟩ | ⟨hn, -, rfl⟩
  · exact hb
  · exact hn

theorem isoTrim_eq (path : List UInt8) : ∀ {len : Nat}, len ≤ path.length →
    isoTrim path len =
      if (path.take len).rdropWhile (· = DIR_SEPARATOR) = [] then path.take (min 1 len)
      else (path.take len).rdropWhile (· = DIR_SEPARATOR)
  | 0, _ => by simp [isoTrim]
  | 1, h => by
    obtain ⟨a, rest, rfl⟩ := List.exists_cons_of_length_pos (by omega : 0 < path.length)
    rw [isoTrim, List.take_succ_cons, List.take_zero, List.rdropWhile_singleton]
    by_cases ha : a = DIR_SEPARATOR
    · simp [ha]
    · simp [ha]
    exact fun len h => by omega
  | len + 2, h => by
    have hlast : path.take (len + 2) = path.take (len + 1) ++ [path.getD (len + 1) 0] := by
      rw [List.take_add_one, List.getD_eq_getElem?_getD, List.getElem?_eq_getElem (by omega)]
      rfl
    rw [isoTrim]
    by_cases hs : path.getD (len + 1) 0 = DIR_SEPARATOR
    · rw [if_pos hs, isoTrim_eq path (by omega), hlast, List.rdropWhile_concat_pos _ _ _ (by simpa using hs),
        show min 1 (len + 1) = min 1 (len + 2) by omega]
    · rw [if_neg hs, hlast, List.rdropWhile_concat_neg _ _ _ (by simpa using hs), if_neg (by simp)]

theorem isoTrim_start (path : List UInt8) : isoTrim path path.length <+: path := by
  rw [isoTrim_eq path (Nat.le_refl _), List.take_length]
  split
  · exact List.take_prefix ..
  · exact List.rdropWhile_prefix ..

theorem isoSplitPath_sublist (constPath : List UInt8) : (isoSplitPath constPath).Sublist constPath :=
  (isoTrim_start _).sublist.trans (isoAfterDevice_suffix _).sublist

/-- What is split has the parts of the path without separators at its end. -/
theorem IsoSplitAt.of_trim (path : List UInt8) (h : isoTrim path path.length = u ++ DIR_SEPARATOR :: v) (hv : DIR_SEPARATOR ∉ v) :
    IsoSplitAt (path.rdropWhile (· = DIR_SEPARATOR)) u v := by
  rw [isoTrim_eq path (Nat.le_refl _), List.take_length] at h
  by_cases hnil : path.rdropWhile (· = DIR_SEPARATOR) = []
  · -- the path is nothing but separators, and one of them was left
    rw [if_pos hnil] at h
    have hlen := congrArg List.length h
    rw [List.length_take, List.length_append, List.length_cons] at hlen
    obtain rfl : u = [] := List.eq_nil_of_length_eq_zero (by omega)
    obtain rfl : v = [] := List.eq_nil_of_length_eq_zero (by omega)
    rw [hnil]
    exact .inr ⟨List.not_mem_nil, rfl, rfl⟩
  · rw [if_neg hnil] at h
    exact .inl ⟨h, hv⟩

theorem exists_last {c : UInt8} (h : c ∈ path) : ∃ u v, path = u ++ c :: v ∧ c ∉ v := by
  obtain ⟨v, u, hr, hv⟩ := List.eq_append_cons_of_mem (List.mem_reverse.mpr h)
  refine ⟨u.reverse, v.reverse, ?_, fun hm => hv (List.mem_reverse.mp hm)⟩
  rw [← List.reverse_reverse path, hr, List.reverse_append, List.reverse_cons, List.append_assoc]
  rfl

/-! ## The two loops -/

section Memory
variable {mem : Nat → UInt8} {p : Nat}

theorem isoMemory_before {i : Nat} (hi : i < path.length) : isoMemory path around i = path.getD i 0 := if_pos hi

theorem isoMemory_separator : isoMemory (u ++ DIR_SEPARATOR :: v) around u.length = DIR_SEPARATOR := by
  rw [isoMemory_before (by simp), List.getD_eq_getElem?_getD, List.getElem?_append_right (Nat.le_refl _), Nat.sub_self]
  rfl

theorem isoMemory_after (hv : DIR_SEPARATOR ∉ v) {d : Nat} (hd : d < v.length) :
    isoMemory (u ++ DIR_SEPARATOR :: v) around (u.length + (d + 1)) ≠ DIR_SEPARATOR := by
  rw [isoMemory_before (by simp; omega), List.getD_eq_getElem?_getD, List.getElem?_append_right (by omega),
    Nat.add_sub_cancel_left, List.getElem?_cons_succ, List.getElem?_eq_getElem hd]
  exact fun he => hv (he ▸ List.getElem_mem hd)

theorem isoMemory_none (h : DIR_SEPARATOR ∉ path) {i : Nat} (hi : i < path.length) : isoMemory path around i ≠ DIR_SEPARATOR := by
  rw [isoMemory_before hi, List.getD_eq_getElem?_getD, List.getElem?_eq_getElem hi]
  exact fun he => h (he ▸ List.getElem_mem hi)

theorem isoDirnameScan_found (hp : mem p = DIR_SEPARATOR) (n : Nat) :
    ∀ {d : Nat}, (∀ e < d, mem (p + (e + 1)) ≠ DIR_SEPARATOR) →
      (∀ i ∈ (isoDirnameScan mem n (p + d)).1, i ≤ p + d) ∧
        (isoDirnameScan mem n (p + d)).2 = if d < n then some p else none := by
  induction n with
  | zero => exact fun _ => ⟨fun i hi => absurd hi List.not_mem_nil, rfl⟩
  | succ n ih =>
    intro d hd
    rw [isoDirnameScan]
    cases d with
    | zero =>
      rw [Nat.add_zero, if_pos hp]
      exact ⟨fun i hi => Nat.le_of_eq (List.mem_singleton.mp hi), rfl⟩
    | succ d =>
      obtain ⟨hle, hres⟩ := ih (d := d) fun e he => hd e (by omega)
      rw [if_neg (hd d (by omega)), show u32Pred (p + (d + 1)) = p + d from if_neg (by omega)]
      refine ⟨fun i hi => ?_, hres.trans (if_congr Nat.succ_lt_succ_iff.symm rfl rfl)⟩
      rcases List.mem_cons.mp hi with rfl | hi
      · exact Nat.le_refl _
      · exact (hle i hi).trans (by omega)

theorem isoDirnameScan_first (mem : Nat → UInt8) (n i : Nat) : i ∈ (isoDirnameScan mem (n + 1) i).1 := by
  rw [isoDirnameScan]
  split <;> exact List.mem_cons_self

theorem isoDirnameScan_around (k : Nat) (h : ∀ i ≤ k, mem i ≠ DIR_SEPARATOR) : 2 ^ 32 - 1 ∈ (isoDirnameScan mem (k + 2) k).1 := by
  induction k with
  | zero =>
    rw [isoDirnameScan, if_neg (h 0 (Nat.le_refl 0))]
    exact List.mem_cons_of_mem _ (isoDirnameScan_first mem 0 _)
  | succ k ih =>
    rw [isoDirnameScan, if_neg (h (k + 1) (Nat.le_refl _))]
    exact List.mem_cons_of_mem _ (ih fun i hi => h i (by omega))

theorem isoBasenameScan_lt (mem : Nat → UInt8) (k : Nat) : ∀ i ∈ (isoBasenameScan mem k).1, i < k := by
  induction k with
  | zero => exact fun i hi => by cases hi
  | succ k ih =>
    intro i hi
    rw [isoBasenameScan] at hi
    split at hi
    · rw [List.mem_singleton.mp hi]
      exact Nat.lt_succ_self k
    · rcases List.mem_cons.mp hi with rfl | hi
      · exact Nat.lt_succ_self _
      · exact (ih i hi).trans (Nat.lt_succ_self k)

theorem isoBasenameScan_found (hp : mem p = DIR_SEPARATOR) (d : Nat) (hd : ∀ e < d, mem (p + (e + 1)) ≠ DIR_SEPARATOR) :
    (isoBasenameScan mem (p + d + 1)).2 = some p := by
  induction d with
  | zero =>
    rw [isoBasenameScan]
    exact congrArg Prod.snd (if_pos hp)
  | succ d ih =>
    rw [isoBasenameScan, if_neg (hd d (Nat.lt_succ_self d))]
    exact ih fun e he => hd e (by omega)

end Memory

/-! ## The split -/

/-- The index of `basename` starts at the end when the length is a signed number. -/
theorem isoBasename_rounds {len : Nat} (h : len < 2 ^ 32) : (s32 (len - 1) + 1).toNat = if len ≤ 2 ^ 31 then len else 0 := by
  split
  · rw [s32_of_range (by omega) (by omega)]
    omega
  · unfold s32
    rw [Int.bmod_def]
    split <;> omega

theorem isoDirname_found (hv : DIR_SEPARATOR ∉ v) (h0 : 0 ∉ u) (n : Nat) :
    (∀ i ∈ (isoDirname n (u ++ DIR_SEPARATOR :: v) around).1, i ≤ (u ++ DIR_SEPARATOR :: v).length) ∧
      (isoDirname n (u ++ DIR_SEPARATOR :: v) around).2 = if v.length < n then some u else none := by
  have hlen : (u ++ DIR_SEPARATOR :: v).length = u.length + v.length + 1 := by
    rw [List.length_append, List.length_cons, Nat.add_assoc]
  have hsep : isoMemory (u ++ DIR_SEPARATOR :: v) around u.length = DIR_SEPARATOR := isoMemory_separator
  obtain ⟨hle, hres⟩ := isoDirnameScan_found hsep n (d := v.length) fun e he => isoMemory_after hv he
  unfold isoDirname
  dsimp only
  rw [hlen, show u32Pred (u.length + v.length + 1) = u.length + v.length from if_neg (by omega)]
  refine ⟨fun i hi => ?_, ?_⟩
  · rcases List.mem_append.mp hi with hi | hi
    · exact Nat.le_of_lt_succ (List.mem_range.mp hi)
    · exact (hle i hi).trans (Nat.le_succ _)
  · rw [hres]
    split
    · rw [Option.map_some, takeWhile_set_zero _ _ (by omega), List.take_left]
      refine congrArg some (List.takeWhile_eq_self_iff.mpr fun x hx => ?_)
      have hne : x ≠ 0 := fun he => h0 (he ▸ hx)
      simpa using hne
    · rfl

theorem isoDirname_around (around : Nat → UInt8) (h : DIR_SEPARATOR ∉ path) : ∃ n, 2 ^ 32 - 1 ∈ (isoDirname n path around).1 := by
  unfold isoDirname
  cases hlen : path.length with
  | zero => exact ⟨1, List.mem_append_right _ (isoDirnameScan_first _ 0 _)⟩
  | succ k => exact ⟨k + 2, List.mem_append_right _ (isoDirnameScan_around k fun i hi => isoMemory_none h (by omega))⟩

theorem isoBasename_found (around : Nat → UInt8) (hv : DIR_SEPARATOR ∉ v) (hlen : (u ++ DIR_SEPARATOR :: v).length ≤ 2 ^ 31) :
    (∀ i ∈ (isoBasename (u ++ DIR_SEPARATOR :: v) around).1, i ≤ (u ++ DIR_SEPARATOR :: v).length) ∧
      (isoBasename (u ++ DIR_SEPARATOR :: v) around).2 = v := by
  have hadd : (u ++ DIR_SEPARATOR :: v).length = u.length + v.length + 1 := by
    rw [List.length_append, List.length_cons, Nat.add_assoc]
  have hrounds := isoBasename_rounds (show (u ++ DIR_SEPARATOR :: v).length < 2 ^ 32 by omega)
  have hsep : isoMemory (u ++ DIR_SEPARATOR :: v) around u.length = DIR_SEPARATOR := isoMemory_separator
  have hres := isoBasenameScan_found hsep v.length
    fun e he => isoMemory_after hv he
  rw [← hadd] at hres
  unfold isoBasename
  dsimp only
  rw [hrounds, if_pos hlen, hres]
  refine ⟨fun i hi => ?_, ?_⟩
  · rcases List.mem_append.mp hi with hi | hi
    · exact Nat.le_of_lt_succ (List.mem_range.mp hi)
    · exact (isoBasenameScan_lt _ _ i hi).le
  · show (u ++ DIR_SEPARATOR :: v).drop (u.length + 1) = v
    rw [← List.drop_drop, List.drop_left]
    rfl

theorem isoBasename_long (hlen : path.length < 2 ^ 32) (h : ¬ path.length ≤ 2 ^ 31) : (isoBasename path around).2 = path := by
  have hrounds := isoBasename_rounds hlen
  unfold isoBasename
  rw [hrounds, if_neg h]
  rfl

/-- **A path is split exactly when it has a separator in it**, after those at its end are gone, and its length is a signed number. -/
theorem iso_path_splits (constPath : List UInt8) (h0 : 0 ∉ constPath) (hlen : constPath.length + 1 < 2 ^ 32)
    (around : Nat → UInt8) :
    IsoSplits constPath around ↔
      DIR_SEPARATOR ∈ isoSplitPath constPath ∧ (isoSplitPath constPath).length ≤ 2 ^ 31 := by
  have hsub := isoSplitPath_sublist constPath
  have hle := hsub.length_le
  constructor
  · rintro ⟨⟨n, hends⟩, hinside, hsplit⟩
    obtain ⟨dir, hdir⟩ := Option.isSome_iff_exists.mp hends
    have hbase : DIR_SEPARATOR ∉ (isoBasename (isoSplitPath constPath) around).2 := (hsplit n dir hdir).base
    have hsep : DIR_SEPARATOR ∈ isoSplitPath constPath := by
      by_contra hnone
      obtain ⟨k, hk⟩ := isoDirname_around around hnone
      have hin := hinside k _ (List.mem_append_left _ hk)
      omega
    refine ⟨hsep, ?_⟩
    by_contra hlong
    rw [isoBasename_long (by omega) hlong] at hbase
    exact hbase hsep
  · rintro ⟨hsep, hshort⟩
    obtain ⟨u, v, huv, hv⟩ := exists_last hsep
    have hu : 0 ∉ u := fun hm => h0 (hsub.subset (by rw [huv]; exact List.mem_append_left _ hm))
    have hat := IsoSplitAt.of_trim (isoAfterDevice constPath) huv hv
    rw [huv] at hshort
    obtain ⟨hbin, hbase⟩ := isoBasename_found around hv hshort
    refine ⟨⟨v.length + 1, ?_⟩, fun n i hi => ?_, fun n dir hdir => ?_⟩
    · rw [huv, (isoDirname_found hv hu _).2, if_pos (Nat.lt_succ_self _)]
      rfl
    · rw [huv] at hi ⊢
      rcases List.mem_append.mp hi with hi | hi
      · exact (isoDirname_found hv hu n).1 i hi
      · exact hbin i hi
    · rw [huv, (isoDirname_found hv hu n).2] at hdir
      split at hdir
      · obtain rfl := Option.some.inj hdir
        rw [huv, hbase]
        exact hat
      · cases hdir

/-- "d:/a/b/" -/
theorem iso_path_splits_two : IsoSplits [100, 58, 47, 97, 47, 98, 47] (fun _ => 0) ↔
    DIR_SEPARATOR ∈ isoSplitPath [100, 58, 47, 97, 47, 98, 47] ∧ (isoSplitPath [100, 58, 47, 97, 47, 98, 47]).length ≤ 2 ^ 31 :=
  iso_path_splits [100, 58, 47, 97, 47, 98, 47] (by decide) (by decide) fun _ => 0

/-- "abc": `dirname` reads `result[SIZE_MAX]`. -/
theorem iso_path_without_separator : ¬ IsoSplits [97, 98, 99] fun _ => 0 := fun h =>
  absurd (h.inside 4 (2 ^ 32 - 1) (by decide)) (by decide)

end Libogc
