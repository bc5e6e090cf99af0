import Libogc.Sys.Conf
import Libogc.Lib.Strings
/-!
# ConfText — lookups in the settings

`__CONF_GetTxt` of `conf.c`.  The settings are text, a line for each: its key, `=` and its value.  What the scanner looks for it looks
for from the start of the line on, and not in the line alone.
-/
namespace Libogc

/-- The bytes of the settings; the buffer has one more, which is zero. -/
def sizeofConfTxt : Nat := 0x100

/-- '=', and the end of a line -/
def confDelim : UInt8 := 61
def confCr : UInt8 := 13
def confLf : UInt8 := 10

/-- The loop that skips to the end of a line. -/
def confSkipLine : List UInt8 → List UInt8
  | [] => []
  | c :: cs => if c ≠ confLf then confSkipLine cs else cs

/-- What a line gives, if the search ends there: the value returned, and what is written to `buf`. -/
def confTxtLine (name : List UInt8) (length : Int) (line : List UInt8) : Option (Int × Option (List UInt8)) :=
  let s := cstr line
  match strchr s confDelim with
  | none => none
  | some delim =>
    if s.length - delim.length = name.length ∧ s.take name.length = name then
      let delim := delim.tail
      match (strchr s confCr).or (strchr s confLf) with
      | none => none
      | some stop =>
        let slen := (delim.length : Int) - stop.length
        if slen < length then some (slen, some (delim.take slen.toNat ++ [0])) else some (CONF_ETOOBIG, none)
    else none

/-- The loop of `__CONF_GetTxt`, with `line` what is left of the buffer; `n` bounds its rounds. -/
def confTxtLoop (name : List UInt8) (length : Int) : Nat → List UInt8 → Int × Option (List UInt8)
  | 0, _ => (CONF_ENOENT, none)
  | n + 1, line =>
    if line = [] then (CONF_ENOENT, none)
    else
      match confTxtLine name length line with
      | some result => result
      | none => confTxtLoop name length n (confSkipLine line)

/-- `__CONF_GetTxt` in the buffer `txt`. -/
def confGetTxt (inited : Bool) (txt name : List UInt8) (length : Int) : Int × Option (List UInt8) :=
  if !inited then (CONF_ENOTINIT, none) else confTxtLoop name length sizeofConfTxt (txt.take sizeofConfTxt)

/-- A setting. -/
structure ConfSetting where
  key : List UInt8
  value : List UInt8
  key_ne : key ≠ []
  key_text : ∀ c ∈ key, c ≠ 0 ∧ c ≠ confDelim ∧ c ≠ confCr ∧ c ≠ confLf
  value_text : ∀ c ∈ value, c ≠ 0 ∧ c ≠ confCr ∧ c ≠ confLf

def ConfSetting.line (i : ConfSetting) : List UInt8 := i.key ++ confDelim :: (i.value ++ [confCr, confLf])

/-- The lines, and zeros up to the end of the buffer. -/
def confTxtOf (settings : List ConfSetting) : List UInt8 :=
  settings.flatMap ConfSetting.line ++ List.replicate (sizeofConfTxt + 1 - (settings.flatMap ConfSetting.line).length) 0

/-- **What a lookup is to return** for the setting that has the key, if one has. -/
def confTxtResult (length : Int) : Option ConfSetting → Int × Option (List UInt8)
  | none => (CONF_ENOENT, none)
  | some i => if (i.value.length : Int) < length then (i.value.length, some (i.value ++ [0])) else (CONF_ETOOBIG, none)

/-! ## A line -/

section Line
variable (i : ConfSetting) (rest : List UInt8)

theorem ConfSetting.zero_not_mem : 0 ∉ i.line := by
  unfold ConfSetting.line
  intro h
  rcases List.mem_append.mp h with h | h
  · exact (i.key_text 0 h).1 rfl
  · rcases List.mem_cons.mp h with h | h
    · exact absurd h (by decide)
    · rcases List.mem_append.mp h with h | h
      · exact (i.value_text 0 h).1 rfl
      · exact absurd h (by decide)

theorem ConfSetting.delim : strchr (cstr (i.line ++ rest)) confDelim = some (confDelim :: (i.value ++ confCr :: confLf :: cstr rest)) := by
  rw [cstr_append i.zero_not_mem, ConfSetting.line, List.append_assoc]
  rw [show confDelim :: (i.value ++ [confCr, confLf]) ++ cstr rest = confDelim :: (i.value ++ confCr :: confLf :: cstr rest) by simp]
  exact strchr_some fun h => (i.key_text _ h).2.1 rfl

theorem ConfSetting.stop : strchr (cstr (i.line ++ rest)) confCr = some (confCr :: confLf :: cstr rest) := by
  rw [cstr_append i.zero_not_mem, ConfSetting.line, List.append_assoc]
  rw [show i.key ++ (confDelim :: (i.value ++ [confCr, confLf]) ++ cstr rest) =
    (i.key ++ confDelim :: i.value) ++ confCr :: confLf :: cstr rest by simp]
  refine strchr_some fun h => ?_
  rcases List.mem_append.mp h with h | h
  · exact (i.key_text _ h).2.2.1 rfl
  · rcases List.mem_cons.mp h with h | h
    · exact absurd h (by decide)
    · exact (i.value_text _ h).2.1 rfl

theorem confTxtLine_setting (name : List UInt8) (length : Int) : confTxtLine name length (i.line ++ rest) =
    if i.key = name then some (confTxtResult length (some i)) else none := by
  have hs : cstr (i.line ++ rest) = i.key ++ confDelim :: (i.value ++ confCr :: confLf :: cstr rest) := by
    rw [cstr_append i.zero_not_mem, ConfSetting.line]
    simp
  have hkey : (cstr (i.line ++ rest)).length - (confDelim :: (i.value ++ confCr :: confLf :: cstr rest)).length = i.key.length := by
    rw [hs, List.length_append]
    omega
  have htest : i.key.length = name.length ∧ (cstr (i.line ++ rest)).take name.length = name ↔ i.key = name := by
    constructor
    · rintro ⟨hl, ht⟩
      rw [hs, ← hl, List.take_left] at ht
      exact ht
    · rintro rfl
      rw [hs, List.take_left]
      exact ⟨rfl, rfl⟩
  have hlen : ((i.value ++ confCr :: confLf :: cstr rest).length : Int) - (confCr :: confLf :: cstr rest).length = i.value.length := by
    rw [List.length_append]
    omega
  unfold confTxtLine
  dsimp only
  rw [i.delim, i.stop]
  dsimp only
  rw [hkey, List.tail_cons, Option.some_or]
  dsimp only
  rw [hlen, Int.toNat_natCast, List.take_left]
  by_cases hk : i.key = name
  · rw [if_pos (htest.mpr hk), if_pos hk]
    exact (apply_ite some _ _ _).symm
  · rw [if_neg fun h => hk (htest.mp h), if_neg hk]

theorem confSkipLine_none {s : List UInt8} (h : confLf ∉ s) : confSkipLine (s ++ rest) = confSkipLine rest := by
  induction s with
  | nil => rfl
  | cons c s ih =>
    rw [List.mem_cons, not_or] at h
    rw [List.cons_append, confSkipLine, if_pos (Ne.symm h.1)]
    exact ih h.2

theorem confSkipLine_setting : confSkipLine (i.line ++ rest) = rest := by
  rw [show i.line ++ rest = (i.key ++ confDelim :: i.value ++ [confCr]) ++ confLf :: rest by simp [ConfSetting.line], confSkipLine_none]
  · exact if_neg (not_not_intro rfl)
  · intro h
    rcases List.mem_append.mp h with h | h
    · rcases List.mem_append.mp h with h | h
      · exact (i.key_text _ h).2.2.2 rfl
      · rcases List.mem_cons.mp h with h | h
        · exact absurd h (by decide)
        · exact (i.value_text _ h).2.2 rfl
    · exact absurd h (by decide)

end Line

/-! ## The text -/

variable {name : List UInt8} {length : Int}

theorem confTxtLoop_zeros (n k : Nat) : confTxtLoop name length n (List.replicate k 0) = (CONF_ENOENT, none) := by
  have hskip : confSkipLine (List.replicate k 0) = [] := by
    have h := confSkipLine_none (s := List.replicate k 0) [] fun h => absurd (List.eq_of_mem_replicate h) (by decide)
    rwa [List.append_nil] at h
  cases n with
  | zero => rfl
  | succ n =>
    rw [confTxtLoop]
    split
    · rfl
    · rename_i hne
      obtain ⟨k, rfl⟩ : ∃ m, k = m + 1 := ⟨k - 1, by
        have hk : k ≠ 0 := fun h => hne (by rw [h]; rfl)
        omega⟩
      have hnone : confTxtLine name length (List.replicate (k + 1) 0) = none := by
        unfold confTxtLine
        rw [List.replicate_succ]
        rfl
      rw [hnone, hskip]
      dsimp only
      cases n <;> rfl

/-- The loop over the lines.  The induction is on the settings; every line takes a round, and has more bytes than that. -/
theorem confTxtLoop_spec (settings : List ConfSetting) : ∀ {n k : Nat},
    (settings.flatMap ConfSetting.line ++ List.replicate k 0).length ≤ n →
      confTxtLoop name length n (settings.flatMap ConfSetting.line ++ List.replicate k 0) =
        confTxtResult length (settings.find? fun i => i.key = name) := by
  induction settings with
  | nil => exact fun {n k} _ => confTxtLoop_zeros n k
  | cons i settings ih =>
    intro n k hn
    rw [List.flatMap_cons, List.append_assoc] at hn ⊢
    have hline : i.line ≠ [] := by simp [ConfSetting.line]
    have hpos := List.length_pos_of_ne_nil hline
    rw [List.length_append] at hn
    obtain ⟨n, rfl⟩ : ∃ m, n = m + 1 := ⟨n - 1, by omega⟩
    rw [confTxtLoop, if_neg fun h => hline (List.append_eq_nil_iff.mp h).1, confTxtLine_setting]
    by_cases hk : i.key = name
    · rw [if_pos hk, List.find?_cons_of_pos (by simpa using hk)]
    · rw [if_neg hk, List.find?_cons_of_neg (by simpa using hk), confSkipLine_setting]
      exact ih (by omega)

/-- **A lookup in the settings** finds the first line with the key. -/
theorem conf_txt_lookup (settings : List ConfSetting) (hfit : (settings.flatMap ConfSetting.line).length ≤ sizeofConfTxt)
    (name : List UInt8) (length : Int) :
    confGetTxt true (confTxtOf settings) name length = confTxtResult length (settings.find? fun i => i.key = name) := by
  have htake : (confTxtOf settings).take sizeofConfTxt =
      settings.flatMap ConfSetting.line ++ List.replicate (sizeofConfTxt - (settings.flatMap ConfSetting.line).length) 0 := by
    unfold confTxtOf
    rw [List.take_append, List.take_of_length_le hfit, List.take_replicate]
    congr 2
    omega
  unfold confGetTxt
  rw [htake]
  refine confTxtLoop_spec settings ?_
  rw [List.length_append, List.length_replicate]
  omega

/-- A key twice, and one with an empty value. -/
def confTxtSample : List ConfSetting :=
  [⟨[65], [61, 66], by decide, List.forall_mem_singleton.2 (by decide),
      List.forall_mem_cons.2 ⟨by decide, List.forall_mem_singleton.2 (by decide)⟩⟩,
    ⟨[67], [], by decide, List.forall_mem_singleton.2 (by decide), List.forall_mem_nil _⟩,
    ⟨[65], [68], by decide, List.forall_mem_singleton.2 (by decide), List.forall_mem_singleton.2 (by decide)⟩]

theorem conf_txt_lookup_twice :
    confGetTxt true (confTxtOf confTxtSample) [65] 3 = confTxtResult 3 (confTxtSample.find? fun i => i.key = [65]) :=
  conf_txt_lookup confTxtSample (by decide) [65] 3

end Libogc
