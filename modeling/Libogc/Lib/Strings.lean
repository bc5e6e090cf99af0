import Mathlib.Data.List.TakeWhile
import Mathlib.Tactic.Common
/-!
# Strings — the strings of C

A string is the bytes that stand before the first zero.  A pointer into one is what is left of it from there on.
-/
namespace Libogc

/-- What C takes for the string in an array. -/
def cstr (name : List UInt8) : List UInt8 := name.takeWhile (· ≠ 0)

/-- What `strchr` points to. -/
def strchr (s : List UInt8) (c : UInt8) : Option (List UInt8) :=
  match s.dropWhile (· ≠ c) with
  | [] => none
  | t => some t

theorem cstr_take (name : List UInt8) : name.take (cstr name).length = cstr name :=
  (List.prefix_iff_eq_take.mp (List.takeWhile_prefix _)).symm

theorem cstr_append {s : List UInt8} (h : 0 ∉ s) (rest : List UInt8) : cstr (s ++ rest) = s ++ cstr rest :=
  List.takeWhile_append_of_pos fun x hx => by
    have hne : x ≠ 0 := fun he => h (he ▸ hx)
    simpa using hne

theorem strchr_none {s : List UInt8} {c : UInt8} (h : c ∉ s) : strchr s c = none := by
  have hnil : s.dropWhile (· ≠ c) = [] := List.dropWhile_eq_nil_iff.mpr fun x hx => by
    have hne : x ≠ c := fun he => h (he ▸ hx)
    simpa using hne
  unfold strchr
  rw [hnil]

theorem strchr_some {u v : List UInt8} {c : UInt8} (h : c ∉ u) : strchr (u ++ c :: v) c = some (c :: v) := by
  have hdrop : (u ++ c :: v).dropWhile (· ≠ c) = c :: v := by
    rw [List.dropWhile_append_of_pos fun x hx => by
      have hne : x ≠ c := fun he => h (he ▸ hx)
      simpa using hne]
    exact List.dropWhile_cons_of_neg (by simp)
  unfold strchr
  rw [hdrop]

theorem strchr_once {s : List UInt8} {c : UInt8} (h : s.count c ≤ 1) :
    (c ∉ s ∧ strchr s c = none) ∨ ∃ t, strchr s c = some (c :: t) ∧ c ∉ t := by
  by_cases hm : c ∈ s
  · obtain ⟨u, v, rfl, hu⟩ := List.eq_append_cons_of_mem hm
    rw [List.count_append, List.count_cons_self] at h
    refine .inr ⟨v, strchr_some hu, fun hv => ?_⟩
    have := List.count_pos_iff.2 hv
    omega
  · exact .inl ⟨hm, strchr_none hm⟩

theorem strchr_suffix {s t : List UInt8} {c : UInt8} (h : strchr s c = some t) : t <:+ s := by
  unfold strchr at h
  split at h
  · cases h
  · rw [← Option.some.inj h]
    exact List.dropWhile_suffix _

end Libogc
