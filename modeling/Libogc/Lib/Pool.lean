import Mathlib.Logic.Function.Basic
import Mathlib.Data.List.Nodup
import Mathlib.Tactic.Common
/-!
# Pool — items that are free or held

A pool gives out the items of a free list to holders and takes them back.  It is accounted for while each item is on the list once or
with one holder.
-/
namespace Pools

variable {I H : Type}

structure Accounted (free : List I) (held : H → Option I) : Prop where
  nodup : free.Nodup
  apart : ∀ {h i}, held h = some i → i ∉ free
  one : ∀ {h h' i}, held h = some i → held h' = some i → h = h'
  all : ∀ i, i ∈ free ∨ ∃ h, held h = some i

/-- An item that nobody has. -/
structure Lost (i : I) (free : List I) (held : H → Option I) : Prop where
  gone : i ∉ free
  unheld : ∀ h, held h ≠ some i

variable {i : I} {free : List I} {held : H → Option I} {h : H}

theorem Lost.not_accounted (hl : Lost i free held) : ¬ Accounted free held := fun ha =>
  (ha.all i).elim hl.gone fun ⟨h, hh⟩ => hl.unheld h hh

theorem Accounted.all_free (hd : free.Nodup) (hall : ∀ i, i ∈ free) : Accounted free (fun _ : H => none) :=
  ⟨hd, fun hh => (by cases hh), fun hh => (by cases hh), fun i => .inl (hall i)⟩

theorem Accounted.overwrite (ha : Accounted free held) (hh : held h = some i) {held' : H → Option I} {free' : List I}
    (hfree : ∀ j ∈ free', j ∈ free) (hheld : ∀ h', held' h' = held h' ∨ h' = h) (hnew : held' h ≠ some i) : Lost i free' held' := by
  refine ⟨fun hm => ha.apart hh (hfree i hm), fun h' he => ?_⟩
  by_cases hne : h' = h
  · exact hnew (hne ▸ he)
  · exact hne (ha.one ((hheld h').resolve_right hne ▸ he) hh)

/-- What is lost stays lost while the holders get no items but those of the list. -/
theorem Lost.mono (hl : Lost i free held) {held' : H → Option I} {free' : List I} (hfree : ∀ j ∈ free', j ∈ free)
    (hheld : ∀ h j, held' h = some j → held h = some j ∨ j ∈ free) : Lost i free' held' :=
  ⟨fun hm => hl.gone (hfree i hm), fun h he => (hheld h i he).elim (hl.unheld h) hl.gone⟩

variable [DecidableEq H]

theorem Accounted.take (ha : Accounted (i :: free) held) (hh : held h = none) : Accounted free (Function.update held h (some i)) := by
  obtain ⟨hi, hd⟩ := List.nodup_cons.mp ha.nodup
  have hcases : ∀ {h' i'}, Function.update held h (some i) h' = some i' → (h' = h ∧ i' = i) ∨ (h' ≠ h ∧ held h' = some i') := by
    intro h' i' he
    by_cases heq : h' = h
    · subst heq
      rw [Function.update_self] at he
      exact .inl ⟨rfl, (Option.some.inj he).symm⟩
    · rw [Function.update_of_ne heq] at he
      exact .inr ⟨heq, he⟩
  refine ⟨hd, fun he => ?_, fun he he' => ?_, fun i' => ?_⟩
  · rcases hcases he with ⟨-, rfl⟩ | ⟨-, he⟩
    · exact hi
    · exact fun hm => ha.apart he (List.mem_cons_of_mem _ hm)
  · rcases hcases he with ⟨hh1, hi1⟩ | ⟨-, hk1⟩
    · rcases hcases he' with ⟨hh2, -⟩ | ⟨-, hk2⟩
      · exact hh1.trans hh2.symm
      · exact absurd List.mem_cons_self (hi1 ▸ ha.apart hk2)
    · rcases hcases he' with ⟨-, hi2⟩ | ⟨-, hk2⟩
      · exact absurd List.mem_cons_self (hi2 ▸ ha.apart hk1)
      · exact ha.one hk1 hk2
  · rcases ha.all i' with hm | ⟨h', hh'⟩
    · rcases List.mem_cons.mp hm with rfl | hm
      · exact .inr ⟨h, Function.update_self ..⟩
      · exact .inl hm
    · have hne : h' ≠ h := by
        rintro rfl
        rw [hh] at hh'
        cases hh'
      exact .inr ⟨h', (Function.update_of_ne hne _ _).trans hh'⟩

theorem Accounted.put (ha : Accounted free held) (hh : held h = some i) : Accounted (free ++ [i]) (Function.update held h none) := by
  have hkeep : ∀ {h' i'}, Function.update held h none h' = some i' → h' ≠ h ∧ held h' = some i' := by
    intro h' i' he
    have hne : h' ≠ h := by
      rintro rfl
      rw [Function.update_self] at he
      cases he
    exact ⟨hne, (Function.update_of_ne hne _ _).symm.trans he⟩
  refine ⟨?_, fun he hm => ?_, fun he he' => ha.one (hkeep he).2 (hkeep he').2, fun i' => ?_⟩
  · exact ha.nodup.append (List.nodup_singleton i) fun i' hm hi' => ha.apart hh (List.mem_singleton.mp hi' ▸ hm)
  · rcases List.mem_append.mp hm with hm | hm
    · exact ha.apart (hkeep he).2 hm
    · rw [List.mem_singleton.mp hm] at he
      exact (hkeep he).1 (ha.one (hkeep he).2 hh)
  · rcases ha.all i' with hm | ⟨h', hh'⟩
    · exact .inl (List.mem_append_left _ hm)
    · by_cases hne : h' = h
      · subst hne
        rw [hh] at hh'
        exact .inl (List.mem_append_right _ (List.mem_singleton.mpr (Option.some.inj hh').symm))
      · exact .inr ⟨h', (Function.update_of_ne hne _ _).trans hh'⟩

theorem Accounted.unheld (ha : Accounted free held) (hh : held h = none) : Accounted free (Function.update held h none) := by
  rw [← hh, Function.update_eq_self]
  exact ha

end Pools
