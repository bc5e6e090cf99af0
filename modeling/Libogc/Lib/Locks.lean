import Mathlib.Logic.Function.Basic
import Mathlib.Tactic.Common
/-!
# Locks — the users of one lock

A thread is outside of what the lock guards, waits for it, or is inside.  A lock that is released passes to one of the threads that wait;
one that is destroyed lets everybody in.  `Kept` is what users keep who release the lock whenever they leave.
-/
namespace Locks

inductive Phase where
  | out
  | waiting
  | inside
  deriving DecidableEq, Repr

/-- A lock with its users. -/
structure Lock (T : Type) where
  holder : Option T
  gone : Bool
  phase : T → Phase

section Discipline
variable {T : Type} {l : Lock T} {t : T}

/-- Nobody waits. -/
def Lock.Quiet (l : Lock T) : Prop := ∀ t, l.phase t ≠ .waiting

/-- **The discipline**: the holder is inside, and whoever is inside holds the lock, as long as there is one. -/
structure Kept (l : Lock T) : Prop where
  held : ∀ t, l.holder = some t → l.phase t = .inside
  owned : ∀ t, l.phase t = .inside → l.holder = some t ∨ l.gone = true
  waits : ∀ t, l.phase t = .waiting → l.holder ≠ none
  gone : l.gone = true → l.holder = none

theorem Kept.unique (h : Kept l) (hg : l.gone = false) {u : T} (ht : l.phase t = .inside) (hu : l.phase u = .inside) : t = u := by
  have hown : ∀ v, l.phase v = .inside → l.holder = some v := fun v hv =>
    (h.owned v hv).resolve_right fun hgone => absurd (hgone.symm.trans hg) (by decide)
  exact Option.some.inj ((hown t ht).symm.trans (hown u hu))

theorem Kept.free (h : Kept l) (hout : ∀ t, l.phase t = .out) : l.holder = none := by
  cases hh : l.holder with
  | none => rfl
  | some t => exact absurd ((hout t).symm.trans (h.held t hh)) (by decide)

theorem Kept.waits_for (h : Kept l) (hw : l.phase t = .waiting) : ∃ u, l.holder = some u ∧ l.phase u = .inside := by
  obtain ⟨u, hu⟩ := Option.ne_none_iff_exists'.1 (h.waits t hw)
  exact ⟨u, hu, h.held u hu⟩

theorem Kept.destroy (h : Kept l) (hfree : l.holder = none) : Kept { l with gone := true } where
  held := h.held
  owned _ _ := .inr rfl
  waits := h.waits
  gone _ := hfree

end Discipline

section Steps
variable {T : Type} [DecidableEq T] {l : Lock T} {t : T}

def Lock.set (l : Lock T) (t : T) (p : Phase) : Lock T := { l with phase := Function.update l.phase t p }

/-- A free lock is taken. -/
def Lock.take (l : Lock T) (t : T) : Lock T := { l.set t .inside with holder := some t }

/-- The lock passes on, or is free. -/
def Lock.pass (l : Lock T) (t : T) : Option T → Lock T
  | none => { l.set t .out with holder := none }
  | some u => { (l.set t .out).set u .inside with holder := some u }

theorem Lock.set_phase (l : Lock T) (t : T) (p : Phase) : (l.set t p).phase t = p := Function.update_self ..

theorem Lock.set_phase_ne (l : Lock T) {t u : T} (p : Phase) (hne : u ≠ t) : (l.set t p).phase u = l.phase u :=
  Function.update_of_ne hne ..

theorem Lock.phase_of_set {p q : Phase} {u : T} (h : (l.set t p).phase u = q) (hpq : p ≠ q) : u ≠ t ∧ l.phase u = q := by
  have hne : u ≠ t := by
    rintro rfl
    exact hpq ((l.set_phase u p).symm.trans h)
  exact ⟨hne, (l.set_phase_ne p hne).symm.trans h⟩

theorem Lock.set_self (l : Lock T) (t : T) : l.set t (l.phase t) = l := by
  unfold Lock.set
  rw [Function.update_eq_self]

theorem Kept.stays (h : Kept l) {p : Phase} (hp : l.phase t = p) : Kept (l.set t p) := by
  rw [← hp, l.set_self]
  exact h

theorem Kept.take (h : Kept l) (hfree : l.holder = none) (hg : l.gone = false) : Kept (l.take t) where
  held u hu := by
    obtain rfl := Option.some.inj hu
    exact l.set_phase t .inside
  owned u hu := by
    by_cases hut : u = t
    · exact .inl (congrArg some hut.symm)
    · rcases h.owned u ((l.set_phase_ne .inside hut).symm.trans hu) with hh | hgone
      · exact absurd (hfree.symm.trans hh) (Option.some_ne_none u).symm
      · exact absurd (hgone.symm.trans hg) (by decide)
  waits _ _ := Option.some_ne_none t
  gone hgone := absurd (hgone.symm.trans hg) (by decide)

theorem Kept.wait (h : Kept l) {u : T} (hh : l.holder = some u) (hne : u ≠ t) : Kept (l.set t .waiting) where
  held v hv := by
    obtain rfl := Option.some.inj (hh.symm.trans hv)
    exact (l.set_phase_ne .waiting hne).trans (h.held u hh)
  owned v hv := h.owned v (Lock.phase_of_set hv (by decide)).2
  waits _ _ hn := absurd (hh.symm.trans hn) (Option.some_ne_none u)
  gone := h.gone

theorem Kept.enter (h : Kept l) (hg : l.gone = true) : Kept (l.set t .inside) where
  held u hu := absurd ((h.gone hg).symm.trans hu) (Option.some_ne_none u).symm
  owned _ _ := .inr hg
  waits u hu := h.waits u (Lock.phase_of_set hu (by decide)).2
  gone := h.gone

theorem Kept.leave (h : Kept l) (hh : l.holder ≠ some t) : Kept (l.set t .out) where
  held u hu := by
    have hut : u ≠ t := by
      rintro rfl
      exact hh hu
    exact (l.set_phase_ne .out hut).trans (h.held u hu)
  owned u hu := h.owned u (Lock.phase_of_set hu (by decide)).2
  waits u hu := h.waits u (Lock.phase_of_set hu (by decide)).2
  gone := h.gone

theorem Kept.pass (h : Kept l) (hh : l.holder = some t) {next : Option T} (hnone : next = none → l.Quiet) : Kept (l.pass t next) := by
  have hg : l.gone = false := by
    cases hg : l.gone with
    | false => rfl
    | true => exact absurd ((h.gone hg).symm.trans hh) (Option.some_ne_none t).symm
  have hinside : ∀ v, l.phase v = .inside → v = t := fun v hv => h.unique hg hv (h.held t hh)
  cases next with
  | none =>
    refine ⟨fun u hu => (Option.some_ne_none u hu.symm).elim, fun u hu => ?_, fun u hu => ?_, fun _ => rfl⟩
    · obtain ⟨hut, hu'⟩ := Lock.phase_of_set (l := l) hu (by decide)
      exact absurd (hinside u hu') hut
    · exact absurd (Lock.phase_of_set (l := l) hu (by decide)).2 (hnone rfl u)
  | some n =>
    refine ⟨fun u hu => ?_, fun u hu => ?_, fun u hu => Option.some_ne_none n, fun hgone => absurd (hgone.symm.trans hg) (by decide)⟩
    · obtain rfl := Option.some.inj hu
      exact (l.set t .out).set_phase n .inside
    · by_cases hun : u = n
      · exact .inl (congrArg some hun.symm)
      · have hu' : (l.set t .out).phase u = .inside := ((l.set t .out).set_phase_ne .inside hun).symm.trans hu
        obtain ⟨hut, hu''⟩ := Lock.phase_of_set hu' (by decide)
        exact absurd (hinside u hu'') hut

end Steps

end Locks
