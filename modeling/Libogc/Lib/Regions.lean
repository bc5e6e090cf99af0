import Mathlib.Data.Nat.ModEq
import Mathlib.Algebra.BigOperators.Group.List.Basic
import Mathlib.Algebra.BigOperators.Group.Finset.Basic
import Mathlib.Algebra.Order.BigOperators.Group.Finset
import Mathlib.Order.Interval.Finset.Nat
/-!
# Regions — bytes laid out one behind the other

Addresses are counted modulo the size of the space.  Pieces of one size inside a stretch need no more than it has.
-/
namespace Libogc

namespace Regions

structure Region where
  start : Nat
  size : Nat
  deriving DecidableEq, Repr

section Space
variable (M : Nat)

/-- The bytes of a region. -/
def Region.Has (r : Region) (x : Nat) : Prop := ∃ k < r.size, x = (r.start + k) % M

/-- The regions have no byte in common. -/
def Region.Apart (r r' : Region) : Prop := ∀ x, r.Has M x → ¬ r'.Has M x

/-- Regions of these sizes, the first at `a`. -/
def layout : Nat → List Nat → List Region
  | _, [] => []
  | a, n :: ns => ⟨a, n⟩ :: layout ((a + n) % M) ns

variable {M} {a x : Nat} {ms ns : List Nat}

theorem layout_append (ha : a < M) : layout M a (ms ++ ns) = layout M a ms ++ layout M ((a + ms.sum) % M) ns := by
  induction ms generalizing a with
  | nil =>
    rw [List.sum_nil, Nat.add_zero, Nat.mod_eq_of_lt ha]
    rfl
  | cons n ms ih =>
    show ⟨a, n⟩ :: layout M ((a + n) % M) (ms ++ ns) = _
    rw [ih (Nat.mod_lt _ (Nat.zero_lt_of_lt ha)), List.sum_cons, Nat.mod_add_mod, Nat.add_assoc]
    rfl

theorem layout_has {r : Region} (hr : r ∈ layout M a ns) (hx : r.Has M x) : ∃ k < ns.sum, x = (a + k) % M := by
  induction ns generalizing a with
  | nil => cases hr
  | cons n ns ih =>
    rw [List.sum_cons]
    rcases List.mem_cons.1 hr with rfl | hr
    · obtain ⟨k, hk, rfl⟩ := hx
      exact ⟨k, Nat.lt_add_right _ hk, rfl⟩
    · obtain ⟨k, hk, rfl⟩ := ih hr
      refine ⟨n + k, Nat.add_lt_add_left hk n, ?_⟩
      rw [Nat.mod_add_mod, Nat.add_assoc]

theorem layout_apart (hfits : ns.sum ≤ M) : (layout M a ns).Pairwise (Region.Apart M) := by
  induction ns generalizing a with
  | nil => exact .nil
  | cons n ns ih =>
    rw [List.sum_cons] at hfits
    refine List.pairwise_cons.2 ⟨fun r hr x hx hx' => ?_, ih (by omega)⟩
    obtain ⟨k, hk, rfl⟩ := hx
    obtain ⟨j, hj, heq⟩ := layout_has hr hx'
    have hk : k < n := hk
    have hmod : a + k ≡ a + (n + j) [MOD M] := by
      rw [Nat.mod_add_mod, Nat.add_assoc] at heq
      exact heq
    have hdvd := (Nat.modEq_iff_dvd' (by omega)).1 (Nat.ModEq.add_left_cancel' a hmod)
    have hle := Nat.le_of_dvd (by omega) hdvd
    omega

theorem layout_covers {k : Nat} (hk : k < ns.sum) : ∃ r ∈ layout M a ns, r.Has M ((a + k) % M) := by
  induction ns generalizing a k with
  | nil => cases hk
  | cons n ns ih =>
    rw [List.sum_cons] at hk
    by_cases hkn : k < n
    · exact ⟨⟨a, n⟩, List.mem_cons_self, k, hkn, rfl⟩
    · obtain ⟨r, hr, hhas⟩ := ih (a := (a + n) % M) (k := k - n) (by omega)
      refine ⟨r, List.mem_cons_of_mem _ hr, ?_⟩
      rwa [Nat.mod_add_mod, Nat.add_assoc, Nat.add_sub_cancel' (Nat.le_of_not_lt hkn)] at hhas

end Space

theorem apart_length_le {n lo size : Nat} (hpos : 0 < n) {as : List Nat} (hapart : as.Pairwise fun a b => a + n ≤ b ∨ b + n ≤ a)
    (hin : ∀ a ∈ as, lo ≤ a ∧ a + n ≤ lo + size) : as.length * n ≤ size := by
  have hnd : as.Nodup := hapart.imp fun hab he => by omega
  have hdisj : (as.toFinset : Set Nat).PairwiseDisjoint fun a => Finset.Ico a (a + n) := by
    intro a ha b hb hne
    have hab : a + n ≤ b ∨ b + n ≤ a := by
      have : Std.Symm fun a b : Nat => a + n ≤ b ∨ b + n ≤ a := ⟨fun _ _ h => h.symm⟩
      exact hapart.forall (List.mem_toFinset.1 ha) (List.mem_toFinset.1 hb) hne
    rw [Function.onFun, Finset.disjoint_left]
    intro x hxa hxb
    rw [Finset.mem_Ico] at hxa hxb
    omega
  have hsub : as.toFinset.biUnion (fun a => Finset.Ico a (a + n)) ⊆ Finset.Ico lo (lo + size) := by
    intro x hx
    obtain ⟨a, ha, hxa⟩ := Finset.mem_biUnion.1 hx
    have := hin a (List.mem_toFinset.1 ha)
    rw [Finset.mem_Ico] at hxa ⊢
    omega
  have hcard := Finset.card_le_card hsub
  rw [Finset.card_biUnion hdisj] at hcard
  simpa [List.toFinset_card_of_nodup hnd] using hcard

end Regions

end Libogc
