import Mathlib.Tactic.Common
/-!
# OnesSum — sums of 16-bit words, with the carries added back

Such a sum is the plain one modulo 65535, and 0 only if nothing but zeros was added.  So it is the same for any grouping of the words, and
turning the octets of the words turns those of the sum.
-/
namespace OnesSum

/-- `a` is what `n` comes to when its carries are added back. -/
def Folds (n a : Nat) : Prop := a < 65536 ∧ a % 65535 = n % 65535 ∧ (a = 0 ↔ n = 0)

/-- The sum of the words that octets make up, from a high octet on or from a low one. -/
def words : Bool → List UInt8 → Nat
  | _, [] => 0
  | true, x :: xs => 256 * x.toNat + words false xs
  | false, x :: xs => x.toNat + words true xs

variable {n m a b k : Nat} {high : Bool} {xs ys : List UInt8}

theorem Folds.unique (h : Folds n a) (h' : Folds n b) : a = b := by
  obtain ⟨h1, h2, h3⟩ := h
  obtain ⟨h1', h2', h3'⟩ := h'
  omega

theorem Folds.refl (h : n < 65536) : Folds n n := ⟨h, rfl, Iff.rfl⟩

/-- Carries may be added back before more is added. -/
theorem Folds.trans (h : Folds n a) (h' : Folds (a + k) b) : Folds (n + k) b := by
  obtain ⟨h1, h2, h3⟩ := h
  obtain ⟨h1', h2', h3'⟩ := h'
  exact ⟨h1', by omega, by omega⟩

theorem Folds.carry (h : Folds (n / 65536 + n % 65536) a) : Folds n a := by
  obtain ⟨h1, h2, h3⟩ := h
  exact ⟨h1, by omega, by omega⟩

theorem Folds.complement (h : Folds n a) : Folds (n + (65535 - a)) 65535 := by
  obtain ⟨h1, h2, h3⟩ := h
  exact ⟨by omega, by omega, by omega⟩

/-- The octets of a sum are turned. -/
theorem Folds.turn (h : Folds n a) : Folds (256 * n) (a % 256 * 256 + a / 256) := by
  obtain ⟨h1, h2, h3⟩ := h
  exact ⟨by omega, by omega, by omega⟩

theorem words_append : words high (xs ++ ys) = words high xs + words (high == (xs.length % 2 == 0)) ys := by
  induction xs generalizing high with
  | nil => cases high <;> exact (Nat.zero_add _).symm
  | cons x xs ih =>
    have hpar : ((x :: xs).length % 2 == 0) = !(xs.length % 2 == 0) := by
      rw [List.length_cons]
      rcases Nat.mod_two_eq_zero_or_one xs.length with h | h <;> simp [Nat.add_mod, h]
    rw [hpar, List.cons_append]
    cases high <;> rw [words, words, ih, Nat.add_assoc] <;> cases xs.length % 2 == 0 <;> rfl

theorem words_turn (xs : List UInt8) : words false xs % 65535 = 256 * words true xs % 65535 ∧ words true xs % 65535 = 256 * words false xs % 65535 ∧
    (words true xs = 0 ↔ words false xs = 0) := by
  induction xs with
  | nil => exact ⟨rfl, rfl, Iff.rfl⟩
  | cons x xs ih =>
    simp only [words]
    omega

theorem Folds.words_turn (h : Folds (words high xs) a) : Folds (words (!high) xs) (a % 256 * 256 + a / 256) := by
  obtain ⟨h1, h2, h3⟩ := h.turn
  have := OnesSum.words_turn xs
  cases high
  · exact ⟨h1, by simp only [Bool.not_false]; omega, by simp only [Bool.not_false]; omega⟩
  · exact ⟨h1, by simp only [Bool.not_true]; omega, by simp only [Bool.not_true]; omega⟩

theorem words_le : ∀ {high : Bool} {xs : List UInt8}, words high xs ≤ 65280 * xs.length
  | _, [] => Nat.le_refl 0
  | true, x :: xs => by
    have := x.toNat_lt
    have := @words_le false xs
    rw [words, List.length_cons]
    omega
  | false, x :: xs => by
    have := x.toNat_lt
    have := @words_le true xs
    rw [words, List.length_cons]
    omega

end OnesSum
