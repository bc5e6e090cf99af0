import Mathlib.Algebra.Group.Int.Defs
import Mathlib.Algebra.GroupWithZero.Nat
/-!
# Numerals — the numbers of the small types

The types that the tables of the code are over have a bound that is not 0.  It is said here once, so that a numeral is the same term in every
module.
-/
namespace Libogc

instance (priority := 1100) neZero2 : NeZero 2 := ⟨by decide⟩
instance (priority := 1100) neZero3 : NeZero 3 := ⟨by decide⟩
instance (priority := 1100) neZero4 : NeZero 4 := ⟨by decide⟩
instance (priority := 1100) neZero8 : NeZero 8 := ⟨by decide⟩
instance (priority := 1100) neZero32 : NeZero 32 := ⟨by decide⟩
instance (priority := 1100) neZero256 : NeZero 256 := ⟨by decide⟩

end Libogc
