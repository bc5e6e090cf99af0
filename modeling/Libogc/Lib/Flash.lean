import Mathlib.Tactic.Common
/-!
# Flash — memory that is erased in sectors and programmed in pages

An erasure sets all bits, programming clears some.  What is programmed after an erasure is what was asked for.
-/
namespace Flash

abbrev Mem := Nat → BitVec 8

variable {m : Mem} {addr n k : Nat} {data data' : Nat → BitVec 8}

def erase (m : Mem) (addr n : Nat) : Mem := fun a => if addr ≤ a ∧ a < addr + n then BitVec.allOnes 8 else m a

def program (m : Mem) (addr n : Nat) (data : Nat → BitVec 8) : Mem := fun a => if addr ≤ a ∧ a < addr + n then m a &&& data (a - addr) else m a

/-- Bytes are put in the place of others. -/
def store (m : Mem) (addr n : Nat) (data : Nat → BitVec 8) : Mem := fun a => if addr ≤ a ∧ a < addr + n then data (a - addr) else m a

theorem store_at {i : Nat} (h : i < n) : store m addr n data (addr + i) = data i := by
  unfold store
  rw [if_pos ⟨Nat.le_add_right .., Nat.add_lt_add_left h _⟩, Nat.add_sub_cancel_left]

theorem store_ne {a : Nat} (h : a < addr ∨ addr + n ≤ a) : store m addr n data a = m a := by
  unfold store
  exact if_neg (by omega)

theorem store_append : store (store m addr n data) (addr + n) k (fun i => data (n + i)) = store m addr (n + k) data := by
  funext a
  unfold store
  by_cases hk : addr + n ≤ a ∧ a < addr + n + k
  · rw [if_pos hk, if_pos (by omega)]
    dsimp only
    rw [show n + (a - (addr + n)) = a - addr by omega]
  · rw [if_neg hk]
    by_cases hn : addr ≤ a ∧ a < addr + n
    · rw [if_pos hn, if_pos (by omega)]
    · rw [if_neg hn, if_neg (by omega)]

theorem store_zero : store m addr 0 data = m := by
  funext a
  unfold store
  exact if_neg (by omega)

theorem store_congr (h : ∀ i < n, data i = data' i) : store m addr n data = store m addr n data' := by
  funext a
  unfold store
  by_cases hn : addr ≤ a ∧ a < addr + n
  · rw [if_pos hn, if_pos hn, h _ (by omega)]
  · rw [if_neg hn, if_neg hn]

theorem program_erase : program (erase m addr n) addr n data = store m addr n data := by
  funext a
  unfold program erase store
  by_cases h : addr ≤ a ∧ a < addr + n
  · rw [if_pos h, if_pos h, if_pos h, BitVec.allOnes_and]
  · rw [if_neg h, if_neg h, if_neg h]

theorem program_zero : program m addr 0 data = m := by
  funext a
  unfold program
  exact if_neg (by omega)

theorem program_append : program (program m addr n data) (addr + n) k (fun i => data (n + i)) = program m addr (n + k) data := by
  funext a
  unfold program
  by_cases hn : addr ≤ a ∧ a < addr + n
  · rw [if_neg (by omega), if_pos hn, if_pos (by omega)]
  · by_cases hk : addr + n ≤ a ∧ a < addr + n + k
    · rw [if_pos hk, if_neg hn, if_pos (by omega)]
      dsimp only
      rw [show n + (a - (addr + n)) = a - addr by omega]
    · rw [if_neg hk, if_neg hn, if_neg (by omega)]

end Flash
