import Mathlib.Data.List.GetD
import Mathlib.Tactic.Ring
import Mathlib.Tactic.Common
/-!
# Bytes — what stands in a memory of bytes

A memory is a function from addresses to bytes.  A record that was written field after field is read back field after field.
-/
namespace Libogc
namespace Bytes

/-- The `n` bytes from `o` on. -/
def read (mem : Nat → UInt8) (o : Nat) : Nat → List UInt8
  | 0 => []
  | n + 1 => mem o :: read mem (o + 1) n

@[simp] theorem read_length (mem : Nat → UInt8) (o n : Nat) : (read mem o n).length = n := by
  induction n generalizing o with
  | zero => rfl
  | succ n ih => simp only [read, List.length_cons, ih]

theorem read_add (mem : Nat → UInt8) (o m n : Nat) : read mem o (m + n) = read mem o m ++ read mem (o + m) n := by
  induction m generalizing o with
  | zero => rw [Nat.zero_add]; rfl
  | succ m ih =>
    rw [show m + 1 + n = (m + n) + 1 by omega, read, read, ih, List.cons_append, show o + 1 + m = o + (m + 1) by omega]

theorem read_congr {mem mem' : Nat → UInt8} {o o' n : Nat} (h : ∀ i < n, mem (o + i) = mem' (o' + i)) : read mem o n = read mem' o' n := by
  induction n generalizing o o' with
  | zero => rfl
  | succ n ih =>
    have hrest : ∀ i < n, mem (o + 1 + i) = mem' (o' + 1 + i) := by
      intro i hi
      rw [show o + 1 + i = o + (i + 1) by omega, show o' + 1 + i = o' + (i + 1) by omega]
      exact h (i + 1) (by omega)
    rw [read, read, ih hrest]
    exact congrArg (· :: _) (h 0 (by omega))

theorem read_getD {mem : Nat → UInt8} {o n i : Nat} (h : i < n) (x : UInt8) : (read mem o n).getD i x = mem (o + i) := by
  induction n generalizing o i with
  | zero => exact absurd h (Nat.not_lt_zero i)
  | succ n ih =>
    cases i with
    | zero => rfl
    | succ i =>
      rw [read, List.getD_cons_succ, ih (Nat.lt_of_succ_lt_succ h), show o + 1 + i = o + (i + 1) by omega]

/-- The bytes `xs` stand in the memory from `o` on. -/
def Stand (mem : Nat → UInt8) (o : Nat) (xs : List UInt8) : Prop := read mem o xs.length = xs

instance (mem : Nat → UInt8) (o : Nat) (xs : List UInt8) : Decidable (Stand mem o xs) :=
  inferInstanceAs (Decidable (_ = _))

variable {mem : Nat → UInt8} {o : Nat} {x : UInt8} {xs ys : List UInt8}

@[simp] theorem stand_nil : Stand mem o [] := rfl

theorem stand_cons : Stand mem o (x :: xs) ↔ mem o = x ∧ Stand mem (o + 1) xs := by
  unfold Stand
  simp only [List.length_cons, read, List.cons.injEq]

theorem stand_append : Stand mem o (xs ++ ys) ↔ Stand mem o xs ∧ Stand mem (o + xs.length) ys := by
  induction xs generalizing o with
  | nil => simp
  | cons x xs ih =>
    rw [List.cons_append, stand_cons, stand_cons, ih, and_assoc, List.length_cons,
      show o + 1 + xs.length = o + (xs.length + 1) by omega]

theorem Stand.read_eq_iff (h : Stand mem o xs) (hl : ys.length = xs.length) : read mem o ys.length = ys ↔ xs = ys := by
  rw [hl, show read mem o xs.length = xs from h]

theorem Stand.copy {buf : Nat → UInt8} (h : Stand mem o xs) (hbuf : ∀ i < xs.length, buf i = mem (o + i)) : Stand buf 0 xs := by
  have hread : read buf 0 xs.length = read mem o xs.length := read_congr fun i hi => by rw [Nat.zero_add, hbuf i hi]
  exact hread.trans h

/-! ## Numbers of two bytes, the high one first -/

def be16 (hi lo : UInt8) : Nat := hi.toNat * 256 + lo.toNat

def hi8 (n : Nat) : UInt8 := UInt8.ofNat (n / 256)

def lo8 (n : Nat) : UInt8 := UInt8.ofNat n

theorem be16_hi_lo {n : Nat} (hn : n < 2 ^ 16) : be16 (hi8 n) (lo8 n) = n := by
  have hdiv : n / 256 < 256 := by omega
  unfold be16 hi8 lo8
  rw [UInt8.toNat_ofNat', UInt8.toNat_ofNat']
  omega

/-- The number of four bytes that stands in a memory. -/
def be32 (mem : Nat → UInt8) (o : Nat) : Nat := be16 (mem o) (mem (o + 1)) * 65536 + be16 (mem (o + 2)) (mem (o + 3))

/-- A number as four bytes. -/
def bytes32 (n : Nat) : List UInt8 := [hi8 (n / 65536), lo8 (n / 65536), hi8 (n % 65536), lo8 (n % 65536)]

/-- The last `n` bytes of a number, the high one first. -/
def beBytes (n v : Nat) : List UInt8 := (List.range n).reverse.map fun i => UInt8.ofNat (v / 256 ^ i)

@[simp] theorem beBytes_length (n v : Nat) : (beBytes n v).length = n := by simp [beBytes]

/-- The number that bytes stand for, the high one first. -/
def beValue (bs : List UInt8) : Nat := bs.foldl (fun n b => n * 256 + b.toNat) 0

theorem beBytes_succ (n v : Nat) : beBytes (n + 1) v = UInt8.ofNat (v / 256 ^ n) :: beBytes n v := by
  unfold beBytes
  rw [List.range_succ, List.reverse_append, List.reverse_singleton, List.singleton_append, List.map_cons]

theorem foldl_beBytes (n v a : Nat) : (beBytes n v).foldl (fun n b => n * 256 + b.toNat) a = a * 256 ^ n + v % 256 ^ n := by
  induction n generalizing a with
  | zero => rw [Nat.pow_zero, Nat.mul_one, Nat.mod_one]; rfl
  | succ n ih =>
    have hmod : v % 256 ^ (n + 1) = v % 256 ^ n + 256 ^ n * (v / 256 ^ n % 256) := Nat.mod_pow_succ
    rw [beBytes_succ, List.foldl_cons, ih, UInt8.toNat_ofNat', hmod, Nat.pow_succ]
    ring

theorem beValue_beBytes (n v : Nat) : beValue (beBytes n v) = v % 256 ^ n := by
  unfold beValue
  rw [foldl_beBytes, Nat.zero_mul, Nat.zero_add]

theorem be32_of_stand {mem : Nat → UInt8} {o n : Nat} (hn : n < 2 ^ 32) (h : Stand mem o (bytes32 n)) : be32 mem o = n := by
  obtain ⟨h0, h⟩ := stand_cons.mp h
  obtain ⟨h1, h⟩ := stand_cons.mp h
  obtain ⟨h2, h⟩ := stand_cons.mp h
  obtain ⟨h3, -⟩ := stand_cons.mp h
  unfold be32
  rw [h0, h1, h2, h3, be16_hi_lo (by omega), be16_hi_lo (by omega)]
  omega

theorem be16_lt (hi lo : UInt8) : be16 hi lo < 2 ^ 16 := by
  have hhi := hi.toNat_lt
  have hlo := lo.toNat_lt
  unfold be16
  omega

theorem be32_lt (mem : Nat → UInt8) (o : Nat) : be32 mem o < 2 ^ 32 := by
  have h := be16_lt (mem o) (mem (o + 1))
  have h' := be16_lt (mem (o + 2)) (mem (o + 3))
  unfold be32
  omega

/-! ## Writes -/

/-- The memory with bytes written to it. -/
def write (mem : Nat → UInt8) (o : Nat) (xs : List UInt8) (i : Nat) : UInt8 :=
  if o ≤ i ∧ i < o + xs.length then xs.getD (i - o) 0 else mem i

theorem write_outside {i : Nat} (h : i < o ∨ o + xs.length ≤ i) : write mem o xs i = mem i := if_neg (by omega)

theorem write_inside {i : Nat} (h : i < xs.length) : write mem o xs (o + i) = xs.getD i 0 := by
  unfold write
  rw [if_pos ⟨Nat.le_add_right o i, by omega⟩, Nat.add_sub_cancel_left]

@[simp] theorem write_nil (mem : Nat → UInt8) (o : Nat) : write mem o [] = mem :=
  funext fun i => write_outside (Nat.lt_or_ge i o)

theorem read_write (mem : Nat → UInt8) (o : Nat) (xs : List UInt8) : read (write mem o xs) o xs.length = xs := by
  refine List.ext_getElem (read_length ..) fun i h1 h2 => ?_
  have hget : (read (write mem o xs) o xs.length).getD i 0 = xs.getD i 0 := (read_getD h2 0).trans (write_inside h2)
  rw [List.getD_eq_getElem?_getD, List.getElem?_eq_getElem h1, List.getD_eq_getElem?_getD, List.getElem?_eq_getElem h2] at hget
  exact hget

theorem write_append (mem : Nat → UInt8) (o : Nat) (xs ys : List UInt8) :
    write (write mem o xs) (o + xs.length) ys = write mem o (xs ++ ys) := by
  funext i
  by_cases hys : o + xs.length ≤ i ∧ i < o + xs.length + ys.length
  · obtain ⟨j, rfl⟩ := Nat.exists_eq_add_of_le hys.1
    have hj : j < ys.length := by omega
    rw [write_inside hj, Nat.add_assoc, write_inside (by rw [List.length_append]; omega), List.getD_append_right _ _ _ _ (by omega),
      Nat.add_sub_cancel_left]
  · rw [write_outside (by omega)]
    by_cases hxs : o ≤ i ∧ i < o + xs.length
    · obtain ⟨j, rfl⟩ := Nat.exists_eq_add_of_le hxs.1
      have hj : j < xs.length := by omega
      rw [write_inside hj, write_inside (by rw [List.length_append]; omega), List.getD_append _ _ _ _ hj]
    · rw [write_outside (by omega), write_outside (by rw [List.length_append]; omega)]

theorem write_one (mem : Nat → UInt8) (o : Nat) (x : UInt8) : write mem o [x] = Function.update mem o x := by
  funext i
  by_cases hi : i = o
  · subst hi
    have hin : write mem i [x] (i + 0) = [x].getD 0 0 := write_inside (by rw [List.length_singleton]; exact Nat.zero_lt_one)
    rw [Function.update_self]
    exact hin
  · rw [Function.update_of_ne hi]
    exact write_outside (by rw [List.length_singleton]; omega)

theorem read_write_append (mem : Nat → UInt8) (n : Nat) (xs : List UInt8) :
    read (write mem n xs) 0 (n + xs.length) = read mem 0 n ++ xs := by
  rw [read_add, Nat.zero_add, read_write]
  exact congrArg (· ++ xs) (read_congr fun i hi => write_outside (by omega))

/-! ## Reads -/

/-- The places that are read are before `bound`. -/
def Within (reads : List Nat) (bound : Nat) : Prop := ∀ k ∈ reads, k < bound

theorem within_nil (bound : Nat) : Within [] bound := fun _ h => absurd h List.not_mem_nil

theorem within_cons {k bound : Nat} {reads : List Nat} : Within (k :: reads) bound ↔ k < bound ∧ Within reads bound :=
  List.forall_mem_cons

theorem within_append {bound : Nat} {reads reads' : List Nat} : Within (reads ++ reads') bound ↔ Within reads bound ∧ Within reads' bound :=
  List.forall_mem_append

theorem within_flatMap {α : Type} {bound : Nat} {xs : List α} {reads : α → List Nat} :
    Within (xs.flatMap reads) bound ↔ ∀ x ∈ xs, Within (reads x) bound := by
  unfold Within
  simp only [List.mem_flatMap]
  exact ⟨fun h x hx k hk => h k ⟨x, hx, hk⟩, fun h k ⟨x, hx, hk⟩ => h x hx k hk⟩

/-- The places of `n` bytes from `o` on. -/
def places (o n : Nat) : List Nat := (List.range n).map (o + ·)

theorem within_places {o n bound : Nat} : Within (places o n) bound ↔ (n = 0 ∨ o + n ≤ bound) := by
  unfold Within places
  rw [List.forall_mem_map]
  constructor
  · intro h
    cases n with
    | zero => exact .inl rfl
    | succ n =>
      have hlast := h n (List.mem_range.mpr (Nat.lt_succ_self n))
      exact .inr (by omega)
  · intro h i hi
    have hi := List.mem_range.mp hi
    omega

end Bytes
end Libogc
