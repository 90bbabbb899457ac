import Mathlib.Data.List.Basic
import Mathlib.Data.List.Flatten

/-! A list in slices of a fixed length. -/
namespace Chunks

variable {α : Type} {n : Nat} {xs : List α}

/-- `xs[i : i + n]` for `i` in steps of `n`. -/
def chunksBy (n : Nat) (xs : List α) : List (List α) :=
  (List.range ((xs.length + (n - 1)) / n)).map fun i => (xs.drop (i * n)).take n

theorem flatten_slices (n : Nat) (xs : List α) (k : Nat) :
    ((List.range k).map fun i => (xs.drop (i * n)).take n).flatten = xs.take (k * n) := by
  induction k with
  | zero => simp
  | succ k ih =>
    rw [List.range_succ, List.map_append, List.flatten_append, ih, Nat.succ_mul, List.take_add]
    simp

/-- The slices are the list. -/
theorem flatten_chunksBy (hn : 0 < n) (xs : List α) : (chunksBy n xs).flatten = xs := by
  unfold chunksBy
  rw [flatten_slices]
  apply List.take_of_length_le
  have hdiv := Nat.div_add_mod (xs.length + (n - 1)) n
  have hmod := Nat.mod_lt (xs.length + (n - 1)) hn
  rw [Nat.mul_comm] at hdiv
  omega

/-- No slice is empty or too long. -/
theorem length_of_mem_chunksBy (hn : 0 < n) {ys : List α} (h : ys ∈ chunksBy n xs) :
    1 ≤ ys.length ∧ ys.length ≤ n := by
  obtain ⟨i, hi, rfl⟩ := List.mem_map.mp h
  have hlt : (i + 1) * n ≤ xs.length + (n - 1) :=
    (Nat.le_div_iff_mul_le hn).mp (List.mem_range.mp hi)
  rw [Nat.succ_mul] at hlt
  rw [List.length_take, List.length_drop]
  omega

/-- The first slice, and the slices of the rest. -/
theorem chunksBy_eq_cons (hn : 0 < n) (hxs : xs ≠ []) :
    chunksBy n xs = xs.take n :: chunksBy n (xs.drop n) := by
  have hlen := List.length_pos_of_ne_nil hxs
  have hcount : (xs.length + (n - 1)) / n = (xs.length - n + (n - 1)) / n + 1 := by
    rcases Nat.lt_or_ge xs.length n with hlt | hge
    · have hone : (xs.length + (n - 1)) / n = 1 := Nat.div_eq_of_lt_le (by omega) (by omega)
      rw [hone, Nat.sub_eq_zero_of_le (Nat.le_of_lt hlt), Nat.zero_add, Nat.div_eq_of_lt (by omega)]
    · have hsum : xs.length + (n - 1) = xs.length - n + (n - 1) + n := by omega
      rw [hsum, Nat.add_div_right _ hn]
  unfold chunksBy
  rw [hcount, List.range_succ_eq_map, List.map_cons, List.map_map, List.length_drop]
  simp only [Nat.zero_mul, List.drop_zero, List.cons.injEq, true_and]
  refine List.map_congr_left fun i _ => ?_
  simp only [Function.comp_apply, List.drop_drop, Nat.succ_mul, Nat.add_comm]

end Chunks
