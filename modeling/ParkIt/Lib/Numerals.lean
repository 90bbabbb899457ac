import Mathlib.Data.List.Induction

/-! Numbers in the digits of a base. -/
namespace Numerals

/-- What digits come to, the most significant one first. -/
def value (base : Nat) (digit : Char → Nat) (cs : List Char) : Nat :=
  cs.foldl (fun n c => base * n + digit c) 0

section Lemmas
variable {base k n : Nat} {digit : Char → Nat} {cs : List Char} {c : Char}

theorem value_concat : value base digit (cs ++ [c]) = base * value base digit cs + digit c := by
  rw [value, List.foldl_append]
  rfl

/-- Leading zeros count for nothing. -/
theorem value_zeros (h : digit '0' = 0) :
    value base digit (List.replicate k '0' ++ cs) = value base digit cs := by
  induction k with
  | zero => rfl
  | succ k ih =>
    rw [List.replicate_succ, List.cons_append, value, List.foldl_cons, h]
    exact ih

/-- Digits that mean the same come to the same. -/
theorem value_map (f : Char → Char) (h : ∀ c ∈ cs, digit (f c) = digit c) :
    value base digit (cs.map f) = value base digit cs := by
  induction cs using List.reverseRecOn with
  | nil => rfl
  | append_singleton cs c ih =>
    rw [List.map_append, List.map_singleton, value_concat, value_concat,
      ih fun c hc => h c (List.mem_append_left _ hc),
      h c (List.mem_append_right _ List.mem_cons_self)]

/-- A number comes back from its digits. -/
theorem value_toDigits (hbase : 1 < base) (h : ∀ d < base, digit (Nat.digitChar d) = d) :
    value base digit (Nat.toDigits base n) = n := by
  induction n using Nat.strongRecOn with
  | ind n ih =>
    by_cases hn : n < base
    · rw [Nat.toDigits_of_lt_base hn, value, List.foldl_cons, List.foldl_nil, h n hn, Nat.mul_zero,
        Nat.zero_add]
    · rw [Nat.toDigits_of_base_le hbase (Nat.le_of_not_lt hn), value_concat,
        ih _ (Nat.div_lt_self (by omega) hbase), h _ (Nat.mod_lt _ (by omega)), Nat.div_add_mod]

/-- The digits of a number are digits of the base. -/
theorem mem_toDigits (hbase : 1 < base) (hc : c ∈ Nat.toDigits base n) :
    ∃ d < base, c = Nat.digitChar d := by
  induction n using Nat.strongRecOn with
  | ind n ih =>
    by_cases hn : n < base
    · rw [Nat.toDigits_of_lt_base hn, List.mem_singleton] at hc
      exact ⟨n, hn, hc⟩
    · rw [Nat.toDigits_of_base_le hbase (Nat.le_of_not_lt hn), List.mem_append,
        List.mem_singleton] at hc
      rcases hc with hc | rfl
      · exact ih _ (Nat.div_lt_self (by omega) hbase) hc
      · exact ⟨_, Nat.mod_lt _ (by omega), rfl⟩

end Lemmas
end Numerals
