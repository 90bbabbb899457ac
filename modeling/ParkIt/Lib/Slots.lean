import Mathlib.Data.List.ReduceOption
import Mathlib.Data.List.Nodup
import Mathlib.Data.List.Perm.Basic

/-! Tables of slots, each empty or with one element, as hash tables keep their elements. -/
namespace Slots

variable {α : Type*} {table : List (Option α)} {x y : α} {p q : Nat}

/-- The element goes into the first empty slot. -/
def fill : List (Option α) → α → List (Option α)
  | [], x => [some x]
  | none :: table, x => some x :: table
  | some y :: table, x => some y :: fill table x

/-- The slots of the element are emptied. -/
def clear [DecidableEq α] (table : List (Option α)) (x : α) : List (Option α) :=
  table.map fun c => if c = some x then none else c

theorem mem_iff : x ∈ table.reduceOption ↔ ∃ p : Nat, table[p]? = some (some x) := by
  rw [List.reduceOption_mem_iff, List.mem_iff_getElem?]

/-- An element has one slot. -/
theorem slot_unique (h : table.reduceOption.Nodup) (hp : table[p]? = some (some x))
    (hq : table[q]? = some (some x)) : p = q := by
  have hpairs : table.Pairwise fun a b => ∀ u, a = some u → ∀ v, b = some v → u ≠ v := by
    have hmap := List.pairwise_filterMap.mp h
    exact hmap
  obtain ⟨hp', hpx⟩ := List.getElem?_eq_some_iff.mp hp
  obtain ⟨hq', hqx⟩ := List.getElem?_eq_some_iff.mp hq
  rcases Nat.lt_trichotomy p q with hlt | heq | hlt
  · exact absurd rfl (List.pairwise_iff_getElem.mp hpairs p q hp' hq' hlt x hpx x hqx)
  · exact heq
  · exact absurd rfl (List.pairwise_iff_getElem.mp hpairs q p hq' hp' hlt x hqx x hpx)

theorem fill_perm : (fill table x).reduceOption.Perm (x :: table.reduceOption) := by
  induction table with
  | nil => exact List.Perm.refl _
  | cons c table ih =>
    cases c with
    | none => exact List.Perm.refl _
    | some y => exact (ih.cons y).trans (List.Perm.swap x y _)

/-- Where a slot is free, the table does not grow. -/
theorem fill_length (h : table.reduceOption.length < table.length) :
    (fill table x).length = table.length := by
  induction table with
  | nil => exact absurd h (Nat.lt_irrefl _)
  | cons c table ih =>
    cases c with
    | none => rfl
    | some y => exact congrArg (· + 1) (ih (Nat.lt_of_succ_lt_succ h))

section Clear
variable [DecidableEq α]

theorem clear_length : (clear table x).length = table.length := List.length_map ..

theorem clear_elements : (clear table x).reduceOption = table.reduceOption.filter (· ≠ x) := by
  induction table with
  | nil => rfl
  | cons c table ih =>
    cases c with
    | none => exact ih
    | some y =>
      by_cases hy : y = x
      · subst hy
        simpa [clear, List.reduceOption, List.filterMap_cons] using ih
      · simpa [clear, List.reduceOption, List.filterMap_cons, hy] using ih

theorem clear_slot (h : table[p]? = some (some y)) (hne : y ≠ x) :
    (clear table x)[p]? = some (some y) := by
  simp [clear, h, hne]

end Clear
end Slots
