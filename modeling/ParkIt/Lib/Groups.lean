import Mathlib.Algebra.BigOperators.Group.List.Lemmas
import Mathlib.Algebra.GroupWithZero.Nat
import Mathlib.Data.List.Dedup

/-! `GROUP BY`: a list split by a key, and sums over its groups. -/
namespace Groups

variable {α κ M : Type*} [DecidableEq κ]

/-- Each key that occurs, with the elements that have it. -/
def groups (key : α → κ) (l : List α) : List (κ × List α) :=
  (l.map key).dedup.map fun k => (k, l.filter fun x => key x = k)

variable [AddCommMonoid M]

theorem sum_one_key {ks : List κ} (hks : ks.Nodup) {k : κ} (hk : k ∈ ks) (m : M) :
    (ks.map fun k' => if k = k' then m else 0).sum = m := by
  induction ks with
  | nil => cases hk
  | cons k' ks ih =>
    rw [List.nodup_cons] at hks
    rw [List.map_cons, List.sum_cons]
    obtain rfl | hk := List.mem_cons.mp hk
    · have hzero : (ks.map fun k' => if k = k' then m else 0).sum = 0 := by
        refine List.sum_eq_zero fun x hx => ?_
        obtain ⟨k', hk', rfl⟩ := List.mem_map.mp hx
        exact if_neg fun h : k = k' => hks.1 (h ▸ hk')
      rw [if_pos rfl, hzero, add_zero]
    · rw [if_neg fun h : k = k' => hks.1 (h ▸ hk), zero_add, ih hks.2 hk]

theorem sum_by_keys {ks : List κ} (hks : ks.Nodup) {key : α → κ} {l : List α}
    (hl : ∀ x ∈ l, key x ∈ ks) (f : α → M) :
    (ks.map fun k => ((l.filter fun x => key x = k).map f).sum).sum = (l.map f).sum := by
  induction l with
  | nil => simp
  | cons x l ih =>
    have hstep : ∀ k, (((x :: l).filter fun x => key x = k).map f).sum =
        (if key x = k then f x else 0) + ((l.filter fun x => key x = k).map f).sum := by
      intro k
      by_cases h : key x = k <;> simp [h]
    simp only [hstep]
    rw [List.sum_map_add, sum_one_key hks (hl x List.mem_cons_self),
      ih fun y hy => hl y (List.mem_cons_of_mem _ hy), List.map_cons, List.sum_cons]

/-- The sums over the groups add up to the sum over the list. -/
theorem sum_groups (key : α → κ) (l : List α) (f : α → M) :
    ((groups key l).map fun g => (g.2.map f).sum).sum = (l.map f).sum := by
  rw [groups, List.map_map]
  exact sum_by_keys (List.nodup_dedup _)
    (fun x hx => List.mem_dedup.mpr (List.mem_map_of_mem hx)) f

/-- The sizes of the groups add up to the size of the list. -/
theorem length_groups (key : α → κ) (l : List α) :
    ((groups key l).map fun g => g.2.length).sum = l.length := by
  have hones : ∀ l : List α, (l.map fun _ => (1 : ℕ)).sum = l.length := by
    intro l
    rw [List.map_const', List.sum_replicate]
    exact Nat.mul_one _
  have h := sum_groups key l fun _ => (1 : ℕ)
  simp only [hones] at h
  exact h

end Groups
