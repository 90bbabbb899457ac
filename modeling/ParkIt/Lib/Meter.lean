import Mathlib.Algebra.Order.BigOperators.Group.Finset
import Mathlib.Order.Bounds.Basic

/-! Durations charged by the started unit, and totals capped block by block. -/
namespace Meter

section Started
variable {α : Type*} [AddCommMonoid α] [LinearOrder α] {d x y : α} {b k m n N : ℕ}

/-- `n` units of length `d` have started by `x`; the first one counts from the outset. -/
def Started (d x : α) (n : ℕ) : Prop := IsLeast {m : ℕ | 0 < m ∧ x ≤ m • d} n

theorem Started.unique (hn : Started d x n) (hm : Started d x m) : n = m := IsLeast.unique hn hm

theorem Started.pos (h : Started d x n) : 0 < n := h.1.1

theorem Started.mono (hxy : x ≤ y) (hx : Started d x n) (hy : Started d y m) : n ≤ m :=
  hx.2 ⟨hy.1.1, hxy.trans hy.1.2⟩

/-- Whole units added to a duration that is not zero are counted one by one. -/
theorem Started.add [IsOrderedCancelAddMonoid α] (hd : 0 ≤ d) (hx : 0 < x) (h : Started d x n)
    (k : ℕ) : Started d (x + k • d) (n + k) := by
  refine ⟨⟨Nat.add_pos_left h.pos k, ?_⟩, ?_⟩
  · rw [add_nsmul]
    exact add_le_add_left h.1.2 _
  · rintro m ⟨-, hm⟩
    obtain hmk | hkm := Nat.le_total m k
    · have hle : x + k • d ≤ k • d := hm.trans (nsmul_le_nsmul_left hd hmk)
      exact absurd (add_le_iff_nonpos_left.mp hle) (not_le.mpr hx)
    · obtain ⟨j, rfl⟩ := Nat.exists_eq_add_of_le hkm
      rw [add_nsmul, add_comm] at hm
      have hj : x ≤ j • d := (add_le_add_iff_left _).mp hm
      have hpos : 0 < j := by
        refine Nat.pos_of_ne_zero fun h0 => not_lt.mpr hj ?_
        rw [h0, zero_nsmul]
        exact hx
      have := h.2 ⟨hpos, hj⟩
      omega

/-- Blocks of `b` units start as the units are counted. -/
theorem Started.blocks [IsOrderedCancelAddMonoid α] (hd : 0 ≤ d) (hb : 0 < b)
    (h : Started d x n) (hN : Started (b • d) x N) : Started b n N := by
  have hiff : ∀ m, 0 < m → (x ≤ m • (b • d) ↔ n ≤ m * b) := by
    intro m hm
    rw [← mul_nsmul']
    exact ⟨fun hx => h.2 ⟨Nat.mul_pos hm hb, hx⟩,
      fun hn => h.1.2.trans (nsmul_le_nsmul_left hd hn)⟩
  exact ⟨⟨hN.pos, (hiff N hN.pos).mp hN.1.2⟩,
    fun m hm => hN.2 ⟨hm.1, (hiff m hm.1).mpr hm.2⟩⟩

end Started

section Blocks
variable {M : Type*} [AddCommMonoid M]

/-- What the units of the `j`-th block of length `b` cost, of `n` units in all. -/
def blockSum (b : ℕ) (price : ℕ → M) (n j : ℕ) : M := ∑ i ∈ Finset.range n with i / b = j, price i

theorem sum_blockSum {b n N : ℕ} (h : Started b n N) (price : ℕ → M) :
    ∑ j ∈ Finset.range N, blockSum b price n j = ∑ i ∈ Finset.range n, price i := by
  refine Finset.sum_fiberwise_of_maps_to (fun i hi => ?_) price
  have hi' : i < n := Finset.mem_range.mp hi
  have hn : n ≤ N * b := h.1.2
  exact Finset.mem_range.mpr (Nat.div_lt_of_lt_mul (by rw [Nat.mul_comm]; omega))

end Blocks

section Capped
variable {ι M : Type*} [AddCommMonoid M] [LinearOrder M] [IsOrderedCancelAddMonoid M]
  {s : Finset ι} {f : ι → M} {c : M}

/-- A cap on the whole is a cap on each part exactly when the parts lie on one side of it. -/
theorem sum_min_eq_iff :
    ∑ j ∈ s, min c (f j) = min (s.card • c) (∑ j ∈ s, f j) ↔
      (∀ j ∈ s, f j ≤ c) ∨ ∀ j ∈ s, c ≤ f j := by
  constructor
  · intro heq
    by_contra hmixed
    push Not at hmixed
    obtain ⟨⟨j, hj, hcj⟩, k, hk, hkc⟩ := hmixed
    have hcap : ∑ j ∈ s, min c (f j) < s.card • c := by
      rw [← Finset.sum_const]
      exact Finset.sum_lt_sum (fun _ _ => min_le_left _ _) ⟨k, hk, min_lt_of_right_lt hkc⟩
    have hsum : ∑ j ∈ s, min c (f j) < ∑ j ∈ s, f j :=
      Finset.sum_lt_sum (fun _ _ => min_le_right _ _) ⟨j, hj, min_lt_of_left_lt hcj⟩
    exact absurd heq (lt_min hcap hsum).ne
  · rintro (hle | hge)
    · rw [Finset.sum_congr rfl fun j hj => min_eq_right (hle j hj)]
      exact (min_eq_right (Finset.sum_le_card_nsmul s f c hle)).symm
    · rw [Finset.sum_congr rfl fun j hj => min_eq_left (hge j hj), Finset.sum_const]
      exact (min_eq_left (Finset.card_nsmul_le_sum s f c hge)).symm

end Capped

end Meter
