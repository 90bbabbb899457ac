import Mathlib.Algebra.BigOperators.Group.List.Basic
import Mathlib.Tactic.Ring

/-! Blocks that are joined with their neighbours, and what a lower bound on the length tells of
them. -/
namespace Merging

variable {α : Type*} {min : Nat} {bs : List (List α)} {gs : List (List (List α))}

/-- The blocks that are long enough. -/
def long (min : Nat) (bs : List (List α)) : List (List α) := bs.filter (min ≤ ·.length)

/-- A measure that grows when blocks are joined. -/
def squares (bs : List (List α)) : Nat := (bs.map fun b => b.length * b.length).sum

@[simp] theorem squares_nil : squares ([] : List (List α)) = 0 := rfl

@[simp] theorem squares_cons (b : List α) : squares (b :: bs) = b.length * b.length + squares bs :=
  rfl

theorem squares_append (cs : List (List α)) : squares (bs ++ cs) = squares bs + squares cs := by
  simp [squares]

@[simp] theorem long_append (cs : List (List α)) :
    long min (bs ++ cs) = long min bs ++ long min cs := List.filter_append ..

theorem squares_long_le : squares (long min bs) ≤ squares bs := by
  induction bs with
  | nil => exact Nat.le_refl 0
  | cons b bs ih =>
    rw [long, List.filter_cons]
    split
    · exact Nat.add_le_add_left ih _
    · exact ih.trans (Nat.le_add_left ..)

theorem squares_le_join : squares bs ≤ bs.flatten.length * bs.flatten.length := by
  induction bs with
  | nil => exact Nat.zero_le _
  | cons b bs ih =>
    rw [squares_cons, List.flatten_cons, List.length_append]
    have hsquare : (b.length + bs.flatten.length) * (b.length + bs.flatten.length) =
        b.length * b.length + bs.flatten.length * bs.flatten.length +
          2 * (b.length * bs.flatten.length) := by ring
    omega

/-- Two blocks with something in them count for more when they are joined. -/
theorem squares_lt_join (hne : ∀ b ∈ bs, b ≠ []) (htwo : 2 ≤ bs.length) :
    squares bs < bs.flatten.length * bs.flatten.length := by
  cases bs with
  | nil => exact absurd htwo (Nat.not_succ_le_zero 1)
  | cons b bs =>
    cases bs with
    | nil => exact absurd htwo (Nat.lt_irrefl 1)
    | cons c bs =>
      have hle : squares (c :: bs) ≤ (c :: bs).flatten.length * (c :: bs).flatten.length :=
        squares_le_join
      have hb : 0 < b.length := List.length_pos_iff.mpr (hne b List.mem_cons_self)
      have hc : 0 < (c :: bs).flatten.length := by
        have := List.length_pos_iff.mpr (hne c (List.mem_cons_of_mem _ List.mem_cons_self))
        rw [List.flatten_cons, List.length_append]
        omega
      have hcross : 0 < b.length * (c :: bs).flatten.length := Nat.mul_pos hb hc
      rw [squares_cons, List.flatten_cons, List.length_append]
      have hsquare : (b.length + (c :: bs).flatten.length) * (b.length + (c :: bs).flatten.length) =
          b.length * b.length + (c :: bs).flatten.length * (c :: bs).flatten.length +
            2 * (b.length * (c :: bs).flatten.length) := by ring
      omega

/-- The group is one block, or too short as a whole. -/
def Harmless (min : Nat) (g : List (List α)) : Prop := g.length ≤ 1 ∨ g.flatten.length < min

instance (g : List (List α)) : Decidable (Harmless min g) :=
  inferInstanceAs (Decidable (g.length ≤ 1 ∨ g.flatten.length < min))

theorem length_le_join {b : List α} (h : b ∈ bs) : b.length ≤ bs.flatten.length :=
  (List.sublist_flatten_of_mem h).length_le

theorem long_short (h : bs.flatten.length < min) : long min bs = [] := by
  refine List.filter_eq_nil_iff.mpr fun b hb hlong => ?_
  have hle := length_le_join hb
  have hmin : min ≤ b.length := of_decide_eq_true hlong
  omega

theorem long_harmless {g : List (List α)} (hg : g ≠ []) (h : Harmless min g) :
    long min [g.flatten] = long min g := by
  rcases h with hone | hshort
  · cases g with
    | nil => exact absurd rfl hg
    | cons b g =>
      have hnil : g = [] := by
        cases g with
        | nil => rfl
        | cons c g => simp at hone
      rw [hnil, List.flatten_cons, List.flatten_nil, List.append_nil]
  · rw [long_short hshort]
    exact List.filter_eq_nil_iff.mpr fun b hb hlong => by
      obtain rfl := List.mem_singleton.mp hb
      exact absurd (of_decide_eq_true hlong) (Nat.not_le.mpr hshort)

theorem long_one {b : List α} (h : min ≤ b.length) : long min [b] = [b] :=
  List.filter_cons_of_pos (decide_eq_true h)

theorem squares_long_join (g : List (List α)) :
    squares (long min g) ≤ squares (long min [g.flatten]) := by
  by_cases hlong : min ≤ g.flatten.length
  · rw [long_one hlong]
    exact squares_long_le.trans squares_le_join
  · rw [long_short (Nat.lt_of_not_le hlong)]
    exact Nat.zero_le _

theorem squares_long_join_lt {g : List (List α)} (hne : ∀ b ∈ g, b ≠ [])
    (h : ¬ Harmless min g) : squares (long min g) < squares (long min [g.flatten]) := by
  rw [Harmless, not_or, Nat.not_le, Nat.not_lt] at h
  rw [long_one h.2]
  exact squares_long_le.trans_lt (squares_lt_join hne h.1)

theorem long_cons_join (g : List (List α)) (gs : List (List (List α))) :
    long min ((g :: gs).map List.flatten) =
      long min [g.flatten] ++ long min (gs.map List.flatten) := by
  rw [List.map_cons, ← List.singleton_append, long_append]

theorem squares_groups :
    squares (long min gs.flatten) ≤ squares (long min (gs.map List.flatten)) := by
  induction gs with
  | nil => exact Nat.le_refl _
  | cons g gs ih =>
    rw [long_cons_join, List.flatten_cons, long_append, squares_append, squares_append]
    exact Nat.add_le_add (squares_long_join g) ih

/-- Joining blocks leaves the long ones as they are exactly where only short ones are joined. -/
theorem long_join_iff (hgroups : ∀ g ∈ gs, g ≠ []) (hblocks : ∀ g ∈ gs, ∀ b ∈ g, b ≠ []) :
    long min (gs.map List.flatten) = long min gs.flatten ↔ ∀ g ∈ gs, Harmless min g := by
  induction gs with
  | nil => exact ⟨fun _ g hg => absurd hg List.not_mem_nil, fun _ => rfl⟩
  | cons g gs ih =>
    have hrest := ih (fun x hx => hgroups x (List.mem_cons_of_mem _ hx)) fun x hx =>
      hblocks x (List.mem_cons_of_mem _ hx)
    rw [long_cons_join, List.flatten_cons, long_append, List.forall_mem_cons, ← hrest]
    by_cases hg : Harmless min g
    · rw [long_harmless (hgroups g List.mem_cons_self) hg, List.append_cancel_left_eq]
      exact (and_iff_right hg).symm
    · refine iff_of_false (fun heq => ?_) fun h => hg h.1
      -- The squares grow with this group, and shrink with none of the others.
      have hlt := squares_long_join_lt (hblocks g List.mem_cons_self) hg
      have hle : squares (long min gs.flatten) ≤ squares (long min (gs.map List.flatten)) :=
        squares_groups
      have hsame := congrArg squares heq
      rw [squares_append, squares_append] at hsame
      omega

end Merging
