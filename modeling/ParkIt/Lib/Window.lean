import Mathlib.Algebra.Order.Group.Defs
import Mathlib.Data.List.Sort

/-! Admission by a sliding window, which holds the newest of the admitted moments. -/
namespace Window

variable {T : Type} [AddCommGroup T] [LinearOrder T] [IsOrderedAddMonoid T]

/-- The moments that are younger than the window. -/
def young (width now : T) (ts : List T) : List T := ts.filter (now - width < ·)

/-- The moments in the half-open window that ends at `t`. -/
def within (width t : T) (ts : List T) : List T := ts.filter fun a => t - width < a ∧ a ≤ t

/-- What is kept of the admitted moments, and when the old ones were last taken out. -/
structure Tracks (limit : Nat) (width : T) (admitted kept : List T) (last : T) : Prop where
  sorted : admitted.Pairwise (· ≤ ·)
  past : ∀ a ∈ admitted, a ≤ last
  part : kept.Sublist admitted
  /-- A window without a width holds nothing but the moment at which it was looked at. -/
  fresh : ∀ a ∈ kept, last - width < a ∨ a = last
  complete : (young width last admitted).Sublist kept
  atMost : kept.length ≤ limit
  bounded : ∀ t, (within width t admitted).length ≤ limit

section Lemmas
variable {limit : Nat} {width now now' t : T} {ts admitted kept : List T}

omit [IsOrderedAddMonoid T] in
theorem mem_young {a : T} : a ∈ young width now ts ↔ a ∈ ts ∧ now - width < a := by
  rw [young, List.mem_filter, decide_eq_true_eq]

/-- What is young later on is young now. -/
theorem young_young (h : now ≤ now') :
    young width now' (young width now ts) = young width now' ts := by
  rw [young, young, List.filter_filter]
  refine List.filter_congr fun a _ => ?_
  have hlt : now' - width < a → now - width < a := (sub_le_sub_right h width).trans_lt
  by_cases ha : now' - width < a
  · simp [ha, hlt ha]
  · simp [ha]

variable (ts) in
/-- A window that has not ended yet holds only what is young. -/
theorem within_sublist (h : now ≤ t) : (within width t ts).Sublist (young width now ts) := by
  refine List.monotone_filter_right _ fun a ha => ?_
  simp only [decide_eq_true_eq] at ha ⊢
  exact (sub_le_sub_right h width).trans_lt ha.1

omit [IsOrderedAddMonoid T] in
theorem tracks_nil (limit : Nat) (width now : T) : Tracks limit width [] [] now where
  sorted := .nil
  past := nofun
  part := .slnil
  fresh := nofun
  complete := .slnil
  atMost := Nat.zero_le _
  bounded _ := Nat.zero_le _

omit [IsOrderedAddMonoid T] in
theorem Tracks.kept_sorted (h : Tracks limit width admitted kept now) : kept.Pairwise (· ≤ ·) :=
  h.sorted.sublist h.part

/-- The old moments are taken out. -/
theorem Tracks.prune (h : Tracks limit width admitted kept now) (hle : now ≤ now') :
    Tracks limit width admitted (young width now' kept) now' where
  sorted := h.sorted
  past a ha := (h.past a ha).trans hle
  part := List.filter_sublist.trans h.part
  fresh _ ha := .inl (mem_young.mp ha).2
  complete := by
    rw [← young_young hle]
    exact h.complete.filter _
  atMost := (List.length_filter_le ..).trans h.atMost
  bounded := h.bounded

/-- A pruned window that has room admits one more. -/
theorem Tracks.admit (h : Tracks limit width admitted kept now)
    (hyoung : ∀ a ∈ kept, now - width < a) (hroom : kept.length < limit) :
    Tracks limit width (admitted ++ [now]) (kept ++ [now]) now where
  sorted := by
    refine List.pairwise_append.mpr ⟨h.sorted, List.pairwise_singleton .., fun a ha b hb => ?_⟩
    obtain rfl := List.mem_singleton.mp hb
    exact h.past a ha
  past a ha := by
    rcases List.mem_append.mp ha with ha | ha
    · exact h.past a ha
    · exact (List.mem_singleton.mp ha).le
  part := h.part.append (.refl _)
  fresh a ha := by
    rcases List.mem_append.mp ha with ha | ha
    · exact .inl (hyoung a ha)
    · exact .inr (List.mem_singleton.mp ha)
  complete := by
    rw [young, List.filter_append]
    exact h.complete.append List.filter_sublist
  atMost := by
    rw [List.length_append, List.length_singleton]
    exact hroom
  bounded t := by
    rw [within, List.filter_append, List.length_append]
    by_cases hnow : t - width < now ∧ now ≤ t
    · -- What shares a window with the new moment is young, and so it has been kept.
      have hold := ((within_sublist admitted hnow.2).trans h.complete).length_le
      have hnew := List.length_filter_le (fun a => decide (t - width < a ∧ a ≤ t)) [now]
      rw [List.length_singleton] at hnew
      rw [within] at hold
      omega
    · rw [List.filter_cons_of_neg (by simpa using hnow), List.filter_nil, List.length_nil,
        Nat.add_zero]
      exact h.bounded t

end Lemmas
end Window
