import Mathlib.Data.List.Nodup
import Mathlib.Order.MinMax

/-! Sorted sets: members with scores, each member once. -/
namespace Scores

structure ScoreSet (M S : Type) where
  entries : List (M × S) := []
  nodup : (entries.map Prod.fst).Nodup := by exact List.nodup_nil

namespace ScoreSet
variable {M S : Type} [DecidableEq M] [LinearOrder S] {x : ScoreSet M S} {m : M} {s low high : S}

instance : EmptyCollection (ScoreSet M S) := ⟨{}⟩

def scores (x : ScoreSet M S) : List S := x.entries.map Prod.snd

def card (x : ScoreSet M S) : Nat := x.entries.length

def lowest (x : ScoreSet M S) : Option S := x.scores.min?

/-- A member that is there already only changes its score. -/
def add (x : ScoreSet M S) (m : M) (s : S) : ScoreSet M S where
  entries := x.entries.filter (·.1 ≠ m) ++ [(m, s)]
  nodup := by
    rw [List.map_append, List.nodup_append]
    refine ⟨x.nodup.sublist (List.filter_sublist.map Prod.fst), List.nodup_singleton m, ?_⟩
    rintro a ha b hb rfl
    obtain ⟨e, he, rfl⟩ := List.mem_map.mp ha
    have hne := (List.mem_filter.mp he).2
    exact absurd (List.mem_singleton.mp hb) (of_decide_eq_true hne)

def removeRangeByScore (x : ScoreSet M S) (low high : S) : ScoreSet M S where
  entries := x.entries.filter fun e => ¬ (low ≤ e.2 ∧ e.2 ≤ high)
  nodup := x.nodup.sublist (List.filter_sublist.map Prod.fst)

instance : Membership M (ScoreSet M S) := ⟨fun x m => m ∈ x.entries.map Prod.fst⟩

instance (m : M) (x : ScoreSet M S) : Decidable (m ∈ x) :=
  inferInstanceAs (Decidable (m ∈ x.entries.map Prod.fst))

omit [DecidableEq M] [LinearOrder S] in
@[simp] theorem scores_empty : (∅ : ScoreSet M S).scores = [] := rfl

omit [DecidableEq M] [LinearOrder S] in
theorem card_eq_length : x.card = x.scores.length := (List.length_map ..).symm

omit [LinearOrder S] in
/-- The new score comes last, and a member that is there already loses its old one. -/
theorem add_scores : ∃ ys, ys.Sublist x.scores ∧ (x.add m s).scores = ys ++ [s] := by
  refine ⟨(x.entries.filter (·.1 ≠ m)).map Prod.snd, List.filter_sublist.map _, ?_⟩
  exact List.map_append

omit [DecidableEq M] in
theorem removeRangeByScore_scores : (x.removeRangeByScore low high).scores =
    x.scores.filter fun s => ¬ (low ≤ s ∧ s ≤ high) := by
  rw [scores, scores, List.filter_map]
  rfl

end ScoreSet
end Scores
