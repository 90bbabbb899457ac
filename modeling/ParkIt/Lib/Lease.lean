import Mathlib.Tactic.Common
import Mathlib.Data.List.Basic

/-! Leases that a keeper renews round by round, and that run out by themselves. -/
namespace Lease

/-- One round of a keeper: when it renews, how long it takes, and how long the keeper waits then. -/
structure Round (V : Type) where
  renews : Option (Nat × V) := none
  took : Nat
  wait : Nat

variable {V : Type}

/-- When the round after these begins. -/
def ending (start : Nat) : List (Round V) → Nat
  | [] => start
  | r :: rs => ending (start + r.took + r.wait) rs

/-- The renewals of rounds that begin at `start`, each with its time. -/
def renewals (start : Nat) : List (Round V) → List (Nat × V)
  | [] => []
  | r :: rs =>
    (r.renews.map fun x => (start + x.1, x.2)).toList ++ renewals (start + r.took + r.wait) rs

/-- What a reader finds: the latest renewal, unless it has run out. -/
def lookup (ttl : Nat) (writes : List (Nat × V)) (now : Nat) : Option (Nat × V) :=
  (writes.filter (·.1 ≤ now)).getLast?.filter fun w => now < w.1 + ttl

/-- How long a round takes at most, how long it goes on after its renewal, and the waits. -/
structure Pace where
  took : Nat
  lag : Nat
  pause : Nat
  retry : Nat

structure Pace.Keeps (p : Pace) (r : Round V) : Prop where
  took : r.took ≤ p.took
  renews : ∀ x ∈ r.renews, x.1 ≤ r.took ∧ r.took ≤ x.1 + p.lag ∧ r.wait ≤ p.pause
  retry : r.renews = none → r.wait ≤ p.retry

/-- No more than `k` rounds in a row go by without a renewal. -/
def DryAtMost (k : Nat) (rounds : List (Round V)) : Prop :=
  ∀ pre dry post, rounds = pre ++ dry ++ post → (∀ r ∈ dry, r.renews = none) → dry.length ≤ k

/-- The longest time from one renewal to the next. -/
def Pace.gap (p : Pace) (k : Nat) : Nat := p.lag + p.pause + k * (p.took + p.retry) + p.took

section Times
variable {p : Pace} {k start now ttl : Nat} {rounds : List (Round V)} {r : Round V}

theorem le_ending (rounds : List (Round V)) (start : Nat) : start ≤ ending start rounds := by
  induction rounds generalizing start with
  | nil => exact Nat.le_refl start
  | cons r rs ih =>
    have hrest := ih (start + r.took + r.wait)
    simp only [ending]
    omega

theorem ending_append (start : Nat) (rs rs' : List (Round V)) :
    ending start (rs ++ rs') = ending (ending start rs) rs' := by
  induction rs generalizing start with
  | nil => rfl
  | cons r rs ih => exact ih _

theorem renewals_append (start : Nat) (rs rs' : List (Round V)) :
    renewals start (rs ++ rs') = renewals start rs ++ renewals (ending start rs) rs' := by
  induction rs generalizing start with
  | nil => rfl
  | cons r rs ih => simp only [List.cons_append, renewals, ending, ih, List.append_assoc]

theorem renewals_dry (h : ∀ r ∈ rounds, r.renews = none) : renewals start rounds = [] := by
  induction rounds generalizing start with
  | nil => rfl
  | cons r rs ih =>
    have hnone := h r List.mem_cons_self
    have hrest : renewals (start + r.took + r.wait) rs = [] :=
      ih fun q hq => h q (List.mem_cons_of_mem r hq)
    simp only [renewals, hnone, hrest, Option.map_none, Option.toList_none, List.nil_append]

theorem dryAtMost_of_count (h : rounds.countP (·.renews.isNone) ≤ k) : DryAtMost k rounds := by
  rintro pre dry post rfl hdry
  have hall : dry.countP (·.renews.isNone) = dry.length :=
    List.countP_eq_length.mpr fun r hr => by rw [hdry r hr]; rfl
  rw [List.countP_append, List.countP_append] at h
  omega

/-- The time between renewals, counted from one at `last` with `dry` rounds behind it. -/
theorem renewed_in_time (hkeeps : ∀ r ∈ rounds, p.Keeps r) {last : Nat} {v : V}
    {dry : List (Round V)} (hdry : ∀ r ∈ dry, r.renews = none)
    (hmost : DryAtMost k (dry ++ rounds)) (hlast : last ≤ start)
    (hstart : start ≤ last + p.lag + p.pause + dry.length * (p.took + p.retry))
    (hnow : last ≤ now) (hend : now < ending start rounds) :
    ∃ w ∈ (last, v) :: renewals start rounds, w.1 ≤ now ∧ now < w.1 + p.gap k := by
  induction rounds generalizing start last v dry with
  | nil =>
    have hlen : dry.length ≤ k := hmost [] dry [] (by simp) hdry
    have hmul := Nat.mul_le_mul_right (p.took + p.retry) hlen
    simp only [ending] at hend
    refine ⟨(last, v), List.mem_cons_self, hnow, ?_⟩
    simp only [Pace.gap]
    omega
  | cons r rs ih =>
    have hlen : dry.length ≤ k := hmost [] dry (r :: rs) (by simp) hdry
    have hmul := Nat.mul_le_mul_right (p.took + p.retry) hlen
    have hr := hkeeps r List.mem_cons_self
    have hrs : ∀ q ∈ rs, p.Keeps q := fun q hq => hkeeps q (List.mem_cons_of_mem r hq)
    have htook := hr.took
    cases hrenews : r.renews with
    | none =>
      -- one more round without a renewal
      have hwait := hr.retry hrenews
      have hdry' : ∀ q ∈ dry ++ [r], q.renews = none := by
        intro q hq
        rcases List.mem_append.mp hq with hq | hq
        · exact hdry q hq
        · rw [List.mem_singleton.mp hq, hrenews]
      have hmost' : DryAtMost k ((dry ++ [r]) ++ rs) := by simpa using hmost
      have hlength : (dry ++ [r]).length * (p.took + p.retry) =
          dry.length * (p.took + p.retry) + (p.took + p.retry) := by
        rw [List.length_append, List.length_singleton, Nat.succ_mul]
      have hrest : ∃ w ∈ (last, v) :: renewals (start + r.took + r.wait) rs,
          w.1 ≤ now ∧ now < w.1 + p.gap k :=
        ih hrs hdry' hmost' (by omega) (by omega) hnow hend
      simpa only [renewals, hrenews, Option.map_none, Option.toList_none, List.nil_append]
        using hrest
    | some x =>
      obtain ⟨hx, hlag, hpause⟩ := hr.renews x hrenews
      have hwrites : renewals start (r :: rs) =
          (start + x.1, x.2) :: renewals (start + r.took + r.wait) rs := by
        simp only [renewals, hrenews, Option.map_some, Option.toList_some, List.cons_append,
          List.nil_append]
      rw [hwrites]
      by_cases hbefore : now < start + x.1
      · refine ⟨(last, v), List.mem_cons_self, hnow, ?_⟩
        simp only [Pace.gap]
        omega
      · have hmost' : DryAtMost k ([] ++ rs) := by
          intro pre dry' post heq hdry'
          exact hmost (dry ++ r :: pre) dry' post (by simpa using heq) hdry'
        have hrest : ∃ w ∈ (start + x.1, x.2) :: renewals (start + r.took + r.wait) rs,
            w.1 ≤ now ∧ now < w.1 + p.gap k :=
          ih hrs (fun q hq => absurd hq List.not_mem_nil) hmost' (by omega)
            (by simp only [List.length_nil, Nat.zero_mul]; omega) (by omega) hend
        obtain ⟨w, hw, hle, hlt⟩ := hrest
        exact ⟨w, List.mem_cons_of_mem _ hw, hle, hlt⟩

/-- The first renewal, with the rounds around it. -/
theorem split_at_first {first : Nat × V} (h : (renewals start rounds).head? = some first) :
    ∃ pre r post x, rounds = pre ++ r :: post ∧ (∀ q ∈ pre, q.renews = none) ∧
      r.renews = some x ∧ first = (ending start pre + x.1, x.2) := by
  induction rounds generalizing start with
  | nil => cases h
  | cons r rs ih =>
    cases hrenews : r.renews with
    | none =>
      simp only [renewals, hrenews, Option.map_none, Option.toList_none, List.nil_append] at h
      obtain ⟨pre, q, post, x, rfl, hpre, hq, hfirst⟩ := ih h
      refine ⟨r :: pre, q, post, x, rfl, ?_, hq, hfirst⟩
      exact List.forall_mem_cons.mpr ⟨hrenews, hpre⟩
    | some x =>
      simp only [renewals, hrenews, Option.map_some, Option.toList_some, List.cons_append,
        List.head?_cons, Option.some.injEq] at h
      exact ⟨[], r, rs, x, rfl, fun q hq => absurd hq List.not_mem_nil, hrenews, h.symm⟩

/-- From the first renewal to the end of the rounds there is always one that is recent enough. -/
theorem renewed_recently (hkeeps : ∀ r ∈ rounds, p.Keeps r) (hdry : DryAtMost k rounds)
    {first : Nat × V} (hfirst : (renewals start rounds).head? = some first) (hnow : first.1 ≤ now)
    (hend : now < ending start rounds) :
    ∃ w ∈ renewals start rounds, w.1 ≤ now ∧ now < w.1 + p.gap k := by
  obtain ⟨pre, r, post, x, rfl, hpre, hr, rfl⟩ := split_at_first hfirst
  have hmost : DryAtMost k ([] ++ post) := by
    intro pre' dry post' heq hdry'
    exact hdry (pre ++ r :: pre') dry post' (by rw [List.nil_append] at heq; simp [heq]) hdry'
  obtain ⟨hx, hlag, hpause⟩ := (hkeeps r (by simp)).renews x hr
  rw [ending_append] at hend
  rw [renewals_append, renewals_dry hpre, List.nil_append]
  simp only [renewals, hr, Option.map_some, Option.toList_some, List.cons_append, List.nil_append]
  exact renewed_in_time (fun q hq => hkeeps q (by simp [hq]))
    (fun q hq => absurd hq List.not_mem_nil) hmost (by omega)
    (by simp only [List.length_nil, Nat.zero_mul]; omega) hnow hend

theorem le_of_mem_renewals (hkeeps : ∀ r ∈ rounds, p.Keeps r) {w : Nat × V}
    (hw : w ∈ renewals start rounds) : start ≤ w.1 := by
  induction rounds generalizing start with
  | nil => cases hw
  | cons r rs ih =>
    rcases List.mem_append.mp hw with hw | hw
    · obtain ⟨x, -, rfl⟩ := Option.map_eq_some_iff.mp (Option.mem_toList.mp hw)
      exact Nat.le_add_right start x.1
    · have hrest := ih (fun q hq => hkeeps q (List.mem_cons_of_mem r hq)) hw
      omega

theorem le_ending_of_mem (hkeeps : ∀ r ∈ rounds, p.Keeps r) {w : Nat × V}
    (hw : w ∈ renewals start rounds) : w.1 ≤ ending start rounds := by
  induction rounds generalizing start with
  | nil => cases hw
  | cons r rs ih =>
    rcases List.mem_append.mp hw with hw | hw
    · obtain ⟨x, hx, rfl⟩ := Option.map_eq_some_iff.mp (Option.mem_toList.mp hw)
      have hin := ((hkeeps r List.mem_cons_self).renews x hx).1
      have hend := le_ending rs (start + r.took + r.wait)
      simp only [ending]
      omega
    · exact ih (fun q hq => hkeeps q (List.mem_cons_of_mem r hq)) hw

theorem renewals_sorted (hkeeps : ∀ r ∈ rounds, p.Keeps r) :
    (renewals start rounds).Pairwise fun w w' => w.1 ≤ w'.1 := by
  induction rounds generalizing start with
  | nil => exact List.Pairwise.nil
  | cons r rs ih =>
    have hrs : ∀ q ∈ rs, p.Keeps q := fun q hq => hkeeps q (List.mem_cons_of_mem r hq)
    refine List.pairwise_append.mpr ⟨?_, ih hrs, ?_⟩
    · cases r.renews <;> simp
    · intro w hw w' hw'
      obtain ⟨x, hx, rfl⟩ := Option.map_eq_some_iff.mp (Option.mem_toList.mp hw)
      have hle := le_of_mem_renewals hrs hw'
      have hin := ((hkeeps r List.mem_cons_self).renews x hx).1
      dsimp only
      omega

/-- A renewal, rounds without one, and a renewal again. -/
theorem renewals_between {r₁ r r₂ : Round V} (x₁ x₂ : Nat × V) (h₁ : r₁.renews = some x₁)
    (h : r.renews = none) (h₂ : r₂.renews = some x₂) :
    renewals start (r₁ :: (List.replicate k r ++ [r₂])) = [(start + x₁.1, x₁.2),
      (start + r₁.took + r₁.wait + k * (r.took + r.wait) + x₂.1, x₂.2)] := by
  have hending : ∀ n m, ending m (List.replicate n r) = m + n * (r.took + r.wait) := by
    intro n
    induction n with
    | zero => simp [ending]
    | succ n ih =>
      intro m
      rw [List.replicate_succ, ending, ih, Nat.succ_mul]
      omega
  have hdry : ∀ q ∈ List.replicate k r, q.renews = none := by
    intro q hq
    rw [List.eq_of_mem_replicate hq, h]
  rw [renewals, renewals_append, renewals_dry hdry, hending]
  simp only [renewals, h₁, h₂, Option.map_some, Option.toList_some, List.cons_append,
    List.nil_append, List.append_nil]

end Times

section Lookup
variable {ttl now : Nat} {writes : List (Nat × V)} {w : Nat × V}

theorem le_latest {last : Nat × V} (hsorted : writes.Pairwise fun w w' => w.1 ≤ w'.1)
    (hlast : (writes.filter (·.1 ≤ now)).getLast? = some last) (hw : w ∈ writes)
    (hle : w.1 ≤ now) : w.1 ≤ last.1 := by
  obtain ⟨pre, hpre⟩ := List.getLast?_eq_some_iff.mp hlast
  have hin : w ∈ pre ++ [last] := hpre ▸ List.mem_filter.mpr ⟨hw, by simpa using hle⟩
  have hfiltered := hsorted.filter (fun w => decide (w.1 ≤ now))
  rw [hpre] at hfiltered
  rcases List.mem_append.mp hin with hin | hin
  · exact (List.pairwise_append.mp hfiltered).2.2 w hin last (List.mem_singleton.mpr rfl)
  · obtain rfl := List.mem_singleton.mp hin
    exact Nat.le_refl w.1

/-- The reader finds the latest of the renewals. -/
theorem lookup_eq_some (hsorted : writes.Pairwise fun w w' => w.1 ≤ w'.1)
    (h : lookup ttl writes now = some w) : w ∈ writes ∧ w.1 ≤ now ∧ now < w.1 + ttl ∧
      ∀ w' ∈ writes, w'.1 ≤ now → w'.1 ≤ w.1 := by
  obtain ⟨hlast, hheld⟩ := Option.filter_eq_some_iff.mp h
  have hmem := List.mem_filter.mp (List.mem_of_getLast? hlast)
  exact ⟨hmem.1, by simpa using hmem.2, by simpa using hheld,
    fun w' hw' hle => le_latest hsorted hlast hw' hle⟩

/-- It finds one where there is one that has not run out. -/
theorem lookup_isSome_iff (hsorted : writes.Pairwise fun w w' => w.1 ≤ w'.1) :
    (lookup ttl writes now).isSome = true ↔ ∃ w ∈ writes, w.1 ≤ now ∧ now < w.1 + ttl := by
  constructor
  · intro h
    obtain ⟨w, hw⟩ := Option.isSome_iff_exists.mp h
    obtain ⟨hmem, hle, hlt, -⟩ := lookup_eq_some hsorted hw
    exact ⟨w, hmem, hle, hlt⟩
  · rintro ⟨w, hw, hle, hlt⟩
    cases hlast : (writes.filter (·.1 ≤ now)).getLast? with
    | none =>
      have hin : w ∈ writes.filter (·.1 ≤ now) := List.mem_filter.mpr ⟨hw, by simpa using hle⟩
      rw [List.getLast?_eq_none_iff.mp hlast] at hin
      cases hin
    | some last =>
      have hlatest := le_latest hsorted hlast hw hle
      unfold lookup
      rw [hlast, Option.filter_some, if_pos (by simp only [decide_eq_true_eq]; omega)]
      rfl

end Lookup
end Lease
