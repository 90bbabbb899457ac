import ParkIt.Services.Spec
import ParkIt.Settlement.Worker

/-! Which shift is the current one, by the clocks of the facility and by those of the server. -/
namespace ParkIt
open Effects Api Settlement

namespace Shift

/-- The interval from the start to the end, without the end; past midnight where the end does not
come after the start. -/
def Holds (s : Shift) (time : Int) : Prop :=
  if s.startTime < s.endTime then s.startTime ≤ time ∧ time < s.endTime
  else s.startTime ≤ time ∨ time < s.endTime

instance (s : Shift) (time : Int) : Decidable (s.Holds time) := by
  unfold Holds
  infer_instance

/-- The shift ends at a time, and does not run past midnight. -/
def EndsAt (s : Shift) (time : Int) : Prop := s.startTime < s.endTime ∧ s.endTime = time

instance (s : Shift) (time : Int) : Decidable (s.EndsAt time) :=
  inferInstanceAs (Decidable (s.startTime < s.endTime ∧ s.endTime = time))

end Shift

/-- The time of day at a UTC offset. -/
def timeOfDay (offset instant : Int) : Int := (instant + offset) % DateTime.microsPerDay

/-- Times of day, each of them in exactly one shift. -/
structure Partition (shifts : List Shift) : Prop where
  times : ∀ s ∈ shifts, (0 ≤ s.startTime ∧ s.startTime < DateTime.microsPerDay) ∧
    0 ≤ s.endTime ∧ s.endTime < DateTime.microsPerDay
  whole : ∀ time, 0 ≤ time → time < DateTime.microsPerDay → ∃ s ∈ shifts, s.Holds time
  apart : ∀ s ∈ shifts, ∀ q ∈ shifts, ∀ time, 0 ≤ time → time < DateTime.microsPerDay →
    s.Holds time → q.Holds time → s = q

/-- The answer is the shift of the local time where the shifts are a partition, and a shift that
covers the local time wherever one does. -/
structure Current (shifts : List Shift) (time : Int) (answer : Except Exc (Option Shift)) :
    Prop where
  partition : Partition shifts → ∃ s ∈ shifts, answer = .ok (some s) ∧
    ∀ q ∈ shifts, q.Holds time ↔ q = s
  covering : (∃ s ∈ shifts, s.Holds time) → ∃ s ∈ shifts, answer = .ok (some s) ∧ s.Holds time

section Choice
variable {shifts : List Shift} {s q r : Shift} {time now : Int}

/-- What `get_current_shift` chooses from the active shifts, at a time of day in UTC. -/
def chosen (shifts : List Shift) (now : Int) : Option Shift :=
  ((sortShifts shifts).find? (·.covers now)).or (sortShifts shifts).head?

theorem run_getCurrentShift (c : Conn) : (getCurrentShift.run execOp c).1 =
    .ok (chosen (c.world.db.shifts.filter (·.isActive)) (timeOfDay 0 c.world.now)) := by
  rw [timeOfDay, Int.add_zero]
  rfl

theorem mem_sortShifts : s ∈ sortShifts shifts ↔ s ∈ shifts := List.mem_insertionSort _

theorem sortShifts_sorted : (sortShifts shifts).Pairwise fun a b => a.startTime ≤ b.startTime := by
  have hsorted := List.pairwise_insertionSort (fun a b : Shift => a.startTime ≤ b.startTime) shifts
  exact hsorted

theorem chosen_mem (h : chosen shifts now = some s) : s ∈ shifts := by
  rcases Option.or_eq_some_iff.mp h with h | ⟨-, h⟩
  · exact mem_sortShifts.mp (List.mem_of_find?_eq_some h)
  · exact mem_sortShifts.mp (List.mem_of_mem_head? h)

/-- The first of the shifts that cover a time, or of all where none does, by their starts. -/
def Foremost (shifts : List Shift) (now : Int) (s : Shift) : Prop :=
  ∃ pre post, sortShifts shifts = pre ++ s :: post ∧
    (s.covers now ∧ (∀ q ∈ pre, ¬ q.covers now) ∨ pre = [] ∧ ∀ q ∈ shifts, ¬ q.covers now)

theorem chosen_eq_some_iff : chosen shifts now = some s ↔ Foremost shifts now s := by
  constructor
  · intro h
    rcases Option.or_eq_some_iff.mp h with h | ⟨hnone, h⟩
    · obtain ⟨hcovers, pre, post, hlist, hpre⟩ := List.find?_eq_some_iff_append.mp h
      exact ⟨pre, post, hlist, .inl ⟨hcovers, fun q hq => by simpa using hpre q hq⟩⟩
    · obtain ⟨post, hlist⟩ := List.head?_eq_some_iff.mp h
      refine ⟨[], post, hlist, .inr ⟨rfl, fun q hq => ?_⟩⟩
      exact List.find?_eq_none.mp hnone q (mem_sortShifts.mpr hq)
  · rintro ⟨pre, post, hlist, ⟨hcovers, hpre⟩ | ⟨rfl, hnone⟩⟩
    · refine Option.or_eq_some_iff.mpr (.inl ?_)
      exact List.find?_eq_some_iff_append.mpr ⟨hcovers, pre, post, hlist, fun q hq => by
        simpa using hpre q hq⟩
    · refine Option.or_eq_some_iff.mpr (.inr ⟨?_, ?_⟩)
      · exact List.find?_eq_none.mpr fun q hq => hnone q (mem_sortShifts.mp hq)
      · rw [hlist]
        rfl

variable (now) in
theorem chosen_some (hs : s ∈ shifts) : ∃ r, chosen shifts now = some r := by
  cases hlist : sortShifts shifts with
  | nil =>
    have hmem := mem_sortShifts.mpr hs
    rw [hlist] at hmem
    cases hmem
  | cons a as =>
    unfold chosen
    rw [hlist]
    cases (a :: as).find? (·.covers now) with
    | none => exact ⟨a, rfl⟩
    | some r => exact ⟨r, rfl⟩

/-- Of the shifts that cover a time, the one that starts first is found. -/
theorem find_first (hs : s ∈ shifts) (hcovers : s.covers now)
    (hfirst : ∀ q ∈ shifts, q.covers now → q = s ∨ s.startTime < q.startTime) :
    chosen shifts now = some s := by
  have hfind : (sortShifts shifts).find? (·.covers now) = some s := by
    have hmem := mem_sortShifts.mpr hs
    cases hq : (sortShifts shifts).find? (·.covers now) with
    | none => exact absurd hcovers (by simpa using List.find?_eq_none.mp hq s hmem)
    | some q =>
      obtain ⟨hq', pre, post, hlist, hpre⟩ := List.find?_eq_some_iff_append.mp hq
      have hqmem : q ∈ shifts := mem_sortShifts.mp (List.mem_of_find?_eq_some hq)
      rcases hfirst q hqmem hq' with rfl | hlt
      · rfl
      · have hsorted : (pre ++ q :: post).Pairwise fun a b : Shift => a.startTime ≤ b.startTime :=
          hlist ▸ sortShifts_sorted
        rw [hlist] at hmem
        rcases List.mem_append.mp hmem with hmem | hmem
        · have hnot := hpre s hmem
          rw [hcovers] at hnot
          cases hnot
        rcases List.mem_cons.mp hmem with rfl | hmem
        · rfl
        · have hle := (List.pairwise_cons.mp (List.pairwise_append.mp hsorted).2.1).1 s hmem
          omega
  rw [chosen, hfind]
  rfl

theorem covers_iff : s.covers now ↔ s.Holds now ∧ (s.startTime ≠ s.endTime ∨ s.startTime = now) ∨
    s.endTime = now := by
  unfold Shift.covers Shift.Holds
  split <;> split <;> simp only [decide_eq_true_eq] <;> omega

section Partition
variable (hp : Partition shifts) (h0 : 0 ≤ now) (hday : now < DateTime.microsPerDay)
include hp h0 hday

/-- Where a shift ends within the day, it is chosen. -/
theorem chosen_ending (hs : s ∈ shifts) (hends : s.EndsAt now) : chosen shifts now = some s := by
  obtain ⟨hinside, rfl⟩ := hends
  obtain ⟨⟨hstart, -⟩, -⟩ := hp.times s hs
  have hbefore : s.Holds (s.endTime - 1) := by
    unfold Shift.Holds
    rw [if_pos hinside]
    omega
  refine find_first hs (covers_iff.mpr (.inr rfl)) fun q hq hcovers => ?_
  by_cases hqs : q.Holds (s.endTime - 1)
  · exact .inl (hp.apart q hq s hs _ (by omega) (by omega) hqs hbefore)
  · right
    rcases covers_iff.mp hcovers with ⟨hholds, -⟩ | hend
    · unfold Shift.Holds at hholds hqs
      split at hholds <;> rename_i hinside' <;> simp only [hinside', if_true, if_false] at hqs <;>
        omega
    · unfold Shift.Holds at hqs
      split at hqs <;> omega

omit h0 hday in
/-- A shift that ends when it starts is the only one. -/
theorem only_shift (hs : s ∈ shifts) (hall : s.startTime = s.endTime) (hq : q ∈ shifts) :
    q = s := by
  obtain ⟨⟨hstart, hend⟩, -⟩ := hp.times q hq
  refine hp.apart q hq s hs q.startTime hstart hend ?_ ?_
  · unfold Shift.Holds
    split <;> omega
  · unfold Shift.Holds
    split <;> omega

/-- Two shifts that run past midnight would both hold before the end of the day. -/
theorem starts_before (hs : s ∈ shifts) (hholds : s.Holds now) (hq : q ∈ shifts) (hne : q ≠ s)
    (hend : q.endTime = now) (hnot : ¬ q.EndsAt now) : s.startTime < q.startTime := by
  have hstart : q.endTime < q.startTime := by
    by_contra hle
    refine hne (only_shift hp hq ?_ hs).symm
    have hnot' : ¬ q.startTime < q.endTime := fun hlt => hnot ⟨hlt, hend⟩
    omega
  by_contra hlate
  have hwrap : ¬ s.startTime < s.endTime ∧ now < s.endTime := by
    unfold Shift.Holds at hholds
    split at hholds <;> omega
  obtain ⟨⟨-, hs1⟩, -⟩ := hp.times s hs
  obtain ⟨⟨-, hq1⟩, -⟩ := hp.times q hq
  have hq' : ¬ q.startTime < q.endTime := by omega
  refine hne (hp.apart q hq s hs (DateTime.microsPerDay - 1) (by omega) (by omega) ?_ ?_)
  · unfold Shift.Holds
    rw [if_neg hq']
    omega
  · unfold Shift.Holds
    rw [if_neg hwrap.1]
    omega

/-- Otherwise the shift is chosen that the time is in. -/
theorem chosen_holding (hs : s ∈ shifts) (hholds : s.Holds now)
    (hnone : ∀ q ∈ shifts, ¬ q.EndsAt now) : chosen shifts now = some s := by
  by_cases hall : s.startTime = s.endTime
  · obtain ⟨r, hr⟩ := chosen_some now hs
    rw [hr, only_shift hp hs hall (chosen_mem hr)]
  · refine find_first hs (covers_iff.mpr (.inl ⟨hholds, .inl hall⟩)) fun q hq hcovers => ?_
    by_cases hqs : q = s
    · exact .inl hqs
    · rcases covers_iff.mp hcovers with ⟨hqholds, -⟩ | hend
      · exact absurd (hp.apart q hq s hs now h0 hday hqholds hholds) hqs
      · exact .inr (starts_before hp h0 hday hs hholds hq hqs hend (hnone q hq))

/-- Which shift is chosen of a partition. -/
theorem chosen_iff (hs : s ∈ shifts) : chosen shifts now = some s ↔
    s.EndsAt now ∨ s.Holds now ∧ ∀ q ∈ shifts, ¬ q.EndsAt now := by
  constructor
  · intro h
    by_cases hending : ∃ q ∈ shifts, q.EndsAt now
    · obtain ⟨q, hq, hends⟩ := hending
      obtain rfl := Option.some.inj (h.symm.trans (chosen_ending hp h0 hday hq hends))
      exact .inl hends
    · have hnone : ∀ q ∈ shifts, ¬ q.EndsAt now := fun q hq hends => hending ⟨q, hq, hends⟩
      obtain ⟨q, hq, hholds⟩ := hp.whole now h0 hday
      obtain rfl := Option.some.inj (h.symm.trans (chosen_holding hp h0 hday hq hholds hnone))
      exact .inr ⟨hholds, hnone⟩
  · rintro (hends | ⟨hholds, hnone⟩)
    · exact chosen_ending hp h0 hday hs hends
    · exact chosen_holding hp h0 hday hs hholds hnone

end Partition

section Answer
variable {answer : Except Exc (Option Shift)}

theorem current_iff (h0 : 0 ≤ time) (hday : time < DateTime.microsPerDay) :
    Current shifts time (.ok (chosen shifts now)) ↔
      ((∃ s ∈ shifts, s.Holds time) → ∃ s ∈ shifts, chosen shifts now = some s ∧ s.Holds time) := by
  have hanswer : ∀ s, (Except.ok (chosen shifts now) : Except Exc (Option Shift)) = .ok (some s) ↔
      chosen shifts now = some s := fun s => ⟨Except.ok.inj, congrArg Except.ok⟩
  constructor
  · intro h hsome
    obtain ⟨s, hs, hok, hholds⟩ := h.covering hsome
    exact ⟨s, hs, (hanswer s).mp hok, hholds⟩
  · intro h
    refine ⟨fun hp => ?_, fun hsome => ?_⟩
    · obtain ⟨s, hs, hchosen, hholds⟩ := h (hp.whole time h0 hday)
      refine ⟨s, hs, (hanswer s).mpr hchosen, fun q hq => ⟨fun hq' => ?_, ?_⟩⟩
      · exact hp.apart q hq s hs time h0 hday hq' hholds
      · rintro rfl
        exact hholds
    · obtain ⟨s, hs, hchosen, hholds⟩ := h hsome
      exact ⟨s, hs, (hanswer s).mpr hchosen, hholds⟩

end Answer

end Choice

theorem timeOfDay_range (offset instant : Int) :
    0 ≤ timeOfDay offset instant ∧ timeOfDay offset instant < DateTime.microsPerDay :=
  ⟨Int.emod_nonneg _ (by decide), Int.emod_lt_of_pos _ (by decide)⟩

def Conn.activeShifts (c : Conn) : List Shift := c.world.db.shifts.filter (·.isActive)

/-- When the current shift is the one of the local time. -/
theorem getCurrentShift_iff (c : Conn) (offset : Int) :
    (Current c.activeShifts (timeOfDay offset c.world.now) (getCurrentShift.run execOp c).1 ↔
      (∀ s ∈ c.activeShifts, ¬ s.Holds (timeOfDay offset c.world.now)) ∨
      ∃ s, Foremost c.activeShifts (timeOfDay 0 c.world.now) s ∧
        s.Holds (timeOfDay offset c.world.now)) ∧
    (Partition c.activeShifts →
      (Current c.activeShifts (timeOfDay offset c.world.now) (getCurrentShift.run execOp c).1 ↔
        ∀ s ∈ c.activeShifts, s.Holds (timeOfDay offset c.world.now) →
          s.EndsAt (timeOfDay 0 c.world.now) ∨ s.Holds (timeOfDay 0 c.world.now) ∧
            ∀ q ∈ c.activeShifts, ¬ q.EndsAt (timeOfDay 0 c.world.now))) := by
  obtain ⟨h0, hday⟩ := timeOfDay_range offset c.world.now
  obtain ⟨hn0, hnday⟩ := timeOfDay_range 0 c.world.now
  rw [run_getCurrentShift, ← Conn.activeShifts, current_iff h0 hday]
  generalize c.activeShifts = shifts at *
  generalize timeOfDay offset c.world.now = time at *
  generalize timeOfDay 0 c.world.now = now at *
  refine ⟨⟨fun h => ?_, ?_⟩, fun hp => ⟨fun h s hs hholds => ?_, fun h hsome => ?_⟩⟩
  · by_cases hsome : ∃ s ∈ shifts, s.Holds time
    · obtain ⟨s, -, hchosen, hholds⟩ := h hsome
      exact .inr ⟨s, chosen_eq_some_iff.mp hchosen, hholds⟩
    · exact .inl fun s hs hholds => hsome ⟨s, hs, hholds⟩
  · rintro (hnone | ⟨s, hforemost, hholds⟩) ⟨q, hq, hq'⟩
    · exact absurd hq' (hnone q hq)
    · have hchosen := chosen_eq_some_iff.mpr hforemost
      exact ⟨s, chosen_mem hchosen, hchosen, hholds⟩
  · obtain ⟨q, hq, hchosen, hq'⟩ := h ⟨s, hs, hholds⟩
    obtain rfl := hp.apart q hq s hs time h0 hday hq' hholds
    exact (chosen_iff hp hn0 hnday hq).mp hchosen
  · obtain ⟨s, hs, hholds⟩ := hsome
    exact ⟨s, hs, (chosen_iff hp hn0 hnday hs).mpr (h s hs hholds), hholds⟩

section Seeded

def hour (n : Int) : Int := n * DateTime.microsPerHour

def seededShifts : List Shift := [
  { id := 1, startTime := hour 6, endTime := hour 14 },
  { id := 2, startTime := hour 14, endTime := hour 22 },
  { id := 3, startTime := hour 22, endTime := hour 6 }]

theorem seededShifts_partition : Partition seededShifts := by
  have hday : DateTime.microsPerDay = hour 24 := by decide
  have hhour : ∀ n, hour n = n * 3600000000 := fun n => by
    rw [hour, show DateTime.microsPerHour = 3600000000 by decide]
  refine ⟨?_, fun time h0 htime => ?_, ?_⟩
  · decide
  · simp only [seededShifts, List.mem_cons, List.not_mem_nil, or_false, exists_eq_or_imp,
      exists_eq_left, Shift.Holds, hhour]
    rw [hday, hhour] at htime
    norm_num
    omega
  · intro s hs q hq time h0 htime hs' hq'
    simp only [seededShifts, List.mem_cons, List.not_mem_nil, or_false] at hs hq
    rw [hday, hhour] at htime
    rcases hs with rfl | rfl | rfl <;> rcases hq with rfl | rfl | rfl <;>
      first
      | rfl
      | simp only [Shift.Holds, hhour] at hs' hq'
        norm_num at hs' hq'
        omega

/-- The seeded shifts, at an hour of the day in UTC. -/
def seededAt (n : Int) : Conn where
  world := { db := { shifts := seededShifts }, nextTx := 1, nextEmoney := 1, now := hour n }

/-- At half past one in Jakarta it is half past six in UTC. -/
theorem current_morning : Current (seededAt 6).activeShifts
    (timeOfDay jakartaOffset (seededAt 6).world.now) (getCurrentShift.run execOp (seededAt 6)).1 :=
  ((getCurrentShift_iff (seededAt 6) jakartaOffset).2 seededShifts_partition).mpr (by decide)

/-- At eight in the morning the night shift is answered. -/
theorem night_in_the_morning :
    ¬ Current (seededAt 1).activeShifts (timeOfDay jakartaOffset (seededAt 1).world.now)
      (getCurrentShift.run execOp (seededAt 1)).1 := by
  intro h
  obtain ⟨s, -, hanswer, hholds⟩ := h.covering (by decide)
  rw [run_getCurrentShift] at hanswer
  have hnight : chosen (seededAt 1).activeShifts (timeOfDay 0 (seededAt 1).world.now) =
      some { id := 3, startTime := hour 22, endTime := hour 6 } := by decide
  obtain rfl := Option.some.inj (hnight.symm.trans (Except.ok.inj hanswer))
  revert hholds
  decide

end Seeded
end ParkIt
