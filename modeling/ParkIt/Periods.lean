import ParkIt.Lib.Calendar
import ParkIt.Reports
import Mathlib.Algebra.BigOperators.Group.List.Basic

/-! The reports of a day, a week and a month, and what they add up to. -/
namespace ParkIt.Reports

open Calendar

section Columns

instance : Zero Totals := ⟨⟨0, 0, 0, 0, 0, 0, 0⟩⟩

instance : Add Totals where
  add x y :=
    { totalTransactions := x.totalTransactions + y.totalTransactions
      totalRevenue := x.totalRevenue + y.totalRevenue
      cashRevenue := x.cashRevenue + y.cashRevenue
      emoneyRevenue := x.emoneyRevenue + y.emoneyRevenue
      rfidRevenue := x.rfidRevenue + y.rfidRevenue
      activeTransactions := x.activeTransactions + y.activeTransactions
      completedTransactions := x.completedTransactions + y.completedTransactions }

theorem totals_add_def (x y : Totals) : x + y =
    ⟨x.totalTransactions + y.totalTransactions, x.totalRevenue + y.totalRevenue,
      x.cashRevenue + y.cashRevenue, x.emoneyRevenue + y.emoneyRevenue,
      x.rfidRevenue + y.rfidRevenue, x.activeTransactions + y.activeTransactions,
      x.completedTransactions + y.completedTransactions⟩ := rfl

instance : AddCommMonoid Totals where
  add_assoc x y z := by simp only [totals_add_def, add_assoc]
  zero_add x := by
    cases x
    simp only [totals_add_def]
    congr 1 <;> exact zero_add _
  add_zero x := by
    cases x
    simp only [totals_add_def]
    congr 1 <;> exact add_zero _
  add_comm x y := by simp only [totals_add_def, add_comm]
  nsmul := nsmulRec

theorem totals_nil : totals [] = 0 := rfl

theorem totals_cons (t : ParkingTransaction) (rows : List ParkingTransaction) :
    totals (t :: rows) = totals [t] + totals rows := by
  have hcolumn : ∀ f : ParkingTransaction → Option Int,
      sumOrZero ((t :: rows).map f) = sumOrZero ([t].map f) + sumOrZero (rows.map f) := by
    intro f
    simp [sumOrZero_eq]
  rw [totals_add_def]
  simp only [totals, methodRevenue, statusCount, hcolumn, List.length_cons, List.length_nil]
  congr 1
  omega

/-- The columns of rows that are of one kind or of the other. -/
theorem totals_filter_or {p q : ParkingTransaction → Bool} (rows : List ParkingTransaction)
    (hpq : ∀ t ∈ rows, ¬ (p t = true ∧ q t = true)) :
    totals (rows.filter fun t => p t || q t) = totals (rows.filter p) + totals (rows.filter q) := by
  induction rows with
  | nil => rfl
  | cons t rows ih =>
    have hrest := ih fun u hu => hpq u (List.mem_cons_of_mem t hu)
    have hone := hpq t List.mem_cons_self
    rcases hp : p t with _ | _ <;> rcases hq : q t with _ | _
    · simpa [hp, hq] using hrest
    · simp only [List.filter_cons, hp, hq, Bool.or_true, if_true, Bool.false_eq_true, if_false]
      rw [totals_cons, totals_cons t (rows.filter q), hrest, add_left_comm]
    · simp only [List.filter_cons, hp, hq, Bool.or_false, if_true, Bool.false_eq_true, if_false]
      rw [totals_cons, totals_cons t (rows.filter p), hrest, add_assoc]
    · exact absurd ⟨hp, hq⟩ hone

end Columns

/-- The zones count their days from 1970. -/
def dayOf (n : Int) : Int := n - ordinal 1970 1 1

def date (y : Int) (m : Nat) (d : Int) : Option Int :=
  if (1 ≤ y ∧ y ≤ 9999) ∧ (1 ≤ m ∧ m ≤ 12) ∧ 1 ≤ d ∧ d ≤ daysInMonth y m then some (ordinal y m d)
  else none

/-- `date + timedelta(days=k)`; what is no date any more is an `OverflowError`. -/
def addDays (n k : Int) : Option Int :=
  if 1 ≤ n + k ∧ n + k ≤ ordinal 9999 12 31 then some (n + k) else none

section Code
variable (z : Zones) (b : Books)

/-- The summary from one day to another. -/
def summary (dateFrom dateTo : Int) : Totals := getSummaryReport z b (dayOf dateFrom) (dayOf dateTo)

def getDailyReport (reportDate : Int) : Option Totals := do
  let next ← addDays reportDate 1
  some (summary z b reportDate next)

def getWeeklyReport (year : Int) (week : Nat) : Option Totals :=
  if 1 ≤ week ∧ week ≤ 53 then do
    let jan1 ← date year 1 1
    let monday ← addDays jan1 (((week : Int) - 1) * 7 - weekday jan1)
    let next ← addDays monday 7
    some (summary z b monday next)
  else none

def getMonthlyReport (year : Int) (month : Nat) : Option Totals :=
  if 1 ≤ month ∧ month ≤ 12 then do
    let start ← date year month 1
    let last ← date year month (daysInMonth year month)
    let next ← addDays last 1
    some (summary z b start next)
  else none

end Code

section Sums
variable {z : Zones} {b : Books} {n : Nat} {y : Int} {m : Nat}

theorem summary_self (d : Int) : summary z b d d = 0 := by
  have hnone : b.parking.filter (inSummary z (dayOf d) (dayOf d)) = [] := by
    refine List.filter_eq_nil_iff.mpr fun t _ h => ?_
    have hdays := inSummary_iff.mp h
    omega
  unfold summary getSummaryReport
  rw [hnone, totals_nil]

/-- Days that follow each other are added up. -/
theorem summary_add {d₁ d₂ d₃ : Int} (h : d₁ ≤ d₂) (h' : d₂ ≤ d₃) :
    summary z b d₁ d₃ = summary z b d₁ d₂ + summary z b d₂ d₃ := by
  unfold summary getSummaryReport
  rw [← totals_filter_or]
  · refine congrArg totals (List.filter_congr fun t _ => ?_)
    rw [Bool.eq_iff_iff, Bool.or_eq_true, inSummary_iff, inSummary_iff, inSummary_iff]
    unfold dayOf
    omega
  · rintro t - ⟨hfirst, hsecond⟩
    have hfirst := inSummary_iff.mp hfirst
    have hsecond := inSummary_iff.mp hsecond
    omega

theorem summary_steps (f : Nat → Int) (hf : ∀ i < n, f i ≤ f (i + 1)) :
    ((List.range n).map fun i => summary z b (f i) (f (i + 1))).sum =
      summary z b (f 0) (f n) ∧ f 0 ≤ f n := by
  induction n with
  | zero => exact ⟨(summary_self (f 0)).symm, le_refl _⟩
  | succ n ih =>
    obtain ⟨hsum, hle⟩ := ih fun i hi => hf i (Nat.lt_succ_of_lt hi)
    have hlast := hf n (Nat.lt_succ_self n)
    refine ⟨?_, le_trans hle hlast⟩
    rw [List.range_succ, List.map_append, List.sum_append, hsum]
    simp only [List.map_cons, List.map_nil, List.sum_cons, List.sum_nil, add_zero]
    exact (summary_add hle hlast).symm

end Sums

section Periods
variable {z : Zones} {b : Books} {y : Int} {m : Nat}

theorem last_date : ordinal 9999 12 31 = 3652059 := by decide

theorem year_within (hy : 1 ≤ y) (hy' : y ≤ 9998) :
    1 ≤ ordinal y 1 1 ∧ ordinal (y + 1) 1 1 ≤ 3651695 := by
  have hday : ∀ y, ordinal y 1 1 = daysBeforeYear y + 1 := by
    intro y
    simp [ordinal, daysBeforeMonth]
  rw [hday, hday]
  unfold daysBeforeYear
  omega

theorem month_within (hm : 1 ≤ m) (hm' : m ≤ 12) :
    ordinal y 1 1 ≤ ordinal y m 1 ∧ ordinal y m 1 + daysInMonth y m ≤ ordinal (y + 1) 1 1 := by
  have hmonths : m = 1 ∨ m = 2 ∨ m = 3 ∨ m = 4 ∨ m = 5 ∨ m = 6 ∨ m = 7 ∨ m = 8 ∨ m = 9 ∨
    m = 10 ∨ m = 11 ∨ m = 12 := by omega
  rw [ordinal_year]
  unfold yearLength ordinal daysBeforeMonth daysInMonth
  rcases hmonths with rfl | rfl | rfl | rfl | rfl | rfl | rfl | rfl | rfl | rfl | rfl | rfl <;>
    cases isLeap y <;> simp [monthLengths] <;> omega

theorem getDailyReport_eq {d : Int} (hd : 0 ≤ d) (hd' : d < 3652059) :
    getDailyReport z b d = some (summary z b d (d + 1)) := by
  unfold getDailyReport addDays
  rw [last_date, if_pos (by omega)]
  rfl

theorem getMonthlyReport_eq (hy : 1 ≤ y) (hy' : y ≤ 9998) (hm : 1 ≤ m) (hm' : m ≤ 12) :
    getMonthlyReport z b y m =
      some (summary z b (ordinal y m 1) (ordinal y m 1 + daysInMonth y m)) := by
  have hlength := daysInMonth_pos (y := y) hm hm'
  have hyear := year_within hy hy'
  have hmonth := month_within (y := y) hm hm'
  have hlast : ordinal y m (daysInMonth y m) + 1 = ordinal y m 1 + daysInMonth y m := by
    unfold ordinal
    omega
  unfold getMonthlyReport date addDays
  rw [if_pos ⟨hm, hm'⟩, if_pos (by omega), if_pos (by omega), last_date]
  simp only [Option.bind_eq_bind, Option.bind_some]
  rw [if_pos (by omega), hlast]
  rfl

theorem month_adds_up (hy : 1 ≤ y) (hy' : y ≤ 9998) (hm : 1 ≤ m) (hm' : m ≤ 12) :
    ∃ days : Nat → Totals,
      (∀ d < (daysInMonth y m).toNat, getDailyReport z b (ordinal y m (d + 1)) = some (days d)) ∧
        getMonthlyReport z b y m =
          some (((List.range (daysInMonth y m).toNat).map days).sum) := by
  have hlength := daysInMonth_pos (y := y) hm hm'
  have hyear := year_within hy hy'
  have hmonth := month_within (y := y) hm hm'
  have hday : ∀ d : Nat, ordinal y m ((d : Int) + 1) = ordinal y m 1 + d := by
    intro d
    unfold ordinal
    omega
  refine ⟨fun d => summary z b (ordinal y m 1 + d) (ordinal y m 1 + (d + 1 : Nat)), ?_, ?_⟩
  · intro d hd
    rw [hday, getDailyReport_eq (by omega) (by omega)]
    push_cast
    rw [add_assoc]
  · obtain ⟨hsum, -⟩ := summary_steps (z := z) (b := b) (n := (daysInMonth y m).toNat)
      (fun d => ordinal y m 1 + d) fun d _ => by push_cast; omega
    rw [hsum, getMonthlyReport_eq hy hy' hm hm', Int.toNat_of_nonneg (by omega)]
    simp

/-- The Monday of the week of the first of January. -/
def firstMonday (y : Int) : Int := ordinal y 1 1 - weekday (ordinal y 1 1)

/-- The year takes 54 weeks to cover. -/
def Overlong (y : Int) : Prop := isLeap y = true ∧ weekday (ordinal y 1 1) = 6

instance (y : Int) : Decidable (Overlong y) := inferInstanceAs (Decidable (_ ∧ _))

theorem weekday_bounds (n : Int) : 0 ≤ weekday n ∧ weekday n ≤ 6 := by
  unfold weekday
  omega

theorem firstMonday_pos (hy : 1 ≤ y) : 1 ≤ firstMonday y := by
  have hday : ordinal y 1 1 = daysBeforeYear y + 1 := by simp [ordinal, daysBeforeMonth]
  unfold firstMonday weekday
  rw [hday]
  unfold daysBeforeYear
  omega

theorem getWeeklyReport_eq (hy : 1 ≤ y) (hy' : y ≤ 9998) {i : Nat} (hi : i < 53) :
    getWeeklyReport z b y (i + 1) =
      some (summary z b (firstMonday y + 7 * i) (firstMonday y + 7 * (i + 1 : Nat))) := by
  have hyear := year_within hy hy'
  have hlength : ordinal (y + 1) 1 1 = ordinal y 1 1 + yearLength y := ordinal_year
  have hfirst := firstMonday_pos hy
  have hday := weekday_bounds (ordinal y 1 1)
  have hjan := daysInMonth_pos (y := y) (m := 1) (by omega) (by omega)
  have hyears : 365 ≤ yearLength y := by
    unfold yearLength
    split <;> omega
  unfold firstMonday at hfirst
  unfold getWeeklyReport date addDays
  rw [if_pos (by omega), if_pos (by omega), last_date]
  simp only [Option.bind_eq_bind, Option.bind_some]
  rw [if_pos (by omega)]
  simp only [Option.bind_some]
  rw [if_pos (by omega), Option.bind_some]
  refine congrArg some (congrArg₂ (summary z b) ?_ ?_)
  · unfold firstMonday
    push_cast
    omega
  · unfold firstMonday
    push_cast
    omega

example : Overlong 2012 := by decide

end Periods
end ParkIt.Reports
