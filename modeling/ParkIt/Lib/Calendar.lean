import Mathlib.Algebra.Ring.Int.Defs
import Mathlib.Data.List.Range
import Mathlib.Tactic.Common

/-! The Gregorian calendar, with days counted from the first of the year 1. -/
namespace Calendar

def isLeap (y : Int) : Bool := decide (y % 4 = 0 ∧ (y % 100 ≠ 0 ∨ y % 400 = 0))

/-- The days of all years before this one. -/
def daysBeforeYear (y : Int) : Int :=
  (y - 1) * 365 + (y - 1) / 4 - (y - 1) / 100 + (y - 1) / 400

def monthLengths : List Int := [31, 28, 31, 30, 31, 30, 31, 31, 30, 31, 30, 31]

def daysInMonth (y : Int) (m : Nat) : Int :=
  monthLengths.getD (m - 1) 0 + if m = 2 ∧ isLeap y then 1 else 0

/-- The days of this year before a month. -/
def daysBeforeMonth (y : Int) (m : Nat) : Int :=
  (monthLengths.take (m - 1)).sum + if 2 < m ∧ isLeap y then 1 else 0

/-- The number of a day; the first of January of the year 1 has number 1. -/
def ordinal (y : Int) (m : Nat) (d : Int) : Int := daysBeforeYear y + daysBeforeMonth y m + d

/-- Monday is 0, and Sunday 6. -/
def weekday (n : Int) : Int := (n + 6) % 7

def yearLength (y : Int) : Int := if isLeap y then 366 else 365

section Years
variable {y : Int} {m : Nat}

theorem daysBeforeYear_succ : daysBeforeYear (y + 1) = daysBeforeYear y + yearLength y := by
  unfold daysBeforeYear yearLength isLeap
  split
  · rename_i h
    have hleap := of_decide_eq_true h
    omega
  · rename_i h
    have hleap := of_decide_eq_false (Bool.eq_false_iff.mpr h)
    omega

/-- A month begins after the one before. -/
theorem ordinal_succ (hm : 1 ≤ m) (hm' : m < 12) :
    ordinal y (m + 1) 1 = ordinal y m 1 + daysInMonth y m := by
  unfold ordinal daysBeforeMonth daysInMonth
  have hmonths : m = 1 ∨ m = 2 ∨ m = 3 ∨ m = 4 ∨ m = 5 ∨ m = 6 ∨ m = 7 ∨ m = 8 ∨ m = 9 ∨
    m = 10 ∨ m = 11 := by omega
  rcases hmonths with rfl | rfl | rfl | rfl | rfl | rfl | rfl | rfl | rfl | rfl | rfl <;>
    cases isLeap y <;> simp [monthLengths] <;> omega

theorem ordinal_newYear : ordinal (y + 1) 1 1 = ordinal y 12 1 + daysInMonth y 12 := by
  unfold ordinal daysBeforeMonth daysInMonth
  rw [daysBeforeYear_succ]
  unfold yearLength
  cases isLeap y <;> simp [monthLengths] <;> omega

theorem ordinal_year : ordinal (y + 1) 1 1 = ordinal y 1 1 + yearLength y := by
  unfold ordinal
  rw [daysBeforeYear_succ]
  simp only [daysBeforeMonth]
  simp
  omega

theorem daysInMonth_pos (hm : 1 ≤ m) (hm' : m ≤ 12) : 28 ≤ daysInMonth y m := by
  have hmonths : m = 1 ∨ m = 2 ∨ m = 3 ∨ m = 4 ∨ m = 5 ∨ m = 6 ∨ m = 7 ∨ m = 8 ∨ m = 9 ∨
    m = 10 ∨ m = 11 ∨ m = 12 := by omega
  unfold daysInMonth
  rcases hmonths with rfl | rfl | rfl | rfl | rfl | rfl | rfl | rfl | rfl | rfl | rfl | rfl <;>
    cases isLeap y <;> simp [monthLengths]

end Years
end Calendar
