import ParkIt.Tariff

/-! Readings of a local clock in the proleptic Gregorian calendar. -/
namespace ParkIt

structure LocalTime where
  year : Nat
  month : Nat
  day : Nat
  hour : Nat
  minute : Nat
  second : Nat
deriving DecidableEq, Repr

/-- Year, month and day of a date counted from 1970-01-01; a year of the count starts in March. -/
def civil (days : Int) : Int × Int × Int :=
  let z := days + 719468
  let dayOfEra := z % 146097
  let yearOfEra := (dayOfEra - dayOfEra / 1460 + dayOfEra / 36524 - dayOfEra / 146096) / 365
  let dayOfYear := dayOfEra - (365 * yearOfEra + yearOfEra / 4 - yearOfEra / 100)
  let m := (5 * dayOfYear + 2) / 153
  let month := if m < 10 then m + 3 else m - 9
  let year := yearOfEra + z / 146097 * 400
  (if month ≤ 2 then year + 1 else year, month, dayOfYear - (153 * m + 2) / 5 + 1)

def DateTime.localTime (t : DateTime) : LocalTime :=
  let (year, month, day) := civil t.date
  let seconds := (t.instant + t.offset) % DateTime.microsPerDay / 1000000
  { year := year.toNat
    month := month.toNat
    day := day.toNat
    hour := (seconds / 3600).toNat
    minute := (seconds / 60 % 60).toNat
    second := (seconds % 60).toNat }

example : (DateTime.utc (951868799 * 1000000)).localTime = ⟨2000, 2, 29, 23, 59, 59⟩ := by decide

/-- Every part of a reading but the year has two digits. -/
theorem localTime_two_digits (t : DateTime) :
    t.localTime.month < 100 ∧ t.localTime.day < 100 ∧ t.localTime.hour < 100 ∧
    t.localTime.minute < 100 ∧ t.localTime.second < 100 := by
  have hcivil : (civil t.date).2.1 < 100 ∧ (civil t.date).2.2 < 100 := by
    have hera : 0 ≤ (t.date + 719468) % 146097 ∧ (t.date + 719468) % 146097 < 146097 := by omega
    unfold civil
    dsimp only
    generalize (t.date + 719468) % 146097 = dayOfEra at hera
    obtain ⟨yearOfEra, hyear⟩ : ∃ n, n =
      (dayOfEra - dayOfEra / 1460 + dayOfEra / 36524 - dayOfEra / 146096) / 365 := ⟨_, rfl⟩
    rw [← hyear]
    obtain ⟨dayOfYear, hday⟩ : ∃ n, n =
      dayOfEra - (365 * yearOfEra + yearOfEra / 4 - yearOfEra / 100) := ⟨_, rfl⟩
    rw [← hday]
    have hrange : dayOfYear ≤ 800 := by omega
    clear hday hyear hera
    split <;> omega
  have hseconds : (t.instant + t.offset) % DateTime.microsPerDay / 1000000 < 86400 := by
    have hday : DateTime.microsPerDay = 86400000000 := by decide
    rw [hday]
    omega
  unfold DateTime.localTime
  dsimp only
  generalize (t.instant + t.offset) % DateTime.microsPerDay / 1000000 = seconds at hseconds
  rcases hdate : civil t.date with ⟨year, month, day⟩
  rw [hdate] at hcivil
  dsimp only at hcivil ⊢
  omega

end ParkIt
