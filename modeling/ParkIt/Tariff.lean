import Mathlib.Algebra.Order.Ring.Int
import Mathlib.Tactic.Linarith

/-! The tariff engine. Durations are exact: integer microseconds instead of float minutes. -/
namespace ParkIt

/-- A time-zone-aware datetime: microseconds since the epoch, shown at a UTC offset. -/
structure DateTime where
  instant : Int
  offset : Int
deriving DecidableEq, Repr

namespace DateTime

def microsPerMinute : Int := 60 * 1000000
def microsPerHour : Int := 60 * microsPerMinute
def microsPerDay : Int := 24 * microsPerHour

/-- The calendar date of the representation, in days since the epoch. -/
def date (t : DateTime) : Int := (t.instant + t.offset) / microsPerDay

def utc (instant : Int) : DateTime := ⟨instant, 0⟩

end DateTime

/-- `ceil(a / b)` on integers. -/
def ceilDiv (a b : Int) : Int := -(-a / b)

/-- Python's `a or b` on integers. -/
def orInt (a b : Int) : Int := if a = 0 then b else a

structure VehicleTypeRate where
  hourlyRate : Int
  dailyCap : Int
  baseTariff : Int := 0
  overnightMode : String := "none"
  overnightTariff : Int := 0
  lostTicketPenalty : Int := 0
  isProgressive : Bool := false
deriving DecidableEq, Repr

structure TariffConfig where
  vehicleTypes : List (String × VehicleTypeRate)
  gracePeriodMinutes : Int := 15
deriving DecidableEq, Repr

/-- The time fee for `hours` started hours, before surcharges and caps. -/
def timeFee (rate : VehicleTypeRate) (hours : Int) : Int :=
  if rate.isProgressive then
    orInt rate.baseTariff rate.hourlyRate + max 0 (hours - 1) * rate.hourlyRate
  else
    hours * orInt rate.hourlyRate rate.baseTariff

/-- The surcharged nights; every mode other than `24h` counts calendar dates crossed. -/
def nights (rate : VehicleTypeRate) (entryTime exitTime : DateTime) : Int :=
  if rate.overnightMode = "24h" then
    (exitTime.instant - entryTime.instant) / DateTime.microsPerDay
  else
    max 0 (exitTime.date - entryTime.date)

def calculateTariff (entryTime exitTime : DateTime) (vehicleTypeCode : String)
    (config : TariffConfig) (isLostTicket : Bool := false) : Except String Int :=
  if exitTime.instant < entryTime.instant then
    .error "exit_time must be after entry_time"
  else match config.vehicleTypes.lookup vehicleTypeCode with
  | none => .error s!"Unknown vehicle type: {vehicleTypeCode}"
  | some rate =>
    let duration := exitTime.instant - entryTime.instant
    if !isLostTicket && decide (duration ≤ config.gracePeriodMinutes * DateTime.microsPerMinute) then
      .ok 0
    else
      let hours := max 1 (ceilDiv duration DateTime.microsPerHour)
      let fee := timeFee rate hours
      let fee :=
        if rate.overnightMode ≠ "none" ∧ 0 < rate.overnightTariff then
          fee + nights rate entryTime exitTime * rate.overnightTariff
        else fee
      let fee :=
        if 0 < rate.dailyCap then
          min fee (max 1 (ceilDiv duration DateTime.microsPerDay) * rate.dailyCap)
        else fee
      .ok (if isLostTicket ∧ 0 < rate.lostTicketPenalty then max fee rate.lostTicketPenalty else fee)

def defaultTariffConfig : TariffConfig where
  vehicleTypes :=
    [("MOTOR", { hourlyRate := 2000, dailyCap := 15000 }),
     ("MOBIL", { hourlyRate := 5000, dailyCap := 50000 }),
     ("BUS", { hourlyRate := 10000, dailyCap := 100000 })]

structure VehicleTypeRate.NonNeg (rate : VehicleTypeRate) : Prop where
  hourlyRate : 0 ≤ rate.hourlyRate
  dailyCap : 0 ≤ rate.dailyCap
  baseTariff : 0 ≤ rate.baseTariff
  overnightTariff : 0 ≤ rate.overnightTariff
  lostTicketPenalty : 0 ≤ rate.lostTicketPenalty

instance (rate : VehicleTypeRate) : Decidable rate.NonNeg :=
  decidable_of_iff (0 ≤ rate.hourlyRate ∧ 0 ≤ rate.dailyCap ∧ 0 ≤ rate.baseTariff ∧
    0 ≤ rate.overnightTariff ∧ 0 ≤ rate.lostTicketPenalty)
    ⟨fun ⟨a, b, c, d, e⟩ => ⟨a, b, c, d, e⟩, fun ⟨a, b, c, d, e⟩ => ⟨a, b, c, d, e⟩⟩

section NonNeg
variable {rate : VehicleTypeRate} {entryTime exitTime : DateTime} {hours : Int}

theorem orInt_nonneg {a b : Int} (ha : 0 ≤ a) (hb : 0 ≤ b) : 0 ≤ orInt a b := by
  unfold orInt
  split <;> assumption

theorem timeFee_nonneg (hr : rate.NonNeg) (hh : 1 ≤ hours) : 0 ≤ timeFee rate hours := by
  unfold timeFee
  split
  · have hfirst := orInt_nonneg hr.baseTariff hr.hourlyRate
    have hrest : 0 ≤ max 0 (hours - 1) * rate.hourlyRate :=
      mul_nonneg (le_max_left _ _) hr.hourlyRate
    omega
  · exact mul_nonneg (by omega) (orInt_nonneg hr.hourlyRate hr.baseTariff)

theorem nights_nonneg (ht : entryTime.instant ≤ exitTime.instant) :
    0 ≤ nights rate entryTime exitTime := by
  unfold nights
  split
  · exact Int.ediv_nonneg (by omega) (by decide)
  · exact le_max_left _ _

/-- No branch of the engine can hand money out. -/
theorem calculateTariff_nonneg {code : String} {config : TariffConfig} {lost : Bool} {fee : Int}
    (hr : ∀ r, config.vehicleTypes.lookup code = some r → r.NonNeg)
    (h : calculateTariff entryTime exitTime code config lost = .ok fee) : 0 ≤ fee := by
  unfold calculateTariff at h
  split at h
  · cases h
  rename_i ht
  split at h
  · cases h
  rename_i rate hrate
  have hnn := hr rate hrate
  simp only at h
  split at h
  · cases h; exact le_rfl
  cases h
  have htime := timeFee_nonneg hnn
    (le_max_left 1 (ceilDiv (exitTime.instant - entryTime.instant) DateTime.microsPerHour))
  have hnight : 0 ≤ nights rate entryTime exitTime * rate.overnightTariff :=
    mul_nonneg (nights_nonneg (by omega)) hnn.overnightTariff
  have hcap : 0 ≤ max 1 (ceilDiv (exitTime.instant - entryTime.instant) DateTime.microsPerDay) *
      rate.dailyCap := mul_nonneg (le_trans (by decide) (le_max_left _ _)) hnn.dailyCap
  split_ifs <;> omega

end NonNeg

theorem calculateTariff_error {entryTime exitTime : DateTime} {code : String}
    {config : TariffConfig} {lost : Bool} {msg : String}
    (h : calculateTariff entryTime exitTime code config lost = .error msg) :
    exitTime.instant < entryTime.instant ∨ config.vehicleTypes.lookup code = none := by
  unfold calculateTariff at h
  split at h
  · exact Or.inl ‹_›
  · split at h
    · exact Or.inr ‹_›
    · simp only at h
      split at h <;> cases h

example : calculateTariff (.utc 0) (.utc (2 * DateTime.microsPerHour)) "MOBIL"
    defaultTariffConfig = .ok 10000 := by decide

end ParkIt
