import Mathlib.Algebra.BigOperators.Intervals
import Mathlib.Data.Int.CardIntervalMod
import ParkIt.Lib.Meter
import ParkIt.Tariff

/-! What the tariff charges: started hours, nights, the daily cap and the lost-ticket floor. -/
namespace ParkIt
open Finset DateTime Meter

section Units

def startedHours (duration : Int) : ℕ := (max 1 (ceilDiv duration microsPerHour)).toNat
def startedBlocks (duration : Int) : ℕ := (max 1 (ceilDiv duration microsPerDay)).toNat

theorem started_ceilDiv {d : Int} (hd : 0 < d) (x : Int) :
    Started d x (max 1 (ceilDiv x d)).toNat := by
  have hle : ∀ m : Int, ceilDiv x d ≤ m ↔ x ≤ m * d := by
    intro m
    have := Int.le_ediv_iff_mul_le hd (a := -m) (b := -x)
    rw [ceilDiv]
    constructor <;> intro h <;> grind
  have hm := le_max_right 1 (ceilDiv x d)
  have hone := le_max_left 1 (ceilDiv x d)
  have hcast : (((max 1 (ceilDiv x d)).toNat : ℕ) : Int) = max 1 (ceilDiv x d) :=
    Int.toNat_of_nonneg (by omega)
  constructor
  · refine ⟨by omega, ?_⟩
    rw [nsmul_eq_mul]
    simpa only [hcast] using (hle _).mp hm
  · rintro m ⟨hpos, hx⟩
    rw [nsmul_eq_mul] at hx
    have := (hle m).mpr hx
    omega

theorem started_hours (duration : Int) :
    Started microsPerHour duration (startedHours duration) := started_ceilDiv (by decide) _

theorem started_blocks (duration : Int) :
    Started microsPerDay duration (startedBlocks duration) := started_ceilDiv (by decide) _

theorem startedBlocks_hours (duration : Int) :
    Started 24 (startedHours duration) (startedBlocks duration) := by
  refine (started_hours duration).blocks (by decide) (by decide) ?_
  have hday : (24 : ℕ) • microsPerHour = microsPerDay := by decide
  rw [hday]
  exact started_blocks duration

theorem startedHours_cast (duration : Int) :
    max 1 (ceilDiv duration microsPerHour) = (startedHours duration : Int) :=
  (Int.toNat_of_nonneg (le_trans (by decide) (le_max_left _ _))).symm

theorem startedBlocks_cast (duration : Int) :
    max 1 (ceilDiv duration microsPerDay) = (startedBlocks duration : Int) :=
  (Int.toNat_of_nonneg (le_trans (by decide) (le_max_left _ _))).symm

end Units

section Fee
variable {rate : VehicleTypeRate} {entryTime exitTime : DateTime} {n m : ℕ} {duration fee : Int}
  {code : String} {config : TariffConfig} {lost : Bool}

/-- The price of the started hour number `i`, counted from 0. -/
def hourPrice (rate : VehicleTypeRate) (i : ℕ) : Int :=
  if rate.isProgressive then
    if i = 0 then orInt rate.baseTariff rate.hourlyRate else rate.hourlyRate
  else orInt rate.hourlyRate rate.baseTariff

/-- The price of every started hour after the first. -/
def laterPrice (rate : VehicleTypeRate) : Int :=
  if rate.isProgressive then rate.hourlyRate else orInt rate.hourlyRate rate.baseTariff

theorem hourPrice_succ (rate : VehicleTypeRate) (i : ℕ) :
    hourPrice rate (i + 1) = laterPrice rate := by simp [hourPrice, laterPrice]

theorem hourPrice_nonneg (hr : rate.NonNeg) (i : ℕ) : 0 ≤ hourPrice rate i := by
  unfold hourPrice
  split_ifs
  · exact orInt_nonneg hr.baseTariff hr.hourlyRate
  · exact hr.hourlyRate
  · exact orInt_nonneg hr.hourlyRate hr.baseTariff

theorem timeFee_eq_sum (rate : VehicleTypeRate) (hn : 0 < n) :
    timeFee rate n = ∑ i ∈ range n, hourPrice rate i := by
  obtain ⟨k, rfl⟩ := Nat.exists_eq_succ_of_ne_zero hn.ne'
  rw [sum_range_succ', sum_congr rfl fun i _ => hourPrice_succ rate i, sum_const, card_range,
    nsmul_eq_mul]
  simp only [timeFee, hourPrice, laterPrice, Nat.succ_eq_add_one, Nat.cast_add, Nat.cast_one,
    add_sub_cancel_right, if_true]
  split
  · rw [max_eq_right (Int.natCast_nonneg k), add_comm]
  · ring

theorem timeFee_mono (hr : rate.NonNeg) (hn : 0 < n) (hnm : n ≤ m) :
    timeFee rate n ≤ timeFee rate m := by
  rw [timeFee_eq_sum rate hn, timeFee_eq_sum rate (hn.trans_le hnm)]
  exact sum_le_sum_of_subset_of_nonneg (range_subset_range.mpr hnm)
    fun i _ _ => hourPrice_nonneg hr i

theorem timeFee_add (rate : VehicleTypeRate) (hn : 0 < n) (k : ℕ) :
    timeFee rate (n + k : ℕ) = timeFee rate n + k * laterPrice rate := by
  rw [timeFee_eq_sum rate (by omega), timeFee_eq_sum rate hn, sum_range_add]
  have hlater : ∀ i ∈ range k, hourPrice rate (n + i) = laterPrice rate := by
    intro i _
    rw [show n + i = n - 1 + i + 1 by omega, hourPrice_succ]
  rw [sum_congr rfl hlater, sum_const, card_range, nsmul_eq_mul]

end Fee

section Nights
variable {rate : VehicleTypeRate} {entryTime exitTime : DateTime} {a b : Int}

/-- The instants after `a` and up to `b` that repeat the instant `v` at whole days. -/
def dayMarks (v a b : Int) : Finset Int :=
  let days : Finset Int := @Ioc Int Int.instLinearOrder.toPreorder Int.instLocallyFiniteOrder a b
  days.filter fun t => t ≡ v [ZMOD microsPerDay]

/-- The midnights after `a` and up to `b` of the zone at a UTC offset. -/
def midnights (offset a b : Int) : Finset Int := dayMarks (-offset) a b

/-- What starts a night: a midnight of the entry's zone, or the end of a full day of the stay. -/
def nightMarks (rate : VehicleTypeRate) (entryTime exitTime : DateTime) : Finset Int :=
  if rate.overnightMode = "none" then ∅
  else if rate.overnightMode = "24h" then
    dayMarks entryTime.instant entryTime.instant exitTime.instant
  else midnights entryTime.offset entryTime.instant exitTime.instant

theorem card_dayMarks (hab : a ≤ b) (v : Int) :
    ((dayMarks v a b).card : Int) = (b - v) / microsPerDay - (a - v) / microsPerDay := by
  have hfloor : ∀ x : Int, ⌊((x : ℚ) / ((microsPerDay : Int) : ℚ))⌋ = x / microsPerDay := by
    intro x
    have := Rat.floor_intCast_div_natCast x 86400000000
    simpa [microsPerDay, microsPerHour, microsPerMinute] using this
  rw [dayMarks, Int.Ioc_filter_modEq_card a b (by decide : 0 < microsPerDay) v]
  simp only [← Int.cast_sub, hfloor]
  have : (a - v) / microsPerDay ≤ (b - v) / microsPerDay :=
    Int.ediv_le_ediv (by decide) (by omega)
  omega

theorem card_midnights (hab : a ≤ b) (offset : Int) :
    ((midnights offset a b).card : Int) =
      (DateTime.mk b offset).date - (DateTime.mk a offset).date := by
  rw [midnights, card_dayMarks hab]
  simp only [sub_neg_eq_add, DateTime.date]

theorem dayMarks_mono {v c : Int} (hbc : b ≤ c) : dayMarks v a b ⊆ dayMarks v a c :=
  filter_subset_filter _ (Ioc_subset_Ioc_right hbc)

theorem nightMarks_mono {later : DateTime} (hle : exitTime.instant ≤ later.instant) :
    nightMarks rate entryTime exitTime ⊆ nightMarks rate entryTime later := by
  unfold nightMarks
  split_ifs
  · exact subset_rfl
  · exact dayMarks_mono hle
  · exact dayMarks_mono hle

theorem nights_eq_card (hmode : rate.overnightMode ≠ "none")
    (hzone : exitTime.offset = entryTime.offset) (ht : entryTime.instant ≤ exitTime.instant) :
    nights rate entryTime exitTime = (nightMarks rate entryTime exitTime).card := by
  rw [nights, nightMarks, if_neg hmode]
  split
  · rw [card_dayMarks ht, sub_self, Int.zero_ediv, sub_zero]
  · have hexit : (DateTime.mk exitTime.instant entryTime.offset).date = exitTime.date := by
      rw [← hzone]
    have hle : entryTime.date ≤ exitTime.date := Int.ediv_le_ediv (by decide) (by omega)
    rw [card_midnights ht, hexit]
    exact max_eq_right (by omega)

/-- The overnight surcharge before the cap. -/
def surcharge (rate : VehicleTypeRate) (entryTime exitTime : DateTime) : Int :=
  if rate.overnightMode ≠ "none" ∧ 0 < rate.overnightTariff then
    nights rate entryTime exitTime * rate.overnightTariff
  else 0

theorem surcharge_eq_card (hr : rate.NonNeg) (hzone : exitTime.offset = entryTime.offset)
    (ht : entryTime.instant ≤ exitTime.instant) :
    surcharge rate entryTime exitTime =
      rate.overnightTariff * (nightMarks rate entryTime exitTime).card := by
  unfold surcharge
  have hnn := hr.overnightTariff
  by_cases hmode : rate.overnightMode = "none"
  · simp [hmode, nightMarks]
  · by_cases hpos : 0 < rate.overnightTariff
    · rw [if_pos ⟨hmode, hpos⟩, nights_eq_card hmode hzone ht, mul_comm]
    · rw [if_neg fun h => hpos h.2, show rate.overnightTariff = 0 by omega, zero_mul]

theorem surcharge_nonneg (hr : rate.NonNeg) (ht : entryTime.instant ≤ exitTime.instant) :
    0 ≤ surcharge rate entryTime exitTime := by
  unfold surcharge
  split
  · exact mul_nonneg (nights_nonneg ht) hr.overnightTariff
  · exact le_rfl

end Nights

section Engine
variable {rate : VehicleTypeRate} {entryTime exitTime : DateTime} {code : String}
  {config : TariffConfig} {lost : Bool} {duration fee fee' : Int} {n m : ℕ}

/-- The fee under the cap of one `dailyCap` a started 24 h block. -/
def capped (rate : VehicleTypeRate) (duration fee : Int) : Int :=
  if 0 < rate.dailyCap then min fee (startedBlocks duration * rate.dailyCap) else fee

/-- The fee above the floor of a lost ticket. -/
def floored (rate : VehicleTypeRate) (lost : Bool) (fee : Int) : Int :=
  if lost ∧ 0 < rate.lostTicketPenalty then max fee rate.lostTicketPenalty else fee

def meteredFee (rate : VehicleTypeRate) (entryTime exitTime : DateTime) : Int :=
  timeFee rate (startedHours (exitTime.instant - entryTime.instant)) +
    surcharge rate entryTime exitTime

def stayFee (rate : VehicleTypeRate) (entryTime exitTime : DateTime) : Int :=
  capped rate (exitTime.instant - entryTime.instant) (meteredFee rate entryTime exitTime)

/-- The stay is free of charge: within grace, with its ticket at hand. -/
def WithinGrace (config : TariffConfig) (lost : Bool) (entryTime exitTime : DateTime) : Prop :=
  lost = false ∧
    exitTime.instant - entryTime.instant ≤ config.gracePeriodMinutes * microsPerMinute

instance : Decidable (WithinGrace config lost entryTime exitTime) :=
  inferInstanceAs (Decidable (_ ∧ _))

theorem calculateTariff_eq (hrate : config.vehicleTypes.lookup code = some rate)
    (ht : entryTime.instant ≤ exitTime.instant) :
    calculateTariff entryTime exitTime code config lost =
      .ok (if WithinGrace config lost entryTime exitTime then 0
        else floored rate lost (stayFee rate entryTime exitTime)) := by
  rw [calculateTariff, if_neg (by omega), hrate]
  simp only [startedHours_cast, startedBlocks_cast]
  by_cases hgrace : WithinGrace config lost entryTime exitTime
  · rw [if_pos hgrace, if_pos (by simpa [WithinGrace] using hgrace)]
  · rw [if_neg hgrace, if_neg (by simpa [WithinGrace] using hgrace)]
    unfold floored stayFee capped meteredFee surcharge
    congr 1
    split_ifs <;> simp only [add_zero]

theorem capped_le_cap (hcap : 0 < rate.dailyCap) :
    capped rate duration fee ≤ startedBlocks duration * rate.dailyCap := by
  rw [capped, if_pos hcap]
  exact min_le_right _ _

theorem capped_nonneg (hfee : 0 ≤ fee) : 0 ≤ capped rate duration fee := by
  unfold capped
  split
  · exact le_min hfee (mul_nonneg (Int.natCast_nonneg _) (by omega))
  · exact hfee

theorem capped_mono {longer : Int} (hle : duration ≤ longer) (hfee : fee ≤ fee') :
    capped rate duration fee ≤ capped rate longer fee' := by
  unfold capped
  split
  · have hblocks : startedBlocks duration ≤ startedBlocks longer :=
      (started_blocks duration).mono hle (started_blocks longer)
    exact min_le_min hfee (mul_le_mul_of_nonneg_right (by omega) (by omega))
  · exact hfee

theorem le_floored (rate : VehicleTypeRate) (lost : Bool) (fee : Int) :
    fee ≤ floored rate lost fee := by
  unfold floored
  split
  · exact le_max_left _ _
  · exact le_rfl

theorem floored_false (rate : VehicleTypeRate) (fee : Int) : floored rate false fee = fee := rfl

theorem floored_true (hr : rate.NonNeg) (hfee : 0 ≤ fee) :
    floored rate true fee = max fee rate.lostTicketPenalty := by
  have := hr.lostTicketPenalty
  unfold floored
  split
  · rfl
  · rename_i hnone
    have : ¬0 < rate.lostTicketPenalty := fun h => hnone ⟨rfl, h⟩
    omega

theorem floored_mono (hle : fee ≤ fee') : floored rate lost fee ≤ floored rate lost fee' := by
  unfold floored
  split
  · exact max_le_max_right _ hle
  · exact hle

theorem meteredFee_nonneg (hr : rate.NonNeg) (ht : entryTime.instant ≤ exitTime.instant) :
    0 ≤ meteredFee rate entryTime exitTime :=
  add_nonneg (timeFee_nonneg hr (by have := (started_hours
    (exitTime.instant - entryTime.instant)).pos; omega)) (surcharge_nonneg hr ht)

theorem stayFee_nonneg (hr : rate.NonNeg) (ht : entryTime.instant ≤ exitTime.instant) :
    0 ≤ stayFee rate entryTime exitTime := capped_nonneg (meteredFee_nonneg hr ht)

theorem meteredFee_mono {later : DateTime} (hr : rate.NonNeg)
    (hzone : exitTime.offset = entryTime.offset) (hzone' : later.offset = entryTime.offset)
    (ht : entryTime.instant ≤ exitTime.instant) (hle : exitTime.instant ≤ later.instant) :
    meteredFee rate entryTime exitTime ≤ meteredFee rate entryTime later := by
  have hhours := (started_hours (exitTime.instant - entryTime.instant)).mono
    (by omega) (started_hours (later.instant - entryTime.instant))
  have hnights := card_le_card (nightMarks_mono hle : nightMarks rate entryTime exitTime ⊆ _)
  refine add_le_add (timeFee_mono hr (started_hours _).pos hhours) ?_
  rw [surcharge_eq_card hr hzone ht, surcharge_eq_card hr hzone' (ht.trans hle)]
  exact mul_le_mul_of_nonneg_left (by omega) hr.overnightTariff

/-- Staying longer is never cheaper. -/
theorem calculateTariff_mono {later : DateTime} (hr : rate.NonNeg)
    (hrate : config.vehicleTypes.lookup code = some rate)
    (hzone : exitTime.offset = entryTime.offset) (hzone' : later.offset = entryTime.offset)
    (ht : entryTime.instant ≤ exitTime.instant) (hle : exitTime.instant ≤ later.instant) :
    ∃ fee fee', calculateTariff entryTime exitTime code config lost = .ok fee ∧
      calculateTariff entryTime later code config lost = .ok fee' ∧ fee ≤ fee' := by
  refine ⟨_, _, calculateTariff_eq hrate ht, calculateTariff_eq hrate (ht.trans hle), ?_⟩
  by_cases hlater : WithinGrace config lost entryTime later
  · rw [if_pos hlater, if_pos ⟨hlater.1, by have := hlater.2; omega⟩]
  rw [if_neg hlater]
  split
  · exact (stayFee_nonneg hr (ht.trans hle)).trans (le_floored _ _ _)
  · exact floored_mono (capped_mono (by omega) (meteredFee_mono hr hzone hzone' ht hle))

theorem calculateTariff_mono_bus :
    ∃ fee fee',
      calculateTariff (.utc 0) (.utc (23 * microsPerHour)) "BUS" defaultTariffConfig = .ok fee ∧
      calculateTariff (.utc 0) (.utc (25 * microsPerHour)) "BUS" defaultTariffConfig = .ok fee' ∧
      fee ≤ fee' :=
  have hr : VehicleTypeRate.NonNeg ⟨10000, 100000, 0, "none", 0, 0, false⟩ := by decide
  calculateTariff_mono hr (by decide) rfl rfl (by decide) (by decide)

/-- A lost ticket costs the stay past grace or the penalty, whichever is more. -/
theorem lost_fee (hr : rate.NonNeg) (hrate : config.vehicleTypes.lookup code = some rate)
    (ht : entryTime.instant ≤ exitTime.instant) :
    calculateTariff entryTime exitTime code config true =
      .ok (max (stayFee rate entryTime exitTime) rate.lostTicketPenalty) := by
  rw [calculateTariff_eq hrate ht, if_neg (fun h => Bool.noConfusion h.1),
    floored_true hr (stayFee_nonneg hr ht)]

theorem calculateTariff_bounds (hr : rate.NonNeg)
    (hrate : config.vehicleTypes.lookup code = some rate)
    (ht : entryTime.instant ≤ exitTime.instant) :
    ∃ fee lostFee, calculateTariff entryTime exitTime code config false = .ok fee ∧
      calculateTariff entryTime exitTime code config true = .ok lostFee ∧ 0 ≤ fee ∧ 0 ≤ lostFee ∧
      (exitTime.instant - entryTime.instant ≤ config.gracePeriodMinutes * microsPerMinute →
        fee = 0) ∧
      (0 < rate.dailyCap → ∀ n, Started microsPerDay (exitTime.instant - entryTime.instant) n →
        fee ≤ rate.dailyCap * n) ∧
      max rate.lostTicketPenalty fee ≤ lostFee ∧
      (config.gracePeriodMinutes * microsPerMinute < exitTime.instant - entryTime.instant →
        lostFee = rate.lostTicketPenalty ∨ lostFee = fee) := by
  have hstay := stayFee_nonneg hr ht
  refine ⟨_, _, calculateTariff_eq hrate ht, lost_fee hr hrate ht, ?_⟩
  rw [floored_false, max_comm]
  by_cases hgrace : WithinGrace config false entryTime exitTime
  · rw [if_pos hgrace]
    refine ⟨le_rfl, hstay.trans (le_max_right _ _), fun _ => rfl, fun hcap n _ => ?_,
      max_le (le_max_left _ _) (hstay.trans (le_max_right _ _)), fun hpast => ?_⟩
    · exact mul_nonneg hcap.le (Int.natCast_nonneg n)
    · exact absurd hgrace.2 (by omega)
  · rw [if_neg hgrace]
    refine ⟨hstay, hstay.trans (le_max_right _ _), fun h => absurd ⟨rfl, h⟩ hgrace,
      fun hcap n hn => ?_, le_rfl, fun _ => ?_⟩
    · rw [hn.unique (started_blocks _), mul_comm]
      exact capped_le_cap hcap
    · exact max_choice _ _

theorem calculateTariff_bounds_motor :
    ∃ fee lostFee,
      calculateTariff (.utc 0) (.utc microsPerDay) "MOTOR" defaultTariffConfig false = .ok fee ∧
      calculateTariff (.utc 0) (.utc microsPerDay) "MOTOR" defaultTariffConfig true = .ok lostFee ∧
      0 ≤ fee ∧ 0 ≤ lostFee ∧ (microsPerDay - 0 ≤ 15 * microsPerMinute → fee = 0) ∧
      ((0 : Int) < 15000 → ∀ n, Started microsPerDay (microsPerDay - 0) n → fee ≤ 15000 * n) ∧
      max 0 fee ≤ lostFee ∧
      (15 * microsPerMinute < microsPerDay - 0 → lostFee = 0 ∨ lostFee = fee) :=
  have hr : VehicleTypeRate.NonNeg ⟨2000, 15000, 0, "none", 0, 0, false⟩ := by decide
  calculateTariff_bounds hr (by decide) (by decide)

/-- The exit a number of whole hours later. -/
def DateTime.addHours (t : DateTime) (k : ℕ) : DateTime :=
  { t with instant := t.instant + k * microsPerHour }

theorem startedHours_addHours (k : ℕ) (hpast : entryTime.instant < exitTime.instant) :
    startedHours ((exitTime.addHours k).instant - entryTime.instant) =
      startedHours (exitTime.instant - entryTime.instant) + k := by
  have hadd := (started_hours (exitTime.instant - entryTime.instant)).add
    (by decide) (by omega) k
  refine (started_hours _).unique ?_
  rw [nsmul_eq_mul] at hadd
  rwa [show (exitTime.addHours k).instant - entryTime.instant =
    exitTime.instant - entryTime.instant + k * microsPerHour by
      simp only [DateTime.addHours]; ring]

/-- The uncapped tariff is a meter: it adds up the hours started and the nights spent. -/
theorem uncapped_fee (hr : rate.NonNeg) (hcap : rate.dailyCap = 0)
    (hrate : config.vehicleTypes.lookup code = some rate)
    (hzone : exitTime.offset = entryTime.offset) (ht : entryTime.instant ≤ exitTime.instant)
    (hpast : config.gracePeriodMinutes * microsPerMinute < exitTime.instant - entryTime.instant) :
    calculateTariff entryTime exitTime code config =
      .ok (∑ i ∈ range (startedHours (exitTime.instant - entryTime.instant)), hourPrice rate i +
        rate.overnightTariff * (nightMarks rate entryTime exitTime).card) := by
  rw [calculateTariff_eq hrate ht, if_neg (fun h => absurd h.2 (by omega)), floored_false,
    stayFee, capped, if_neg (by omega), meteredFee, timeFee_eq_sum rate (started_hours _).pos,
    surcharge_eq_card hr hzone ht]

theorem calculateTariff_addHours (hr : rate.NonNeg) (hcap : rate.dailyCap = 0)
    (hrate : config.vehicleTypes.lookup code = some rate) (hgrace : 0 ≤ config.gracePeriodMinutes)
    (hzone : exitTime.offset = entryTime.offset)
    (hpast : config.gracePeriodMinutes * microsPerMinute < exitTime.instant - entryTime.instant)
    (k : ℕ) :
    ∃ fee later, calculateTariff entryTime exitTime code config = .ok fee ∧
      calculateTariff entryTime (exitTime.addHours k) code config = .ok later ∧
      later - fee = k * laterPrice rate + rate.overnightTariff *
        ((nightMarks rate entryTime (exitTime.addHours k)).card -
          (nightMarks rate entryTime exitTime).card) ∧
      fee = ∑ i ∈ range (startedHours (exitTime.instant - entryTime.instant)), hourPrice rate i +
        rate.overnightTariff * (nightMarks rate entryTime exitTime).card := by
  have hlong : 0 ≤ config.gracePeriodMinutes * microsPerMinute := mul_nonneg hgrace (by decide)
  have hlater : exitTime.instant ≤ (exitTime.addHours k).instant :=
    le_add_of_nonneg_right (mul_nonneg (Int.natCast_nonneg k) (by decide))
  have hhours := (started_hours (exitTime.instant - entryTime.instant)).pos
  refine ⟨_, _, uncapped_fee hr hcap hrate hzone (by omega) hpast,
    uncapped_fee hr hcap hrate hzone (by omega) (by omega), ?_, rfl⟩
  rw [startedHours_addHours k (by omega), ← timeFee_eq_sum rate (by omega),
    ← timeFee_eq_sum rate hhours, timeFee_add rate hhours]
  ring

/-- Trucks pay by the hour and for each full day. -/
def truckRate : VehicleTypeRate :=
  { hourlyRate := 3000, dailyCap := 0, overnightMode := "24h", overnightTariff := 7000 }

theorem calculateTariff_addHours_truck :
    ∃ fee later,
      calculateTariff (.utc 0) (.utc microsPerHour) "TRUCK" ⟨[("TRUCK", truckRate)], 15⟩ =
        .ok fee ∧
      calculateTariff (.utc 0) ((DateTime.utc microsPerHour).addHours 30) "TRUCK"
        ⟨[("TRUCK", truckRate)], 15⟩ = .ok later ∧
      later - fee = (30 : ℕ) * laterPrice truckRate + truckRate.overnightTariff *
        ((nightMarks truckRate (.utc 0) ((DateTime.utc microsPerHour).addHours 30)).card -
          (nightMarks truckRate (.utc 0) (.utc microsPerHour)).card) ∧
      fee = ∑ i ∈ range (startedHours (microsPerHour - 0)), hourPrice truckRate i +
        truckRate.overnightTariff * (nightMarks truckRate (.utc 0) (.utc microsPerHour)).card :=
  have hr : truckRate.NonNeg := by decide
  calculateTariff_addHours hr rfl (by decide) (by decide) (by rfl) (by decide) 30

/-- What the started hours of the 24 h block number `j` of a stay cost. -/
def blockFee (rate : VehicleTypeRate) (duration : Int) (j : ℕ) : Int :=
  blockSum 24 (hourPrice rate) (startedHours duration) j

/-- No block of the stay costs less than the cap while another one costs more. -/
def OneSided (rate : VehicleTypeRate) (duration : Int) : Prop :=
  (∀ j ∈ range (startedBlocks duration), blockFee rate duration j ≤ rate.dailyCap) ∨
    ∀ j ∈ range (startedBlocks duration), rate.dailyCap ≤ blockFee rate duration j

/-- The cap is compared with the whole stay, not block by block. -/
theorem calculateTariff_blockwise (hcap : 0 < rate.dailyCap) (hmode : rate.overnightMode = "none")
    (hrate : config.vehicleTypes.lookup code = some rate)
    (ht : entryTime.instant ≤ exitTime.instant)
    (hpast : config.gracePeriodMinutes * microsPerMinute < exitTime.instant - entryTime.instant) :
    calculateTariff entryTime exitTime code config =
        .ok (∑ j ∈ range (startedBlocks (exitTime.instant - entryTime.instant)),
          min rate.dailyCap (blockFee rate (exitTime.instant - entryTime.instant) j)) ↔
      OneSided rate (exitTime.instant - entryTime.instant) := by
  have hfee : meteredFee rate entryTime exitTime =
      ∑ j ∈ range (startedBlocks (exitTime.instant - entryTime.instant)),
        blockFee rate (exitTime.instant - entryTime.instant) j := by
    rw [meteredFee, timeFee_eq_sum rate (started_hours _).pos, surcharge,
      if_neg fun h => h.1 hmode, add_zero]
    exact (sum_blockSum (startedBlocks_hours _) _).symm
  rw [calculateTariff_eq hrate ht, if_neg (fun h => absurd h.2 (by omega)), floored_false,
    stayFee, capped, if_pos hcap, hfee, Except.ok.injEq, min_comm, OneSided, ← sum_min_eq_iff,
    card_range, nsmul_eq_mul, eq_comm]

theorem calculateTariff_blockwise_mobil :
    calculateTariff (.utc 0) (.utc (72 * microsPerHour)) "MOBIL" defaultTariffConfig =
        .ok (∑ j ∈ range (startedBlocks (72 * microsPerHour - 0)),
          min 50000 (blockFee ⟨5000, 50000, 0, "none", 0, 0, false⟩ (72 * microsPerHour - 0) j)) ↔
      OneSided ⟨5000, 50000, 0, "none", 0, 0, false⟩ (72 * microsPerHour - 0) :=
  calculateTariff_blockwise (by decide) rfl (by decide) (by decide) (by decide)

/-- A car that stays 25 hours pays two daily caps, though its last hour costs 5000. -/
theorem fee_above_block_caps :
    calculateTariff (.utc 0) (.utc (25 * microsPerHour)) "MOBIL" defaultTariffConfig = .ok 100000 ∧
      ∑ j ∈ range (startedBlocks (25 * microsPerHour)),
        min 50000 (blockFee ⟨5000, 50000, 0, "none", 0, 0, false⟩ (25 * microsPerHour) j) =
          55000 := by
  decide

end Engine

end ParkIt
