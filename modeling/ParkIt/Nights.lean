import ParkIt.Pricing
import ParkIt.Services.Spec
import ParkIt.Settlement.Worker

/-! The overnight surcharge of a stay, and the zone in which its times happen to be shown. -/
namespace ParkIt
open Effects Api Settlement DateTime

/-- The same instant on the clocks of the facility. -/
def DateTime.onSite (t : DateTime) : DateTime := ⟨t.instant, jakartaOffset⟩

/-- By how many days the date shown is ahead of the date of the facility. -/
def DateTime.daysAhead (t : DateTime) : Int := t.date - t.onSite.date

def ParkingTransaction.onSite (t : ParkingTransaction) : ParkingTransaction :=
  { t with entryTime := t.entryTime.onSite }

/-- The exit that is charged: a clock behind the entry clock counts as no time at all. -/
def clampExit (entryTime exitTime : DateTime) : DateTime :=
  if exitTime.instant < entryTime.instant then entryTime else exitTime

/-- The fee of the stay contains a surcharge for each night counted. -/
def PaysNights (vt : VehicleType) (lost : Bool) (entryTime exitTime : DateTime) : Prop :=
  ¬WithinGrace vt.tariffConfig lost entryTime exitTime ∧ 0 < vt.overnightTariff

/-- Both dates shown are off by the same number of days, or no local midnight lies between them
and the later date is off by less. -/
def LocalNights (entryTime exitTime : DateTime) : Prop :=
  exitTime.daysAhead = entryTime.daysAhead ∨
    exitTime.onSite.date = entryTime.onSite.date ∧ exitTime.daysAhead < entryTime.daysAhead

section Counting
variable {vt : VehicleType} {lost : Bool} {entryTime exitTime : DateTime}

theorem le_clampExit (entryTime exitTime : DateTime) :
    entryTime.instant ≤ (clampExit entryTime exitTime).instant := by
  unfold clampExit
  split
  · exact le_rfl
  · omega

theorem clampExit_onSite (entryTime exitTime : DateTime) :
    clampExit entryTime.onSite exitTime.onSite = (clampExit entryTime exitTime).onSite :=
  (apply_ite DateTime.onSite _ _ _).symm

theorem nights_shown (hmode : vt.overnightMode = "midnight") :
    nights vt.rate entryTime exitTime = max 0 (exitTime.date - entryTime.date) := by
  simp [nights, VehicleType.rate, hmode]

/-- The count is right exactly when the dates shown stand in for the local ones. -/
theorem nights_eq_midnights (hmode : vt.overnightMode = "midnight")
    (ht : entryTime.instant ≤ exitTime.instant) :
    nights vt.rate entryTime exitTime =
        (midnights jakartaOffset entryTime.instant exitTime.instant).card ↔
      LocalNights entryTime exitTime := by
  have hlocal : entryTime.onSite.date ≤ exitTime.onSite.date :=
    Int.ediv_le_ediv (by decide) (by simpa [DateTime.onSite] using ht)
  have hcard : ((midnights jakartaOffset entryTime.instant exitTime.instant).card : Int) =
      exitTime.onSite.date - entryTime.onSite.date := card_midnights ht _
  rw [nights_shown hmode, hcard]
  unfold LocalNights daysAhead
  omega

theorem localNights_utc {a b : Int} (hab : a ≤ b) :
    LocalNights (.utc a) (.utc b) ↔
      (17 * microsPerHour ≤ a % microsPerDay ↔ 17 * microsPerHour ≤ b % microsPerDay) := by
  simp only [LocalNights, daysAhead, DateTime.date, DateTime.onSite, DateTime.utc, jakartaOffset,
    microsPerDay, microsPerHour, microsPerMinute]
  omega

theorem localNights_onSite : LocalNights entryTime.onSite exitTime.onSite :=
  Or.inl (by simp [daysAhead, DateTime.onSite])

end Counting

section Fee
variable {c : Conn} {vt : VehicleType} {t : ParkingTransaction} {exitTime : DateTime}
  {override : Option Id}

/-- The vehicle type that prices the transaction. -/
def PricedBy (c : Conn) (vt : VehicleType) (t : ParkingTransaction) (override : Option Id) : Prop :=
  (override.or t.vehicleTypeId).bind
    (fun i => c.world.db.vehicleTypes.find? fun v => v.id = i) = some vt

/-- The fee that `calculate_transaction_fee` answers. -/
def answeredFee (c : Conn) (t : ParkingTransaction) (exitTime : DateTime)
    (override : Option Id := none) : Except Exc Int :=
  ((calculateTransactionFee t (some exitTime) override).run execOp c).1

theorem run_tariffConfig (hvt : PricedBy c vt t override) :
    (getVehicleTypeTariffConfig (override.or t.vehicleTypeId)).run execOp c =
      (.ok (vt.tariffConfig, some vt.code), c) := by
  obtain ⟨i, hi, hfind⟩ := Option.bind_eq_some_iff.mp hvt
  have hrow : (ext (.vehicleType i)).run execOp c = (.ok (some vt), c) := by
    rw [← hfind]
    rfl
  rw [hi, getVehicleTypeTariffConfig, Prog.run_bind_ok _ _ hrow]
  rfl

theorem answeredFee_eq (hvt : PricedBy c vt t override) :
    answeredFee c t exitTime override =
      .ok (if WithinGrace vt.tariffConfig t.isLostTicket t.entryTime
            (clampExit t.entryTime exitTime) then 0
          else floored vt.rate t.isLostTicket
            (stayFee vt.rate t.entryTime (clampExit t.entryTime exitTime))) := by
  have hlookup : vt.tariffConfig.vehicleTypes.lookup vt.code = some vt.rate := by
    simp [VehicleType.tariffConfig]
  have hfee : calculateTariff t.entryTime (clampExit t.entryTime exitTime) vt.code
      vt.tariffConfig t.isLostTicket = _ :=
    calculateTariff_eq hlookup (le_clampExit t.entryTime exitTime)
  unfold clampExit at hfee ⊢
  rw [answeredFee, calculateTransactionFee, Prog.pure_bind']
  dsimp only
  rw [Prog.run_bind_ok _ _ (run_tariffConfig hvt)]
  dsimp only [Option.getD_some]
  rw [hfee]
  rfl

theorem surcharge_onSite {rate : VehicleTypeRate} {entryTime : DateTime}
    (h : 0 < rate.overnightTariff →
      nights rate entryTime exitTime = nights rate entryTime.onSite exitTime.onSite) :
    surcharge rate entryTime exitTime = surcharge rate entryTime.onSite exitTime.onSite := by
  unfold surcharge
  split
  · rename_i hpaid
    rw [h hpaid.2]
  · rfl

/-- Where the nights count alike, the zone in which the times are shown does not matter. -/
theorem answeredFee_onSite (hvt : PricedBy c vt t override)
    (h : PaysNights vt t.isLostTicket t.entryTime (clampExit t.entryTime exitTime) →
      nights vt.rate t.entryTime (clampExit t.entryTime exitTime) =
        nights vt.rate t.entryTime.onSite (clampExit t.entryTime exitTime).onSite) :
    answeredFee c t exitTime override = answeredFee c t.onSite exitTime.onSite override := by
  have hvt' : PricedBy c vt t.onSite override := hvt
  rw [answeredFee_eq hvt, answeredFee_eq hvt']
  simp only [ParkingTransaction.onSite, clampExit_onSite]
  by_cases hgrace : WithinGrace vt.tariffConfig t.isLostTicket t.entryTime
      (clampExit t.entryTime exitTime)
  · rw [if_pos hgrace]
    exact (congrArg Except.ok (if_pos hgrace)).symm
  · have hmetered : meteredFee vt.rate t.entryTime (clampExit t.entryTime exitTime) =
        meteredFee vt.rate t.entryTime.onSite (clampExit t.entryTime exitTime).onSite :=
      congrArg _ (surcharge_onSite fun hpaid => h ⟨hgrace, hpaid⟩)
    rw [if_neg hgrace, stayFee, hmetered]
    exact (congrArg Except.ok (if_neg hgrace)).symm

/-- The fee counts local midnights exactly when the dates shown stand in for the local ones. -/
theorem fee_counts_local_nights (hvt : PricedBy c vt t override)
    (hmode : vt.overnightMode = "midnight") :
    let exitTime' := clampExit t.entryTime exitTime
    (answeredFee c t exitTime override = answeredFee c t.onSite exitTime.onSite override ∧
      (PaysNights vt t.isLostTicket t.entryTime exitTime' →
        nights vt.rate t.entryTime exitTime' =
          (midnights jakartaOffset t.entryTime.instant exitTime'.instant).card)) ↔
      (PaysNights vt t.isLostTicket t.entryTime exitTime' → LocalNights t.entryTime exitTime') := by
  intro exitTime'
  have ht : t.entryTime.instant ≤ exitTime'.instant := le_clampExit _ _
  have hcount := nights_eq_midnights hmode ht
  have honSite : nights vt.rate t.entryTime.onSite exitTime'.onSite =
      (midnights jakartaOffset t.entryTime.instant exitTime'.instant).card :=
    (nights_eq_midnights hmode (by exact ht)).mpr localNights_onSite
  constructor
  · rintro ⟨-, hnights⟩ hpays
    exact hcount.mp (hnights hpays)
  · intro hlocal
    have hnights := fun hpays => hcount.mpr (hlocal hpays)
    exact ⟨answeredFee_onSite hvt fun hpays => (hnights hpays).trans honSite.symm, hnights⟩

/-- With the times in UTC: entry and exit both fall before 07:00 local time, or neither does. -/
theorem utc_fee_counts_local_nights {a b : Int} (hvt : PricedBy c vt t override)
    (hmode : vt.overnightMode = "midnight") (hentry : t.entryTime = .utc a) (hab : a ≤ b)
    (hpays : PaysNights vt t.isLostTicket (.utc a) (.utc b)) :
    (answeredFee c t (.utc b) override = answeredFee c t.onSite (DateTime.utc b).onSite override ∧
      nights vt.rate (.utc a) (.utc b) = (midnights jakartaOffset a b).card) ↔
      (17 * microsPerHour ≤ a % microsPerDay ↔ 17 * microsPerHour ≤ b % microsPerDay) := by
  have hclamp : clampExit (.utc a) (.utc b) = .utc b :=
    if_neg (by simpa [DateTime.utc] using hab)
  have h := @fee_counts_local_nights c vt t (.utc b) override hvt hmode
  simp only [hentry, hclamp, hpays, true_imp_iff, localNights_utc hab] at h
  exact h

/-- Cars pay by the hour and for each midnight. -/
def nightCar : VehicleType :=
  { id := 1, code := "MOBIL", hourlyRate := 5000, overnightTariff := 10000 }

def nightSite : Conn where
  world := { db := { vehicleTypes := [nightCar] }, nextTx := 2, nextEmoney := 1, now := 0 }

/-- A car that entered at 23:00 local time, as the database returns it. -/
def nightStay : ParkingTransaction :=
  { id := 1, vehicleTypeId := some 1, entryTime := .utc (16 * microsPerHour) }

theorem fee_counts_local_nights_evening :
    let exitTime' := clampExit nightStay.entryTime (.utc (20 * microsPerHour))
    (answeredFee nightSite nightStay (.utc (20 * microsPerHour)) none =
        answeredFee nightSite nightStay.onSite (DateTime.utc (20 * microsPerHour)).onSite none ∧
      (PaysNights nightCar nightStay.isLostTicket nightStay.entryTime exitTime' →
        nights nightCar.rate nightStay.entryTime exitTime' =
          (midnights jakartaOffset nightStay.entryTime.instant exitTime'.instant).card)) ↔
      (PaysNights nightCar nightStay.isLostTicket nightStay.entryTime exitTime' →
        LocalNights nightStay.entryTime exitTime') :=
  fee_counts_local_nights (by rfl) (by rfl)

/-- Out at 01:00 the next morning: no surcharge, as in UTC the day is still the same. -/
theorem local_midnight_not_charged :
    answeredFee nightSite nightStay (.utc (18 * microsPerHour)) = .ok 10000 ∧
      answeredFee nightSite nightStay.onSite (DateTime.utc (18 * microsPerHour)).onSite =
        .ok 20000 ∧
      nights nightCar.rate nightStay.entryTime (.utc (18 * microsPerHour)) = 0 ∧
      (midnights jakartaOffset (16 * microsPerHour) (18 * microsPerHour)).card = 1 := by
  have hcard : ((midnights jakartaOffset (16 * microsPerHour) (18 * microsPerHour)).card : Int) =
      1 := by
    rw [card_midnights (by decide)]
    decide
  exact ⟨by rfl, by rfl, by decide, by exact_mod_cast hcard⟩

end Fee

end ParkIt
