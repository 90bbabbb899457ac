import ParkIt.Services.Accepting
import ParkIt.Pos

/-! The fee that the exit is quoted and the fee that it is charged, at one instant. -/
namespace ParkIt

open Effects Api

/-- The row is stored, with that type. -/
def Db.Typed (db : Db) (i : Id) (v : Option Id) : Prop :=
  (db.byId i).map (·.vehicleTypeId) = some v

/-- A payment that goes through takes the fee; one of less is refused and names it. The type that
was passed, or else the row's own, is on the row afterwards. -/
structure CashPayment.Charges (a : CashPayment) (w : World) (t : ParkingTransaction) (fee : Int) :
    Prop where
  taken : ∀ r w', (processCashPayment a).exec w = (.ok r, w') →
    fee ≤ a.paidAmount ∧ r.fee = fee ∧ (w'.db.byId t.id).map (·.fee) = some (some fee) ∧
      w'.db.Typed t.id (a.vehicleTypeId.or t.vehicleTypeId)
  refused : ∀ msg w', (processCashPayment a).exec w = (.error (.value msg), w') →
    (a.paidAmount : Int) < fee ∧ w'.db.Typed t.id (a.vehicleTypeId.or t.vehicleTypeId)
  goes : a.Fits w.db fee → ∃ r w', (processCashPayment a).exec w = (.ok r, w')

/-- The fee is armed for the gate with the row, unless Redis is down. -/
structure EmoneyDeduct.Arms (a : EmoneyDeduct) (w : World) (t : ParkingTransaction) (fee : Int) :
    Prop where
  armed : ∀ r w', (processEmoneyDeduct a).exec w = (.ok r, w') → r.fee = fee ∧
    w'.live (w'.pending a.gateId) =
      some { transactionId := t.id, gateOutId := a.gateOutId, fee } ∧
    w'.db.Typed t.id (a.vehicleTypeId.or t.vehicleTypeId)
  goes : w.redisDown = false → ∃ r w', (processEmoneyDeduct a).exec w = (.ok r, w')

section Rows
variable {db : Db} {t : ParkingTransaction} {v : Option Id}

theorem retype_vehicleTypeId : (t.retype v).vehicleTypeId = v.or t.vehicleTypeId := by
  cases v <;> rfl

theorem byId_retype (h : db.byId t.id = some t) :
    (db.retype t.id v).byId t.id = some (t.retype v) := by
  rw [byId_eq_findTx] at h ⊢
  rw [findTx_retype, h, Option.map_some]

theorem byId_exit {now : DateTime} {x : ExitColumns} (h : db.byId t.id = some t) :
    ((db.retype t.id v).setTx t.id (.exit now x)).byId t.id =
      some ((TxUpdate.exit now x).apply (t.retype v)) := by
  have hretype := byId_retype (v := v) h
  rw [byId_eq_findTx] at hretype ⊢
  rw [findTx_setTx, hretype, Option.map_some]

theorem typed_retype (h : db.byId t.id = some t) :
    (db.retype t.id v).Typed t.id (v.or t.vehicleTypeId) := by
  rw [Db.Typed, byId_retype h, Option.map_some, retype_vehicleTypeId]

end Rows

section Charge
variable {w : World} {t : ParkingTransaction} {fee : Int}

theorem lookup_quotes {r : LookupRequest}
    (ht : w.db.findActive r.barcode r.cardNumber r.plateNumber = some t)
    (hfee : quote w.db.vehicleTypes (.utc w.now) t r.vehicleTypeId = .ok fee) :
    ((lookupTransaction r).exec w).1 = .ok (some (t, fee)) := by
  obtain ⟨o, c', hrun, -, hfound, hquote⟩ := exec_total (lookupTransaction_spec (c := { world := w }) r)
  rw [ht] at hfound
  obtain ⟨⟨s, fee'⟩, rfl, hs⟩ := Option.map_eq_some_iff.mp hfound
  obtain rfl : s = t := hs
  obtain rfl : fee' = fee := Except.ok.inj ((hquote s fee' rfl).symm.trans hfee)
  rw [hrun]

theorem calculateFee_quotes {v : Option Id} (ht : w.db.byId t.id = some t)
    (ha : t.status = .active) (hfee : quote w.db.vehicleTypes (.utc w.now) t v = .ok fee) :
    ((calculateFee t.id v).exec w).1 = .ok fee := by
  have hspec := calculateFee_spec (c := { world := w }) t.id v
  obtain ⟨fee', c', hrun, -, s, hs, hquote⟩ :=
    exec_total (hspec.mono (fun _ _ h => h) fun _ _ h => h t ht ha)
  obtain rfl : s = t := Option.some.inj (hs.symm.trans ht)
  rw [hrun, Except.ok.inj (hquote.symm.trans hfee)]

theorem cash_charges {a : CashPayment} (hdb : w.db.Constrained)
    (ht : w.db.findActive a.barcode a.cardNumber a.plateNumber = some t)
    (hv : refOk (w.db.vehicleTypes.map (·.id)) a.vehicleTypeId = true)
    (hfee : quote w.db.vehicleTypes (.utc w.now) (t.retype a.vehicleTypeId) = .ok fee) :
    a.Charges w t fee := by
  have hrow := Db.byId_of_mem hdb.ids (Db.findActive_mem ht).1
  have hspec := processCashPayment_spec (c := { world := w }) a rfl
  constructor
  · intro r w' hrun
    obtain ⟨c', hok, rfl⟩ := exec_ok hspec hrun
    obtain ⟨s, now, shiftId, hs, hquote, hle, -, -, -, hstored⟩ := hok
    obtain rfl : s = t := Option.some.inj (hs.symm.trans ht)
    obtain rfl : r.fee = fee := Except.ok.inj (hquote.symm.trans hfee)
    rw [Db.Typed, hstored, byId_exit hrow]
    exact ⟨hle, rfl, rfl, congrArg some retype_vehicleTypeId⟩
  · intro msg w' hrun
    obtain ⟨c', ⟨-, herr⟩, rfl⟩ := exec_error hspec hrun
    obtain ⟨hnone, -⟩ | ⟨s, fee', hs, hquote, hlt, hstored⟩ := herr
    · cases hnone.symm.trans ht
    · obtain rfl : s = t := Option.some.inj (hs.symm.trans ht)
      obtain rfl : fee' = fee := Except.ok.inj (hquote.symm.trans hfee)
      exact ⟨hlt, by rw [hstored]; exact typed_retype hrow⟩
  · intro hfits
    obtain ⟨r, c', hrun, -⟩ := exec_total
      (processCashPayment_ok (c := { world := w }) rfl hdb ht hv hfee hfits)
    exact ⟨r, _, hrun⟩

theorem deduct_arms {a : EmoneyDeduct} (hdb : w.db.Constrained)
    (ht : w.db.findActive (some a.barcode) none none = some t)
    (hv : refOk (w.db.vehicleTypes.map (·.id)) a.vehicleTypeId = true)
    (hfee : quote w.db.vehicleTypes (.utc w.now) (t.retype a.vehicleTypeId) = .ok fee) :
    a.Arms w t fee := by
  have hrow := Db.byId_of_mem hdb.ids (Db.findActive_mem ht).1
  have hok := processEmoneyDeduct_ok (c := { world := w }) rfl hdb ht hv
  constructor
  · intro r w' hrun
    obtain ⟨c', ⟨hspec, hpending⟩, rfl⟩ := exec_ok
      ((processEmoneyDeduct_spec (c := { world := w }) a rfl).and (processEmoneyDeduct_pending a)) hrun
    obtain ⟨s, deadline, hs, hrt, hquote, hstored, -⟩ := hspec
    obtain rfl : s = t := Option.some.inj (hs.symm.trans ht)
    obtain rfl : r.fee = fee := Except.ok.inj (hquote.symm.trans hfee)
    rw [hrt, retype_id] at hpending
    rw [hpending, hstored]
    exact ⟨rfl, World.live_expiry _ _, typed_retype hrow⟩
  · intro hredis
    obtain ⟨r, c', hrun, -⟩ := exec_total
      (hok.mono (fun _ _ h => h) fun _ _ h => absurd (hredis.symm.trans h) (by decide))
    exact ⟨r, _, hrun⟩

/-- Whoever asks for the price of a stay at an instant, with no vehicle type or with one that
exists, active or not, is told the fee that a payment with that type is charged then. -/
theorem quoted_is_charged {v : Option Id} (hdb : w.db.Constrained) (ht : t ∈ w.db.parking)
    (ha : t.status = .active) (hv : refOk (w.db.vehicleTypes.map (·.id)) v = true) :
    ∃ fee,
      (∀ r : LookupRequest, r.vehicleTypeId = v →
        w.db.findActive r.barcode r.cardNumber r.plateNumber = some t →
        ((lookupTransaction r).exec w).1 = .ok (some (t, fee))) ∧
      ((calculateFee t.id v).exec w).1 = .ok fee ∧
      (∀ a : CashPayment, a.vehicleTypeId = v →
        w.db.findActive a.barcode a.cardNumber a.plateNumber = some t → a.Charges w t fee) ∧
      ∀ a : EmoneyDeduct, a.vehicleTypeId = v →
        w.db.findActive (some a.barcode) none none = some t → a.Arms w t fee := by
  obtain ⟨fee, hfee⟩ := quote_ok w.db.vehicleTypes (.utc w.now) t v
  have hcharge := hfee
  rw [quote_override, ← quote_retype] at hcharge
  refine ⟨fee, ?_, calculateFee_quotes (Db.byId_of_mem hdb.ids ht) ha hfee, ?_, ?_⟩
  · rintro r rfl hfound
    exact lookup_quotes hfound hfee
  · rintro a rfl hfound
    exact cash_charges hdb hfound hv hcharge
  · rintro a rfl hfound
    exact deduct_arms hdb hfound hv hcharge

end Charge

/-- The operator says that the waiting car is a bus. -/
theorem quoted_is_charged_bus :
    ((calculateFee 1 (some 2)).exec waitingCar).1 = .ok 20000 ∧
    (waitingCar.db.byId 1).map (·.vehicleTypeId) = some (some 1) ∧
    ∀ t, waitingCar.db.byId 1 = some t →
      CashPayment.Charges { gateId := "OUT1", gateOutId := 2, barcode := some "T1001",
                            paidAmount := 20000, vehicleTypeId := some 2 } waitingCar t 20000 ∧
      EmoneyDeduct.Arms { gateId := "OUT1", gateOutId := 2, barcode := "T1001",
                          vehicleTypeId := some 2 } waitingCar t 20000 := by
  have hquote : ((calculateFee 1 (some 2)).exec waitingCar).1 = .ok 20000 := rfl
  refine ⟨hquote, rfl, ?_⟩
  rintro t ⟨⟩
  have hdb : waitingCar.db.Constrained := ⟨by decide, by decide⟩
  obtain ⟨fee, -, hcalc, hcash, hdeduct⟩ :=
    quoted_is_charged (v := some 2) hdb (List.mem_singleton_self _) rfl rfl
  obtain rfl : (20000 : Int) = fee := Except.ok.inj (hquote.symm.trans hcalc)
  exact ⟨hcash _ rfl rfl, hdeduct _ rfl rfl⟩

end ParkIt
