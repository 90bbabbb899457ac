import ParkIt.Calls

/-! What a payment request that is refused leaves in the database. -/
namespace ParkIt

open Effects Api

inductive Attempt where
  | cash (key : Option String) (operatorId : Option Id) (r : CashPaymentRequest)
  | arm (operatorId : Option Id) (r : EmoneyDeductRequest)

def Attempt.route : Attempt → Api PaymentResponse
  | .cash key operatorId r => cashPayment key operatorId r
  | .arm operatorId r => emoneyDeduct operatorId r

/-- A cash payment that is not answered from the cache finds its row and is given another vehicle
type than the stored one; the row is rewritten before the amount is checked. -/
def Attempt.Retypes (w : World) : Attempt → Prop
  | .cash key _ r => w.cachedAnswer key = none ∧ ∃ t v,
      w.db.findActive r.barcode none r.plateNumber = some t ∧ r.vehicleTypeId = some v ∧
      t.vehicleTypeId ≠ some v
  | .arm _ _ => False

section Refused
variable {w w' : World} {db : Db} {t : ParkingTransaction} {resp : PaymentResponse}

theorem retype_eq_self (hn : (db.parking.map (·.id)).Nodup) (ht : t ∈ db.parking)
    {v : Option Id} : db.retype t.id v = db ↔ ∀ i, v = some i → t.vehicleTypeId = some i := by
  cases v with
  | none => simp [Db.retype]
  | some i =>
    constructor
    · rintro h _ ⟨⟩
      have hmem : (TxUpdate.vehicleTypeId i).apply t ∈ db.parking := by
        have := Db.mem_setTx_self (u := .vehicleTypeId i) ht
        rwa [show db.setTx t.id (.vehicleTypeId i) = db from h] at this
      exact congrArg (·.vehicleTypeId) (Db.eq_of_id hn ht hmem rfl)
    · intro h
      have hrow : ∀ s ∈ db.parking,
          (if s.id = t.id then (TxUpdate.vehicleTypeId i).apply s else s) = s := by
        intro s hs
        split
        · rename_i he
          obtain rfl := Db.eq_of_id hn hs ht he
          simp [TxUpdate.apply, ← h i rfl]
        · rfl
      have hmap := (List.map_congr_left hrow).trans (List.map_id _)
      simp only [Db.retype, Db.setTx]
      rw [hmap]

theorem cash_refused (hn : (w.db.parking.map (·.id)).Nodup) (key : Option String)
    (operatorId : Option Id) (r : CashPaymentRequest) :
    Prog.Ensures execOp (cashPayment key operatorId r) { world := w }
      (fun resp c' => resp.success = false →
        (c'.world.db = w.db ↔ ¬ (Attempt.cash key operatorId r).Retypes w)) (fun _ _ => True) := by
  unfold cashPayment idempotent
  rw [Prog.ensures_bind]
  refine checkIdempotency_spec key ?_
  rcases hk : w.cachedAnswer key with _ | cached
  · refine ensures_respond ?_
    rw [Prog.ensures_bind, Prog.ensures_bind]
    refine (processCashPayment_spec _ rfl).mono ?_ ?_
    · rintro result c' -
      refine (storeIdempotency_spec key _).bind (fun _ _ h => h.elim) ?_
      rintro - c'' - ⟨⟩
    · rintro (msg | _ | _ | _) c' h
      · rintro -
        obtain ⟨-, ⟨hnone, hdb⟩ | ⟨t, fee, ht, -, -, hdb⟩⟩ := h
        · have hno : ¬ (Attempt.cash key operatorId r).Retypes w := by
            rintro ⟨-, t, v, ht, -⟩
            cases hnone.symm.trans ht
          simp [hdb, hno]
        · have hself := retype_eq_self hn (Db.findActive_mem ht).1 (v := r.vehicleTypeId)
          rw [hdb]
          refine hself.trans ⟨?_, ?_⟩
          · rintro hv ⟨-, t', v, ht', hr, hne⟩
            cases ht.symm.trans ht'
            exact hne (hv v hr)
          · intro hno i hi
            by_contra hne
            exact hno ⟨hk, t, i, ht, hi, hne⟩
      all_goals trivial
  · intro _
    simp [Attempt.Retypes, hk]

theorem arm_refused (operatorId : Option Id) (r : EmoneyDeductRequest) :
    Prog.Ensures execOp (emoneyDeduct operatorId r) { world := w }
      (fun resp c' => resp.success = false → c'.world.db = w.db) (fun _ _ => True) := by
  refine ensures_respond ((processEmoneyDeduct_spec _ rfl).bind ?_ ?_)
  · rintro (msg | _ | _ | _) c' h
    · exact fun _ => congrArg (·.world.db) h.1
    all_goals trivial
  · rintro _ c' - ⟨⟩

/-- A refused payment leaves the database alone unless it retypes a row. -/
theorem refused_unchanged_iff (hn : (w.db.parking.map (·.id)).Nodup) (a : Attempt)
    (h : withDb a.route w = (.ok resp, w')) (hresp : resp.success = false) :
    w'.db = w.db ↔ ¬ a.Retypes w := by
  cases a with
  | cash key operatorId r =>
    obtain ⟨c', hc, rfl⟩ := withDb_of_ensures (cash_refused hn key operatorId r) h
    exact hc hresp
  | arm operatorId r =>
    obtain ⟨c', hc, rfl⟩ := withDb_of_ensures (arm_refused operatorId r) h
    simp [hc hresp, Attempt.Retypes]

end Refused

def underpaidBus : Attempt :=
  .cash none none
    { gateId := "OUT1", gateOutId := 2, barcode := some "T1001", paidAmount := 6000,
      vehicleTypeId := some 2 }

def unknownTicket : Attempt :=
  .cash none none
    { gateId := "OUT1", gateOutId := 2, barcode := some "T9999", paidAmount := 6000,
      vehicleTypeId := some 2 }

theorem refused_unchanged_iff_unknown_ticket :
    (withDb unknownTicket.route waitingCar).2.db = waitingCar.db :=
  (refused_unchanged_iff (by decide) unknownTicket rfl rfl).mpr (by
    rintro ⟨-, t, v, ht, -⟩
    cases ht)

/-- The refused request has changed the price: 6000 is the fee of the car, not of the bus. -/
theorem refused_changes_fee :
    ∃ w', withDb underpaidBus.route waitingCar =
        (.ok (failedResponse "Insufficient payment: 6000 < 20000"), w') ∧
      w'.db ≠ waitingCar.db ∧
      w'.db.parking.map (quote w'.db.vehicleTypes (.utc w'.now) ·) = [.ok 20000] ∧
      waitingCar.db.parking.map (quote waitingCar.db.vehicleTypes (.utc waitingCar.now) ·) =
        [.ok 6000] :=
  ⟨_, rfl, by decide, by decide, by decide⟩

end ParkIt
