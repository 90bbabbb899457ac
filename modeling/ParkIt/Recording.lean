import ParkIt.Atomicity
import ParkIt.Services.Accepting

/-! When a deduct that succeeded on the card is recorded, and when it is refused. -/
namespace ParkIt

open Effects Api

/-- The pending deduct is live, its row is ACTIVE and free, and the database accepts the result. -/
structure Recordable (w : World) (r : EmoneyResultRequest) (pending : Pending)
    (t : ParkingTransaction) : Prop where
  redis : w.redisDown = false
  armed : w.live (w.pending r.gateId) = some pending
  row : w.db.findTx pending.transactionId = some t
  active : t.status = .active
  free : t.id ∉ w.contended
  stored : w.db.acceptsTx t = true
  /-- No other ACTIVE row has the card: `uq_active_card` would refuse it. -/
  card : ∀ s ∈ w.db.parking, s.id ≠ t.id → s.status = .active → s.cardNumber ≠ some r.cardNumber
  gate : refOk (w.db.gates.map (·.id)) (some (orInt pending.gateOutId r.gateOutId)) = true
  values : w.db.acceptsEmoney ((r.result .success none).row t.id) = true

/-- The guards of `process_emoney_result`: nothing armed, or the armed row is not ACTIVE. -/
def Unarmed (w : World) (r : EmoneyResultRequest) : Prop :=
  ∀ pending t, w.live (w.pending r.gateId) = some pending →
    w.db.findTx pending.transactionId = some t → t.status ≠ .active

def WithinLimit (w : World) (gateId : String) : Prop :=
  gateId = "" ∨ w.redisDown = true ∨ gateId ∉ w.limited

/-- An e-money row that documents the deduct of the request. -/
def EmoneyTransaction.Records (e : EmoneyTransaction) (r : EmoneyResultRequest) : Prop :=
  e.cardNumber = r.cardNumber ∧ e.amountDeducted = r.deductAmount ∧
    e.transactionCounter = some (r.transactionCounter : Int)

section Requests
variable {w : World} {r : EmoneyResultRequest} {pending : Pending} {t : ParkingTransaction}

theorem processEmoneyResult_records (hn : (w.db.parking.map (·.id)).Nodup)
    (h : Recordable w r pending t) :
    Prog.Ensures execOp (processEmoneyResult (r.result .success none)) { world := w }
      (fun o c' => o.success = true ∧ ∃ e ∈ c'.world.db.emoney, e.Records r)
      (fun _ _ => False) := by
  have hok := processEmoneyResult_ok (c := { world := w }) (a := r.result .success none) hn
    h.armed h.row h.active h.stored (fun _ => h.card)
    { redis := h.redis, free := h.free, values := h.values, exit := fun _ => ⟨h.gate, rfl⟩ }
  refine ((processEmoneyResult_spec _).and hok).mono ?_ fun _ _ hf => hf.2
  rintro o c' ⟨⟨p, s, -, -, -, -, hs, hdb, -⟩, -⟩
  obtain ⟨now, shiftId, hdb⟩ := hdb
  refine ⟨hs, ((r.result .success none).row s.id).stored w.nextEmoney w.now, ?_, rfl, rfl, rfl⟩
  rw [hdb]
  exact List.mem_append_right _ (List.mem_singleton_self _)

/-- Refused: nothing is recorded, and no answer claims success. -/
theorem processEmoneyResult_refused (hun : Unarmed w r) (a : EmoneyResult)
    (hg : a.gateId = r.gateId) :
    Prog.Ensures execOp (processEmoneyResult a) { world := w } (fun _ _ => False)
      (onValue fun _ c' => c'.world.db = w.db) := by
  refine (processEmoneyResult_spec a).mono ?_ fun _ _ he => he.mono fun _ h => h.1
  rintro o c' ⟨pending, t, hp, ht, hactive, -⟩
  rw [hg] at hp
  rw [byId_eq_findTx] at ht
  exact hun pending t hp ht hactive

theorem enforceBoothRateLimit_ok (hl : WithinLimit w r.gateId) {ok : Unit → Conn → Prop}
    {err : Exc → Conn → Prop} (h : ok () { world := w }) :
    Prog.Ensures execOp (enforceBoothRateLimit r.gateId) { world := w } ok err := by
  unfold enforceBoothRateLimit
  split
  · exact h
  · rename_i hne
    rw [Prog.ensures_bind, ensures_ext]
    dsimp only [execEffect]
    rw [if_pos]
    · exact h
    · obtain hg | hd | hm := hl
      · exact (hne hg).elim
      · simp [hd]
      · simp [hm]

theorem emoneyBoothResult_success {ok : PaymentResponse → Conn → Prop} {err : Exc → Conn → Prop}
    (hs : r.status = DeductStatus.success.value) (hl : WithinLimit w r.gateId)
    (h : Prog.Ensures execOp (respond do
      let result ← processEmoneyResult (r.result .success none)
      pure (emoneyResponse r.deductAmount result)) { world := w } ok err) :
    Prog.Ensures execOp (emoneyBoothResult r) { world := w } ok err := by
  unfold emoneyBoothResult emoneyResult
  rw [Prog.ensures_bind, hs, DeductStatus.parse_value]
  exact enforceBoothRateLimit_ok hl h

theorem emoneyBoothResult_recorded (hn : (w.db.parking.map (·.id)).Nodup)
    (hs : r.status = DeductStatus.success.value) (hl : WithinLimit w r.gateId)
    (h : Recordable w r pending t) :
    Prog.Ensures execOp (emoneyBoothResult r) { world := w }
      (fun resp c' => resp.success = true ∧ ∃ e ∈ c'.world.db.emoney, e.Records r)
      (fun _ _ => False) := by
  refine emoneyBoothResult_success hs hl (ensures_respond ?_)
  exact (processEmoneyResult_records hn h).bind (fun _ _ hf => hf.elim) fun o c' ho => ho

theorem emoneyBoothResult_refused (hs : r.status = DeductStatus.success.value)
    (hl : WithinLimit w r.gateId) (hun : Unarmed w r) :
    Prog.Ensures execOp (emoneyBoothResult r) { world := w }
      (fun resp c' => resp.success = false ∧ c'.world.db = w.db) (fun _ _ => True) := by
  refine emoneyBoothResult_success hs hl (ensures_respond ?_)
  refine (processEmoneyResult_refused hun _ rfl).bind ?_ fun _ _ hf => hf.elim
  rintro (msg | _ | _ | _) c' he
  · exact ⟨rfl, he⟩
  all_goals trivial

/-- A deduct that the code can attach to its arm is recorded; one that it cannot is refused. -/
theorem result_recorded_or_refused (hn : (w.db.parking.map (·.id)).Nodup)
    (hs : r.status = DeductStatus.success.value) (hl : WithinLimit w r.gateId) :
    ((∃ pending t, Recordable w r pending t) →
      ∃ resp w', withDb (emoneyBoothResult r) w = (.ok resp, w') ∧ resp.success = true ∧
        ∃ e ∈ w'.db.emoney, e.Records r) ∧
    (Unarmed w r → (withDb (emoneyBoothResult r) w).2.db = w.db ∧
      ∀ resp, (withDb (emoneyBoothResult r) w).1 = .ok resp → resp.success = false) := by
  constructor
  · rintro ⟨pending, t, h⟩
    have hrun := emoneyBoothResult_recorded hn hs hl h
    rcases hw : withDb (emoneyBoothResult r) w with ⟨e | resp, w'⟩
    · unfold withDb Api.exec at hw
      unfold Prog.Ensures at hrun
      rcases hp : (emoneyBoothResult r).run execOp { world := w } with ⟨e | b, c'⟩ <;>
        rw [hp] at hw hrun <;> cases hw
      exact hrun.elim
    · obtain ⟨c', hc, rfl⟩ := withDb_of_ensures hrun hw
      exact ⟨resp, _, rfl, hc⟩
  · intro hun
    have hrun := emoneyBoothResult_refused hs hl hun
    rcases hw : withDb (emoneyBoothResult r) w with ⟨e | resp, w'⟩
    · exact ⟨withDb_error hw, by rintro _ ⟨⟩⟩
    · obtain ⟨c', ⟨hfail, hdb⟩, rfl⟩ := withDb_of_ensures hrun hw
      exact ⟨hdb, by rintro _ ⟨⟩; exact hfail⟩

end Requests

/-- The fee of the waiting car is armed at the exit. -/
def armedBooth : World :=
  (Call.deduct { gateId := "OUT1", gateOutId := 2, barcode := "T1001" }).after waitingCar

def tap : EmoneyResultRequest where
  gateId := "OUT1"
  gateOutId := 2
  cardNumber := "6013500100"
  status := "SUCCESS"
  deductAmount := 6000
  balanceBefore := 9000
  balanceAfter := 3000
  transactionCounter := 5
  cardNumber_length := by decide
  cardTypeCode_byte := no_cardTypeCode

theorem result_recorded_armed :
    (∃ resp w', withDb (emoneyBoothResult tap) armedBooth = (.ok resp, w') ∧ resp.success = true ∧
      ∃ e ∈ w'.db.emoney, e.Records tap) :=
  (result_recorded_or_refused (by decide) rfl (Or.inr (Or.inr (by decide)))).1
    ⟨{ transactionId := 1, gateOutId := 2, fee := 6000 }, _,
      { redis := rfl, armed := rfl, row := rfl, active := rfl, free := by decide, stored := rfl,
        card := by decide, gate := rfl, values := by decide }⟩

/-- The driver paid cash meanwhile: the debited card leaves no trace. -/
theorem result_lost_after_cash :
    let w := (Call.cash { gateId := "OUT1", gateOutId := 2, barcode := some "T1001",
                          paidAmount := 6000 }).after armedBooth
    w.db.parking.map (·.paymentMethod) = [some .cash] ∧
    (withDb (emoneyBoothResult tap) w).1 =
      .ok (failedResponse "Pending transaction missing or already completed") ∧
    (withDb (emoneyBoothResult tap) w).2.db.emoney = [] :=
  ⟨rfl, rfl, rfl⟩

end ParkIt
