import ParkIt.Calls

/-! What the rows of the ledger say about money, in every reachable state. -/
namespace ParkIt

open Effects Api

/-- A stored deduct that paid for the parking row `i`. -/
def EmoneyTransaction.Pays (e : EmoneyTransaction) (i : Id) : Prop :=
  e.parkingTransactionId = some i ∧ e.status.isSuccess = true

def ParkingTransaction.CompletedBy (t : ParkingTransaction) (m : PaymentMethod) : Prop :=
  t.status = .completed ∧ t.paymentMethod = some m

/-- `ks` are the calls made so far; they say which members have tapped. -/
structure RowLedger (ks : List (Option Call)) (db : Db) (t : ParkingTransaction) : Prop where
  active : t.status = .active → t.exitTime = none ∧ t.gateOutId = none ∧ t.fee = none ∧
    t.paidAmount = none ∧ t.emoneyTransactionId = none
  cash : t.CompletedBy .cash → ∃ fee paid, t.fee = some fee ∧ t.paidAmount = some paid ∧
    0 ≤ fee ∧ fee ≤ paid
  rfid : t.CompletedBy .rfidMember → t.fee = some 0 ∧ ∃ a m, some (.rfid a) ∈ ks ∧
    t.cardNumber = some a.cardNumber ∧
    db.members.find? (activeMember a.cardNumber) = some m ∧ t.memberId = some m.id
  emoney : t.CompletedBy .emoney → ∃ e ∈ db.emoney, t.emoneyTransactionId = some e.id ∧
    t.fee = some e.amountDeducted ∧ t.paidAmount = some e.amountDeducted ∧ e.Pays t.id ∧
    ∀ e' ∈ db.emoney, e'.Pays t.id → e' = e
  unpaid : ¬ t.CompletedBy .emoney → ∀ e ∈ db.emoney, ¬ e.Pays t.id

/-- Keys are distinct and were issued by the sequences. -/
structure LedgerKeys (w : World) : Prop where
  ids : (w.db.parking.map (·.id)).Nodup
  fresh : ∀ t ∈ w.db.parking, t.id < w.nextTx
  emoneyIds : (w.db.emoney.map (·.id)).Nodup
  emoneyFresh : ∀ e ∈ w.db.emoney, e.id < w.nextEmoney
  linked : ∀ e ∈ w.db.emoney, ∀ i, e.parkingTransactionId = some i → i < w.nextTx
  rates : ∀ v ∈ w.db.vehicleTypes, v.rate.NonNeg

structure LedgerInv (ks : List (Option Call)) (w : World) : Prop extends LedgerKeys w where
  rows : ∀ t ∈ w.db.parking, RowLedger ks w.db t

section Fresh
variable {α : Type} {f : α → Id} {l : List α} {x : α} {n : Id}

theorem nodup_snoc (h : (l.map f).Nodup) (hlt : ∀ y ∈ l, f y < n) (hx : f x = n) :
    ((l ++ [x]).map f).Nodup := by
  rw [List.map_append, List.map_singleton, hx]
  refine List.nodup_append.mpr ⟨h, List.nodup_singleton n, ?_⟩
  rintro _ hi j hj rfl
  obtain ⟨y, hy, heq⟩ := List.mem_map.mp hi
  exact absurd (hlt y hy) (by rw [heq, List.mem_singleton.mp hj]; exact lt_irrefl n)

theorem fresh_snoc (hlt : ∀ y ∈ l, f y < n) (hx : f x = n) : ∀ y ∈ l ++ [x], f y < n + 1 := by
  intro y hy
  rcases List.mem_append.mp hy with h | h
  · exact Int.lt_add_one_of_le (hlt y h).le
  · rw [List.mem_singleton.mp h, hx]
    exact Int.lt_succ n

end Fresh

section Rows
variable {ks ks' : List (Option Call)} {db db' : Db} {t : ParkingTransaction} {u : TxUpdate}
  {e : EmoneyTransaction}

theorem not_completedBy_of_active {m : PaymentMethod} (h : t.status = .active) :
    ¬ t.CompletedBy m := by
  rintro ⟨hc, -⟩
  rw [h] at hc
  cases hc

theorem RowLedger.mono (h : RowLedger ks db t) (hks : ∀ k ∈ ks, k ∈ ks') : RowLedger ks' db t :=
  ⟨h.active, h.cash, fun hc => ⟨(h.rfid hc).1, by
    obtain ⟨-, a, m, ha, hrest⟩ := h.rfid hc
    exact ⟨a, m, hks _ ha, hrest⟩⟩, h.emoney, h.unpaid⟩

/-- A row reads only the e-money table and the members. -/
theorem RowLedger.of_tables (h : RowLedger ks db t) (he : db'.emoney = db.emoney)
    (hm : db'.members = db.members) : RowLedger ks db' t := by
  constructor
  · exact h.active
  · exact h.cash
  · rw [hm]; exact h.rfid
  · rw [he]; exact h.emoney
  · rw [he]; exact h.unpaid

/-- A row that has no payment stays an ACTIVE row under the updates before its completion. -/
theorem RowLedger.of_active (ha : t.status = .active)
    (hnull : t.exitTime = none ∧ t.gateOutId = none ∧ t.fee = none ∧ t.paidAmount = none ∧
      t.emoneyTransactionId = none) (hno : ∀ e ∈ db.emoney, ¬ e.Pays t.id) :
    RowLedger ks db t :=
  ⟨fun _ => hnull, fun h => (not_completedBy_of_active ha h).elim,
    fun h => (not_completedBy_of_active ha h).elim,
    fun h => (not_completedBy_of_active ha h).elim, fun _ => hno⟩

theorem RowLedger.retype (h : RowLedger ks db t) (ha : t.status = .active) (v : Option Id) :
    RowLedger ks db (t.retype v) := by
  cases v with
  | none => exact h
  | some v => exact .of_active ha (h.active ha) (h.unpaid (not_completedBy_of_active ha))

theorem RowLedger.setCard (h : RowLedger ks db t) (ha : t.status = .active) (card : String) :
    RowLedger ks db (t.setCard card) := by
  unfold ParkingTransaction.setCard
  split
  · exact h
  · exact .of_active ha (h.active ha) (h.unpaid (not_completedBy_of_active ha))

theorem RowLedger.addEmoney (h : RowLedger ks db t) (he : ¬ e.Pays t.id) :
    RowLedger ks (db.addEmoney e) t := by
  have hmem : ∀ {e'}, e' ∈ (db.addEmoney e).emoney → e'.Pays t.id → e' ∈ db.emoney := by
    intro e' he' hp
    rcases List.mem_append.mp he' with h' | h'
    · exact h'
    · exact (he (List.mem_singleton.mp h' ▸ hp)).elim
  refine ⟨h.active, h.cash, h.rfid, fun hc => ?_, fun hn e' he' hp => h.unpaid hn e' (hmem he' hp) hp⟩
  obtain ⟨e₀, he₀, hid, hf, hpaid, hpays, huniq⟩ := h.emoney hc
  exact ⟨e₀, List.mem_append_left _ he₀, hid, hf, hpaid, hpays,
    fun e' he' hp => huniq e' (hmem he' hp) hp⟩

end Rows

section Exits
variable {ks : List (Option Call)} {db : Db} {t : ParkingTransaction} (now : DateTime)
  (shiftId : Option Id)

theorem RowLedger.exitCash {a : CashPayment} {fee : Int} (h : RowLedger ks db t)
    (ha : t.status = .active) (h0 : 0 ≤ fee) (hpaid : fee ≤ a.paidAmount) :
    RowLedger ks db ((TxUpdate.exit now (a.exit fee shiftId)).apply t) where
  active h := nomatch h
  cash _ := ⟨fee, a.paidAmount, rfl, rfl, h0, hpaid⟩
  rfid h := nomatch h.2
  emoney h := nomatch h.2
  unpaid _ := h.unpaid (not_completedBy_of_active ha)

theorem RowLedger.exitRfid {a : RfidPayment} {m : Member} (h : RowLedger ks db t)
    (ha : t.status = .active) (hk : some (.rfid a) ∈ ks) (hcard : t.cardNumber = some a.cardNumber)
    (hm : db.members.find? (activeMember a.cardNumber) = some m) :
    RowLedger ks db ((TxUpdate.exit now (a.exit m.id shiftId)).apply t) where
  active h := nomatch h
  cash h := nomatch h.2
  rfid _ := ⟨rfl, a, m, hk, hcard, hm, rfl⟩
  emoney h := nomatch h.2
  unpaid _ := h.unpaid (not_completedBy_of_active ha)

theorem RowLedger.exitEmoney {a : EmoneyResult} {p : Pending} {e : EmoneyTransaction}
    (h : RowLedger ks db t) (ha : t.status = .active) (he : e.Pays t.id)
    (hamount : e.amountDeducted = a.deductAmount) :
    RowLedger ks (db.addEmoney e) ((TxUpdate.exit now (a.exit p e.id shiftId)).apply t) where
  active h := nomatch h
  cash h := nomatch h.2
  rfid h := nomatch h.2
  unpaid hn := (hn ⟨rfl, rfl⟩).elim
  emoney _ := by
    refine ⟨e, List.mem_append_right _ (List.mem_singleton_self e), rfl, ?_, ?_, he, ?_⟩
    · rw [hamount]; rfl
    · rw [hamount]; rfl
    · intro e' he' hp
      rcases List.mem_append.mp he' with h' | h'
      · exact (h.unpaid (not_completedBy_of_active ha) e' h' hp).elim
      · exact List.mem_singleton.mp h'

end Exits

section Inv
variable {ks ks' : List (Option Call)} {w w' : World} {t : ParkingTransaction} {u : TxUpdate}

theorem LedgerInv.mono (h : LedgerInv ks w) (hks : ∀ k ∈ ks, k ∈ ks') : LedgerInv ks' w :=
  { h with rows := fun t ht => (h.rows t ht).mono hks }

theorem LedgerKeys.of_db (h : LedgerKeys w) (hdb : w'.db = w.db) (htx : w.nextTx ≤ w'.nextTx)
    (hem : w.nextEmoney ≤ w'.nextEmoney) : LedgerKeys w' := by
  constructor
  · rw [hdb]; exact h.ids
  · rw [hdb]; exact fun t ht => (h.fresh t ht).trans_le htx
  · rw [hdb]; exact h.emoneyIds
  · rw [hdb]; exact fun e he => (h.emoneyFresh e he).trans_le hem
  · rw [hdb]; exact fun e he i hi => (h.linked e he i hi).trans_le htx
  · rw [hdb]; exact h.rates

/-- Only the database and the sequences matter. -/
theorem LedgerInv.of_db (h : LedgerInv ks w) (hdb : w'.db = w.db) (htx : w.nextTx ≤ w'.nextTx)
    (hem : w.nextEmoney ≤ w'.nextEmoney) : LedgerInv ks w' :=
  ⟨h.toLedgerKeys.of_db hdb htx hem, by rw [hdb]; exact h.rows⟩

theorem LedgerKeys.setTx (h : LedgerKeys w) (ht : t ∈ w.db.parking) :
    LedgerKeys { w with db := w.db.setTx t.id u } where
  ids := by simpa using h.ids
  fresh s hs := by
    rcases Db.mem_setTx_cases h.ids ht hs with rfl | ⟨hs, -⟩
    · simpa using h.fresh t ht
    · exact h.fresh s hs
  emoneyIds := h.emoneyIds
  emoneyFresh := h.emoneyFresh
  linked := h.linked
  rates := h.rates

/-- One row is rewritten in accordance with the ledger. -/
theorem LedgerInv.setTx (h : LedgerInv ks w) (ht : t ∈ w.db.parking)
    (hrow : RowLedger ks w.db (u.apply t)) :
    LedgerInv ks { w with db := w.db.setTx t.id u } where
  toLedgerKeys := h.toLedgerKeys.setTx ht
  rows s hs := by
    have hs' : RowLedger ks w.db s := by
      rcases Db.mem_setTx_cases h.ids ht hs with rfl | ⟨hs, -⟩
      · exact hrow
      · exact h.rows s hs
    exact hs'.of_tables rfl rfl

theorem LedgerKeys.addTx (h : LedgerKeys w) (hid : t.id = w.nextTx) :
    LedgerKeys { w with db := w.db.addTx t, nextTx := w.nextTx + 1 } where
  ids := nodup_snoc h.ids h.fresh hid
  fresh := fresh_snoc h.fresh hid
  emoneyIds := h.emoneyIds
  emoneyFresh := h.emoneyFresh
  linked e he i hi := Int.lt_add_one_of_le (h.linked e he i hi).le
  rates := h.rates

/-- A new row has a key that no deduct can have named before. -/
theorem LedgerInv.addTx (h : LedgerInv ks w) (hid : t.id = w.nextTx) (ha : t.status = .active)
    (hnull : t.exitTime = none ∧ t.gateOutId = none ∧ t.fee = none ∧ t.paidAmount = none ∧
      t.emoneyTransactionId = none) :
    LedgerInv ks { w with db := w.db.addTx t, nextTx := w.nextTx + 1 } := by
  refine ⟨h.toLedgerKeys.addTx hid, fun s hs => ?_⟩
  have hs' : RowLedger ks w.db s := by
    rcases List.mem_append.mp hs with hs | hs
    · exact h.rows s hs
    · obtain rfl := List.mem_singleton.mp hs
      refine .of_active ha hnull fun e he hp => ?_
      exact absurd (h.linked e he _ hp.1) (by rw [hid]; exact lt_irrefl _)
  exact hs'.of_tables rfl rfl

theorem LedgerKeys.addEmoney {e : EmoneyTransaction} (h : LedgerKeys w) (ht : t ∈ w.db.parking)
    (hid : e.id = w.nextEmoney) (hlink : e.parkingTransactionId = some t.id) :
    LedgerKeys { w with db := w.db.addEmoney e, nextEmoney := w.nextEmoney + 1 } where
  ids := h.ids
  fresh := h.fresh
  emoneyIds := nodup_snoc h.emoneyIds h.emoneyFresh hid
  emoneyFresh := fresh_snoc h.emoneyFresh hid
  linked e' he' i hi := by
    rcases List.mem_append.mp he' with h' | h'
    · exact h.linked e' h' i hi
    · rw [List.mem_singleton.mp h', hlink] at hi
      cases hi
      exact h.fresh t ht
  rates := h.rates

theorem LedgerInv.retype (h : LedgerInv ks w) (ht : t ∈ w.db.parking) (ha : t.status = .active)
    (v : Option Id) : LedgerInv ks { w with db := w.db.retype t.id v } ∧
      t.retype v ∈ (w.db.retype t.id v).parking := by
  cases v with
  | none => exact ⟨h, ht⟩
  | some v => exact ⟨h.setTx ht ((h.rows t ht).retype ha (some v)), Db.mem_setTx_self ht⟩

theorem LedgerInv.setCard (h : LedgerInv ks w) (ht : t ∈ w.db.parking) (ha : t.status = .active)
    (card : String) : LedgerInv ks { w with db := w.db.setCard t.id card } ∧
      t.setCard card ∈ (w.db.setCard t.id card).parking := by
  have hrow := (h.rows t ht).setCard ha card
  unfold Db.setCard ParkingTransaction.setCard at *
  split
  · exact ⟨h, ht⟩
  · rename_i hcard
    rw [if_neg hcard] at hrow
    exact ⟨h.setTx ht hrow, Db.mem_setTx_self ht⟩

/-- A failed or intermediate deduct is recorded and pays for nothing. -/
theorem LedgerInv.record {e : EmoneyTransaction} (h : LedgerInv ks w) (ht : t ∈ w.db.parking)
    (hid : e.id = w.nextEmoney) (hlink : e.parkingTransactionId = some t.id)
    (hs : ¬ e.status.isSuccess = true) :
    LedgerInv ks { w with db := w.db.addEmoney e, nextEmoney := w.nextEmoney + 1 } :=
  ⟨h.toLedgerKeys.addEmoney ht hid hlink, fun s hmem =>
    (h.rows s hmem).addEmoney fun hp => hs hp.2⟩

/-- A successful deduct is recorded together with the completion of the row it pays for. -/
theorem LedgerInv.pay {e : EmoneyTransaction} {a : EmoneyResult} {p : Pending} {now : DateTime}
    {shiftId : Option Id} (h : LedgerInv ks w) (ht : t ∈ w.db.parking) (ha : t.status = .active)
    (hid : e.id = w.nextEmoney) (he : e.Pays t.id) (hamount : e.amountDeducted = a.deductAmount) :
    LedgerInv ks { w with
      db := (w.db.addEmoney e).setTx t.id (.exit now (a.exit p e.id shiftId))
      nextEmoney := w.nextEmoney + 1 } := by
  have hk := h.toLedgerKeys.addEmoney ht hid he.1
  refine ⟨hk.setTx ht, fun s hs => ?_⟩
  have hs' : RowLedger ks (w.db.addEmoney e) s := by
    rcases Db.mem_setTx_cases hk.ids ht hs with rfl | ⟨hs, hne⟩
    · exact (h.rows t ht).exitEmoney now shiftId ha he hamount
    · exact (h.rows s hs).addEmoney fun hp => hne (Option.some.inj (hp.1.symm.trans he.1))
  exact hs'.of_tables rfl rfl

end Inv

section Calls
variable {ks : List (Option Call)} {w : World}

theorem ledgerInv_entry (h : LedgerInv ks w) (r : EntryRequest) :
    Prog.Ensures execOp (createEntryTransaction r) { world := w }
      (fun _ c' => LedgerInv ks c'.world) (onValue fun _ c' => LedgerInv ks c'.world) := by
  refine (createEntryTransaction_spec r).mono ?_ fun _ _ => onValue_of_false
  rintro _ c' ⟨now, rfl, -, hdb, -, htx, hem⟩
  exact (h.addTx rfl rfl ⟨rfl, rfl, rfl, rfl, rfl⟩).of_db hdb htx.ge hem.ge

theorem ledgerInv_cash (h : LedgerInv ks w) (a : CashPayment) :
    Prog.Ensures execOp (processCashPayment a) { world := w }
      (fun _ c' => LedgerInv ks c'.world) (onValue fun _ c' => LedgerInv ks c'.world) := by
  refine (processCashPayment_spec a rfl).mono ?_ ?_
  · rintro r c' ⟨t, now, shiftId, ht, hfee, hpaid, -, -, hf, hdb⟩
    obtain ⟨hmem, ha⟩ := Db.findActive_mem ht
    obtain ⟨hi, hmem'⟩ := h.retype hmem ha a.vehicleTypeId
    have hrow := (hi.rows _ hmem').exitCash now shiftId
      (by rw [retype_status, ha]) (quote_nonneg h.rates hfee) hpaid
    exact (hi.setTx hmem' hrow).of_db (by rw [hdb, retype_id]) hf.nextTx.ge hf.nextEmoney.ge
  · rintro e c' hv
    refine hv.mono fun _ ⟨hf, hcase⟩ => ?_
    obtain ⟨-, hdb⟩ | ⟨t, fee, ht, -, -, hdb⟩ := hcase
    · exact h.of_db hdb hf.nextTx.ge hf.nextEmoney.ge
    · obtain ⟨hmem, ha⟩ := Db.findActive_mem ht
      exact (h.retype hmem ha a.vehicleTypeId).1.of_db hdb hf.nextTx.ge hf.nextEmoney.ge

theorem ledgerInv_rfid (h : LedgerInv ks w) (a : RfidPayment) (hk : some (.rfid a) ∈ ks) :
    Prog.Ensures execOp (processRfidPayment a) { world := w }
      (fun _ c' => LedgerInv ks c'.world) (onValue fun _ c' => LedgerInv ks c'.world) := by
  refine (processRfidPayment_spec a rfl).mono ?_ ?_
  · rintro r c' ⟨t, now, shiftId, hm, ht, -, hf, hdb⟩
    obtain ⟨hmem, ha⟩ := Db.findActive_mem ht
    have hrow := (h.rows t hmem).exitRfid now shiftId ha hk (Db.findActive_card ht) hm
    exact (h.setTx hmem hrow).of_db hdb hf.nextTx.ge hf.nextEmoney.ge
  · rintro e c' hv
    exact hv.mono fun _ heq => heq ▸ h

theorem ledgerInv_deduct (h : LedgerInv ks w) (a : EmoneyDeduct) :
    Prog.Ensures execOp (processEmoneyDeduct a) { world := w }
      (fun _ c' => LedgerInv ks c'.world) (onValue fun _ c' => LedgerInv ks c'.world) := by
  refine (processEmoneyDeduct_spec a rfl).mono ?_ ?_
  · rintro r c' ⟨t, deadline, ht, -, -, hdb, -, htx, hem⟩
    obtain ⟨hmem, ha⟩ := Db.findActive_mem ht
    exact (h.retype hmem ha a.vehicleTypeId).1.of_db hdb htx.ge hem.ge
  · rintro e c' hv
    exact hv.mono fun _ heq => heq.1 ▸ h

theorem ledgerInv_result (h : LedgerInv ks w) (a : EmoneyResult) :
    Prog.Ensures execOp (processEmoneyResult a) { world := w }
      (fun _ c' => LedgerInv ks c'.world) (onValue fun _ c' => LedgerInv ks c'.world) := by
  refine (processEmoneyResult_spec a).mono ?_ ?_
  · rintro r c' ⟨pending, t, -, hid, ha, -, -, hstored, -, htx, hem⟩
    obtain ⟨hi, hmem⟩ := h.setCard (Db.byId_mem hid).1 ha a.cardNumber
    have hlink : ((a.row t.id).stored w.nextEmoney w.now).parkingTransactionId =
        some (t.setCard a.cardNumber).id := by rw [setCard_id]; rfl
    unfold EmoneyResult.Stored at hstored
    split at hstored
    · rename_i hs
      obtain ⟨now, shiftId, hdb⟩ := hstored
      exact (hi.pay hmem (by rw [setCard_status, ha]) rfl ⟨hlink, hs⟩ rfl).of_db
        (by rw [hdb, setCard_id]) htx.ge hem.ge
    · rename_i hs
      exact (hi.record hmem rfl hlink hs).of_db hstored htx.ge hem.ge
  · rintro e c' hv
    exact hv.mono fun _ ⟨hdb, htx, hem, _⟩ => h.of_db hdb htx.ge hem.ge

theorem ledgerInv_call (h : LedgerInv ks w) {k : Call} (hk : some k ∈ ks) :
    Prog.Ensures execOp k.handler { world := w }
      (fun _ c' => LedgerInv ks c'.world) (onValue fun _ c' => LedgerInv ks c'.world) := by
  cases k with
  | entry r => exact (ledgerInv_entry h r).bind (fun _ _ he => he) fun _ _ hi => hi
  | cash a => exact (ledgerInv_cash h a).bind (fun _ _ he => he) fun _ _ hi => hi
  | rfid a => exact (ledgerInv_rfid h a hk).bind (fun _ _ he => he) fun _ _ hi => hi
  | deduct a => exact (ledgerInv_deduct h a).bind (fun _ _ he => he) fun _ _ hi => hi
  | result a => exact (ledgerInv_result h a).bind (fun _ _ he => he) fun _ _ hi => hi

theorem ledgerInv_step {w' : World} {l : Option Call} (hs : CallStep w l w')
    (h : LedgerInv ks w) : LedgerInv (ks ++ [l]) w' := by
  have h' : LedgerInv (ks ++ [l]) w := h.mono fun k hk => List.mem_append_left _ hk
  cases hs with
  | commit k =>
    obtain ⟨htx, hem⟩ := exec_sequences k.handler w
    exact Call.after_of_ensures (ledgerInv_call h' (by simp)) (h'.of_db rfl htx hem)
  | rollback k =>
    obtain ⟨htx, hem⟩ := exec_sequences k.handler w
    exact h'.of_db rfl htx hem
  | outside hdb htx hem => exact h'.of_db hdb htx hem

end Calls

/-- The part of a row that identifies the stay. -/
def SameStay (t t' : ParkingTransaction) : Prop :=
  t'.id = t.id ∧ t'.barcode = t.barcode ∧ t'.entryTime = t.entryTime ∧ t'.gateInId = t.gateInId

def Keeps (db db' : Db) : Prop := ∀ t ∈ db.parking, ∃ t' ∈ db'.parking, SameStay t t'

section Keeps
variable {db db' db'' : Db} {w w' : World}

theorem Keeps.refl (db : Db) : Keeps db db := fun t ht => ⟨t, ht, rfl, rfl, rfl, rfl⟩

theorem Keeps.trans (h : Keeps db db') (h' : Keeps db' db'') : Keeps db db'' := by
  intro t ht
  obtain ⟨t', ht', hi, hb, he, hg⟩ := h t ht
  obtain ⟨t'', ht'', hi', hb', he', hg'⟩ := h' t' ht'
  exact ⟨t'', ht'', hi'.trans hi, hb'.trans hb, he'.trans he, hg'.trans hg⟩

theorem keeps_setTx (i : Id) (u : TxUpdate) : Keeps db (db.setTx i u) := by
  intro t ht
  refine ⟨_, Db.mem_setTx.mpr ⟨t, ht, rfl⟩, ?_⟩
  obtain ⟨hb, he, hg, -⟩ := TxUpdate.apply_entry u t
  split
  · exact ⟨TxUpdate.apply_id u t, hb, he, hg⟩
  · exact ⟨rfl, rfl, rfl, rfl⟩

theorem keeps_execOp (o : ApiOp) (c : Conn) : Keeps c.world.db (execOp o c).2.world.db := by
  cases o with
  | lock f => simp only [execOp]; split <;> exact Keeps.refl _
  | update i u =>
    simp only [execOp]
    split
    · exact Keeps.refl _
    · split
      · exact keeps_setTx i u
      · exact Keeps.refl _
  | ext e =>
    cases e with
    | insertTx t =>
      simp only [execOp, execEffect]
      split
      · exact fun t ht => ⟨t, List.mem_append_left _ ht, rfl, rfl, rfl, rfl⟩
      · exact Keeps.refl _
    | insertEmoney e => simp only [execOp, execEffect]; split <;> exact Keeps.refl _
    | setPending _ _ | clearPending _ =>
      simp only [execOp, execEffect]; split <;> exact Keeps.refl _
    | setIdempotency _ _ | enqueue _ =>
      simp only [execOp, execEffect]; split <;> exact Keeps.refl _
    | _ => exact Keeps.refl _

theorem keeps_exec {α : Type} (p : Api α) (w : World) : Keeps w.db (p.exec w).2.db :=
  Prog.run_rel execOp { world := w } (R := fun c c' => Keeps c.world.db c'.world.db)
    (fun _ => Keeps.refl _) (fun _ _ _ => Keeps.trans) keeps_execOp p

theorem keeps_step {l : Option Call} (hs : CallStep w l w') : Keeps w.db w'.db := by
  cases hs with
  | commit k =>
    have h := keeps_exec k.handler w
    unfold Call.after
    rcases hr : k.handler.exec w with ⟨(msg | _ | _ | _) | _, v⟩ <;> rw [hr] at h <;>
      first | exact h | exact Keeps.refl _
  | rollback k => exact Keeps.refl _
  | outside hdb _ _ => exact hdb ▸ Keeps.refl _

end Keeps

/-- An empty ledger and rates that charge nothing negative. -/
structure Opening (w : World) : Prop where
  parking : w.db.parking = []
  emoney : w.db.emoney = []
  rates : ∀ v ∈ w.db.vehicleTypes, v.rate.NonNeg

theorem ledgerInv_opening {w : World} (h : Opening w) : LedgerInv [] w := by
  constructor
  · constructor
    · simp [h.parking]
    · simp [h.parking]
    · simp [h.emoney]
    · simp [h.emoney]
    · simp [h.emoney]
    · exact h.rates
  · simp [h.parking]

section Runs
open Transition
variable {w : World} {xs : List (Option Call × World)}

theorem ledgerInv_reachable (hw : Opening w) (h : Path CallStep w xs) :
    LedgerInv (xs.map Prod.fst) (finish w xs) := by
  simpa using h.history (fun as s a t hs hi => ledgerInv_step hs hi) (ledgerInv_opening hw)

theorem keeps_path (h : Path CallStep w xs) : Keeps w.db (finish w xs).db :=
  h.invariant (P := fun s => Keeps w.db s.db)
    (fun _ _ _ hs hk => hk.trans (keeps_step hs)) (Keeps.refl _)

/-- Every row of every reachable ledger is in order, and no stay ever changes its identity. -/
theorem ledger_consistent (hw : Opening w) (h : Path CallStep w xs) :
    (∀ t ∈ (finish w xs).db.parking, RowLedger (xs.map Prod.fst) (finish w xs).db t) ∧
    ((finish w xs).db.parking.map (·.id)).Nodup ∧ ((finish w xs).db.emoney.map (·.id)).Nodup ∧
    ∀ pre post, xs = pre ++ post → Keeps (finish w pre).db (finish w xs).db := by
  have hi := ledgerInv_reachable hw h
  refine ⟨hi.rows, hi.ids, hi.emoneyIds, ?_⟩
  rintro pre post rfl
  rw [finish_append]
  exact keeps_path (path_append.mp h).2

/-- A car enters, its first tap loses contact, the second pays; a member leaves with a card. -/
def ledgerDay : List Call :=
  [.entry { barcode := some "T1001", vehicleTypeId := some 1, gateInId := some 1 },
   .entry { cardNumber := some "M-77", paymentMethod := .rfidMember },
   .deduct { gateId := "OUT1", gateOutId := 2, barcode := "T1001" },
   .result { gateId := "OUT1", gateOutId := 2, cardNumber := "6013500100", status := .lostContact,
             deductAmount := 0, balanceBefore := 9000, balanceAfter := 9000,
             transactionCounter := 4, rawResponseHex := "" },
   .result { gateId := "OUT1", gateOutId := 2, cardNumber := "6013500100", status := .success,
             deductAmount := 3000, balanceBefore := 9000, balanceAfter := 6000,
             transactionCounter := 5, rawResponseHex := "" },
   .rfid { gateId := "OUT1", gateOutId := 2, cardNumber := "M-77" },
   .cash { gateId := "OUT1", gateOutId := 2, barcode := some "T1001", paidAmount := 5000 }]

theorem ledger_consistent_day :
    let w := finish booth (commitAll booth ledgerDay)
    w.db.parking.map (fun t => (t.status, t.paymentMethod, t.fee)) =
      [(.completed, some .emoney, some 3000), (.completed, some .rfidMember, some 0)] ∧
    ∀ t ∈ w.db.parking, RowLedger ((commitAll booth ledgerDay).map Prod.fst) w.db t :=
  ⟨by decide, (ledger_consistent ⟨rfl, rfl, by decide⟩ (commitAll_path booth ledgerDay)).1⟩

end Runs
end ParkIt
