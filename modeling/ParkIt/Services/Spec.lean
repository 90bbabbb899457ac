import ParkIt.Routes

/-! What each service does to the database and to the pending state, said once. -/
namespace ParkIt

open Effects Api

/-- What a request leaves alone unless its service says otherwise; the clock, the job queue and
the database are free. -/
structure Frame (c c' : Conn) : Prop where
  pending : c'.world.pending = c.world.pending
  idempotency : c'.world.idempotency = c.world.idempotency
  nextTx : c'.world.nextTx = c.world.nextTx
  nextEmoney : c'.world.nextEmoney = c.world.nextEmoney
  redisDown : c'.world.redisDown = c.world.redisDown
  contended : c'.world.contended = c.world.contended
  limited : c'.world.limited = c.world.limited
  lockTimeout : c'.lockTimeout = c.lockTimeout

/-- Only the clock and the job queue may have moved. -/
structure Quiet (c c' : Conn) : Prop extends Frame c c' where
  db : c'.world.db = c.world.db

theorem Frame.refl (c : Conn) : Frame c c := ⟨rfl, rfl, rfl, rfl, rfl, rfl, rfl, rfl⟩

theorem Frame.trans {a b c : Conn} (h : Frame a b) (h' : Frame b c) : Frame a c :=
  ⟨h'.1.trans h.1, h'.2.trans h.2, h'.3.trans h.3, h'.4.trans h.4, h'.5.trans h.5,
    h'.6.trans h.6, h'.7.trans h.7, h'.8.trans h.8⟩

theorem frame_db (c : Conn) (db : Db) : Frame c { c with world.db := db } :=
  ⟨rfl, rfl, rfl, rfl, rfl, rfl, rfl, rfl⟩

theorem Quiet.refl (c : Conn) : Quiet c c := ⟨Frame.refl c, rfl⟩

theorem Quiet.trans {a b c : Conn} (h : Quiet a b) (h' : Quiet b c) : Quiet a c :=
  ⟨h.toFrame.trans h'.toFrame, h'.db.trans h.db⟩

/-- A postcondition of `ValueError`s only; every other exception ends in a rollback. -/
def onValue (P : String → Conn → Prop) : Exc → Conn → Prop
  | .value msg, c => P msg c
  | _, _ => True

theorem onValue_of_false {P : String → Conn → Prop} {e : Exc} {c : Conn}
    (h : onValue (fun _ _ => False) e c) : onValue P e c := by
  cases e with
  | value msg => exact h.elim
  | db _ | redis | http _ => trivial

theorem onValue.mono {P Q : String → Conn → Prop} {e : Exc} {c : Conn} (h : onValue P e c)
    (hpq : ∀ msg, P msg c → Q msg c) : onValue Q e c := by
  cases e with
  | value msg => exact hpq msg h
  | db _ | redis | http _ => trivial

/-- The price of a stay as the fee calculation sees the rates table. -/
def quote (vehicleTypes : List VehicleType) (exitTime : DateTime) (t : ParkingTransaction)
    (vehicleTypeIdOverride : Option Id := none) : Except String Int :=
  let vt := (vehicleTypeIdOverride.or t.vehicleTypeId).bind fun i =>
    vehicleTypes.find? fun v => v.id = i
  calculateTariff t.entryTime
    (if exitTime.instant < t.entryTime.instant then t.entryTime else exitTime)
    ((vt.map (·.code)).getD "MOBIL") (vt.elim defaultTariffConfig (·.tariffConfig)) t.isLostTicket

def Db.findActive (db : Db) (barcode cardNumber plateNumber : Option String) :
    Option ParkingTransaction :=
  (activeFilter barcode cardNumber plateNumber).bind fun f => mostRecent (db.parking.filter f)

def Db.retype (db : Db) (i : Id) : Option Id → Db
  | none => db
  | some v => db.setTx i (.vehicleTypeId v)

def Db.setCard (db : Db) (i : Id) (cardNumber : String) : Db :=
  if cardNumber = "" then db else db.setTx i (.cardNumber cardNumber)

def Db.byId (db : Db) (i : Id) : Option ParkingTransaction :=
  (db.parking.filter fun t => t.id = i).head?

def ParkingTransaction.setCard (t : ParkingTransaction) (cardNumber : String) :
    ParkingTransaction :=
  if cardNumber = "" then t else (TxUpdate.cardNumber cardNumber).apply t

def ParkingTransaction.retype (t : ParkingTransaction) : Option Id → ParkingTransaction
  | none => t
  | some v => (TxUpdate.vehicleTypeId v).apply t

section Lookup
variable {db : Db} {b cn p : Option String} {t : ParkingTransaction}
  {rows : List ParkingTransaction} {f : ParkingTransaction → Bool}

theorem activeFilter_active (hf : activeFilter b cn p = some f) (h : f t = true) :
    t.status = .active := by
  unfold activeFilter at hf
  split at hf
  · cases hf
    exact (of_decide_eq_true h).1
  · split at hf
    · cases hf
      exact (of_decide_eq_true h).1
    · obtain ⟨q, -, rfl⟩ := Option.map_eq_some_iff.mp hf
      exact (of_decide_eq_true h).1

theorem mostRecent_mem (h : mostRecent rows = some t) : t ∈ rows :=
  (List.mem_insertionSort _).mp (List.mem_of_mem_head? h)

theorem mostRecent_eq_none (h : mostRecent rows = none) : rows = [] := by
  have hlen := List.length_insertionSort
    (fun a b : ParkingTransaction => b.entryTime.instant ≤ a.entryTime.instant) rows
  rw [mostRecent, List.head?_eq_none_iff] at h
  rw [h] at hlen
  exact List.length_eq_zero_iff.mp hlen.symm

/-- A search by the barcode, whatever else is given. -/
theorem Db.findActive_of_barcode {barcode : String} (hne : barcode ≠ "") :
    db.findActive (some barcode) cn p = mostRecent
      (db.parking.filter fun t => decide (t.status = .active ∧ t.barcode = some barcode)) := by
  have htruthy : truthy (some barcode) = some barcode := by simp [truthy, hne]
  rw [Db.findActive, activeFilter, htruthy]
  rfl

theorem Db.findActive_mem (h : db.findActive b cn p = some t) :
    t ∈ db.parking ∧ t.status = .active := by
  obtain ⟨f, hf, ht⟩ := Option.bind_eq_some_iff.mp h
  obtain ⟨hmem, hft⟩ := List.mem_filter.mp (mostRecent_mem ht)
  exact ⟨hmem, activeFilter_active hf hft⟩

theorem Db.byId_mem {i : Id} (h : db.byId i = some t) : t ∈ db.parking ∧ t.id = i := by
  obtain ⟨hmem, hid⟩ := List.mem_filter.mp (List.mem_of_mem_head? h)
  exact ⟨hmem, of_decide_eq_true hid⟩

theorem Db.byId_of_mem (hn : (db.parking.map (·.id)).Nodup) (ht : t ∈ db.parking) :
    db.byId t.id = some t := by
  rcases h : db.byId t.id with _ | s
  · have hrows := List.head?_eq_none_iff.mp h
    exact (List.filter_eq_nil_iff.mp hrows t ht (decide_eq_true rfl)).elim
  · obtain ⟨hs, hid⟩ := Db.byId_mem h
    rw [Db.eq_of_id hn hs ht hid]

theorem truthy_some {s x : String} (h : truthy (some s) = some x) : x = s :=
  (Option.some.inj (Option.filter_eq_some_iff.mp h).1).symm

theorem Db.findActive_card {card : String} (h : db.findActive none (some card) none = some t) :
    t.cardNumber = some card := by
  obtain ⟨f, hf, ht⟩ := Option.bind_eq_some_iff.mp h
  obtain ⟨-, hft⟩ := List.mem_filter.mp (mostRecent_mem ht)
  simp only [activeFilter, show truthy none = none from rfl] at hf
  split at hf
  · rename_i x hx
    cases hf
    exact truthy_some hx ▸ (of_decide_eq_true hft).2
  · cases hf

theorem Db.findActive_barcode {barcode : String}
    (h : db.findActive (some barcode) none none = some t) : t.barcode = some barcode := by
  obtain ⟨f, hf, ht⟩ := Option.bind_eq_some_iff.mp h
  obtain ⟨-, hft⟩ := List.mem_filter.mp (mostRecent_mem ht)
  simp only [activeFilter, show truthy none = none from rfl] at hf
  split at hf
  · rename_i x hx
    cases hf
    exact truthy_some hx ▸ (of_decide_eq_true hft).2
  · cases hf

end Lookup

/-- A stay always has a price: the clamp and the MOBIL default leave no error to raise. -/
theorem quote_ok (vts : List VehicleType) (e : DateTime) (t : ParkingTransaction) (o : Option Id) :
    ∃ fee, quote vts e t o = .ok fee := by
  rcases h : quote vts e t o with msg | fee
  · unfold quote at h
    rcases calculateTariff_error h with hlt | hnone
    · split at hlt <;> omega
    · rcases hv : (o.or t.vehicleTypeId).bind fun i => vts.find? fun v => v.id = i with _ | v
      · simp [hv, defaultTariffConfig, List.lookup_cons] at hnone
      · simp [hv, VehicleType.tariffConfig] at hnone
  · exact ⟨fee, rfl⟩

theorem defaultTariffConfig_nonneg (r : VehicleTypeRate)
    (h : defaultTariffConfig.vehicleTypes.lookup "MOBIL" = some r) : r.NonNeg := by
  obtain rfl : { hourlyRate := 5000, dailyCap := 50000 } = r := Option.some.inj h
  constructor <;> decide

theorem quote_nonneg {vts : List VehicleType} {e : DateTime} {t : ParkingTransaction}
    {o : Option Id} {fee : Int} (hr : ∀ v ∈ vts, v.rate.NonNeg)
    (h : quote vts e t o = .ok fee) : 0 ≤ fee := by
  unfold quote at h
  refine calculateTariff_nonneg ?_ h
  rcases hv : (o.or t.vehicleTypeId).bind fun i => vts.find? fun v => v.id = i with _ | v
  · rw [hv]
    exact defaultTariffConfig_nonneg
  · obtain ⟨i, -, hi⟩ := Option.bind_eq_some_iff.mp hv
    rw [hv]
    intro r hlookup
    obtain rfl : v.rate = r := by simpa [VehicleType.tariffConfig] using hlookup
    exact hr v (List.mem_of_find?_eq_some hi)

section Ops
variable {c : Conn} {α : Type} {ok : α → Conn → Prop} {err : Exc → Conn → Prop}

theorem ensures_ext {e : Effect} {ok : e.Ans → Conn → Prop} :
    Prog.Ensures execOp (ext e) c ok err ↔ match execEffect e c with
      | (.ok a, c') => ok a c'
      | (.error e, c') => err e c' := by
  unfold Prog.Ensures ext
  rw [Prog.run_perform]
  have hop : execOp (.ext e) c = execEffect e c := rfl
  rcases h : execEffect e c with ⟨x | a, c'⟩ <;> simp only [hop, h]

theorem ensures_lock {f : ParkingTransaction → Bool} {ok : List ParkingTransaction → Conn → Prop}
    (hc : c.lockTimeout = false) :
    Prog.Ensures execOp (lock f) c ok err ↔ ok (c.world.db.parking.filter f) c := by
  unfold Prog.Ensures lock
  rw [Prog.run_perform]
  simp [execOp, hc]

/-- After `SET LOCAL lock_timeout` the lock can fail, but not with a `ValueError`. -/
theorem ensures_lock_timeout {f : ParkingTransaction → Bool} {P : String → Conn → Prop}
    {ok : List ParkingTransaction → Conn → Prop} (h : ok (c.world.db.parking.filter f) c) :
    Prog.Ensures execOp (lock f) c ok (onValue P) := by
  unfold Prog.Ensures lock
  rw [Prog.run_perform]
  simp only [execOp]
  by_cases hl : (c.lockTimeout && (c.world.db.parking.filter f).any fun t =>
      c.world.contended.contains t.id) = true
  · rw [if_pos hl]
    trivial
  · rw [if_neg hl]
    exact h

theorem ensures_update {i : Id} {u : TxUpdate} {P : String → Conn → Prop} {ok : Unit → Conn → Prop}
    (h : ∀ t, c.world.db.findTx i = some t →
      u.apply t = t ∨ c.world.db.acceptsTx (u.apply t) = true →
      ok () { c with world.db := c.world.db.setTx i u }) :
    Prog.Ensures execOp (update i u) c ok (onValue P) := by
  unfold Prog.Ensures update
  rw [Prog.run_perform]
  simp only [execOp]
  rcases ht : c.world.db.findTx i with _ | t
  · trivial
  · by_cases ha : u.apply t = t ∨ c.world.db.acceptsTx (u.apply t) = true
    · simpa [ha] using h t ht ha
    · simp [ha, onValue]

theorem ensures_now {ok : DateTime → Conn → Prop} :
    Prog.Ensures execOp (ext .now) c ok err ↔
      ok (.utc c.world.now) { c with world := c.world.readClock } := Iff.rfl

theorem quiet_readClock (c : Conn) : Quiet c { c with world := c.world.readClock } :=
  ⟨⟨rfl, rfl, rfl, rfl, rfl, rfl, rfl, rfl⟩, rfl⟩

end Ops

section Quiet
variable {c : Conn} {P : String → Conn → Prop}

theorem enqueueAll_quiet (js : List Job) :
    Prog.Ensures execOp (enqueueAll js) c (fun _ c' => Quiet c c' ∧ c'.world.now = c.world.now)
      (fun _ _ => False) := by
  induction js generalizing c with
  | nil => exact ⟨Quiet.refl c, rfl⟩
  | cons j js ih =>
    rw [enqueueAll, Prog.ensures_bind, ensures_ext]
    refine ih.mono (fun _ c' h => ?_) (fun _ _ h => h)
    by_cases hr : c.world.redisDown
    · simpa [hr] using h
    · have hq : Quiet c { c with world := { c.world with jobs := c.world.jobs ++ [j] } } :=
        ⟨⟨rfl, rfl, rfl, rfl, rfl, rfl, rfl, rfl⟩, rfl⟩
      rw [if_neg hr] at h
      exact ⟨hq.trans h.1, h.2⟩

theorem enqueueSnapshotsForGate_quiet (g : String) (i : Id) (kind : String) :
    Prog.Ensures execOp (enqueueSnapshotsForGate g i kind) c
      (fun _ c' => Quiet c c' ∧ c'.world.now = c.world.now) (fun _ _ => False) := by
  rw [enqueueSnapshotsForGate, Prog.ensures_bind, ensures_ext]
  dsimp only [execEffect]
  split
  · exact ⟨Quiet.refl c, rfl⟩
  · exact enqueueAll_quiet _

theorem enqueuePrintReceipt_quiet (g : String) (d : ReceiptData) :
    Prog.Ensures execOp (enqueuePrintReceipt g d) c (fun _ c' => Quiet c c') (fun _ _ => False) := by
  rw [enqueuePrintReceipt, Prog.ensures_bind, ensures_ext]
  dsimp only [execEffect]
  split
  · exact Quiet.refl c
  · split
    · exact (enqueueAll_quiet [_]).mono (fun _ _ h => h.1) (fun _ _ h => h)
    · exact Quiet.refl c

theorem getCurrentShift_quiet :
    Prog.Ensures execOp getCurrentShift c (fun _ c' => Quiet c c') (fun _ _ => False) := by
  rw [getCurrentShift, Prog.ensures_bind, ensures_now, Prog.ensures_bind, ensures_ext]
  exact quiet_readClock c

theorem getVehicleTypeTariffConfig_spec (o : Option Id)
    {ok : TariffConfig × Option String → Conn → Prop} {err : Exc → Conn → Prop}
    (h : let vt := o.bind fun i => c.world.db.vehicleTypes.find? fun v => v.id = i
      ok (vt.elim defaultTariffConfig (·.tariffConfig), vt.map (·.code)) c) :
    Prog.Ensures execOp (getVehicleTypeTariffConfig o) c ok err := by
  cases o with
  | none => exact h
  | some i =>
    rw [getVehicleTypeTariffConfig, Prog.ensures_bind, ensures_ext]
    dsimp only [execEffect, Option.bind_some] at h ⊢
    split <;> simp_all

theorem calculateTransactionFee_spec (t : ParkingTransaction) (o : Option Id) :
    Prog.Ensures execOp (calculateTransactionFee t none o) c
      (fun fee c' => Quiet c c' ∧ quote c.world.db.vehicleTypes (.utc c.world.now) t o = .ok fee)
      (fun _ _ => False) := by
  rw [calculateTransactionFee, Prog.ensures_bind, ensures_now, Prog.ensures_bind]
  refine getVehicleTypeTariffConfig_spec _ ?_
  obtain ⟨fee, hfee⟩ := quote_ok c.world.db.vehicleTypes (.utc c.world.now) t o
  dsimp only
  have hrun := hfee
  unfold quote at hrun
  rw [show c.world.readClock.db = c.world.db from rfl, hrun]
  exact ⟨quiet_readClock c, hfee⟩

theorem findActiveTransaction_spec {b cn p : Option String} (hc : c.lockTimeout = false)
    {ok : Option ParkingTransaction → Conn → Prop} {err : Exc → Conn → Prop}
    (h : ok (c.world.db.findActive b cn p) c) :
    Prog.Ensures execOp (findActiveTransaction b cn p true) c ok err := by
  unfold findActiveTransaction
  unfold Db.findActive at h
  rcases hf : activeFilter b cn p with _ | f
  · simpa [hf] using h
  · simp only [if_pos, Prog.ensures_bind, ensures_lock hc, Prog.ensures_pure]
    simpa [hf] using h

theorem overrideVehicleType_spec (t : ParkingTransaction) (v : Option Id) :
    Prog.Ensures execOp (overrideVehicleType t v) c
      (fun t' c' => t' = t.retype v ∧
        c' = { c with world.db := c.world.db.retype t.id v })
      (onValue fun _ _ => False) := by
  cases v with
  | none => exact ⟨rfl, rfl⟩
  | some v =>
    rw [overrideVehicleType, Prog.ensures_bind]
    exact ensures_update fun _ _ _ => ⟨rfl, rfl⟩

theorem completeExitTransaction_spec (t : ParkingTransaction) (x : ExitColumns) :
    Prog.Ensures execOp (completeExitTransaction t x) c
      (fun t' c' => ∃ now, t' = (TxUpdate.exit now x).apply t ∧ Frame c c' ∧
        c'.world.db = c.world.db.setTx t.id (.exit now x))
      (onValue fun _ _ => False) := by
  rw [completeExitTransaction, Prog.ensures_bind, ensures_now, Prog.ensures_bind]
  exact ensures_update fun _ _ _ =>
    ⟨_, rfl, (quiet_readClock c).toFrame.trans (frame_db _ _), rfl⟩

theorem persistCardNumber_spec (t : ParkingTransaction) (card : String) :
    Prog.Ensures execOp (persistCardNumber t card) c
      (fun t' c' => t' = t.setCard card ∧ c' = { c with world.db := c.world.db.setCard t.id card })
      (onValue fun _ _ => False) := by
  unfold persistCardNumber Db.setCard ParkingTransaction.setCard
  by_cases h : card = ""
  · simp [h]
  · simp only [if_neg h]
    rw [Prog.ensures_bind]
    exact ensures_update fun _ _ _ => ⟨rfl, rfl⟩

end Quiet

@[simp] theorem setCard_id (t : ParkingTransaction) (card : String) :
    (t.setCard card).id = t.id := by
  unfold ParkingTransaction.setCard
  split <;> rfl

@[simp] theorem retype_id (t : ParkingTransaction) (v : Option Id) : (t.retype v).id = t.id := by
  cases v <;> rfl

@[simp] theorem setCard_status (t : ParkingTransaction) (card : String) :
    (t.setCard card).status = t.status := by
  unfold ParkingTransaction.setCard
  split <;> rfl

@[simp] theorem retype_status (t : ParkingTransaction) (v : Option Id) :
    (t.retype v).status = t.status := by
  cases v <;> rfl

@[simp] theorem retype_vehicleTypes (db : Db) (i : Id) (v : Option Id) :
    (db.retype i v).vehicleTypes = db.vehicleTypes := by
  cases v <;> rfl

section Services
variable {c : Conn}

theorem enqueueEntrySnapshots_quiet (g : Option Id) (i : Id) :
    Prog.Ensures execOp (enqueueEntrySnapshots g i) c (fun _ c' => Quiet c c')
      (fun _ _ => False) := by
  unfold enqueueEntrySnapshots
  split
  · exact Quiet.refl c
  · rw [Prog.ensures_bind, ensures_ext]
    dsimp only [execEffect]
    split
    · exact Quiet.refl c
    · exact (enqueueSnapshotsForGate_quiet _ _ _).mono (fun _ _ h => h.1) (fun _ _ h => h)

theorem createEntryTransaction_spec (r : EntryRequest) :
    Prog.Ensures execOp (createEntryTransaction r) c
      (fun t c' => ∃ now, t = (r.row now).stored c.world.nextTx ∧
        c.world.db.acceptsTx t = true ∧ c'.world.db = c.world.db.addTx t ∧
        c'.world.pending = c.world.pending ∧
        c'.world.nextTx = c.world.nextTx + 1 ∧ c'.world.nextEmoney = c.world.nextEmoney)
      (onValue fun _ _ => False) := by
  rw [createEntryTransaction, Prog.ensures_bind, ensures_now, Prog.ensures_bind, ensures_ext]
  dsimp only [execEffect]
  split
  · rename_i t c₁ h
    split at h <;> cases h
    refine (enqueueEntrySnapshots_quiet _ _).bind (fun _ _ h => h.elim) ?_
    rintro - c₂ hq
    exact ⟨.utc c.world.now, rfl, ‹_›, hq.db, hq.pending, hq.nextTx, hq.nextEmoney⟩
  · rename_i h
    split at h <;> cases h
    trivial

theorem processCashPayment_spec (a : CashPayment) (hc : c.lockTimeout = false) :
    Prog.Ensures execOp (processCashPayment a) c
      (fun r c' => ∃ t now shiftId,
        c.world.db.findActive a.barcode a.cardNumber a.plateNumber = some t ∧
        quote c.world.db.vehicleTypes (.utc c.world.now) (t.retype a.vehicleTypeId) = .ok r.fee ∧
        r.fee ≤ a.paidAmount ∧
        r.transaction = (TxUpdate.exit now (a.exit r.fee shiftId)).apply
          (t.retype a.vehicleTypeId) ∧
        r.changeAmount = max 0 (a.paidAmount - r.fee) ∧ Frame c c' ∧
        c'.world.db = (c.world.db.retype t.id a.vehicleTypeId).setTx t.id
          (.exit now (a.exit r.fee shiftId)))
      (onValue fun _ c' => Frame c c' ∧
        ((c.world.db.findActive a.barcode a.cardNumber a.plateNumber = none ∧
            c'.world.db = c.world.db) ∨
          ∃ t fee, c.world.db.findActive a.barcode a.cardNumber a.plateNumber = some t ∧
            quote c.world.db.vehicleTypes (.utc c.world.now) (t.retype a.vehicleTypeId) = .ok fee ∧
            (a.paidAmount : Int) < fee ∧
            c'.world.db = c.world.db.retype t.id a.vehicleTypeId)) := by
  rw [processCashPayment, Prog.ensures_bind]
  refine findActiveTransaction_spec hc ?_
  rcases ht : c.world.db.findActive a.barcode a.cardNumber a.plateNumber with _ | t
  · exact ⟨Frame.refl c, Or.inl ⟨rfl, rfl⟩⟩
  refine (overrideVehicleType_spec t a.vehicleTypeId).bind ?_ ?_
  · exact fun _ _ => onValue_of_false
  rintro _ c₁ ⟨rfl, rfl⟩
  refine (enqueueSnapshotsForGate_quiet _ _ _).bind (fun _ _ h => h.elim) ?_
  rintro - c₂ ⟨hq₂, hnow⟩
  refine (calculateTransactionFee_spec _ none).bind (fun _ _ h => h.elim) ?_
  rintro fee c₃ ⟨hq₃, hfee⟩
  have hq := hq₂.trans hq₃
  rw [hnow, hq₂.db, retype_vehicleTypes] at hfee
  have hframe : Frame c c₃ := (frame_db c _).trans hq.toFrame
  split
  · exact ⟨hframe, Or.inr ⟨t, fee, rfl, hfee, ‹_›, hq.db⟩⟩
  refine getCurrentShift_quiet.bind (fun _ _ h => h.elim) ?_
  rintro shift c₄ hq₄
  refine (completeExitTransaction_spec _ _).bind ?_ ?_
  · exact fun _ _ => onValue_of_false
  rintro _ c₅ ⟨now, rfl, hf₅, hdb⟩
  refine (enqueuePrintReceipt_quiet _ _).bind (fun _ _ h => h.elim) ?_
  rintro - c₆ hq₆
  refine ⟨t, now, shift.map (·.id), rfl, hfee, not_lt.mp ‹_›, rfl, rfl,
    hframe.trans (hq₄.toFrame.trans (hf₅.trans hq₆.toFrame)), ?_⟩
  rw [hq₆.db, hdb, hq₄.db, hq.db, retype_id]

theorem processRfidPayment_spec (a : RfidPayment) (hc : c.lockTimeout = false) :
    Prog.Ensures execOp (processRfidPayment a) c
      (fun r c' => ∃ t now shiftId,
        c.world.db.members.find? (activeMember a.cardNumber) = some r.member ∧
        c.world.db.findActive none (some a.cardNumber) none = some t ∧
        r.transaction = (TxUpdate.exit now (a.exit r.member.id shiftId)).apply t ∧ Frame c c' ∧
        c'.world.db = c.world.db.setTx t.id (.exit now (a.exit r.member.id shiftId)))
      (onValue fun _ c' => c' = c) := by
  rw [processRfidPayment, Prog.ensures_bind, ensures_ext]
  dsimp only [execEffect]
  rcases hm : c.world.db.members.find? (activeMember a.cardNumber) with _ | m
  · exact rfl
  dsimp only
  rw [Prog.ensures_bind]
  refine findActiveTransaction_spec hc ?_
  rcases ht : c.world.db.findActive none (some a.cardNumber) none with _ | t
  · exact rfl
  refine (enqueueSnapshotsForGate_quiet _ _ _).bind (fun _ _ h => h.elim) ?_
  rintro - c₁ ⟨hq₁, -⟩
  refine getCurrentShift_quiet.bind (fun _ _ h => h.elim) ?_
  rintro shift c₂ hq₂
  refine (completeExitTransaction_spec _ _).bind (fun _ _ => onValue_of_false) ?_
  rintro _ c₃ ⟨now, rfl, hf₃, hdb⟩
  have hq := hq₁.trans hq₂
  refine ⟨t, now, shift.map (·.id), rfl, rfl, rfl, hq.toFrame.trans hf₃, ?_⟩
  rw [hdb, hq.db]

theorem processEmoneyDeduct_spec (a : EmoneyDeduct) (hc : c.lockTimeout = false) :
    Prog.Ensures execOp (processEmoneyDeduct a) c
      (fun r c' => ∃ t deadline,
        c.world.db.findActive (some a.barcode) none none = some t ∧
        r.transaction = t.retype a.vehicleTypeId ∧
        quote c.world.db.vehicleTypes (.utc c.world.now) (t.retype a.vehicleTypeId) = .ok r.fee ∧
        c'.world.db = c.world.db.retype t.id a.vehicleTypeId ∧
        c'.world.pending = setKey c.world.pending a.gateId
          (some ({ transactionId := t.id, gateOutId := a.gateOutId, fee := r.fee }, deadline)) ∧
        c'.world.nextTx = c.world.nextTx ∧ c'.world.nextEmoney = c.world.nextEmoney)
      (onValue fun _ c' =>
        c' = c ∧ c.world.db.findActive (some a.barcode) none none = none) := by
  rw [processEmoneyDeduct, Prog.ensures_bind]
  refine findActiveTransaction_spec hc ?_
  rcases ht : c.world.db.findActive (some a.barcode) none none with _ | t
  · exact ⟨rfl, rfl⟩
  refine (overrideVehicleType_spec t a.vehicleTypeId).bind (fun _ _ => onValue_of_false) ?_
  rintro _ c₁ ⟨rfl, rfl⟩
  refine (calculateTransactionFee_spec _ none).bind (fun _ _ h => h.elim) ?_
  rintro fee c₂ ⟨hq, hfee⟩
  rw [retype_vehicleTypes] at hfee
  rw [Prog.ensures_bind, ensures_ext]
  dsimp only [execEffect]
  split
  · rename_i h
    split at h <;> cases h
    refine ⟨t, c₂.world.expiry emoneyPendingTtlSeconds, rfl, rfl, hfee, hq.db, ?_, hq.nextTx,
      hq.nextEmoney⟩
    rw [retype_id, World.setPending, hq.pending]
    rfl
  · rename_i h
    split at h <;> cases h
    trivial

theorem clearPending_spec (g : String) :
    Prog.Ensures execOp (ext (.clearPending g)) c
      (fun _ c' => c' = { c with world := c.world.setPending g none })
      (onValue fun _ _ => False) := by
  rw [ensures_ext]
  dsimp only [execEffect]
  by_cases h : c.world.redisDown <;> simp [h, onValue]

/-- The pending state that a stored result leaves: only a lost contact may be retried. -/
def EmoneyResult.pendingAfter (a : EmoneyResult) (pending : String → Option (Pending × Int)) :
    String → Option (Pending × Int) :=
  if a.status = .lostContact then pending else setKey pending a.gateId none

theorem terminal_of_not {s : DeductStatus} (hs : ¬ s.isSuccess = true) (hl : s ≠ .lostContact) :
    (s.isTerminalFailure || decide (s = .timeout)) = true := by
  cases s <;> simp_all [DeductStatus.isSuccess, DeductStatus.isTerminalFailure]

theorem ne_lostContact {s : DeductStatus} (hs : s.isSuccess = true) : s ≠ .lostContact := by
  rintro rfl
  cases hs

theorem determineOutcome_spec (a : EmoneyResult) (pending : Pending) (t : ParkingTransaction)
    (i : Id) :
    Prog.Ensures execOp (determineOutcome a pending t i) c
      (fun r c' => r.transaction.id = t.id ∧ r.success = a.status.isSuccess ∧
        c'.world.pending = a.pendingAfter c.world.pending ∧
        c'.world.nextTx = c.world.nextTx ∧ c'.world.nextEmoney = c.world.nextEmoney ∧
        if a.status.isSuccess then ∃ now shiftId,
          c'.world.db = c.world.db.setTx t.id (.exit now (a.exit pending i shiftId))
        else c'.world.db = c.world.db)
      (onValue fun _ _ => False) := by
  unfold determineOutcome EmoneyResult.pendingAfter
  by_cases hs : a.status.isSuccess = true
  · simp only [if_pos hs, if_neg (ne_lostContact hs)]
    refine getCurrentShift_quiet.bind (fun _ _ h => h.elim) ?_
    rintro shift c₁ hq₁
    refine (completeExitTransaction_spec _ _).bind (fun _ _ => onValue_of_false) ?_
    rintro _ c₂ ⟨now, rfl, hf₂, hdb⟩
    refine (clearPending_spec _).bind (fun _ _ => onValue_of_false) ?_
    rintro - _ rfl
    refine (enqueueSnapshotsForGate_quiet _ _ _).bind (fun _ _ h => h.elim) ?_
    rintro - c₄ ⟨hq₄, -⟩
    refine (enqueuePrintReceipt_quiet _ _).bind (fun _ _ h => h.elim) ?_
    rintro - c₅ hq₅
    have hq := hq₄.trans hq₅
    have hf := hq₁.toFrame.trans hf₂
    refine ⟨rfl, rfl, ?_, hq.nextTx.trans hf.nextTx, hq.nextEmoney.trans hf.nextEmoney, now,
      shift.map (·.id), ?_⟩
    · rw [hq.pending]
      exact congrArg (setKey · a.gateId none) hf.pending
    · rw [hq.db, ← hq₁.db]
      exact hdb
  · simp only [if_neg hs]
    by_cases hl : a.status = .lostContact
    · simp only [if_pos hl]
      exact ⟨rfl, rfl, rfl, rfl, rfl, rfl⟩
    · simp only [if_neg hl, if_pos (terminal_of_not hs hl)]
      refine (clearPending_spec _).bind (fun _ _ => onValue_of_false) ?_
      rintro - _ rfl
      exact ⟨rfl, rfl, rfl, rfl, rfl, rfl⟩

/-- The database after a result whose e-money row is `e`. -/
def EmoneyResult.Stored (a : EmoneyResult) (db : Db) (pending : Pending) (t : ParkingTransaction)
    (e : EmoneyTransaction) (db' : Db) : Prop :=
  let stored := (db.setCard t.id a.cardNumber).addEmoney e
  if a.status.isSuccess then
    ∃ now shiftId, db' = stored.setTx t.id (.exit now (a.exit pending e.id shiftId))
  else db' = stored

theorem processEmoneyResult_spec (a : EmoneyResult) :
    Prog.Ensures execOp (processEmoneyResult a) c
      (fun r c' => ∃ pending t,
        c.world.live (c.world.pending a.gateId) = some pending ∧
        c.world.db.byId pending.transactionId = some t ∧ t.status = .active ∧
        r.transaction.id = t.id ∧ r.success = a.status.isSuccess ∧
        a.Stored c.world.db pending t ((a.row t.id).stored c.world.nextEmoney c.world.now)
          c'.world.db ∧
        c'.world.pending = a.pendingAfter c.world.pending ∧
        c'.world.nextTx = c.world.nextTx ∧ c'.world.nextEmoney = c.world.nextEmoney + 1)
      (onValue fun _ c' => c'.world.db = c.world.db ∧ c'.world.nextTx = c.world.nextTx ∧
        c'.world.nextEmoney = c.world.nextEmoney ∧
        (c.world.live (c.world.pending a.gateId) = none ∧ c'.world.pending = c.world.pending ∨
          ∃ pending, c.world.live (c.world.pending a.gateId) = some pending ∧
            (∀ t, c.world.db.byId pending.transactionId = some t → t.status ≠ .active) ∧
            c'.world.pending = setKey c.world.pending a.gateId none)) := by
  rw [processEmoneyResult, Prog.ensures_bind, ensures_ext]
  dsimp only [execEffect]
  by_cases hr : c.world.redisDown
  · simp [hr, onValue]
  rw [if_neg hr]
  dsimp only
  rcases hp : c.world.live (c.world.pending a.gateId) with _ | pending
  · exact ⟨rfl, rfl, rfl, Or.inl ⟨rfl, rfl⟩⟩
  dsimp only
  rw [Prog.ensures_bind, ensures_ext]
  dsimp only [execEffect]
  rw [Prog.ensures_bind]
  refine ensures_lock_timeout ?_
  split
  · rename_i ht
    refine (clearPending_spec _).bind (fun _ _ => onValue_of_false) ?_
    rintro - _ rfl
    refine ⟨rfl, rfl, rfl, Or.inr ⟨pending, rfl, ?_, rfl⟩⟩
    intro t hid
    simpa using Option.filter_eq_none_iff.mp ht t hid
  rename_i t ht
  obtain ⟨hid, hactive⟩ := Option.filter_eq_some_iff.mp ht
  refine (persistCardNumber_spec t a.cardNumber).bind (fun _ _ => onValue_of_false) ?_
  rintro _ c₁ ⟨rfl, rfl⟩
  rw [Prog.ensures_bind, ensures_ext, setCard_id]
  dsimp only [execEffect]
  split
  · rename_i e c₂ he
    split at he <;> cases he
    refine (determineOutcome_spec a pending _ _).mono ?_ (fun _ _ => onValue_of_false)
    rintro r c₃ ⟨hr, hs, hpend, htx, hem, hdb⟩
    rw [setCard_id] at hr hdb
    exact ⟨pending, t, rfl, hid, of_decide_eq_true hactive, hr, hs, hdb, hpend, htx, hem⟩
  · rename_i he
    split at he <;> cases he
    trivial

end Services

section Routes
variable {c : Conn} {α : Type}

/-- A `ValueError` is always raised by a handler, never by an operation. -/
theorem execOp_error {o : ApiOp} {e : Exc} {c c' : Conn} (h : execOp o c = (.error e, c')) :
    ∀ msg, e ≠ .value msg := by
  rintro msg rfl
  cases o with
  | lock f => simp only [execOp] at h; split at h <;> cases h
  | update i u =>
    simp only [execOp] at h
    split at h
    · cases h
    · split at h <;> cases h
  | ext e => cases e <;> simp only [execOp, execEffect] at h <;> (try split at h) <;> cases h

theorem ensures_respond {p : Api PaymentResponse} {ok : PaymentResponse → Conn → Prop}
    {err : Exc → Conn → Prop}
    (h : Prog.Ensures execOp p c ok fun e c' => match e with
      | .value msg => ok (failedResponse msg) c'
      | e => err e c') :
    Prog.Ensures execOp (respond p) c ok err := by
  unfold Prog.Ensures respond exceptValueError at *
  rw [Prog.run_handle]
  · rcases hr : p.run execOp c with ⟨(msg | _ | _ | _) | a, c'⟩ <;> rw [hr] at h <;> exact h
  · intro o c e c' ho
    have hne := execOp_error ho
    cases e with
    | value msg => exact (hne msg rfl).elim
    | db _ | redis | http _ => rfl

/-- What the idempotency cache answers under a key. -/
def World.cachedAnswer (w : World) (key : Option String) : Option PaymentResponse :=
  (truthy key).bind fun k => if w.redisDown then none else w.live (w.idempotency k)

theorem checkIdempotency_spec (key : Option String) {ok : Option PaymentResponse → Conn → Prop}
    {err : Exc → Conn → Prop} (h : ok (c.world.cachedAnswer key) c) :
    Prog.Ensures execOp (checkIdempotency key) c ok err := by
  unfold checkIdempotency
  unfold World.cachedAnswer at h
  rcases hk : truthy key with _ | k
  · simpa [hk] using h
  · rw [ensures_ext]
    rw [hk] at h
    exact h

theorem storeIdempotency_spec (key : Option String) (r : PaymentResponse) :
    Prog.Ensures execOp (storeIdempotency key r) c (fun _ c' => c'.world.db = c.world.db)
      (fun _ _ => False) := by
  unfold storeIdempotency
  rcases truthy key with _ | k
  · exact rfl
  · rw [ensures_ext]
    dsimp only [execEffect]
    split <;> rfl

theorem findActiveTransaction_select (b cn p : Option String) :
    Prog.Ensures execOp (findActiveTransaction b cn p) c
      (fun o c' => c' = c ∧ o = c.world.db.findActive b cn p) (fun _ _ => False) := by
  unfold findActiveTransaction Db.findActive
  cases activeFilter b cn p with
  | none => exact ⟨rfl, rfl⟩
  | some f => exact ⟨rfl, rfl⟩

/-- A lookup always answers, with the row that a payment by the same criteria would take. -/
theorem lookupTransaction_spec (r : LookupRequest) :
    Prog.Ensures execOp (lookupTransaction r) c
      (fun o c' => c'.world.db = c.world.db ∧
        o.map Prod.fst = c.world.db.findActive r.barcode r.cardNumber r.plateNumber ∧
        ∀ t fee, o = some (t, fee) →
          quote c.world.db.vehicleTypes (.utc c.world.now) t r.vehicleTypeId = .ok fee)
      (fun _ _ => False) := by
  refine (findActiveTransaction_select _ _ _).bind (fun _ _ h => h) ?_
  rintro o _ ⟨rfl, ho⟩
  cases o with
  | none => exact ⟨rfl, ho, by rintro _ _ ⟨⟩⟩
  | some t =>
    refine (calculateTransactionFee_spec t r.vehicleTypeId).bind (fun _ _ h => h) ?_
    rintro fee c' ⟨hq, hfee⟩
    refine ⟨hq.db, ho, ?_⟩
    rintro _ _ ⟨⟩
    exact hfee

theorem calculateFee_spec (i : Id) (v : Option Id) :
    Prog.Ensures execOp (calculateFee i v) c
      (fun fee c' => c'.world.db = c.world.db ∧ ∃ t, c.world.db.byId i = some t ∧
        quote c.world.db.vehicleTypes (.utc c.world.now) t v = .ok fee)
      (fun _ _ => ∀ t, c.world.db.byId i = some t → t.status ≠ .active) := by
  rw [calculateFee, Prog.ensures_bind, ensures_ext]
  dsimp only [execEffect]
  split
  · rename_i hnone
    rw [Prog.ensures_raise]
    intro t ht
    simpa using Option.filter_eq_none_iff.mp hnone t ht
  · rename_i t ht
    obtain ⟨hid, -⟩ := Option.filter_eq_some_iff.mp ht
    refine (calculateTransactionFee_spec t v).mono ?_ fun _ _ h => h.elim
    rintro fee c' ⟨hq, hfee⟩
    exact ⟨hq.db, t, hid, hfee⟩

theorem withDb_of_ensures {p : Api α} {w w' : World} {a : α} {ok : α → Conn → Prop}
    {err : Exc → Conn → Prop} (h : Prog.Ensures execOp p { world := w } ok err)
    (hr : withDb p w = (.ok a, w')) : ∃ c', ok a c' ∧ c'.world = w' := by
  unfold withDb Api.exec at hr
  unfold Prog.Ensures at h
  rcases hp : p.run execOp { world := w } with ⟨e | b, c'⟩ <;> rw [hp] at h hr <;> cases hr
  exact ⟨c', h, rfl⟩

/-- A request that fails leaves the database as it was. -/
theorem withDb_error {p : Api α} {w w' : World} {e : Exc} (hr : withDb p w = (.error e, w')) :
    w'.db = w.db := by
  unfold withDb at hr
  rcases hp : p.exec w with ⟨e | b, v⟩ <;> rw [hp] at hr <;> cases hr
  rfl

end Routes
end ParkIt
