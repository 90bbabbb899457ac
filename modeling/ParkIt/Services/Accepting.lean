import ParkIt.Services.Spec
import ParkIt.Services.Beside

/-! What the database accepts, and the calls that then go through. -/
namespace ParkIt

open Effects Api

section Answers
variable {α : Type} {p : Api α} {w w' : World} {ok : α → Conn → Prop}
  {err : Exc → Conn → Prop}

theorem exec_ok {a : α} (h : Prog.Ensures execOp p { world := w } ok err)
    (hr : p.exec w = (.ok a, w')) : ∃ c', ok a c' ∧ c'.world = w' := by
  rcases hp : p.run execOp { world := w } with ⟨e | b, c'⟩ <;> rw [Api.exec, hp] at hr <;> cases hr
  exact ⟨c', h.of_ok hp, rfl⟩

theorem exec_error {e : Exc} (h : Prog.Ensures execOp p { world := w } ok err)
    (hr : p.exec w = (.error e, w')) : ∃ c', err e c' ∧ c'.world = w' := by
  rcases hp : p.run execOp { world := w } with ⟨e | b, c'⟩ <;> rw [Api.exec, hp] at hr <;> cases hr
  exact ⟨c', h.of_error hp, rfl⟩

theorem exec_total (h : Prog.Ensures execOp p { world := w } ok fun _ _ => False) :
    ∃ a c', p.exec w = (.ok a, c'.world) ∧ ok a c' := by
  unfold Prog.Ensures at h
  rcases hp : p.run execOp { world := w } with ⟨e | a, c'⟩ <;> rw [hp] at h
  · exact h.elim
  · exact ⟨a, c', by rw [Api.exec, hp], h⟩

end Answers

theorem byId_eq_findTx (db : Db) (i : Id) : db.byId i = db.findTx i := by
  simp [Db.byId, Db.findTx, List.head?_filter]

section Accepts
variable {db db' : Db} {t : ParkingTransaction} {i : Id} {u : TxUpdate} {v : Option Id}

/-- What the database holds at any time: distinct keys, and rows within its constraints. -/
structure Db.Constrained (db : Db) : Prop where
  ids : (db.parking.map (·.id)).Nodup
  rows : ∀ t ∈ db.parking, db.acceptsTx t = true

theorem Db.Constrained.findTx (h : db.Constrained) (ht : t ∈ db.parking) :
    db.findTx t.id = some t := by
  rw [← byId_eq_findTx]
  exact Db.byId_of_mem h.ids ht

/-- `uq_active_barcode`: a search by its barcode finds the stay, whatever else is given. -/
theorem Db.Constrained.findActive (h : db.Constrained) (ht : t ∈ db.parking)
    (ha : t.status = .active) {b : String} (hb : t.barcode = some b) (hne : b ≠ "")
    (cn p : Option String) : db.findActive (some b) cn p = some t := by
  have hself : t ∈ db.parking.filter fun s => decide (s.status = .active ∧ s.barcode = some b) :=
    List.mem_filter.mpr ⟨ht, by simp [ha, hb]⟩
  rw [Db.findActive_of_barcode hne]
  rcases hrecent : mostRecent _ with _ | s
  · rw [mostRecent_eq_none hrecent] at hself
    cases hself
  · obtain ⟨hs, hcols⟩ := List.mem_filter.mp (mostRecent_mem hrecent)
    obtain ⟨hsa, hsb⟩ := of_decide_eq_true hcols
    by_cases hid : s.id = t.id
    · rw [Db.eq_of_id h.ids hs ht hid]
    · have haccept := h.rows t ht
      simp only [Db.acceptsTx, Bool.and_eq_true, List.all_eq_true] at haccept
      have hconflict := haccept.2 s hs
      simp [conflicts, hid, hsa, ha, hsb, hb] at hconflict

theorem findTx_setTx : (db.setTx i u).findTx i = (db.findTx i).map u.apply := by
  unfold Db.findTx Db.setTx
  induction db.parking with
  | nil => rfl
  | cons s l ih =>
    by_cases h : s.id = i
    · simp [h]
    · simpa [List.find?_cons, h] using ih

theorem findTx_retype : (db.retype i v).findTx i = (db.findTx i).map (·.retype v) := by
  cases v with
  | none => simp [Db.retype, ParkingTransaction.retype]
  | some v => exact findTx_setTx

theorem findTx_setCard {card : String} :
    (db.setCard i card).findTx i = (db.findTx i).map (·.setCard card) := by
  unfold Db.setCard ParkingTransaction.setCard
  split
  · simp
  · exact findTx_setTx

theorem setCard_reference {card : String} : (db.setCard i card).reference = db.reference := by
  unfold Db.setCard
  split <;> rfl

theorem findTx_id (h : db.findTx i = some t) : t.id = i := by
  simpa using List.find?_some h

theorem acceptsTx_setCard {card : String} (ht : db.acceptsTx t = true)
    (hcard : varcharOk 32 card = true)
    (hfree : ∀ s ∈ db.parking, s.id ≠ t.id → s.status = .active → s.cardNumber ≠ some card) :
    db.acceptsTx ((TxUpdate.cardNumber card).apply t) = true := by
  simp only [Db.acceptsTx, TxUpdate.apply, Bool.and_eq_true, List.all_eq_true, Option.all_some,
    conflicts, Bool.not_eq_true', decide_eq_false_iff_not] at ht ⊢
  obtain ⟨⟨⟨⟨⟨⟨⟨⟨⟨⟨⟨hb, -⟩, hp⟩, hf⟩, hpaid⟩, hv⟩, hgi⟩, hgo⟩, hm⟩, hs⟩, ho⟩, hconf⟩ := ht
  refine ⟨⟨⟨⟨⟨⟨⟨⟨⟨⟨⟨hb, hcard⟩, hp⟩, hf⟩, hpaid⟩, hv⟩, hgi⟩, hgo⟩, hm⟩, hs⟩, ho⟩, ?_⟩
  intro s hmem
  refine decide_eq_false ?_
  rintro ⟨hne, hactive, hstatus, ⟨-, hc⟩ | hb⟩
  · exact hfree s hmem hne hactive hc
  · exact hconf s hmem ⟨hne, hactive, hstatus, Or.inr hb⟩

/-- The vehicle type is under no unique index. -/
theorem acceptsTx_retype (ht : db.acceptsTx t = true)
    (hv : refOk (db.vehicleTypes.map (·.id)) v = true) : db.acceptsTx (t.retype v) = true := by
  cases v with
  | none => exact ht
  | some v =>
    simp only [Db.acceptsTx, ParkingTransaction.retype, TxUpdate.apply, Bool.and_eq_true] at ht ⊢
    obtain ⟨⟨⟨⟨⟨⟨⟨⟨⟨⟨⟨hb, hc⟩, hp⟩, hf⟩, hpaid⟩, -⟩, hgi⟩, hgo⟩, hm⟩, hs⟩, ho⟩, hconf⟩ := ht
    exact ⟨⟨⟨⟨⟨⟨⟨⟨⟨⟨⟨hb, hc⟩, hp⟩, hf⟩, hpaid⟩, hv⟩, hgi⟩, hgo⟩, hm⟩, hs⟩, ho⟩, hconf⟩

theorem reference_eq (href : db'.reference = db.reference) :
    db'.vehicleTypes = db.vehicleTypes ∧ db'.gates = db.gates ∧ db'.members = db.members ∧
      db'.shifts = db.shifts ∧ db'.users = db.users :=
  ⟨(congrArg Db.vehicleTypes href :), (congrArg Db.gates href :), (congrArg Db.members href :),
    (congrArg Db.shifts href :), (congrArg Db.users href :)⟩

/-- Of the parking rows only the others matter to what a row may become. -/
theorem acceptsTx_of_others (ht : db.acceptsTx t = true) (href : db'.reference = db.reference)
    (hrows : ∀ s ∈ db'.parking, s.id ≠ t.id → s ∈ db.parking) : db'.acceptsTx t = true := by
  obtain ⟨hv, hg, hm, hs, hu⟩ := reference_eq href
  simp only [Db.acceptsTx, hv, hg, hm, hs, hu, Bool.and_eq_true, List.all_eq_true] at ht ⊢
  refine ⟨ht.1, fun s hmem => ?_⟩
  by_cases he : s.id = t.id
  · simp [conflicts, he]
  · exact ht.2 s (hrows s hmem he)

/-- A completed row is under no unique index, so the rows already flushed do not matter. -/
theorem acceptsTx_exit {now : DateTime} {x : ExitColumns} (ht : db.acceptsTx t = true)
    (href : db'.reference = db.reference)
    (hfee : int4Ok x.fee = true) (hpaid : x.paidAmount.all int4Ok = true)
    (hgate : refOk (db.gates.map (·.id)) (some x.gateOutId) = true)
    (hmember : refOk (db.members.map (·.id)) x.memberId = true)
    (hshift : refOk (db.shifts.map (·.id)) x.shiftId = true)
    (hoperator : refOk db.users x.operatorId = true) :
    db'.acceptsTx ((TxUpdate.exit now x).apply t) = true := by
  obtain ⟨hvt, hg, hm, hs, hu⟩ := reference_eq href
  simp only [Db.acceptsTx, TxUpdate.apply, Bool.and_eq_true, List.all_eq_true, Option.all_some,
    conflicts, Bool.not_eq_true', decide_eq_false_iff_not, hvt, hg, hm, hs, hu] at ht ⊢
  obtain ⟨⟨⟨⟨⟨⟨⟨⟨⟨⟨⟨hb, hc⟩, hp⟩, -⟩, -⟩, hv⟩, hgi⟩, -⟩, -⟩, -⟩, -⟩, -⟩ := ht
  refine ⟨⟨⟨⟨⟨⟨⟨⟨⟨⟨⟨hb, hc⟩, hp⟩, hfee⟩, hpaid⟩, hv⟩, hgi⟩, hgate⟩, hmember⟩, hshift⟩,
    hoperator⟩, ?_⟩
  intro s _
  refine decide_eq_false ?_
  rintro ⟨-, -, h, -⟩
  cases h

end Accepts

section Constrained
variable {db : Db} {t : ParkingTransaction} {i : Id} {u : TxUpdate} {α : Type} {p : Api α}

theorem conflicts_symm (s t : ParkingTransaction) : conflicts s t = conflicts t s := by
  unfold conflicts
  refine decide_eq_decide.mpr ⟨?_, ?_⟩ <;>
  · rintro ⟨hid, hs, ht, ⟨hne, heq⟩ | ⟨hne, heq⟩⟩
    · exact ⟨hid.symm, ht, hs, Or.inl ⟨heq ▸ hne, heq.symm⟩⟩
    · exact ⟨hid.symm, ht, hs, Or.inr ⟨heq ▸ hne, heq.symm⟩⟩

/-- An update that is accepted leaves every row acceptable. -/
theorem constrained_setTx (h : db.Constrained) (ht : db.findTx i = some t)
    (ha : u.apply t = t ∨ db.acceptsTx (u.apply t) = true) : (db.setTx i u).Constrained := by
  have hmem := List.mem_of_find?_eq_some ht
  obtain rfl := findTx_id ht
  have haccept : db.acceptsTx (u.apply t) = true := by
    rcases ha with heq | ha
    · rw [heq]
      exact h.rows t hmem
    · exact ha
  have hothers : ∀ r : ParkingTransaction, r.id = t.id →
      ∀ s ∈ (db.setTx t.id u).parking, s.id ≠ r.id → s ∈ db.parking := by
    intro r hr s hs hne
    rcases Db.mem_setTx_cases h.ids hmem hs with rfl | ⟨hs, -⟩
    · exact absurd ((TxUpdate.apply_id _ _).trans hr.symm) hne
    · exact hs
  refine ⟨by rw [Db.setTx_ids]; exact h.ids, fun s hs => ?_⟩
  rcases Db.mem_setTx_cases h.ids hmem hs with rfl | ⟨hs, hne⟩
  · exact acceptsTx_of_others haccept rfl (hothers _ (TxUpdate.apply_id _ _))
  · have hrow := h.rows s hs
    simp only [Db.acceptsTx, Bool.and_eq_true, List.all_eq_true] at hrow haccept ⊢
    refine ⟨hrow.1, fun q hq => ?_⟩
    rcases Db.mem_setTx_cases h.ids hmem hq with rfl | ⟨hq, -⟩
    · rw [conflicts_symm]
      exact haccept.2 s hs
    · exact hrow.2 q hq

/-- No new row of a stay. -/
def NoArrival : ApiOp → Prop
  | .ext (.insertTx _) => False
  | _ => True

theorem covers_noArrival : Covers NoArrival :=
  covers_of trivial trivial (fun _ => trivial) (fun _ => trivial) (fun _ => trivial)
    (fun _ => trivial) (fun _ => trivial) (fun _ => trivial) fun _ _ => trivial

theorem constrained_execOp (o : ApiOp) (c : Conn) (ho : NoArrival o)
    (h : c.world.db.Constrained) : (execOp o c).2.world.db.Constrained := by
  cases o with
  | lock f =>
    simp only [execOp]
    split <;> exact h
  | update i u =>
    simp only [execOp]
    rcases ht : c.world.db.findTx i with _ | t
    · exact h
    · dsimp only
      split
      · exact constrained_setTx h ht ‹_›
      · exact h
  | ext e =>
    cases e with
    | insertTx _ => exact ho.elim
    | insertEmoney _ =>
      simp only [execOp, execEffect]
      split
      · exact ⟨h.ids, h.rows⟩
      · exact h
    | enqueue _ | setIdempotency _ _ | setPending _ _ | clearPending _ =>
      simp only [execOp, execEffect]
      split <;> exact h
    | _ => exact h

/-- The services keep the constraints, also where they raise. -/
theorem constrained_exec (hp : Only NoArrival (fun _ => True) p) {w : World}
    (h : w.db.Constrained) : (p.exec w).2.db.Constrained := by
  have hrun : Prog.Ensures execOp p { world := w }
      (fun _ c' => w.db.Constrained → c'.world.db.Constrained)
      fun _ c' => w.db.Constrained → c'.world.db.Constrained :=
    hp.ensures (R := fun c c' : Conn => c.world.db.Constrained → c'.world.db.Constrained)
      (fun _ h => h) (fun _ _ _ hab hbc h => hbc (hab h)) constrained_execOp { world := w }
  unfold Prog.Ensures at hrun
  unfold Api.exec
  rcases hr : p.run execOp { world := w } with ⟨e | a, c'⟩ <;> rw [hr] at hrun <;> exact hrun h

end Constrained

section Runs
variable {c : Conn} {t : ParkingTransaction}

/-- An update that the database accepts. -/
theorem ensures_update_ok {i : Id} {u : TxUpdate} {ok : Unit → Conn → Prop} {err : Exc → Conn → Prop}
    (ht : c.world.db.findTx i = some t) (ha : c.world.db.acceptsTx (u.apply t) = true)
    (h : ok () { c with world.db := c.world.db.setTx i u }) :
    Prog.Ensures execOp (update i u) c ok err := by
  unfold Prog.Ensures update
  rw [Prog.run_perform]
  simpa [execOp, ht, ha] using h

/-- An update that is refused leaves the connection as it was. -/
theorem ensures_update_or {i : Id} {u : TxUpdate} {ok : Unit → Conn → Prop} {err : Exc → Conn → Prop}
    (herr : err (.db .integrity) c)
    (h : ∀ t, c.world.db.findTx i = some t →
      u.apply t = t ∨ c.world.db.acceptsTx (u.apply t) = true →
      ok () { c with world.db := c.world.db.setTx i u }) :
    Prog.Ensures execOp (update i u) c ok err := by
  unfold Prog.Ensures update
  rw [Prog.run_perform]
  simp only [execOp]
  rcases ht : c.world.db.findTx i with _ | t
  · exact herr
  · dsimp only
    by_cases ha : u.apply t = t ∨ c.world.db.acceptsTx (u.apply t) = true
    · rw [if_pos ha]
      exact h t ht ha
    · rw [if_neg ha]
      exact herr

theorem getCurrentShift_mem {ok : Option Shift → Conn → Prop} {err : Exc → Conn → Prop}
    (h : ∀ shift, refOk (c.world.db.shifts.map (·.id)) (shift.map (·.id)) = true →
      ok shift { c with world := c.world.readClock }) :
    Prog.Ensures execOp getCurrentShift c ok err := by
  rw [getCurrentShift, Prog.ensures_bind, ensures_now, Prog.ensures_bind, ensures_ext]
  refine h _ ?_
  generalize hs : Option.or _ _ = shift
  cases shift with
  | none => rfl
  | some s =>
    have hmem : s ∈ sortShifts (c.world.db.shifts.filter (·.isActive)) := by
      rcases Option.or_eq_some_iff.mp hs with h | ⟨-, h⟩
      · exact List.mem_of_find?_eq_some h
      · exact List.mem_of_mem_head? h
    have hshift := (List.mem_filter.mp ((List.mem_insertionSort _).mp hmem)).1
    simpa [refOk] using ⟨s, hshift, rfl⟩

theorem completeExitTransaction_ok {x : ExitColumns} {ok : ParkingTransaction → Conn → Prop}
    {err : Exc → Conn → Prop} (ht : c.world.db.findTx t.id = some t)
    (ha : ∀ now, c.world.db.acceptsTx ((TxUpdate.exit now x).apply t) = true)
    (h : ∀ now, ok ((TxUpdate.exit now x).apply t)
      { c with world := { c.world.readClock with db := c.world.db.setTx t.id (.exit now x) } }) :
    Prog.Ensures execOp (completeExitTransaction t x) c ok err := by
  rw [completeExitTransaction, Prog.ensures_bind, ensures_now, Prog.ensures_bind]
  exact ensures_update_ok ht (ha _) (h _)

theorem clearPending_ok {g : String} {ok : Unit → Conn → Prop} {err : Exc → Conn → Prop}
    (hr : c.world.redisDown = false) (h : ok () { c with world := c.world.setPending g none }) :
    Prog.Ensures execOp (ext (.clearPending g)) c ok err := by
  rw [ensures_ext]
  simpa [execEffect, hr] using h

theorem ensures_lock_ok {f : ParkingTransaction → Bool} {ok : List ParkingTransaction → Conn → Prop}
    {err : Exc → Conn → Prop} (hfree : ∀ t ∈ c.world.db.parking, f t = true → t.id ∉ c.world.contended)
    (h : ok (c.world.db.parking.filter f) c) : Prog.Ensures execOp (lock f) c ok err := by
  unfold Prog.Ensures lock
  rw [Prog.run_perform]
  have hany : ((c.world.db.parking.filter f).any fun t => c.world.contended.contains t.id) = false := by
    simpa using hfree
  simp only [execOp, hany, Bool.and_false, Bool.false_eq_true, if_false]
  exact h

theorem ensures_lock_or {f : ParkingTransaction → Bool} {ok : List ParkingTransaction → Conn → Prop}
    {err : Exc → Conn → Prop} (herr : err (.db .lockNotAvailable) c)
    (h : (c.lockTimeout = true → ∀ t ∈ c.world.db.parking, f t = true →
      t.id ∉ c.world.contended) → ok (c.world.db.parking.filter f) c) :
    Prog.Ensures execOp (lock f) c ok err := by
  unfold Prog.Ensures lock
  rw [Prog.run_perform]
  simp only [execOp]
  by_cases hl : (c.lockTimeout && (c.world.db.parking.filter f).any fun t =>
      c.world.contended.contains t.id) = true
  · rw [if_pos hl]
    exact herr
  · rw [if_neg hl]
    refine h fun htimeout t hmem hf hin => hl ?_
    rw [htimeout, Bool.true_and]
    exact List.any_eq_true.mpr ⟨t, List.mem_filter.mpr ⟨hmem, hf⟩, List.contains_iff_mem.mpr hin⟩

theorem acceptsEmoney_setCard {db : Db} {i j : Id} {card : String} {e : EmoneyTransaction}
    {n : Int} : (db.setCard i card).acceptsEmoney (e.stored j n) = db.acceptsEmoney e := by
  unfold Db.setCard
  split
  · rfl
  · simp only [Db.acceptsEmoney, Db.setTx_ids]
    rfl

theorem persistCardNumber_ok {card : String} {ok : ParkingTransaction → Conn → Prop}
    {err : Exc → Conn → Prop} (ht : c.world.db.findTx t.id = some t)
    (ha : c.world.db.acceptsTx (t.setCard card) = true)
    (h : ok (t.setCard card) { c with world.db := c.world.db.setCard t.id card }) :
    Prog.Ensures execOp (persistCardNumber t card) c ok err := by
  unfold persistCardNumber
  unfold Db.setCard ParkingTransaction.setCard at *
  by_cases hc : card = ""
  · simpa [hc] using h
  · simp only [if_neg hc] at ha h ⊢
    rw [Prog.ensures_bind]
    exact ensures_update_ok ht ha h

theorem overrideVehicleType_ok {v : Option Id} {ok : ParkingTransaction → Conn → Prop}
    {err : Exc → Conn → Prop} (ht : c.world.db.findTx t.id = some t)
    (ha : c.world.db.acceptsTx (t.retype v) = true)
    (h : ok (t.retype v) { c with world.db := c.world.db.retype t.id v }) :
    Prog.Ensures execOp (overrideVehicleType t v) c ok err := by
  cases v with
  | none => exact h
  | some v =>
    rw [overrideVehicleType, Prog.ensures_bind]
    exact ensures_update_ok ht ha h

theorem persistCardNumber_or {card : String} {ok : ParkingTransaction → Conn → Prop}
    {err : Exc → Conn → Prop} (herr : err (.db .integrity) c)
    (h : ok (t.setCard card) { c with world.db := c.world.db.setCard t.id card }) :
    Prog.Ensures execOp (persistCardNumber t card) c ok err := by
  unfold persistCardNumber
  unfold Db.setCard ParkingTransaction.setCard at h
  by_cases hc : card = ""
  · simpa [hc] using h
  · simp only [if_neg hc] at h ⊢
    rw [Prog.ensures_bind]
    exact ensures_update_or herr fun _ _ _ => h

/-- A payment of at least the fee, whose values fit their columns. -/
structure CashPayment.Fits (a : CashPayment) (db : Db) (fee : Int) : Prop where
  enough : fee ≤ a.paidAmount
  fee : int4Ok fee = true
  paid : int4Ok a.paidAmount = true
  gate : refOk (db.gates.map (·.id)) (some a.gateOutId) = true
  operator : refOk db.users a.operatorId = true

theorem processCashPayment_ok {a : CashPayment} {fee : Int} (hc : c.lockTimeout = false)
    (hdb : c.world.db.Constrained)
    (ht : c.world.db.findActive a.barcode a.cardNumber a.plateNumber = some t)
    (hv : refOk (c.world.db.vehicleTypes.map (·.id)) a.vehicleTypeId = true)
    (hfee : quote c.world.db.vehicleTypes (.utc c.world.now) (t.retype a.vehicleTypeId) = .ok fee)
    (hfits : a.Fits c.world.db fee) :
    Prog.Ensures execOp (processCashPayment a) c (fun _ _ => True) (fun _ _ => False) := by
  have hmem := (Db.findActive_mem ht).1
  have hrow := hdb.findTx hmem
  have haccept := acceptsTx_retype (hdb.rows t hmem) hv
  rw [processCashPayment, Prog.ensures_bind]
  refine findActiveTransaction_spec hc ?_
  rw [ht]
  dsimp only
  rw [Prog.ensures_bind]
  refine overrideVehicleType_ok hrow haccept ?_
  refine (enqueueSnapshotsForGate_quiet _ _ _).bind (fun _ _ h => h) ?_
  rintro - c₂ ⟨hq₂, hnow⟩
  refine (calculateTransactionFee_spec _ none).bind (fun _ _ h => h) ?_
  rintro fee' c₃ ⟨hq₃, hfee'⟩
  rw [hnow, hq₂.db, retype_vehicleTypes] at hfee'
  obtain rfl : fee' = fee := Except.ok.inj (hfee'.symm.trans hfee)
  have hdb₃ : c₃.world.db = c.world.db.retype t.id a.vehicleTypeId := hq₃.db.trans hq₂.db
  have href : c₃.world.db.reference = c.world.db.reference := by
    rw [hdb₃]
    cases a.vehicleTypeId <;> rfl
  rw [if_neg (not_lt.mpr hfits.enough), Prog.ensures_bind]
  refine getCurrentShift_mem fun shift hshift => ?_
  rw [(reference_eq href).2.2.2.1] at hshift
  rw [Prog.ensures_bind]
  refine completeExitTransaction_ok ?_ (fun now => ?_) fun now => ?_
  · change c₃.world.db.findTx _ = _
    rw [hdb₃, retype_id, findTx_retype, hrow]
    rfl
  · exact acceptsTx_exit haccept href hfits.fee hfits.paid hfits.gate rfl hshift hfits.operator
  · exact (enqueuePrintReceipt_quiet _ _).bind (fun _ _ h => h) fun _ _ _ => trivial

theorem World.live_expiry {α : Type} (w : World) (x : α) :
    w.live (some (x, w.expiry emoneyPendingTtlSeconds)) = some x :=
  if_pos (Int.lt_add_of_pos_right _ (by decide))

/-- An arm that is answered is in Redis, for as long as the key lives. -/
theorem processEmoneyDeduct_pending (a : EmoneyDeduct) :
    Prog.Ensures execOp (processEmoneyDeduct a) c
      (fun r c' => c'.world.pending a.gateId =
        some ({ transactionId := r.transaction.id, gateOutId := a.gateOutId, fee := r.fee },
          c'.world.expiry emoneyPendingTtlSeconds))
      (fun _ _ => True) := by
  refine (Prog.ensures_true _).bind (fun _ _ h => h) fun t c₁ _ => ?_
  cases t with
  | none => trivial
  | some t =>
    refine (Prog.ensures_true _).bind (fun _ _ h => h) fun t' c₂ _ => ?_
    refine (Prog.ensures_true _).bind (fun _ _ h => h) fun fee c₃ _ => ?_
    rw [Prog.ensures_bind, ensures_ext]
    dsimp only [execEffect]
    by_cases hr : c₃.world.redisDown = true
    · simp [hr]
    · simp [hr, World.setPending, setKey, World.expiry]

/-- Nothing but Redis can keep the deduct of a waiting stay from being armed. -/
theorem processEmoneyDeduct_ok {a : EmoneyDeduct} (hc : c.lockTimeout = false)
    (hdb : c.world.db.Constrained)
    (ht : c.world.db.findActive (some a.barcode) none none = some t)
    (hv : refOk (c.world.db.vehicleTypes.map (·.id)) a.vehicleTypeId = true) :
    Prog.Ensures execOp (processEmoneyDeduct a) c (fun _ _ => True)
      (fun _ _ => c.world.redisDown = true) := by
  have hmem := (Db.findActive_mem ht).1
  rw [processEmoneyDeduct, Prog.ensures_bind]
  refine findActiveTransaction_spec hc ?_
  rw [ht]
  dsimp only
  rw [Prog.ensures_bind]
  refine overrideVehicleType_ok (hdb.findTx hmem) (acceptsTx_retype (hdb.rows t hmem) hv) ?_
  refine (calculateTransactionFee_spec _ none).bind (fun _ _ h => h.elim) ?_
  rintro fee c₂ ⟨hq, -⟩
  have hr₂ : c₂.world.redisDown = c.world.redisDown := hq.redisDown
  rw [Prog.ensures_bind, ensures_ext]
  dsimp only [execEffect]
  by_cases hr : c.world.redisDown = true
  · simp [hr₂, hr]
  · simp [hr₂, hr]

/-- What Redis, the locks and the database ask of a result for the armed row `i`. -/
structure EmoneyResult.Storable (a : EmoneyResult) (w : World) (p : Pending) (i : Id) : Prop where
  redis : w.redisDown = false
  free : i ∉ w.contended
  values : w.db.acceptsEmoney (a.row i) = true
  exit : a.status.isSuccess = true →
    refOk (w.db.gates.map (·.id)) (some (orInt p.gateOutId a.gateOutId)) = true ∧
      refOk w.db.users a.operatorId = true

theorem determineOutcome_ok {a : EmoneyResult} {p : Pending} {i : Id}
    (hr : c.world.redisDown = false) (ht : c.world.db.findTx t.id = some t)
    (ha : a.status.isSuccess = true → ∀ now shiftId,
      refOk (c.world.db.shifts.map (·.id)) shiftId = true →
      c.world.db.acceptsTx ((TxUpdate.exit now (a.exit p i shiftId)).apply t) = true) :
    Prog.Ensures execOp (determineOutcome a p t i) c (fun _ _ => True) (fun _ _ => False) := by
  unfold determineOutcome
  by_cases hs : a.status.isSuccess = true
  · rw [if_pos hs, Prog.ensures_bind]
    refine getCurrentShift_mem fun shift hshift => ?_
    rw [Prog.ensures_bind]
    refine completeExitTransaction_ok ht (fun now => ha hs now _ hshift) fun now => ?_
    rw [Prog.ensures_bind]
    refine clearPending_ok hr ?_
    refine (enqueueSnapshotsForGate_quiet _ _ _).bind (fun _ _ h => h) fun _ c₁ _ => ?_
    exact (enqueuePrintReceipt_quiet _ _).bind (fun _ _ h => h) fun _ _ _ => trivial
  · rw [if_neg hs]
    split
    · trivial
    · rw [if_pos (terminal_of_not hs ‹_›), Prog.ensures_bind]
      exact clearPending_ok hr trivial

/-- A result that can be stored is stored, whatever its status. -/
theorem processEmoneyResult_ok {a : EmoneyResult} {p : Pending}
    (hn : (c.world.db.parking.map (·.id)).Nodup)
    (hp : c.world.live (c.world.pending a.gateId) = some p)
    (hrow : c.world.db.findTx p.transactionId = some t) (ha : t.status = .active)
    (hstored : c.world.db.acceptsTx t = true)
    (hcard : a.cardNumber ≠ "" → ∀ s ∈ c.world.db.parking, s.id ≠ t.id → s.status = .active →
      s.cardNumber ≠ some a.cardNumber)
    (hfits : a.Storable c.world p t.id) :
    Prog.Ensures execOp (processEmoneyResult a) c (fun _ _ => True) (fun _ _ => False) := by
  have hid := findTx_id hrow
  rw [processEmoneyResult, Prog.ensures_bind, ensures_ext]
  dsimp only [execEffect]
  rw [if_neg (by rw [hfits.redis]; decide)]
  dsimp only
  rw [hp]
  dsimp only
  rw [Prog.ensures_bind, ensures_ext]
  dsimp only [execEffect]
  rw [Prog.ensures_bind]
  refine ensures_lock_ok ?_ ?_
  · intro s hs hsid
    obtain rfl := Db.eq_of_id hn hs (List.mem_of_find?_eq_some hrow)
      ((of_decide_eq_true hsid).trans hid.symm)
    exact hfits.free
  have hhead : (c.world.db.byId p.transactionId).filter (·.status = .active) = some t := by
    rw [byId_eq_findTx, hrow, Option.filter_some, if_pos (by simp [ha])]
  unfold Db.byId at hhead
  dsimp only
  rw [hhead]
  dsimp only
  have hvalues : varcharOk 32 a.cardNumber = true ∧ int4Ok a.deductAmount = true := by
    have hv := hfits.values
    simp only [Db.acceptsEmoney, Bool.and_eq_true] at hv
    exact ⟨hv.1.1.1.1.1.1.1.1.1.1.1, hv.1.1.1.1.1.1.1.1.2⟩
  have haccept : c.world.db.acceptsTx (t.setCard a.cardNumber) = true := by
    unfold ParkingTransaction.setCard
    split
    · exact hstored
    · exact acceptsTx_setCard hstored hvalues.1 (hcard ‹_›)
  rw [Prog.ensures_bind]
  refine persistCardNumber_ok (by rw [hid]; exact hrow) haccept ?_
  rw [Prog.ensures_bind, ensures_ext]
  dsimp only [execEffect]
  rw [setCard_id, if_pos (by rw [acceptsEmoney_setCard]; exact hfits.values)]
  refine determineOutcome_ok hfits.redis ?_ fun hs now shiftId hshift => ?_
  · rw [setCard_id]
    exact findTx_setCard.trans (by rw [hid, hrow]; rfl)
  · obtain ⟨hgate, hoperator⟩ := hfits.exit hs
    have hshifts : (c.world.db.setCard t.id a.cardNumber).shifts = c.world.db.shifts :=
      (reference_eq setCard_reference).2.2.2.1
    exact acceptsTx_exit haccept setCard_reference hvalues.2 hvalues.2 hgate rfl
      (by rw [← hshifts]; exact hshift) hoperator

theorem acceptsTx_refs {db : Db} (h : db.acceptsTx t = true) :
    refOk (db.gates.map (·.id)) t.gateOutId = true ∧ refOk db.users t.operatorId = true := by
  simp only [Db.acceptsTx, Bool.and_eq_true] at h
  exact ⟨h.1.1.1.1.2, h.1.2⟩

/-- Where the outcome of an ACTIVE row cannot be determined, the arm is not cleared either. -/
theorem determineOutcome_storable {a : EmoneyResult} {p : Pending} {i : Id}
    (hr : c.world.redisDown = false) (ht : c.world.db.findTx t.id = some t)
    (ha : t.status = .active) :
    Prog.Ensures execOp (determineOutcome a p t i) c
      (fun _ _ => a.status.isSuccess = true →
        refOk (c.world.db.gates.map (·.id)) (some (orInt p.gateOutId a.gateOutId)) = true ∧
          refOk c.world.db.users a.operatorId = true)
      (fun _ c' => c'.world.pending = c.world.pending) := by
  unfold determineOutcome
  by_cases hs : a.status.isSuccess = true
  · rw [if_pos hs]
    refine getCurrentShift_quiet.bind (fun _ _ h => h.elim) ?_
    rintro shift c₁ hq
    rw [completeExitTransaction, Prog.ensures_bind, Prog.ensures_bind, ensures_now,
      Prog.ensures_bind]
    refine ensures_update_or hq.pending fun s hrow haccept => ?_
    have hrow₁ : c₁.world.db.findTx t.id = some s := hrow
    rw [hq.db, ht] at hrow₁
    cases hrow₁
    have hrefs : c₁.world.db.acceptsTx ((TxUpdate.exit (.utc c₁.world.now)
        (a.exit p i (shift.map (·.id)))).apply t) = true := by
      rcases haccept with hsame | haccept
      · have hstatus := congrArg ParkingTransaction.status hsame
        rw [ha] at hstatus
        cases hstatus
      · exact haccept
    rw [hq.db] at hrefs
    rw [Prog.ensures_pure, Prog.ensures_bind]
    refine clearPending_ok (hq.redisDown.trans hr) ?_
    refine (enqueueSnapshotsForGate_quiet _ _ _).bind (fun _ _ h => h.elim) fun _ c₂ _ => ?_
    refine (enqueuePrintReceipt_quiet _ _).bind (fun _ _ h => h.elim) fun _ c₃ _ => ?_
    exact fun _ => acceptsTx_refs hrefs
  · rw [if_neg hs]
    split
    · exact fun h => absurd h hs
    · rw [if_pos (terminal_of_not hs ‹_›), Prog.ensures_bind]
      exact clearPending_ok hr fun h => absurd h hs

/-- Only what can be stored is, and a result that raises leaves the arm of its ACTIVE row. -/
theorem processEmoneyResult_storable {a : EmoneyResult} {p : Pending}
    (hp : c.world.live (c.world.pending a.gateId) = some p)
    (hrow : c.world.db.findTx p.transactionId = some t) (ha : t.status = .active) :
    Prog.Ensures execOp (processEmoneyResult a) c (fun _ _ => a.Storable c.world p t.id)
      (fun _ c' => c'.world.pending = c.world.pending) := by
  have hid := findTx_id hrow
  rw [processEmoneyResult, Prog.ensures_bind, ensures_ext]
  dsimp only [execEffect]
  by_cases hr : c.world.redisDown = true
  · rw [if_pos hr]
  rw [if_neg hr, hp]
  dsimp only
  rw [Prog.ensures_bind, ensures_ext]
  dsimp only [execEffect]
  rw [Prog.ensures_bind]
  refine ensures_lock_or rfl fun hfree => ?_
  have hhead : (c.world.db.byId p.transactionId).filter (·.status = .active) = some t := by
    rw [byId_eq_findTx, hrow, Option.filter_some, if_pos (by simp [ha])]
  unfold Db.byId at hhead
  dsimp only at hfree ⊢
  rw [hhead]
  dsimp only
  rw [Prog.ensures_bind]
  refine persistCardNumber_or rfl ?_
  rw [Prog.ensures_bind, ensures_ext]
  dsimp only [execEffect]
  rw [setCard_id, acceptsEmoney_setCard]
  by_cases hvalues : c.world.db.acceptsEmoney (a.row t.id) = true
  · rw [if_pos hvalues]
    dsimp only
    refine (determineOutcome_storable (by simpa using hr) ?_ (by rw [setCard_status, ha])).mono
      ?_ fun _ _ h => h
    · rw [setCard_id]
      exact findTx_setCard.trans (by rw [hid, hrow]; rfl)
    · intro o c' hexit
      have hmem := List.mem_of_find?_eq_some hrow
      refine ⟨by simpa using hr, hfree rfl t hmem (decide_eq_true hid), hvalues, fun hs => ?_⟩
      have hgates : (c.world.db.setCard t.id a.cardNumber).gates = c.world.db.gates :=
        (reference_eq setCard_reference).2.1
      have husers : (c.world.db.setCard t.id a.cardNumber).users = c.world.db.users :=
        (reference_eq setCard_reference).2.2.2.2
      rw [← hgates, ← husers]
      exact hexit hs
  · rw [if_neg hvalues]

end Runs
end ParkIt
