import ParkIt.Ledger
import ParkIt.Services.Accepting
import ParkIt.Reports
import ParkIt.Settlement.File
import Mathlib.Algebra.Order.BigOperators.Group.List

/-! The cash that the shift summary of a booth reports, and the cash in the drawer. -/
namespace ParkIt.Drawer
open Effects Api Transition Reports

section Code

/-- `exit_time >= today_start AND payment_method = 'CASH'`, and the operator when there is one. -/
def inDrawer (todayStart : Int) (operatorId : Option Id) (t : ParkingTransaction) : Bool :=
  t.exitTime.any (fun e => decide (todayStart ≤ e.instant)) &&
    decide (t.paymentMethod = some .cash) && operatorId.all fun o => decide (t.operatorId = some o)

structure ShiftSummary where
  shiftName : String
  shiftTimeRange : String
  cashCollected : Int
  transactionCount : ℕ
deriving DecidableEq, Repr

/-- `strftime('%H:%M')` of a time of day. -/
def hhmm (t : Int) : String :=
  let minutes := (t / DateTime.microsPerMinute).toNat
  s!"{Settlement.padded 2 (minutes / 60)}:{Settlement.padded 2 (minutes % 60)}"

/-- `name` is the column of the shifts, `z` the zone of the process. -/
def getShiftSummary (z : Zone) (name : Id → String) (operatorId : Option Id) :
    Api ShiftSummary := do
  let now ← ext .now
  let todayStart := z.midnight (z.date now.instant)
  let activeShift ← getCurrentShift
  let rows ← ext (.selectTx (inDrawer todayStart operatorId))
  let cashCollected := sumOrZero (rows.map (·.paidAmount))
  match activeShift with
  | some s =>
    pure { shiftName := name s.id, shiftTimeRange := s!"{hhmm s.startTime} - {hhmm s.endTime}",
           cashCollected, transactionCount := rows.length }
  | none =>
    pure { shiftName := "", shiftTimeRange := "", cashCollected, transactionCount := rows.length }

end Code

/-- A successful payment, with the world in which it was made. -/
structure Taking where
  before : World
  payment : CashPayment
  result : PaymentResult

/-- The calls and what goes on outside of them; the label is the payment that a step has made. -/
inductive DayStep : World → Option Taking → World → Prop
  | taken {w w' : World} {a : CashPayment} {r : PaymentResult} :
      (processCashPayment a).exec w = (.ok r, w') → DayStep w (some ⟨w, a, r⟩) w'
  | refused {w w' : World} {a : CashPayment} {msg : String} :
      (processCashPayment a).exec w = (.error (.value msg), w') → DayStep w none w'
  | other {w} (k : Call) : (∀ a, k ≠ .cash a) → DayStep w none (k.after w)
  | rollback {w} (k : Call) : DayStep w none (w.rollback (k.handler.exec w).2)
  | outside {w w' : World} : w'.db = w.db → w.nextTx ≤ w'.nextTx → w.nextEmoney ≤ w'.nextEmoney →
      DayStep w none w'

/-- The payments of an operator since the beginning of the day. -/
def Taking.onDay (todayStart : Int) (o : Id) (p : Taking) : Bool :=
  decide (p.payment.operatorId = some o) &&
    p.result.transaction.exitTime.any fun e => decide (todayStart ≤ e.instant)

def takings (todayStart : Int) (o : Id) (ls : List (Option Taking)) : List Taking :=
  (ls.filterMap id).filter (Taking.onDay todayStart o)

/-- What is counted for the operator. -/
def drawerRows (todayStart : Int) (o : Id) (db : Db) : List ParkingTransaction :=
  db.parking.filter (inDrawer todayStart (some o))

section Rows
variable {d : Int} {o : Id} {db : Db} {t : ParkingTransaction} {u : TxUpdate}

theorem not_inDrawer_of_inside (h : t.exitTime = none) : inDrawer d (some o) t = false := by
  simp [inDrawer, h]

/-- An update of a row that is not counted adds what the row becomes, if that is counted. -/
theorem drawerRows_setTx (hn : (db.parking.map (·.id)).Nodup) (ht : t ∈ db.parking)
    (hnot : inDrawer d (some o) t = false) :
    (drawerRows d o (db.setTx t.id u)).Perm
      (if inDrawer d (some o) (u.apply t) then
        u.apply t :: drawerRows d o db else drawerRows d o db) := by
  obtain ⟨l, l', hl⟩ := List.append_of_mem ht
  rw [hl, List.map_append, List.map_cons, List.nodup_middle, List.nodup_cons, ← List.map_append]
    at hn
  have hkeep : ∀ s ∈ l ++ l', (if s.id = t.id then u.apply s else s) = s := by
    intro s hs
    refine if_neg fun h => hn.1 ?_
    rw [← h]
    exact List.mem_map_of_mem hs
  have hmap : (db.setTx t.id u).parking = l ++ u.apply t :: l' := by
    simp only [Db.setTx, hl, List.map_append, List.map_cons, if_true]
    congr 1
    · exact (List.map_congr_left fun s hs => hkeep s (List.mem_append_left _ hs)).trans
        (List.map_id' l)
    · exact congrArg (u.apply t :: ·)
        ((List.map_congr_left fun s hs => hkeep s (List.mem_append_right _ hs)).trans
          (List.map_id' l'))
  simp only [drawerRows, hmap, hl, List.filter_append, List.filter_cons, hnot]
  split
  · exact List.perm_middle
  · exact List.Perm.refl _

theorem drawerRows_inside (hn : (db.parking.map (·.id)).Nodup) (ht : t ∈ db.parking)
    (hinside : t.exitTime = none)
    (hnot : inDrawer d (some o) (u.apply t) = false) :
    (drawerRows d o (db.setTx t.id u)).Perm (drawerRows d o db) := by
  have h := drawerRows_setTx (d := d) (o := o) (u := u) hn ht (not_inDrawer_of_inside hinside)
  rwa [hnot] at h

end Rows

section Calls
variable {d : Int} {o : Id} {ks : List (Option Call)} {w w' : World}
  {t : ParkingTransaction}

/-- Nothing more and nothing less is counted. -/
def SameDrawer (d : Int) (o : Id) (w w' : World) : Prop :=
  (drawerRows d o w'.db).Perm (drawerRows d o w.db)

theorem SameDrawer.of_db (h : w'.db = w.db) : SameDrawer d o w w' := by
  rw [SameDrawer, h]

theorem drawer_retype (h : LedgerInv ks w) (ht : t ∈ w.db.parking) (ha : t.status = .active)
    (v : Option Id) :
    (drawerRows d o (w.db.retype t.id v)).Perm (drawerRows d o w.db) := by
  cases v with
  | none => exact List.Perm.refl _
  | some v =>
    have hinside := ((h.rows t ht).active ha).1
    exact drawerRows_inside h.ids ht hinside (not_inDrawer_of_inside hinside)

theorem drawer_setCard (h : LedgerInv ks w) (ht : t ∈ w.db.parking) (ha : t.status = .active)
    (card : String) :
    (drawerRows d o (w.db.setCard t.id card)).Perm (drawerRows d o w.db) := by
  unfold Db.setCard
  split
  · exact List.Perm.refl _
  · have hinside := ((h.rows t ht).active ha).1
    exact drawerRows_inside h.ids ht hinside (not_inDrawer_of_inside hinside)

/-- An exit that is not paid in cash is not counted. -/
theorem drawer_exit (h : LedgerInv ks w) (ht : t ∈ w.db.parking) (ha : t.status = .active)
    (now : DateTime) {x : ExitColumns} (hx : x.paymentMethod ≠ .cash) :
    (drawerRows d o (w.db.setTx t.id (.exit now x))).Perm
      (drawerRows d o w.db) := by
  refine drawerRows_inside h.ids ht ((h.rows t ht).active ha).1 ?_
  simp [inDrawer, TxUpdate.apply, hx]

theorem drawer_entry (r : EntryRequest) :
    Prog.Ensures execOp (createEntryTransaction r) { world := w }
      (fun _ c' => SameDrawer d o w c'.world)
      (onValue fun _ c' => SameDrawer d o w c'.world) := by
  refine (createEntryTransaction_spec r).mono ?_ fun _ _ => onValue_of_false
  rintro _ c' ⟨now, rfl, -, hdb, -⟩
  have hnot : inDrawer d (some o) ((r.row now).stored w.nextTx) = false :=
    not_inDrawer_of_inside rfl
  simp [SameDrawer, drawerRows, hdb, Db.addTx, hnot]

theorem drawer_rfid (h : LedgerInv ks w) (a : RfidPayment) :
    Prog.Ensures execOp (processRfidPayment a) { world := w }
      (fun _ c' => SameDrawer d o w c'.world)
      (onValue fun _ c' => SameDrawer d o w c'.world) := by
  refine (processRfidPayment_spec a rfl).mono ?_ ?_
  · rintro r c' ⟨t, now, shiftId, -, ht, -, -, hdb⟩
    obtain ⟨hmem, ha⟩ := Db.findActive_mem ht
    rw [SameDrawer, hdb]
    exact drawer_exit h hmem ha now (by simp [RfidPayment.exit])
  · rintro e c' hv
    exact hv.mono fun _ heq => .of_db (by rw [heq])

theorem drawer_deduct (h : LedgerInv ks w) (a : EmoneyDeduct) :
    Prog.Ensures execOp (processEmoneyDeduct a) { world := w }
      (fun _ c' => SameDrawer d o w c'.world)
      (onValue fun _ c' => SameDrawer d o w c'.world) := by
  refine (processEmoneyDeduct_spec a rfl).mono ?_ ?_
  · rintro r c' ⟨t, deadline, ht, -, -, hdb, -⟩
    obtain ⟨hmem, ha⟩ := Db.findActive_mem ht
    rw [SameDrawer, hdb]
    exact drawer_retype h hmem ha a.vehicleTypeId
  · rintro e c' hv
    exact hv.mono fun _ heq => .of_db (by rw [heq.1])

theorem drawer_result (h : LedgerInv ks w) (a : EmoneyResult) :
    Prog.Ensures execOp (processEmoneyResult a) { world := w }
      (fun _ c' => SameDrawer d o w c'.world)
      (onValue fun _ c' => SameDrawer d o w c'.world) := by
  refine (processEmoneyResult_spec a).mono ?_ ?_
  · rintro r c' ⟨pending, t, -, hid, ha, -, -, hstored, -⟩
    have hmem := (Db.byId_mem hid).1
    obtain ⟨hi, hmem'⟩ := h.setCard hmem ha a.cardNumber
    have hcard := drawer_setCard (d := d) (o := o) h hmem ha a.cardNumber
    unfold EmoneyResult.Stored at hstored
    split at hstored
    · obtain ⟨now, shiftId, hdb⟩ := hstored
      have hexit := drawer_exit (d := d) (o := o) hi hmem' (by rw [setCard_status, ha]) now
        (x := a.exit pending w.nextEmoney shiftId) (by simp [EmoneyResult.exit])
      rw [setCard_id] at hexit
      rw [SameDrawer, hdb]
      exact hexit.trans hcard
    · rw [SameDrawer, hstored]
      exact hcard
  · rintro e c' hv
    exact hv.mono fun _ hback => .of_db hback.1

/-- A payment adds its own transaction if it is the operator's, and of the day. -/
theorem drawer_cash (h : LedgerInv ks w) (a : CashPayment) :
    Prog.Ensures execOp (processCashPayment a) { world := w }
      (fun r c' => (drawerRows d o c'.world.db).Perm
        (if (⟨w, a, r⟩ : Taking).onDay d o then
          r.transaction :: drawerRows d o w.db else drawerRows d o w.db))
      (onValue fun _ c' => SameDrawer d o w c'.world) := by
  refine (processCashPayment_spec a rfl).mono ?_ ?_
  · rintro r c' ⟨t, now, shiftId, ht, -, -, hrow, -, -, hdb⟩
    obtain ⟨hmem, ha⟩ := Db.findActive_mem ht
    obtain ⟨hi, hmem'⟩ := h.retype hmem ha a.vehicleTypeId
    have hinside := ((hi.rows _ hmem').active (by rw [retype_status, ha])).1
    have hretype := drawer_retype (d := d) (o := o) h hmem ha a.vehicleTypeId
    have hset := drawerRows_setTx (d := d) (o := o) (u := .exit now (a.exit r.fee shiftId)) hi.ids
      hmem' (not_inDrawer_of_inside hinside)
    have hday : inDrawer d (some o) r.transaction =
        (⟨w, a, r⟩ : Taking).onDay d o := by
      simp [inDrawer, Taking.onDay, hrow, TxUpdate.apply, CashPayment.exit, Bool.and_comm]
    rw [← hrow, hday, retype_id] at hset
    rw [hdb]
    split
    · rename_i hp
      rw [if_pos hp] at hset
      exact hset.trans (hretype.cons _)
    · rename_i hp
      rw [if_neg hp] at hset
      exact hset.trans hretype
  · intro e c' hv
    refine hv.mono ?_
    rintro _ ⟨-, ⟨-, hdb⟩ | ⟨t, fee, ht, -, -, hdb⟩⟩
    · exact .of_db hdb
    · obtain ⟨hmem, ha⟩ := Db.findActive_mem ht
      rw [SameDrawer, hdb]
      exact drawer_retype h hmem ha a.vehicleTypeId

theorem drawer_call (h : LedgerInv ks w) {k : Call} (hk : ∀ a, k ≠ .cash a) :
    Prog.Ensures execOp k.handler { world := w }
      (fun _ c' => SameDrawer d o w c'.world)
      (onValue fun _ c' => SameDrawer d o w c'.world) := by
  cases k with
  | entry r => exact (drawer_entry r).bind (fun _ _ he => he) fun _ _ hi => hi
  | cash a => exact absurd rfl (hk a)
  | rfid a => exact (drawer_rfid h a).bind (fun _ _ he => he) fun _ _ hi => hi
  | deduct a => exact (drawer_deduct h a).bind (fun _ _ he => he) fun _ _ hi => hi
  | result a => exact (drawer_result h a).bind (fun _ _ he => he) fun _ _ hi => hi

end Calls

section Payments
variable {d : Int} {o : Id} {ks : List (Option Call)} {w w' : World} {p : Taking}
  {l : Option Taking} {ls : List (Option Taking)}

/-- What a payment leaves in its row and tells the operator. -/
structure Taking.Booked (p : Taking) : Prop where
  fee_le : p.result.fee ≤ p.payment.paidAmount
  change : p.result.changeAmount = p.payment.paidAmount - p.result.fee
  paid : p.result.transaction.paidAmount = some (p.payment.paidAmount : Int)
  fee : p.result.transaction.fee = some p.result.fee
  method : p.result.transaction.paymentMethod = some .cash
  quoted : ∃ t, p.before.db.findActive p.payment.barcode p.payment.cardNumber
      p.payment.plateNumber = some t ∧
    quote p.before.db.vehicleTypes (.utc p.before.now) (t.retype p.payment.vehicleTypeId) =
      .ok p.result.fee

theorem booked_of_exec {a : CashPayment} {r : PaymentResult}
    (h : (processCashPayment a).exec w = (.ok r, w')) : (⟨w, a, r⟩ : Taking).Booked := by
  obtain ⟨c', hspec, -⟩ := exec_ok (processCashPayment_spec a rfl) h
  obtain ⟨t, now, shiftId, ht, hfee, hle, hrow, hchange, -, -⟩ := hspec
  refine ⟨hle, ?_, by rw [hrow]; rfl, by rw [hrow]; rfl, by rw [hrow]; rfl, t, ht, hfee⟩
  rw [hchange]
  exact max_eq_right (Int.sub_nonneg_of_le hle)

/-- The counted rows are the transactions of the day's payments. -/
structure DayInv (d : Int) (o : Id) (ls : List (Option Taking)) (w : World) : Prop where
  ledger : ∃ ks, LedgerInv ks w
  rows : (drawerRows d o w.db).Perm ((takings d o ls).map (·.result.transaction))
  booked : ∀ p ∈ takings d o ls, p.Booked

theorem takings_snoc_none : takings d o (ls ++ [none]) = takings d o ls := by simp [takings]

theorem takings_snoc_some : takings d o (ls ++ [some p]) =
    takings d o ls ++ if p.onDay d o then [p] else [] := by
  simp [takings, List.filter_cons]

theorem dayInv_same (h : DayInv d o ls w) (hledger : ∃ ks, LedgerInv ks w')
    (hsame : SameDrawer d o w w') : DayInv d o (ls ++ [none]) w' := by
  refine ⟨hledger, ?_, ?_⟩
  · rw [takings_snoc_none]
    exact hsame.trans h.rows
  · rw [takings_snoc_none]
    exact h.booked

theorem dayInv_taken {a : CashPayment} {r : PaymentResult} (h : DayInv d o ls w)
    (hexec : (processCashPayment a).exec w = (.ok r, w')) :
    DayInv d o (ls ++ [some ⟨w, a, r⟩]) w' := by
  obtain ⟨ks, hks⟩ := h.ledger
  obtain ⟨c₁, hledger, rfl⟩ := exec_ok (ledgerInv_cash hks a) hexec
  obtain ⟨c₂, hrows, hworld⟩ := exec_ok (drawer_cash (d := d) (o := o) hks a) hexec
  rw [hworld] at hrows
  refine ⟨⟨ks, hledger⟩, ?_, ?_⟩
  · rw [takings_snoc_some, List.map_append]
    split at hrows
    · rename_i hp
      rw [if_pos hp]
      exact (hrows.trans (h.rows.cons _)).trans (List.perm_append_singleton _ _).symm
    · rename_i hp
      rw [if_neg hp, List.map_nil, List.append_nil]
      exact hrows.trans h.rows
  · rw [takings_snoc_some]
    intro p hp
    obtain hp | hp := List.mem_append.mp hp
    · exact h.booked p hp
    · split at hp
      · rw [List.mem_singleton.mp hp]
        exact booked_of_exec hexec
      · cases hp

theorem dayInv_step (hs : DayStep w l w') (h : DayInv d o ls w) :
    DayInv d o (ls ++ [l]) w' := by
  obtain ⟨ks, hks⟩ := h.ledger
  cases hs with
  | taken hexec => exact dayInv_taken h hexec
  | refused hexec =>
    obtain ⟨c₁, hledger, rfl⟩ := exec_error (ledgerInv_cash hks _) hexec
    obtain ⟨c₂, hsame, hworld⟩ := exec_error (drawer_cash (d := d) (o := o) hks _) hexec
    exact dayInv_same h ⟨ks, hledger⟩ (hworld ▸ hsame)
  | other k hk =>
    exact dayInv_same h ⟨ks ++ [some k], ledgerInv_step (.commit k) hks⟩
      (Call.after_of_ensures (drawer_call hks hk) (.of_db rfl))
  | rollback k =>
    exact dayInv_same h ⟨ks ++ [some k], ledgerInv_step (.rollback k) hks⟩ (.of_db rfl)
  | outside hdb htx hem =>
    exact dayInv_same h ⟨ks ++ [none], ledgerInv_step (.outside hdb htx hem) hks⟩ (.of_db hdb)

theorem dayInv_path {xs : List (Option Taking × World)} (hw : Opening w) (h : Path DayStep w xs) :
    DayInv d o (xs.map Prod.fst) (finish w xs) := by
  have hstart : DayInv d o [] w := by
    refine ⟨⟨[], ledgerInv_opening hw⟩, ?_, ?_⟩
    · simp [drawerRows, hw.parking, takings]
    · simp [takings]
  simpa using h.history (fun _ _ _ _ hs hi => dayInv_step hs hi) hstart

end Payments

section Reconciliation
variable {z : Zone} {name : Id → String} {d : Int} {o : Id} {w : World}
  {xs : List (Option Taking × World)} {ls : List (Option Taking)}

/-- The operator is handed the fee, to the rupiah. -/
def Exact (w : World) (a : CashPayment) : Prop :=
  ∃ t, w.db.findActive a.barcode a.cardNumber a.plateNumber = some t ∧
    quote w.db.vehicleTypes (.utc w.now) (t.retype a.vehicleTypeId) = .ok (a.paidAmount : Int)

/-- What the payments leave in the drawer. -/
def leftInDrawer (ps : List Taking) : Int :=
  (ps.map fun p => (p.payment.paidAmount : Int) - p.result.changeAmount).sum

/-- The shift summary, the drawer, the fees and the summary report tell the same amount. -/
def Reconciled (s : ShiftSummary) (ps : List Taking) (db : Db) : Prop :=
  s.cashCollected = leftInDrawer ps ∧ leftInDrawer ps = (ps.map (·.result.fee)).sum ∧
    (ps.map (·.result.fee)).sum =
      (totals (db.parking.filter fun t => t.id ∈ ps.map (·.result.transaction.id))).cashRevenue

variable (z name o w) in
theorem getShiftSummary_spec :
    Prog.Ensures execOp (getShiftSummary z name (some o)) { world := w }
      (fun s _ => s.cashCollected =
        ((drawerRows (z.midnight (z.date w.now)) o w.db).map (·.paidAmount.getD 0)).sum)
      (fun _ _ => False) := by
  rw [getShiftSummary, Prog.ensures_bind, ensures_now]
  refine getCurrentShift_quiet.bind (fun _ _ h => h.elim) ?_
  rintro shift c hq
  rw [Prog.ensures_bind, ensures_ext]
  dsimp only [execEffect]
  have hsum : sumOrZero ((c.world.db.parking.filter
      (inDrawer (z.midnight (z.date w.now)) (some o))).map (·.paidAmount)) =
        ((drawerRows (z.midnight (z.date w.now)) o w.db).map (·.paidAmount.getD 0)).sum := by
    rw [sumOrZero_eq, List.map_map, hq.db]
    rfl
  cases shift with
  | none => exact hsum
  | some s => exact hsum

theorem sum_eq_iff_of_le {α : Type} {l : List α} {f g : α → Int} (h : ∀ x ∈ l, f x ≤ g x) :
    (l.map g).sum = (l.map f).sum ↔ ∀ x ∈ l, f x = g x := by
  induction l with
  | nil => simp
  | cons x l ih =>
    rw [List.forall_mem_cons] at h ⊢
    have hle := List.sum_le_sum h.2
    rw [← ih h.2, List.map_cons, List.map_cons, List.sum_cons, List.sum_cons]
    have hx := h.1
    omega

theorem Taking.Booked.exact_iff {p : Taking} (h : p.Booked) :
    Exact p.before p.payment ↔ p.result.fee = p.payment.paidAmount := by
  obtain ⟨t, ht, hfee⟩ := h.quoted
  constructor
  · rintro ⟨t', ht', hpaid⟩
    rw [ht] at ht'
    cases ht'
    rw [hfee] at hpaid
    exact Except.ok.inj hpaid
  · intro heq
    exact ⟨t, ht, heq ▸ hfee⟩

theorem leftInDrawer_eq {ps : List Taking} (h : ∀ p ∈ ps, p.Booked) :
    leftInDrawer ps = (ps.map (·.result.fee)).sum := by
  refine congrArg List.sum (List.map_congr_left fun p hp => ?_)
  rw [(h p hp).change]
  omega

/-- The counted rows add up to what was handed over. -/
theorem DayInv.collected (h : DayInv d o ls w) :
    ((drawerRows d o w.db).map (·.paidAmount.getD 0)).sum =
      ((takings d o ls).map fun p => (p.payment.paidAmount : Int)).sum := by
  rw [(h.rows.map fun t => t.paidAmount.getD 0).sum_eq, List.map_map]
  refine congrArg List.sum (List.map_congr_left fun p hp => ?_)
  simp [(h.booked p hp).paid]

/-- The rows of the payments are the counted ones. -/
theorem DayInv.paidRows (h : DayInv d o ls w) :
    (w.db.parking.filter fun t => t.id ∈ (takings d o ls).map (·.result.transaction.id)) =
      drawerRows d o w.db := by
  obtain ⟨ks, hks⟩ := h.ledger
  refine List.filter_congr fun t ht => ?_
  have hmem : ∀ u, u ∈ drawerRows d o w.db ↔
      u ∈ (takings d o ls).map (·.result.transaction) := fun u => h.rows.mem_iff
  rw [Bool.eq_iff_iff, decide_eq_true_eq]
  constructor
  · intro hid
    obtain ⟨p, hp, hpid⟩ := List.mem_map.mp hid
    obtain ⟨hrow, hcounted⟩ := List.mem_filter.mp
      ((hmem p.result.transaction).mpr (List.mem_map_of_mem hp))
    rwa [Db.eq_of_id hks.ids hrow ht hpid] at hcounted
  · intro hcounted
    obtain ⟨p, hp, rfl⟩ := List.mem_map.mp ((hmem t).mp (List.mem_filter.mpr ⟨ht, hcounted⟩))
    exact List.mem_map_of_mem hp

theorem DayInv.revenue (h : DayInv d o ls w) :
    (totals (drawerRows d o w.db)).cashRevenue = ((takings d o ls).map (·.result.fee)).sum := by
  have hrow : ∀ p ∈ takings d o ls, (if p.result.transaction.paymentMethod = some .cash then
      p.result.transaction.fee else some 0).getD 0 = p.result.fee := by
    intro p hp
    rw [(h.booked p hp).method, if_pos rfl, (h.booked p hp).fee]
    rfl
  show methodRevenue .cash (drawerRows d o w.db) = _
  rw [methodRevenue, sumOrZero_eq, ((h.rows.map _).map _).sum_eq, List.map_map, List.map_map]
  exact congrArg List.sum (List.map_congr_left hrow)

/-- The books agree exactly when every payment of the day was made with the exact amount. -/
theorem drawer_reconciles (hw : Opening w) (h : Path DayStep w xs) :
    let w' := finish w xs
    let ps := takings (z.midnight (z.date w'.now)) o (xs.map Prod.fst)
    ∃ s, ((getShiftSummary z name (some o)).exec w').1 = .ok s ∧
      (Reconciled s ps w'.db ↔ ∀ p ∈ ps, Exact p.before p.payment) := by
  intro w' ps
  have hday := dayInv_path (d := z.midnight (z.date w'.now)) (o := o) hw h
  have hspec := getShiftSummary_spec z name o w'
  rcases hrun : (getShiftSummary z name (some o)).run execOp { world := w' } with ⟨e | s, c'⟩
  · exact (hspec.of_error hrun).elim
  refine ⟨s, by rw [Api.exec, hrun], ?_⟩
  have hcollected : s.cashCollected = (ps.map fun p => (p.payment.paidAmount : Int)).sum :=
    (hspec.of_ok hrun).trans hday.collected
  have hleft : leftInDrawer ps = (ps.map (·.result.fee)).sum := leftInDrawer_eq hday.booked
  have hrevenue : (totals (w'.db.parking.filter fun t =>
      t.id ∈ ps.map (·.result.transaction.id))).cashRevenue = (ps.map (·.result.fee)).sum := by
    rw [hday.paidRows, hday.revenue]
  rw [Reconciled, hrevenue, hleft, hcollected,
    sum_eq_iff_of_le fun p hp => (hday.booked p hp).fee_le]
  simp only [and_true]
  exact forall₂_congr fun p hp => (hday.booked p hp).exact_iff.symm

end Reconciliation

section Overpaid

def cashFor (paidAmount : ℕ) : CashPayment where
  gateId := "OUT1"
  gateOutId := 2
  barcode := some "T1001"
  paidAmount := paidAmount
  operatorId := some 1

def arrival : Call :=
  .entry { barcode := some "T1001", vehicleTypeId := some 1, gateInId := some 1 }

def later (w : World) (now : Int) : World := { w with now }

theorem later_step (w : World) (now : Int) : DayStep w none (later w now) :=
  .outside rfl le_rfl le_rfl

/-- One attempt to pay. -/
def paying (w : World) (a : CashPayment) : List (Option Taking × World) :=
  match (processCashPayment a).exec w with
  | (.ok r, w') => [(some ⟨w, a, r⟩, w')]
  | (.error _, _) => []

theorem paying_path (w : World) (a : CashPayment) : Path DayStep w (paying w a) := by
  unfold paying
  split
  · exact ⟨.taken ‹_›, trivial⟩
  · trivial

/-- A call, and some time later an attempt to pay. -/
def callThenPay (w : World) (k : Call) (now : Int) (a : CashPayment) :
    List (Option Taking × World) :=
  (none, k.after w) :: (none, later (k.after w) now) :: paying (later (k.after w) now) a

theorem callThenPay_path (w : World) {k : Call} (hk : ∀ a, k ≠ .cash a) (now : Int)
    (a : CashPayment) : Path DayStep w (callThenPay w k now a) :=
  ⟨.other k hk, later_step _ _, paying_path _ _⟩

/-- A car enters and asks to leave two hours later. -/
def carDay (paidAmount : ℕ) : List (Option Taking × World) :=
  callThenPay booth arrival (2 * DateTime.microsPerHour) (cashFor paidAmount)

theorem carDay_path (paidAmount : ℕ) : Path DayStep booth (carDay paidAmount) :=
  callThenPay_path booth (fun _ h => by cases h) _ _

/-- The day of the car, with the clocks of the site at UTC. -/
def carTakings (paidAmount : ℕ) : List Taking :=
  let z := Zone.fixed 0
  takings (z.midnight (z.date (finish booth (carDay paidAmount)).now)) 1
    ((carDay paidAmount).map Prod.fst)

def carSummary (paidAmount : ℕ) : Except Exc ShiftSummary :=
  ((getShiftSummary (Zone.fixed 0) (fun _ => "Pagi") (some 1)).exec
    (finish booth (carDay paidAmount))).1

/-- A fee of 6,000 paid with a note of 10,000. -/
theorem change_counted_as_collected :
    ∃ s, carSummary 10000 = .ok s ∧ s.cashCollected = 10000 ∧
      leftInDrawer (carTakings 10000) = 6000 ∧
      ¬ Reconciled s (carTakings 10000) (finish booth (carDay 10000)).db := by
  have hcollected : (carSummary 10000).toOption.map (·.cashCollected) = some 10000 := by decide
  have hleft : leftInDrawer (carTakings 10000) = 6000 := by decide
  rcases hs : carSummary 10000 with e | s
  · rw [hs] at hcollected
    cases hcollected
  · rw [hs] at hcollected
    have hs' : s.cashCollected = 10000 := Option.some.inj hcollected
    refine ⟨s, rfl, hs', hleft, fun h => ?_⟩
    rw [Reconciled, hs', hleft] at h
    exact absurd h.1 (by decide)

theorem drawer_reconciles_exact :
    ∃ s, carSummary 6000 = .ok s ∧
      Reconciled s (carTakings 6000) (finish booth (carDay 6000)).db := by
  have hopening : Opening booth := ⟨rfl, rfl, by decide⟩
  have hfees : (carTakings 6000).map (fun p => (p.result.fee, (p.payment.paidAmount : Int))) =
      [(6000, 6000)] := by decide
  have hexact : ∀ p ∈ carTakings 6000, p.result.fee = p.payment.paidAmount := by
    intro p hp
    have hmem := List.mem_map_of_mem (f := fun p : Taking =>
      (p.result.fee, (p.payment.paidAmount : Int))) hp
    rw [hfees, List.mem_singleton, Prod.mk.injEq] at hmem
    exact hmem.1.trans hmem.2.symm
  have hbooks : ∃ s, carSummary 6000 = .ok s ∧
      (Reconciled s (carTakings 6000) (finish booth (carDay 6000)).db ↔
        ∀ p ∈ carTakings 6000, Exact p.before p.payment) :=
    drawer_reconciles hopening (carDay_path 6000)
  obtain ⟨s, hs, hiff⟩ := hbooks
  refine ⟨s, hs, hiff.mpr fun p hp => ?_⟩
  exact ((dayInv_path hopening (carDay_path 6000)).booked p hp).exact_iff.mpr (hexact p hp)

end Overpaid

end ParkIt.Drawer
