import ParkIt.Correlation
import ParkIt.Quotes
import Mathlib.Data.List.Induction

/-! The life of an armed deduct: the results that come at its gate, until one of them ends it. -/
namespace ParkIt

open Effects Api Transition

/-- How far an armed deduct is. -/
inductive ArmStage where
  | armed
  | paid (a : EmoneyResult)
  | released
deriving DecidableEq, Repr

/-- What a stored result does to it. -/
def ArmStage.next : ArmStage → EmoneyResult → ArmStage
  | .armed, a =>
    if a.status.isSuccess then .paid a
    else if a.status = .lostContact then .armed else .released
  | .paid b, _ => .paid b
  | .released, _ => .released

def armStage (as : List EmoneyResult) : ArmStage := as.foldl ArmStage.next .armed

section Stage
variable {s : ArmStage} {a : EmoneyResult} {as bs : List EmoneyResult}

theorem armStage_append : armStage (as ++ [a]) = (armStage as).next a := by
  simp [armStage]

theorem next_armed_iff : s.next a = .armed ↔ s = .armed ∧ a.status = .lostContact := by
  cases s with
  | armed =>
    by_cases hs : a.status.isSuccess = true
    · have hl : a.status ≠ .lostContact := ne_lostContact hs
      simp [ArmStage.next, hs, hl]
    · simp [ArmStage.next, hs]
  | paid b => simp [ArmStage.next]
  | released => simp [ArmStage.next]

/-- A deduct is armed for as long as only lost contacts have been stored. -/
theorem armStage_armed_iff : armStage as = .armed ↔ ∀ a ∈ as, a.status = .lostContact := by
  induction as using List.reverseRecOn with
  | nil => simp [armStage]
  | append_singleton as a ih =>
    rw [armStage_append, next_armed_iff, ih]
    simp only [List.mem_append, List.mem_singleton]
    constructor
    · rintro ⟨has, ha⟩ b (hb | rfl)
      · exact has b hb
      · exact ha
    · intro h
      exact ⟨fun b hb => h b (Or.inl hb), h a (Or.inr rfl)⟩

/-- The first other result decides how the deduct ends. -/
theorem armStage_first (has : ∀ b ∈ as, b.status = .lostContact) (ha : a.status ≠ .lostContact) :
    armStage (as ++ [a]) = if a.status.isSuccess then .paid a else .released := by
  rw [armStage_append, armStage_armed_iff.mpr has]
  simp [ArmStage.next, ha]

end Stage

/-- A call of `process_emoney_result` and what came of it. -/
structure Report where
  result : EmoneyResult
  answer : Except Exc EmoneyOutcome

def reportOf (a : EmoneyResult) (w : World) : Report := ⟨a, ((processEmoneyResult a).exec w).1⟩

def Report.Raised (x : Report) : Prop := ∃ e, x.answer = .error e

/-- The result, unless its call raised. -/
def Report.stored (x : Report) : Option EmoneyResult :=
  match x.answer with
  | .ok _ => some x.result
  | .error _ => none

def storedOf (ls : List (Option Report)) : List EmoneyResult :=
  ls.filterMap fun l => l.bind Report.stored

/-- A result for the gate within the lifetime of its pending key, or anything that leaves the
database and that key alone: time passes, Redis comes and goes, other sessions take locks. -/
inductive ReportStep (g : String) (deadline : Int) : World → Option Report → World → Prop
  | report {w : World} (a : EmoneyResult) : a.gateId = g → w.now < deadline →
      ReportStep g deadline w (some (reportOf a w)) ((Call.result a).after w)
  | outside {w w' : World} : w'.db = w.db → w'.pending g = w.pending g →
      ReportStep g deadline w none w'

section Calls
variable {a : EmoneyResult} {w w' : World}

theorem after_result_ok {o : EmoneyOutcome} (h : (processEmoneyResult a).exec w = (.ok o, w')) :
    (Call.result a).after w = w' := by
  unfold Call.after Call.handler
  unfold Api.exec at h ⊢
  dsimp only
  rw [Prog.run_bind]
  rcases hr : (processEmoneyResult a).run execOp { world := w } with ⟨e | o', c'⟩ <;> rw [hr] at h <;>
    cases h
  rfl

theorem after_result_error {e : Exc} (h : (processEmoneyResult a).exec w = (.error e, w')) :
    ((Call.result a).after w).db = w.db ∧ ((Call.result a).after w).pending = w'.pending := by
  have hspec := processEmoneyResult_spec (c := { world := w }) a
  unfold Prog.Ensures at hspec
  unfold Call.after Call.handler
  unfold Api.exec at h ⊢
  dsimp only
  rw [Prog.run_bind]
  rcases hr : (processEmoneyResult a).run execOp { world := w } with ⟨e' | o, c'⟩ <;>
    rw [hr] at h hspec <;> cases h
  cases e with
  | value msg => exact ⟨hspec.1, rfl⟩
  | db _ | redis | http _ => exact ⟨rfl, rfl⟩

/-- Nothing is pending: the result raises and the database stays as it is. -/
theorem result_unarmed (h : w.pending a.gateId = none) :
    (reportOf a w).Raised ∧ ((Call.result a).after w).db = w.db ∧
      ((Call.result a).after w).pending a.gateId = none := by
  have hspec := (processEmoneyResult_spec (c := { world := w }) a).and
    (passive_kept (passive_result a) { world := w })
  rcases hr : (processEmoneyResult a).exec w with ⟨e | o, w'⟩
  · obtain ⟨c', ⟨-, hkept⟩, rfl⟩ := exec_error hspec hr
    obtain ⟨hdb, hpending⟩ := after_result_error hr
    refine ⟨⟨e, by rw [reportOf, hr]⟩, hdb, ?_⟩
    rw [hpending]
    rcases hkept a.gateId with hk | hk
    · exact hk.trans h
    · exact hk
  · obtain ⟨c', ⟨⟨p, t, hlive, -⟩, -⟩, -⟩ := exec_ok hspec hr
    rw [h] at hlive
    cases hlive

end Calls

section Others
variable {db db' db'' : Db} {i : Id}

/-- The reference tables and the other parking rows are the same. -/
structure SameButRow (i : Id) (db db' : Db) : Prop where
  reference : db'.reference = db.reference
  others : ∀ s : ParkingTransaction, s.id ≠ i → (s ∈ db'.parking ↔ s ∈ db.parking)

theorem SameButRow.refl : SameButRow i db db := ⟨rfl, fun _ _ => Iff.rfl⟩

theorem SameButRow.trans (h : SameButRow i db db') (h' : SameButRow i db' db'') :
    SameButRow i db db'' :=
  ⟨h'.reference.trans h.reference, fun s hs => (h'.others s hs).trans (h.others s hs)⟩

theorem sameButRow_setTx {u : TxUpdate} : SameButRow i db (db.setTx i u) := by
  refine ⟨rfl, fun s hs => ?_⟩
  rw [Db.mem_setTx]
  constructor
  · rintro ⟨q, hq, rfl⟩
    by_cases hid : q.id = i
    · rw [if_pos hid] at hs
      exact absurd ((TxUpdate.apply_id _ _).trans hid) hs
    · rw [if_neg hid]
      exact hq
  · intro hmem
    exact ⟨s, hmem, if_neg hs⟩

theorem sameButRow_setCard {card : String} : SameButRow i db (db.setCard i card) := by
  unfold Db.setCard
  split
  · exact .refl
  · exact sameButRow_setTx

end Others

/-- The stay and its arm, as the stage has them. -/
def ArmStage.Shows (g : String) (deadline : Int) (p : Pending) (t : ParkingTransaction)
    (w : World) : ArmStage → Prop
  | .armed => t.status = .active ∧ w.pending g = some (p, deadline)
  | .paid a => t.status = .completed ∧ t.gateOutId = some (orInt p.gateOutId a.gateOutId) ∧
      t.paymentMethod = some .emoney ∧ t.fee = some (a.deductAmount : Int) ∧ w.pending g = none
  | .released => t.status = .active ∧ w.pending g = none

/-- What the result leaves in `emoney_transactions`. -/
def EmoneyTransaction.Reports (e : EmoneyTransaction) (i : Id) (a : EmoneyResult) : Prop :=
  e.parkingTransactionId = some i ∧ e.cardNumber = a.cardNumber ∧ e.status = a.status ∧
    e.amountDeducted = a.deductAmount

/-- The world after the results `as` have been stored for a deduct armed in `db₀`. -/
structure Lives (g : String) (deadline : Int) (p : Pending) (barcode : Option String) (db₀ : Db)
    (as : List EmoneyResult) (w : World) : Prop where
  constrained : w.db.Constrained
  same : SameButRow p.transactionId db₀ w.db
  emoney : ∃ es, w.db.emoney = db₀.emoney ++ es ∧
    List.Forall₂ (fun e a => EmoneyTransaction.Reports e p.transactionId a) es as
  /-- Every result was stored while the deduct was armed. -/
  before : armStage as.dropLast = .armed
  row : ∃ t, w.db.findTx p.transactionId = some t ∧ t.barcode = barcode ∧
    (armStage as).Shows g deadline p t w

section Step
variable {g : String} {deadline : Int} {p : Pending} {barcode : Option String} {db₀ : Db}
  {as : List EmoneyResult} {a : EmoneyResult} {w w' : World}

theorem Lives.same_world (h : Lives g deadline p barcode db₀ as w) (hdb : w'.db = w.db)
    (hpending : w'.pending g = w.pending g) : Lives g deadline p barcode db₀ as w' := by
  obtain ⟨t, ht, hb, hshows⟩ := h.row
  refine ⟨by rw [hdb]; exact h.constrained, by rw [hdb]; exact h.same,
    by rw [hdb]; exact h.emoney, h.before, t, by rw [hdb]; exact ht, hb, ?_⟩
  cases hs : armStage as <;> rw [hs] at hshows <;> unfold ArmStage.Shows at * <;>
    rw [hpending] <;> exact hshows

/-- The row that a stored result leaves, at the next stage. -/
theorem shows_stored {t : ParkingTransaction} {e : EmoneyTransaction} (hg : a.gateId = g)
    (ht : w.db.findTx p.transactionId = some t) (ha : t.status = .active)
    (hp : w.pending g = some (p, deadline)) (hstored : a.Stored w.db p t e w'.db)
    (hafter : w'.pending = a.pendingAfter w.pending) :
    ∃ t', w'.db.findTx p.transactionId = some t' ∧ t'.barcode = t.barcode ∧
      (ArmStage.next .armed a).Shows g deadline p t' w' := by
  have hid := findTx_id ht
  have hcard : (w.db.setCard p.transactionId a.cardNumber).findTx p.transactionId =
      some (t.setCard a.cardNumber) := by
    rw [findTx_setCard, ht, Option.map_some]
  have hbarcode : (t.setCard a.cardNumber).barcode = t.barcode := by
    unfold ParkingTransaction.setCard
    split <;> rfl
  unfold EmoneyResult.Stored at hstored
  rw [hid] at hstored
  unfold EmoneyResult.pendingAfter at hafter
  by_cases hs : a.status.isSuccess = true
  · have hl : a.status ≠ .lostContact := ne_lostContact hs
    simp only [if_pos hs] at hstored
    rw [if_neg hl, hg] at hafter
    obtain ⟨now, shiftId, hdb⟩ := hstored
    refine ⟨(TxUpdate.exit now (a.exit p e.id shiftId)).apply (t.setCard a.cardNumber), ?_,
      hbarcode, ?_⟩
    · rw [hdb, findTx_setTx]
      exact congrArg (Option.map _) hcard
    · simp only [ArmStage.next, if_pos hs, ArmStage.Shows]
      exact ⟨rfl, rfl, rfl, rfl, by rw [hafter]; exact if_pos rfl⟩
  · simp only [if_neg hs] at hstored
    refine ⟨t.setCard a.cardNumber, by rw [hstored]; exact hcard, hbarcode, ?_⟩
    by_cases hl : a.status = .lostContact
    · rw [if_pos hl] at hafter
      simp only [ArmStage.next, if_neg hs, if_pos hl, ArmStage.Shows]
      exact ⟨by rw [setCard_status, ha], by rw [hafter]; exact hp⟩
    · rw [if_neg hl, hg] at hafter
      simp only [ArmStage.next, if_neg hs, if_neg hl, ArmStage.Shows]
      exact ⟨by rw [setCard_status, ha], by rw [hafter]; exact if_pos rfl⟩

theorem Lives.armed (h : Lives g deadline p barcode db₀ as w) (hs : armStage as = .armed) :
    ∃ t, w.db.findTx p.transactionId = some t ∧ t.barcode = barcode ∧ t.status = .active ∧
      w.pending g = some (p, deadline) := by
  obtain ⟨t, ht, hb, hshows⟩ := h.row
  rw [hs] at hshows
  exact ⟨t, ht, hb, hshows.1, hshows.2⟩

theorem Lives.disarmed (h : Lives g deadline p barcode db₀ as w) (hs : armStage as ≠ .armed) :
    w.pending g = none := by
  obtain ⟨t, -, -, hshows⟩ := h.row
  cases hstage : armStage as with
  | armed => exact absurd hstage hs
  | paid b =>
    rw [hstage] at hshows
    exact hshows.2.2.2.2
  | released =>
    rw [hstage] at hshows
    exact hshows.2

theorem live_of_pending (hp : w.pending g = some (p, deadline)) (hnow : w.now < deadline) :
    w.live (w.pending g) = some p := by
  rw [hp]
  exact if_pos hnow

theorem sameButRow_stored {t : ParkingTransaction} {e : EmoneyTransaction} {db db' : Db}
    (h : a.Stored db p t e db') : SameButRow t.id db db' ∧ db'.emoney = db.emoney ++ [e] := by
  have hcard : SameButRow t.id db (db.setCard t.id a.cardNumber) := sameButRow_setCard
  have hsame : SameButRow t.id db ((db.setCard t.id a.cardNumber).addEmoney e) :=
    hcard.trans ⟨rfl, fun _ _ => Iff.rfl⟩
  have hrows : ((db.setCard t.id a.cardNumber).addEmoney e).emoney = db.emoney ++ [e] := by
    unfold Db.setCard
    split <;> rfl
  unfold EmoneyResult.Stored at h
  by_cases hs : a.status.isSuccess = true
  · simp only [if_pos hs] at h
    obtain ⟨now, shiftId, rfl⟩ := h
    exact ⟨hsame.trans sameButRow_setTx, hrows⟩
  · simp only [if_neg hs] at h
    rw [h]
    exact ⟨hsame, hrows⟩

/-- A result that is stored while the deduct is armed takes it to its next stage. -/
theorem Lives.step_stored {o : EmoneyOutcome} (h : Lives g deadline p barcode db₀ as w)
    (hs : armStage as = .armed) (hg : a.gateId = g) (hnow : w.now < deadline)
    (hrun : (processEmoneyResult a).exec w = (.ok o, w')) :
    Lives g deadline p barcode db₀ (as ++ [a]) w' := by
  obtain ⟨t, ht, hb, ha, hp⟩ := h.armed hs
  have hlive := live_of_pending hp hnow
  have hkeep := constrained_exec (only_result covers_noArrival a trivial trivial trivial
    fun _ => trivial) h.constrained
  rw [hrun] at hkeep
  obtain ⟨c', hspec, rfl⟩ := exec_ok (processEmoneyResult_spec (c := { world := w }) a) hrun
  obtain ⟨q, s, hq, hrow, -, -, -, hstored, hafter, -⟩ := hspec
  rw [hg] at hq
  obtain rfl : q = p := Option.some.inj (hq.symm.trans hlive)
  rw [byId_eq_findTx] at hrow
  obtain rfl : s = t := Option.some.inj (hrow.symm.trans ht)
  obtain ⟨hsame, hemoney⟩ := sameButRow_stored hstored
  have hid := findTx_id ht
  rw [hid] at hsame hemoney
  obtain ⟨t', ht', hb', hshows⟩ := shows_stored hg ht ha hp hstored hafter
  obtain ⟨es, hes, hreports⟩ := h.emoney
  refine ⟨hkeep, h.same.trans hsame, ⟨es ++ [_], by rw [hemoney, hes, List.append_assoc], ?_⟩, ?_,
    t', ht', hb'.trans hb, ?_⟩
  · refine List.rel_append hreports (.cons ⟨rfl, rfl, rfl, rfl⟩ .nil)
  · rw [List.dropLast_concat]
    exact hs
  · rw [armStage_append, hs]
    exact hshows

/-- A result that raises while the deduct is armed leaves it armed. -/
theorem Lives.raised_same (h : Lives g deadline p barcode db₀ as w) (hs : armStage as = .armed)
    (hg : a.gateId = g) (hnow : w.now < deadline) (hraised : (reportOf a w).Raised) :
    ((Call.result a).after w).db = w.db ∧ ((Call.result a).after w).pending g = w.pending g := by
  obtain ⟨t, ht, -, ha, hp⟩ := h.armed hs
  have hlive := live_of_pending hp hnow
  rw [← hg] at hlive
  obtain ⟨e, he⟩ := hraised
  rcases hrun : (processEmoneyResult a).exec w with ⟨e' | o, w'⟩
  · obtain ⟨c', hsame, rfl⟩ := exec_error
      (processEmoneyResult_storable (c := { world := w }) hlive ht ha) hrun
    obtain ⟨hdb, hpending⟩ := after_result_error hrun
    exact ⟨hdb, congrFun (hpending.trans hsame) g⟩
  · rw [reportOf, hrun] at he
    cases he

theorem storedOf_append {ls : List (Option Report)} {l : Option Report} :
    storedOf (ls ++ [l]) = storedOf ls ++ (l.bind Report.stored).toList := by
  unfold storedOf
  rw [List.filterMap_append]
  cases hl : l.bind Report.stored <;> simp [hl]

theorem lives_step {ls : List (Option Report)} {l : Option Report}
    (hstep : ReportStep g deadline w l w') (h : Lives g deadline p barcode db₀ (storedOf ls) w) :
    Lives g deadline p barcode db₀ (storedOf (ls ++ [l])) w' := by
  rw [storedOf_append]
  cases hstep with
  | outside hdb hpending =>
    rw [Option.bind_none, Option.toList_none, List.append_nil]
    exact h.same_world hdb hpending
  | report a hg hnow =>
    rw [Option.bind_some]
    by_cases hs : armStage (storedOf ls) = .armed
    · rcases hrun : (processEmoneyResult a).exec w with ⟨e | o, w'⟩
      · have hstored : (reportOf a w).stored = none := by simp [Report.stored, reportOf, hrun]
        rw [hstored, Option.toList_none, List.append_nil]
        obtain ⟨hdb, hpending⟩ := h.raised_same hs hg hnow ⟨e, by rw [reportOf, hrun]⟩
        exact h.same_world hdb hpending
      · have hstored : (reportOf a w).stored = some a := by simp [Report.stored, reportOf, hrun]
        rw [hstored, Option.toList_some, after_result_ok hrun]
        exact h.step_stored hs hg hnow hrun
    · obtain ⟨⟨e, hraised⟩, hdb, hpending⟩ := result_unarmed (a := a) (hg ▸ h.disarmed hs)
      have hstored : (reportOf a w).stored = none := by simp [Report.stored, hraised]
      rw [hstored, Option.toList_none, List.append_nil]
      exact h.same_world hdb ((hg ▸ hpending).trans (h.disarmed hs).symm)

theorem lives_run {xs : List (Option Report × World)}
    (hrun : Path (ReportStep g deadline) w xs) (h : Lives g deadline p barcode db₀ [] w) :
    Lives g deadline p barcode db₀ (storedOf (xs.map Prod.fst)) (finish w xs) := by
  have hstart : Lives g deadline p barcode db₀ (storedOf []) w := h
  have hhistory := hrun.history (Q := fun ls w => Lives g deadline p barcode db₀ (storedOf ls) w)
    (fun ls s l t hstep hs => lives_step hstep hs) hstart
  simpa using hhistory

end Step

/-- A cash payment for the stay goes through, by its barcode, if it is of at least the fee. -/
def CashCompletes (w : World) (t : ParkingTransaction) (barcode : String) : Prop :=
  ∀ (a : CashPayment) (fee : Int), a.barcode = some barcode →
    refOk (w.db.vehicleTypes.map (·.id)) a.vehicleTypeId = true →
    quote w.db.vehicleTypes (.utc w.now) (t.retype a.vehicleTypeId) = .ok fee → a.Fits w.db fee →
    ∃ r w', (processCashPayment a).exec w = (.ok r, w') ∧ r.fee = fee ∧
      ∃ s, w'.db.byId t.id = some s ∧ s.status = .completed ∧ s.paymentMethod = some .cash

theorem cashCompletes {w : World} {t : ParkingTransaction} {b : String} (hdb : w.db.Constrained)
    (ht : w.db.byId t.id = some t) (ha : t.status = .active) (hb : t.barcode = some b)
    (hne : b ≠ "") : CashCompletes w t b := by
  intro a fee hbarcode hv hfee hfits
  have hfind : w.db.findActive a.barcode a.cardNumber a.plateNumber = some t := by
    rw [hbarcode]
    exact hdb.findActive (Db.byId_mem ht).1 ha hb hne _ _
  have hok := processCashPayment_ok (c := { world := w }) rfl hdb hfind hv hfee hfits
  obtain ⟨r, c', hrun, hspec, -⟩ :=
    exec_total (((processCashPayment_spec a rfl).and hok).mono (fun _ _ h => h) fun _ _ h => h.2)
  obtain ⟨s, now, shiftId, hs, hquote, -, -, -, -, hstored⟩ := hspec
  obtain rfl : s = t := Option.some.inj (hs.symm.trans hfind)
  refine ⟨r, _, hrun, Except.ok.inj (hquote.symm.trans hfee),
    (TxUpdate.exit now (a.exit r.fee shiftId)).apply (s.retype a.vehicleTypeId), ?_, rfl, rfl⟩
  rw [hstored]
  exact byId_exit ht

theorem findActive_barcode_ne {db : Db} {b : String} {t : ParkingTransaction}
    (h : db.findActive (some b) none none = some t) : b ≠ "" := by
  rintro rfl
  cases h

section Arm
variable {w₀ w : World} {d : EmoneyDeduct} {r : PaymentResult}

/-- What an arm stores in Redis. -/
def PaymentResult.pending (r : PaymentResult) (d : EmoneyDeduct) : Pending where
  transactionId := r.transaction.id
  gateOutId := d.gateOutId
  fee := r.fee

theorem lives_armed (hdb : w₀.db.Constrained) (harm : (processEmoneyDeduct d).exec w₀ = (.ok r, w)) :
    Lives d.gateId (w.expiry emoneyPendingTtlSeconds) (r.pending d) (some d.barcode) w.db [] w ∧
      d.barcode ≠ "" := by
  have hkeep := constrained_exec (only_deduct covers_noArrival d fun _ => trivial) hdb
  rw [harm] at hkeep
  obtain ⟨c', ⟨hspec, hpending⟩, rfl⟩ := exec_ok
    ((processEmoneyDeduct_spec (c := { world := w₀ }) d rfl).and (processEmoneyDeduct_pending d)) harm
  obtain ⟨t, deadline, ht, hrt, -, hstored, -⟩ := hspec
  obtain ⟨hmem, ha⟩ := Db.findActive_mem ht
  have hrow : c'.world.db.findTx (r.pending d).transactionId = some (t.retype d.vehicleTypeId) := by
    have hid : (r.pending d).transactionId = t.id := by
      rw [PaymentResult.pending, hrt, retype_id]
    rw [hstored, hid, findTx_retype, hdb.findTx hmem, Option.map_some]
  have hbarcode : (t.retype d.vehicleTypeId).barcode = some d.barcode := by
    rw [← Db.findActive_barcode ht]
    cases d.vehicleTypeId <;> rfl
  refine ⟨⟨hkeep, .refl, ⟨[], by rw [List.append_nil], .nil⟩, rfl, _, hrow, hbarcode, ?_, hpending⟩,
    findActive_barcode_ne ht⟩
  rw [retype_status, ha]

end Arm

section Answers
variable {g : String} {deadline : Int} {p : Pending} {barcode : Option String} {db₀ : Db}
  {as : List EmoneyResult} {a : EmoneyResult} {w : World}

/-- While the deduct is armed, a result raises exactly when it cannot be stored. -/
theorem Lives.raised_iff (h : Lives g deadline p barcode db₀ as w) (hs : armStage as = .armed)
    (hg : a.gateId = g) (hnow : w.now < deadline)
    (hcard : ∀ s ∈ db₀.parking, s.id ≠ p.transactionId → s.status = .active →
      s.cardNumber ≠ some a.cardNumber) :
    (reportOf a w).Raised ↔ ¬ a.Storable w p p.transactionId := by
  obtain ⟨t, ht, -, ha, hp⟩ := h.armed hs
  have hid := findTx_id ht
  have hlive := live_of_pending hp hnow
  rw [← hg] at hlive
  rcases hrun : (processEmoneyResult a).exec w with ⟨e | o, w'⟩
  · refine ⟨fun _ hstorable => ?_, fun _ => ⟨e, by rw [reportOf, hrun]⟩⟩
    have hothers : a.cardNumber ≠ "" → ∀ s ∈ w.db.parking, s.id ≠ t.id → s.status = .active →
        s.cardNumber ≠ some a.cardNumber := by
      intro _ s hmem hne hactive
      rw [hid] at hne
      exact hcard s ((h.same.others s hne).mp hmem) hne hactive
    have hok := processEmoneyResult_ok (c := { world := w }) h.constrained.ids hlive ht ha
      (h.constrained.rows t (List.mem_of_find?_eq_some ht)) hothers (hid ▸ hstorable)
    obtain ⟨_, hfalse, -⟩ := exec_error hok hrun
    exact hfalse
  · obtain ⟨_, hstorable, -⟩ := exec_ok
      (processEmoneyResult_storable (c := { world := w }) hlive ht ha) hrun
    rw [hid] at hstorable
    refine ⟨?_, fun hnot => absurd hstorable hnot⟩
    rintro ⟨e, he⟩
    rw [reportOf, hrun] at he
    cases he

/-- The other stages are left by no result. -/
theorem Lives.ended (h : Lives g deadline p barcode db₀ as w) {pre post : List EmoneyResult}
    (heq : as = pre ++ a :: post) (ha : a.status ≠ .lostContact) : post = [] := by
  rcases List.eq_nil_or_concat post with hnil | ⟨post', b, rfl⟩
  · exact hnil
  · have hbefore := h.before
    rw [heq, List.concat_eq_append, ← List.cons_append, ← List.append_assoc,
      List.dropLast_concat] at hbefore
    have hlost := armStage_armed_iff.mp hbefore a (by simp)
    exact absurd hlost ha

end Answers

section Lifecycle
variable {w₀ w : World} {d : EmoneyDeduct} {r : PaymentResult} {xs : List (Option Report × World)}
  {g : String} {deadline : Int} {p : Pending} {b : String} {db₀ : Db} {as : List EmoneyResult}

/-- The results that have been stored decide what has become of the stay and of its arm. -/
def Concluded (g : String) (deadline : Int) (p : Pending) (barcode : String)
    (as : List EmoneyResult) (w : World) : Prop :=
  ((∀ a ∈ as, a.status = .lostContact) → ∃ t, w.db.byId p.transactionId = some t ∧
    t.status = .active ∧ w.pending g = some (p, deadline)) ∧
  ∀ pre a post, as = pre ++ a :: post → (∀ b ∈ pre, b.status = .lostContact) →
    a.status ≠ .lostContact →
    post = [] ∧ w.pending g = none ∧ ∃ t, w.db.byId p.transactionId = some t ∧
      (a.status.isSuccess = true → t.status = .completed ∧ t.paymentMethod = some .emoney ∧
        t.fee = some (a.deductAmount : Int) ∧
        t.gateOutId = some (orInt p.gateOutId a.gateOutId)) ∧
      (a.status.isSuccess = false → t.status = .active ∧ CashCompletes w t barcode)

theorem Lives.concluded (h : Lives g deadline p (some b) db₀ as w) (hb : b ≠ "") :
    Concluded g deadline p b as w := by
  constructor
  · intro hlost
    obtain ⟨t, ht, -, ha, hp⟩ := h.armed (armStage_armed_iff.mpr hlost)
    exact ⟨t, (byId_eq_findTx _ _).trans ht, ha, hp⟩
  · intro pre a post heq hpre ha
    obtain rfl := h.ended heq ha
    obtain ⟨t, ht, hbarcode, hshows⟩ := h.row
    rw [heq, armStage_first hpre ha] at hshows
    have hrow : w.db.byId p.transactionId = some t := (byId_eq_findTx _ _).trans ht
    by_cases hs : a.status.isSuccess = true
    · rw [if_pos hs] at hshows
      obtain ⟨hdone, hgate, hmethod, hfee, hp⟩ := hshows
      exact ⟨rfl, hp, t, hrow, fun _ => ⟨hdone, hmethod, hfee, hgate⟩,
        fun hnot => absurd (hs.symm.trans hnot) (by decide)⟩
    · rw [if_neg hs] at hshows
      obtain ⟨hactive, hp⟩ := hshows
      refine ⟨rfl, hp, t, hrow, fun hyes => absurd hyes hs, fun _ => ⟨hactive, ?_⟩⟩
      have hid := findTx_id ht
      exact cashCompletes h.constrained (hid ▸ hrow) hactive hbarcode hb

/-- An armed deduct through any results for its gate: a lost contact keeps it, the first other
result that can be stored ends it, and after that every result raises. -/
theorem arm_lifecycle (hdb : w₀.db.Constrained) (harm : (processEmoneyDeduct d).exec w₀ = (.ok r, w))
    (hrun : Path (ReportStep d.gateId (w.expiry emoneyPendingTtlSeconds)) w xs)
    (hcards : ∀ x, some x ∈ xs.map Prod.fst → ∀ s ∈ w.db.parking, s.id ≠ r.transaction.id →
      s.status = .active → s.cardNumber ≠ some x.result.cardNumber) :
    SameButRow r.transaction.id w.db (finish w xs).db ∧
    (finish w xs).db.emoney.length = w.db.emoney.length + (storedOf (xs.map Prod.fst)).length ∧
    Concluded d.gateId (w.expiry emoneyPendingTtlSeconds) (r.pending d) d.barcode
      (storedOf (xs.map Prod.fst)) (finish w xs) ∧
    ∀ pre x v post, xs = pre ++ (some x, v) :: post →
      ((∀ a ∈ storedOf (pre.map Prod.fst), a.status = .lostContact) →
        (x.Raised ↔ ¬ x.result.Storable (finish w pre) (r.pending d) r.transaction.id) ∧
        (x.Raised → v.db = (finish w pre).db ∧
          v.pending d.gateId = (finish w pre).pending d.gateId)) ∧
      ((∃ a ∈ storedOf (pre.map Prod.fst), a.status ≠ .lostContact) →
        x.Raised ∧ v.db = (finish w pre).db) := by
  obtain ⟨hstart, hb⟩ := lives_armed hdb harm
  have hend := lives_run hrun hstart
  refine ⟨hend.same, ?_, hend.concluded hb, ?_⟩
  · obtain ⟨es, hes, hreports⟩ := hend.emoney
    rw [hes, List.length_append, hreports.length_eq]
  · rintro pre x v post rfl
    obtain ⟨hpre, hstep, -⟩ := path_append.mp hrun
    have hlives := lives_run hpre hstart
    have hcard := hcards x (by simp)
    cases hstep with
    | report a hg hnow =>
      constructor
      · intro hlost
        have hs := armStage_armed_iff.mpr hlost
        exact ⟨hlives.raised_iff hs hg hnow hcard, hlives.raised_same hs hg hnow⟩
      · rintro ⟨b, hmem, hb⟩
        have hs : armStage (storedOf (pre.map Prod.fst)) ≠ .armed := fun hs =>
          hb (armStage_armed_iff.mp hs b hmem)
        obtain ⟨hraised, hsame, -⟩ := result_unarmed (a := a) (hg ▸ hlives.disarmed hs)
        exact ⟨hraised, hsame⟩

end Lifecycle

section Taps

def armAt (gateOutId : Id) : EmoneyDeduct := { gateId := "OUT1", gateOutId, barcode := "T1001" }

def armedAt (gateOutId : Id) : World := ((processEmoneyDeduct (armAt gateOutId)).exec waitingCar).2

def tapOf (status : DeductStatus) (deductAmount : Nat) : EmoneyResult where
  gateId := "OUT1"
  gateOutId := 2
  cardNumber := "6013500100"
  status := status
  deductAmount := deductAmount
  balanceBefore := 9000
  balanceAfter := 3000
  transactionCounter := 5
  rawResponseHex := ""

/-- The results one after the other, each with the world that it leaves. -/
def reports : World → List EmoneyResult → List (Option Report × World)
  | _, [] => []
  | w, a :: as =>
    (some (reportOf a w), (Call.result a).after w) :: reports ((Call.result a).after w) as

/-- A tap that loses contact, one without enough balance, and a success that comes late. -/
def taps : List (Option Report × World) :=
  reports (armedAt 2) [tapOf .lostContact 0, tapOf .insufficientBalance 0, tapOf .success 6000]

/-- A success whose amount is out of its column's range leaves the stay ACTIVE and armed; a deduct
that was armed for gate 0 is completed at the gate of the result. -/
theorem success_not_stored :
    (reportOf (tapOf .success 2147483648) (armedAt 2)).Raised ∧
    (let w := (Call.result (tapOf .success 2147483648)).after (armedAt 2)
     w.db.parking.map (·.status) = [.active] ∧
       w.live (w.pending "OUT1") =
         some { transactionId := 1, gateOutId := 2, fee := 6000 }) ∧
    (let w := (Call.result (tapOf .success 6000)).after (armedAt 0)
     w.db.parking.map (fun t => (t.status, t.gateOutId)) = [(.completed, some 2)]) :=
  ⟨⟨.db .integrity, rfl⟩, ⟨rfl, rfl⟩, rfl⟩

theorem arm_lifecycle_taps :
    storedOf (taps.map Prod.fst) = [tapOf .lostContact 0, tapOf .insufficientBalance 0] ∧
    ∃ t, (finish (armedAt 2) taps).db.byId 1 = some t ∧ t.status = .active ∧
      CashCompletes (finish (armedAt 2) taps) t "T1001" := by
  have hstored : storedOf (taps.map Prod.fst) =
      [tapOf .lostContact 0, tapOf .insufficientBalance 0] := rfl
  have hdb : waitingCar.db.Constrained := ⟨by decide, by decide⟩
  have hrun : Path (ReportStep "OUT1" ((armedAt 2).expiry emoneyPendingTtlSeconds)) (armedAt 2)
      taps := ⟨.report _ rfl (by decide), .report _ rfl (by decide), .report _ rfl (by decide),
        trivial⟩
  have honly : ∀ s ∈ (armedAt 2).db.parking, s.id = 1 := by decide
  obtain ⟨r, harm, hid⟩ : ∃ r, (processEmoneyDeduct (armAt 2)).exec waitingCar =
      (.ok r, armedAt 2) ∧ r.transaction.id = 1 := ⟨_, rfl, rfl⟩
  obtain ⟨-, -, ⟨-, hother⟩, -⟩ := arm_lifecycle hdb harm hrun fun x _ s hs hne =>
    absurd ((honly s hs).trans hid.symm) hne
  obtain ⟨-, -, t, ht, -, hfailed⟩ := hother [tapOf .lostContact 0] (tapOf .insufficientBalance 0) []
    hstored (by decide) (by decide)
  rw [show (r.pending (armAt 2)).transactionId = 1 from hid] at ht
  exact ⟨hstored, t, ht, hfailed rfl⟩

end Taps
end ParkIt
