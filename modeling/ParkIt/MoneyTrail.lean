import ParkIt.Ledger
import ParkIt.Booth.Server
import ParkIt.Settlement.Run

/-! The way of a deducted amount from the reader's answer to the settlement file. -/
namespace ParkIt

open Effects Api ByteString Passti Booth Transition

/-- Reader answers that the bridge has posted and the API has not yet received. -/
structure Trail where
  desk : Settlement.State
  inFlight : List (DeductMessage × Bytes) := []

abbrev Trail.emoney (s : Trail) : List EmoneyTransaction := s.desk.world.db.emoney

inductive TrailEvent where
  | deduct (m : DeductMessage) (raw : Bytes)
  | deliver (m : DeductMessage) (raw : Bytes)
  | call (k : Call)
  | settle (ctx : Settlement.Ctx)
  | outside

/-- The request that the bridge makes of the bytes that the port returned for a deduct. -/
def posted (m : DeductMessage) (raw : Bytes) : Option EmoneyResultRequest :=
  match deductReply m raw with
  | .ok (.result p) => boothResult p
  | _ => none

def Trail.setWorld (s : Trail) (w : World) : Trail := { s with desk.world := w }

/-- Bridge deducts, deliveries, other calls, settlement runs, and what else may go on. -/
inductive TrailStep (sha256 : String → String) : Trail → TrailEvent → Trail → Prop
  | deduct {s : Trail} (m : DeductMessage) (raw : Bytes) :
      TrailStep sha256 s (.deduct m raw) { s with inFlight := s.inFlight ++ [(m, raw)] }
  | deliver {s : Trail} {m : DeductMessage} {raw : Bytes} {r : EmoneyResultRequest} :
      (m, raw) ∈ s.inFlight → posted m raw = some r →
      TrailStep sha256 s (.deliver m raw)
        { s.setWorld (withDb (emoneyBoothResult r) s.desk.world).2 with
          inFlight := s.inFlight.erase (m, raw) }
  | call {s : Trail} (k : Call) :
      TrailStep sha256 s (.call k) (s.setWorld (k.after s.desk.world))
  | settle {s : Trail} (ctx : Settlement.Ctx) :
      TrailStep sha256 s (.settle ctx) { s with desk := (Settlement.generate sha256 ctx s.desk).2 }
  /-- Time, configuration and Redis may change, and a post may get lost. -/
  | outside {s t : Trail} : t.emoney = s.emoney → t.desk.files = s.desk.files →
      t.inFlight ⊆ s.inFlight → TrailStep sha256 s .outside t

/-- The body of a SUCCESS response of a prepaid card. -/
structure Settleable (body : Bytes) : Prop where
  prepaid : ∃ code rest, body = code :: rest ∧ code ≠ 0x09
  long : 40 ≤ body.length
  framed : body.length + 4 < 65536

/-- What the settlement of a response needs of the row that was stored for it. -/
structure Carries (e : EmoneyTransaction) (body : Bytes) : Prop where
  eligible : e.Eligible
  payload : ∃ p, e.settlementPayloadHex = some p ∧ Settlement.upper p = hexUpper body

section Bridge
variable {m : DeductMessage} {body trailing raw : Bytes} {r : EmoneyResultRequest}

theorem parseDeductResponse_prepaid (h : Settleable body) :
    ∃ d, parseDeductResponse body = .ok d ∧ d.cardNumber = hexUpper (slice 20 28 body) ∧
      d.deducted = toNat (slice 28 32 body) := by
  obtain ⟨code, rest, rfl, hcode⟩ := h.prepaid
  unfold parseDeductResponse
  dsimp only
  rw [if_neg hcode, if_neg (by have := h.long; omega)]
  exact ⟨_, rfl, rfl, rfl⟩

/-- Every successful deduct of a prepaid card is posted, without the payload of its settlement. -/
theorem posted_success (h : Settleable body) (m : DeductMessage) (trailing : Bytes) :
    ∃ r, posted m (answerFrame 0x00 (0x00, 0x00, 0x00) body ++ trailing) = some r ∧
      r.status = DeductStatus.success.value ∧ r.deductAmount = toNat (slice 28 32 body) ∧
      r.settlementPayloadHex = "" := by
  obtain ⟨d, hd, hcard, hded⟩ := parseDeductResponse_prepaid h
  have hlen : d.cardNumber.length = 16 := by
    rw [hcard, length_hexUpper, length_slice (by have := h.long; omega)]
  have hreply : deductReply m (answerFrame 0x00 (0x00, 0x00, 0x00) body ++ trailing) =
      .ok (.result (resultPayload m (responseOf
        (answerFrame 0x00 (0x00, 0x00, 0x00) body ++ trailing) 0x00
        (0x00 :: 0x00 :: 0x00 :: 0x00 :: body)) d)) := by
    unfold deductReply
    rw [parseResponse_answer _ _ _ h.framed]
    dsimp only
    rw [show (responseOf _ 0x00 (0x00 :: 0x00 :: 0x00 :: 0x00 :: body)).body = body from rfl, hd]
  unfold posted
  rw [hreply]
  dsimp only
  unfold boothResult
  rw [dif_pos (by rw [show (resultPayload _ _ d).cardNumber = d.cardNumber from rfl]; omega)]
  exact ⟨_, rfl, rfl, hded, rfl⟩

end Bridge

/-- The row was stored for this result; no code gives it a reader. -/
structure EmoneyTransaction.From (e : EmoneyTransaction) (a : EmoneyResult) : Prop where
  reader : e.emoneyReaderId = none
  batch : e.settlementBatchId = none
  amount : e.amountDeducted = a.deductAmount
  payload : e.settlementPayloadHex = truthy (some a.settlementPayloadHex)

/-- A table that only grows, by rows of one kind. -/
def Grows (P : EmoneyTransaction → Prop) (es es' : List EmoneyTransaction) : Prop :=
  ∃ new, es' = es ++ new ∧ ∀ e ∈ new, P e

section Grows
variable {P Q : EmoneyTransaction → Prop} {es es' es'' : List EmoneyTransaction}
  {e : EmoneyTransaction} {a : EmoneyResult}

theorem Grows.of_eq (h : es' = es) : Grows P es es' := ⟨[], by simp [h], by simp⟩

theorem Grows.trans (h : Grows P es es') (h' : Grows P es' es'') : Grows P es es'' := by
  obtain ⟨new, rfl, hnew⟩ := h
  obtain ⟨new', rfl, hnew'⟩ := h'
  refine ⟨new ++ new', List.append_assoc _ _ _, fun e he => ?_⟩
  rcases List.mem_append.mp he with h | h
  · exact hnew e h
  · exact hnew' e h

theorem Grows.mono (h : Grows P es es') (hPQ : ∀ e, P e → Q e) : Grows Q es es' := by
  obtain ⟨new, heq, hnew⟩ := h
  exact ⟨new, heq, fun e he => hPQ e (hnew e he)⟩

theorem Grows.forall (h : Grows P es es') (hes : ∀ e ∈ es, Q e) (hPQ : ∀ e, P e → Q e) :
    ∀ e ∈ es', Q e := by
  obtain ⟨new, rfl, hnew⟩ := h
  intro e he
  rcases List.mem_append.mp he with h | h
  · exact hes e h
  · exact hPQ e (hnew e h)

theorem not_eligible_of_reader (h : e.emoneyReaderId = none) : ¬ e.Eligible := fun he => he.2 h

end Grows

section Calls
variable {w : World} {c : Conn}

@[simp] theorem setCard_emoney (db : Db) (i : Id) (card : String) :
    (db.setCard i card).emoney = db.emoney := by
  unfold Db.setCard
  split <;> rfl

@[simp] theorem retype_emoney (db : Db) (i : Id) (v : Option Id) :
    (db.retype i v).emoney = db.emoney := by
  cases v <;> rfl

theorem grows_result (a : EmoneyResult) :
    Prog.Ensures execOp (processEmoneyResult a) c
      (fun _ c' => Grows (·.From a) c.world.db.emoney c'.world.db.emoney)
      (onValue fun _ c' => Grows (·.From a) c.world.db.emoney c'.world.db.emoney) := by
  refine (processEmoneyResult_spec a).mono ?_ ?_
  · rintro o c' ⟨pending, t, -, -, -, -, -, hstored, -⟩
    refine ⟨[(a.row t.id).stored c.world.nextEmoney c.world.now], ?_, ?_⟩
    · unfold EmoneyResult.Stored at hstored
      split at hstored
      · obtain ⟨now, shiftId, hdb⟩ := hstored
        rw [hdb]
        simp [Db.setTx, Db.addEmoney]
      · rw [hstored]
        simp [Db.addEmoney]
    · intro e he
      rw [List.mem_singleton.mp he]
      exact ⟨rfl, rfl, rfl, rfl⟩
  · exact fun e c' hv => hv.mono fun _ h => Grows.of_eq (by rw [h.1])

theorem emoney_entry (r : EntryRequest) :
    Prog.Ensures execOp (createEntryTransaction r) { world := w }
      (fun _ c' => c'.world.db.emoney = w.db.emoney)
      (onValue fun _ c' => c'.world.db.emoney = w.db.emoney) := by
  refine (createEntryTransaction_spec r).mono ?_ fun _ _ => onValue_of_false
  rintro _ c' ⟨now, -, -, hdb, -⟩
  rw [hdb]
  rfl

theorem emoney_cash (a : CashPayment) :
    Prog.Ensures execOp (processCashPayment a) { world := w }
      (fun _ c' => c'.world.db.emoney = w.db.emoney)
      (onValue fun _ c' => c'.world.db.emoney = w.db.emoney) := by
  refine (processCashPayment_spec a rfl).mono ?_ ?_
  · rintro r c' ⟨t, now, shiftId, -, -, -, -, -, -, hdb⟩
    rw [hdb]
    exact retype_emoney _ _ _
  · rintro e c' hv
    refine hv.mono fun _ ⟨_, hcase⟩ => ?_
    obtain ⟨-, hdb⟩ | ⟨t, fee, -, -, -, hdb⟩ := hcase <;> simp [hdb]

theorem emoney_rfid (a : RfidPayment) :
    Prog.Ensures execOp (processRfidPayment a) { world := w }
      (fun _ c' => c'.world.db.emoney = w.db.emoney)
      (onValue fun _ c' => c'.world.db.emoney = w.db.emoney) := by
  refine (processRfidPayment_spec a rfl).mono ?_ fun _ _ hv => hv.mono fun _ h => by rw [h]
  rintro r c' ⟨t, now, shiftId, -, -, -, -, hdb⟩
  rw [hdb]
  rfl

theorem emoney_deduct (a : EmoneyDeduct) :
    Prog.Ensures execOp (processEmoneyDeduct a) { world := w }
      (fun _ c' => c'.world.db.emoney = w.db.emoney)
      (onValue fun _ c' => c'.world.db.emoney = w.db.emoney) := by
  refine (processEmoneyDeduct_spec a rfl).mono ?_ fun _ _ hv => hv.mono fun _ h => by rw [h.1]
  rintro r c' ⟨t, deadline, -, -, -, hdb, -⟩
  rw [hdb]
  exact retype_emoney _ _ _

theorem grows_call (k : Call) : Grows (fun e => ∃ a, e.From a) w.db.emoney (k.after w).db.emoney := by
  refine Call.after_of_ensures
    (P := fun w' => Grows (fun e => ∃ a, e.From a) w.db.emoney w'.db.emoney) ?_
    (Grows.of_eq rfl)
  cases k with
  | entry r =>
    refine (emoney_entry r).bind (fun _ _ h => h.mono fun _ => Grows.of_eq) fun _ _ => Grows.of_eq
  | cash a =>
    refine (emoney_cash a).bind (fun _ _ h => h.mono fun _ => Grows.of_eq) fun _ _ => Grows.of_eq
  | rfid a =>
    refine (emoney_rfid a).bind (fun _ _ h => h.mono fun _ => Grows.of_eq) fun _ _ => Grows.of_eq
  | deduct a =>
    refine (emoney_deduct a).bind (fun _ _ h => h.mono fun _ => Grows.of_eq) fun _ _ => Grows.of_eq
  | result a =>
    have hmono : ∀ es, Grows (·.From a) w.db.emoney es → Grows (fun e => ∃ a, e.From a) w.db.emoney es :=
      fun _ h => h.mono fun e he => ⟨a, he⟩
    exact (grows_result a).bind (fun _ _ h => h.mono fun _ => hmono _) fun _ _ h => hmono _ h

/-- A delivery appends at most the row of its own result. -/
theorem grows_boothResult (r : EmoneyResultRequest) :
    Grows (fun e => ∃ status, e.From (r.result status none)) w.db.emoney
      (withDb (emoneyBoothResult r) w).2.db.emoney := by
  have hresult : Prog.Ensures execOp (emoneyResult none r) { world := w }
      (fun _ c' => Grows (fun e => ∃ status, e.From (r.result status none)) w.db.emoney
        c'.world.db.emoney) (fun _ _ => True) := by
    unfold emoneyResult
    cases DeductStatus.parse r.status with
    | none => exact Grows.of_eq rfl
    | some status =>
      have hmono : ∀ es, Grows (·.From (r.result status none)) w.db.emoney es →
          Grows (fun e => ∃ status, e.From (r.result status none)) w.db.emoney es :=
        fun _ h => h.mono fun e he => ⟨status, he⟩
      refine ensures_respond ((grows_result (r.result status none)).bind ?_ ?_)
      · rintro (msg | _ | _ | _) c' he
        · exact hmono _ he
        all_goals trivial
      · exact fun _ c' h => hmono _ h
  have hrun : Prog.Ensures execOp (emoneyBoothResult r) { world := w }
      (fun _ c' => Grows (fun e => ∃ status, e.From (r.result status none)) w.db.emoney
        c'.world.db.emoney) (fun _ _ => True) := by
    unfold emoneyBoothResult enforceBoothRateLimit
    split
    · exact hresult
    · rw [Prog.ensures_bind, Prog.ensures_bind, ensures_ext]
      dsimp only [execEffect]
      split
      · exact hresult
      · trivial
  rcases hw : withDb (emoneyBoothResult r) w with ⟨e | resp, w'⟩
  · exact Grows.of_eq (by rw [withDb_error hw])
  · obtain ⟨c', hc, rfl⟩ := withDb_of_ensures hrun hw
    exact hc

end Calls

/-- No run has a row to take up. -/
def Trail.Clear (s : Trail) : Prop := ∀ e ∈ s.emoney, ¬ e.Eligible

/-- A delivery stored `e` and completed an ACTIVE parking row with it. -/
structure CompletedWith (s t : Trail) (e : EmoneyTransaction) : Prop where
  stored : t.emoney = s.emoney ++ [e]
  paid : ∃ p ∈ s.desk.world.db.parking, ∃ p' ∈ t.desk.world.db.parking, p'.id = p.id ∧
    p.status = .active ∧ p'.CompletedBy .emoney ∧ p'.emoneyTransactionId = some e.id

section Runs
variable {sha256 : String → String} {s t : Trail} {l : TrailEvent}
  {xs : List (TrailEvent × Trail)}

abbrev Readerless (e : EmoneyTransaction) : Prop :=
  e.emoneyReaderId = none ∧ e.settlementBatchId = none

theorem EmoneyTransaction.From.readerless {e : EmoneyTransaction} {a : EmoneyResult}
    (h : e.From a) : Readerless e := ⟨h.reader, h.batch⟩

theorem trail_step (h : TrailStep sha256 s l t) (hs : s.Clear) :
    Grows Readerless s.emoney t.emoney ∧ t.desk.files = s.desk.files := by
  cases h with
  | deduct m raw => exact ⟨Grows.of_eq rfl, rfl⟩
  | deliver _ _ => exact ⟨(grows_boothResult _).mono fun e ⟨_, he⟩ => he.readerless, rfl⟩
  | call k => exact ⟨(grows_call k).mono fun e ⟨_, he⟩ => he.readerless, rfl⟩
  | settle ctx =>
    obtain ⟨hdb, hfiles⟩ := Settlement.generate_idle sha256 ctx hs
    exact ⟨Grows.of_eq (by rw [Trail.emoney, hdb]), hfiles⟩
  | outside he hf _ => exact ⟨Grows.of_eq he, hf⟩

theorem Grows.clear (h : Grows Readerless s.emoney t.emoney) (hs : s.Clear) : t.Clear :=
  h.forall hs fun _ he => not_eligible_of_reader he.1

theorem trail_run (h : Path (TrailStep sha256) s xs) (hs : s.Clear) :
    Grows Readerless s.emoney (finish s xs).emoney ∧ (finish s xs).desk.files = s.desk.files := by
  refine h.invariant
    (P := fun t => Grows Readerless s.emoney t.emoney ∧ t.desk.files = s.desk.files) ?_
    ⟨Grows.of_eq rfl, rfl⟩
  rintro t l u hstep ⟨hg, hf⟩
  obtain ⟨hg', hf'⟩ := trail_step hstep (hg.clear hs)
  exact ⟨hg.trans hg', hf'.trans hf⟩

theorem not_carries_of_reader {e : EmoneyTransaction} {body : Bytes}
    (h : e.emoneyReaderId = none) : ¬ Carries e body :=
  fun hc => not_eligible_of_reader h hc.eligible

/-- What was deducted is recorded, and no settlement run ever takes it up. -/
theorem deducted_never_settled (hs : s.Clear) (h : Path (TrailStep sha256) s xs) :
    (finish s xs).desk.files = s.desk.files ∧
    ∀ pre m body trailing t post e,
      xs = pre ++ (.deliver m (answerFrame 0x00 (0x00, 0x00, 0x00) body ++ trailing), t) :: post →
      Settleable body → CompletedWith (finish s pre) t e →
      e.amountDeducted = toNat (slice 28 32 body) ∧ ¬ Carries e body ∧
      e.settlementPayloadHex = none ∧ e.settlementBatchId = none ∧ e ∈ (finish s xs).emoney := by
  refine ⟨(trail_run h hs).2, ?_⟩
  rintro pre m body trailing t post e rfl hbody hc
  obtain ⟨hpre, hstep, hpost⟩ := path_append.mp h
  obtain ⟨r, hr, -, hamount, hpayload⟩ := posted_success hbody m trailing
  have hclear := (trail_run hpre hs).1.clear hs
  have hfrom : ∃ status, e.From (r.result status none) := by
    cases hstep with
    | deliver hmem hr' =>
      rw [hr] at hr'
      cases hr'
      obtain ⟨new, heq, hnew⟩ := grows_boothResult (w := (finish s pre).desk.world) r
      have hlist := hc.stored.symm.trans heq
      rw [List.append_cancel_left_eq] at hlist
      exact hnew e (hlist ▸ List.mem_singleton_self e)
  obtain ⟨status, hfrom⟩ := hfrom
  refine ⟨?_, not_carries_of_reader hfrom.reader, ?_, hfrom.batch, ?_⟩
  · rw [hfrom.amount]
    exact congrArg Nat.cast hamount
  · rw [hfrom.payload]
    show truthy (some r.settlementPayloadHex) = none
    rw [hpayload]
    rfl
  · have hlater := (trail_run hpost ((trail_step hstep hclear).1.clear hclear)).1
    obtain ⟨new, heq, -⟩ := hlater
    rw [finish_append, finish_cons, heq, hc.stored]
    simp

end Runs

section Night

/-- An e-money card of 26000 pays the 6000 of the waiting car. -/
def paidBody : Bytes :=
  [0x02] ++ List.replicate 12 0x11 ++ List.replicate 7 0x26 ++ List.replicate 8 0x60 ++
    ofNat 4 6000 ++ ofNat 4 20000 ++ ofNat 4 7 ++ List.replicate 8 0xC0

theorem settleable_paidBody : Settleable paidBody where
  prepaid := ⟨0x02, _, rfl, by decide⟩
  long := by decide
  framed := by decide

def paidMessage : DeductMessage := { amount := .int 6000, gateId := "OUT1", gateOutId := 2 }

def paidAnswer : Bytes := answerFrame 0x00 (0x00, 0x00, 0x00) paidBody ++ []

def paidRequest : EmoneyResultRequest where
  gateId := "OUT1"
  gateOutId := 2
  cardNumber := "6060606060606060"
  status := "SUCCESS"
  deductAmount := 6000
  balanceBefore := 26000
  balanceAfter := 20000
  transactionCounter := 7
  rawResponseHex := hex paidAnswer
  cardNumber_length := by decide
  cardTypeCode_byte := no_cardTypeCode

theorem posted_paid : posted paidMessage paidAnswer = some paidRequest := rfl

/-- The exit's reader has its MID and TID. -/
def openExit : Trail where
  desk :=
    { world := { waitingCar with db := { waitingCar.db with
        readers := [{ id := 4, mid := some "1234", tid := some "56" }] } } }

def armedExit : Trail :=
  openExit.setWorld
    ((Call.deduct { gateId := "OUT1", gateOutId := 2, barcode := "T1001" }).after
      openExit.desk.world)

def tappedExit : Trail := { armedExit with inFlight := [(paidMessage, paidAnswer)] }

def paidExit : Trail :=
  armedExit.setWorld (withDb (emoneyBoothResult paidRequest) armedExit.desk.world).2

/-- The driver taps, the bridge delivers, and the settlement runs by hand and by cron. -/
def nightRun (sha256 : String → String) : List (TrailEvent × Trail) :=
  let manual : Trail := { paidExit with desk := (Settlement.generate sha256 ⟨false⟩ paidExit.desk).2 }
  [(.call (.deduct { gateId := "OUT1", gateOutId := 2, barcode := "T1001" }), armedExit),
   (.deduct paidMessage paidAnswer, tappedExit),
   (.deliver paidMessage paidAnswer, paidExit),
   (.settle ⟨false⟩, manual),
   (.settle ⟨true⟩, { manual with desk := (Settlement.generate sha256 ⟨true⟩ manual.desk).2 })]

theorem nightRun_path (sha256 : String → String) :
    Path (TrailStep sha256) openExit (nightRun sha256) := by
  refine ⟨.call _, .deduct _ _, ?_, .settle _, .settle _, trivial⟩
  exact .deliver (s := tappedExit) (r := paidRequest) (List.mem_singleton_self _) posted_paid

def paidRow : EmoneyTransaction where
  id := 1
  parkingTransactionId := some 1
  cardNumber := "6060606060606060"
  amountDeducted := 6000
  balanceBefore := some 26000
  balanceAfter := some 20000
  transactionCounter := some 7
  rawResponseHex := some (hex paidAnswer)
  status := .success
  createdAt := 2 * DateTime.microsPerHour

set_option maxRecDepth 4000 in
theorem paidExit_row : CompletedWith tappedExit paidExit paidRow where
  stored := rfl
  paid := ⟨_, List.mem_singleton_self _, _, List.mem_singleton_self _, rfl, rfl, ⟨rfl, rfl⟩, rfl⟩

theorem clear_openExit : openExit.Clear := by
  intro e he
  cases he

set_option maxRecDepth 4000 in
/-- The parking row is completed and the amount recorded, but no run settles it. -/
theorem deduct_unsettled :
    CompletedWith tappedExit paidExit paidRow ∧ ¬ Carries paidRow paidBody ∧
    ∀ sha256 : String → String, Path (TrailStep sha256) openExit (nightRun sha256) ∧
      (finish openExit (nightRun sha256)).emoney = [paidRow] ∧
      ∀ path, (finish openExit (nightRun sha256)).desk.files path = none :=
  ⟨paidExit_row, not_carries_of_reader rfl, fun sha256 =>
    ⟨nightRun_path sha256, rfl, fun _ => rfl⟩⟩

theorem deducted_never_settled_night :
    paidRow.amountDeducted = toNat (slice 28 32 paidBody) ∧ ¬ Carries paidRow paidBody ∧
    ∀ sha256 : String → String, paidRow ∈ (finish openExit (nightRun sha256)).emoney := by
  have hrow := fun sha256 => (deducted_never_settled clear_openExit (nightRun_path sha256)).2
    [_, _] paidMessage paidBody [] paidExit _ paidRow rfl settleable_paidBody paidExit_row
  exact ⟨(hrow id).1, (hrow id).2.1, fun sha256 => (hrow sha256).2.2.2.2⟩

end Night

end ParkIt
