import ParkIt.Printing.Escpos
import ParkIt.Services.Accepting

/-! What the receipt of a completed payment says. -/
namespace ParkIt

/-- `f"{n:06d}"` of the microseconds, when there are any. -/
def fraction (micros : Nat) : String :=
  if micros = 0 then "" else "." ++ Settlement.padded 6 micros

/-- The offset of `isoformat()`; seconds and microseconds only show when there are any. -/
def isoOffset (offset : Int) : String :=
  let micros := offset.natAbs
  let seconds := micros / 1000000 % 60
  (if offset < 0 then "-" else "+") ++ Settlement.padded 2 (micros / 3600000000) ++ ":" ++
    Settlement.padded 2 (micros / 60000000 % 60) ++
    (if seconds = 0 ∧ micros % 1000000 = 0 then ""
      else ":" ++ Settlement.padded 2 seconds ++ fraction (micros % 1000000))

/-- `datetime.isoformat()`. -/
def DateTime.isoformat (t : DateTime) : String :=
  Settlement.padded 4 t.localTime.year ++ "-" ++ Settlement.padded 2 t.localTime.month ++ "-" ++
    Settlement.padded 2 t.localTime.day ++ "T" ++ Settlement.padded 2 t.localTime.hour ++ ":" ++
    Settlement.padded 2 t.localTime.minute ++ ":" ++ Settlement.padded 2 t.localTime.second ++
    fraction ((t.instant + t.offset) % 1000000).toNat ++ isoOffset t.offset

def PaymentMethod.text : PaymentMethod → String
  | .cash => "CASH"
  | .rfidMember => "RFID_MEMBER"
  | .emoney => "EMONEY"
  | .pending => "PENDING"

namespace Printing

open Effects Api ByteString GateIn

def orNone (s : Option String) : Value := (s.map Value.str).getD .none

/-- The data of a receipt under the keys of the payment service. -/
def dictOf (d : ReceiptData) : Dict :=
  [("transaction_id", .int d.transactionId), ("barcode", orNone d.barcode),
    ("plate_number", orNone d.plateNumber), ("entry_time", .str d.entryTime.isoformat),
    ("exit_time", orNone (d.exitTime.map (·.isoformat))), ("fee", .int d.fee),
    ("paid_amount", .int d.paidAmount), ("payment_method", .str d.paymentMethod.text)] ++
    (d.balanceAfter.map fun n => ("balance_after", Value.int n)).toList

/-- What `print_receipt` builds from a job of the payment service, which names no location. -/
def receiptOf (d : ReceiptData) : Option Bytes := buildEscposReceipt (dictOf d) ""

/-- The data are those of the completed transaction. -/
structure About (d : ReceiptData) (t : ParkingTransaction) : Prop where
  transactionId : d.transactionId = t.id
  entryTime : d.entryTime = t.entryTime
  exitTime : d.exitTime = t.exitTime
  fee : some d.fee = t.fee
  paymentMethod : some d.paymentMethod = t.paymentMethod

/-- The receipt shows the fee as the total, both times and the payment method. -/
structure Truthful (t : ParkingTransaction) (receipt : Bytes) : Prop where
  total : ∃ fee s, t.fee = some fee ∧ thousands fee = some s ∧
    utf8 ("TOTAL        : Rp " ++ s ++ "\n") <:+: receipt
  entryTime : utf8 t.entryTime.isoformat <:+: receipt
  exitTime : ∃ exit, t.exitTime = some exit ∧ utf8 exit.isoformat <:+: receipt
  method : ∃ m, t.paymentMethod = some m ∧ utf8 ("METODE       : " ++ m.text ++ "\n") <:+: receipt

def serviceKeys : List String :=
  ["transaction_id", "barcode", "plate_number", "entry_time", "exit_time", "fee", "paid_amount",
    "payment_method", "balance_after"]

theorem key_mem_serviceKeys {d : ReceiptData} {e : String × Value} (h : e ∈ dictOf d) :
    e.1 ∈ serviceKeys := by
  rcases List.mem_append.mp h with h | h
  · have hkey : e.1 ∈ ["transaction_id", "barcode", "plate_number", "entry_time", "exit_time",
        "fee", "paid_amount", "payment_method"] := List.mem_map_of_mem h
    have hsub : ∀ key ∈ ["transaction_id", "barcode", "plate_number", "entry_time", "exit_time",
        "fee", "paid_amount", "payment_method"], key ∈ serviceKeys := by decide
    exact hsub _ hkey
  · obtain ⟨n, -, rfl⟩ := Option.map_eq_some_iff.mp (Option.mem_toList.mp h)
    have hkey : "balance_after" ∈ serviceKeys := by decide
    exact hkey

theorem get_dictOf {d : ReceiptData} {key : String} (default : Value) (h : key ∉ serviceKeys) :
    (dictOf d).get key default = default := by
  have hnone : (dictOf d).lookup key = none := by
    rw [List.lookup_eq_none_iff]
    intro e he
    exact bne_iff_ne.mpr fun heq => h (heq ▸ key_mem_serviceKeys he)
  rw [Dict.get, hnone, Option.getD_none]

/-- A receipt with the payment method and nothing else. -/
def blankReceipt (m : PaymentMethod) : Bytes :=
  ([[0x1b, 0x61, 0x01], utf8 "STRUK PARKIR\n", [0x1b, 0x21, 0x10], utf8 ("" ++ "\n\n"),
    [0x1b, 0x21, 0x00], [0x1b, 0x61, 0x00], utf8 ("GATE         : " ++ "\n"),
    utf8 ("TANGGAL      : " ++ "\n"), utf8 ("JAM MASUK    : " ++ "\n"),
    utf8 ("JAM KELUAR   : " ++ "\n"), utf8 ("DURASI       : " ++ "\n"),
    utf8 ("JENIS        : " ++ "\n"), utf8 ("METODE       : " ++ m.text ++ "\n"),
    [0x1b, 0x61, 0x01], utf8 ("TOTAL        : Rp " ++ "0" ++ "\n\n"), utf8 ("" ++ "\n"),
    [0x1d, 0x56, 0x41]] : List Bytes).flatten

/-- The printer and the service share one key, so all receipts of a payment method are the same. -/
theorem receiptOf_eq (d : ReceiptData) : receiptOf d = some (blankReceipt d.paymentMethod) := by
  have hline : ∀ label : String, ∀ key ∉ serviceKeys,
      dataLine (dictOf d) label key = some (utf8 (label ++ "\n")) := by
    intro label key hkey
    rw [dataLine, get_dictOf _ hkey, Value.str, Option.map_some, String.append_empty]
  have hmethod : dataLine (dictOf d) "METODE       : " "payment_method" =
      some (utf8 ("METODE       : " ++ d.paymentMethod.text ++ "\n")) := rfl
  have htotal : ((dictOf d).get "total_fee" (.int 0)).grouped = some "0" := by
    rw [get_dictOf _ (by decide)]
    decide
  rw [receiptOf, buildEscposReceipt, hmethod, htotal]
  simp (disch := decide) only [hline]
  rfl

/-- No text of a receipt has a hyphen. -/
theorem hyphen_notMem (m : PaymentMethod) : 0x2D ∉ blankReceipt m := by
  have hraw : ∀ l : Bytes, l.contains 0x2D = false → 0x2D ∉ l := fun l hl => by simpa using hl
  have htext : ∀ s : String, s.toList.contains '-' = false → 0x2D ∉ utf8 s := by
    intro s hs hmem
    obtain ⟨c, hc, hb⟩ := Utf8.mem_bytes.mp hmem
    obtain rfl : c = '-' := Char.toNat_inj.mp ((Utf8.mem_encode_ascii (by decide)).mp hb)
    exact absurd (List.contains_iff_mem.mpr hc) (by rw [hs]; decide)
  cases m <;>
    simp (disch := decide) only [blankReceipt, PaymentMethod.text, List.flatten_cons,
      List.flatten_nil, List.mem_append, hraw, htext, or_self, not_false_eq_true]

theorem not_truthful (t : ParkingTransaction) (m : PaymentMethod) :
    ¬ Truthful t (blankReceipt m) := by
  intro h
  refine hyphen_notMem m (h.entryTime.subset ?_)
  have hdash : '-' ∈ t.entryTime.isoformat.toList := by
    simp [DateTime.isoformat]
  exact Utf8.mem_bytes.mpr ⟨'-', hdash, by decide⟩

/-- A payment at an attended gate. -/
inductive Payment where
  | cash (a : CashPayment)
  | emoneyResult (a : EmoneyResult)

namespace Payment

def gateId : Payment → String
  | .cash a => a.gateId
  | .emoneyResult a => a.gateId

/-- The transaction that the call completes, if it completes one. -/
def call : Payment → Api (Option ParkingTransaction)
  | .cash a => do
    let r ← processCashPayment a
    pure (some r.transaction)
  | .emoneyResult a => do
    let o ← processEmoneyResult a
    pure (if o.success then some o.transaction else none)

end Payment

section Calls
variable {c : Conn} {g : String} {t : ParkingTransaction}

/-- With a receipt printer at the gate and the queue at hand, the receipt waits to be printed. -/
def Queued (g : String) (t : ParkingTransaction) (w : World) : Prop :=
  ∀ gate, w.db.gates.find? (fun x => x.code = g) = some gate →
    gate.hardwareConfig.receiptPrinterEnabled = true → w.redisDown = false →
    ∃ d jobId, Job.printReceipt g d jobId ∈ w.jobs ∧ About d t

theorem enqueuePrintReceipt_queued {d : ReceiptData} (h : About d t) :
    Prog.Ensures execOp (enqueuePrintReceipt g d) c (fun _ c' => Queued g t c'.world)
      fun _ _ => False := by
  rw [enqueuePrintReceipt, Prog.ensures_bind, ensures_ext]
  dsimp only [execEffect]
  rcases hgate : c.world.db.gates.find? (fun x => x.code = g) with _ | gate <;> rw [hgate]
  · rw [Prog.ensures_pure]
    intro gate' hgate'
    cases hgate.symm.trans hgate'
  dsimp only
  by_cases henabled : gate.hardwareConfig.receiptPrinterEnabled = true
  · rw [if_pos henabled, ensures_ext]
    dsimp only [execEffect]
    by_cases hr : c.world.redisDown = true
    · rw [if_pos hr]
      intro _ _ _ hdown
      cases hr.symm.trans hdown
    · rw [if_neg hr]
      intro _ _ _ _
      exact ⟨d, _, List.mem_append_right _ (List.mem_singleton_self _), h⟩
  · rw [if_neg henabled, Prog.ensures_pure]
    intro gate' hgate' henabled'
    obtain rfl := Option.some.inj (hgate.symm.trans hgate')
    exact absurd henabled' henabled

theorem processCashPayment_queued (a : CashPayment) :
    Prog.Ensures execOp (processCashPayment a) c
      (fun r c' => Queued a.gateId r.transaction c'.world) fun _ _ => True := by
  refine (Prog.ensures_true _).bind (fun _ _ h => h) fun t c₁ _ => ?_
  cases t with
  | none => trivial
  | some t =>
    refine (Prog.ensures_true _).bind (fun _ _ h => h) fun t c₂ _ => ?_
    refine (Prog.ensures_true _).bind (fun _ _ h => h) fun _ c₃ _ => ?_
    refine (Prog.ensures_true _).bind (fun _ _ h => h) fun fee c₄ _ => ?_
    split
    · trivial
    refine (Prog.ensures_true _).bind (fun _ _ h => h) fun shift c₅ _ => ?_
    refine (completeExitTransaction_spec _ _).bind (fun _ _ _ => trivial) ?_
    rintro _ c₆ ⟨now, rfl, -, -⟩
    refine (enqueuePrintReceipt_queued ⟨rfl, rfl, rfl, rfl, rfl⟩).bind
      (fun _ _ _ => trivial) fun _ _ h => h

theorem processEmoneyResult_queued (a : EmoneyResult) :
    Prog.Ensures execOp (processEmoneyResult a) c
      (fun o c' => o.success = true → Queued a.gateId o.transaction c'.world) fun _ _ => True := by
  refine (Prog.ensures_true _).bind (fun _ _ h => h) fun p c₁ _ => ?_
  cases p with
  | none => trivial
  | some p =>
    refine (Prog.ensures_true _).bind (fun _ _ h => h) fun _ c₂ _ => ?_
    refine (Prog.ensures_true _).bind (fun _ _ h => h) fun rows c₃ _ => ?_
    split
    · exact (Prog.ensures_true _).bind (fun _ _ h => h) fun _ _ _ => trivial
    refine (Prog.ensures_true _).bind (fun _ _ h => h) fun t c₄ _ => ?_
    refine (Prog.ensures_true _).bind (fun _ _ h => h) fun e c₅ _ => ?_
    unfold determineOutcome
    split
    · refine (Prog.ensures_true _).bind (fun _ _ h => h) fun shift c₆ _ => ?_
      refine (completeExitTransaction_spec _ _).bind (fun _ _ _ => trivial) ?_
      rintro _ c₇ ⟨now, rfl, -, -⟩
      refine (Prog.ensures_true _).bind (fun _ _ h => h) fun _ c₈ _ => ?_
      refine (Prog.ensures_true _).bind (fun _ _ h => h) fun _ c₉ _ => ?_
      refine (enqueuePrintReceipt_queued ⟨rfl, rfl, rfl, rfl, rfl⟩).bind
        (fun _ _ _ => trivial) fun _ _ h _ => h
    · rename_i hstatus
      have hfailed : ∀ t i, (a.outcome t i).success = true → False := fun t i h => hstatus h
      split
      · exact fun h => (hfailed _ _ h).elim
      · split
        · exact (Prog.ensures_true _).bind (fun _ _ h => h) fun _ _ _ h => (hfailed _ _ h).elim
        · exact fun h => (hfailed _ _ h).elim

theorem call_queued (p : Payment) :
    Prog.Ensures execOp p.call c (fun r c' => ∀ t, r = some t → Queued p.gateId t c'.world)
      fun _ _ => True := by
  cases p with
  | cash a =>
    refine (processCashPayment_queued a).bind (fun _ _ h => h) ?_
    rintro r c' h _ ⟨⟩
    exact h
  | emoneyResult a =>
    refine (processEmoneyResult_queued a).bind (fun _ _ h => h) ?_
    intro o c' h t ht
    split at ht
    · rename_i hsuccess
      obtain rfl := Option.some.inj ht
      exact h hsuccess
    · cases ht

end Calls

/-- The job of a completed payment has the data of its transaction, and the receipt made of them
shows no times and always the same total. -/
theorem receipts_untrue {p : Payment} {w w' : World} {t : ParkingTransaction}
    (h : p.call.exec w = (.ok (some t), w')) :
    Queued p.gateId t w' ∧
      ∀ g d jobId, Job.printReceipt g d jobId ∈ w'.jobs →
        ∃ receipt, receiptOf d = some receipt ∧ ¬ Truthful t receipt := by
  obtain ⟨c', hqueued, rfl⟩ := exec_ok (call_queued p) h
  exact ⟨hqueued t rfl, fun g d jobId _ => ⟨_, receiptOf_eq d, not_truthful t d.paymentMethod⟩⟩

/-- A stay of two hours at a gate with a receipt printer. -/
def printedExit : World :=
  { db := { parking := [{ id := 1, barcode := some "T1001", vehicleTypeId := some 1,
                          gateInId := some 1, entryTime := .utc 0, paymentMethod := some .cash }]
            vehicleTypes := [{ id := 1, code := "MOBIL", hourlyRate := 5000 }]
            gates := [{ id := 1, code := "IN1" },
              { id := 2, code := "OUT1", hardwareConfig := { receiptPrinterEnabled := true } }] }
    nextTx := 2
    nextEmoney := 1
    now := 2 * DateTime.microsPerHour }

def cashExit : Payment :=
  .cash { gateId := "OUT1", gateOutId := 2, barcode := some "T1001", paidAmount := 10000 }

def paidStay : ParkingTransaction :=
  { id := 1, barcode := some "T1001", vehicleTypeId := some 1, gateInId := some 1,
    gateOutId := some 2, entryTime := .utc 0, exitTime := some (.utc (2 * DateTime.microsPerHour)),
    paymentMethod := some .cash, fee := some 10000, paidAmount := some 10000, status := .completed }

theorem receipts_untrue_cash :
    Queued cashExit.gateId paidStay (cashExit.call.exec printedExit).2 ∧
    ∀ g d jobId, Job.printReceipt g d jobId ∈ (cashExit.call.exec printedExit).2.jobs →
      ∃ receipt, receiptOf d = some receipt ∧ ¬ Truthful paidStay receipt := by
  have hrun : cashExit.call.exec printedExit =
      (.ok (some paidStay), (cashExit.call.exec printedExit).2) := rfl
  exact receipts_untrue hrun

/-- The fee is 10000 and the receipt says `Rp 0`, without any time. -/
theorem cash_receipt_untrue : ∃ d receipt,
    (cashExit.call.exec printedExit).2.jobs = [.printReceipt "OUT1" d (some "receipt:1")] ∧
      About d paidStay ∧ receiptOf d = some receipt ∧ ¬ Truthful paidStay receipt :=
  ⟨{ transactionId := 1, barcode := some "T1001", plateNumber := none, entryTime := .utc 0,
     exitTime := some (.utc (2 * DateTime.microsPerHour)), fee := 10000, paidAmount := 10000,
     paymentMethod := .cash }, _, rfl, ⟨rfl, rfl, rfl, rfl, rfl⟩, receiptOf_eq _, not_truthful _ _⟩

end Printing
end ParkIt
