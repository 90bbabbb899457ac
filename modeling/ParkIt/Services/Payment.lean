import ParkIt.Services.Transaction

/-! Cash, RFID and e-money payments at a gate-out. -/
namespace ParkIt

open Effects Api

def enqueuePrintReceipt (gateId : String) (data : ReceiptData) : Api Unit := do
  match ← ext (.gateByCode gateId) with
  | none => pure ()
  | some gate =>
    if gate.hardwareConfig.receiptPrinterEnabled then
      ext (.enqueue (.printReceipt gateId data
        (if data.transactionId = 0 then none else some s!"receipt:{data.transactionId}")))
    else pure ()

structure CashPayment where
  gateId : String
  gateOutId : Id
  barcode : Option String := none
  cardNumber : Option String := none
  plateNumber : Option String := none
  paidAmount : Nat
  operatorId : Option Id := none
  vehicleTypeId : Option Id := none
deriving DecidableEq, Repr

structure PaymentResult where
  transaction : ParkingTransaction
  fee : Int
  changeAmount : Int := 0
deriving DecidableEq, Repr

/-- `tx.vehicle_type_id = vehicle_type_id; flush()`, when an override is given. -/
def overrideVehicleType (tx : ParkingTransaction) (vehicleTypeId : Option Id) :
    Api ParkingTransaction :=
  match vehicleTypeId with
  | none => pure tx
  | some v => do
    update tx.id (.vehicleTypeId v)
    pure ((TxUpdate.vehicleTypeId v).apply tx)

def CashPayment.exit (a : CashPayment) (fee : Int) (shiftId : Option Id) : ExitColumns where
  gateOutId := a.gateOutId
  paymentMethod := .cash
  fee := fee
  paidAmount := some a.paidAmount
  operatorId := a.operatorId
  shiftId := shiftId

def processCashPayment (a : CashPayment) : Api PaymentResult := do
  match ← findActiveTransaction a.barcode a.cardNumber a.plateNumber true with
  | none => valueError "No active transaction found"
  | some tx => do
    let tx ← overrideVehicleType tx a.vehicleTypeId
    enqueueSnapshotsForGate a.gateId tx.id "exit"
    let fee ← calculateTransactionFee tx
    if (a.paidAmount : Int) < fee then
      valueError s!"Insufficient payment: {a.paidAmount} < {fee}"
    else do
      let shift ← getCurrentShift
      let tx ← completeExitTransaction tx (a.exit fee (shift.map (·.id)))
      enqueuePrintReceipt a.gateId
        { transactionId := tx.id, barcode := tx.barcode, plateNumber := tx.plateNumber,
          entryTime := tx.entryTime, exitTime := tx.exitTime, fee, paidAmount := a.paidAmount,
          paymentMethod := .cash }
      pure { transaction := tx, fee, changeAmount := max 0 (a.paidAmount - fee) }

structure RfidPayment where
  gateId : String
  gateOutId : Id
  cardNumber : String
  operatorId : Option Id := none
deriving DecidableEq, Repr

structure RfidResult where
  transaction : ParkingTransaction
  member : Member
deriving DecidableEq, Repr

def activeMember (cardNumber : String) (m : Member) : Bool :=
  decide (m.cardNumber = cardNumber) && m.isActive

def RfidPayment.exit (a : RfidPayment) (memberId : Id) (shiftId : Option Id) : ExitColumns where
  gateOutId := a.gateOutId
  paymentMethod := .rfidMember
  fee := 0
  memberId := some memberId
  operatorId := a.operatorId
  shiftId := shiftId

def processRfidPayment (a : RfidPayment) : Api RfidResult := do
  match ← ext (.selectMember (activeMember a.cardNumber)) with
  | none => valueError "Invalid or inactive member card"
  | some member => do
    match ← findActiveTransaction none (some a.cardNumber) none true with
    | none => valueError "No active transaction found for this card"
    | some tx => do
      enqueueSnapshotsForGate a.gateId tx.id "exit"
      let shift ← getCurrentShift
      let tx ← completeExitTransaction tx (a.exit member.id (shift.map (·.id)))
      pure { transaction := tx, member }

structure EmoneyDeduct where
  gateId : String
  gateOutId : Id
  barcode : String
  vehicleTypeId : Option Id := none
  operatorId : Option Id := none
deriving DecidableEq, Repr

def processEmoneyDeduct (a : EmoneyDeduct) : Api PaymentResult := do
  match ← findActiveTransaction (some a.barcode) none none true with
  | none => valueError "No active transaction found for this ticket"
  | some tx => do
    let tx ← overrideVehicleType tx a.vehicleTypeId
    let fee ← calculateTransactionFee tx
    ext (.setPending a.gateId { transactionId := tx.id, gateOutId := a.gateOutId, fee })
    pure { transaction := tx, fee }

structure EmoneyResult where
  gateId : String
  gateOutId : Id
  cardNumber : String
  status : DeductStatus
  deductAmount : Nat
  balanceBefore : Nat
  balanceAfter : Nat
  transactionCounter : Nat
  rawResponseHex : String
  settlementPayloadHex : String := ""
  cardType : Option String := none
  cardTypeCode : Option Nat := none
  operatorId : Option Id := none
deriving DecidableEq, Repr

structure EmoneyOutcome where
  transaction : ParkingTransaction
  emoneyTransactionId : Id
  success : Bool
  status : DeductStatus
  isIntermediate : Bool
deriving DecidableEq, Repr

def DeductStatus.isSuccess (s : DeductStatus) : Bool :=
  decide (s = .success ∨ s = .correctionVerified)

def DeductStatus.isTerminalFailure (s : DeductStatus) : Bool :=
  decide (s = .failed ∨ s = .wrongCard ∨ s = .insufficientBalance ∨ s = .correctionFailed)

/-- The row that a result stores; neither the reader nor a batch is known here. -/
def EmoneyResult.row (a : EmoneyResult) (transactionId : Id) : EmoneyTransaction where
  id := 0
  parkingTransactionId := some transactionId
  cardNumber := a.cardNumber
  cardType := a.cardType
  cardTypeCode := a.cardTypeCode.map Int.ofNat
  amountDeducted := a.deductAmount
  balanceBefore := some a.balanceBefore
  balanceAfter := some a.balanceAfter
  transactionCounter := some a.transactionCounter
  rawResponseHex := some a.rawResponseHex
  settlementPayloadHex := truthy (some a.settlementPayloadHex)
  status := a.status

/-- The gate of the arm is preferred to the one that the bridge echoes back. -/
def EmoneyResult.exit (a : EmoneyResult) (pending : Pending) (emoneyTransactionId : Id)
    (shiftId : Option Id) : ExitColumns where
  gateOutId := orInt pending.gateOutId a.gateOutId
  paymentMethod := .emoney
  fee := a.deductAmount
  paidAmount := some a.deductAmount
  emoneyTransactionId := some emoneyTransactionId
  operatorId := a.operatorId
  shiftId := shiftId

/-- `tx.card_number = card_number; flush()`, when the card is known. -/
def persistCardNumber (tx : ParkingTransaction) (cardNumber : String) : Api ParkingTransaction :=
  if cardNumber = "" then pure tx
  else do
    update tx.id (.cardNumber cardNumber)
    pure ((TxUpdate.cardNumber cardNumber).apply tx)

def EmoneyResult.outcome (a : EmoneyResult) (tx : ParkingTransaction) (emoneyTransactionId : Id) :
    EmoneyOutcome where
  transaction := tx
  emoneyTransactionId := emoneyTransactionId
  success := a.status.isSuccess
  status := a.status
  isIntermediate := decide (a.status = .lostContact)

/-- The part of `process_emoney_result` after the e-money row has been stored. -/
def determineOutcome (a : EmoneyResult) (pending : Pending) (tx : ParkingTransaction)
    (emoneyTransactionId : Id) : Api EmoneyOutcome := do
  if a.status.isSuccess then do
    let shift ← getCurrentShift
    let tx ← completeExitTransaction tx (a.exit pending emoneyTransactionId (shift.map (·.id)))
    ext (.clearPending a.gateId)
    enqueueSnapshotsForGate a.gateId tx.id "exit"
    enqueuePrintReceipt a.gateId
      { transactionId := tx.id, barcode := tx.barcode, plateNumber := tx.plateNumber,
        entryTime := tx.entryTime, exitTime := tx.exitTime, fee := a.deductAmount,
        paidAmount := a.deductAmount, paymentMethod := .emoney,
        balanceAfter := some a.balanceAfter }
    pure (a.outcome tx emoneyTransactionId)
  else if a.status = .lostContact then pure (a.outcome tx emoneyTransactionId)
  else if a.status.isTerminalFailure || decide (a.status = .timeout) then do
    ext (.clearPending a.gateId)
    pure (a.outcome tx emoneyTransactionId)
  else pure (a.outcome tx emoneyTransactionId)

def processEmoneyResult (a : EmoneyResult) : Api EmoneyOutcome := do
  match ← ext (.getPending a.gateId) with
  | none => valueError "No pending e-money deduct for this gate (timeout or never armed)"
  | some pending => do
    ext .setLockTimeout
    let rows ← lock fun t => decide (t.id = pending.transactionId)
    match rows.head?.filter (·.status = .active) with
    | none => do
      ext (.clearPending a.gateId)
      valueError "Pending transaction missing or already completed"
    | some tx => do
      let tx ← persistCardNumber tx a.cardNumber
      let emoneyTx ← ext (.insertEmoney (a.row tx.id))
      determineOutcome a pending tx emoneyTx.id

end ParkIt
