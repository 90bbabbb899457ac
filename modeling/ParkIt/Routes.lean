import ParkIt.Services.Payment

/-! The payment routes: schemas, idempotency keys, and errors turned into answers. -/
namespace ParkIt

open Effects Api

structure CashPaymentRequest where
  gateId : String
  gateOutId : Id
  barcode : Option String := none
  plateNumber : Option String := none
  paidAmount : Nat
  vehicleTypeId : Option Id := none

structure RfidPaymentRequest where
  gateId : String
  gateOutId : Id
  cardNumber : String
  cardNumber_length : 4 ≤ cardNumber.length ∧ cardNumber.length ≤ 32

structure EmoneyDeductRequest where
  gateId : String
  gateOutId : Id
  barcode : String
  vehicleTypeId : Option Id := none
  barcode_length : 4 ≤ barcode.length ∧ barcode.length ≤ 64

structure EmoneyResultRequest where
  gateId : String
  gateOutId : Id
  cardNumber : String
  cardType : Option String := none
  cardTypeCode : Option Nat := none
  status : String
  deductAmount : Nat
  balanceBefore : Nat
  balanceAfter : Nat
  transactionCounter : Nat
  rawResponseHex : String := ""
  settlementPayloadHex : String := ""
  cardNumber_length : 4 ≤ cardNumber.length ∧ cardNumber.length ≤ 32
  cardTypeCode_byte : ∀ c, cardTypeCode = some c → c ≤ 255

theorem no_cardTypeCode (c : Nat) (h : none = some c) : c ≤ 255 := by cases h

namespace DeductStatus

def value : DeductStatus → String
  | success => "SUCCESS"
  | lostContact => "LOST_CONTACT"
  | correctionVerified => "CORRECTION_VERIFIED"
  | correctionFailed => "CORRECTION_FAILED"
  | wrongCard => "WRONG_CARD"
  | insufficientBalance => "INSUFFICIENT_BALANCE"
  | timeout => "TIMEOUT"
  | failed => "FAILED"

def all : List DeductStatus :=
  [success, lostContact, correctionVerified, correctionFailed, wrongCard, insufficientBalance,
   timeout, failed]

/-- `DeductStatus(s)`. -/
def parse (s : String) : Option DeductStatus := all.find? fun d => d.value = s

theorem parse_value (d : DeductStatus) : parse d.value = some d := by
  cases d <;> decide

end DeductStatus

def CashPaymentRequest.payment (r : CashPaymentRequest) (operatorId : Option Id) : CashPayment where
  gateId := r.gateId
  gateOutId := r.gateOutId
  barcode := r.barcode
  plateNumber := r.plateNumber
  paidAmount := r.paidAmount
  operatorId := operatorId
  vehicleTypeId := r.vehicleTypeId

def RfidPaymentRequest.payment (r : RfidPaymentRequest) (operatorId : Option Id) : RfidPayment where
  gateId := r.gateId
  gateOutId := r.gateOutId
  cardNumber := r.cardNumber
  operatorId := operatorId

def EmoneyDeductRequest.deduct (r : EmoneyDeductRequest) (operatorId : Option Id) :
    EmoneyDeduct where
  gateId := r.gateId
  gateOutId := r.gateOutId
  barcode := r.barcode
  vehicleTypeId := r.vehicleTypeId
  operatorId := operatorId

def EmoneyResultRequest.result (r : EmoneyResultRequest) (status : DeductStatus)
    (operatorId : Option Id) : EmoneyResult where
  gateId := r.gateId
  gateOutId := r.gateOutId
  cardNumber := r.cardNumber
  status := status
  deductAmount := r.deductAmount
  balanceBefore := r.balanceBefore
  balanceAfter := r.balanceAfter
  transactionCounter := r.transactionCounter
  rawResponseHex := r.rawResponseHex
  settlementPayloadHex := r.settlementPayloadHex
  cardType := r.cardType
  cardTypeCode := r.cardTypeCode
  operatorId := operatorId

def checkIdempotency (idempotencyKey : Option String) : Api (Option PaymentResponse) :=
  match truthy idempotencyKey with
  | none => pure none
  | some key => ext (.getIdempotency key)

def storeIdempotency (idempotencyKey : Option String) (response : PaymentResponse) : Api Unit :=
  match truthy idempotencyKey with
  | none => pure ()
  | some key => ext (.setIdempotency key response)

def failedResponse (msg : String) : PaymentResponse := { success := false, message := msg }

/-- The body of the routes that answer a `ValueError` instead of failing. -/
def respond (p : Api PaymentResponse) : Api PaymentResponse :=
  exceptValueError p fun msg => pure (failedResponse msg)

def cashResponse (r : PaymentResult) : PaymentResponse where
  success := true
  message := "Payment successful. Receipt printed."
  transactionId := some r.transaction.id
  fee := some r.fee
  changeAmount := some r.changeAmount
  paymentMethod := some .cash
  receiptQueued := true

def rfidResponse (r : RfidResult) : PaymentResponse where
  success := true
  message := "RFID payment successful"
  transactionId := some r.transaction.id
  fee := some 0
  changeAmount := some 0
  paymentMethod := some .rfidMember

def armedResponse (r : PaymentResult) : PaymentResponse where
  success := true
  message := "Tempel kartu untuk pembayaran"
  transactionId := some r.transaction.id
  fee := some r.fee
  paymentMethod := some .pending

def emoneyResponse (deductAmount : Nat) (r : EmoneyOutcome) : PaymentResponse where
  success := r.success
  message := if r.success then "E-money payment processed" else "E-money payment failed"
  transactionId := some r.transaction.id
  fee := if r.success then some deductAmount else none
  paymentMethod := if r.success then some .emoney else none

/-- Answer from the cache, or do the work and remember the answer. -/
def idempotent (key : Option String) (p : Api PaymentResponse) : Api PaymentResponse := do
  match ← checkIdempotency key with
  | some cached => pure cached
  | none => respond do
    let resp ← p
    storeIdempotency key resp
    pure resp

def cashPayment (key : Option String) (operatorId : Option Id) (r : CashPaymentRequest) :
    Api PaymentResponse :=
  idempotent key do
    let result ← processCashPayment (r.payment operatorId)
    pure (cashResponse result)

def rfidPayment (key : Option String) (operatorId : Option Id) (r : RfidPaymentRequest) :
    Api PaymentResponse :=
  idempotent key do
    let result ← processRfidPayment (r.payment operatorId)
    pure (rfidResponse result)

def emoneyDeduct (operatorId : Option Id) (r : EmoneyDeductRequest) : Api PaymentResponse :=
  respond do
    let result ← processEmoneyDeduct (r.deduct operatorId)
    pure (armedResponse result)

def emoneyResult (operatorId : Option Id) (r : EmoneyResultRequest) : Api PaymentResponse :=
  match DeductStatus.parse r.status with
  | none => pure (failedResponse s!"Invalid deduct status: {r.status}")
  | some status => respond do
    let result ← processEmoneyResult (r.result status operatorId)
    pure (emoneyResponse r.deductAmount result)

def enforceBoothRateLimit (gateId : String) : Api Unit :=
  if gateId = "" then pure ()
  else do
    let allowed ← ext (.boothLimit gateId)
    if allowed then pure () else Prog.raise (.http 429)

def rfidBooth (r : RfidPaymentRequest) : Api PaymentResponse := do
  enforceBoothRateLimit r.gateId
  respond do
    let result ← processRfidPayment (r.payment none)
    pure (rfidResponse result)

def emoneyBoothResult (r : EmoneyResultRequest) : Api PaymentResponse := do
  enforceBoothRateLimit r.gateId
  emoneyResult none r

structure LookupRequest where
  barcode : Option String := none
  cardNumber : Option String := none
  plateNumber : Option String := none
  vehicleTypeId : Option Id := none

/-- The transaction found and its fee quote. -/
def lookupTransaction (r : LookupRequest) : Api (Option (ParkingTransaction × Int)) := do
  match ← findActiveTransaction r.barcode r.cardNumber r.plateNumber with
  | none => pure none
  | some tx => do
    let fee ← calculateTransactionFee tx none r.vehicleTypeId
    pure (some (tx, fee))

def calculateFee (transactionId : Id) (vehicleTypeId : Option Id) : Api Int := do
  let rows ← ext (.selectTx fun t => decide (t.id = transactionId))
  match rows.head?.filter (·.status = .active) with
  | none => Prog.raise (.http 404)
  | some tx => calculateTransactionFee tx none vehicleTypeId

end ParkIt
