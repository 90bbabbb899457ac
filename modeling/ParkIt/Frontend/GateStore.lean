import ParkIt.Lib.Path
import ParkIt.Tables

/-! The gate store of the POS page, and the event loop that calls its actions. -/
namespace ParkIt.Frontend

open Transition

inductive PaymentState where
  | idle
  | vehiclePresent
  | waitingPayment
  | timeoutAlert
deriving DecidableEq, Repr

inductive EmoneyPaymentState where
  | idle
  | processing
  | success
  | lostContact
  | wrongCard
  | insufficient
  | failed
deriving DecidableEq, Repr

/-- `{ ...res.transaction, tariff: res.fee }`. -/
structure ShownTransaction where
  row : ParkingTransaction
  tariff : Option Int := none
deriving DecidableEq, Repr

structure GateStore where
  currentTransaction : Option ShownTransaction := none
  paymentState : PaymentState := .idle
  emoneyPaymentState : EmoneyPaymentState := .idle
  wsConnected : Bool := false
  boothConnected : Bool := false
  cameraSnapshot : Option String := none
  waitingSeconds : Int := 0
  selectedGateOutId : Option Id := none
  alertMessage : Option String := none
  isLoading : Bool := false
  awaitingGateOpen : Bool := false
  durationSeconds : Int := 0
  changeAmount : Int := 0
  /-- Is there a `durationInterval`? -/
  durationInterval : Bool := false
deriving DecidableEq, Repr

namespace GateStore
variable (s : GateStore) (now : Int)

def stopDurationTimer : GateStore := { s with durationInterval := false, durationSeconds := 0 }

/-- `now` counts milliseconds. -/
def durationSince (entryTime : DateTime) : Int := (now - entryTime.instant / 1000) / 1000

def startDurationTimer (entryTime : DateTime) : GateStore :=
  { s with durationInterval := true, durationSeconds := durationSince now entryTime }

/-- The callback of the interval. -/
def tick : GateStore :=
  match s.durationInterval, s.currentTransaction with
  | true, some t => { s with durationSeconds := durationSince now t.row.entryTime }
  | _, _ => s

def setTransaction : Option ShownTransaction → GateStore
  | none => { s with currentTransaction := none }
  | some t => { s with currentTransaction := some t }.startDurationTimer now t.row.entryTime

def clearTransaction : GateStore :=
  { s with
    currentTransaction := none
    paymentState := .idle
    emoneyPaymentState := .idle
    cameraSnapshot := none
    waitingSeconds := 0
    alertMessage := none
    awaitingGateOpen := false
    changeAmount := 0 }.stopDurationTimer

/-- The id of the transaction on the screen. -/
def shown : Option Id := s.currentTransaction.map (·.row.id)

end GateStore

/-- The actions that wait for an answer of the API. -/
inductive Action where
  | lookupTransaction (barcode cardNumber plateNumber : Option String)
  | confirmCashPayment (gateId : String) (gateOutId : Id) (paidAmount : Int)
      (vehicleTypeId : Option Id)
  | openGate (gateId : Id)
  | processRfidPayment (gateId : String) (gateOutId : Id) (cardNumber : String)
  | startEmoneyDeduct (gateId : String) (gateOutId : Id) (barcode : String)
      (vehicleTypeId : Option Id)
  | confirmEmoneyPayment (gateId : String) (gateOutId : Id) (cardNumber : String)
      (deductAmount balanceBefore balanceAfter transactionCounter : Int) (rawResponseHex : String)
deriving DecidableEq, Repr

inductive Request where
  | lookup (barcode cardNumber plateNumber : Option String)
  | cash (gateId : String) (gateOutId : Id) (barcode plateNumber : Option String) (paidAmount : Int)
      (vehicleTypeId : Option Id)
  | openGate (gateId : Id)
  | rfid (gateId : String) (gateOutId : Id) (cardNumber : String)
  | emoneyDeduct (gateId : String) (gateOutId : Id) (barcode : String) (vehicleTypeId : Option Id)
  | emoneyResult (gateId : String) (gateOutId : Id) (cardNumber : String)
      (deductAmount balanceBefore balanceAfter transactionCounter : Int) (rawResponseHex : String)
deriving DecidableEq, Repr

def Request.isLookup : Request → Bool
  | .lookup _ _ _ => true
  | _ => false

/-- The request of an action; a cash payment names what is on the screen. -/
def Action.request (s : GateStore) : Action → Request
  | .lookupTransaction barcode cardNumber plateNumber => .lookup barcode cardNumber plateNumber
  | .confirmCashPayment gateId gateOutId paidAmount vehicleTypeId =>
    .cash gateId gateOutId (s.currentTransaction.bind (·.row.barcode))
      (s.currentTransaction.bind (·.row.plateNumber)) paidAmount vehicleTypeId
  | .openGate gateId => .openGate gateId
  | .processRfidPayment gateId gateOutId cardNumber => .rfid gateId gateOutId cardNumber
  | .startEmoneyDeduct gateId gateOutId barcode vehicleTypeId =>
    .emoneyDeduct gateId gateOutId barcode vehicleTypeId
  | .confirmEmoneyPayment gateId gateOutId cardNumber deductAmount balanceBefore balanceAfter
      transactionCounter rawResponseHex =>
    .emoneyResult gateId gateOutId cardNumber deductAmount balanceBefore balanceAfter
      transactionCounter rawResponseHex

/-- What `fetchApi` comes back with; a payment names the transaction that has been paid. -/
inductive Answer where
  | lookup (found : Bool) (transaction : Option ParkingTransaction) (fee : Option Int)
  | payment (success : Bool) (transactionId : Option Id) (changeAmount : Option Int)
  | control (success : Bool)
  | error
deriving DecidableEq, Repr

namespace Answer

def success : Answer → Bool
  | payment success _ _ | control success => success
  | _ => false

def transactionId : Answer → Option Id
  | payment _ transactionId _ => transactionId
  | _ => none

/-- `res.change_amount || 0`. -/
def change : Answer → Int
  | payment _ _ changeAmount => changeAmount.getD 0
  | _ => 0

/-- `res.found && res.transaction`. -/
def transaction : Answer → Option ShownTransaction
  | lookup true (some row) fee => some { row, tariff := fee }
  | _ => none

end Answer

/-- What an action does with its answer. -/
def GateStore.settle (s : GateStore) (now : Int) (r : Request) (a : Answer) : GateStore :=
  let s := match r with
    | .lookup _ _ _ =>
      match a.transaction with
      | some t =>
        { ({ s with currentTransaction := some t }.startDurationTimer now t.row.entryTime) with
          paymentState := .waitingPayment }
      | none => s
    | .cash _ _ _ _ _ _ =>
      if a.success then { s with changeAmount := a.change, awaitingGateOpen := true } else s
    | .openGate _ => if a.success then { s with awaitingGateOpen := false }.clearTransaction else s
    | .rfid _ _ _ | .emoneyResult _ _ _ _ _ _ _ _ => if a.success then s.clearTransaction else s
    | .emoneyDeduct _ _ _ _ =>
      { s with emoneyPaymentState := if a.success then .processing else .failed }
  { s with isLoading := false }

inductive WsEvent where
  | vehicleDetected (cardNumber : Option String)
  | gateClosed
  | timeoutAlert (waitingSeconds : Option Int)
  | vehiclePassed
  | vehicleLeft
  | deductResult (status : String)
  | cameraSnapshot (snapshotType : String) (snapshotUrl : Option String)
  /-- The other types, which change nothing in the store. -/
  | other (type : String)
deriving DecidableEq, Repr

inductive Setter where
  | paymentState (x : PaymentState)
  | emoneyState (x : EmoneyPaymentState)
  | wsConnected (connected : Bool)
  | boothConnected (connected : Bool)
  | cameraSnapshot (url : Option String)
  | waitingSeconds (seconds : Int)
  | selectedGateOutId (id : Option Id)
  | alertMessage (message : Option String)
  | startDurationTimer (entryTime : DateTime)
  | stopDurationTimer
deriving DecidableEq, Repr

def Setter.apply (s : GateStore) (now : Int) : Setter → GateStore
  | .paymentState x => { s with paymentState := x }
  | .emoneyState x => { s with emoneyPaymentState := x }
  | .wsConnected connected => { s with wsConnected := connected }
  | .boothConnected connected => { s with boothConnected := connected }
  | .cameraSnapshot url => { s with cameraSnapshot := url }
  | .waitingSeconds seconds => { s with waitingSeconds := seconds }
  | .selectedGateOutId id => { s with selectedGateOutId := id }
  | .alertMessage message => { s with alertMessage := message }
  | .startDurationTimer entryTime => s.startDurationTimer now entryTime
  | .stopDurationTimer => s.stopDurationTimer

/-- A request on its way. The store does not keep what was on the screen when it began. -/
structure Fetch where
  number : Nat
  request : Request
  shown : Option Id
deriving DecidableEq, Repr

/-- A timer of three seconds, likewise. -/
structure Timer where
  number : Nat
  shown : Option Id
deriving DecidableEq, Repr

structure Page where
  store : GateStore := {}
  now : Int := 0
  fetches : List Fetch := []
  nextFetch : Nat := 0
  timers : List Timer := []
  nextTimer : Nat := 0
  /-- The lookup that has begun last; the store does not keep it either. -/
  latestLookup : Option Nat := none
deriving DecidableEq, Repr

/-- Callbacks of the event loop. Answers and timers come in any order. -/
inductive Event where
  | setTransaction (t : Option ShownTransaction)
  | clearTransaction
  | set (x : Setter)
  | call (a : Action)
  | handleWsEvent (e : WsEvent)
  | answer (number : Nat) (a : Answer)
  | timer (number : Nat)
  | tick
  | wait (milliseconds : Nat)
deriving DecidableEq, Repr

namespace Page
variable (s : Page)

def begin (a : Action) : Page :=
  let r := a.request s.store
  { s with
    store := { s.store with isLoading := true }
    fetches := s.fetches ++ [⟨s.nextFetch, r, s.store.shown⟩]
    nextFetch := s.nextFetch + 1
    latestLookup := if r.isLookup then some s.nextFetch else s.latestLookup }

def startTimer : Page :=
  { s with timers := s.timers ++ [⟨s.nextTimer, s.store.shown⟩], nextTimer := s.nextTimer + 1 }

def handleWsEvent : WsEvent → Page
  | .vehicleDetected cardNumber =>
    let s := { s with store.paymentState := .vehiclePresent }
    match cardNumber.filter (· ≠ "") with
    | some card => s.begin (.lookupTransaction none (some card) none)
    | none => s
  | .gateClosed =>
    { s with store := { s.store with paymentState := .waitingPayment, waitingSeconds := 0 } }
  | .timeoutAlert waitingSeconds =>
    { s with store :=
      { s.store with
        paymentState := .timeoutAlert
        alertMessage := some s!"Kendaraan menunggu selama {waitingSeconds.getD 0} detik" } }
  | .vehiclePassed | .vehicleLeft => { s with store := s.store.clearTransaction }
  | .deductResult status =>
    if status = "SUCCESS" then { s with store.emoneyPaymentState := .success }.startTimer
    else if status = "LOST_CONTACT" then { s with store.emoneyPaymentState := .lostContact }
    else if status = "WRONG_CARD" then { s with store.emoneyPaymentState := .wrongCard }
    else if status = "INSUFFICIENT_BALANCE" then
      { s with store.emoneyPaymentState := .insufficient }
    else { s with store.emoneyPaymentState := .failed }
  | .cameraSnapshot snapshotType snapshotUrl =>
    if snapshotType = "exit" then { s with store.cameraSnapshot := snapshotUrl } else s
  | .other _ => s

def fetch? (number : Nat) : Option Fetch := s.fetches.find? (·.number = number)

def timer? (number : Nat) : Option Timer := s.timers.find? (·.number = number)

def next : Event → Page
  | .setTransaction t => { s with store := s.store.setTransaction s.now t }
  | .clearTransaction => { s with store := s.store.clearTransaction }
  | .set x => { s with store := x.apply s.store s.now }
  | .call a => s.begin a
  | .handleWsEvent e => s.handleWsEvent e
  | .answer number a =>
    match s.fetch? number with
    | some f =>
      { s with
        store := s.store.settle s.now f.request a
        fetches := s.fetches.filter (·.number ≠ number) }
    | none => s
  | .timer number =>
    match s.timer? number with
    | some _ =>
      { s with
        store := s.store.clearTransaction
        timers := s.timers.filter (·.number ≠ number) }
    | none => s
  | .tick => { s with store := s.store.tick s.now }
  | .wait milliseconds => { s with now := s.now + milliseconds }

end Page

abbrev PageStep (s : Page) (e : Event) (s' : Page) : Prop := s' = s.next e

end ParkIt.Frontend
