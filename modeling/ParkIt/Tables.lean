import ParkIt.Tariff
import ParkIt.Lib.RowLock.Model
import Mathlib.Data.List.Nodup

/-! The tables of the payment services and the constraints the database enforces on them. -/
namespace ParkIt

abbrev Id := Int

inductive TxStatus where
  | active
  | completed
deriving DecidableEq, Repr

inductive PaymentMethod where
  | cash
  | rfidMember
  | emoney
  | pending
deriving DecidableEq, Repr

/-- The e-money deduct results of the shared event schema. -/
inductive DeductStatus where
  | success
  | lostContact
  | correctionVerified
  | correctionFailed
  | wrongCard
  | insufficientBalance
  | timeout
  | failed
deriving DecidableEq, Repr

structure ParkingTransaction where
  id : Id
  barcode : Option String := none
  cardNumber : Option String := none
  plateNumber : Option String := none
  vehicleTypeId : Option Id := none
  gateInId : Option Id := none
  gateOutId : Option Id := none
  entryTime : DateTime
  exitTime : Option DateTime := none
  paymentMethod : Option PaymentMethod := none
  fee : Option Int := none
  paidAmount : Option Int := none
  memberId : Option Id := none
  emoneyTransactionId : Option Id := none
  status : TxStatus := .active
  shiftId : Option Id := none
  operatorId : Option Id := none
  isLostTicket : Bool := false
deriving DecidableEq, Repr

structure EmoneyTransaction where
  id : Id
  parkingTransactionId : Option Id := none
  emoneyReaderId : Option Id := none
  cardNumber : String
  cardType : Option String := none
  cardTypeCode : Option Int := none
  amountDeducted : Int
  balanceBefore : Option Int := none
  balanceAfter : Option Int := none
  transactionCounter : Option Int := none
  status : DeductStatus
  rawResponseHex : Option String := none
  settlementPayloadHex : Option String := none
  settlementBatchId : Option Id := none
  bankResponseStatus : Option String := none
  bankResponseAt : Option Int := none
  createdAt : Int := 0
deriving DecidableEq, Repr

def ParkingTransaction.stored (t : ParkingTransaction) (id : Id) : ParkingTransaction :=
  { t with id }

/-- The row as it is stored: the key comes from the sequence, the time from the server. -/
def EmoneyTransaction.stored (e : EmoneyTransaction) (id : Id) (createdAt : Int) :
    EmoneyTransaction :=
  { e with id, createdAt }

structure VehicleType where
  id : Id
  code : String
  baseTariff : Int := 0
  hourlyRate : Int := 0
  maxDailyCap : Int := 0
  lostTicketPenalty : Int := 0
  overnightMode : String := "midnight"
  overnightTariff : Int := 0
  isProgressive : Bool := false
deriving DecidableEq, Repr

structure Member where
  id : Id
  cardNumber : String
  isActive : Bool := true
deriving DecidableEq, Repr

/-- Start and end are times of day in microseconds. -/
structure Shift where
  id : Id
  startTime : Int
  endTime : Int
  isActive : Bool := true
deriving DecidableEq, Repr

structure CameraConfig where
  url : Option String := none
  label : Option String := none
  username : Option String := none
  password : Option String := none
  authType : Option String := none
  enabled : Option Bool := none
deriving DecidableEq, Repr

/-- The keys of `hardware_config` that the payment services read. -/
structure HardwareConfig where
  receiptPrinterEnabled : Bool := false
  cameras : List CameraConfig := []
  camera : Option CameraConfig := none
deriving DecidableEq, Repr

structure Gate where
  id : Id
  code : String
  hardwareConfig : HardwareConfig := {}
deriving DecidableEq, Repr

structure EmoneyReader where
  id : Id
  mid : Option String := none
  tid : Option String := none
deriving DecidableEq, Repr

structure EmoneySettlement where
  id : Id
  filename : String
  filePath : String
  batchDate : Int
  batchNumber : Int
  totalTransactions : Nat
  totalAmount : Int
  status : String
  uploadedAt : Option Int := none
  responseReceivedAt : Option Int := none
  responseExtension : Option String := none
  fileContentHash : String
deriving DecidableEq, Repr

structure Db where
  parking : List ParkingTransaction := []
  emoney : List EmoneyTransaction := []
  vehicleTypes : List VehicleType := []
  members : List Member := []
  shifts : List Shift := []
  gates : List Gate := []
  users : List Id := []
  readers : List EmoneyReader := []
  settlements : List EmoneySettlement := []
deriving DecidableEq, Repr

/-- The columns that the completion of an exit writes with the status and the exit time. -/
structure ExitColumns where
  gateOutId : Id
  paymentMethod : PaymentMethod
  fee : Int
  paidAmount : Option Int := none
  memberId : Option Id := none
  emoneyTransactionId : Option Id := none
  operatorId : Option Id := none
  shiftId : Option Id := none
deriving DecidableEq, Repr

/-- The updates of a parking row that the services flush. -/
inductive TxUpdate where
  | vehicleTypeId (v : Id)
  | cardNumber (c : String)
  | exit (exitTime : DateTime) (c : ExitColumns)
deriving DecidableEq, Repr

def TxUpdate.apply : TxUpdate → ParkingTransaction → ParkingTransaction
  | .vehicleTypeId v, t => { t with vehicleTypeId := some v }
  | .cardNumber c, t => { t with cardNumber := some c }
  | .exit exitTime c, t =>
    { t with
      gateOutId := some c.gateOutId
      exitTime := some exitTime
      paymentMethod := some c.paymentMethod
      fee := some c.fee
      paidAmount := c.paidAmount
      memberId := c.memberId
      emoneyTransactionId := c.emoneyTransactionId
      operatorId := c.operatorId
      shiftId := c.shiftId
      status := .completed }

@[simp] theorem TxUpdate.apply_id (u : TxUpdate) (t : ParkingTransaction) : (u.apply t).id = t.id := by
  cases u <;> rfl

/-- The identity of a stay is not touched by any flush of the services. -/
theorem TxUpdate.apply_entry (u : TxUpdate) (t : ParkingTransaction) :
    (u.apply t).barcode = t.barcode ∧ (u.apply t).entryTime = t.entryTime ∧
    (u.apply t).gateInId = t.gateInId ∧ (u.apply t).plateNumber = t.plateNumber := by
  cases u <;> exact ⟨rfl, rfl, rfl, rfl⟩

def txSchema : RowLock.Schema Id ParkingTransaction TxUpdate where
  key := ParkingTransaction.id
  ap := TxUpdate.apply
  key_ap := TxUpdate.apply_id

def int4Ok (n : Int) : Bool := decide (-2147483648 ≤ n ∧ n ≤ 2147483647)

def varcharOk (n : Nat) (s : String) : Bool :=
  decide (s.length ≤ n) && !s.toList.contains '\x00'

def refOk (ids : List Id) (r : Option Id) : Bool := r.all fun i => ids.contains i

/-- Two ACTIVE rows that share a card or a barcode break `uq_active_card` or `uq_active_barcode`. -/
def conflicts (s t : ParkingTransaction) : Bool :=
  decide (s.id ≠ t.id ∧ s.status = .active ∧ t.status = .active ∧
    ((t.cardNumber ≠ none ∧ s.cardNumber = t.cardNumber) ∨
      (t.barcode ≠ none ∧ s.barcode = t.barcode)))

namespace Db
variable (db : Db)

/-- Column types, foreign keys and the partial unique indexes of `parking_transactions`. -/
def acceptsTx (t : ParkingTransaction) : Bool :=
  t.barcode.all (varcharOk 50) && t.cardNumber.all (varcharOk 32) &&
  t.plateNumber.all (varcharOk 20) && t.fee.all int4Ok && t.paidAmount.all int4Ok &&
  refOk (db.vehicleTypes.map (·.id)) t.vehicleTypeId &&
  refOk (db.gates.map (·.id)) t.gateInId && refOk (db.gates.map (·.id)) t.gateOutId &&
  refOk (db.members.map (·.id)) t.memberId && refOk (db.shifts.map (·.id)) t.shiftId &&
  refOk db.users t.operatorId && db.parking.all fun s => !conflicts s t

/-- Column types and foreign keys of `emoney_transactions`. -/
def acceptsEmoney (e : EmoneyTransaction) : Bool :=
  varcharOk 32 e.cardNumber && e.cardType.all (varcharOk 50) && e.cardTypeCode.all int4Ok &&
  int4Ok e.amountDeducted && e.balanceBefore.all int4Ok && e.balanceAfter.all int4Ok &&
  e.transactionCounter.all int4Ok &&
  e.rawResponseHex.all (fun s => !s.toList.contains '\x00') &&
  e.settlementPayloadHex.all (fun s => !s.toList.contains '\x00') &&
  refOk (db.parking.map (·.id)) e.parkingTransactionId &&
  refOk (db.readers.map (·.id)) e.emoneyReaderId &&
  refOk (db.settlements.map (·.id)) e.settlementBatchId

def findTx (i : Id) : Option ParkingTransaction := db.parking.find? fun t => t.id = i

def addTx (t : ParkingTransaction) : Db := { db with parking := db.parking ++ [t] }

def addEmoney (e : EmoneyTransaction) : Db := { db with emoney := db.emoney ++ [e] }

def setTx (i : Id) (u : TxUpdate) : Db :=
  { db with parking := db.parking.map fun t => if t.id = i then u.apply t else t }

section SetTx
variable {db : Db} {i : Id} {u : TxUpdate} {s t : ParkingTransaction}

theorem mem_setTx : s ∈ (db.setTx i u).parking ↔
    ∃ t ∈ db.parking, (if t.id = i then u.apply t else t) = s := List.mem_map

@[simp] theorem setTx_ids :
    (db.setTx i u).parking.map (·.id) = db.parking.map (·.id) := by
  simp only [setTx, List.map_map]
  refine List.map_congr_left fun t _ => ?_
  by_cases h : t.id = i <;> simp [h]

theorem eq_of_id (hn : (db.parking.map (·.id)).Nodup) (hs : s ∈ db.parking) (ht : t ∈ db.parking)
    (h : s.id = t.id) : s = t := List.inj_on_of_nodup_map hn hs ht h

/-- An update by key touches one row. -/
theorem mem_setTx_cases (hn : (db.parking.map (·.id)).Nodup) (ht : t ∈ db.parking)
    (h : s ∈ (db.setTx t.id u).parking) : s = u.apply t ∨ s ∈ db.parking ∧ s.id ≠ t.id := by
  obtain ⟨q, hq, rfl⟩ := mem_setTx.mp h
  by_cases he : q.id = t.id
  · rw [if_pos he, eq_of_id hn hq ht he]
    exact Or.inl rfl
  · rw [if_neg he]
    exact Or.inr ⟨hq, he⟩

theorem mem_setTx_self (ht : t ∈ db.parking) : u.apply t ∈ (db.setTx t.id u).parking :=
  mem_setTx.mpr ⟨t, ht, if_pos rfl⟩

end SetTx
end Db
end ParkIt
