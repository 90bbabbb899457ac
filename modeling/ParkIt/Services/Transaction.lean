import ParkIt.Request

/-! Creation, lookup, pricing and completion of parking transactions. -/
namespace ParkIt

open Effects Api

/-- Python truthiness of an optional text. -/
def truthy (s : Option String) : Option String := s.filter fun x => x ≠ ""

namespace Gate

def camerasOf (hw : HardwareConfig) : List Camera :=
  if hw.cameras ≠ [] then
    hw.cameras.filterMap fun c =>
      match truthy c.url with
      | some url =>
        if c.enabled.getD true then
          some { url, label := c.label, username := c.username, password := c.password,
                 authType := c.authType.getD "none" }
        else none
      | none => none
  else
    match hw.camera with
    | some c =>
      match truthy c.url with
      | some url => if c.enabled.getD false then [{ url }] else []
      | none => []
    | none => []

def getCameras (g : Gate) : List Camera := camerasOf g.hardwareConfig

end Gate

def enqueueAll : List Job → Api Unit
  | [] => pure ()
  | j :: js => do
    ext (.enqueue j)
    enqueueAll js

def snapshotJobs (gateCode : String) (transactionId : Id) (snapshotType : String)
    (cameras : List Camera) : List Job :=
  cameras.zipIdx.map fun (cam, idx) =>
    let camKey := (truthy cam.label).getD (toString idx)
    .takeSnapshot gateCode cam transactionId snapshotType
      s!"snapshot:{snapshotType}:{transactionId}:{camKey}"

def enqueueSnapshotsForGate (gateCode : String) (transactionId : Id) (snapshotType : String) :
    Api Unit := do
  match ← ext (.gateByCode gateCode) with
  | none => pure ()
  | some gate => enqueueAll (snapshotJobs gateCode transactionId snapshotType gate.getCameras)

/-- `start` and `end` delimit the shift; a shift that starts after it ends spans midnight. -/
def Shift.covers (s : Shift) (now : Int) : Bool :=
  if s.startTime ≤ s.endTime then decide (s.startTime ≤ now ∧ now ≤ s.endTime)
  else decide (s.startTime ≤ now ∨ now ≤ s.endTime)

def getCurrentShift : Api (Option Shift) := do
  let now ← ext .now
  let shifts ← ext .activeShifts
  pure ((shifts.find? (·.covers (now.instant % DateTime.microsPerDay))).or shifts.head?)

structure EntryRequest where
  barcode : Option String := none
  cardNumber : Option String := none
  plateNumber : Option String := none
  vehicleTypeId : Option Id := none
  gateInId : Option Id := none
  paymentMethod : PaymentMethod := .cash
  memberId : Option Id := none
deriving DecidableEq, Repr

def EntryRequest.row (r : EntryRequest) (entryTime : DateTime) : ParkingTransaction where
  id := 0
  barcode := r.barcode
  cardNumber := r.cardNumber
  plateNumber := r.plateNumber
  vehicleTypeId := r.vehicleTypeId
  gateInId := r.gateInId
  entryTime := entryTime
  paymentMethod := some r.paymentMethod
  memberId := r.memberId
  status := .active

/-- Snapshots of an entry, when the gate is given and exists. -/
def enqueueEntrySnapshots (gateInId : Option Id) (transactionId : Id) : Api Unit := do
  match gateInId.filter (· ≠ 0) with
  | none => pure ()
  | some gateInId =>
    match ← ext (.gate gateInId) with
    | none => pure ()
    | some gate => enqueueSnapshotsForGate gate.code transactionId "entry"

def createEntryTransaction (r : EntryRequest) : Api ParkingTransaction := do
  let now ← ext .now
  let tx ← ext (.insertTx (r.row now))
  enqueueEntrySnapshots r.gateInId tx.id
  pure tx

/-- The `WHERE` clause of the lookup: the most specific criterion that is given. -/
def activeFilter (barcode cardNumber plateNumber : Option String) :
    Option (ParkingTransaction → Bool) :=
  match truthy barcode with
  | some b => some fun t => decide (t.status = .active ∧ t.barcode = some b)
  | none =>
    match truthy cardNumber with
    | some c => some fun t => decide (t.status = .active ∧ t.cardNumber = some c)
    | none =>
      (truthy plateNumber).map fun p t =>
        decide (t.status = .active ∧ t.plateNumber = some p)

/-- `ORDER BY entry_time DESC`, first row. -/
def mostRecent (rows : List ParkingTransaction) : Option ParkingTransaction :=
  (rows.insertionSort fun a b => b.entryTime.instant ≤ a.entryTime.instant).head?

def findActiveTransaction (barcode cardNumber plateNumber : Option String)
    (forUpdate : Bool := false) : Api (Option ParkingTransaction) := do
  match activeFilter barcode cardNumber plateNumber with
  | none => pure none
  | some f =>
    let rows ← if forUpdate then lock f else ext (.selectTx f)
    pure (mostRecent rows)

def VehicleType.rate (vt : VehicleType) : VehicleTypeRate where
  hourlyRate := vt.hourlyRate
  dailyCap := vt.maxDailyCap
  baseTariff := vt.baseTariff
  overnightMode := vt.overnightMode
  overnightTariff := vt.overnightTariff
  lostTicketPenalty := vt.lostTicketPenalty
  isProgressive := vt.isProgressive

def VehicleType.tariffConfig (vt : VehicleType) : TariffConfig where
  vehicleTypes := [(vt.code, vt.rate)]
  gracePeriodMinutes := 15

def getVehicleTypeTariffConfig (vehicleTypeId : Option Id) :
    Api (TariffConfig × Option String) := do
  match vehicleTypeId with
  | none => pure (defaultTariffConfig, none)
  | some i =>
    match ← ext (.vehicleType i) with
    | none => pure (defaultTariffConfig, none)
    | some vt => pure (vt.tariffConfig, some vt.code)

def calculateTransactionFee (transaction : ParkingTransaction)
    (exitTime : Option DateTime := none) (vehicleTypeIdOverride : Option Id := none) :
    Api Int := do
  let exitTime ← match exitTime with
    | some e => pure e
    | none => ext .now
  let effective := vehicleTypeIdOverride.or transaction.vehicleTypeId
  let (config, code) ← getVehicleTypeTariffConfig effective
  let code := code.getD "MOBIL"
  let exitTime :=
    if exitTime.instant < transaction.entryTime.instant then transaction.entryTime else exitTime
  match calculateTariff transaction.entryTime exitTime code config transaction.isLostTicket with
  | .ok fee => pure fee
  | .error msg => valueError msg

def completeExitTransaction (transaction : ParkingTransaction) (c : ExitColumns) :
    Api ParkingTransaction := do
  let now ← ext .now
  update transaction.id (.exit now c)
  pure ((TxUpdate.exit now c).apply transaction)

end ParkIt
