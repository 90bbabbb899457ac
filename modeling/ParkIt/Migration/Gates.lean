import ParkIt.GateConfig.Schemas
import ParkIt.Lib.Serial
import ParkIt.Tables

/-! The migrations from one table of entry gates and one of exit gates to one table of gates. -/
namespace ParkIt.Migration

open GateConfig Serial

/-- The columns that both of the old tables have. -/
structure OldGate where
  id : Id
  name : String
  code : String
  areaParkirId : Option Id := none
  protocol : String := "compass"
  controllerHost : Option String := none
  controllerPort : Option Int := none
  hasCloseSensor : Bool := false
  gateCloseDurationMs : Int := 5000
  relayMode : String := "SINGLE"
  openCommand : Option String := none
  closeCommand : Option String := none
  pulseDurationMs : Option Int := none
  gateOpenTimeoutS : Option Int := none
  sensorStuckS : Option Int := none
  audioModule : Option String := none
  ledDisplay : Option String := none
  printerName : Option String := none
  printerType : Option String := none
  printerIpAddress : Option String := none
  printerDevice : Option String := none
  cameraUrl : Option String := none
  cameraName : Option String := none
  isActive : Bool := true
  isOnline : Bool := false
  lastHeartbeat : Option String := none
deriving DecidableEq, Repr

structure GateIn extends OldGate where
  gateMode : String
  emoneyMinimumBalance : Int
  printDecisionTimeoutSeconds : Int
deriving DecidableEq, Repr

structure GateOut extends OldGate where
  emoneyReaderId : Option Id := none
  paymentTimeoutSeconds : Int
deriving DecidableEq, Repr

inductive Direction where
  | IN
  | OUT
deriving DecidableEq, Repr

structure Gate where
  id : Id
  name : String
  code : String
  direction : Direction
  areaParkirId : Option Id := none
  posId : Option Id := none
  protocol : String := "compass"
  controllerHost : Option String := none
  controllerPort : Option Int := none
  controllerDevice : Option String := none
  controllerBaudrate : Option Int := none
  hasCloseSensor : Bool := false
  gateCloseDurationMs : Int := 5000
  relayMode : String := "SINGLE"
  gateOpenTimeoutS : Option Int := none
  sensorStuckS : Option Int := none
  hardwareConfig : Json := .obj []
  isActive : Bool := true
  isOnline : Bool := false
  lastHeartbeat : Option String := none

structure Pos where
  id : Id
  name : String
  code : String
  ipAddress : Option String := none
  isActive : Bool := true
deriving DecidableEq, Repr

structure AbandonedVehicleLog where
  id : Id
  gateOutId : Id
  parkingTransactionId : Option Id := none
deriving DecidableEq, Repr

structure Db where
  gateIns : List GateIn := []
  gateOuts : List GateOut := []
  gates : Table Gate := {}
  pos : Table Pos := {}
  parking : List ParkingTransaction := []
  abandoned : List AbandonedVehicleLog := []

def gateColumns : Columns String Gate := ⟨Gate.id, Gate.code⟩

def posColumns : Columns String Pos := ⟨Pos.id, Pos.code⟩

section Config

def text (s : Option String) : Json := (s.map Json.str).getD .null

def number (n : Option Int) : Json := (n.map fun n => Json.num n).getD .null

/-- `CASE WHEN … IS NOT NULL THEN jsonb_build_object('enabled', true, …) ELSE '{}' END`. -/
def peripheral (there : Option String) (o : List (String × Json)) : Json :=
  .obj (if there.isSome then ("enabled", .bool true) :: o else [])

namespace OldGate
variable (g : OldGate)

def printer : Json :=
  peripheral g.printerName
    [("printer_name", text g.printerName), ("printer_type", text g.printerType),
     ("printer_ip_address", text g.printerIpAddress), ("printer_device", text g.printerDevice)]

def camera : Json :=
  peripheral g.cameraUrl [("camera_url", text g.cameraUrl), ("camera_name", text g.cameraName)]

def audio : Json := peripheral g.audioModule [("module", text g.audioModule)]

def led : Json := peripheral g.ledDisplay [("module", text g.ledDisplay)]

/-- The columns that are copied as they are. -/
def copied (direction : Direction) (posId : Option Id) (hardwareConfig : Json) (id : Id) : Gate where
  id := id
  name := g.name
  code := g.code
  direction := direction
  areaParkirId := g.areaParkirId
  posId := posId
  protocol := g.protocol
  controllerHost := g.controllerHost
  controllerPort := g.controllerPort
  hasCloseSensor := g.hasCloseSensor
  gateCloseDurationMs := g.gateCloseDurationMs
  relayMode := g.relayMode
  gateOpenTimeoutS := g.gateOpenTimeoutS
  sensorStuckS := g.sensorStuckS
  hardwareConfig := hardwareConfig
  isActive := g.isActive
  isOnline := g.isOnline
  lastHeartbeat := g.lastHeartbeat

def draft (direction : Direction) (posId : Option Id) (hardwareConfig : Json) :
    Draft gateColumns where
  make := g.copied direction posId hardwareConfig
  code := g.code
  id_make _ := rfl
  code_make _ := rfl

end OldGate

def GateIn.hardwareConfig (g : GateIn) : Json :=
  .obj
    [("gate_mode", .str g.gateMode),
     ("emoney_minimum_balance", .num g.emoneyMinimumBalance),
     ("print_decision_timeout_seconds", .num g.printDecisionTimeoutSeconds),
     ("open_command", text g.openCommand),
     ("close_command", text g.closeCommand),
     ("pulse_duration_ms", number g.pulseDurationMs),
     ("ticket_printer", g.printer), ("camera", g.camera), ("audio", g.audio), ("led", g.led)]

def GateOut.hardwareConfig (g : GateOut) : Json :=
  .obj
    [("payment_timeout_seconds", .num g.paymentTimeoutSeconds),
     ("open_command", text g.openCommand),
     ("close_command", text g.closeCommand),
     ("pulse_duration_ms", number g.pulseDurationMs),
     ("emoney_reader_id", number g.emoneyReaderId),
     ("receipt_printer", g.printer), ("camera", g.camera), ("audio", g.audio), ("led", g.led)]

end Config

section Upgrades

def GateIn.draft (g : GateIn) : Draft gateColumns := g.toOldGate.draft .IN none g.hardwareConfig

def GateOut.draft (g : GateOut) (posId : Option Id) : Draft gateColumns :=
  g.toOldGate.draft .OUT posId g.hardwareConfig

def GateOut.posCode (g : GateOut) : String := g.code ++ "_POS"

/-- The booth of an exit gate, for a code of 20 and a name of 100 characters at most. -/
def GateOut.posDraft (g : GateOut) : Draft posColumns where
  make id := { id, name := g.name ++ " Booth", code := g.posCode, isActive := g.isActive }
  code := g.posCode
  fits := varcharOk 100 (g.name ++ " Booth") && varcharOk 20 g.posCode
  id_make _ := rfl
  code_make _ := rfl

def posOf (pos : Table Pos) (g : GateOut) : Option Id :=
  (pos.rows.find? (·.code = g.posCode)).map (·.id)

/-- `upgrade` of `2026_04_27_unified_gate_and_pos`: the tables `gates` and `pos` are made, and
filled from the old ones. -/
def unifyGates (db : Db) : Option Db := do
  let gates ← ({} : Table Gate).insertAll (db.gateIns.map GateIn.draft)
  let pos ← ({} : Table Pos).insertAll (db.gateOuts.map GateOut.posDraft)
  let booths := db.gateOuts.filter fun g => (posOf pos g).isSome
  let gates ← gates.insertAll (booths.map fun g => g.draft (posOf pos g))
  some { db with gates, pos }

/-- `UPDATE … SET ref = g.id FROM gates g WHERE ref IS NOT NULL AND g.direction = …
AND g.code = (SELECT code FROM … WHERE id = ref)`. -/
def remapped (gates : List Gate) (direction : Direction) (codeOf : Id → Option String) (ref : Id) :
    Id :=
  match codeOf ref with
  | none => ref
  | some code =>
    ((gates.find? fun g => g.direction = direction ∧ g.code = code).map (·.id)).getD ref

/-- The foreign key to the old table is still there, and looks at the values that change. -/
def keyAllows (ids : List Id) (before after : Id) : Bool :=
  decide (after = before) || ids.contains after

namespace Db
variable (db : Db)

def inCode (id : Id) : Option String := (db.gateIns.find? (·.id = id)).map (·.code)

def outCode (id : Id) : Option String := (db.gateOuts.find? (·.id = id)).map (·.code)

def newIn (ref : Id) : Id := remapped db.gates.rows .IN db.inCode ref

def newOut (ref : Id) : Id := remapped db.gates.rows .OUT db.outCode ref

def inAllowed (ref : Id) : Bool := keyAllows (db.gateIns.map (·.id)) ref (db.newIn ref)

def outAllowed (ref : Id) : Bool := keyAllows (db.gateOuts.map (·.id)) ref (db.newOut ref)

/-- The three updates; each of them has to pass the foreign key of its column. -/
def remapReferences : Option Db :=
  if (∀ t ∈ db.parking, t.gateInId.all db.inAllowed) ∧
      (∀ t ∈ db.parking, t.gateOutId.all db.outAllowed) ∧
      ∀ l ∈ db.abandoned, db.outAllowed l.gateOutId then
    some { db with
      parking := db.parking.map fun t =>
        { t with gateInId := t.gateInId.map db.newIn, gateOutId := t.gateOutId.map db.newOut }
      abandoned := db.abandoned.map fun l => { l with gateOutId := db.newOut l.gateOutId } }
  else none

/-- What the new foreign keys ask for. -/
def referencesGates : Prop :=
  (∀ t ∈ db.parking, refOk (db.gates.ids gateColumns) t.gateInId ∧
      refOk (db.gates.ids gateColumns) t.gateOutId) ∧
    ∀ l ∈ db.abandoned, l.gateOutId ∈ db.gates.ids gateColumns

instance : Decidable db.referencesGates := inferInstanceAs (Decidable (_ ∧ _))

end Db

/-- `upgrade` of `f0bd4bac1599`: what is missing is filled in, the references are set to the new
table, and the old ones are dropped. -/
def dropOldTables (db : Db) : Option Db := do
  let gates ← db.gates.offerAll (db.gateIns.map GateIn.draft)
  let missing := db.gateOuts.filter fun g => g.posCode ∉ db.pos.codes posColumns
  let pos ← db.pos.offerAll (missing.map GateOut.posDraft)
  let gates ← gates.offerAll (db.gateOuts.map fun g => g.draft (posOf pos g))
  let db ← { db with gates, pos }.remapReferences
  if db.referencesGates then some { db with gateIns := [], gateOuts := [] } else none

end Upgrades

section Daemon

/-- The dict that the daemon of a gate is started with. -/
structure DaemonConfig where
  gate : Gate
  hardwareConfig : Schemas.Obj Json
  gateMode : Json
  emoneyMinimumBalance : Json
  printDecisionTimeoutSeconds : Json
  paymentTimeoutSeconds : Json
  openCommand : Json
  closeCommand : Json
  pulseDurationMs : Json

/-- `_build_config`, once the row has been found. -/
def buildConfig (gate : Gate) : DaemonConfig :=
  let hw := gate.hardwareConfig.orEmpty
  { gate
    hardwareConfig := hw
    gateMode := (hw.get "gate_mode").getD (.str "CASH")
    emoneyMinimumBalance := (hw.get "emoney_minimum_balance").getD (.num 10000)
    printDecisionTimeoutSeconds := (hw.get "print_decision_timeout_seconds").getD (.num 10)
    paymentTimeoutSeconds := (hw.get "payment_timeout_seconds").getD (.num 120)
    openCommand := (hw.get "open_command").getD .null
    closeCommand := (hw.get "close_command").getD .null
    pulseDurationMs := (hw.get "pulse_duration_ms").getD .null }

/-- The direction decides whether a daemon runs. -/
def daemonFor (gates : List Gate) (code : String) : Option (Option DaemonConfig) :=
  (gates.find? (·.code = code)).map fun gate =>
    if gate.direction = .IN then some (buildConfig gate) else none

end Daemon
end ParkIt.Migration
