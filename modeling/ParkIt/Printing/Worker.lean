import ParkIt.Printing.Escpos
import ParkIt.Lib.Prog

/-! The print jobs of the critical worker. -/
namespace ParkIt.Printing

open Effects ByteString GateIn

inductive PrintMode where
  | controllerPassthrough
  | network
  | serial
  | other (text : String)
deriving DecidableEq, Repr

namespace PrintMode

def text : PrintMode → String
  | .controllerPassthrough => "CONTROLLER_PASSTHROUGH"
  | .network => "NETWORK"
  | .serial => "SERIAL"
  | .other text => text

end PrintMode

/-- `gate.protocol`. -/
inductive Passthrough where
  | of (p : ControllerProtocol)
  | other (text : String)
deriving DecidableEq, Repr

/-- A key of a dict that may be missing, with a value that may be `None`. -/
abbrev Entry (α : Type) := Option (Option α)

structure PrintConfig where
  mode : Option PrintMode := none
  protocol : Entry Passthrough := none
  controllerHost : Entry String := none
  controllerPort : Entry Nat := none
  printerIpAddress : Entry String := none
  printerPort : Entry Nat := none
  printerDevice : Entry String := none
  baudrate : Entry Nat := none
deriving DecidableEq, Repr

/-- A row of `printers`. -/
structure Printer where
  id : Nat
  mode : PrintMode := .controllerPassthrough
  ipAddress : Option String := none
  port : Option Nat := none
  serialDevice : Option String := none
  baudrate : Nat := 9600
  paperRemaining : Int := 300
  paperCapacity : Int := 300
  lastRefilledAt : Option Int := none
deriving DecidableEq, Repr

/-- How the controller of a gate is reached. -/
structure GateController where
  protocol : Passthrough := .of .compass
  controllerHost : Option String := none
  controllerPort : Option Nat := none
deriving DecidableEq, Repr

structure PrintSettings where
  printerPaperCounterEnabled : Bool := false
  printerPaperWarningThreshold : Int := 50
  printerPaperCriticalThreshold : Int := 10
  mockHardware : Bool := false
deriving DecidableEq, Repr

inductive PrintKind where
  | ticket
  | receipt
deriving DecidableEq, Repr

def PrintKind.text : PrintKind → String
  | .ticket => "ticket"
  | .receipt => "receipt"

inductive PrintExc where
  | retry (defer : Nat)
  | maxRetries
  | payload
  | keyError (key : String)
  | valueError (text : String)
  | cannotImport (name source : String)
  | importError (text : String)
  | raised (text : String)
deriving DecidableEq, Repr

/-- The event `print_failed_alert`. -/
structure PrintFailedAlert where
  gateId : String
  kind : PrintKind
  error : PrintExc
deriving DecidableEq, Repr

inductive Device where
  | controller (host : Option String) (port : Option Nat)
  | network (ip : Option String) (port : Option Nat)
  | serial (devfile : Option String) (baudrate : Option Nat)
deriving DecidableEq, Repr

inductive PrintOp where
  /-- The active printer of a gate, of one type or of any. -/
  | findPrinter (gateId : String) (gateType : Option String)
  | findGate (code : String)
  | getPrinter (id : Nat)
  | commitPaper (id : Nat) (paperRemaining : Int)
  | importPrinter (name : String)
  | connect (d : Device)
  | write (data : Bytes)
  | close
  /-- The `close` of an `except` branch. -/
  | closeAgain
  | countSuccess (kind : PrintKind)
  | countFailure (kind : PrintKind)
  | publish (channel : String) (alert : PrintFailedAlert)
  | mockWrite (gateId : String) (kind : PrintKind) (data : Bytes)
deriving DecidableEq, Repr

namespace PrintOp

abbrev Val : PrintOp → Type
  | .findPrinter _ _ | .getPrinter _ => Option Printer
  | .findGate _ => Option GateController
  | .mockWrite _ _ _ => String
  | _ => Unit

/-- An operation answers or raises. -/
abbrev Ans (o : PrintOp) : Type := Except String o.Val

end PrintOp

abbrev PrintJob (α : Type) := Prog PrintOp PrintOp.Ans PrintExc α

def orRaised {α : Type} : Except String α → PrintJob α
  | .ok a => pure a
  | .error text => Prog.raise (.raised text)

def call (o : PrintOp) : PrintJob o.Val := do orRaised (← Prog.perform o)

inductive PrintStatus where
  | success
  | skipped
  | failed
deriving DecidableEq, Repr

structure PrintResult where
  status : PrintStatus
  message : String
  barcode : Option String := none
  path : Option String := none
  error : Option PrintExc := none
deriving DecidableEq, Repr

/-- What the worker hands to a job. -/
structure Ctx where
  jobTry : Nat := 1
  maxTries : Nat := 3
  redis : Bool := true
deriving DecidableEq, Repr

/-- The alert may be lost. -/
def publishAlert (ctx : Ctx) (alert : PrintFailedAlert) : PrintJob Unit :=
  if ctx.redis then
    (call (.publish ("parking.events." ++ alert.gateId) alert)).handle fun _ => pure ()
  else pure ()

/-- On the final attempt the operator is told. -/
def retryOrAlert (ctx : Ctx) (gateId : String) (kind : PrintKind) (error : PrintExc) :
    PrintJob PrintResult := do
  if ctx.jobTry < ctx.maxTries then Prog.raise (.retry (ctx.jobTry * 5))
  else do
    publishAlert ctx ⟨gateId, kind, error⟩
    pure {
      status := .failed
      message := kind.text ++ " print failed after " ++ toString ctx.maxTries ++ " attempts"
      error := some error }

/-- Can the ticket be printed, and on which printer is its paper counted? -/
def checkPaperAvailable (settings : PrintSettings) (gateId : String) :
    PrintJob (Bool × Option Nat) :=
  if !settings.printerPaperCounterEnabled then pure (true, none)
  else (do
    match ← call (.findPrinter gateId none) with
    | none => pure (true, none)
    | some printer => pure (decide (0 < printer.paperRemaining), some printer.id)).handle
      fun _ => pure (true, none)

def decrementPaperCounter (settings : PrintSettings) (printerId : Option Nat) : PrintJob Unit :=
  match settings.printerPaperCounterEnabled, printerId with
  | true, some i => (do
    match ← call (.getPrinter i) with
    | none => pure ()
    | some printer =>
      if 0 < printer.paperRemaining then call (.commitPaper i (printer.paperRemaining - 1))
      else pure ()).handle fun _ => pure ()
  | _, _ => pure ()

section Config

/-- `port or 9100`. -/
def portOr9100 : Option Nat → Nat
  | none | some 0 => 9100
  | some port => port

def passthroughConfig (gate : Option GateController) : PrintConfig :=
  match gate with
  | none => { mode := some .controllerPassthrough }
  | some gate => {
      mode := some .controllerPassthrough
      protocol := some (some gate.protocol)
      controllerHost := some gate.controllerHost
      controllerPort := some gate.controllerPort }

def configOf (printer : Option Printer) (gate : Option GateController) : PrintConfig :=
  match printer with
  | none => passthroughConfig gate
  | some printer =>
    match printer.mode with
    | .controllerPassthrough => passthroughConfig gate
    | .network => {
        mode := some .network
        printerIpAddress := some printer.ipAddress
        printerPort := some (some (portOr9100 printer.port)) }
    | .serial => {
        mode := some .serial
        printerDevice := some printer.serialDevice
        baudrate := some (some printer.baudrate) }
    | .other text => { mode := some (.other text) }

def getPrintConfig (gateId gateType : String) : PrintJob PrintConfig :=
  (do
    let printer ← call (.findPrinter gateId (some gateType))
    let gate ← call (.findGate gateId)
    pure (configOf printer gate)).handle fun _ => pure { mode := some .controllerPassthrough }

/-- A config that is missing or empty is looked up. -/
def printConfigOr (given : Option PrintConfig) (gateId gateType : String) : PrintJob PrintConfig :=
  match given with
  | none => getPrintConfig gateId gateType
  | some config => if config = {} then getPrintConfig gateId gateType else pure config

end Config

section Devices

/-- `config[key]`. -/
def required {α : Type} (key : String) : Entry α → PrintJob (Option α)
  | none => Prog.raise (.keyError key)
  | some value => pure value

/-- `protocols.compass.protocol` defines `cmd_pr3` and `cmd_qr5`, and no `cmd_pr4`. -/
def definedPr4 : ControllerProtocol → Option (Bytes → Bytes)
  | .compass => none
  | .enet => some cmdPr4

def importPr4 (p : ControllerProtocol) : PrintJob (Bytes → Bytes) :=
  match definedPr4 p with
  | some cmd => pure cmd
  | none => Prog.raise (.cannotImport "cmd_pr4" "protocols.compass.protocol")

def printViaController (escposData : Bytes) (config : PrintConfig) : PrintJob Unit := do
  let protocol := config.protocol.getD (some (.of .compass))
  let host ← required "controller_host" config.controllerHost
  let port ← required "controller_port" config.controllerPort
  match protocol with
  | some (.of p) => do
    let cmd ← importPr4 p
    call (.connect (.controller host port))
    (call (.write (cmd escposData))).handle fun e => do
      call .close
      Prog.raise e
    call .close
  | some (.other text) =>
    Prog.raise (.valueError ("Controller passthrough not supported for protocol: " ++ text))
  | none => Prog.raise (.valueError "Controller passthrough not supported for protocol: None")

/-- A printer of python-escpos. -/
def printDirectly (name text : String) (device : Device) (escposData : Bytes) : PrintJob Unit := do
  (call (.importPrinter name)).handle fun _ => Prog.raise (.importError text)
  call (.connect device)
  (do
    call (.write escposData)
    call .close).handle fun e => do
      call .closeAgain
      Prog.raise e

def printViaNetwork (escposData : Bytes) (config : PrintConfig) : PrintJob Unit := do
  let ip ← required "printer_ip_address" config.printerIpAddress
  let port := config.printerPort.getD (some 9100)
  printDirectly "Network"
    "python-escpos is required for network printing. Install with: pip install python-escpos"
    (.network ip port) escposData

def printViaSerial (escposData : Bytes) (config : PrintConfig) : PrintJob Unit := do
  let device ← required "printer_device" config.printerDevice
  let baudrate := config.baudrate.getD (some 9600)
  printDirectly "Serial"
    "python-escpos is required for serial printing. Install with: pip install python-escpos"
    (.serial device baudrate) escposData

def printVia (escposData : Bytes) (config : PrintConfig) : PrintJob Unit :=
  match config.mode.getD .controllerPassthrough with
  | .controllerPassthrough => printViaController escposData config
  | .network => printViaNetwork escposData config
  | .serial => printViaSerial escposData config
  | .other text => Prog.raise (.valueError ("Unknown print mode: " ++ text))

end Devices

/-- What the jobs for tickets and receipts differ in. -/
structure PrintTask where
  kind : PrintKind
  gateId : String
  gateType : String
  escposData : Option Bytes
  printed : String
  mocked : String
  skipMessage : String
  skipBarcode : Option String
  printConfig : Option PrintConfig

namespace PrintTask
variable (settings : PrintSettings) (ctx : Ctx) (task : PrintTask)

def attempt : PrintJob PrintResult := do
  let config ← printConfigOr task.printConfig task.gateId task.gateType
  let (canPrint, printerId) ← checkPaperAvailable settings task.gateId
  if !canPrint then
    pure { status := .skipped, message := task.skipMessage, barcode := task.skipBarcode }
  else
    match task.escposData with
    | none => Prog.raise .payload
    | some escposData =>
      if settings.mockHardware then do
        let path ← call (.mockWrite task.gateId task.kind escposData)
        decrementPaperCounter settings printerId
        pure { status := .success, message := task.mocked, path := some path }
      else (do
        printVia escposData config
        decrementPaperCounter settings printerId
        call (.countSuccess task.kind)
        pure ({ status := .success, message := task.printed } : PrintResult)).handle fun e => do
          call (.countFailure task.kind)
          retryOrAlert ctx task.gateId task.kind e

end PrintTask

structure TicketArgs where
  gateId : String
  barcode : String
  gateName : String := ""
  locationName : String := ""
  additionalInfo : String := ""
  timestamp : String := ""
  printConfig : Option PrintConfig := none

def TicketArgs.task (a : TicketArgs) : PrintTask where
  kind := .ticket
  gateId := a.gateId
  gateType := "IN"
  escposData := buildEscposTicket a.barcode a.gateName a.locationName a.additionalInfo a.timestamp
  printed := "Ticket printed"
  mocked := "Ticket printed (MOCK)"
  skipMessage := "Paper empty — display barcode on LED instead"
  skipBarcode := some a.barcode
  printConfig := a.printConfig

def printTicket (settings : PrintSettings) (ctx : Ctx) (a : TicketArgs) : PrintJob PrintResult :=
  a.task.attempt settings ctx

structure ReceiptArgs where
  gateId : String
  transactionData : Dict
  locationName : String := ""
  printConfig : Option PrintConfig := none

def ReceiptArgs.task (a : ReceiptArgs) : PrintTask where
  kind := .receipt
  gateId := a.gateId
  gateType := "OUT"
  escposData := buildEscposReceipt a.transactionData a.locationName
  printed := "Receipt printed"
  mocked := "Receipt printed (MOCK)"
  skipMessage := "Paper empty — receipt not printed"
  skipBarcode := none
  printConfig := a.printConfig

def printReceipt (settings : PrintSettings) (ctx : Ctx) (a : ReceiptArgs) : PrintJob PrintResult :=
  a.task.attempt settings ctx

end ParkIt.Printing
