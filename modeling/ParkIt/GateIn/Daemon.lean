import ParkIt.GateIn.Controller
import ParkIt.GateIn.Messages
import ParkIt.Lib.Prog
import ParkIt.Clock
import ParkIt.Upload.Response

/-! The gate-in daemon: what it does on frames, cards, commands and timers. -/
namespace ParkIt.GateIn

open Effects ByteString
open Upload (strip pyInt intDigits)

inductive GateState where
  | idle
  | waitingInput
  | validating
  | processing
  | opening
deriving DecidableEq, Repr

inductive RelayMode where
  | single
  | dual
  | triple
deriving DecidableEq, Repr

/-- The gate's configuration, with the defaults of `config.get`. -/
structure Config where
  name : String := ""
  relayMode : RelayMode := .single
  gateOpenTimeoutS : Option Int := none
  /-- The protocol is "serial", not "compass". -/
  serial : Bool := false
  hasRfid : Bool := false
  hasTicketPrinter : Bool := false
  displayEnabled : Bool := true
  audioEnabled : Bool := true
  welcomeTrack : Int := 1
  ticketTrack : Int := 2
  errorTrack : Int := 11
  trackMap : List (String × Int) := []

/-- A timer with the number of the write that it was started after. -/
inductive Timer where
  | validating (n : Nat)
  | vehiclePass (n : Nat)
deriving DecidableEq, Repr

abbrev TaskId := Nat

inductive Delay where
  | ms (n : Nat)
  | seconds (n : Int)
  | text (seconds : String)
deriving DecidableEq, Repr

/-- An entry of the command stream, with the write that the command answers, if it answers one. -/
structure Command where
  id : Nat
  fields : Fields
  origin : Option Nat
deriving DecidableEq, Repr

/-- What a read of the command stream comes to. -/
inductive Delivery where
  | failed
  | nothing
  | message (c : Command)
deriving DecidableEq, Repr

/-- What the event consumer reads of a gate row. -/
structure GateRow where
  id : Id
  name : String
  directionOut : Bool := false
deriving DecidableEq, Repr

/-- What the event consumer reads of a member row; the date counts days. -/
structure MemberRow where
  id : Id
  isActive : Bool
  validUntil : Option Int
  vehicleTypeId : Option Id
  plateNumber : Option String
deriving DecidableEq, Repr

/-- The arguments of `create_entry_transaction`. -/
structure NewEntry where
  barcode : Option String := none
  cardNumber : Option String := none
  plateNumber : Option String := none
  vehicleTypeId : Option Id := none
  gateInId : Id
  paymentMethod : PaymentMethod
  memberId : Option Id := none
deriving DecidableEq, Repr

/-- How the exit of a member ends. -/
inductive RfidExit where
  | success
  | value (msg : String)
  | failed
deriving DecidableEq, Repr

structure Breaker where
  failCount : Nat := 0
  openUntil : Int := 0
deriving DecidableEq, Repr

/-- What the tasks of the daemon and the event consumer do; a `Bool` or an `Option` says whether
the call came back without an exception. The number that `setState` answers counts the writes; it
goes with the events and commands that follow from the write, for the statements only. -/
inductive LaneOp where
  | state
  | setState (s : GateState)
  | in1On
  | setIn1 (on : Bool)
  | breaker
  | setBreaker (b : Breaker)
  | validatingTask
  | setValidatingTask (i : TaskId)
  | spawn (t : Timer)
  | cancel (i : TaskId)
  | buffer
  | setBuffer (b : Bytes)
  | reconnectDelay
  | setReconnectDelay (ms : Nat)
  | taken (msg : Bytes)
  | loopTime
  | wallClock
  | connected
  | connect
  | disconnect
  | write (command : ControllerCommand)
  | close
  | recv
  | readline
  | hset
  | xadd (e : GateEvent)
  | publish (e : GateEvent) (eventId : Option Nat) (n : Nat)
  | xreadgroup
  | xack (id : Nat)
  | sleep (d : Delay)
  | gateByCode
  | memberByCard (cardNumber : String)
  | unclosed (cardNumber : String)
  | today
  | uuid
  | createEntry (e : NewEntry)
  | commit
  | processRfidPayment (gateOutId : Id) (cardNumber : String)
  | publishCommand (c : RedisCommand) (n : Nat)
deriving DecidableEq

abbrev LaneOp.Ans : LaneOp → Type
  | .state => GateState
  | .setState _ => Nat
  | .in1On | .connected | .write _ | .hset | .publish _ _ _ | .xack _ | .commit |
    .publishCommand _ _ => Bool
  | .breaker => Breaker
  | .validatingTask => Option TaskId
  | .spawn _ => TaskId
  | .buffer => Bytes
  | .recv | .readline => Option Bytes
  | .reconnectDelay => Nat
  | .loopTime => Int
  | .wallClock => LocalTime
  | .xadd _ => Option Nat
  | .xreadgroup => Delivery
  | .gateByCode => Option (Option GateRow)
  | .memberByCard _ => Option (Option MemberRow)
  | .unclosed _ => Option Bool
  | .today => Int
  | .uuid => String
  | .createEntry _ => Option (Option String)
  | .processRfidPayment _ _ => RfidExit
  | .setIn1 _ | .setBreaker _ | .setValidatingTask _ | .cancel _ | .setBuffer _ |
    .setReconnectDelay _ | .taken _ | .connect | .disconnect | .close | .sleep _ => Unit

/-- Where the event loop may turn to another task; the event consumer is a process of its own. -/
def LaneOp.waits : LaneOp → Bool
  | .recv | .readline | .hset | .xadd _ | .publish _ _ _ | .xreadgroup | .xack _ | .sleep _ |
    .gateByCode | .memberByCard _ | .unclosed _ | .today | .uuid | .createEntry _ | .commit |
    .processRfidPayment _ _ | .publishCommand _ _ => true
  | _ => false

inductive LaneExc where
  | redis
  | controller
  | database
  | value
deriving DecidableEq, Repr

abbrev Work (α : Type) := Prog LaneOp LaneOp.Ans LaneExc α

def ask (o : LaneOp) : Work o.Ans := Prog.perform o

/-- `try: p except Exception: h`. -/
def attempt {α : Type} (p h : Work α) : Work α := p.handle fun _ => h

section Base

def persistState : Work Unit := do
  if ← ask .hset then pure () else Prog.raise .redis

/-- Answers the number of the write. -/
def transition (newState : GateState) : Work Nat := do
  let n ← ask (.setState newState)
  persistState
  pure n

/-- The copy in the event log may fail. -/
def publishEvent (e : GateEvent) (n : Nat := 0) : Work Unit := do
  let eventId ← ask (.xadd e)
  if ← ask (.publish e eventId n) then pure () else Prog.raise .redis

end Base

section Controller
variable (cfg : Config)

def cbThreshold : Nat := 3
def cbCooldown : Int := 15 * microsPerSecond

/-- Has the write landed? -/
def sendControllerCommand (command : ControllerCommand) : Work Bool := do
  if !(← ask .connected) then pure false
  else do
    let now ← ask .loopTime
    let b ← ask .breaker
    if now < b.openUntil then pure false
    else if ← ask (.write command) then do
      ask (.setBreaker { b with failCount := 0 })
      pure true
    else do
      let failCount := b.failCount + 1
      ask (.setBreaker { b with failCount })
      ask .close
      if cbThreshold ≤ failCount then do
        ask (.setBreaker { failCount, openUntil := now + cbCooldown })
        pure false
      else pure false

def send (command : ControllerCommand) : Work Unit := do
  let _ ← sendControllerCommand command
  pure ()

def relayOpen : Work Bool :=
  match cfg.relayMode with
  | .single => sendControllerCommand .trig1
  | _ => sendControllerCommand .open1

/-- The number of attempts that are left. -/
def relayOpenReliable : Nat → Work Bool
  | 0 => pure false
  | i + 1 => do
    if ← relayOpen cfg then pure true
    else if 0 < i then do
      ask (.sleep (.ms 800))
      relayOpenReliable i
    else pure false

def relayClose : Work Unit :=
  match cfg.relayMode with
  | .single => pure ()
  | _ => send .close1

def relayBrake : Work Unit :=
  match cfg.relayMode with
  | .triple => send .stop1
  | _ => pure ()

def display (line1 line2 : String) : Work Unit :=
  if cfg.displayEnabled then send (if line1 = "" then .dsu else .ds line1 line2) else pure ()

/-- `f"{n:05d}"`. -/
def track05 (n : Int) : String := Settlement.zfill 5 (toString n)

def cmdPlayAudio (track : Int) : Work Unit := do
  let actual := (cfg.trackMap.lookup (toString track)).getD track
  if cfg.serial then publishEvent (.playAudio actual) else send (.mt (track05 actual))

/-- `if audio_cfg.get("enabled", True)`. -/
def playIfEnabled (track : Int) : Work Unit :=
  if cfg.audioEnabled then cmdPlayAudio cfg track else pure ()

end Controller

section Handlers
variable (cfg : Config)

def onVehicleDetected : Work Unit := do
  let _ ← transition .waitingInput
  publishEvent (.vehicleDetected "IN1")
  playIfEnabled cfg cfg.welcomeTrack
  display cfg "Selamat Datang" "Tombol/Tempel Kartu"

def onVehicleBackedUp : Work Unit := do
  let _ ← transition .idle
  display cfg "" ""

def onReset : Work Unit := do
  let _ ← transition .idle
  display cfg "" ""

def onHelpButton : Work Unit := do
  cmdPlayAudio cfg 5
  display cfg "Mohon Tunggu" "Petugas Membantu Anda"
  publishEvent .helpButtonPressed
  ask (.sleep (.ms 10000))
  let _ ← transition .idle
  display cfg "" ""

def onTicketButtonPressed : Work Unit := do
  let n ← transition .processing
  publishEvent .ticketButtonPressed n

def onRfidCardRead (cardNumber channel : String) : Work Unit := do
  let n ← transition .validating
  publishEvent (.rfidCardRead cardNumber channel) n
  let i ← ask (.spawn (.validating n))
  ask (.setValidatingTask i)

/-- `config.get("gate_open_timeout_s") or 10`. -/
def gateOpenTimeout : Delay :=
  match cfg.gateOpenTimeoutS with
  | none | some 0 => .seconds 10
  | some s => .seconds s

def validatingTimeout : Work Unit := do
  ask (.sleep (gateOpenTimeout cfg))
  if (← ask .state) = .validating then do
    let _ ← transition .idle
    display cfg "" ""

def onLaneOpened : Work Unit := do
  let n ← transition .opening
  publishEvent .gateOpened
  let _ ← ask (.spawn (.vehiclePass n))
  pure ()

def onVehiclePassed : Work Unit := do
  let _ ← transition .idle
  publishEvent .vehiclePassed
  display cfg "" ""
  relayClose cfg

def vehiclePassTimer : Work Unit := do
  ask (.sleep (gateOpenTimeout cfg))
  if (← ask .state) = .opening then onVehiclePassed cfg

def dispatchRssMessage (msg : Bytes) : Work Unit := do
  let text := decode msg
  if confirms text then pure ()
  else if has text "IN1ON" then do
    ask (.setIn1 true)
    send (.ack "IN1ON")
    if (← ask .state) = .idle then onVehicleDetected cfg
  else if has text "IN1OFF" then do
    ask (.setIn1 false)
    send (.ack "IN1OFF")
    if (← ask .state) = .waitingInput then onVehicleBackedUp cfg
    else if (← ask .state) = .opening then onVehiclePassed cfg
  else if has text "IN2ON" then do
    send (.ack "IN2ON")
    if !(← ask .in1On) then pure ()
    else if (← ask .state) = .waitingInput then onTicketButtonPressed
  else if has text "IN3ON" then do
    send (.ack "IN3ON")
    if (← ask .state) = .waitingInput then onHelpButton cfg
  else if has text "IN4ON" then do
    send (.ack "IN4ON")
    if (← ask .state) = .waitingInput then onReset cfg
    else if (← ask .state) = .opening then onVehiclePassed cfg
  else if has text "IN4OFF" then do
    send (.ack "IN4OFF")
    if (← ask .state) = .opening then onVehiclePassed cfg
  else do
    let parsed := parseStat msg
    if parsed.wiegandW.isSome ∨ parsed.wiegandX.isSome then do
      send (.ack "W")
      if (← ask .state) = .waitingInput ∧ cfg.hasRfid = true then
        match parsed.wiegandW, parsed.wiegandX with
        | some card, _ => onRfidCardRead card "W"
        | none, some card => onRfidCardRead card "X"
        | none, none => pure ()

end Handlers

section Commands
variable (cfg : Config)

def relayAttempts : Nat := 5

def cmdOpenGate : Work Bool := do
  if !(← relayOpenReliable cfg relayAttempts) then do
    publishEvent .gateOpenFailed
    pure false
  else do
    cmdPlayAudio cfg 9
    onLaneOpened
    pure true

/-- `datetime.now().strftime("%d/%m/%Y %H:%M:%S")`. -/
def timestamp (t : LocalTime) : String :=
  Settlement.padded 2 t.day ++ "/" ++ Settlement.padded 2 t.month ++ "/" ++
  Settlement.padded 4 t.year ++ " " ++ Settlement.padded 2 t.hour ++ ":" ++
  Settlement.padded 2 t.minute ++ ":" ++ Settlement.padded 2 t.second

def utf8 (s : String) : Bytes := s.toUTF8.toList

/-- The length of the barcode has to fit into one byte. -/
def escposData (gateName barcode : String) (t : LocalTime) : Option Bytes :=
  if barcode.length < 256 then
    some ([0x1b, 0x61, 0x01] ++ utf8 "TIKET PARKIR\n" ++ [0x1b, 0x61, 0x00] ++
      utf8 ("GATE    : " ++ gateName ++ "\n") ++ utf8 ("TANGGAL : " ++ timestamp t ++ "\n") ++
      [0x1b, 0x61, 0x01, 0x1d, 0x68, 0x64, 0x1d, 0x48, 0x02, 0x1d, 0x6b, 0x45] ++
      [UInt8.ofNat barcode.length] ++ utf8 barcode ++ [0x00, 0x0a, 0x1d, 0x56, 0x41])
  else none

/-- `True` when the ticket went to the printer without an exception. -/
def printTicket (barcode gateName : String) : Work Bool :=
  attempt (do
    let t ← ask .wallClock
    match escposData gateName barcode t with
    | none => Prog.raise .value
    | some data => do
      send (.pr3 data)
      ask (.sleep (.ms 1500))
      pure true) (pure false)

def afterPrint (barcode : String) : Bool → Work Unit
  | true => playIfEnabled cfg cfg.ticketTrack
  | false => do
    send (.ds "CATAT NOMOR:" barcode)
    publishEvent .printFailedAlert
    ask (.sleep (.ms 3000))
    playIfEnabled cfg cfg.errorTrack

/-- The gate opens in any case. -/
def cmdPrintTicketThenOpen (barcode gateName : String) : Work Bool := do
  if !cfg.hasTicketPrinter then do
    playIfEnabled cfg cfg.ticketTrack
    cmdOpenGate cfg
  else do
    let printSuccess ← printTicket barcode gateName
    afterPrint cfg barcode printSuccess
    cmdOpenGate cfg

/-- A task that is over is not cancelled. -/
def cancelValidating : Work Unit := do
  match ← ask .validatingTask with
  | none => pure ()
  | some i => ask (.cancel i)

/-- The driver may try again at once. -/
def cmdRejectCard (line1 line2 : String) (audioTrack : Int) (displaySeconds : String) :
    Work Unit := do
  cancelValidating
  display cfg line1 line2
  cmdPlayAudio cfg audioTrack
  ask (.sleep (.text displaySeconds))
  let _ ← transition .waitingInput
  display cfg "Selamat Datang" "Tombol/Tempel Kartu"

def cmdResetGate : Work Unit := do
  let _ ← transition .idle
  display cfg "" ""

/-- `digit (["_"] digit)*`, up to the first character that does not belong to it. -/
def afterDigits (cs : List Char) : Option (List Char) :=
  let run := cs.takeWhile fun c => c.isDigit || c = '_'
  (intDigits run).map fun _ => cs.drop run.length

def exponentOk : List Char → Bool
  | [] => true
  | e :: cs =>
    (e = 'e' || e = 'E') &&
      afterDigits (match cs with
        | '+' :: cs => cs
        | '-' :: cs => cs
        | cs => cs) = some []

/-- Does `float(s)` come back, for ASCII text? -/
def isFloat (s : String) : Bool :=
  let cs := match strip s.toList with
    | '+' :: cs => cs
    | '-' :: cs => cs
    | cs => cs
  ["inf", "infinity", "nan"].contains (String.ofList (cs.map Char.toLower)) ||
    match afterDigits cs with
    | some ('.' :: cs) => exponentOk ((afterDigits cs).getD cs)
    | some cs => exponentOk cs
    | none =>
      match cs with
      | '.' :: cs => (afterDigits cs).elim false exponentOk
      | _ => false

/-- `float(s)`, as far as it raises. -/
def pyFloat (s : String) : Option String := if isFloat s then some s else none

def orValueError {α : Type} : Option α → Work α
  | some a => pure a
  | none => Prog.raise .value

/-- Should the command be acknowledged? -/
def handleCommand (command : Fields) : Work Bool :=
  attempt (do
    let commandType := get command "command_type" ""
    if commandType = "open_gate" then do
      let _ ← cmdOpenGate cfg
      pure true
    else if commandType = "close_gate" then do
      relayClose cfg
      pure true
    else if commandType = "brake_gate" then do
      relayBrake cfg
      pure true
    else if commandType = "play_audio" then do
      let track ← orValueError (pyInt (get command "track" "1").toList)
      cmdPlayAudio cfg track
      pure true
    else if commandType = "display_text" then do
      display cfg (get command "line1" "") (get command "line2" "")
      pure true
    else if commandType = "print_ticket_then_open" then do
      let _ ← cmdPrintTicketThenOpen cfg (get command "barcode" "")
        (get command "gate_name" cfg.name)
      pure true
    else if commandType = "reject_card" then do
      let audioTrack ← orValueError (pyInt (get command "audio_track" "3").toList)
      let displaySeconds ← orValueError (pyFloat (get command "display_seconds" "3.0"))
      cmdRejectCard cfg (get command "line1" "Kartu Tidak Valid") (get command "line2" "")
        audioTrack displaySeconds
      pure true
    else if commandType = "reset_gate" then do
      cmdResetGate cfg
      pure true
    else if commandType = "inject_rss" then do
      let frame ← orValueError (injectedFrame (get command "signal" ""))
      dispatchRssMessage cfg frame
      pure true
    else pure true) (pure false)

/-- Without an acknowledgement the entry stays pending. -/
def processCommand (id : Nat) (fields : Fields) : Work Unit :=
  attempt (do
    if ← handleCommand cfg fields then
      if ← ask (.xack id) then pure () else Prog.raise .redis) (pure ())

end Commands

section Loops
variable (cfg : Config)

/-- One turn of the command loop. -/
def consumeCommands : Work Unit :=
  attempt (do
    match ← ask .xreadgroup with
    | .failed => Prog.raise .redis
    | .nothing => pure ()
    | .message c => processCommand cfg c.id c.fields) (ask (.sleep (.ms 1000)))

/-- A frame takes at least two bytes off the buffer. -/
def processRssBuffer : Nat → Bytes → Work Bytes
  | 0, buffer => pure buffer
  | n + 1, buffer =>
    if buffer.length < 2 then pure buffer
    else
      match nextFrame buffer with
      | .noStart => pure []
      | .unfinished => pure buffer
      | .frame msg rest => do
        ask (.taken msg)
        dispatchRssMessage cfg msg
        processRssBuffer n rest

def setupRss : Work Unit := do
  if ← ask .connected then
    if ← ask (.write (.rss 2)) then pure () else Prog.raise .controller

/-- One turn of the frame listener; an exception leaves the buffer as it was received. -/
def rssListener : Work Unit :=
  attempt (do
    if ← ask .connected then do
      ask (.setReconnectDelay 1000)
      match ← ask .recv with
      | none => Prog.raise .controller
      | some chunk =>
        if chunk ≠ [] then do
          let buffer := (← ask .buffer) ++ chunk
          ask (.setBuffer buffer)
          let rest ← processRssBuffer cfg (buffer.length + 1) buffer
          ask (.setBuffer rest)
    else do
      ask (.setBuffer [])
      ask .disconnect
      ask .connect
      if ← ask .connected then do
        setupRss
        ask (.setBreaker {})
        ask (.setReconnectDelay 1000)
      else do
        let delay ← ask .reconnectDelay
        ask (.sleep (.ms delay))
        ask (.setReconnectDelay (min (delay * 2) 30000))) (ask (.sleep (.ms 1000)))

/-- `raw.decode("ascii", errors="ignore").strip()`. -/
def asciiLine (raw : Bytes) : String := String.ofList (strip (decode (raw.filter (· < 128))))

/-- One turn of the reader of a serial RFID reader. -/
def rfidSerialReaderTask : Work Unit :=
  attempt (do
    match ← ask .readline with
    | none => Prog.raise .controller
    | some raw =>
      let cardNumber := asciiLine raw
      if cardNumber ≠ "" then
        if (← ask .state) = .waitingInput ∧ cfg.hasRfid = true then
          onRfidCardRead cardNumber "S") (ask (.sleep (.ms 1000)))

/-- One turn of the heartbeat of the controller line. -/
def controllerHeartbeat : Work Unit := do
  ask (.sleep (.ms 5000))
  if ← ask .connected then send .stat

end Loops
end ParkIt.GateIn
