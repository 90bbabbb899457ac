import ParkIt.GateIn.Daemon

/-! The event consumer of the API: what it makes of the requests of the gate. -/
namespace ParkIt.GateIn

open Effects

/-- A database call that raises. -/
def orDatabaseError {α : Type} : Option α → Work α
  | some a => pure a
  | none => Prog.raise .database

def commit : Work Unit := do
  if ← ask .commit then pure () else Prog.raise .database

def publishCommand (c : RedisCommand) (n : Nat) : Work Unit := do
  if ← ask (.publishCommand c n) then pure () else Prog.raise .redis

def rejectCard (line1 line2 : String) (audioTrack : Int) : RedisCommand :=
  .rejectCard line1 line2 audioTrack "3.0"

def displayText (line1 line2 : String) : RedisCommand := .displayText line1 line2 100 "normal"

/-- Cash entry; an exception is logged. -/
def handleTicketButtonPressed (n : Nat) : Work Unit :=
  attempt (do
    match ← orDatabaseError (← ask .gateByCode) with
    | none => pure ()
    | some gate => do
      let barcode ← ask .uuid
      let stored ← orDatabaseError (← ask (.createEntry
        { barcode := some barcode, gateInId := gate.id, paymentMethod := .cash }))
      commit
      publishCommand (.printTicketThenOpen (stored.getD "None") gate.name) n) (pure ())

/-- The exit of a member, at a gate of the other direction. -/
def handleRfidExit (gate : GateRow) (cardNumber : String) (n : Nat) : Work Unit := do
  match ← ask (.processRfidPayment gate.id cardNumber) with
  | .failed => Prog.raise .database
  | .success => commit
  | .value msg => do
    publishCommand
      (if has msg.toList "No active transaction" then displayText "Tidak Ada" "Transaksi Aktif"
        else displayText "Kartu Tidak" "Valid") n
    publishCommand (.playAudio 3) n

/-- Warned, but not turned away. -/
def warnExpiry (member : MemberRow) (n : Nat) : Work Unit := do
  match member.validUntil with
  | none => pure ()
  | some validUntil => do
    let daysLeft := validUntil - (← ask .today)
    if daysLeft = 1 then do
      publishCommand (displayText "Kartu Habis" "Dalam 1 Hari") n
      publishCommand (.playAudio 12) n
      ask (.sleep (.ms 6000))
    else if daysLeft = 5 then do
      publishCommand (displayText "Kartu Habis" "Dalam 5 Hari") n
      publishCommand (.playAudio 11) n
      ask (.sleep (.ms 6000))

def expired (member : MemberRow) : Work Bool := do
  match member.validUntil with
  | none => pure false
  | some validUntil => do
    let today ← ask .today
    pure (validUntil < today)

def handleRfidEntry (gate : GateRow) (cardNumber : String) (n : Nat) : Work Unit := do
  match ← orDatabaseError (← ask (.memberByCard cardNumber)) with
  | none => publishCommand (rejectCard "Kartu Tidak" "Terdaftar" 3) n
  | some member => do
    if !member.isActive then publishCommand (rejectCard "Kartu Tidak" "Aktif" 4) n
    else if ← expired member then publishCommand (rejectCard "Kartu Expired" "" 3) n
    else if ← orDatabaseError (← ask (.unclosed cardNumber)) then
      publishCommand (rejectCard "Transaksi" "Belum Selesai" 11) n
    else do
      warnExpiry member n
      let _ ← orDatabaseError (← ask (.createEntry
        { cardNumber := some cardNumber, gateInId := gate.id, paymentMethod := .rfidMember
          memberId := some member.id, vehicleTypeId := member.vehicleTypeId
          plateNumber := member.plateNumber }))
      commit
      publishCommand (.openGate none "operator") n

/-- Members at the entry, and at the exit; an exception is logged. -/
def handleRfidCardRead (cardNumber : String) (n : Nat) : Work Unit :=
  attempt (do
    match ← orDatabaseError (← ask .gateByCode) with
    | none => pure ()
    | some gate =>
      if gate.directionOut then handleRfidExit gate cardNumber n
      else handleRfidEntry gate cardNumber n) (pure ())

/-- The other events are only logged. -/
def handleMessage (e : GateEvent) (n : Nat) : Work Unit :=
  match e with
  | .ticketButtonPressed => handleTicketButtonPressed n
  | .rfidCardRead cardNumber _ => handleRfidCardRead cardNumber n
  | _ => pure ()

end ParkIt.GateIn
