import ParkIt.Tables

/-! What the gate-in daemon and the API tell each other. -/
namespace ParkIt.GateIn

inductive GateEvent where
  | vehicleDetected (sensor : String)
  | ticketButtonPressed
  | rfidCardRead (cardNumber channel : String)
  | helpButtonPressed
  | gateOpened
  | gateOpenFailed
  | vehiclePassed
  | printFailedAlert
  | playAudio (track : Int)
deriving DecidableEq, Repr

inductive RedisCommand where
  | openGate (durationSeconds : Option Int) (reason : String)
  | closeGate (reason : String)
  | playAudio (track : Int)
  | displayText (line1 line2 : String) (brightness : Int) (mode : String)
  | printTicketThenOpen (barcode gateName : String)
  | resetGate (reason : String)
  | rejectCard (line1 line2 : String) (audioTrack : Int) (displaySeconds : String)
deriving DecidableEq, Repr

/-- The fields of a command as they stand in its stream. -/
abbrev Fields := List (String × String)

/-- `command.get(key, default)`. -/
def get (command : Fields) (key default : String) : String := (command.lookup key).getD default

namespace RedisCommand

def commandType : RedisCommand → String
  | .openGate _ _ => "open_gate"
  | .closeGate _ => "close_gate"
  | .playAudio _ => "play_audio"
  | .displayText _ _ _ _ => "display_text"
  | .printTicketThenOpen _ _ => "print_ticket_then_open"
  | .resetGate _ => "reset_gate"
  | .rejectCard _ _ _ _ => "reject_card"

def ownFields : RedisCommand → Fields
  | .openGate durationSeconds reason =>
    (durationSeconds.map fun n => ("duration_seconds", toString n)).toList ++ [("reason", reason)]
  | .closeGate reason => [("reason", reason)]
  | .playAudio track => [("track", toString track)]
  | .displayText line1 line2 brightness mode =>
    [("line1", line1), ("line2", line2), ("brightness", toString brightness), ("mode", mode)]
  | .printTicketThenOpen barcode gateName => [("barcode", barcode), ("gate_name", gateName)]
  | .resetGate reason => [("reason", reason)]
  | .rejectCard line1 line2 audioTrack displaySeconds =>
    [("line1", line1), ("line2", line2), ("audio_track", toString audioTrack),
     ("display_seconds", displaySeconds)]

/-- What `publish_command` writes; a field that is `None` is left out. -/
def fields (c : RedisCommand) (gateId timestamp : String) : Fields :=
  ("command_type", c.commandType) :: ("gate_id", gateId) :: ("timestamp", timestamp) :: c.ownFields

@[simp] theorem get_commandType (c : RedisCommand) (gateId timestamp default : String) :
    get (c.fields gateId timestamp) "command_type" default = c.commandType := rfl

end RedisCommand
end ParkIt.GateIn
