import ParkIt.Lib.Prog
import ParkIt.Lib.Bytes

/-! The serial ports of a booth: one exchange, repeated once over a reopened port. -/
namespace ParkIt.Booth

open Effects ByteString

/-- `SerialException` and `OSError` are caught by `send`, other exceptions are not. -/
inductive BridgeError where
  | serial (msg : String)
  | other (msg : String)
deriving DecidableEq, Repr

def BridgeError.isSerial : BridgeError → Bool
  | .serial _ => true
  | .other _ => false

inductive SerialOp where
  | isOpen
  | reconnect
  | resetInputBuffer
  | write (data : Bytes)
  | read (size : Nat)

abbrev SerialOp.Ans : SerialOp → Type
  | .isOpen => Bool
  | .reconnect => Except BridgeError Unit
  | .resetInputBuffer => Except BridgeError Unit
  | .write _ => Except BridgeError Unit
  | .read _ => Except BridgeError Bytes

abbrev Serial (α : Type) := Prog SerialOp SerialOp.Ans BridgeError α

def orRaise {α : Type} : Except BridgeError α → Serial α
  | .ok a => pure a
  | .error e => Prog.raise e

/-- Whether the peripheral has a connection that is open. -/
def isOpen : Serial Bool := Prog.perform (.isOpen : SerialOp)

def reconnect : Serial Unit := do
  orRaise (← Prog.perform (.reconnect : SerialOp))

def resetInputBuffer : Serial Unit := do
  orRaise (← Prog.perform (.resetInputBuffer : SerialOp))

def write (data : Bytes) : Serial Unit := do
  orRaise (← Prog.perform (.write data : SerialOp))

def read (size : Nat) : Serial Bytes := do
  orRaise (← Prog.perform (.read size : SerialOp))

def exchange (data : Bytes) : Serial Bytes := do
  resetInputBuffer
  write data
  read 1024

/-- The `except` branch of `send`. -/
def retrying (data : Bytes) : BridgeError → Serial Bytes
  | .serial _ => do
    reconnect
    exchange data
  | .other msg => Prog.raise (.other msg)

/-- The connection of the peripheral, reopened when there is none. -/
def openPort : Serial Unit := do
  if ← isOpen then pure () else reconnect

def send (data : Bytes) : Serial Bytes := do
  openPort
  (exchange data).handle (retrying data)

section Run
variable {σ α : Type} (exec : (o : SerialOp) → σ → Except BridgeError o.Ans × σ) (w : σ)

@[simp] theorem run_orRaise (r : Except BridgeError α) : (orRaise r).run exec w = (r, w) := by
  cases r <;> rfl

end Run
end ParkIt.Booth
