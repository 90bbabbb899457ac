import ParkIt.Lib.Answers
import ParkIt.Lib.Tasks

/-! The clients of the bridge's WebSocket server, its broadcasts, and the card reader. -/
namespace ParkIt.Bridge

open Effects

abbrev Ws := Nat

/-- The response of `rfid_exit`. -/
structure ExitResult where
  success : Bool := false
  message : String := ""
  reason : Option String := none
  transactionId : Option Int := none
deriving DecidableEq, Repr

structure CardScanned where
  gateId : String
  cardNumber : String
  success : Bool
  message : String
  reason : Option String
  transactionId : Option Int
deriving DecidableEq, Repr

/-- What is broadcast: the result of a card, or something else that is sent as it is. -/
inductive Payload where
  | cardScanned (e : CardScanned)
  | data (json : String)
deriving DecidableEq, Repr

/-- The card that was submitted last, and when. -/
structure LastCard where
  card : Option String := none
  time : Int := 0
deriving DecidableEq, Repr

/-- The operations of the tasks of the bridge. The clients are kept in a hash table. -/
inductive BridgeOp where
  /-- How many clients are registered. -/
  | used
  /-- The client in a slot of the table. -/
  | slot (p : Nat)
  | send (ws : Ws) (payload : Payload)
  | add (ws : Ws)
  | discard (ws : Ws)
  | close (ws : Ws)
  /-- The messages of a client, until its connection ends. -/
  | serve (ws : Ws)
  | time
  | lastCard
  | setLastCard (c : LastCard)
  | rfidExit (gateId : String) (gateDbId : Int) (card : String)
  | openGate
deriving DecidableEq, Repr

abbrev BridgeOp.Ans : BridgeOp → Type
  | .used => Nat
  | .slot _ => Option Ws
  | .send _ _ => Bool
  | .time => Int
  | .lastCard => LastCard
  | .rfidExit _ _ _ => ExitResult
  | .openGate => Bool
  | .add _ | .discard _ | .close _ | .serve _ | .setLastCard _ => Unit

/-- A `RuntimeError` of the iterator of a set. -/
inductive IterError where
  | sizeChanged
deriving DecidableEq, Repr

abbrev Work (α : Type) := Prog BridgeOp BridgeOp.Ans IterError α

section Broadcast
variable (payload : Payload)

/-- The rest of an iteration that began with `used` clients: `left` slots, from slot `p` on. -/
def sendFrom (used : Nat) : (left p : Nat) → List Ws → Work (List Ws)
  | 0, _, stale => do
    if (← Prog.perform (.used : BridgeOp)) ≠ used then Prog.raise .sizeChanged
    else pure stale
  | left + 1, p, stale => do
    if (← Prog.perform (.used : BridgeOp)) ≠ used then Prog.raise .sizeChanged
    else match ← Prog.perform (.slot p : BridgeOp) with
      | none => sendFrom used left (p + 1) stale
      | some ws =>
        if ← Prog.perform (.send ws payload : BridgeOp) then sendFrom used left (p + 1) stale
        else sendFrom used left (p + 1) (stale ++ [ws])

def discardAll : List Ws → Work Unit
  | [] => pure ()
  | ws :: rest => do
    Prog.perform (.discard ws : BridgeOp)
    discardAll rest

/-- The table of the set has at most `slots` slots. -/
def broadcast (slots : Nat) : Work Unit := do
  let used ← Prog.perform (.used : BridgeOp)
  if used = 0 then pure ()
  else
    let stale ← sendFrom payload used slots 0 []
    discardAll stale

end Broadcast

def handleClient (maxClients : Nat) (ws : Ws) : Work Unit := do
  if maxClients ≤ (← Prog.perform (.used : BridgeOp)) then Prog.perform (.close ws : BridgeOp)
  else
    Prog.perform (.add ws : BridgeOp)
    Prog.perform (.serve ws : BridgeOp)
    Prog.perform (.discard ws : BridgeOp)

/-- The settings of the poller; times in milliseconds. -/
structure Poller where
  gateId : String
  gateDbId : Int
  dedupeCooldown : Int := 3000
  minCardLen : Nat := 6
  minInvalidFeedbackLen : Nat := 3
deriving DecidableEq, Repr

namespace Poller
variable (cfg : Poller) (slots : Nat)

/-- A card that is the last one again, within the cooldown. -/
def repeated (last : LastCard) (card : String) (now : Int) : Bool :=
  last.card = some card ∧ now - last.time < cfg.dedupeCooldown

def event (card : String) (r : ExitResult) : CardScanned where
  gateId := cfg.gateId
  cardNumber := card
  success := r.success
  message := r.message
  reason :=
    if r.success then none
    else some (if r.reason.getD "" = "" then "api_rejected" else r.reason.getD "")
  transactionId := r.transactionId

def handleCard (card : String) : Work Unit := do
  let now ← Prog.perform (.time : BridgeOp)
  if cfg.repeated (← Prog.perform (.lastCard : BridgeOp)) card now then pure ()
  else
    Prog.perform (.setLastCard ⟨some card, now⟩ : BridgeOp)
    let result ← Prog.perform (.rfidExit cfg.gateId cfg.gateDbId card : BridgeOp)
    broadcast (.cardScanned (cfg.event card result)) slots
    if result.success then
      let _opened ← Prog.perform (.openGate : BridgeOp)
      pure ()
    else pure ()

def tooShort (partialCard : String) : CardScanned where
  gateId := cfg.gateId
  cardNumber := partialCard
  success := false
  message := "Kartu tidak terbaca penuh (" ++ toString partialCard.length ++
    " digit) — coba tap ulang."
  reason := some "card_too_short"
  transactionId := none

def flushBuffer (buffer : List Char) : Work Unit :=
  if buffer.length < cfg.minCardLen then
    if cfg.minInvalidFeedbackLen ≤ buffer.length then
      broadcast (.cardScanned (cfg.tooShort (String.ofList buffer))) slots
    else pure ()
  else handleCard cfg slots (String.ofList buffer)

end Poller
end ParkIt.Bridge
