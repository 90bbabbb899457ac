import Mathlib.Data.List.AList
import ParkIt.Lib.Path

/-! The WebSocket plugin of the frontend, the sockets it creates, and the events on their way to
them. -/
namespace ParkIt.Frontend

inductive ReadyState where
  | connecting
  | opened
  | closing
  | closed
deriving DecidableEq, Repr

structure WebSocket where
  gateId : String
  readyState : ReadyState := .connecting
  sent : List String := []
deriving DecidableEq, Repr

namespace WebSocket
variable (k : WebSocket)

/-- Connecting or open, and nobody is closing it. -/
def live : Bool := k.readyState = .connecting ∨ k.readyState = .opened

def close : WebSocket := if k.live then { k with readyState := .closing } else k

def send (payload : String) : WebSocket := { k with sent := k.sent ++ [payload] }

end WebSocket

/-- What the listeners of a gate are told. -/
inductive Notice where
  | wsOpen
  /-- An event of the backend, by its number; it is `ws_raw` if its text is no JSON. -/
  | message (number : Nat)
  | wsClose (code : Nat)
  | wsError
deriving DecidableEq, Repr

def Notice.number? : Notice → Option Nat
  | message number => some number
  | _ => none

/-- Sockets are known by their place in the list of all that have been created. -/
structure ParkingWebSocket where
  connections : AList fun _ : String => Nat := ∅
  /-- The timers that are running, each with its delay. -/
  reconnectTimers : AList fun _ : String => Nat := ∅
  listeners : AList fun _ : String => List Nat := ∅
  reconnectDelays : AList fun _ : String => Nat := ∅
  sockets : List WebSocket := []
  /-- The close handler that has told the listeners, by the gate and the code. -/
  closeHandler : Option (String × Nat) := none
  /-- How many events the backend has published. -/
  published : Nat := 0
  /-- The events that have been sent to a socket and have not come there. -/
  inFlight : List (Nat × Nat) := []
  emitted : List (String × Notice) := []

namespace ParkingWebSocket
variable (s : ParkingWebSocket)

def readyState (ws : Nat) : Option ReadyState := s.sockets[ws]?.map (·.readyState)

def close (ws : Nat) : ParkingWebSocket := { s with sockets := s.sockets.modify ws (·.close) }

/-- `new WebSocket(url)`, and the entry for it. -/
def create (gateId : String) : ParkingWebSocket :=
  { s with
    sockets := s.sockets ++ [{ gateId }]
    connections := s.connections.insert gateId s.sockets.length }

def connect (gateId : String) : ParkingWebSocket :=
  match s.connections.lookup gateId with
  | some existing =>
    if s.readyState existing = some .opened then s else (s.close existing).create gateId
  | none => s.create gateId

def disconnect (gateId : String) : ParkingWebSocket :=
  let s := { s with reconnectTimers := s.reconnectTimers.erase gateId }
  let s := match s.connections.lookup gateId with
    | some ws => { s.close ws with connections := s.connections.erase gateId }
    | none => s
  { s with
    listeners := s.listeners.erase gateId
    reconnectDelays := s.reconnectDelays.erase gateId }

def disconnectAll : ParkingWebSocket := s.connections.keys.foldl disconnect s

def on (gateId : String) (callback : Nat) : ParkingWebSocket :=
  let set := (s.listeners.lookup gateId).getD []
  let set := if callback ∈ set then set else set ++ [callback]
  let s := { s with listeners := s.listeners.insert gateId set }
  if (s.connections.lookup gateId).isNone then s.connect gateId else s

/-- The function that `on` returns. -/
def unsubscribe (gateId : String) (callback : Nat) : ParkingWebSocket :=
  match s.listeners.lookup gateId with
  | some set => { s with listeners := s.listeners.insert gateId (set.erase callback) }
  | none => s

/-- `ws.send(payload)`. -/
def transmit (ws : Nat) (payload : String) : ParkingWebSocket :=
  { s with sockets := s.sockets.modify ws (·.send payload) }

def send (gateId payload : String) : Bool × ParkingWebSocket :=
  match s.connections.lookup gateId with
  | some ws => if s.readyState ws = some .opened then (true, s.transmit ws payload) else (false, s)
  | none => (false, s)

def isConnected (gateId : String) : Bool :=
  match s.connections.lookup gateId with
  | some ws => s.readyState ws = some .opened
  | none => false

def emit (gateId : String) (event : Notice) : ParkingWebSocket :=
  { s with emitted := s.emitted ++ [(gateId, event)] }

def scheduleReconnect (gateId : String) : ParkingWebSocket :=
  if (s.reconnectTimers.lookup gateId).isSome then s else
    let currentDelay := (s.reconnectDelays.lookup gateId).getD 1000
    { s with
      reconnectDelays := s.reconnectDelays.insert gateId (min (currentDelay * 2) 30000)
      reconnectTimers := s.reconnectTimers.insert gateId currentDelay }

/-- The numbers of the events of the backend that the listeners have been told. -/
def numbers : List Nat := s.emitted.filterMap (·.2.number?)

inductive Call where
  | connect (gateId : String)
  | disconnect (gateId : String)
  | disconnectAll
  | on (gateId : String) (callback : Nat)
  | unsubscribe (gateId : String) (callback : Nat)
  | send (gateId payload : String)
deriving DecidableEq, Repr

def call : Call → ParkingWebSocket
  | .connect gateId => s.connect gateId
  | .disconnect gateId => s.disconnect gateId
  | .disconnectAll => s.disconnectAll
  | .on gateId callback => s.on gateId callback
  | .unsubscribe gateId callback => s.unsubscribe gateId callback
  | .send gateId payload => (s.send gateId payload).2

/-- What the browser calls. -/
inductive Callback where
  | onopen (ws : Nat)
  | onmessage (ws number : Nat)
  | onerror (ws : Nat)
  /-- The other side begins to close; the plugin has no handler for it. -/
  | closing (ws : Nat)
  | onclose (ws code : Nat)
  | timer (gateId : String)
deriving DecidableEq, Repr

def setState (ws : Nat) (state : ReadyState) : ParkingWebSocket :=
  { s with sockets := s.sockets.modify ws fun k => { k with readyState := state } }

/-- A socket is opened once, takes messages while it is open, and is closed once. -/
def callback : Callback → ParkingWebSocket
  | .onopen ws =>
    match s.sockets[ws]? with
    | some k =>
      if k.readyState = .connecting then
        { s.setState ws .opened with
          reconnectDelays := s.reconnectDelays.insert k.gateId 1000 }.emit k.gateId .wsOpen
      else s
    | none => s
  | .onmessage ws number =>
    match s.sockets[ws]? with
    | some k =>
      if k.readyState = .opened ∧ (ws, number) ∈ s.inFlight then
        { s with inFlight := s.inFlight.erase (ws, number) }.emit k.gateId (.message number)
      else s
    | none => s
  | .onerror ws =>
    match s.sockets[ws]? with
    | some k => if k.readyState = .closed then s else s.emit k.gateId .wsError
    | none => s
  | .closing ws =>
    match s.sockets[ws]? with
    | some k => if k.readyState = .opened then s.setState ws .closing else s
    | none => s
  | .onclose ws code =>
    match s.sockets[ws]? with
    | some k =>
      if k.readyState = .closed then s
      else
        { s.setState ws .closed with
          connections := s.connections.erase k.gateId
          closeHandler := some (k.gateId, code) }.emit k.gateId (.wsClose code)
    | none => s
  | .timer gateId =>
    if (s.reconnectTimers.lookup gateId).isNone then s else
      let s := { s with reconnectTimers := s.reconnectTimers.erase gateId }
      if (s.listeners.lookup gateId).any (· ≠ []) then s.connect gateId else s

inductive Event where
  /-- By the page or by a listener that is being told something. -/
  | call (c : Call)
  | callback (c : Callback)
  /-- The close handler goes on after its listeners. -/
  | onclosed
  /-- The backend sends an event of a gate to any sockets of that gate. -/
  | publish (gateId : String) (receivers : List Nat)
deriving DecidableEq, Repr

/-- While a close handler runs, the browser calls nothing else. -/
def next : Event → ParkingWebSocket
  | .call c => s.call c
  | .callback c => if s.closeHandler.isSome then s else s.callback c
  | .onclosed =>
    match s.closeHandler with
    | some (gateId, code) =>
      let s := { s with closeHandler := none }
      if code ≠ 1000 ∧ code ≠ 1005 then s.scheduleReconnect gateId else s
    | none => s
  | .publish gateId receivers =>
    let receivers := receivers.dedup.filter fun ws =>
      s.sockets[ws]?.map (·.gateId) = some gateId
    { s with
      published := s.published + 1
      inFlight := s.inFlight ++ receivers.map (·, s.published) }

end ParkingWebSocket

abbrev WsStep (s : ParkingWebSocket) (e : ParkingWebSocket.Event) (s' : ParkingWebSocket) : Prop :=
  s' = s.next e

end ParkIt.Frontend
