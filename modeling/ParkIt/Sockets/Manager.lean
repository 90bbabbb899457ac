import Mathlib.Data.List.AList
import ParkIt.Lib.Tasks

/-! The WebSocket connections of the API, by gate, and the tasks that share them. -/
namespace ParkIt.Sockets

open Effects Tasks Transition

abbrev Socket := Nat
abbrev Gate := String

/-- The operations of the connection manager on its `defaultdict` of sets, and on the sockets. -/
inductive ManagerOp where
  | accept (ws : Socket)
  /-- `_connections[gate].add(ws)`. -/
  | add (gate : Gate) (ws : Socket)
  /-- `_connections[gate].discard(ws)`. -/
  | discard (gate : Gate) (ws : Socket)
  /-- `len(_connections[gate])`. -/
  | size (gate : Gate)
  /-- `del _connections[gate]`, which needs the gate. -/
  | delete (gate : Gate)
  /-- `list(_connections.get(gate, []))`. -/
  | sockets (gate : Gate)
  /-- `list(_connections.keys())`. -/
  | gates
  | sendText (ws : Socket) (message : String)
deriving DecidableEq, Repr

abbrev ManagerOp.Ans : ManagerOp → Type
  | .accept _ | .delete _ | .sendText _ _ => Bool
  | .add _ _ | .discard _ _ => Unit
  | .size _ => Nat
  | .sockets _ => List Socket
  | .gates => List Gate

inductive ManagerError where
  | accept
  | keyError
deriving DecidableEq, Repr

abbrev Work (α : Type) := Prog ManagerOp ManagerOp.Ans ManagerError α

def connect (gate : Gate) (ws : Socket) : Work Unit := do
  if ← Prog.perform (.accept ws : ManagerOp) then Prog.perform (.add gate ws : ManagerOp)
  else Prog.raise .accept

def disconnect (gate : Gate) (ws : Socket) : Work Unit := do
  Prog.perform (.discard gate ws : ManagerOp)
  if (← Prog.perform (.size gate : ManagerOp)) = 0 then
    if ← Prog.perform (.delete gate : ManagerOp) then pure ()
    else Prog.raise .keyError
  else pure ()

/-- The sockets that could not be sent to. -/
def sendAll (message : String) : List Socket → List Socket → Work (List Socket)
  | [], disconnected => pure disconnected
  | ws :: rest, disconnected => do
    if ← Prog.perform (.sendText ws message : ManagerOp) then sendAll message rest disconnected
    else sendAll message rest (disconnected ++ [ws])

def disconnectAll (gate : Gate) : List Socket → Work Unit
  | [] => pure ()
  | ws :: rest => do
    disconnect gate ws
    disconnectAll gate rest

def sendToGate (gate : Gate) (message : String) : Work Unit := do
  let disconnected ← sendAll message (← Prog.perform (.sockets gate : ManagerOp)) []
  disconnectAll gate disconnected

def sendToGates (message : String) : List Gate → Work Unit
  | [] => pure ()
  | gate :: rest => do
    sendToGate gate message
    sendToGates message rest

def broadcast (message : String) : Work Unit := do
  sendToGates message (← Prog.perform (.gates : ManagerOp))

/-- The dictionary of the gates; the order of a set is left to the outside. -/
abbrev Registry := AList fun _ : Gate => List Socket

namespace Registry

def registered (r : Registry) (gate : Gate) : List Socket := (r.lookup gate).getD []

/-- What the outside answers; an order that is not one of the same elements is not taken. -/
structure Choice where
  ok : Bool := true
  sockets : List Socket := []
  gates : List Gate := []

def perform (o : ManagerOp) (x : Choice) (r : Registry) : o.Ans × Registry :=
  match o with
  | .accept _ | .sendText _ _ => (x.ok, r)
  | .add gate ws => ((), r.insert gate ((r.registered gate).insert ws))
  | .discard gate ws => ((), r.insert gate ((r.registered gate).filter (· ≠ ws)))
  | .size gate => ((r.registered gate).length, r.insert gate (r.registered gate))
  | .delete gate => if gate ∈ r then (true, r.erase gate) else (false, r)
  | .sockets gate =>
    (if x.sockets.Perm (r.registered gate) then x.sockets else r.registered gate, r)
  | .gates => (if x.gates.Perm r.keys then x.gates else r.keys, r)

end Registry

/-- A call of the manager. -/
inductive Call where
  | connect (gate : Gate) (ws : Socket)
  | disconnect (gate : Gate) (ws : Socket)
  | sendToGate (gate : Gate) (message : String)
  | broadcast (message : String)
deriving DecidableEq, Repr

def Call.code : Call → Work Unit
  | .connect gate ws => ParkIt.Sockets.connect gate ws
  | .disconnect gate ws => ParkIt.Sockets.disconnect gate ws
  | .sendToGate gate message => ParkIt.Sockets.sendToGate gate message
  | .broadcast message => ParkIt.Sockets.broadcast message

def waits : ManagerOp → Bool
  | .accept _ | .sendText _ _ => true
  | _ => false

/-- Any call can be made at any time. -/
def managerLoop :
    Loop Nat Call ManagerOp ManagerOp.Ans ManagerError Registry Registry.Choice where
  code := Call.code
  waits := waits
  perform := Registry.perform
  starts := fun _ _ r => some r
  cancelled := fun _ _ => false
  outside := fun _ _ => False

abbrev ManagerSys := Sys Nat Call ManagerOp ManagerOp.Ans ManagerError Registry
abbrev ManagerLabel := Tasks.Label Nat Call ManagerOp ManagerOp.Ans
abbrev ManagerTask := Task Call ManagerOp ManagerOp.Ans ManagerError
abbrev ManagerStep : ManagerSys → ManagerLabel → ManagerSys → Prop := Step managerLoop

def ManagerSys.initial : ManagerSys := { shared := ∅ }

/-- How far a call has got. -/
structure Round where
  message : String := ""
  /-- The gates that it has still to go through, once it knows them. -/
  gates : Option (List Gate) := none
  here : Gate := ""
  /-- The sockets of the gate that it has still to send to. -/
  todo : List Socket := []
  sent : List (Socket × String) := []
  /-- The sockets that it has to disconnect, and those that it has disconnected. -/
  due : List (Gate × Socket) := []
  removed : List (Gate × Socket) := []
  /-- The gate whose set it has just taken a socket from, and whether the set was empty. -/
  pending : Option (Gate × Bool) := none
  refused : Bool := false
  /-- It has tried to delete a gate that is not there. -/
  missed : Bool := false
deriving DecidableEq

def Call.round : Call → Round
  | .connect _ _ => { gates := some [] }
  | .disconnect gate ws => { gates := some [], due := [(gate, ws)] }
  | .sendToGate gate message => { gates := some [gate], message }
  | .broadcast message => { message }

namespace Round
variable (g : Round)

def next (o : ManagerOp) (a : o.Ans) : Round :=
  match o with
  | .accept _ => { g with refused := g.refused || !a }
  | .add _ _ => g
  | .discard gate ws =>
    { g with removed := g.removed ++ [(gate, ws)], pending := some (gate, false) }
  | .size gate => { g with pending := if a = 0 then some (gate, true) else none }
  | .delete _ => { g with pending := none, missed := g.missed || !a }
  | .sockets gate => { g with gates := g.gates.map List.tail, here := gate, todo := a }
  | .gates => { g with gates := some a }
  | .sendText ws message =>
    { g with
      todo := g.todo.tail
      sent := g.sent ++ [(ws, message)]
      due := if a then g.due else g.due ++ [(g.here, ws)] }

def allow : ManagerOp → Prop
  | .accept _ | .add _ _ => g.pending = none
  | .discard gate ws =>
    g.pending = none ∧ g.todo = [] ∧ ∃ rest, g.due = g.removed ++ (gate, ws) :: rest
  | .size gate => g.pending = some (gate, false)
  | .delete gate => g.pending = some (gate, true)
  | .sockets gate =>
    g.pending = none ∧ g.todo = [] ∧ ∃ rest, g.gates = some (gate :: rest)
  | .gates => g.pending = none ∧ g.gates = none
  | .sendText ws message =>
    g.pending = none ∧ message = g.message ∧ ∃ rest, g.todo = ws :: rest

/-- A call that comes back has been through its gates and has disconnected the sockets that it had
to. -/
structure Completed : Prop where
  pending : g.pending = none
  gates : g.gates = some []
  todo : g.todo = []
  removed : g.removed = g.due

/-- A call raises where a socket cannot be accepted, or a gate is missing. -/
def Failed (c : Call) : Prop :=
  match c with
  | .connect _ _ => g.pending = none ∧ g.refused = true
  | _ => g.missed = true

end Round

def managerProtocol : Protocol ManagerOp ManagerOp.Ans Round where
  allow := Round.allow
  expect := fun _ _ _ => True
  next := Round.next

/-- A call that has `rest` still to go through. -/
structure Ready (message : String) (rest : List Gate) (g : Round) : Prop where
  pending : g.pending = none
  gates : g.gates = some rest
  todo : g.todo = []
  removed : g.removed = g.due
  message : g.message = message

section Code
variable {g : Round} {gate : Gate} {ws : Socket} {message : String}

theorem disconnect_follows {rest : List (Gate × Socket)} (hpending : g.pending = none)
    (htodo : g.todo = []) (hdue : g.due = g.removed ++ (gate, ws) :: rest) :
    Follows managerProtocol g (disconnect gate ws)
      (fun g' _ => g' = { g with removed := g.removed ++ [(gate, ws)] })
      fun g' _ => g'.missed = true := by
  refine ⟨⟨hpending, htodo, rest, hdue⟩, fun _ _ => ⟨rfl, fun n _ => follows_ite (fun hn => ?_)
    fun hn => ?_⟩⟩
  · have hn : n = 0 := hn
    subst hn
    refine ⟨rfl, fun deleted _ => follows_ite (fun hdeleted => ?_) fun hmissing => ?_⟩
    · have hdeleted : deleted = true := hdeleted
      subst hdeleted
      simp [managerProtocol, Round.next, hpending]
    · have hmissing : deleted = false := Bool.not_eq_true _ ▸ hmissing
      subst hmissing
      simp [managerProtocol, Round.next]
  · have hn : n ≠ 0 := hn
    simp [managerProtocol, Round.next, hpending, hn]

theorem disconnectAll_follows {disconnected : List Socket} (hpending : g.pending = none)
    (htodo : g.todo = []) (hdue : g.due = g.removed ++ disconnected.map fun ws => (gate, ws)) :
    Follows managerProtocol g (disconnectAll gate disconnected)
      (fun g' _ => g' = { g with removed := g.due }) fun g' _ => g'.missed = true := by
  induction disconnected generalizing g with
  | nil =>
    have hremoved : g.removed = g.due := by rw [hdue, List.map_nil, List.append_nil]
    exact congrArg (fun removed => { g with removed }) hremoved
  | cons ws rest ih =>
    refine (disconnect_follows hpending htodo hdue).bind (fun _ _ h => h) fun g' _ hg => ?_
    subst hg
    exact ih hpending htodo (hdue.trans (List.append_cons ..))

theorem sendAll_follows {todo disconnected : List Socket} (hpending : g.pending = none)
    (htodo : g.todo = todo)
    (hdue : g.due = g.removed ++ disconnected.map fun ws => (g.here, ws)) :
    Follows managerProtocol g (sendAll g.message todo disconnected)
      (fun g' disconnected' => g'.pending = none ∧ g'.todo = [] ∧ g'.gates = g.gates ∧
        g'.message = g.message ∧ g'.due = g'.removed ++ disconnected'.map fun ws => (g.here, ws))
      fun _ _ => False := by
  induction todo generalizing g disconnected with
  | nil => exact ⟨hpending, htodo, rfl, rfl, hdue⟩
  | cons ws rest ih =>
    refine ⟨⟨hpending, rfl, rest, htodo⟩, fun sent _ => follows_ite (fun hsent => ?_)
      fun hfailed => ?_⟩
    · exact ih (g := g.next (.sendText ws g.message) sent) hpending
        (congrArg List.tail htodo) ((if_pos hsent).trans hdue)
    · refine ih (g := g.next (.sendText ws g.message) sent) hpending (congrArg List.tail htodo) ?_
      have hnext : (g.next (.sendText ws g.message) sent).due = g.due ++ [(g.here, ws)] :=
        if_neg hfailed
      rw [hnext, hdue, List.map_append, List.append_assoc]
      rfl

theorem sendToGate_follows {rest : List Gate} (h : Ready message (gate :: rest) g) :
    Follows managerProtocol g (sendToGate gate message) (fun g' _ => Ready message rest g')
      fun g' _ => g'.missed = true := by
  refine ⟨⟨h.pending, h.todo, rest, h.gates⟩, fun todo _ => ?_⟩
  have hdue : g.due = g.removed ++ ([] : List Socket).map fun ws => (gate, ws) := by
    rw [List.map_nil, List.append_nil]
    exact h.removed.symm
  have hsends := sendAll_follows (g := g.next (.sockets gate) todo) h.pending rfl hdue
  have hmessage : (g.next (.sockets gate) todo).message = message := h.message
  rw [hmessage] at hsends
  refine hsends.bind (fun _ _ h => h.elim) fun g' disconnected hg => ?_
  obtain ⟨hpending, htodo, hgates, hmessage', hdue'⟩ := hg
  refine (disconnectAll_follows hpending htodo hdue').mono (fun g'' _ hg => ?_) fun _ _ h => h
  subst hg
  refine ⟨hpending, hgates.trans ?_, htodo, rfl, hmessage'⟩
  exact congrArg (Option.map List.tail) h.gates

theorem sendToGates_follows {gates : List Gate} (h : Ready message gates g) :
    Follows managerProtocol g (sendToGates message gates) (fun g' _ => g'.Completed)
      fun g' _ => g'.missed = true := by
  induction gates generalizing g with
  | nil => exact ⟨h.pending, h.gates, h.todo, h.removed⟩
  | cons gate rest ih => exact (sendToGate_follows h).bind (fun _ _ h => h) fun _ _ h => ih h

theorem code_follows (c : Call) :
    Follows managerProtocol c.round c.code (fun g _ => g.Completed) fun g _ => g.Failed c := by
  cases c with
  | connect gate ws =>
    refine ⟨rfl, fun accepted _ => follows_ite (fun _ => ?_) fun hrefused => ?_⟩
    · exact ⟨rfl, fun _ _ => ⟨rfl, rfl, rfl, rfl⟩⟩
    · refine ⟨rfl, ?_⟩
      have hrefused : accepted = false := Bool.not_eq_true _ ▸ hrefused
      simp [managerProtocol, Round.next, hrefused]
  | disconnect gate ws =>
    refine (disconnect_follows rfl rfl rfl).mono (fun g _ hg => ?_) fun _ _ h => h
    subst hg
    exact ⟨rfl, rfl, rfl, rfl⟩
  | sendToGate gate message =>
    refine (sendToGate_follows ⟨rfl, rfl, rfl, rfl, rfl⟩).mono (fun g _ h => ?_) fun _ _ h => h
    exact ⟨h.pending, h.gates, h.todo, h.removed⟩
  | broadcast message =>
    exact ⟨⟨rfl, rfl⟩, fun gates _ => sendToGates_follows ⟨rfl, rfl, rfl, rfl, rfl⟩⟩

end Code
end ParkIt.Sockets
