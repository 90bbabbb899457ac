import ParkIt.Bridge.Clients
import ParkIt.Lib.Slots

/-! The broadcasts and the clients as tasks that share the set of the registered clients. -/
namespace ParkIt.Bridge

open Effects Tasks Transition

/-- How many clients are let in, and how many slots the table of the set has at most. -/
structure Limits where
  maxClients : Nat
  slots : Nat
  room : maxClients ≤ slots

/-- The table of the registered clients, the connections that have come so far, and those that
have been registered so far. -/
structure Hub where
  table : List (Option Ws)
  seen : List Ws := []
  added : List Ws := []
  last : LastCard := {}
deriving DecidableEq

def Hub.clients (h : Hub) : List Ws := h.table.reduceOption

/-- What the outside answers; the hash function may choose the whole new table. -/
structure Choice where
  ok : Bool := true
  table : List (Option Ws) := []
  time : Int := 0
  result : ExitResult := {}

/-- The table after the client has been added, as it is chosen where that is a table of the same
clients. -/
def Hub.place (h : Hub) (ws : Ws) (table : List (Option Ws)) : List (Option Ws) :=
  if ws ∈ h.clients then h.table
  else if table.length = h.table.length ∧ table.reduceOption.Perm (ws :: h.clients) then table
  else Slots.fill h.table ws

def perform (o : BridgeOp) (x : Choice) (h : Hub) : o.Ans × Hub :=
  match o with
  | .used => (h.clients.length, h)
  | .slot p => (h.table[p]?.join, h)
  | .add ws => ((), { h with table := h.place ws x.table, added := ws :: h.added })
  | .discard ws => ((), { h with table := Slots.clear h.table ws })
  | .send _ _ | .openGate => (x.ok, h)
  | .close _ | .serve _ => ((), h)
  | .time => (x.time, h)
  | .lastCard => (h.last, h)
  | .setLastCard c => ((), { h with last := c })
  | .rfidExit _ _ _ => (x.result, h)

inductive HubCause where
  | broadcast (payload : Payload)
  | client (ws : Ws)
deriving DecidableEq, Repr

inductive HubIx where
  | broadcast (n : Nat)
  | client (ws : Ws)
deriving DecidableEq, Repr

/-- A broadcast can begin at any time, and a connection comes once. -/
def hubStarts : HubIx → HubCause → Hub → Option Hub
  | .broadcast _, .broadcast _, h => some h
  | .client ws, .client ws', h =>
    if ws = ws' ∧ ws ∉ h.seen then some { h with seen := ws :: h.seen } else none
  | _, _, _ => none

def waits : BridgeOp → Bool
  | .send _ _ | .close _ | .serve _ | .rfidExit _ _ _ | .openGate => true
  | _ => false

variable (lim : Limits)

def HubCause.code : HubCause → Work Unit
  | .broadcast payload => ParkIt.Bridge.broadcast payload lim.slots
  | .client ws => handleClient lim.maxClients ws

def hubLoop : Loop HubIx HubCause BridgeOp BridgeOp.Ans IterError Hub Choice where
  code := HubCause.code lim
  waits := waits
  perform := perform
  starts := hubStarts
  cancelled := fun _ _ => false
  outside := fun _ _ => False

abbrev HubSys := Sys HubIx HubCause BridgeOp BridgeOp.Ans IterError Hub
abbrev HubLabel := Tasks.Label HubIx HubCause BridgeOp BridgeOp.Ans
abbrev HubTask := Task HubCause BridgeOp BridgeOp.Ans IterError
abbrev HubEvent := Event BridgeOp BridgeOp.Ans

abbrev HubStep : HubSys → HubLabel → HubSys → Prop := Step (hubLoop lim)

def HubSys.initial : HubSys := { shared := { table := List.replicate lim.slots none } }

/-- What a task has done so far: its first look at the set, the slots it has looked at, the client
it has found and not yet sent to, and what it has sent and discarded. -/
structure Trail where
  self : Option Ws := none
  payload : Option Payload := none
  used : Option Nat := none
  /-- A later look has found another number of clients. -/
  changed : Bool := false
  pos : Nat := 0
  due : Option Ws := none
  sent : List (Ws × Payload) := []
  failed : List Ws := []
  gone : List Ws := []
  /-- The connection has been let in or turned away. -/
  decided : Bool := false
deriving DecidableEq

def HubCause.trail : HubCause → Trail
  | .broadcast payload => { payload := some payload }
  | .client ws => { self := some ws }

namespace Trail
variable (g : Trail)

def next (o : BridgeOp) (a : o.Ans) : Trail :=
  match o with
  | .used =>
    { g with used := g.used.or (some a), changed := g.changed || g.used.any (· ≠ a) }
  | .slot p => { g with pos := p + 1, due := a }
  | .send ws payload =>
    { g with
      due := none
      sent := g.sent ++ [(ws, payload)]
      failed := if a then g.failed else g.failed ++ [ws] }
  | .add _ | .close _ => { g with decided := true }
  | .discard ws => { g with gone := g.gone ++ [ws] }
  | _ => g

def allow : BridgeOp → Prop
  | .used => g.due = none ∧ (g.self = none ∨ g.used = none)
  | .slot p => g.self = none ∧ g.due = none ∧ g.pos = p ∧ g.used ≠ none
  | .send ws payload => g.self = none ∧ g.due = some ws ∧ g.payload = some payload
  | .add ws =>
    g.self = some ws ∧ g.decided = false ∧ ∃ n, g.used = some n ∧ n < lim.maxClients
  | .close ws => g.self = some ws ∧ g.decided = false
  | .serve ws => g.self = some ws ∧ g.decided = true
  | .discard ws =>
    if g.self = none then g.due = none ∧ g.pos = lim.slots ∧ ∃ rest, g.failed = g.gone ++ ws :: rest
    else g.self = some ws ∧ g.decided = true
  | _ => False

/-- A broadcast that comes back has been through the whole table and has discarded the clients
that it could not send to. -/
def Finished (c : HubCause) : Prop :=
  match c with
  | .broadcast _ => g.due = none ∧ g.gone = g.failed ∧ (g.used = some 0 ∨ g.pos = lim.slots)
  | .client _ => True

/-- A broadcast raises where the number of clients has changed. -/
def Raised (c : HubCause) : Prop :=
  match c with
  | .broadcast _ => g.changed = true
  | .client _ => False

end Trail

def hubProtocol : Protocol BridgeOp BridgeOp.Ans Trail where
  allow := Trail.allow lim
  expect := fun _ _ _ => True
  next := Trail.next

/-- A broadcast that has still to look at the slots from `p` on. -/
structure Iterating (payload : Payload) (used p : Nat) (stale : List Ws) (g : Trail) : Prop where
  self : g.self = none
  payload : g.payload = some payload
  used : g.used = some used
  due : g.due = none
  pos : g.pos = p
  failed : g.failed = stale
  gone : g.gone = []

section Code
variable {lim} {payload : Payload} {used : Nat} {g : Trail}

theorem Iterating.look {p : Nat} {stale : List Ws} (h : Iterating payload used p stale g)
    (n : Nat) : Iterating payload used p stale (g.next .used n) := by
  refine ⟨h.self, h.payload, ?_, h.due, h.pos, h.failed, h.gone⟩
  rw [← h.used]
  simp [Trail.next, h.used]

theorem sendFrom_follows {left p : Nat} {stale : List Ws} (h : Iterating payload used p stale g)
    (hslots : p + left = lim.slots) :
    Follows (hubProtocol lim) g (sendFrom payload used left p stale)
      (fun g' stale' => Iterating payload used lim.slots stale' g')
      fun g' _ => g'.changed = true := by
  have hchanged : ∀ {g : Trail} {p n : Nat} {stale : List Ws}, Iterating payload used p stale g →
      n ≠ used → (g.next .used n).changed = true := by
    intro g p n stale h hne
    simp [Trail.next, h.used, Ne.symm hne]
  induction left generalizing p stale g with
  | zero =>
    obtain rfl : p = lim.slots := hslots
    refine ⟨⟨h.due, Or.inl h.self⟩, fun n _ => ?_⟩
    exact follows_ite (fun hne => hchanged h hne) fun _ => h.look n
  | succ left ih =>
    refine ⟨⟨h.due, Or.inl h.self⟩, fun n _ => follows_ite (fun hne => hchanged h hne) fun _ => ?_⟩
    have hlook := h.look n
    refine ⟨⟨hlook.self, hlook.due, hlook.pos, ?_⟩, fun c _ => ?_⟩
    · exact fun hnone => Option.some_ne_none used (hlook.used.symm.trans hnone)
    · cases c with
      | none =>
        refine ih ⟨hlook.self, hlook.payload, hlook.used, rfl, rfl, hlook.failed, hlook.gone⟩ ?_
        omega
      | some ws =>
        refine ⟨⟨hlook.self, rfl, hlook.payload⟩, fun sent _ => ?_⟩
        have hnext : p + 1 + left = lim.slots := by omega
        refine follows_ite (fun hsent => ih ?_ hnext) fun hfailed => ih ?_ hnext
        · refine ⟨hlook.self, hlook.payload, hlook.used, rfl, rfl, ?_, hlook.gone⟩
          exact (if_pos hsent).trans hlook.failed
        · refine ⟨hlook.self, hlook.payload, hlook.used, rfl, rfl, ?_, hlook.gone⟩
          exact (if_neg hfailed).trans (congrArg (· ++ [ws]) hlook.failed)

theorem discardAll_follows {stale : List Ws} (hself : g.self = none) (hdue : g.due = none)
    (hpos : g.pos = lim.slots) (hfailed : g.failed = g.gone ++ stale) :
    Follows (hubProtocol lim) g (discardAll stale)
      (fun g' _ => g'.due = none ∧ g'.gone = g'.failed ∧ g'.pos = lim.slots) fun _ _ => False := by
  induction stale generalizing g with
  | nil => exact ⟨hdue, (hfailed.trans (List.append_nil _)).symm, hpos⟩
  | cons ws rest ih =>
    refine ⟨(if_pos hself).mpr ⟨hdue, hpos, rest, hfailed⟩, fun _ _ => ih hself hdue hpos ?_⟩
    exact hfailed.trans (List.append_cons ..)

theorem code_follows (c : HubCause) :
    Follows (hubProtocol lim) c.trail (c.code lim) (fun g _ => g.Finished lim c)
      fun g _ => g.Raised c := by
  cases c with
  | broadcast payload =>
    refine ⟨⟨rfl, Or.inl rfl⟩, fun n _ => follows_ite (fun hzero => ?_) fun _ => ?_⟩
    · exact ⟨rfl, rfl, Or.inl (congrArg some hzero)⟩
    · refine (sendFrom_follows (p := 0) ⟨rfl, rfl, rfl, rfl, rfl, rfl, rfl⟩
        (Nat.zero_add _)).bind (fun _ _ h => h) fun g stale h => ?_
      have hfailed : g.failed = g.gone ++ stale := by rw [h.failed, h.gone, List.nil_append]
      refine (discardAll_follows h.self h.due h.pos hfailed).mono (fun _ _ h => ?_)
        fun _ _ h => h.elim
      exact ⟨h.1, h.2.1, Or.inr h.2.2⟩
  | client ws =>
    refine ⟨⟨rfl, Or.inr rfl⟩, fun n _ => follows_ite (fun _ => ?_) fun hlt => ?_⟩
    · exact ⟨⟨rfl, rfl⟩, fun _ _ => trivial⟩
    · refine ⟨⟨rfl, rfl, n, rfl, Nat.lt_of_not_le hlt⟩, fun _ _ => ⟨⟨rfl, rfl⟩, ?_⟩⟩
      exact fun _ _ => ⟨⟨rfl, rfl⟩, fun _ _ => trivial⟩

end Code
end ParkIt.Bridge
