import ParkIt.GateIn.Consumer
import ParkIt.Lib.Tasks

/-! The lane: the daemon's tasks, the event consumer, and what goes between them. -/
namespace ParkIt.GateIn

open Effects ByteString Tasks

/-- The IN1 bit that a frame reports. -/
def in1Report (msg : Bytes) : Option Bool :=
  let text := decode msg
  if confirms text then none
  else if has text "IN1ON" ∨ has text "IN1OFF" ∨ (statBits text).isSome then some (parseStat msg).in1
  else none

/-- The attributes of the daemon, the tasks that it has asked for, the events and the commands
that are under way. -/
structure Lane where
  state : GateState := .idle
  in1On : Bool := false
  breaker : Breaker := {}
  validatingTask : Option TaskId := none
  buffer : Bytes := []
  reconnectDelay : Nat := 1000
  spawned : List (TaskId × Timer) := []
  cancelled : List TaskId := []
  nextTask : TaskId := 0
  events : List (GateEvent × Nat) := []
  commands : List Command := []
  nextCommand : Nat := 0
  /-- How often the state has been written, and which write was the last one of each state. -/
  writes : Nat := 0
  entered : GateState → Nat := fun _ => 0
  /-- The last IN1 report of the controller that has been taken up. -/
  report : Option Bool := none

/-- What the outside answers: does a call come back, and does it take effect? -/
structure Oracle where
  ok : Bool := true
  landed : Bool := true
  bytes : Option Bytes := none
  time : Int := 0
  localTime : LocalTime := ⟨1970, 1, 1, 0, 0, 0⟩
  text : String := ""
  eventId : Option Nat := none
  gate : Option (Option GateRow) := none
  member : Option (Option MemberRow) := none
  unclosed : Option Bool := none
  entry : Option (Option String) := none
  exit : RfidExit := .failed

def Lane.enqueue (s : Lane) (fields : Fields) (origin : Option Nat) : Lane :=
  { s with
    commands := s.commands ++ [⟨s.nextCommand, fields, origin⟩], nextCommand := s.nextCommand + 1 }

def perform (gateId : String) (o : LaneOp) (x : Oracle) (s : Lane) : o.Ans × Lane :=
  match o with
  | .state => (s.state, s)
  | .setState st =>
    let n := s.writes + 1
    (n, { s with state := st, writes := n, entered := Function.update s.entered st n })
  | .in1On => (s.in1On, s)
  | .setIn1 on => ((), { s with in1On := on })
  | .breaker => (s.breaker, s)
  | .setBreaker b => ((), { s with breaker := b })
  | .validatingTask => (s.validatingTask, s)
  | .setValidatingTask i => ((), { s with validatingTask := some i })
  | .spawn t =>
    (s.nextTask, { s with spawned := s.spawned ++ [(s.nextTask, t)], nextTask := s.nextTask + 1 })
  | .cancel i => ((), { s with cancelled := i :: s.cancelled })
  | .buffer => (s.buffer, s)
  | .setBuffer b => ((), { s with buffer := b })
  | .reconnectDelay => (s.reconnectDelay, s)
  | .setReconnectDelay ms => ((), { s with reconnectDelay := ms })
  | .taken msg => ((), { s with report := (in1Report msg).or s.report })
  | .loopTime => (x.time, s)
  | .wallClock => (x.localTime, s)
  | .connected | .write _ | .hset | .xack _ | .commit => (x.ok, s)
  | .connect | .disconnect | .close | .sleep _ => ((), s)
  | .recv | .readline => (x.bytes, s)
  | .xadd _ => (x.eventId, s)
  | .publish e _ n => (x.ok, if x.landed then { s with events := s.events ++ [(e, n)] } else s)
  | .xreadgroup =>
    match s.commands with
    | [] => (if x.ok then .nothing else .failed, s)
    | c :: commands =>
      (if x.ok then .message c else .failed, if x.ok || x.landed then { s with commands } else s)
  | .gateByCode => (x.gate, s)
  | .memberByCard _ => (x.member, s)
  | .unclosed _ => (x.unclosed, s)
  | .today => (x.time, s)
  | .uuid => (x.text, s)
  | .createEntry _ => (x.entry, s)
  | .processRfidPayment _ _ => (x.exit, s)
  | .publishCommand c n =>
    (x.ok, if x.landed then s.enqueue (c.fields gateId x.text) (some n) else s)

/-- What a task is started for. -/
inductive Cause where
  | rss
  | commands
  | serial
  | heartbeat
  | timer (t : Timer)
  | event (e : GateEvent) (n : Nat)
deriving DecidableEq, Repr

def Cause.code (cfg : Config) : Cause → Work Unit
  | .rss => rssListener cfg
  | .commands => consumeCommands cfg
  | .serial => rfidSerialReaderTask cfg
  | .heartbeat => controllerHeartbeat
  | .timer (.validating _) => validatingTimeout cfg
  | .timer (.vehiclePass _) => vehiclePassTimer cfg
  | .event e n => handleMessage e n

inductive TaskIx where
  | rss
  | commands
  | serial
  | heartbeat
  | timer (i : TaskId)
  | consumer
deriving DecidableEq, Repr

/-- The loops start their next turn; a timer has been asked for; an event has been published. -/
def starts : TaskIx → Cause → Lane → Option Lane
  | .rss, .rss, s | .commands, .commands, s | .serial, .serial, s | .heartbeat, .heartbeat, s =>
    some s
  | .timer i, .timer t, s =>
    if (i, t) ∈ s.spawned then some { s with spawned := s.spawned.filter (·.1 ≠ i) } else none
  | .consumer, .event e n, s =>
    match s.events with
    | [] => none
    | event :: events => if event = (e, n) then some { s with events } else none
  | _, _, _ => none

def isCancelled : TaskIx → Lane → Bool
  | .timer i, s => s.cancelled.contains i
  | _, _ => false

/-- Operators and other processes send commands; events and commands may get lost. -/
inductive Outside : Lane → Lane → Prop
  | command {s} (fields : Fields) : Outside s (s.enqueue fields none)
  | events {s events} : events.Sublist s.events → Outside s { s with events }
  | commands {s commands} : commands.Sublist s.commands → Outside s { s with commands }

def lane (cfg : Config) (gateId : String) : Loop TaskIx Cause LaneOp LaneOp.Ans LaneExc Lane Oracle
    where
  code := Cause.code cfg
  waits := LaneOp.waits
  perform := perform gateId
  starts := starts
  cancelled := isCancelled
  outside := Outside

abbrev LaneSys := Sys TaskIx Cause LaneOp LaneOp.Ans LaneExc Lane

abbrev LaneLabel := Label TaskIx Cause LaneOp LaneOp.Ans

abbrev LaneTurn := Turn TaskIx Cause Lane Oracle

abbrev LaneTask := Task Cause LaneOp LaneOp.Ans LaneExc

end ParkIt.GateIn
