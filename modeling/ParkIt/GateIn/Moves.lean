import ParkIt.GateIn.Lane

/-! Why the tasks of the lane write the state, and what they owe after a write. -/
namespace ParkIt.GateIn

open Effects ByteString Tasks

/-- The state that a timer looks for. -/
def Timer.state : Timer → GateState
  | .validating _ => .validating
  | .vehiclePass _ => .opening

/-- What a task has to do next, with the number of its write. -/
inductive Phase where
  | calm
  | due
  | detected
  | requested (n : Nat)
  | read (n : Nat)
  | timed (n : Nat)
  | held (i : TaskId)
  | calling (i : TaskId)
  | fired
  | opened (n : Nat)
  | armed (n : Nat)
  | over
  | passing
  | passed
  | unclosed
  | closed
  | helped
  | rejected
  | answered
  | failed
deriving DecidableEq, Repr

/-- Where a handler may end. -/
def Phase.Rests (cfg : Config) : Phase → Prop
  | .calm | .unclosed | .closed => True
  | .passed => cfg.relayMode = .single
  | _ => False

/-- Nothing is due that the task still has to do. -/
def Phase.Settled (cfg : Config) : Phase → Prop
  | .calm | .due | .over | .unclosed | .closed | .helped | .answered | .failed => True
  | .passed => cfg.relayMode = .single
  | _ => False

/-- The state may be written. -/
def Phase.Free : Phase → Prop
  | .calm | .due | .helped | .rejected | .fired => True
  | _ => False

/-- The tasks that call the handlers. -/
def Cause.Handles : Cause → Prop
  | .rss | .commands | .serial => True
  | _ => False

/-- `fresh`, `frame` and `seen` are what a task has come to know since its last wait. -/
structure Note where
  cause : Cause
  command : Option Command := none
  fresh : Bool := false
  frame : Option Bytes := none
  seen : Option GateState := none
  phase : Phase := .calm
deriving DecidableEq

def Command.type (c : Command) : String := get c.fields "command_type" ""

def Command.Opens (c : Command) : Prop :=
  c.type = "open_gate" ∨ c.type = "print_ticket_then_open"

instance (c : Command) : Decidable c.Opens := inferInstanceAs (Decidable (_ ∨ _))

def RedisCommand.Opens : RedisCommand → Prop
  | .openGate _ _ | .printTicketThenOpen _ _ => True
  | _ => False

namespace Note

def start (c : Cause) : Note :=
  { cause := c
    phase := match c with
      | .timer _ => .due
      | _ => .calm }

/-- The controller is not there when a vehicle has passed. -/
def hindered (g : Note) : Note := if g.phase = .passed then { g with phase := .unclosed } else g

/-- A wait makes what was seen old. -/
def rested (g : Note) : Note := { g with fresh := false, frame := none, seen := none }

/-- The frame that is dispatched says that a vehicle is there, or it comes from a command. -/
def SaysOn (g : Note) : Prop :=
  (∃ msg ∈ g.frame, in1Report msg = some true) ∨
    g.fresh = true ∧ ∃ c ∈ g.command, c.type = "inject_rss"

/-- Why the state is written. -/
inductive Reason (g : Note) : GateState → Prop
  | detected : g.seen = some .idle → g.SaysOn → Reason g .waitingInput
  | rejected : g.phase = .rejected → Reason g .waitingInput
  | backedUp : g.seen = some .waitingInput → Reason g .idle
  | helped : g.phase = .helped → Reason g .idle
  | expired : g.seen = some .validating → Reason g .idle
  | passed : g.seen = some .opening → Reason g .idle
  | reset {c : Command} : g.command = some c → c.type = "reset_gate" → Reason g .idle
  | pressed : g.seen = some .waitingInput → Reason g .processing
  | read : g.seen = some .waitingInput → Reason g .validating
  | opened : g.phase = .fired → Reason g .opening

/-- A timer writes what it has looked at; the event consumer does not write. -/
def MayAct (g : Note) (st : GateState) : Prop :=
  match g.cause with
  | .timer t => st = .idle ∧ g.phase = .due ∧ g.seen = some t.state
  | c => c.Handles

structure MayWrite (g : Note) (st : GateState) : Prop where
  reason : Reason g st
  acts : g.MayAct st
  free : g.phase.Free
  opens : ∀ c ∈ g.command, c.Opens → g.phase = .fired ∧ st = .opening

def MayPublish (g : Note) (e : GateEvent) (n : Nat) : Prop :=
  match e with
  | .vehicleDetected _ => g.phase = .detected
  | .ticketButtonPressed => g.phase = .requested n
  | .rfidCardRead _ _ => g.phase = .read n
  | .gateOpened => ∃ m, g.phase = .opened m
  | .gateOpenFailed => g.phase = .calm
  | .vehiclePassed => g.phase = .passing
  | _ => True

/-- The pauses of the handlers. -/
def MaySleep (cfg : Config) (g : Note) (d : Delay) : Prop :=
  g.phase.Settled cfg ∧
    match d with
    | .ms n => n = 10000 → ∀ c ∈ g.command, ¬ c.Opens
    | .seconds _ => True
    | .text _ => ∃ c ∈ g.command, c.type = "reject_card"

/-- The event consumer sends one command that opens the gate, and the one that was asked for. -/
def MayAnswer (g : Note) (c : RedisCommand) (n : Nat) : Prop :=
  match c, g.cause with
  | .printTicketThenOpen _ _, .event .ticketButtonPressed m => n = m ∧ g.phase = .calm
  | .openGate _ _, .event (.rfidCardRead _ _) m => n = m ∧ g.phase = .calm
  | c, .event _ m => n = m ∧ ¬ c.Opens
  | _, _ => False

/-- What is due after a write. -/
def written (g : Note) (st : GateState) (n : Nat) : Phase :=
  match st with
  | .idle => if g.seen = some .opening then .passing else .calm
  | .waitingInput => if g.phase = .rejected then .calm else .detected
  | .processing => .requested n
  | .validating => .read n
  | .opening => .opened n

/-- What is due after an event. -/
def published (g : Note) : Phase :=
  match g.phase with
  | .detected | .requested _ => .calm
  | .read n => .timed n
  | .opened n => .armed n
  | .passing => .passed
  | phase => phase

def wrote (g : Note) (st : GateState) (n : Nat) : Note := { g.rested with phase := g.written st n }

def told (g : Note) (e : GateEvent) : Note :=
  match e with
  | .playAudio _ | .helpButtonPressed | .printFailedAlert => g.rested
  | .gateOpenFailed => { g.rested with phase := .over }
  | _ => { g.rested with phase := g.published }

/-- After an exception nothing is due any more. -/
def failure (g : Note) : Note := { g.rested with phase := .failed }

end Note

/-- A relay that opens the gate. -/
def ControllerCommand.opens : ControllerCommand → Bool
  | .trig1 | .open1 => true
  | _ => false

/-- What a task has done with an operation and its answer. -/
def Note.next (g : Note) (o : LaneOp) (a : o.Ans) : Note :=
  match o, a with
  | .state, st => { g with seen := some st }
  | .setState st, n => g.wrote st n
  | .taken msg, _ => { g with frame := some msg, phase := .calm }
  | .spawn (.validating _), i => { g with phase := .held i }
  | .spawn (.vehiclePass _), _ => { g with phase := .over }
  | .setValidatingTask _, _ | .cancel _, _ => { g with phase := .calm }
  | .validatingTask, some i => { g with phase := .calling i }
  | .connected, ok => if ok then g else g.hindered
  | .loopTime, now => if now < 0 then g.hindered else g
  | .breaker, b => if 0 < b.openUntil then g.hindered else g
  | .write command, landed =>
    if command.opens then if landed then { g with phase := .fired } else g
    else if !landed then g.hindered
    else if command = .close1 ∧ g.phase = .passed then { g with phase := .closed }
    else g
  | .hset, ok => if ok then g.rested else g.failure
  | .publish e _ _, ok => if ok then g.told e else g.failure
  | .xreadgroup, .message c => { g.rested with command := some c, fresh := true }
  | .sleep (.ms n), _ => { g.rested with phase := if n = 10000 then .helped else g.phase }
  | .sleep (.text _), _ => { g.rested with phase := .rejected }
  | .publishCommand c _, _ =>
    match c with
    | .openGate _ _ | .printTicketThenOpen _ _ => { g.rested with phase := .answered }
    | _ => g.rested
  | o, _ => if o.waits then g.rested else g

/-- Every task of the lane keeps to it, whatever it is answered. -/
def moves (cfg : Config) : Protocol LaneOp LaneOp.Ans Note where
  allow g o :=
    match o with
    | .setState st => g.MayWrite st
    | .publish e _ n => g.MayPublish e n
    | .spawn (.validating n) => g.phase = .timed n
    | .spawn (.vehiclePass n) => g.phase = .armed n
    | .setValidatingTask i => g.phase = .held i
    | .write command => command.opens = true → g.phase = .calm ∧ ∃ c ∈ g.command, c.Opens
    | .taken _ => g.cause = .rss ∧ g.phase.Settled cfg
    | .validatingTask => g.phase = .calm ∧ ∃ c ∈ g.command, c.type = "reject_card"
    | .sleep d => g.MaySleep cfg d
    | .cancel i => g.phase = .calling i ∧ ∃ c ∈ g.command, c.type = "reject_card"
    | .publishCommand c n => g.MayAnswer c n
    | _ => True
  expect _ _ _ := True
  next := Note.next

section Sends
variable {cfg : Config} {g g' : Note} {p : Phase}

/-- What a send consists of. -/
def Sends (command : ControllerCommand) : LaneOp → Prop
  | .connected | .loopTime | .breaker | .setBreaker _ | .close => True
  | .write c => c = command
  | _ => False

theorem only_send (command : ControllerCommand) :
    Only (Sends command) (fun _ => False) (sendControllerCommand command) := by
  have hwrite : Sends command (.write command) := rfl
  unfold sendControllerCommand
  refine (only_perform trivial).bind fun ok => ?_
  cases ok with
  | false => exact only_pure
  | true =>
    refine (only_perform trivial).bind fun now => (only_perform trivial).bind fun b => ?_
    split
    · exact only_pure
    · refine (only_perform hwrite).bind fun landed => ?_
      cases landed with
      | true => exact (only_perform trivial).bind fun _ => only_pure
      | false =>
        refine (only_perform trivial).bind fun _ => (only_perform trivial).bind fun _ => ?_
        split
        · exact (only_perform trivial).bind fun _ => only_pure
        · exact only_pure

theorem Note.hindered_eq (h : g.phase ≠ .passed) : g.hindered = g := if_neg h

theorem not_noticed {command : ControllerCommand} (hphase : g.phase ≠ .passed)
    (hopens : command.opens = false) {o : LaneOp} (ho : Sends command o) :
    (moves cfg).allow g o ∧ ∀ a, Note.next g o a = g := by
  cases o with
  | setBreaker _ | close => exact ⟨trivial, fun _ => rfl⟩
  | connected | loopTime | breaker =>
    refine ⟨trivial, fun a => ?_⟩
    change (if _ then _ else _) = g
    rw [Note.hindered_eq hphase, ite_self]
  | write c =>
    cases ho
    refine ⟨fun h => absurd h (by rw [hopens]; decide), fun landed => ?_⟩
    change (if command.opens then _ else if !landed then _ else if _ then _ else _) = g
    rw [if_neg (by rw [hopens]; decide), Note.hindered_eq hphase,
      if_neg (c := command = .close1 ∧ _) fun h => hphase h.2, ite_self]
  | _ => exact ho.elim

/-- A command that moves no barrier is not noticed, unless a barrier is to be closed. -/
theorem follows_send {command : ControllerCommand} (hphase : g.phase ≠ .passed)
    (hopens : command.opens = false) :
    Follows (moves cfg) g (send command) (fun g' _ => g' = g) fun _ _ => False := by
  have hstill : Follows (moves cfg) g (sendControllerCommand command) (fun g' _ => g' = g)
      fun g' _ => g' = g ∧ False :=
    (only_send command).follows fun _ ho => not_noticed hphase hopens ho
  exact hstill.bind (fun _ _ h => h.2) fun g' _ h => h

theorem follows_display (line1 line2 : String) (hphase : g.phase ≠ .passed) :
    Follows (moves cfg) g (display cfg line1 line2) (fun g' _ => g' = g) fun _ _ => False := by
  unfold display
  split
  · split
    · exact follows_send hphase rfl
    · exact follows_send hphase rfl
  · rfl

/-- The rule for a step that the protocol does not notice. -/
theorem follows_quiet {α : Type} {p : Work Unit} {f : Unit → Work α} {post : Note → α → Prop}
    {err : Note → LaneExc → Prop}
    (hp : Follows (moves cfg) g p (fun g' _ => g' = g) fun _ _ => False)
    (h : Follows (moves cfg) g (f ()) post err) : Follows (moves cfg) g (p >>= f) post err := by
  refine hp.bind (fun _ _ h => h.elim) ?_
  rintro _ - rfl
  exact h

/-- The controller may not be there any more. -/
def Note.Hinders (g g' : Note) : Prop :=
  g' = g ∨ g.phase = .passed ∧ g' = { g with phase := .unclosed }

theorem Note.Hinders.trans {g₁ g₂ : Note} (h : g.Hinders g₁) (h' : g₁.Hinders g₂) :
    g.Hinders g₂ := by
  rcases h with rfl | ⟨hpassed, rfl⟩
  · exact h'
  · rcases h' with rfl | ⟨h', -⟩
    · exact Or.inr ⟨hpassed, rfl⟩
    · exact Phase.noConfusion h'

theorem Note.hinders_hindered : g.Hinders g.hindered := by
  by_cases hpassed : g.phase = .passed
  · exact Or.inr ⟨hpassed, if_pos hpassed⟩
  · exact Or.inl (if_neg hpassed)

theorem Note.hinders_ite {p : Prop} [Decidable p] : g.Hinders (if p then g.hindered else g) := by
  split
  · exact hinders_hindered
  · exact Or.inl rfl

theorem follows_send_passed {command : ControllerCommand} (hopens : command.opens = false)
    (hclose : command ≠ .close1) :
    Follows (moves cfg) g (send command) (fun g' _ => g.Hinders g') fun _ _ => False := by
  have hstill : Follows (moves cfg) g (sendControllerCommand command) (fun g' _ => g.Hinders g')
      fun g' _ => g.Hinders g' ∧ False := by
    refine (only_send command).follows_rel (fun _ => Or.inl rfl) (fun _ _ _ => .trans)
      fun g o ho => ?_
    cases o with
    | setBreaker _ | close => exact ⟨trivial, fun _ => Or.inl rfl⟩
    | connected =>
      refine ⟨trivial, fun ok => ?_⟩
      cases ok with
      | true => exact Or.inl rfl
      | false => exact Note.hinders_hindered
    | loopTime | breaker => exact ⟨trivial, fun _ => Note.hinders_ite⟩
    | write c =>
      cases ho
      refine ⟨fun h => absurd h (by rw [hopens]; decide), fun landed => ?_⟩
      change g.Hinders (if command.opens then _ else if !landed then _ else if _ then _ else _)
      rw [if_neg (by rw [hopens]; decide), if_neg (c := command = .close1 ∧ _) fun h => hclose h.1]
      exact Note.hinders_ite
    | _ => exact ho.elim
  exact hstill.bind (fun _ _ h => h.2) fun g' _ h => h

theorem follows_display_passed (line1 line2 : String) :
    Follows (moves cfg) g (display cfg line1 line2) (fun g' _ => g.Hinders g') fun _ _ => False := by
  unfold display
  split
  · split
    · exact follows_send_passed rfl (fun h => nomatch h)
    · exact follows_send_passed rfl (fun h => nomatch h)
  · exact Or.inl rfl

/-- CLOSE1 closes what was opened, unless the controller is not there. -/
theorem follows_close1 (hphase : g.phase = .passed) :
    Follows (moves cfg) g (send .close1)
      (fun g' _ => g' = { g with phase := .closed } ∨ g' = { g with phase := .unclosed })
      fun _ _ => False := by
  have hhindered : g.hindered = { g with phase := .unclosed } := if_pos hphase
  have hstuck {p : Work Bool} (hp : Only (Sends .close1) (fun _ => False) p) :
      Follows (moves cfg) { g with phase := .unclosed } p
        (fun g' _ => g' = { g with phase := .closed } ∨ g' = { g with phase := .unclosed })
        fun _ _ => False := by
    have hstill := hp.follows (P := moves cfg) (g := { g with phase := .unclosed }) fun _ ho =>
      not_noticed (g := { g with phase := .unclosed }) nofun rfl ho
    exact hstill.mono (fun _ _ h => Or.inr h) fun _ _ h => h.2
  have hsend : Follows (moves cfg) g (sendControllerCommand .close1)
      (fun g' _ => g' = { g with phase := .closed } ∨ g' = { g with phase := .unclosed })
      fun _ _ => False := by
    have honly := only_send .close1
    refine ⟨trivial, fun ok _ => ?_⟩
    cases ok with
    | false => exact Or.inr hhindered
    | true =>
      have honly := honly.2 true
      refine ⟨trivial, fun now _ => ?_⟩
      change Follows (moves cfg) (if now < 0 then g.hindered else g) _ _ _
      by_cases hnow : now < 0
      · rw [if_pos hnow, hhindered]
        exact hstuck (honly.2 now)
      rw [if_neg hnow]
      refine ⟨trivial, fun b _ => ?_⟩
      change Follows (moves cfg) (if 0 < b.openUntil then g.hindered else g)
        (if now < b.openUntil then _ else _) _ _
      have honly := (honly.2 now).2 b
      by_cases hb : 0 < b.openUntil
      · rw [if_pos hb, hhindered]
        exact hstuck honly
      have hlate : ¬ now < b.openUntil := fun h => hnow (lt_of_lt_of_le h (not_lt.mp hb))
      rw [if_neg hb, if_neg hlate]
      refine ⟨(fun h => nomatch h), fun landed _ => ?_⟩
      cases landed with
      | true =>
        have hclosed : g.next (.write .close1) true = { g with phase := .closed } :=
          if_pos ⟨rfl, hphase⟩
        change Follows (moves cfg) (g.next (.write .close1) true) _ _ _
        rw [hclosed]
        exact ⟨trivial, fun _ _ => Or.inl rfl⟩
      | false =>
        change Follows (moves cfg) g.hindered _ _ _
        rw [hhindered]
        refine ⟨trivial, fun _ _ => ⟨trivial, fun _ _ => ?_⟩⟩
        change Follows (moves cfg) { g with phase := .unclosed } (if cbThreshold ≤ _ then _ else _) _ _
        split
        · exact ⟨trivial, fun _ _ => Or.inr rfl⟩
        · exact Or.inr rfl
  exact hsend.bind (fun _ _ h => h) fun g' _ h => h

theorem follows_relayClose (hphase : g.phase = .passed) :
    Follows (moves cfg) g (relayClose cfg)
      (fun g' _ => (g' = g ∧ cfg.relayMode = .single) ∨ g' = { g with phase := .closed } ∨
        g' = { g with phase := .unclosed })
      fun _ _ => False := by
  unfold relayClose
  split
  · rename_i hsingle
    exact Or.inl ⟨rfl, hsingle⟩
  · exact (follows_close1 hphase).mono (fun _ _ h => Or.inr h) fun _ _ h => h

theorem follows_relayClose_again (hphase : g.phase ≠ .passed) :
    Follows (moves cfg) g (relayClose cfg) (fun g' _ => g' = g) fun _ _ => False := by
  unfold relayClose
  split
  · rfl
  · exact follows_send hphase rfl

theorem follows_publish {e : GateEvent} {n : Nat} (h : g.MayPublish e n) :
    Follows (moves cfg) g (publishEvent e n) (fun g' _ => g' = g.told e) fun g' _ => g' = g.failure := by
  have hrested : g.rested.MayPublish e n := by
    cases e <;> exact h
  have htold : g.rested.told e = g.told e := by
    cases e <;> rfl
  refine ⟨trivial, fun eventId _ => ⟨hrested, fun ok _ => ?_⟩⟩
  cases ok with
  | true => exact htold
  | false => rfl

theorem follows_transition {st : GateState} (h : g.MayWrite st) :
    Follows (moves cfg) g (transition st) (fun g' n => g' = g.wrote st n)
      fun g' _ => g' = g.failure := by
  refine ⟨h, fun n _ => ⟨trivial, fun ok _ => ?_⟩⟩
  cases ok <;> rfl

/-- The task goes on with the same cause and command. -/
structure Note.Reaches (g : Note) (p : Phase) (g' : Note) : Prop where
  cause : g'.cause = g.cause
  command : g'.command = g.command
  phase : g'.phase = p

/-- Nothing has happened but that the task may have waited. -/
def Note.Waited (g g' : Note) : Prop := g' = g ∨ g' = g.rested

theorem Note.Waited.reaches (h : g.Waited g') : g.Reaches g.phase g' := by
  rcases h with rfl | rfl <;> exact ⟨rfl, rfl, rfl⟩

theorem Note.Reaches.failure (h : g.Reaches p g') : g'.failure = g.failure := by
  obtain ⟨hcause, hcommand, -⟩ := h
  cases g
  cases g'
  cases hcause
  cases hcommand
  rfl

theorem Note.Reaches.trans {q : Phase} {g₁ g₂ : Note} (h : g.Reaches p g₁)
    (h' : g₁.Reaches q g₂) : g.Reaches q g₂ :=
  ⟨h'.cause.trans h.cause, h'.command.trans h.command, h'.phase⟩

theorem Note.Reaches.ne_passed (h : g.Reaches p g') (hp : p ≠ .passed) : g'.phase ≠ .passed :=
  h.phase ▸ hp

theorem Note.Waited.ne_passed (h : g.Waited g') (hphase : g.phase ≠ .passed) :
    g'.phase ≠ .passed := h.reaches.ne_passed hphase

theorem Note.Waited.trans {g₁ g₂ : Note} (h : g.Waited g₁) (h' : g₁.Waited g₂) :
    g.Waited g₂ := by
  rcases h with rfl | rfl
  · exact h'
  · rcases h' with rfl | rfl <;> exact Or.inr rfl

theorem follows_audio (track : Int) (hphase : g.phase ≠ .passed) :
    Follows (moves cfg) g (cmdPlayAudio cfg track) (fun g' _ => g.Waited g')
      fun g' _ => g' = g.failure := by
  have hmay : ∀ actual, g.MayPublish (.playAudio actual) 0 := fun _ => trivial
  unfold cmdPlayAudio
  dsimp only
  split
  · exact (follows_publish (hmay _)).mono (fun _ _ h => Or.inr h) fun _ _ h => h
  · have hsend : Follows (moves cfg) g
        (send (.mt (track05 ((cfg.trackMap.lookup (toString track)).getD track))))
        (fun g' _ => g' = g) fun _ _ => False := follows_send hphase rfl
    exact hsend.mono (fun _ _ h => Or.inl h) fun _ _ h => h.elim

theorem follows_playIfEnabled (track : Int) (hphase : g.phase ≠ .passed) :
    Follows (moves cfg) g (playIfEnabled cfg track) (fun g' _ => g.Waited g')
      fun g' _ => g' = g.failure := by
  unfold playIfEnabled
  split
  · exact follows_audio track hphase
  · exact Or.inl rfl

end Sends

section Handlers
variable {cfg : Config} {g g' : Note}

theorem reaches_wrote {st : GateState} {n : Nat} {p : Phase} (h : g' = g.wrote st n)
    (hphase : g.written st n = p) : g.Reaches p g' := by
  subst h
  exact ⟨rfl, rfl, hphase⟩

theorem reaches_told {st : GateState} {n : Nat} {e : GateEvent} {p : Phase}
    (h : g' = (g.wrote st n).told e ∨ g' = ((g.wrote st n).told e).rested)
    (hphase : ((g.wrote st n).told e).phase = p) : g.Reaches p g' := by
  cases e <;> rcases h with rfl | rfl <;> exact ⟨rfl, rfl, hphase⟩

theorem follows_vehicleDetected (hwrite : g.MayWrite .waitingInput) (hphase : g.phase = .calm) :
    Follows (moves cfg) g (onVehicleDetected cfg) (fun g' _ => g.Reaches .calm g')
      fun g' _ => g' = g.failure := by
  refine (follows_transition hwrite).bind (fun _ _ h => h) ?_
  rintro _ n rfl
  have hdue : (g.wrote .waitingInput n).phase = .detected := by
    change (if g.phase = .rejected then _ else _) = _
    rw [hphase]
    rfl
  have hmay : (g.wrote .waitingInput n).MayPublish (.vehicleDetected "IN1") 0 := hdue
  refine (follows_publish hmay).bind (fun _ _ h => h) ?_
  rintro _ - rfl
  have hcalm : ((g.wrote .waitingInput n).told (.vehicleDetected "IN1")).phase = .calm := by
    change (g.wrote .waitingInput n).published = _
    rw [Note.published, hdue]
  refine (follows_playIfEnabled _ (by rw [hcalm]; nofun)).bind (fun _ _ h => h) fun g₁ _ h₁ => ?_
  have hreaches : g.Reaches .calm g₁ := reaches_told h₁ hcalm
  exact (follows_display _ _ (hreaches.ne_passed nofun)).mono (fun _ _ h => h ▸ hreaches)
    fun _ _ h => h.elim

/-- The vehicle has backed up, or IN4 resets the gate. -/
theorem follows_idle (hwrite : g.MayWrite .idle) (hseen : g.seen ≠ some .opening) :
    Follows (moves cfg) g (do
        let _ ← transition .idle
        display cfg "" "")
      (fun g' _ => g.Reaches .calm g') fun g' _ => g' = g.failure := by
  refine (follows_transition hwrite).bind (fun _ _ h => h) ?_
  rintro _ n rfl
  have hreaches : g.Reaches .calm (g.wrote .idle n) := reaches_wrote rfl (if_neg hseen)
  exact (follows_display _ _ (hreaches.ne_passed nofun)).mono (fun _ _ h => h ▸ hreaches)
    fun _ _ h => h.elim

theorem mayAct_handles {st : GateState} (h : g.cause.Handles) : g.MayAct st := by
  unfold Note.MayAct
  split
  · rename_i hcause
    rw [hcause] at h
    exact h.elim
  · exact h

theorem mayWrite_handles {st : GateState} (hreason : g.Reason st) (hcause : g.cause.Handles)
    (hphase : g.phase.Free) (hopens : ∀ c ∈ g.command, ¬ c.Opens) : g.MayWrite st :=
  ⟨hreason, mayAct_handles hcause, hphase, fun c hc h => absurd h (hopens c hc)⟩

theorem follows_helpButton (hcause : g.cause.Handles) (hphase : g.phase = .calm)
    (hopens : ∀ c ∈ g.command, ¬ c.Opens) :
    Follows (moves cfg) g (onHelpButton cfg) (fun g' _ => g.Reaches .calm g')
      fun g' _ => g' = g.failure := by
  have hcalm : g.phase ≠ .passed := by rw [hphase]; nofun
  unfold onHelpButton
  refine (follows_audio 5 hcalm).bind (fun _ _ h => h) fun g₁ _ h₁ => ?_
  refine follows_quiet (follows_display _ _ (h₁.ne_passed hcalm)) ?_
  have hmay : g₁.MayPublish .helpButtonPressed 0 := trivial
  refine (follows_publish hmay).bind (fun _ _ h => h.trans h₁.reaches.failure) ?_
  rintro _ - rfl
  have h₁' := h₁.reaches
  have hsleep : (g₁.told .helpButtonPressed).MaySleep cfg (.ms 10000) := by
    refine ⟨?_, fun _ c hc => hopens c (h₁'.command ▸ hc)⟩
    change g₁.phase.Settled cfg
    rw [h₁'.phase, hphase]
    trivial
  rw [follows_bind]
  refine ⟨hsleep, fun _ _ => ?_⟩
  obtain ⟨g₂, hg₂⟩ : ∃ g₂ : Note, g₂ = { g.rested with phase := .helped } := ⟨_, rfl⟩
  have hnext : (moves cfg).next (g₁.told .helpButtonPressed) (.sleep (.ms 10000)) () = g₂ := by
    rw [hg₂]
    rcases h₁ with rfl | rfl <;> rfl
  have hreaches : g.Reaches .helped g₂ := by
    rw [hg₂]
    exact ⟨rfl, rfl, rfl⟩
  rw [hnext]
  have hwrite : g₂.MayWrite .idle :=
    mayWrite_handles (.helped hreaches.phase) (hreaches.cause.symm ▸ hcause)
      (hreaches.phase.symm ▸ trivial) (hreaches.command.symm ▸ hopens)
  exact (follows_idle hwrite (by rw [hg₂]; nofun)).mono (fun _ _ h => hreaches.trans h)
    fun _ _ h => h.trans hreaches.failure

theorem follows_ticket (hwrite : g.MayWrite .processing) :
    Follows (moves cfg) g onTicketButtonPressed (fun g' _ => g.Reaches .calm g')
      fun g' _ => g' = g.failure := by
  refine (follows_transition hwrite).bind (fun _ _ h => h) ?_
  rintro _ n rfl
  have hmay : (g.wrote .processing n).MayPublish .ticketButtonPressed n := rfl
  exact (follows_publish hmay).mono (fun _ _ h => reaches_told (Or.inl h) rfl) fun _ _ h => h

theorem follows_cardRead (cardNumber channel : String) (hwrite : g.MayWrite .validating) :
    Follows (moves cfg) g (onRfidCardRead cardNumber channel) (fun g' _ => g.Reaches .calm g')
      fun g' _ => g' = g.failure := by
  refine (follows_transition hwrite).bind (fun _ _ h => h) ?_
  rintro _ n rfl
  have hmay : (g.wrote .validating n).MayPublish (.rfidCardRead cardNumber channel) n := rfl
  refine (follows_publish hmay).bind (fun _ _ h => h) ?_
  rintro _ - rfl
  exact ⟨rfl, fun i _ => ⟨rfl, fun _ _ => ⟨rfl, rfl, rfl⟩⟩⟩

theorem follows_laneOpened (hfired : g.phase = .fired) (hcause : g.cause.Handles) :
    Follows (moves cfg) g onLaneOpened (fun g' _ => g.Reaches .over g')
      fun g' _ => g' = g.failure := by
  have hwrite : g.MayWrite .opening :=
    ⟨.opened hfired, mayAct_handles hcause, hfired.symm ▸ trivial, fun _ _ _ => ⟨hfired, rfl⟩⟩
  refine (follows_transition hwrite).bind (fun _ _ h => h) ?_
  rintro _ n rfl
  have hmay : (g.wrote .opening n).MayPublish .gateOpened 0 := ⟨n, rfl⟩
  refine (follows_publish hmay).bind (fun _ _ h => h) ?_
  rintro _ - rfl
  exact ⟨rfl, fun i _ => ⟨rfl, rfl, rfl⟩⟩

/-- The handler is over. -/
structure Note.Over (cfg : Config) (g g' : Note) : Prop where
  cause : g'.cause = g.cause
  command : g'.command = g.command
  phase : g'.phase.Rests cfg

theorem Note.Reaches.over {p : Phase} (h : g.Reaches p g') (hp : p.Rests cfg) : g.Over cfg g' :=
  ⟨h.cause, h.command, h.phase ▸ hp⟩

theorem follows_vehiclePassed (hwrite : g.MayWrite .idle) (hseen : g.seen = some .opening) :
    Follows (moves cfg) g (onVehiclePassed cfg) (fun g' _ => g.Over cfg g')
      fun g' _ => g' = g.failure := by
  refine (follows_transition hwrite).bind (fun _ _ h => h) ?_
  rintro _ n rfl
  have hdue : (g.wrote .idle n).phase = .passing := if_pos hseen
  have hmay : (g.wrote .idle n).MayPublish .vehiclePassed 0 := hdue
  refine (follows_publish hmay).bind (fun _ _ h => h) ?_
  rintro _ - rfl
  have hpassed : ((g.wrote .idle n).told .vehiclePassed).phase = .passed := by
    change (g.wrote .idle n).published = _
    rw [Note.published, hdue]
  have hreaches : g.Reaches .passed ((g.wrote .idle n).told .vehiclePassed) := ⟨rfl, rfl, hpassed⟩
  refine (follows_display_passed _ _).bind (fun _ _ h => h.elim) ?_
  rintro _ - (rfl | ⟨-, rfl⟩)
  · refine (follows_relayClose hpassed).mono (fun g' _ h => ?_) fun _ _ h => h.elim
    rcases h with ⟨rfl, hsingle⟩ | rfl | rfl
    · exact hreaches.over hsingle
    · exact ⟨rfl, rfl, trivial⟩
    · exact ⟨rfl, rfl, trivial⟩
  · have hunclosed : Phase.unclosed ≠ .passed := nofun
    refine (follows_relayClose_again hunclosed).mono (fun g' _ h => ?_) fun _ _ h => h.elim
    rw [h]
    exact ⟨rfl, rfl, trivial⟩

end Handlers

/-- What holds of a task at its end. -/
structure Note.Finished (cfg : Config) (g : Note) : Prop where
  phase : g.phase.Settled cfg
  timer : ∀ t, g.cause = .timer t → g.phase = .due → ∃ st, g.seen = some st ∧ st ≠ t.state
  command : ∀ c ∈ g.command, c.Opens → g.phase = .over ∨ g.phase = .failed

section Timers
variable {cfg : Config} {g g' : Note} {t : Timer}

theorem Phase.Rests.settled {p : Phase} (h : p.Rests cfg) : p.Settled cfg := by
  cases p <;> trivial

theorem Note.Over.finished (h : g.Over cfg g') (hcommand : ∀ c ∈ g.command, ¬ c.Opens) :
    g'.Finished cfg := by
  refine ⟨h.phase.settled, fun _ _ hdue => ?_, fun c hc hopens => ?_⟩
  · exact (hdue ▸ h.phase : Phase.due.Rests cfg).elim
  · exact absurd hopens (hcommand c (h.command ▸ hc))

theorem finished_failure : g.failure.Finished cfg :=
  ⟨trivial, fun _ _ hdue => Phase.noConfusion hdue, fun _ _ _ => Or.inr rfl⟩

/-- A timer looks at the state when it has slept, and writes it before anything else. -/
theorem mayWrite_expired (hcause : g.cause = .timer t) (hcommand : g.command = none)
    (hphase : g.phase = .due) (hseen : g.seen = some t.state) : g.MayWrite .idle := by
  refine ⟨?_, ?_, hphase.symm ▸ trivial, fun c hc => by cases hcommand.symm.trans hc⟩
  · cases t with
    | validating n => exact .expired hseen
    | vehiclePass n => exact .passed hseen
  · unfold Note.MayAct
    rw [hcause]
    exact ⟨rfl, hphase, hseen⟩

/-- The timer came too late. -/
theorem finished_due {st : GateState} (hcause : g.cause = .timer t) (hcommand : g.command = none)
    (hphase : g.phase = .due) (hst : st ≠ t.state) :
    ({ g with seen := some st } : Note).Finished cfg := by
  refine ⟨?_, fun u hu _ => ⟨st, rfl, ?_⟩, fun c hc => ?_⟩
  · change g.phase.Settled cfg
    rw [hphase]
    trivial
  · cases hcause.symm.trans hu
    exact hst
  · cases hcommand.symm.trans hc

theorem gateOpenTimeout_seconds (cfg : Config) : ∃ s, gateOpenTimeout cfg = .seconds s := by
  rcases h : cfg.gateOpenTimeoutS with _ | s
  · exact ⟨10, by simp [gateOpenTimeout, h]⟩
  · by_cases hs : s = 0
    · exact ⟨10, by simp [gateOpenTimeout, h, hs]⟩
    · exact ⟨s, by simp [gateOpenTimeout, h]⟩

theorem follows_timeout {α : Type} {f : Unit → Work α} {post : Note → α → Prop}
    {err : Note → LaneExc → Prop} (hphase : g.phase = .due)
    (h : Follows (moves cfg) g.rested (f ()) post err) :
    Follows (moves cfg) g (ask (.sleep (gateOpenTimeout cfg)) >>= f) post err := by
  obtain ⟨s, hs⟩ := gateOpenTimeout_seconds cfg
  rw [hs]
  exact ⟨⟨hphase.symm ▸ trivial, trivial⟩, fun _ _ => h⟩

theorem follows_validatingTimeout {n : Nat} (hcause : g.cause = .timer (.validating n))
    (hcommand : g.command = none) (hphase : g.phase = .due) :
    Follows (moves cfg) g (validatingTimeout cfg) (fun g' _ => g'.Finished cfg)
      fun g' _ => g'.Finished cfg := by
  refine follows_timeout hphase ⟨trivial, fun st _ => ?_⟩
  change Follows (moves cfg) { g.rested with seen := some st } (if st = .validating then _ else _) _ _
  split
  · rename_i hst
    have hwrite : ({ g.rested with seen := some st } : Note).MayWrite .idle :=
      mayWrite_expired hcause hcommand hphase (congrArg some hst)
    refine (follows_idle hwrite (by rw [hst]; nofun)).mono (fun g' _ h => ?_) ?_
    · exact (h.over trivial).finished fun c hc => by cases hcommand.symm.trans hc
    · rintro _ - rfl
      exact finished_failure
  · exact finished_due (g := g.rested) hcause hcommand hphase ‹_›

theorem follows_vehiclePassTimer {n : Nat} (hcause : g.cause = .timer (.vehiclePass n))
    (hcommand : g.command = none) (hphase : g.phase = .due) :
    Follows (moves cfg) g (vehiclePassTimer cfg) (fun g' _ => g'.Finished cfg)
      fun g' _ => g'.Finished cfg := by
  refine follows_timeout hphase ⟨trivial, fun st _ => ?_⟩
  change Follows (moves cfg) { g.rested with seen := some st } (if st = .opening then _ else _) _ _
  split
  · rename_i hst
    have hwrite : ({ g.rested with seen := some st } : Note).MayWrite .idle :=
      mayWrite_expired hcause hcommand hphase (congrArg some hst)
    refine (follows_vehiclePassed hwrite (congrArg some hst)).mono (fun g' _ h => ?_) ?_
    · exact h.finished fun c hc => by cases hcommand.symm.trans hc
    · rintro _ - rfl
      exact finished_failure
  · exact finished_due (g := g.rested) hcause hcommand hphase ‹_›

end Timers

section Dispatch
variable {cfg : Config} {g : Note} {msg : Bytes}

/-- A task that has a frame to dispatch. -/
structure Note.Dispatches (g : Note) (msg : Bytes) : Prop where
  phase : g.phase = .calm
  cause : g.cause.Handles
  opens : ∀ c ∈ g.command, ¬ c.Opens
  frame : g.frame = some msg ∨ g.fresh = true ∧ ∃ c ∈ g.command, c.type = "inject_rss"

theorem Note.Dispatches.reaches (h : g.Dispatches msg) : g.Reaches .calm g := ⟨rfl, rfl, h.phase⟩

theorem Note.Dispatches.over (h : g.Dispatches msg) (st : GateState) :
    g.Over cfg { g with seen := some st } := ⟨rfl, rfl, h.phase ▸ trivial⟩

theorem Note.Dispatches.mayWrite (h : g.Dispatches msg) {st st' : GateState}
    (hreason : ({ g with seen := some st } : Note).Reason st') :
    ({ g with seen := some st } : Note).MayWrite st' :=
  mayWrite_handles hreason h.cause (h.phase ▸ trivial) h.opens

/-- A handler is called in one state only. -/
theorem follows_check {st₀ : GateState} {p q : Work Unit}
    (hp : Follows (moves cfg) { g with seen := some st₀ } p (fun g' _ => g.Over cfg g')
      fun g' _ => g' = g.failure)
    (hq : ∀ st, Follows (moves cfg) { g with seen := some st } q (fun g' _ => g.Over cfg g')
      fun g' _ => g' = g.failure) :
    Follows (moves cfg) g (ask .state >>= fun st => if st = st₀ then p else q)
      (fun g' _ => g.Over cfg g') fun g' _ => g' = g.failure := by
  refine ⟨trivial, fun st _ => ?_⟩
  change Follows (moves cfg) { g with seen := some st } (if st = st₀ then p else q) _ _
  split
  · rename_i hst
    exact hst ▸ hp
  · exact hq st

theorem follows_acked (hphase : g.phase = .calm) {signal : String} {α : Type}
    {f : Unit → Work α} {post : Note → α → Prop} {err : Note → LaneExc → Prop}
    (h : Follows (moves cfg) g (f ()) post err) :
    Follows (moves cfg) g (send (.ack signal) >>= f) post err :=
  follows_quiet (follows_send (by rw [hphase]; nofun) rfl) h

theorem Note.Over.seen {g' : Note} {st : GateState}
    (h : ({ g with seen := some st } : Note).Over cfg g') : g.Over cfg g' :=
  ⟨h.cause, h.command, h.phase⟩

theorem Note.Reaches.seen {g' : Note} {st : GateState}
    (h : ({ g with seen := some st } : Note).Reaches .calm g') : g.Over cfg g' :=
  ⟨h.cause, h.command, h.phase ▸ trivial⟩

theorem in1Report_on (hconfirms : ¬ confirms (decode msg) = true)
    (hon : has (decode msg) "IN1ON" = true) : in1Report msg = some true := by
  simp [in1Report, hconfirms, hon, parseStat, pushed]

theorem follows_dispatch (h : g.Dispatches msg) :
    Follows (moves cfg) g (dispatchRssMessage cfg msg) (fun g' _ => g.Over cfg g')
      fun g' _ => g' = g.failure := by
  have hpass : Follows (moves cfg) { g with seen := some .opening } (onVehiclePassed cfg)
      (fun g' _ => g.Over cfg g') fun g' _ => g' = g.failure :=
    (follows_vehiclePassed (h.mayWrite (.passed rfl)) rfl).mono (fun _ _ h => h.seen)
      fun _ _ h => h
  have hback : Follows (moves cfg) { g with seen := some .waitingInput } (onVehicleBackedUp cfg)
      (fun g' _ => g.Over cfg g') fun g' _ => g' = g.failure :=
    (follows_idle (h.mayWrite (.backedUp rfl)) nofun).mono (fun _ _ h => h.seen) fun _ _ h => h
  have hcard (card channel : String) :
      Follows (moves cfg) { g with seen := some .waitingInput } (onRfidCardRead card channel)
        (fun g' _ => g.Over cfg g') fun g' _ => g' = g.failure :=
    (follows_cardRead card channel (h.mayWrite (.read rfl))).mono (fun _ _ h => h.seen)
      fun _ _ h => h
  unfold dispatchRssMessage
  dsimp only
  refine follows_ite (fun _ => h.reaches.over trivial) fun hconfirms => ?_
  refine follows_ite (fun hon => ?_) fun _ => ?_
  · have hsays : g.SaysOn := h.frame.imp (fun hf => ⟨msg, hf, in1Report_on hconfirms hon⟩) id
    have hwrite : ({ g with seen := some .idle } : Note).MayWrite .waitingInput :=
      h.mayWrite (.detected rfl hsays)
    refine ⟨trivial, fun _ _ => follows_acked h.phase (follows_check ?_ h.over)⟩
    exact (follows_vehicleDetected hwrite h.phase).mono (fun _ _ h => h.seen) fun _ _ h => h
  refine follows_ite (fun _ => ?_) fun _ => ?_
  · refine ⟨trivial, fun _ _ => follows_acked h.phase (follows_check hback fun st => ?_)⟩
    exact follows_check hpass h.over
  refine follows_ite (fun _ => ?_) fun _ => ?_
  · refine follows_acked h.phase ⟨trivial, fun on _ => ?_⟩
    cases on with
    | false => exact h.reaches.over trivial
    | true =>
      refine follows_check ?_ h.over
      exact (follows_ticket (h.mayWrite (.pressed rfl))).mono (fun _ _ h => h.seen) fun _ _ h => h
  refine follows_ite (fun _ => ?_) fun _ => ?_
  · refine follows_acked h.phase (follows_check ?_ h.over)
    have hhelp : Follows (moves cfg) { g with seen := some .waitingInput } (onHelpButton cfg) _ _ :=
      follows_helpButton h.cause h.phase h.opens
    exact hhelp.mono (fun _ _ h => h.seen) fun _ _ h => h
  refine follows_ite (fun _ => ?_) fun _ => ?_
  · exact follows_acked h.phase (follows_check hback fun st => follows_check hpass h.over)
  refine follows_ite (fun _ => ?_) fun _ => ?_
  · exact follows_acked h.phase (follows_check hpass h.over)
  refine follows_ite (fun _ => ?_) fun _ => h.reaches.over trivial
  refine follows_acked h.phase ⟨trivial, fun st _ => ?_⟩
  change Follows (moves cfg) { g with seen := some st } (if _ then _ else _) _ _
  refine follows_ite (fun hst => ?_) fun _ => h.over st
  obtain ⟨rfl, -⟩ := hst
  split
  · exact hcard _ _
  · exact hcard _ _
  · exact h.over _

end Dispatch

end ParkIt.GateIn
