import ParkIt.GateIn.Moves
import ParkIt.Lib.Made

/-! What the handlers leave to the loops: the frames of the buffer and the stream of commands. -/
namespace ParkIt.GateIn

open Effects ByteString

/-- A frame is taken off the buffer, or a command off the stream, by a loop only. -/
def LaneOp.Inner : LaneOp → Prop
  | .xreadgroup | .taken _ => False
  | _ => True

abbrev Inner {α : Type} (p : Work α) : Prop := Only LaneOp.Inner (fun _ => True) p

/-- What is left to the handlers: neither the frames nor the connection that they come over. -/
def LaneOp.Handling : LaneOp → Prop
  | .xreadgroup | .taken _ | .recv | .connect | .disconnect => False
  | _ => True

abbrev Handles {α : Type} (p : Work α) : Prop := Only LaneOp.Handling (fun _ => True) p

/-- Neither an operation of a loop nor one of a send. -/
def LaneOp.Quiet : LaneOp → Prop
  | .xreadgroup | .taken _ | .recv | .connect | .disconnect | .connected | .loopTime | .breaker |
    .setBreaker _ | .write _ | .close => False
  | _ => True

/-- The command that makes the controller report its inputs; the other ones are sent. -/
def ControllerCommand.configures : ControllerCommand → Bool
  | .rss _ => true
  | _ => false

/-- What the handlers are put together from. -/
inductive Piece : {α : Type} → Work α → Prop
  | ask {o : LaneOp} : o.Quiet → Piece (ask o)
  | send {c : ControllerCommand} : c.configures = false → Piece (sendControllerCommand c)

abbrev Composed {α : Type} (p : Work α) : Prop := Made Piece p

section Rules
variable {α : Type} {p q : Work α} {o : LaneOp}

theorem Handles.inner (h : Handles p) : Inner p :=
  h.mono (fun o ho => by cases o <;> trivial) fun _ h => h

theorem piece_handles (h : Piece p) : Handles p := by
  cases h with
  | @ask o ho => exact only_perform (by cases o <;> trivial)
  | send _ =>
    refine (only_send _).mono (fun o ho => ?_) fun _ h => h.elim
    cases o <;> trivial

theorem Composed.handles (h : Composed p) : Handles p := h.only piece_handles

theorem Composed.inner (h : Composed p) : Inner p := h.handles.inner

theorem composed_ask (h : o.Quiet) : Composed (ask o) := .unit (.ask h)

theorem composed_then {f : o.Ans → Work α} (h : o.Quiet) (hf : ∀ a, Composed (f a)) :
    Composed (ask o >>= f) := (composed_ask h).bind hf

theorem Composed.attempt (hp : Composed p) (hq : Composed q) : Composed (attempt p q) :=
  hp.handle fun _ => hq

theorem inner_ask (h : o.Inner) : Inner (ask o) := only_perform h

theorem inner_then {f : o.Ans → Work α} (h : o.Inner) (hf : ∀ a, Inner (f a)) :
    Inner (ask o >>= f) := (inner_ask h).bind hf

theorem inner_raise {e : LaneExc} : Inner (Prog.raise e : Work α) := trivial

theorem Inner.ite {c : Prop} [Decidable c] (hp : Inner p) (hq : Inner q) :
    Inner (if c then p else q) := by
  split
  · exact hp
  · exact hq

theorem Inner.attempt (hp : Inner p) (hq : Inner q) : Inner (attempt p q) :=
  hp.handle fun _ _ => hq

theorem composed_orValueError (x : Option α) : Composed (orValueError x) := by
  cases x with
  | none => exact .raise _
  | some a => exact .pure _

end Rules

section Base

theorem composed_persistState : Composed persistState :=
  composed_then trivial fun _ => Made.ite (.pure _) (.raise _)

theorem composed_transition (st : GateState) : Composed (transition st) :=
  composed_then trivial fun _ => composed_persistState.bind fun _ => .pure _

theorem composed_publishEvent (e : GateEvent) (n : Nat) : Composed (publishEvent e n) :=
  composed_then trivial fun _ => composed_then trivial fun _ => Made.ite (.pure _) (.raise _)

theorem composed_send {command : ControllerCommand} (h : command.configures = false) :
    Composed (send command) := (Made.unit (.send h)).bind fun _ => .pure _

end Base

section Controller
variable (cfg : Config)

theorem composed_relayOpen : Composed (relayOpen cfg) := by
  unfold relayOpen
  split <;> exact Made.unit (.send rfl)

theorem composed_relayOpenReliable (n : Nat) : Composed (relayOpenReliable cfg n) := by
  induction n with
  | zero => exact .pure _
  | succ n ih =>
    refine (composed_relayOpen cfg).bind fun _ => Made.ite (.pure _) (Made.ite ?_ (.pure _))
    exact composed_then trivial fun _ => ih

theorem composed_relayClose : Composed (relayClose cfg) := by
  unfold relayClose
  split
  · exact .pure _
  · exact composed_send rfl

theorem composed_relayBrake : Composed (relayBrake cfg) := by
  unfold relayBrake
  split
  · exact composed_send rfl
  · exact .pure _

theorem composed_display (line1 line2 : String) : Composed (display cfg line1 line2) :=
  Made.ite (composed_send (by split <;> rfl)) (.pure _)

theorem composed_cmdPlayAudio (track : Int) : Composed (cmdPlayAudio cfg track) :=
  (composed_publishEvent _ _).ite (composed_send rfl)

theorem composed_playIfEnabled (track : Int) : Composed (playIfEnabled cfg track) :=
  (composed_cmdPlayAudio cfg track).ite (.pure _)

end Controller

section Handlers
variable (cfg : Config)

theorem composed_onVehicleDetected : Composed (onVehicleDetected cfg) :=
  (composed_transition _).bind fun _ => (composed_publishEvent _ _).bind fun _ =>
    (composed_playIfEnabled cfg _).bind fun _ => composed_display cfg _ _

theorem composed_idle : Composed (do let _ ← transition .idle; display cfg "" "") :=
  (composed_transition _).bind fun _ => composed_display cfg _ _

theorem composed_onHelpButton : Composed (onHelpButton cfg) :=
  (composed_cmdPlayAudio cfg _).bind fun _ => (composed_display cfg _ _).bind fun _ =>
    (composed_publishEvent _ _).bind fun _ => composed_then trivial fun _ => composed_idle cfg

theorem composed_onTicketButtonPressed : Composed onTicketButtonPressed :=
  (composed_transition _).bind fun _ => composed_publishEvent _ _

theorem composed_onRfidCardRead (cardNumber channel : String) :
    Composed (onRfidCardRead cardNumber channel) :=
  (composed_transition _).bind fun _ => (composed_publishEvent _ _).bind fun _ =>
    composed_then trivial fun _ => composed_ask trivial

theorem composed_onLaneOpened : Composed onLaneOpened :=
  (composed_transition _).bind fun _ => (composed_publishEvent _ _).bind fun _ =>
    composed_then trivial fun _ => .pure _

theorem composed_onVehiclePassed : Composed (onVehiclePassed cfg) :=
  (composed_transition _).bind fun _ => (composed_publishEvent _ _).bind fun _ =>
    (composed_display cfg _ _).bind fun _ => composed_relayClose cfg

theorem composed_check {st : GateState} {p q : Work Unit} (hp : Composed p) (hq : Composed q) :
    Composed (ask .state >>= fun st' => if st' = st then p else q) :=
  composed_then trivial fun _ => hp.ite hq

theorem composed_dispatch (msg : Bytes) : Composed (dispatchRssMessage cfg msg) := by
  have hpass : Composed (ask .state >>= fun st =>
      if st = .opening then onVehiclePassed cfg else pure ()) :=
    composed_check (composed_onVehiclePassed cfg) (.pure _)
  have hleave : Composed (ask .state >>= fun st => if st = .waitingInput then onReset cfg
      else ask .state >>= fun st => if st = .opening then onVehiclePassed cfg else pure ()) :=
    composed_check (composed_idle cfg) hpass
  unfold dispatchRssMessage
  refine Made.ite (.pure _) (Made.ite ?_ (Made.ite ?_ (Made.ite ?_ (Made.ite ?_ (Made.ite ?_
    (Made.ite ?_ (Made.ite ?_ (.pure _))))))))
  · refine composed_then trivial fun _ => (composed_send rfl).bind fun _ => ?_
    exact composed_check (composed_onVehicleDetected cfg) (.pure _)
  · exact composed_then trivial fun _ => (composed_send rfl).bind fun _ => hleave
  · refine (composed_send rfl).bind fun _ => composed_then trivial fun _ => Made.ite (.pure _) ?_
    exact composed_check composed_onTicketButtonPressed (.pure _)
  · exact (composed_send rfl).bind fun _ => composed_check (composed_onHelpButton cfg) (.pure _)
  · exact (composed_send rfl).bind fun _ => hleave
  · exact (composed_send rfl).bind fun _ => hpass
  · refine (composed_send rfl).bind fun _ => composed_then trivial fun _ => Made.ite ?_ (.pure _)
    split <;> first | exact composed_onRfidCardRead _ _ | exact .pure _

end Handlers

section Commands
variable (cfg : Config)

theorem composed_cmdOpenGate : Composed (cmdOpenGate cfg) :=
  (composed_relayOpenReliable cfg _).bind fun _ =>
    Made.ite ((composed_publishEvent _ _).bind fun _ => .pure _)
      ((composed_cmdPlayAudio cfg _).bind fun _ => composed_onLaneOpened.bind fun _ => .pure _)

theorem composed_printTicket (barcode gateName : String) :
    Composed (printTicket barcode gateName) := by
  refine Composed.attempt (composed_then trivial fun t => ?_) (.pure _)
  split
  · exact .raise _
  · exact (composed_send rfl).bind fun _ => composed_then trivial fun _ => .pure _

theorem composed_afterPrint (barcode : String) (printed : Bool) :
    Composed (afterPrint cfg barcode printed) := by
  cases printed with
  | true => exact composed_playIfEnabled cfg _
  | false =>
    exact (composed_send rfl).bind fun _ => (composed_publishEvent _ _).bind fun _ =>
      composed_then trivial fun _ => composed_playIfEnabled cfg _

theorem composed_cmdPrintTicketThenOpen (barcode gateName : String) :
    Composed (cmdPrintTicketThenOpen cfg barcode gateName) :=
  Made.ite ((composed_playIfEnabled cfg _).bind fun _ => composed_cmdOpenGate cfg)
    ((composed_printTicket _ _).bind fun _ => (composed_afterPrint cfg _ _).bind fun _ =>
      composed_cmdOpenGate cfg)

theorem composed_cancelValidating : Composed cancelValidating := by
  refine composed_then trivial fun i => ?_
  cases i with
  | none => exact .pure _
  | some i => exact composed_ask trivial

theorem composed_cmdRejectCard (line1 line2 : String) (audioTrack : Int) (displaySeconds : String) :
    Composed (cmdRejectCard cfg line1 line2 audioTrack displaySeconds) :=
  composed_cancelValidating.bind fun _ => (composed_display cfg _ _).bind fun _ =>
    (composed_cmdPlayAudio cfg _).bind fun _ => composed_then trivial fun _ =>
      (composed_transition _).bind fun _ => composed_display cfg _ _

theorem Composed.done {α : Type} {p : Work α} (hp : Composed p) :
    Composed (p >>= fun _ => pure true) :=
  hp.bind fun _ => .pure _

theorem composed_handleCommand (command : Fields) : Composed (handleCommand cfg command) := by
  unfold handleCommand
  refine Composed.attempt ?_ (.pure _)
  refine Made.ite (composed_cmdOpenGate cfg).done (Made.ite (composed_relayClose cfg).done
    (Made.ite (composed_relayBrake cfg).done (Made.ite ?_ (Made.ite (composed_display cfg _ _).done
    (Made.ite (composed_cmdPrintTicketThenOpen cfg _ _).done (Made.ite ?_
    (Made.ite (composed_idle cfg).done (Made.ite ?_ (.pure _)))))))))
  · exact (composed_orValueError _).bind fun _ => (composed_cmdPlayAudio cfg _).done
  · generalize Upload.pyInt _ = audioTrack, pyFloat _ = displaySeconds
    exact (composed_orValueError _).bind fun _ => (composed_orValueError _).bind fun _ =>
      (composed_cmdRejectCard cfg _ _ _ _).done
  · exact (composed_orValueError _).bind fun _ => (composed_dispatch cfg _).done

theorem composed_processCommand (id : Nat) (fields : Fields) :
    Composed (processCommand cfg id fields) :=
  Composed.attempt ((composed_handleCommand cfg fields).bind fun _ =>
    Made.ite (composed_then trivial fun _ => Made.ite (.pure _) (.raise _)) (.pure _)) (.pure _)

end Commands

section Loops
variable (cfg : Config)

/-- The stream of commands is read by the command loop only. -/
abbrev Unread {α : Type} (p : Work α) : Prop := Only (· ≠ .xreadgroup) (fun _ => True) p

variable {α : Type} {p q : Work α}

theorem Inner.unread (h : Inner p) : Unread p :=
  h.mono (fun o ho heq => by rw [heq] at ho; exact ho) fun _ h => h

theorem unread_ask {o : LaneOp} (h : o ≠ .xreadgroup) : Unread (ask o) := only_perform h

theorem unread_then {o : LaneOp} {f : o.Ans → Work α} (h : o ≠ .xreadgroup)
    (hf : ∀ a, Unread (f a)) : Unread (ask o >>= f) := (unread_ask h).bind hf

theorem Unread.ite {c : Prop} [Decidable c] (hp : Unread p) (hq : Unread q) :
    Unread (if c then p else q) := by
  split
  · exact hp
  · exact hq

theorem Unread.attempt (hp : Unread p) (hq : Unread q) : Unread (attempt p q) :=
  hp.handle fun _ _ => hq

theorem unread_processRssBuffer (n : Nat) (buffer : Bytes) :
    Unread (processRssBuffer cfg n buffer) := by
  induction n generalizing buffer with
  | zero => exact only_pure
  | succ n ih =>
    unfold processRssBuffer
    split
    · exact only_pure
    · split
      · exact only_pure
      · exact only_pure
      · exact unread_then nofun fun _ => (composed_dispatch cfg _).inner.unread.bind fun _ => ih _

theorem inner_setupRss : Inner setupRss :=
  inner_then trivial fun _ =>
    Inner.ite (inner_then trivial fun _ => Inner.ite only_pure inner_raise) only_pure

theorem unread_rssListener : Unread (rssListener cfg) := by
  refine Unread.attempt (unread_then nofun fun _ => Unread.ite ?_ ?_) (unread_ask nofun)
  · refine unread_then nofun fun _ => unread_then nofun fun chunk => ?_
    cases chunk with
    | none => exact inner_raise.unread
    | some chunk =>
      refine Unread.ite ?_ only_pure
      refine unread_then nofun fun _ => unread_then nofun fun _ => ?_
      exact (unread_processRssBuffer cfg _ _).bind fun _ => unread_ask nofun
  · refine unread_then nofun fun _ => unread_then nofun fun _ =>
      unread_then nofun fun _ => unread_then nofun fun _ => Unread.ite ?_ ?_
    · exact inner_setupRss.unread.bind fun _ => unread_then nofun fun _ => unread_ask nofun
    · exact unread_then nofun fun _ => unread_then nofun fun _ => unread_ask nofun

theorem unread_rfidSerialReaderTask : Unread (rfidSerialReaderTask cfg) := by
  refine Unread.attempt (unread_then nofun fun raw => ?_) (unread_ask nofun)
  cases raw with
  | none => exact inner_raise.unread
  | some raw =>
    refine Unread.ite (unread_then nofun fun _ => Unread.ite ?_ only_pure) only_pure
    exact (composed_onRfidCardRead _ _).inner.unread

theorem unread_controllerHeartbeat : Unread controllerHeartbeat :=
  unread_then nofun fun _ => unread_then nofun fun _ =>
    Unread.ite (composed_send rfl).inner.unread only_pure

theorem unread_timer (t : Timer) : Unread (Cause.code cfg (.timer t)) := by
  cases t with
  | validating n =>
    exact unread_then nofun fun _ => (composed_check (composed_idle cfg) (.pure _)).inner.unread
  | vehiclePass n =>
    exact unread_then nofun fun _ =>
      (composed_check (composed_onVehiclePassed cfg) (.pure _)).inner.unread

end Loops

section Consumer
variable {α : Type}

theorem composed_orDatabaseError (x : Option α) : Composed (orDatabaseError x) := by
  cases x with
  | none => exact .raise _
  | some a => exact .pure _

theorem composed_commit : Composed commit :=
  composed_then trivial fun _ => Made.ite (.pure _) (.raise _)

theorem composed_publishCommand (c : RedisCommand) (n : Nat) : Composed (publishCommand c n) :=
  composed_then trivial fun _ => Made.ite (.pure _) (.raise _)

theorem composed_handleTicketButtonPressed (n : Nat) : Composed (handleTicketButtonPressed n) := by
  refine Composed.attempt ?_ (.pure _)
  refine composed_then trivial fun _ => (composed_orDatabaseError _).bind fun gate => ?_
  cases gate with
  | none => exact .pure _
  | some gate =>
    exact composed_then trivial fun _ => composed_then trivial fun _ =>
      (composed_orDatabaseError _).bind fun _ => composed_commit.bind fun _ =>
        composed_publishCommand _ _

theorem composed_handleRfidExit (gate : GateRow) (cardNumber : String) (n : Nat) :
    Composed (handleRfidExit gate cardNumber n) := by
  refine composed_then trivial fun out => ?_
  cases out with
  | success => exact composed_commit
  | value msg => exact (composed_publishCommand _ _).bind fun _ => composed_publishCommand _ _
  | failed => exact .raise _

theorem composed_warnExpiry (member : MemberRow) (n : Nat) : Composed (warnExpiry member n) := by
  have hwarn (c c' : RedisCommand) : Composed (do
      publishCommand c n
      publishCommand c' n
      ask (.sleep (.ms 6000))) :=
    (composed_publishCommand _ _).bind fun _ => (composed_publishCommand _ _).bind fun _ =>
      composed_ask trivial
  unfold warnExpiry
  split
  · exact .pure _
  · exact composed_then trivial fun _ => (hwarn _ _).ite ((hwarn _ _).ite (.pure _))

theorem composed_expired (member : MemberRow) : Composed (expired member) := by
  unfold expired
  split
  · exact .pure _
  · exact composed_then trivial fun _ => (.pure _)

theorem composed_handleRfidEntry (gate : GateRow) (cardNumber : String) (n : Nat) :
    Composed (handleRfidEntry gate cardNumber n) := by
  refine composed_then trivial fun _ => (composed_orDatabaseError _).bind fun member => ?_
  cases member with
  | none => exact composed_publishCommand _ _
  | some member =>
    refine (composed_publishCommand _ _).ite ((composed_expired member).bind fun _ =>
      (composed_publishCommand _ _).ite (composed_then trivial fun _ =>
        (composed_orDatabaseError _).bind fun _ => (composed_publishCommand _ _).ite ?_))
    exact (composed_warnExpiry member n).bind fun _ => composed_then trivial fun _ =>
      (composed_orDatabaseError _).bind fun _ => composed_commit.bind fun _ =>
        composed_publishCommand _ _

theorem composed_handleMessage (e : GateEvent) (n : Nat) : Composed (handleMessage e n) := by
  cases e with
  | ticketButtonPressed => exact composed_handleTicketButtonPressed n
  | rfidCardRead cardNumber channel =>
    refine Composed.attempt ?_ (.pure _)
    refine composed_then trivial fun _ => (composed_orDatabaseError _).bind fun gate => ?_
    cases gate with
    | none => exact .pure _
    | some gate => exact (composed_handleRfidExit _ _ _).ite (composed_handleRfidEntry _ _ _)
  | _ => exact .pure _

end Consumer

/-- The command loop reads one command, and no other task reads any. -/
theorem unread_code (cfg : Config) {c : Cause} (hc : c ≠ .commands) : Unread (c.code cfg) := by
  cases c with
  | rss => exact unread_rssListener cfg
  | commands => exact absurd rfl hc
  | serial => exact unread_rfidSerialReaderTask cfg
  | heartbeat => exact unread_controllerHeartbeat
  | timer t => exact unread_timer cfg t
  | event e n => exact (composed_handleMessage e n).inner.unread

theorem unread_after_command (cfg : Config) :
    ∃ k, consumeCommands cfg = .call .xreadgroup k ∧ ∀ a, Unread (k a) := by
  refine ⟨_, rfl, fun a => ?_⟩
  cases a with
  | failed => exact unread_ask nofun
  | nothing => exact only_pure
  | message c =>
    exact (composed_processCommand cfg c.id c.fields).inner.unread.attempt (unread_ask nofun)

end ParkIt.GateIn
