import ParkIt.GateIn.Lane

/-! The listening loop of the event consumer: what a published string can do to it. -/
namespace ParkIt.GateIn.Listener
open Effects

inductive Json where
  | null
  | bool (b : Bool)
  | number (text : String)
  | string (s : String)
  | array (xs : List Json)
  | object (fields : List (String × Json))

def Json.isNull : Json → Bool
  | .null => true
  | _ => false

def Json.isText (t : String) : Json → Bool
  | .string s => s = t
  | _ => false

/-- What `json.loads` makes of a text; the last case is an exception that is no `JSONDecodeError`,
such as the one for brackets that are nested too deeply. -/
inductive Loaded where
  | value (j : Json)
  | decodeError
  | otherError

abbrev Payload := List (String × Json)

/-- `payload.get(key, default)`; of two fields with one name the later one is kept. -/
def field (payload : Payload) (key : String) (default : Json) : Json :=
  (payload.reverse.lookup key).getD default

/-- A message of the subscription, and what happens outside of the handlers' own `try` while it is
handled: is the log line written, and does the database session close without an exception? -/
structure Arrival where
  type : String
  data : String
  logged : Bool := true
  closed : Bool := true

/-- An event that a handler has been entered for. -/
inductive Received where
  | ticket (gateCode : Json)
  | card (gateCode cardNumber : Json)

inductive ListenOp where
  | enter (r : Received)
  | lane (o : LaneOp)

abbrev ListenOp.Ans : ListenOp → Type
  | .enter _ => Unit
  | .lane o => o.Ans

inductive ListenExc where
  | attribute
  | loads
  | log
  | session
  | lane (e : LaneExc)
deriving DecidableEq, Repr

abbrev Listening (α : Type) := Prog ListenOp ListenOp.Ans ListenExc α

/-- What the two handlers do inside of their `try`. -/
structure Bodies where
  ticket : Json → Work Unit
  card : Json → Json → Work Unit

section Code
variable (loads : String → Loaded) (bodies : Bodies)

def logLine (m : Arrival) : Listening Unit := if m.logged then pure () else Prog.raise .log

/-- `async with AsyncSessionLocal()` around the `try` of a handler. -/
def withSession (m : Arrival) (r : Received) (body : Work Unit) : Listening Unit := do
  Prog.perform (ListenOp.enter r)
  (attempt body (pure ())).relabel .lane (fun _ a => a) .lane
  if m.closed then pure () else Prog.raise .session

def handleTicketButtonPressed (m : Arrival) (payload : Payload) : Listening Unit := do
  let gateCode := field payload "gate_id" (.string "")
  logLine m
  withSession m (.ticket gateCode) (bodies.ticket gateCode)

def handleRfidCardRead (m : Arrival) (payload : Payload) : Listening Unit := do
  let gateCode := field payload "gate_id" (.string "")
  let cardNumber := field payload "card_number" (.string "")
  logLine m
  withSession m (.card gateCode cardNumber) (bodies.card gateCode cardNumber)

def handleMessage (m : Arrival) : Listening Unit :=
  match loads m.data with
  | .decodeError => logLine m
  | .otherError => Prog.raise .loads
  | .value (.object payload) =>
    let eventType := field payload "event_type" .null
    if eventType.isNull then logLine m
    else if eventType.isText "ticket_button_pressed" then
      handleTicketButtonPressed bodies m payload
    else if eventType.isText "rfid_card_read" then handleRfidCardRead bodies m payload
    else if eventType.isText "vehicle_detected" then logLine m
    else if eventType.isText "help_button_pressed" then logLine m
    else pure ()
  | .value _ => Prog.raise .attribute

/-- One turn of the loop. -/
def turn (m : Arrival) : Listening Unit :=
  if m.type = "pmessage" then handleMessage loads bodies m else pure ()

/-- The loop over the messages as they come; an exception ends it. -/
def turns : List Arrival → Listening Unit
  | [] => pure ()
  | m :: ms => do
    turn loads bodies m
    turns ms

/-- The exception is logged, and nothing starts the loop again. -/
def listen (ms : List Arrival) : Listening Unit := (turns loads bodies ms).handle fun _ => pure ()

end Code

section Runs
variable {loads : String → Loaded} {bodies : Bodies} {σ : Type}
  {answers : (o : LaneOp) → σ → o.Ans × σ} {m : Arrival} {ms : List Arrival} {s : σ}
  {log : List Received}

/-- The outside answers the handlers in any way; the events entered are noted. -/
def exec (answers : (o : LaneOp) → σ → o.Ans × σ) (o : ListenOp) (s : σ × List Received) :
    Except ListenExc o.Ans × σ × List Received :=
  match o with
  | .enter r => (.ok (), s.1, s.2 ++ [r])
  | .lane o => (.ok (answers o s.1).1, (answers o s.1).2, s.2)

/-- The event of an object, as its fields have it. -/
def eventOf (payload : Payload) : Option Received :=
  let eventType := field payload "event_type" .null
  if eventType.isText "ticket_button_pressed" then
    some (.ticket (field payload "gate_id" (.string "")))
  else if eventType.isText "rfid_card_read" then
    some (.card (field payload "gate_id" (.string "")) (field payload "card_number" (.string "")))
  else none

/-- The event that a message hands to one of the two handlers. -/
def received (loads : String → Loaded) (m : Arrival) : Option Received :=
  if m.type = "pmessage" then
    match loads m.data with
    | .value (.object payload) => eventOf payload
    | _ => none
  else none

/-- The message is not JSON or it is an object, its log line is written, and the database session
of its handler closes without an exception. -/
def Harmless (loads : String → Loaded) (m : Arrival) : Prop :=
  m.type = "pmessage" →
    match loads m.data with
    | .decodeError => m.logged = true
    | .otherError => False
    | .value (.object payload) =>
      let eventType := field payload "event_type" .null
      (eventType.isNull ∨ eventType.isText "vehicle_detected" ∨
        eventType.isText "help_button_pressed" → m.logged = true) ∧
      (eventType.isText "ticket_button_pressed" ∨ eventType.isText "rfid_card_read" →
        m.logged = true ∧ m.closed = true)
    | .value _ => False

variable (answers s log) in
/-- What is raised in the `try` of a handler stays there. -/
theorem run_body (body : Work Unit) :
    ∃ s', ((attempt body (pure ())).relabel ListenOp.lane (fun _ a => a) ListenExc.lane).run
      (exec answers) (s, log) = (.ok (), s', log) := by
  unfold attempt
  induction body generalizing s with
  | pure a => exact ⟨s, rfl⟩
  | throw e => exact ⟨s, rfl⟩
  | call o k ih => exact ih (answers o s).1 (answers o s).2

variable (answers s log) in
theorem run_withSession (m : Arrival) (r : Received) (body : Work Unit) :
    ∃ s', (withSession m r body).run (exec answers) (s, log) =
      (if m.closed then .ok () else .error .session, s', log ++ [r]) := by
  obtain ⟨s', hbody⟩ := run_body answers s (log ++ [r]) body
  refine ⟨s', ?_⟩
  have henter : (Prog.perform (ListenOp.enter r)).run (exec answers) (s, log) =
    (.ok (), s, log ++ [r]) := rfl
  rw [withSession, Prog.run_bind_ok _ _ henter, Prog.run_bind_ok _ _ hbody]
  split <;> rfl

/-- The run comes back, with these events noted, or raises, as `q` says. -/
def Turns (q : Prop) (rs : List Received) (p : Listening Unit)
    (answers : (o : LaneOp) → σ → o.Ans × σ) (s : σ) (log : List Received) : Prop :=
  ∃ a s' log', p.run (exec answers) (s, log) = (a, s', log') ∧
    (q → a = .ok () ∧ log' = log ++ rs) ∧ (¬ q → ∃ e, a = .error e)

theorem turns_pure : Turns True [] (pure ()) answers s log :=
  ⟨_, _, _, rfl, fun _ => ⟨rfl, by simp⟩, fun h => absurd trivial h⟩

theorem turns_raise {e : ListenExc} {rs : List Received} :
    Turns False rs (Prog.raise e) answers s log :=
  ⟨_, _, _, rfl, False.elim, fun _ => ⟨e, rfl⟩⟩

theorem turns_logLine : Turns (m.logged = true) [] (logLine m) answers s log := by
  unfold logLine
  rcases hm : m.logged with _ | _
  · exact ⟨_, _, _, rfl, fun h => by simp at h, fun _ => ⟨_, rfl⟩⟩
  · exact ⟨_, _, _, rfl, fun _ => ⟨rfl, by simp⟩, fun h => absurd rfl h⟩

theorem turns_handler {r : Received} {body : Work Unit} :
    Turns (m.logged = true ∧ m.closed = true) [r]
      (do logLine m; withSession m r body) answers s log := by
  unfold logLine
  rcases hm : m.logged with _ | _
  · exact ⟨_, _, _, rfl, fun h => by simp at h, fun _ => ⟨_, rfl⟩⟩
  · obtain ⟨s', hrun⟩ := run_withSession answers s log m r body
    refine ⟨_, _, _, hrun, fun h => ⟨by rw [h.2]; rfl, rfl⟩, fun h => ⟨.session, ?_⟩⟩
    rw [if_neg fun hc => h ⟨rfl, hc⟩]

theorem Turns.congr {q q' : Prop} {rs : List Received} {p : Listening Unit}
    (h : Turns q rs p answers s log) (hq : q ↔ q') : Turns q' rs p answers s log := propext hq ▸ h

theorem eq_of_isText {j : Json} {t : String} (h : j.isText t = true) : j = .string t := by
  cases j <;> simp_all [Json.isText]

theorem turns_object (payload : Payload) (hdata : loads m.data = .value (.object payload))
    (htype : m.type = "pmessage") :
    Turns (Harmless loads m) (received loads m).toList (handleMessage loads bodies m) answers s
      log := by
  unfold Harmless received handleMessage
  simp only [hdata, htype, true_imp_iff, if_true]
  unfold eventOf handleTicketButtonPressed handleRfidCardRead
  generalize field payload "event_type" .null = e
  by_cases hnull : e.isNull = true
  · obtain rfl : e = .null := by cases e <;> simp_all [Json.isNull]
    exact turns_logLine.congr (by simp [Json.isNull, Json.isText])
  by_cases hticket : e.isText "ticket_button_pressed" = true
  · obtain rfl := eq_of_isText hticket
    simpa [Json.isNull, Json.isText] using turns_handler
  by_cases hcard : e.isText "rfid_card_read" = true
  · obtain rfl := eq_of_isText hcard
    simpa [Json.isNull, Json.isText] using turns_handler
  by_cases hvehicle : e.isText "vehicle_detected" = true
  · obtain rfl := eq_of_isText hvehicle
    simpa [Json.isNull, Json.isText] using turns_logLine
  by_cases hhelp : e.isText "help_button_pressed" = true
  · obtain rfl := eq_of_isText hhelp
    simpa [Json.isNull, Json.isText] using turns_logLine
  · simpa [hnull, hticket, hcard, hvehicle, hhelp] using turns_pure

theorem turns_turn (m : Arrival) :
    Turns (Harmless loads m) (received loads m).toList (turn loads bodies m) answers s log := by
  unfold turn
  by_cases htype : m.type = "pmessage"
  · rw [if_pos htype]
    rcases hdata : loads m.data with j | _ | _
    · cases j with
      | object payload => exact turns_object payload hdata htype
      | _ => simpa [Harmless, received, handleMessage, htype, hdata] using turns_raise
    · simpa [Harmless, received, handleMessage, htype, hdata] using turns_logLine
    · simpa [Harmless, received, handleMessage, htype, hdata] using turns_raise
  · simpa [Harmless, received, htype] using turns_pure

theorem turns_turns (ms : List Arrival) :
    Turns (∀ m ∈ ms, Harmless loads m) (ms.filterMap (received loads)) (turns loads bodies ms)
      answers s log := by
  induction ms generalizing s log with
  | nil => exact turns_pure.congr (by simp)
  | cons m ms ih =>
    have hturn : Turns (Harmless loads m) (received loads m).toList (turn loads bodies m) answers
      s log := turns_turn m
    obtain ⟨a, s', log', hrun, hok, herr⟩ := hturn
    by_cases hm : Harmless loads m
    · obtain ⟨rfl, rfl⟩ := hok hm
      have hturns : Turns (∀ m ∈ ms, Harmless loads m) (ms.filterMap (received loads))
        (turns loads bodies ms) answers s' (log ++ (received loads m).toList) := ih
      obtain ⟨a, s'', log'', hrest, hoks, herrs⟩ := hturns
      refine ⟨a, s'', log'', ?_, fun hall => ?_, fun hall => herrs fun h => hall ?_⟩
      · rw [turns, Prog.run_bind_ok _ _ hrun, hrest]
      · obtain ⟨ha, hlog⟩ := hoks fun m' hm' => hall m' (List.mem_cons_of_mem _ hm')
        refine ⟨ha, ?_⟩
        rw [hlog, List.append_assoc]
        rcases hr : received loads m with _ | r <;> simp [hr]
      · exact List.forall_mem_cons.mpr ⟨hm, h⟩
    · obtain ⟨e, rfl⟩ := herr hm
      exact ⟨.error e, s', log', by rw [turns, Prog.run_bind_error _ _ hrun],
        fun hall => absurd (hall m (List.mem_cons_self)) hm, fun _ => ⟨e, rfl⟩⟩

/-- The loop goes on and every event is handled exactly when every message is harmless. -/
theorem listens_to_every_event (ms : List Arrival) :
    (∃ s', (turns loads bodies ms).run (exec answers) (s, []) =
        (.ok (), s', ms.filterMap (received loads))) ↔
      ∀ m ∈ ms, Harmless loads m := by
  have hturns : Turns (∀ m ∈ ms, Harmless loads m) (ms.filterMap (received loads))
    (turns loads bodies ms) answers s [] := turns_turns ms
  obtain ⟨a, s', log, hrun, hok, herr⟩ := hturns
  constructor
  · rintro ⟨s'', hall⟩
    by_contra hms
    obtain ⟨e, rfl⟩ := herr hms
    cases hrun.symm.trans hall
  · intro hms
    obtain ⟨rfl, rfl⟩ := hok hms
    exact ⟨s', hrun⟩

theorem run_listen (p : List Arrival) :
    (listen loads bodies p).run (exec answers) (s, log) =
      (.ok (), ((turns loads bodies p).run (exec answers) (s, log)).2) := by
  rw [listen, Prog.run_handle _ _ _ fun o s e s' h => by cases o <;> cases h]
  rcases (turns loads bodies p).run (exec answers) (s, log) with ⟨e | a, s', log'⟩ <;> rfl

/-- After a message that is not harmless nothing is listened to. -/
theorem deaf_after {m : Arrival} (hm : ¬ Harmless loads m) (ms : List Arrival) :
    (listen loads bodies (m :: ms)).run (exec answers) (s, log) =
      (listen loads bodies [m]).run (exec answers) (s, log) := by
  have hturn : Turns (Harmless loads m) (received loads m).toList (turn loads bodies m) answers
    s log := turns_turn m
  obtain ⟨a, s', log', hrun, -, herr⟩ := hturn
  obtain ⟨e, rfl⟩ := herr hm
  have hraise (ms : List Arrival) : (turns loads bodies (m :: ms)).run (exec answers) (s, log) =
      (.error e, s', log') := by
    rw [turns, Prog.run_bind_error _ _ hrun]
  rw [run_listen, run_listen, hraise, hraise]

end Runs

section Poison

/-- The handlers of the lane; the database refuses a card number that is no text. -/
def laneBodies : Bodies where
  ticket _ := GateIn.handleTicketButtonPressed 0
  card
    | _, .string cardNumber => GateIn.handleRfidCardRead cardNumber 0
    | _, _ => Prog.raise .database

def pressed : String :=
  "\x7b\"event_type\": \"ticket_button_pressed\", \"gate_id\": \"IN1\"\x7d"

/-- `json.loads` on the two texts below. -/
def loadsSample (data : String) : Loaded :=
  if data = "null" then .value .null
  else if data = pressed then
    .value (.object [("event_type", .string "ticket_button_pressed"), ("gate_id", .string "IN1")])
  else .decodeError

/-- A `null` on the channel, then a press of the ticket button. -/
def nullThenPress : List Arrival :=
  [⟨"pmessage", "null", true, true⟩, ⟨"pmessage", pressed, true, true⟩]

theorem press_after_null :
    nullThenPress.filterMap (received loadsSample) = [.ticket (.string "IN1")] ∧
      (turns loadsSample laneBodies nullThenPress).run
          (exec fun o (s : Lane) => perform "IN1" o {} s) ({}, []) =
        (.error .attribute, {}, []) ∧
      (listen loadsSample laneBodies nullThenPress).run
          (exec fun o (s : Lane) => perform "IN1" o {} s) ({}, []) =
        (.ok (), {}, []) := by
  refine ⟨by rfl, by rfl, by rfl⟩

end Poison

end ParkIt.GateIn.Listener
