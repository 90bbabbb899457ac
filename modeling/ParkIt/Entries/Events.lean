import ParkIt.Entries.Database
import ParkIt.Services.Inventory

/-! How far a handler has come, and what it keeps to whatever it is answered. -/
namespace ParkIt.Entries

open Effects Sessions GateIn

/-- The two ways in: with a ticket, or with the card of a member. -/
inductive Way where
  | ticket (g : GateRow) (barcode : String)
  | card (g : GateRow) (cardNumber : String) (m : MemberRow) (day : Option Int)
deriving DecidableEq, Repr

namespace Way

def entry : Way → NewEntry
  | .ticket g barcode => { barcode := some barcode, gateInId := g.id, paymentMethod := .cash }
  | .card g cardNumber m _ =>
    { cardNumber := some cardNumber, gateInId := g.id, paymentMethod := .rfidMember
      memberId := some m.id, vehicleTypeId := m.vehicleTypeId, plateNumber := m.plateNumber }

/-- The command that opens the gate. -/
def opening : Way → RedisCommand
  | .ticket g barcode => .printTicketThenOpen barcode g.name
  | .card _ _ _ _ => .openGate none "operator"

/-- What the checks of the handler have established. -/
def Vetted : Way → Prop
  | .ticket _ barcode => barcode.length = 12
  | .card g _ m day =>
    g.directionOut = false ∧ m.isActive = true ∧ ∀ v ∈ m.validUntil, ∃ t ∈ day, t ≤ v

end Way

def opens : RedisCommand → Bool
  | .openGate _ _ | .printTicketThenOpen _ _ => true
  | _ => false

inductive Phase where
  | begun
  | found (g : GateRow)
  | member (g : GateRow) (cardNumber : String) (m : MemberRow) (day : Option Int)
  | ready (w : Way)
  | stored (w : Way)
  | committed (w : Way)
  | exiting
  | closed
  | paying
deriving DecidableEq, Repr

namespace Phase

def gateFound : Phase → Option (Option GateRow) → Phase
  | .begun, a => (a.join.map Phase.found).getD .closed
  | p, _ => p

def drawn : Phase → String → Phase
  | .found g, barcode => .ready (.ticket g barcode)
  | p, _ => p

def memberFound : Phase → String → Option (Option MemberRow) → Phase
  | .found g, cardNumber, a => (a.join.map fun m => Phase.member g cardNumber m none).getD .closed
  | p, _, _ => p

def dated : Phase → Int → Phase
  | .member g cardNumber m _, day => .member g cardNumber m (some day)
  | p, _ => p

def unclosed : Phase → Option Bool → Phase
  | .member g cardNumber m day, a =>
    if a = some false then .ready (.card g cardNumber m day) else .closed
  | p, _ => p

def flushed : Phase → Bool → Phase
  | .ready w, ok => if ok then .stored w else .closed
  | p, _ => p

def commits : Phase → Bool → Phase
  | .stored w, ok => if ok then .committed w else .closed
  | p, _ => p

def exits : Phase → Phase
  | .found _ => .exiting
  | p => p

def published : Phase → Phase
  | .committed _ => .closed
  | p => p

def next (p : Phase) : (o : EntryOp) → o.Ans → Phase
  | .lane .gateByCode, a => p.gateFound a
  | .lane .uuid, barcode => p.drawn barcode
  | .lane (.memberByCard cardNumber), a => p.memberFound cardNumber a
  | .lane .today, day => p.dated day
  | .lane (.unclosed _), a => p.unclosed a
  | .lane (.createEntry _), a => p.flushed a.isSome
  | .lane .commit, ok => p.commits ok
  | .lane (.processRfidPayment _ _), _ => p.exits
  | .lane (.publishCommand _ _), _ => p.published
  | _, _ => p

/-- The handler has written nothing yet. -/
def Clean : Phase → Prop
  | .begun | .found _ | .member _ _ _ _ | .ready _ => True
  | _ => False

/-- The handler has committed a stay and has not opened the gate for it. -/
def Owes : Phase → Prop
  | .committed _ => True
  | _ => False

end Phase

structure Note where
  origin : Option Origin
  event : Option GateIn.GateEvent
  phase : Phase
deriving DecidableEq, Repr

/-- A payment does not insert stays. -/
def Pays : ApiOp → Prop
  | .ext (.insertTx _) => False
  | _ => True

/-- What a handler keeps to. -/
def Note.Allows (g : Note) : EntryOp → Prop
  | .api o => g.phase = .paying ∧ Pays o
  | .lane .commit => g.phase = .paying ∨ g.phase = .exiting ∨ ∃ w, g.phase = .stored w
  | .lane .gateByCode => g.phase = .begun
  | .lane .uuid => ∃ gate, g.phase = .found gate ∧ g.event = some .ticketButtonPressed
  | .lane (.memberByCard cardNumber) => ∃ gate channel, g.phase = .found gate ∧
      gate.directionOut = false ∧ g.event = some (.rfidCardRead cardNumber channel)
  | .lane (.processRfidPayment _ _) => ∃ gate, g.phase = .found gate
  | .lane (.unclosed _) => ∃ gate cardNumber m day, g.phase = .member gate cardNumber m day ∧
      (Way.card gate cardNumber m day).Vetted
  | .lane (.createEntry e) => ∃ w, g.phase = .ready w ∧ w.Vetted ∧ e = w.entry
  | .lane (.publishCommand c n) => ∃ gateId, g.origin = some (n, gateId) ∧
      (opens c = false ∧ ¬ g.phase.Owes ∨ ∃ w, g.phase = .committed w ∧ c = w.opening)
  | .lane .today | .lane (.sleep _) => ¬ g.phase.Owes
  | .lane _ => False

/-- What an answer of the database to a flush says. -/
def Fair : (o : EntryOp) → o.Ans → Prop
  | .lane (.createEntry e), some barcode => barcode = e.barcode
  | .lane .uuid, barcode => barcode.length = 12
  | _, _ => True

def entryRules : Protocol EntryOp EntryOp.Ans Note where
  allow := Note.Allows
  expect _ := Fair
  next g o a := { g with phase := g.phase.next o a }

/-- The rules for a consumer. -/
def laneRules : Protocol LaneOp LaneOp.Ans Note where
  allow g o := g.Allows (.lane o)
  expect _ o a := Fair (.lane o) a
  next g o a := { g with phase := g.phase.next (.lane o) a }

section Consumer
variable {g : Note} {n : Nat} {gateId : String} {event : Option GateIn.GateEvent} {phase : Phase}

/-- A message of the gate, in some phase of its handling. -/
abbrev handling (n : Nat) (gateId : String) (event : Option GateIn.GateEvent) (phase : Phase) :
    Note where
  origin := some (n, gateId)
  event := event
  phase := phase

abbrev Keeps (g : Note) (p : GateIn.Work Unit) : Prop :=
  Follows laneRules g p (fun _ _ => True) fun _ _ => True

theorem keeps_ask {o : LaneOp} {f : o.Ans → GateIn.Work Unit} (h : g.Allows (.lane o))
    (hf : ∀ a, Fair (.lane o) a → Keeps (laneRules.next g o a) (f a)) : Keeps g (ask o >>= f) :=
  ⟨h, hf⟩

theorem keeps_attempt {p : GateIn.Work Unit} (h : Keeps g p) : Keeps g (attempt p (pure ())) :=
  follows_handle.mpr (h.mono (fun _ _ _ => trivial) fun _ _ _ => trivial)

theorem keeps_bind {p : GateIn.Work Unit} {f : Unit → GateIn.Work Unit} {n : Note}
    (h : Follows laneRules g p (fun g _ => g = n) fun _ _ => True) (hf : Keeps n (f ())) :
    Keeps g (p >>= f) :=
  h.bind (fun _ _ _ => trivial) fun _ _ he => he ▸ hf

/-- A command that does not open the gate, in a phase that it leaves as it is. -/
theorem follows_publish {c : RedisCommand} (hc : opens c = false)
    (hnext : ∀ a : Bool, phase.next (.lane (.publishCommand c n)) a = phase)
    (hphase : ¬ phase.Owes) :
    Follows laneRules (handling n gateId event phase) (publishCommand c n)
      (fun g _ => g = handling n gateId event phase) fun _ _ => True := by
  refine ⟨⟨gateId, rfl, Or.inl ⟨hc, hphase⟩⟩, fun a _ => ?_⟩
  · have hsame : laneRules.next (handling n gateId event phase) (.publishCommand c n) a =
        handling n gateId event phase := congrArg (handling n gateId event) (hnext a)
    rw [hsame]
    cases a
    · exact trivial
    · exact rfl

/-- From the insert to the command that opens the gate. -/
theorem keeps_entry {w : Way} (hw : w.Vetted) :
    Keeps (handling n gateId event (.ready w)) (do
      let stored ← orDatabaseError (← ask (.createEntry w.entry))
      commit
      publishCommand (match w with
        | .ticket g _ => .printTicketThenOpen (stored.getD "None") g.name
        | .card _ _ _ _ => .openGate none "operator") n) := by
  refine keeps_ask ⟨w, rfl, hw, rfl⟩ fun a ha => ?_
  cases a with
  | none => exact trivial
  | some stored =>
    obtain rfl : stored = w.entry.barcode := ha
    refine keeps_ask (Or.inr (Or.inr ⟨w, rfl⟩)) fun ok _ => ?_
    cases ok with
    | false => exact trivial
    | true =>
      refine ⟨⟨gateId, rfl, Or.inr ⟨w, rfl, ?_⟩⟩, fun ok _ => ?_⟩
      · cases w <;> rfl
      · cases ok <;> exact trivial

theorem keeps_ticketButtonPressed :
    Keeps (handling n gateId (some .ticketButtonPressed) .begun) (handleTicketButtonPressed n) := by
  refine keeps_attempt (keeps_ask rfl fun a _ => ?_)
  rcases a with _ | _ | gate
  · exact trivial
  · exact trivial
  · refine keeps_ask (o := .uuid) ⟨gate, rfl, rfl⟩ fun barcode hlength => ?_
    exact keeps_entry (w := .ticket gate barcode) hlength

theorem keeps_rfidExit {gate : GateRow} (cardNumber : String) :
    Keeps (handling n gateId event (.found gate)) (handleRfidExit gate cardNumber n) := by
  refine keeps_ask ⟨gate, rfl⟩ fun a _ => ?_
  cases a with
  | failed => exact trivial
  | success =>
    refine ⟨Or.inr (Or.inl rfl), fun ok _ => ?_⟩
    cases ok <;> exact trivial
  | value msg =>
    refine keeps_bind (n := handling n gateId event .exiting) (follows_publish ?_ ?_ ?_) ?_
    · split <;> rfl
    · exact fun _ => rfl
    · exact not_false
    · have howed : ¬ Phase.exiting.Owes := not_false
      exact (follows_publish rfl (fun _ => rfl) howed).mono (fun _ _ _ => trivial) fun _ _ h => h

/-- The date is looked at only for a card that can expire. -/
theorem follows_expired {gate : GateRow} {cardNumber : String} (m : MemberRow) :
    Follows laneRules (handling n gateId event (.member gate cardNumber m none)) (expired m)
      (fun g late => ∃ day, g = handling n gateId event (.member gate cardNumber m day) ∧
        (late = false → ∀ v ∈ m.validUntil, ∃ t ∈ day, t ≤ v)) fun _ _ => True := by
  unfold expired
  cases hvalid : m.validUntil with
  | none => exact ⟨none, rfl, fun _ => nofun⟩
  | some validUntil =>
    refine ⟨not_false, fun (today : Int) _ => ⟨some today, rfl, ?_⟩⟩
    intro hlate v hv
    cases hv
    exact ⟨today, rfl, not_lt.mp (of_decide_eq_false hlate)⟩

theorem follows_warnExpiry {w : Way} (m : MemberRow) :
    Follows laneRules (handling n gateId event (.ready w)) (warnExpiry m n)
      (fun g _ => g = handling n gateId event (.ready w)) fun _ _ => True := by
  have hpublish : ∀ {c : RedisCommand}, opens c = false →
      Follows laneRules (handling n gateId event (.ready w)) (publishCommand c n)
        (fun g _ => g = handling n gateId event (.ready w)) fun _ _ => True :=
    fun hc => follows_publish hc (fun _ => rfl) not_false
  have hwarn : ∀ {c c' : RedisCommand}, opens c = false → opens c' = false →
      Follows laneRules (handling n gateId event (.ready w)) (do
        publishCommand c n
        publishCommand c' n
        ask (.sleep (.ms 6000))) (fun g _ => g = handling n gateId event (.ready w))
          fun _ _ => True := by
    intro c c' hc hc'
    refine (hpublish hc).bind (fun _ _ h => h) ?_
    rintro _ _ rfl
    refine (hpublish hc').bind (fun _ _ h => h) ?_
    rintro _ _ rfl
    exact ⟨not_false, fun _ _ => rfl⟩
  unfold warnExpiry
  cases m.validUntil with
  | none => exact rfl
  | some validUntil =>
    refine ⟨not_false, fun (today : Int) _ => ?_⟩
    change Follows laneRules (handling n gateId event (.ready w))
      (if validUntil - today = 1 then _ else _) _ _
    split
    · exact hwarn rfl rfl
    · split
      · exact hwarn rfl rfl
      · exact rfl

theorem keeps_reject {phase : Phase} {line1 line2 : String} {track : Int}
    (hnext : ∀ (c : RedisCommand) (a : Bool), phase.next (.lane (.publishCommand c n)) a = phase)
    (hphase : ¬ phase.Owes) :
    Keeps (handling n gateId event phase) (publishCommand (rejectCard line1 line2 track) n) :=
  (follows_publish rfl (hnext _) hphase).mono (fun _ _ _ => trivial) fun _ _ h => h

theorem keeps_rfidEntry {gate : GateRow} {cardNumber channel : String}
    (hgate : gate.directionOut = false) :
    Keeps (handling n gateId (some (.rfidCardRead cardNumber channel)) (.found gate))
      (handleRfidEntry gate cardNumber n) := by
  refine keeps_ask ⟨gate, channel, rfl, hgate, rfl⟩ fun a _ => ?_
  rcases a with _ | _ | m
  · exact trivial
  · exact keeps_reject (fun _ _ => rfl) not_false
  change Keeps (handling n gateId _ (.member gate cardNumber m none))
    (if (!m.isActive) = true then _ else _)
  split
  · exact keeps_reject (fun _ _ => rfl) not_false
  rename_i hactive
  refine (follows_expired m).bind (fun _ _ _ => trivial) ?_
  rintro _ late ⟨day, rfl, hday⟩
  split
  · exact keeps_reject (fun _ _ => rfl) not_false
  rename_i hlate
  have hvetted : (Way.card gate cardNumber m day).Vetted :=
    ⟨hgate, by simpa using hactive, hday (by simpa using hlate)⟩
  refine keeps_ask ⟨gate, cardNumber, m, day, rfl, hvetted⟩ fun a _ => ?_
  rcases a with _ | _ | _
  · exact trivial
  · refine keeps_bind (follows_warnExpiry (w := .card gate cardNumber m day) m) ?_
    exact keeps_entry (w := .card gate cardNumber m day) hvetted
  · exact keeps_reject (fun _ _ => rfl) not_false

theorem keeps_rfidCardRead {cardNumber channel : String} :
    Keeps (handling n gateId (some (.rfidCardRead cardNumber channel)) .begun)
      (handleRfidCardRead cardNumber n) := by
  refine keeps_attempt (keeps_ask rfl fun a _ => ?_)
  rcases a with _ | _ | gate
  · exact trivial
  · exact trivial
  · change Keeps (handling n gateId _ (.found gate)) (if gate.directionOut = true then _ else _)
    split
    · exact keeps_rfidExit cardNumber
    · exact keeps_rfidEntry (by simpa using ‹¬ gate.directionOut = true›)

theorem keeps_handleMessage (e : GateIn.GateEvent) :
    Keeps (handling n gateId (some e) .begun) (handleMessage e n) := by
  cases e with
  | ticketButtonPressed => exact keeps_ticketButtonPressed
  | rfidCardRead cardNumber channel => exact keeps_rfidCardRead
  | _ => exact trivial

end Consumer

abbrev Follow (g : Note) (p : Work Unit) : Prop :=
  Follows entryRules g p (fun _ _ => True) fun _ _ => True

theorem follows_consume (e : GateIn.GateEvent) (n : Nat) (gateId : String) :
    Follow (handling n gateId (some e) .begun) (consume e n) :=
  (keeps_handleMessage e).relabel (fun _ _ h => h) (fun _ _ _ h => h) (fun _ _ _ => rfl)
    fun _ _ h => h

/-- The payments that reach the consumers' table. -/
def Payment (k : Call) : Prop := ∀ r, k ≠ .entry r

theorem only_payment {k : Call} (hk : Payment k) :
    Only Pays (fun _ => True) (Api.exceptValueError k.handler fun _ => pure ()) := by
  have hcovers : Covers Pays :=
    { ambient := by
        intro o ho
        cases o with
        | ext e => cases e <;> first | exact ho.elim | trivial
        | _ => trivial
      lock := fun _ => trivial
      update := fun _ _ => trivial
      member := fun _ => trivial }
  have hpays : Only Pays (fun _ => True) k.handler := by
    cases k with
    | entry r => exact absurd rfl (hk r)
    | cash a => exact (only_cash hcovers a).bind fun _ => trivial
    | rfid a => exact (only_rfid hcovers a).bind fun _ => trivial
    | deduct a => exact (only_deduct hcovers a fun _ => trivial).bind fun _ => trivial
    | result a =>
      exact (only_result hcovers a trivial trivial trivial fun _ => trivial).bind fun _ => trivial
  refine hpays.handle fun e _ => ?_
  cases e <;> trivial

/-- A payment, whose session has no message behind it. -/
def payment : Note where
  origin := none
  event := none
  phase := .paying

/-- The rules for the database session of a payment. -/
def apiRules : Protocol ApiOp ApiOp.Ans Note where
  allow g o := g.Allows (.api o)
  expect _ o a := Fair (.api o) a
  next g o a := { g with phase := g.phase.next (.api o) a }

theorem follows_pay {k : Call} (hk : Payment k) : Follow payment (pay k) := by
  have hwork : Follows apiRules payment (Api.exceptValueError k.handler fun _ => pure ())
      (fun g _ => g = payment) fun g _ => g = payment ∧ True :=
    (only_payment hk).follows fun o ho => ⟨⟨rfl, ho⟩, fun _ => rfl⟩
  have hrelabel : Follows entryRules payment
      ((Api.exceptValueError k.handler fun _ => pure ()).relabel .api (fun _ a => a) .api :
        Work Unit) (fun g _ => g = payment) fun _ _ => True :=
    hwork.relabel (fun _ _ h => h) (fun _ _ _ h => h) (fun _ _ _ => rfl) fun _ _ _ => trivial
  refine hrelabel.bind (fun _ _ h => h) ?_
  rintro _ _ rfl
  refine ⟨Or.inl rfl, fun ok _ => ?_⟩
  cases ok <;> exact trivial

end ParkIt.Entries
