import ParkIt.Lib.Sessions
import ParkIt.Lib.UniqueIndex
import ParkIt.GateIn.Consumer
import ParkIt.Calls

/-! The event consumers and the payment routes over one database and the gates' streams. -/
namespace ParkIt.Entries

open Effects Sessions GateIn

/-- The consumer's operations, and those of the database session of a payment. -/
inductive EntryOp where
  | lane (o : LaneOp)
  | api (o : ApiOp)

abbrev EntryOp.Ans : EntryOp → Type
  | .lane o => o.Ans
  | .api o => o.Ans

inductive EntryExc where
  | lane (e : LaneExc)
  | api (e : Exc)
deriving DecidableEq, Repr

abbrev Work (α : Type) := Prog EntryOp EntryOp.Ans EntryExc α

/-- What a consumer does with the message `n`. -/
def consume (e : GateIn.GateEvent) (n : Nat) : Work Unit :=
  (handleMessage e n).relabel .lane (fun _ a => a) .lane

/-- The route answers a `ValueError`, and `get_db` commits. -/
def pay (k : Call) : Work Unit := do
  (Api.exceptValueError k.handler fun _ => pure ()).relabel .api (fun _ a => a) .api
  commit.relabel .lane (fun _ a => a) .lane

/-- The message that a row was created for, and the gate that has sent it. -/
abbrev Origin := Nat × String

/-- A row of `parking_transactions`; the origin is there for the statements only. -/
structure Row where
  tx : ParkingTransaction
  origin : Option Origin := none
deriving DecidableEq, Repr

/-- A column that is not NULL has the same value in both rows. -/
def Shares (column : ParkingTransaction → Option String) (t u : ParkingTransaction) : Prop :=
  column t ≠ none ∧ column t = column u

theorem Shares.symm {column : ParkingTransaction → Option String} {t u : ParkingTransaction}
    (h : Shares column t u) : Shares column u t := ⟨h.2 ▸ h.1, h.2.symm⟩

/-- The partial indexes `uq_active_card` and `uq_active_barcode`. -/
def uniqueIndexes : UniqueIndex.Index Id Row where
  key r := r.tx.id
  Clash r q := r.tx.id ≠ q.tx.id ∧ r.tx.status = .active ∧ q.tx.status = .active ∧
    (Shares (·.cardNumber) r.tx q.tx ∨ Shares (·.barcode) r.tx q.tx)
  symm h := ⟨Ne.symm h.1, h.2.2.1, h.2.1, h.2.2.2.imp Shares.symm Shares.symm⟩
  apart h := h.1

/-- An entry of the stream of a gate; the number is that of the message it answers. -/
structure StreamEntry where
  gateId : String
  message : Nat
  command : RedisCommand
deriving DecidableEq, Repr

structure Stores where
  table : UniqueIndex.Table Nat Row
  nextTx : Id := 1
  nextXid : Nat := 1
  gates : List (String × GateRow) := []
  members : List (String × MemberRow) := []
  today : Int := 0
  stream : List StreamEntry := []

/-- A handler's database session; its transaction gets an id with the first write. -/
structure Own where
  origin : Option Origin := none
  xid : Option Nat := none
deriving DecidableEq, Repr

namespace Own
variable (own : Own) (d : Stores)

def writer : Nat := own.xid.getD d.nextXid

def writing : Own := { own with xid := some (own.writer d) }

end Own

namespace Stores
variable (d : Stores) (own : Own)

/-- What the database session sees. -/
def visible : List Row :=
  match own.xid with
  | none => d.table.rows
  | some x => d.table.view uniqueIndexes x

/-- The flush of a row is neither refused by an index nor by a transaction that is gone. -/
structure Accepts (r : Row) : Prop where
  admits : d.table.Admits uniqueIndexes (own.writer d) r
  alive : ∀ x, own.xid = some x → d.table.own x ≠ []

def write (r : Row) : Stores :=
  { d with table := d.table.put uniqueIndexes (own.writer d) r
           nextXid := max d.nextXid (own.writer d + 1) }

def stored (own : Own) (t : ParkingTransaction) : Row := ⟨t.stored d.nextTx, own.origin⟩

/-- The sequence goes on whether or not the row is inserted. -/
def inserted (t : ParkingTransaction) : Stores :=
  { d.write own (d.stored own t) with nextTx := d.nextTx + 1 }

def add (own : Own) (n : Nat) (c : RedisCommand) : Stores :=
  { d with stream := d.stream ++ [⟨(own.origin.map Prod.snd).getD "", n, c⟩] }

end Stores

def Row.update (r : Row) (u : TxUpdate) : Row := { r with tx := u.apply r.tx }

/-- The row of `create_entry_transaction`. -/
def entryRow (e : NewEntry) (entryTime : DateTime) : ParkingTransaction :=
  EntryRequest.row
    { barcode := e.barcode, cardNumber := e.cardNumber, plateNumber := e.plateNumber
      vehicleTypeId := e.vehicleTypeId, gateInId := some e.gateInId
      paymentMethod := e.paymentMethod, memberId := e.memberId } entryTime

/-- The update by which the exit of a member completes its stay. -/
def MemberExit (gateOutId : Id) (cardNumber : String) (r : Row) (u : TxUpdate) : Prop :=
  r.tx.status = .active ∧ r.tx.cardNumber = some cardNumber ∧ ∃ exitTime memberId shiftId,
    u = .exit exitTime (RfidPayment.exit { gateId := "", gateOutId, cardNumber } memberId shiftId)

/-- What an operation does and answers; the tables that no statement below is about, and what
Redis keeps for the payments, are free. A locking select only narrows what others may do. -/
inductive Acts : (o : EntryOp) → Stores → Own → o.Ans → Stores → Own → Prop
  | gateByCode {d own} : Acts (.lane .gateByCode) d own
      (some (own.origin.bind fun m => d.gates.lookup m.2)) d own
  | memberByCard {d own cardNumber} : Acts (.lane (.memberByCard cardNumber)) d own
      (some (d.members.lookup cardNumber)) d own
  | unclosed {d own cardNumber} : Acts (.lane (.unclosed cardNumber)) d own
      (some ((d.visible own).any fun r =>
        r.tx.status = .active ∧ r.tx.cardNumber = some cardNumber)) d own
  | today {d own} : Acts (.lane .today) d own d.today d own
  | uuid {d own barcode} : barcode.length = 12 → Acts (.lane .uuid) d own barcode d own
  | sleep {d own delay} : Acts (.lane (.sleep delay)) d own () d own
  | createEntry {d own e entryTime} : d.Accepts own (d.stored own (entryRow e entryTime)) →
      Acts (.lane (.createEntry e)) d own (some e.barcode) (d.inserted own (entryRow e entryTime))
        (own.writing d)
  | createRaises {d own e n} : d.nextTx ≤ n →
      Acts (.lane (.createEntry e)) d own none { d with nextTx := n } own
  | exitRfid {d own gateOutId cardNumber r u} : r ∈ d.visible own →
      MemberExit gateOutId cardNumber r u → d.Accepts own (r.update u) →
      Acts (.lane (.processRfidPayment gateOutId cardNumber)) d own .success
        (d.write own (r.update u)) (own.writing d)
  | exitRefused {d own gateOutId cardNumber a} : a ≠ .success →
      Acts (.lane (.processRfidPayment gateOutId cardNumber)) d own a d own
  | commit {d own x} : own.xid = some x → d.table.own x ≠ [] →
      Acts (.lane .commit) d own true { d with table := d.table.commit uniqueIndexes x }
        { own with xid := none }
  | commitNothing {d own} : own.xid = none → Acts (.lane .commit) d own true d own
  | commitLost {d own x} : own.xid = some x → d.table.own x ≠ [] →
      Acts (.lane .commit) d own false { d with table := d.table.commit uniqueIndexes x }
        { own with xid := none }
  | commitRaises {d own} : Acts (.lane .commit) d own false d own
  | publish {d own c n} : Acts (.lane (.publishCommand c n)) d own true (d.add own n c) own
  | publishLost {d own c n} : Acts (.lane (.publishCommand c n)) d own false (d.add own n c) own
  | publishRaises {d own c n} : Acts (.lane (.publishCommand c n)) d own false d own
  | selectRaises {d own} : Acts (.lane .gateByCode) d own none d own
  | memberRaises {d own cardNumber} : Acts (.lane (.memberByCard cardNumber)) d own none d own
  | unclosedRaises {d own cardNumber} : Acts (.lane (.unclosed cardNumber)) d own none d own
  | lock {d own f rows} : (∀ t ∈ rows, f t = true ∧ t ∈ (d.visible own).map (·.tx)) →
      Acts (.api (.lock f)) d own rows d own
  | update {d own i u r} : r ∈ d.visible own → r.tx.id = i → d.Accepts own (r.update u) →
      Acts (.api (.update i u)) d own () (d.write own (r.update u)) (own.writing d)
  | selectTx {d own f} : Acts (.api (.ext (.selectTx f))) d own
      (((d.visible own).map (·.tx)).filter f) d own
  | insertTx {d own t} : d.Accepts own (d.stored own t) →
      Acts (.api (.ext (.insertTx t))) d own (d.stored own t).tx (d.inserted own t) (own.writing d)
  | other {d own} {e : Effect} {a : e.Ans} : (∀ t, e ≠ .insertTx t) → (∀ f, e ≠ .selectTx f) →
      Acts (.api (.ext e)) d own a d own

/-- The process dies in an operation, or the operation raises in a payment. -/
inductive Fails : EntryOp → Stores → Own → Stores → Prop
  | unreached {o d own} : Fails o d own d
  | lost {o d own a d' own'} : Acts o d own a d' own' → Fails o d own d'

/-- The database gives up transactions, and the master data and the date change. -/
inductive Around : Stores → Stores → Prop
  | abort {d} (x : Nat) : Around d { d with table := d.table.abort x }
  | edited {d gates members today} : d.today ≤ today →
      Around d { d with gates, members, today }

end ParkIt.Entries
