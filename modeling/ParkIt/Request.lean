import ParkIt.Tables
import ParkIt.Lib.Prog
import Mathlib.Data.List.Sort

/-! What a request handler can do to the database, Redis, the clock and the job queue. -/
namespace ParkIt

open Effects

structure Pending where
  transactionId : Id
  gateOutId : Id
  fee : Int
deriving DecidableEq, Repr

structure PaymentResponse where
  success : Bool
  message : String
  transactionId : Option Id := none
  fee : Option Int := none
  changeAmount : Option Int := none
  paymentMethod : Option PaymentMethod := none
  receiptQueued : Bool := false
deriving DecidableEq, Repr

structure ReceiptData where
  transactionId : Id
  barcode : Option String
  plateNumber : Option String
  entryTime : DateTime
  exitTime : Option DateTime
  fee : Int
  paidAmount : Int
  paymentMethod : PaymentMethod
  balanceAfter : Option Int := none
deriving DecidableEq, Repr

structure Camera where
  url : String
  label : Option String := none
  username : Option String := none
  password : Option String := none
  authType : String := "none"
deriving DecidableEq, Repr

inductive Job where
  | printReceipt (gateId : String) (data : ReceiptData) (jobId : Option String)
  | takeSnapshot (gateId : String) (camera : Camera) (transactionId : Id)
      (snapshotType : String) (jobId : String)
deriving DecidableEq, Repr

inductive DbError where
  | integrity
  | lockNotAvailable
deriving DecidableEq, Repr

/-- A `ValueError` is what the routes turn into an answer; the others end in a 4xx or 5xx. -/
inductive Exc where
  | value (msg : String)
  | db (e : DbError)
  | redis
  | http (status : Nat)
deriving DecidableEq, Repr

/-- Everything but the locking selects and updates of `parking_transactions`. -/
inductive Effect where
  | now
  | setLockTimeout
  | selectTx (f : ParkingTransaction → Bool)
  | insertTx (t : ParkingTransaction)
  | insertEmoney (e : EmoneyTransaction)
  | selectMember (f : Member → Bool)
  | vehicleType (i : Id)
  | activeShifts
  | gateByCode (code : String)
  | gate (i : Id)
  | getPending (gateId : String)
  | setPending (gateId : String) (p : Pending)
  | clearPending (gateId : String)
  | getIdempotency (key : String)
  | setIdempotency (key : String) (r : PaymentResponse)
  | boothLimit (gateId : String)
  | enqueue (j : Job)

abbrev Effect.Ans : Effect → Type
  | .now => DateTime
  | .setLockTimeout => Unit
  | .selectTx _ => List ParkingTransaction
  | .insertTx _ => ParkingTransaction
  | .insertEmoney _ => EmoneyTransaction
  | .selectMember _ => Option Member
  | .vehicleType _ => Option VehicleType
  | .activeShifts => List Shift
  | .gateByCode _ => Option Gate
  | .gate _ => Option Gate
  | .getPending _ => Option Pending
  | .setPending _ _ => Unit
  | .clearPending _ => Unit
  | .getIdempotency _ => Option PaymentResponse
  | .setIdempotency _ _ => Unit
  | .boothLimit _ => Bool
  | .enqueue _ => Unit

abbrev ApiOp := RowLock.Op Id ParkingTransaction TxUpdate Effect

abbrev ApiOp.Ans : ApiOp → Type := RowLock.Op.Ans Effect.Ans

abbrev Api (α : Type) := RowLock.Handler Id ParkingTransaction TxUpdate Effect.Ans Exc α

namespace Api

def ext (e : Effect) : Api e.Ans := Prog.perform (.ext e : ApiOp)

def lock (f : ParkingTransaction → Bool) : Api (List ParkingTransaction) :=
  Prog.perform (.lock f : ApiOp)

def update (i : Id) (u : TxUpdate) : Api Unit := Prog.perform (.update i u : ApiOp)

def valueError {α : Type} (msg : String) : Api α := Prog.raise (.value msg)

/-- `try: p except ValueError as e: h (str(e))`. -/
def exceptValueError {α : Type} (p : Api α) (h : String → Api α) : Api α :=
  p.handle fun
    | .value msg => h msg
    | e => Prog.raise e

end Api

def microsPerSecond : Int := 1000000

def emoneyPendingTtlSeconds : Int := 180
def idempotencyTtl : Int := 300

/-- Redis entries are stored with the instant at which they expire. -/
structure World where
  db : Db
  nextTx : Id
  nextEmoney : Id
  now : Int
  /-- How far the clock moves at its successive readings; it stands still after the last. -/
  drift : List Nat := []
  pending : String → Option (Pending × Int) := fun _ => none
  idempotency : String → Option (PaymentResponse × Int) := fun _ => none
  jobs : List Job := []
  redisDown : Bool := false
  /-- Rows that another open transaction keeps locked for longer than the lock timeout. -/
  contended : List Id := []
  /-- Gates over their booth-call budget. -/
  limited : List String := []

def setKey {α : Type} (m : String → Option α) (k : String) (v : Option α) : String → Option α :=
  fun k' => if k' = k then v else m k'

namespace World
variable (w : World)

/-- A Redis entry that has not expired. -/
def live {α : Type} (entry : Option (α × Int)) : Option α :=
  entry.bind fun e => if w.now < e.2 then some e.1 else none

def expiry (seconds : Int) : Int := w.now + seconds * microsPerSecond

def readClock : World := { w with now := w.now + w.drift.headD 0, drift := w.drift.tail }

def setPending (g : String) (p : Option Pending) : World :=
  { w with
    pending := setKey w.pending g (p.map fun p => (p, w.expiry emoneyPendingTtlSeconds)) }

def setIdempotency (k : String) (r : PaymentResponse) : World :=
  { w with idempotency := setKey w.idempotency k (some (r, w.expiry idempotencyTtl)) }

/-- What a rolled-back request leaves: Redis, the sequences and the job queue keep their changes. -/
def rollback (w' : World) : World := { w' with db := w.db }

end World

/-- One database transaction in progress: `world.db` is its own view. -/
structure Conn where
  world : World
  lockTimeout : Bool := false

def sortShifts (shifts : List Shift) : List Shift :=
  shifts.insertionSort fun a b => a.startTime ≤ b.startTime

/-- The idempotency and rate-limit helpers swallow Redis errors; the pending state does not. -/
def execEffect (e : Effect) (c : Conn) : Except Exc e.Ans × Conn :=
  let w := c.world
  match e with
  | .now => (.ok (.utc w.now), { c with world := w.readClock })
  | .setLockTimeout => (.ok (), { c with lockTimeout := true })
  | .selectTx f => (.ok (w.db.parking.filter f), c)
  | .insertTx t =>
    let row := t.stored w.nextTx
    let w := { w with nextTx := w.nextTx + 1 }
    if w.db.acceptsTx row then (.ok row, { c with world := { w with db := w.db.addTx row } })
    else (.error (.db .integrity), { c with world := w })
  | .insertEmoney e =>
    let row := e.stored w.nextEmoney w.now
    let w := { w with nextEmoney := w.nextEmoney + 1 }
    if w.db.acceptsEmoney row then
      (.ok row, { c with world := { w with db := w.db.addEmoney row } })
    else (.error (.db .integrity), { c with world := w })
  | .selectMember f => (.ok (w.db.members.find? f), c)
  | .vehicleType i => (.ok (w.db.vehicleTypes.find? fun v => v.id = i), c)
  | .activeShifts => (.ok (sortShifts (w.db.shifts.filter (·.isActive))), c)
  | .gateByCode code => (.ok (w.db.gates.find? fun g => g.code = code), c)
  | .gate i => (.ok (w.db.gates.find? fun g => g.id = i), c)
  | .getPending g => (if w.redisDown then .error .redis else .ok (w.live (w.pending g)), c)
  | .setPending g p =>
    if w.redisDown then (.error .redis, c)
    else (.ok (), { c with world := w.setPending g (some p) })
  | .clearPending g =>
    if w.redisDown then (.error .redis, c) else (.ok (), { c with world := w.setPending g none })
  | .getIdempotency k => (.ok (if w.redisDown then none else w.live (w.idempotency k)), c)
  | .setIdempotency k r =>
    (.ok (), { c with world := if w.redisDown then w else w.setIdempotency k r })
  | .boothLimit g => (.ok (w.redisDown || !w.limited.contains g), c)
  | .enqueue j =>
    (.ok (), { c with world := if w.redisDown then w else { w with jobs := w.jobs ++ [j] } })

/-- One statement executed with no other session in between. -/
def execOp (o : ApiOp) (c : Conn) : Except Exc o.Ans × Conn :=
  match o with
  | .lock f =>
    let rows := c.world.db.parking.filter f
    if c.lockTimeout && rows.any fun t => c.world.contended.contains t.id then
      (.error (.db .lockNotAvailable), c)
    else (.ok rows, c)
  | .update i u =>
    match c.world.db.findTx i with
    | none => (.error (.db .integrity), c)
    | some t =>
      if u.apply t = t ∨ c.world.db.acceptsTx (u.apply t) = true then
        (.ok (), { c with world := { c.world with db := c.world.db.setTx i u } })
      else (.error (.db .integrity), c)
  | .ext e => execEffect e c

/-- A handler inside one transaction, before the transaction ends. -/
def Api.exec {α : Type} (p : Api α) (w : World) : Except Exc α × World :=
  let (r, c) := p.run execOp { world := w }
  (r, c.world)

/-- `get_db`: commit when the route returns, roll back when it raises. -/
def withDb {α : Type} (p : Api α) (w : World) : Except Exc α × World :=
  match p.exec w with
  | (.ok a, w') => (.ok a, w')
  | (.error e, w') => (.error e, w.rollback w')

end ParkIt
