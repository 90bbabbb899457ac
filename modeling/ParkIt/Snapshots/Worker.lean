import ParkIt.Snapshots.Jobs

/-! Snapshot jobs and the requests that enqueue them, side by side over one database and one
directory. -/
namespace ParkIt.Snapshots

open Effects Sessions

/-- What is committed in the database, the files, and the queue. -/
structure World where
  gates : List SnapshotGate
  transactions : List LinkedTx
  rows : List (Id × Snapshot) := []
  /-- The sequence of the row ids. -/
  nextId : Id := 1
  files : String → Option Image := fun _ => none
  queue : List Job := []
  jobIds : List String := []

namespace World
variable (w : World)

/-- The foreign key of the snapshots to the parking transactions. -/
def Refers (snapshot : Snapshot) : Prop :=
  ∀ id ∈ snapshot.parkingTransactionId, ∃ tx ∈ w.transactions, tx.id = id

instance (snapshot : Snapshot) : Decidable (w.Refers snapshot) :=
  inferInstanceAs (Decidable
    (∀ id ∈ snapshot.parkingTransactionId, ∃ tx ∈ w.transactions, tx.id = id))

def linked (link : Option (Id × TxLink)) (snapshotId : Id) (tx : LinkedTx) : LinkedTx :=
  match link with
  | some (id, .entry) => if tx.id = id then { tx with entrySnapshotId := some snapshotId } else tx
  | some (id, .exit) => if tx.id = id then { tx with exitSnapshotId := some snapshotId } else tx
  | none => tx

def committed (id : Id) (snapshot : Snapshot) (link : Option (Id × TxLink)) : World :=
  { w with
    rows := w.rows ++ [(id, snapshot)]
    transactions := w.transactions.map (linked link id) }

def numbered : World := { w with nextId := w.nextId + 1 }

def written (path : String) (data : Option Image) : World :=
  { w with files := Function.update w.files path data }

def enqueued (job : Job) (jobId : String) : World :=
  if jobId ∈ w.jobIds then w
  else { w with queue := w.queue ++ [job], jobIds := w.jobIds ++ [jobId] }

/-- A statement reads what is committed; a snapshot that refers to no committed transaction cannot
be inserted. -/
def Answers : (s : Statement) → Except DbFailure s.Val → World → Prop
  | .selectGate code, .ok gate, w' => gate = w.gates.find? (·.code = code) ∧ w' = w
  | .insert snapshot, .ok id, w' => w.Refers snapshot ∧ id = w.nextId ∧ w' = w.numbered
  | .insert snapshot, .error .foreignKey, w' => ¬ w.Refers snapshot ∧ w' = w.numbered
  | .getTransaction id, .ok tx, w' => tx = w.transactions.find? (·.id = id) ∧ w' = w
  | .commit id snapshot link, .ok _, w' => w' = w.committed id snapshot link
  | .commit id snapshot link, .error .lost, w' => w' = w.committed id snapshot link
  | _, .error (.other _), w' => w' = w
  | _, .error _, _ => False

def taken (job : Job) : World := { w with queue := w.queue.erase job }

/-- A job that is taken can stay in the queue, to be run again where its worker dies. An enqueuing
that raises may have put its job there, and a write that raises may leave anything in its file. -/
def Acts : (o : SnapshotOp) → o.Ans → World → Prop
  | .db s, a, w' => w.Answers s a w'
  | .enqueue job, _, w' => w' = w ∨ ∃ gateId camera id kind jobId,
      job = .takeSnapshot gateId camera id kind jobId ∧ w' = w.enqueued job jobId
  | .nextJob, job, w' => job ∈ w.queue ∧ (w' = w ∨ w' = w.taken job)
  | .writeBytes path data, .ok _, w' => w' = w.written path (some data)
  | .writeBytes path _, .error _, w' => ∃ left, w' = w.written path left
  | _, _, w' => w' = w

end World

/-- How far a job has come. -/
structure JobNote where
  args : Option SnapshotArgs := none
  image : Option Image := none
  /-- The file that the image has been written to. -/
  saved : Option String := none
  recorded : Bool := false
  /-- The gate, or the transaction, has not been found. -/
  refused : Bool := false
  /-- A statement has raised otherwise. -/
  failed : Bool := false
deriving DecidableEq

namespace JobNote
variable (g : JobNote)

def answered : (s : Statement) → Except DbFailure s.Val → JobNote
  | .selectGate _, .ok none => { g with refused := true }
  | .insert _, .error .foreignKey => { g with refused := true }
  | .commit _ _ _, .ok _ => { g with recorded := true }
  | .commit _ _ _, .error .lost => { g with recorded := true }
  | _, .error _ => { g with failed := true }
  | _, _ => g

def next : (o : SnapshotOp) → o.Ans → JobNote
  | .db s, a => g.answered s a
  | .nextJob, job => { g with args := snapshotArgs job }
  | .mockHardware, mock => if mock then { g with image := some mockImage } else g
  | .captureRtsp _, image => { g with image }
  | .downloadHttp _ _ _ _, image => { g with image }
  | .writeBytes path _, .ok _ => { g with saved := some path }
  | _, _ => g

/-- The snapshot is one of the job. -/
def Owns (snapshot : Snapshot) : Prop :=
  ∃ a, g.args = some a ∧ snapshot.parkingTransactionId = a.transactionId ∧
    snapshot.cameraName = a.cameraLabel ∧ g.saved = some snapshot.filePath

def allow : SnapshotOp → Prop
  | .nextJob => g = {}
  | .mockHardware | .captureRtsp _ | .downloadHttp _ _ _ _ => g.saved = none
  | .writeBytes _ data =>
    (∃ a id, g.args = some a ∧ a.transactionId = some id) ∧ g.image = some data ∧
      g.saved = none ∧ g.recorded = false ∧ g.refused = false ∧ g.failed = false
  | .db (.commit _ snapshot _) => g.Owns snapshot
  | _ => True

/-- A job that has saved its image has recorded it, or has been kept from that. -/
def Settled : Prop := g.saved ≠ none → g.recorded = true ∨ g.refused = true ∨ g.failed = true

end JobNote

/-- What is put on record: an image has been saved, and a job has recorded its snapshot. -/
inductive Entry where
  | saved (path : String)
  | recorded (args : Option SnapshotArgs) (image : Option Image) (id : Id) (snapshot : Snapshot)
deriving DecidableEq

def jobRules : Protocol SnapshotOp SnapshotOp.Ans JobNote where
  allow := JobNote.allow
  expect _ _ _ := True
  next := JobNote.next

def entries (g : JobNote) : (o : SnapshotOp) → Option o.Ans → List Entry
  | .writeBytes path _, some (.ok _) => [.saved path]
  | .db (.commit id snapshot _), some (.ok _) => [.recorded g.args g.image id snapshot]
  | .db (.commit id snapshot _), some (.error .lost) => [.recorded g.args g.image id snapshot]
  | _, _ => []

variable (place : String → String)

/-- While a file is written anything may be in it. Transactions are committed, gates are edited and
job ids are forgotten by others. -/
def snapshotJobsMachine :
    Machine SnapshotOp SnapshotOp.Ans SnapshotExc Unit World Unit JobNote Entry where
  starts p _ g := (∃ c : SnapshotCall, p = c.code place) ∧ g = {}
  act o w _ a w' _ := w.Acts o a w'
  fails o w _ w' := o = .nextJob ∧ w.queue = [] ∧ w' = w
  during o w _ w' := ∃ path data left, o = .writeBytes path data ∧ w' = w.written path left
  outside w w' := ∃ gates transactions nextId jobIds,
    w' = { w with gates, transactions, nextId, jobIds } ∧ w.nextId ≤ nextId ∧
    ∀ tx ∈ w.transactions, ∃ tx' ∈ transactions, tx'.id = tx.id
  protocol := jobRules
  record := entries

end ParkIt.Snapshots
