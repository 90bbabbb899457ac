import ParkIt.Booth.Command
import ParkIt.Lib.Sessions
import ParkIt.Services.Transaction

/-! The snapshot jobs of the critical queue, and the requests that put them there. -/
namespace ParkIt.Snapshots

open Effects Sessions ByteString

abbrev Image := Bytes

structure SnapshotGate extends Gate where
  direction : String
deriving DecidableEq, Repr

/-- The arguments of `take_snapshot`. -/
structure SnapshotArgs where
  gateId : String
  cameraUrl : String
  transactionId : Option Id := none
  snapshotType : String := "entry"
  cameraLabel : Option String := none
  cameraUsername : Option String := none
  cameraPassword : Option String := none
  cameraAuthType : String := "none"
deriving DecidableEq, Repr

/-- The columns that a job sets. -/
structure Snapshot where
  parkingTransactionId : Option Id
  gateId : Id
  gateType : String
  snapshotType : String
  filename : String
  filePath : String
  fileSize : Nat
  cameraName : Option String
deriving DecidableEq, Repr

/-- The columns of a parking transaction that a job looks at. -/
structure LinkedTx where
  id : Id
  entrySnapshotId : Option Id := none
  exitSnapshotId : Option Id := none
deriving DecidableEq, Repr

inductive TxLink where
  | entry
  | exit
deriving DecidableEq, Repr

inductive DbFailure where
  | foreignKey
  /-- The commit has taken effect, but its answer has not come back. -/
  | lost
  | other (text : String)
deriving DecidableEq, Repr

/-- The statements of a database session. An insert is an add, a flush and a refresh. -/
inductive Statement where
  | selectGate (code : String)
  | insert (snapshot : Snapshot)
  | getTransaction (id : Id)
  | commit (id : Id) (snapshot : Snapshot) (link : Option (Id × TxLink))
deriving DecidableEq, Repr

abbrev Statement.Val : Statement → Type
  | .selectGate _ => Option SnapshotGate
  | .insert _ => Id
  | .getTransaction _ => Option LinkedTx
  | .commit _ _ _ => Unit

inductive SnapshotOp where
  | db (s : Statement)
  /-- `enqueue_job`, which does nothing for a job id that is known. -/
  | enqueue (job : Job)
  /-- The worker takes a job of the queue. -/
  | nextJob
  | mockHardware
  | captureRtsp (url : String)
  | downloadHttp (url : String) (username password : Option String) (authType : String)
  /-- `datetime.now().strftime("%Y%m%d_%H%M%S")`. -/
  | timestamp
  | writeBytes (path : String) (data : Image)
  | broadcastExit (gateId : String) (snapshotId : Id)
deriving DecidableEq, Repr

abbrev SnapshotOp.Ans : SnapshotOp → Type
  | .db s => Except DbFailure s.Val
  | .enqueue _ => Bool
  | .nextJob => Job
  | .mockHardware => Bool
  | .captureRtsp _ | .downloadHttp _ _ _ _ => Option Image
  | .timestamp => String
  | .writeBytes _ _ => Except String Unit
  | .broadcastExit _ _ => Unit

inductive SnapshotExc where
  | db (e : DbFailure)
  | redis
deriving DecidableEq, Repr

abbrev Work (α : Type) := Prog SnapshotOp SnapshotOp.Ans SnapshotExc α

def execute (s : Statement) : Work s.Val := do
  match ← Prog.perform (.db s : SnapshotOp) with
  | .ok v => pure v
  | .error e => Prog.raise (.db e)

def enqueueJobs : List Job → Work Unit
  | [] => pure ()
  | job :: jobs => do
    if ← Prog.perform (.enqueue job : SnapshotOp) then enqueueJobs jobs
    else Prog.raise .redis

def enqueueSnapshotsForGate (gateCode : String) (transactionId : Id) (snapshotType : String) :
    Work Unit :=
  Prog.handle (do
    match ← execute (.selectGate gateCode) with
    | none => pure ()
    | some gate =>
      enqueueJobs (snapshotJobs gateCode transactionId snapshotType gate.toGate.getCameras))
    fun _ => pure ()

/-- A white JPEG of one pixel. -/
def mockImage : Image :=
  (Booth.fromhex ("ffd8ffe000104a46494600010101006000600000ffdb004300080606070605080707" ++
    "07090908" ++
    "0a0c140d0c0b0b0c1912130f141d1a1f1e1d1a1c1c20242e2720222c231c1c283729" ++
    "2c30313434" ++
    "1f27393d38323c2e333432ffc0000b080001000101011100ffc4001f000001050101" ++
    "01010101000000000000000001020304050607080900ffc400b510000201030302040" ++
    "30502060101000000010002110321041231054113617122718132061491a1b14223" ++
    "2415528191a2b1c109233352f0d124e1f06272ffda0008010100003f00fbd8000000ffd9").toList).getD []

def isRtsp (url : String) : Bool := "rtsp://".toList.isPrefixOf (url.toList.map Char.toLower)

/-- The download and the capture answer with nothing where they raise. -/
def imageData (a : SnapshotArgs) : Work (Option Image) := do
  if ← Prog.perform (.mockHardware : SnapshotOp) then pure (some mockImage)
  else if isRtsp a.cameraUrl then Prog.perform (.captureRtsp a.cameraUrl : SnapshotOp)
  else Prog.perform (.downloadHttp a.cameraUrl a.cameraUsername a.cameraPassword
    a.cameraAuthType : SnapshotOp)

def SnapshotArgs.filename (a : SnapshotArgs) (timestamp : String) : String :=
  a.gateId ++ "_" ++ a.snapshotType ++ (truthy a.cameraLabel).elim "" ("_" ++ ·) ++ "_" ++
    timestamp ++ ".jpg"

/-- The link that is set, where it is not set yet. -/
def LinkedTx.missing (tx : LinkedTx) (snapshotType : String) : Option TxLink :=
  if snapshotType = "entry" ∧ tx.entrySnapshotId = none then some .entry
  else if snapshotType = "exit" ∧ tx.exitSnapshotId = none then some .exit
  else none

def SnapshotArgs.snapshot (a : SnapshotArgs) (gate : SnapshotGate) (filename filepath : String)
    (fileSize : Nat) : Snapshot where
  parkingTransactionId := a.transactionId
  gateId := gate.id
  gateType := if gate.direction = "OUT" then "out" else "in"
  snapshotType := a.snapshotType
  filename
  filePath := filepath
  fileSize
  cameraName := a.cameraLabel

/-- `if transaction_id:`, and the link that the commit then writes. -/
def linkOf (a : SnapshotArgs) : Work (Option (Id × TxLink)) :=
  match a.transactionId.filter (· ≠ 0) with
  | none => pure none
  | some id => do
    let tx ← execute (.getTransaction id)
    pure (tx.bind fun tx => (tx.missing a.snapshotType).map fun link => (tx.id, link))

def saveSnapshotRecord (a : SnapshotArgs) (filename filepath : String) (fileSize : Nat) :
    Work (Option Id) :=
  Prog.handle (do
    match ← execute (.selectGate a.gateId) with
    | none => pure none
    | some gate =>
      let snapshot := a.snapshot gate filename filepath fileSize
      let snapshotId ← execute (.insert snapshot)
      let link ← linkOf a
      execute (.commit snapshotId snapshot link)
      pure (some snapshotId))
    fun _ => pure none

inductive JobResult where
  | error (message : String)
  | success (filepath filename : String) (size : Nat) (snapshotId : Option Id)
deriving DecidableEq, Repr

section Place
variable (place : String → String)

/-- `place` is `str(SNAPSHOT_DIR / filename)`. -/
def takeSnapshot (a : SnapshotArgs) : Work JobResult := do
  match ← imageData a with
  | none => pure (.error "Snapshot capture failed")
  | some image =>
    let timestamp ← Prog.perform (.timestamp : SnapshotOp)
    let filename := a.filename timestamp
    let filepath := place filename
    match ← Prog.perform (.writeBytes filepath image : SnapshotOp) with
    | .error text => pure (.error ("Save failed: " ++ text))
    | .ok _ =>
      let snapshotId ← saveSnapshotRecord a filename filepath image.length
      match snapshotId.filter fun id => id ≠ 0 ∧ a.snapshotType = "exit" with
      | none => pure ()
      | some id => Prog.perform (.broadcastExit a.gateId id : SnapshotOp)
      pure (.success filepath filename image.length snapshotId)

/-- What a job of the queue is called with. -/
def snapshotArgs : Job → Option SnapshotArgs
  | .printReceipt _ _ _ => none
  | .takeSnapshot gateId camera transactionId snapshotType _ =>
    some {
      gateId
      cameraUrl := camera.url
      transactionId := some transactionId
      snapshotType
      cameraLabel := camera.label
      cameraUsername := camera.username
      cameraPassword := camera.password
      cameraAuthType := camera.authType }

/-- A request enqueues the snapshots of a transaction, or the worker runs a job. -/
inductive SnapshotCall where
  | enqueue (gateCode : String) (transactionId : Id) (snapshotType : String)
  | work
deriving DecidableEq, Repr

def SnapshotCall.code : SnapshotCall → Work Unit
  | .enqueue gateCode transactionId snapshotType =>
    enqueueSnapshotsForGate gateCode transactionId snapshotType
  | .work => do
    match snapshotArgs (← Prog.perform (.nextJob : SnapshotOp)) with
    | none => pure ()
    | some a =>
      let _ ← takeSnapshot place a
      pure ()

end Place
end ParkIt.Snapshots
