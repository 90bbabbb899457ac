import ParkIt.Lib.Sessions
import ParkIt.Services.Transaction

/-! The worker session service: check-in and handover at the booths. -/
namespace ParkIt.Workers

open Effects Sessions

inductive SessionStatus where
  | active
  | pendingHandover
  | completed
deriving DecidableEq, Repr

def SessionStatus.value : SessionStatus → String
  | .active => "ACTIVE"
  | .pendingHandover => "PENDING_HANDOVER"
  | .completed => "COMPLETED"

structure WorkerSession where
  id : Id
  shiftId : Id
  shiftAssignmentId : Option Id := none
  workerId : Id
  gateId : Id
  date : Int
  status : SessionStatus := .active
  startedAt : DateTime
  outgoingConfirmedAt : Option DateTime := none
  endedAt : Option DateTime := none
  endType : Option String := none
  endReason : Option String := none
  isSubstitute : Bool := false
  previousSessionId : Option Id := none
deriving DecidableEq, Repr

structure Worker where
  id : Id
  isActive : Bool := true
  workerPin : Option String := none
deriving DecidableEq, Repr

structure BoothGate where
  id : Id
  direction : String
deriving DecidableEq, Repr

structure ShiftAssignment where
  id : Id
  gateId : Id
  shiftId : Id
deriving DecidableEq, Repr

structure OperatorAlert where
  gateType : String
  gateId : Id
  alertType : String
  message : String
deriving DecidableEq, Repr

/-- The SET list of an UPDATE; a column whose value has not changed is not in it. -/
structure Change where
  status : SessionStatus
  outgoingConfirmedAt : Option DateTime := none
  endedAt : Option DateTime := none
  endType : Option String := none
  endReason : Option (Option String) := none
deriving DecidableEq, Repr

def Change.apply (c : Change) (r : WorkerSession) : WorkerSession :=
  { r with
    status := c.status
    outgoingConfirmedAt := c.outgoingConfirmedAt.or r.outgoingConfirmedAt
    endedAt := c.endedAt.or r.endedAt
    endType := c.endType.or r.endType
    endReason := c.endReason.getD r.endReason }

/-- The new value of a column that the object has loaded as `old`. -/
def changed {α : Type} [DecidableEq α] (old new : α) : Option α :=
  if new = old then none else some new

inductive BoothOp where
  | now
  | getGate (id : Id)
  | getUser (id : Id)
  | getAssignment (id : Id)
  | activeShifts
  | openSessions (gateId : Id)
  | getSession (id : Id)
  | update (id : Id) (c : Change)
  | insert (row : WorkerSession)
  | insertAlert (alert : OperatorAlert)
  | commit
  | refresh (id : Id)

abbrev BoothOp.Ans : BoothOp → Type
  | .now => DateTime
  | .getGate _ => Option BoothGate
  | .getUser _ => Option Worker
  | .getAssignment _ => Option ShiftAssignment
  | .activeShifts => List Shift
  | .openSessions _ => List WorkerSession
  | .getSession _ => Option WorkerSession
  | .update _ _ => Unit
  | .insert _ => Id
  | .insertAlert _ => Unit
  | .commit => Unit
  | .refresh _ => WorkerSession

inductive BoothExc where
  | http (status : Nat) (detail : String)
  | multipleResultsFound
  | typeError
  | valueError
deriving DecidableEq, Repr

abbrev Work (α : Type) := Prog BoothOp BoothOp.Ans BoothExc α

def ask (o : BoothOp) : Work o.Ans := Prog.perform o

def httpException {α : Type} (status : Nat) (detail : String) : Work α :=
  Prog.raise (.http status detail)

/-- What the service takes from its libraries: bcrypt, which rejects a text that is no hash, and
the constructor of the model class, which may reject a keyword that is no column. -/
structure Libraries where
  checkpw : String → String → Option Bool
  acceptsOriginalWorkerId : Bool

section Service
variable (lib : Libraries)

def getWorkerAndVerifyPin (workerId : Id) (pin : String) : Work Worker := do
  match ← ask (.getUser workerId) with
  | none => httpException 404 "Worker not found"
  | some worker =>
    if ¬ worker.isActive then httpException 404 "Worker not found"
    else
      match worker.workerPin.filter (· ≠ "") with
      | none => httpException 400 "Worker has no PIN set — contact admin"
      | some hash =>
        match lib.checkpw pin hash with
        | none => Prog.raise .valueError
        | some true => pure worker
        | some false => httpException 401 "Invalid PIN"

def scalarOneOrNone : List WorkerSession → Work (Option WorkerSession)
  | [] => pure none
  | [r] => pure (some r)
  | _ => Prog.raise .multipleResultsFound

def getActiveSession (gateId : Id) : Work (Option WorkerSession) := do
  scalarOneOrNone (← ask (.openSessions gateId))

def getCurrentShift : Work (Option Shift) := do
  let now ← ask .now
  let shifts ← ask .activeShifts
  pure ((shifts.find? (·.covers (now.instant % DateTime.microsPerDay))).or shifts.head?)

def determineShift (gateId : Id) : Option Id → Work Id
  | some shiftAssignmentId => do
    match ← ask (.getAssignment shiftAssignmentId) with
    | some assignment =>
      if assignment.gateId ≠ gateId then httpException 400 "Invalid shift assignment"
      else pure assignment.shiftId
    | none => httpException 400 "Invalid shift assignment"
  | none => do
    match ← getCurrentShift with
    | none => httpException 400 "No active shift for current time"
    | some activeShift => pure activeShift.id

structure CheckIn where
  gateId : Id
  workerId : Id
  pin : String
  shiftAssignmentId : Option Id := none
  isSubstitute : Bool := false
  originalWorkerId : Option Id := none

def checkIn (a : CheckIn) : Work WorkerSession := do
  match ← ask (.getGate a.gateId) with
  | none => httpException 404 "Gate not found"
  | some _ => do
    let _ ← getWorkerAndVerifyPin lib a.workerId a.pin
    let existing ← getActiveSession a.gateId
    if existing.any (·.status = .active) then
      httpException 409 "Gate already has an active worker session"
    else if existing.any (·.status = .pendingHandover) then
      httpException 409 "Use confirm-incoming endpoint to complete pending handover"
    else do
      let shiftId ← determineShift a.gateId a.shiftAssignmentId
      let now ← ask .now
      let today ← ask .now
      -- `WorkerSession(original_worker_id=…)`, whatever the value: the class has no such column
      if ¬ lib.acceptsOriginalWorkerId then Prog.raise .typeError
      else do
        let id ← ask (.insert
          { id := 0
            shiftId
            shiftAssignmentId := a.shiftAssignmentId
            workerId := a.workerId
            gateId := a.gateId
            date := today.date
            startedAt := now
            isSubstitute := a.isSubstitute })
        ask .commit
        ask (.refresh id)

structure ConfirmOutgoing where
  sessionId : Id
  pin : String
  endType : String := "SCHEDULED"
  endReason : Option String := none

def confirmOutgoing (a : ConfirmOutgoing) : Work WorkerSession := do
  match ← ask (.getSession a.sessionId) with
  | none => httpException 404 "Session not found"
  | some session =>
    if session.status ≠ .active then
      httpException 409 s!"Session is {session.status.value}, must be ACTIVE"
    else do
      let _ ← getWorkerAndVerifyPin lib session.workerId a.pin
      let now ← ask .now
      ask (.update session.id
        { status := .pendingHandover
          outgoingConfirmedAt := some now
          endType := (changed session.endType (some a.endType)).join
          endReason := changed session.endReason a.endReason })
      ask .commit
      ask (.refresh session.id)

/-- Nothing reads `originalWorkerId`. -/
structure ConfirmIncoming where
  pendingSessionId : Id
  workerId : Id
  pin : String
  isSubstitute : Bool := false
  originalWorkerId : Option Id := none

def confirmIncoming (a : ConfirmIncoming) : Work WorkerSession := do
  match ← ask (.getSession a.pendingSessionId) with
  | none => httpException 404 "Session not found"
  | some pending =>
    if pending.status ≠ .pendingHandover then
      httpException 409 s!"Session is {pending.status.value}, must be PENDING_HANDOVER"
    else do
      let _ ← getWorkerAndVerifyPin lib a.workerId a.pin
      let now ← ask .now
      let activeShift ← getCurrentShift
      let today ← ask .now
      -- the unit of work of the commit: updates before inserts
      ask (.update pending.id { status := .completed, endedAt := some now })
      let id ← ask (.insert
        { id := 0
          shiftId := (activeShift.map (·.id)).getD pending.shiftId
          workerId := a.workerId
          gateId := pending.gateId
          date := today.date
          startedAt := now
          isSubstitute := a.isSubstitute
          previousSessionId := some pending.id })
      ask .commit
      ask (.refresh id)

structure ForceLeave where
  sessionId : Id
  pin : String
  reason : String

def workerUncovered (session : WorkerSession) (gateDirection reason : String) : OperatorAlert where
  gateType := gateDirection
  gateId := session.gateId
  alertType := "WORKER_UNCOVERED"
  message := s!"Worker (id={session.workerId}) force-left gate {session.gateId}. " ++
    s!"Booth is now uncovered. Reason: {reason}"

def forceLeave (a : ForceLeave) : Work WorkerSession := do
  match ← ask (.getSession a.sessionId) with
  | none => httpException 404 "Session not found"
  | some session =>
    if session.status ≠ .active ∧ session.status ≠ .pendingHandover then
      httpException 409 s!"Session is {session.status.value}, cannot force-leave"
    else do
      let _ ← getWorkerAndVerifyPin lib session.workerId a.pin
      let gate ← ask (.getGate session.gateId)
      let gateDirection := (gate.map (·.direction.toLower)).getD "out"
      let now ← ask .now
      ask (.update session.id
        { status := .completed
          endedAt := some now
          endType := (changed session.endType (some "FORCE_LEAVE")).join
          endReason := changed session.endReason (some a.reason) })
      ask (.insertAlert (workerUncovered session gateDirection a.reason))
      ask .commit
      ask (.refresh session.id)

inductive Call where
  | checkIn (a : CheckIn)
  | confirmOutgoing (a : ConfirmOutgoing)
  | confirmIncoming (a : ConfirmIncoming)
  | forceLeave (a : ForceLeave)

def Call.code : Call → Work WorkerSession
  | .checkIn a => Workers.checkIn lib a
  | .confirmOutgoing a => Workers.confirmOutgoing lib a
  | .confirmIncoming a => Workers.confirmIncoming lib a
  | .forceLeave a => Workers.forceLeave lib a

end Service

/-- A statement that a transaction has executed on `worker_sessions`. -/
inductive Write where
  | update (id : Id) (c : Change)
  | insert (row : WorkerSession)
deriving DecidableEq, Repr

def Write.apply (rows : List WorkerSession) : Write → List WorkerSession
  | .update id c => rows.map fun r => if r.id = id then c.apply r else r
  | .insert row => rows ++ [row]

/-- What a transaction has done and not committed yet. -/
structure Uncommitted where
  writes : List Write := []
  alerts : List OperatorAlert := []
deriving DecidableEq, Repr

structure BoothDb where
  sessions : List WorkerSession := []
  nextSession : Id := 1
  gates : List BoothGate := []
  users : List Worker := []
  assignments : List ShiftAssignment := []
  shifts : List Shift := []
  alerts : List OperatorAlert := []
  now : DateTime := .utc 0
deriving DecidableEq, Repr

namespace BoothDb
variable (d : BoothDb) (own : Uncommitted)

/-- The rows that a statement of the transaction sees. -/
def seen : List WorkerSession := own.writes.foldl Write.apply d.sessions

def openAt (rows : List WorkerSession) (gateId : Id) : List WorkerSession :=
  rows.filter fun r => r.gateId = gateId ∧ r.status ∈ [.active, .pendingHandover]

def successors (rows : List WorkerSession) (id : Id) : List WorkerSession :=
  rows.filter fun r => r.previousSessionId = some id

def committed : BoothDb :=
  { d with sessions := d.seen own, alerts := d.alerts ++ own.alerts }

/-- A statement of a transaction; without an answer it raises. -/
def perform : (o : BoothOp) → BoothDb → Uncommitted → Option o.Ans × BoothDb × Uncommitted
  | .now, d, own => (some d.now, d, own)
  | .getGate id, d, own => (some (d.gates.find? (·.id = id)), d, own)
  | .getUser id, d, own => (some (d.users.find? (·.id = id)), d, own)
  | .getAssignment id, d, own => (some (d.assignments.find? (·.id = id)), d, own)
  | .activeShifts, d, own => (some (sortShifts (d.shifts.filter (·.isActive))), d, own)
  | .openSessions gateId, d, own => (some (openAt (d.seen own) gateId), d, own)
  | .getSession id, d, own => (some ((d.seen own).find? (·.id = id)), d, own)
  | .update id c, d, own => (some (), d, { own with writes := own.writes ++ [.update id c] })
  | .insert row, d, own =>
    (some d.nextSession, { d with nextSession := d.nextSession + 1 },
      { own with writes := own.writes ++ [.insert { row with id := d.nextSession }] })
  | .insertAlert alert, d, own => (some (), d, { own with alerts := own.alerts ++ [alert] })
  | .commit, d, own => (some (), d.committed own, {})
  | .refresh id, d, own => ((d.seen own).find? (·.id = id), d, own)

end BoothDb

/-- How far a call has come, and with which rows. -/
inductive Note where
  | begun
  | vacant (gateId : Id)
  | loaded (r : WorkerSession)
  | changed (r : WorkerSession) (c : Change)
  | replaced (r : WorkerSession) (c : Change) (row : WorkerSession)
  | entered (row : WorkerSession)
  | committed
deriving DecidableEq, Repr

def Note.next : Note → (o : BoothOp) → o.Ans → Note
  | .begun, .openSessions gateId, [] => .vacant gateId
  | .begun, .getSession _, some r => .loaded r
  | .loaded r, .update _ c, _ => .changed r c
  | .vacant _, .insert row, id => .entered { row with id }
  | .changed r c, .insert row, id => .replaced r c { row with id }
  | _, .commit, _ => .committed
  | note, _, _ => note

/-- The two ways in which a session goes on. -/
def Change.Follows (c : Change) (r : WorkerSession) : Prop :=
  r.status = .active ∧ c.status = .pendingHandover ∨ r.status ≠ .completed ∧ c.status = .completed

/-- What every call keeps to. -/
def boothRules : Protocol BoothOp BoothOp.Ans Note where
  allow g o :=
    match o with
    | .openSessions _ | .getSession _ => g = .begun
    | .update id c => ∃ r, g = .loaded r ∧ id = r.id ∧ c.Follows r
    | .insert row => row.status = .active ∧
        (g = .vacant row.gateId ∧ row.previousSessionId = none ∨
          ∃ r c, g = .changed r c ∧ r.status = .pendingHandover ∧ c.status = .completed ∧
            row.gateId = r.gateId ∧ row.previousSessionId = some r.id)
    | _ => True
  expect _ o :=
    match o with
    | .openSessions _ => fun rows => ∀ r ∈ rows, r.status ∈ [.active, .pendingHandover]
    | _ => fun _ => True
  next := Note.next

/-- A call that raises is rolled back; a commit may have been executed all the same. -/
inductive Fails : BoothOp → BoothDb → Uncommitted → BoothDb → Prop
  | rolledBack {o d own} : Fails o d own d
  | lost {d own} : Fails .commit d own (d.committed own)

/-- The calls of all API workers; the other tables are changed by others at any time. -/
def boothCalls (lib : Libraries) :
    Machine BoothOp BoothOp.Ans BoothExc WorkerSession BoothDb Uncommitted Note Unit where
  starts p own g := ∃ c : Call, p = c.code lib ∧ own = {} ∧ g = .begun
  act o d own a d' own' := BoothDb.perform o d own = (some a, d', own')
  fails o d own d' := Fails o d own d'
  during _ _ _ _ := False
  outside d d' := d'.sessions = d.sessions ∧ d'.nextSession = d.nextSession
  protocol := boothRules
  record _ _ _ := []

abbrev BoothSys (ι : Type) :=
  Sys ι BoothOp BoothOp.Ans BoothExc WorkerSession BoothDb Uncommitted Note Unit

end ParkIt.Workers
