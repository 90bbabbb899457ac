import ParkIt.Settlement.Run

/-! The upload job: a settlement file goes to the bank's server under a `.partial` name first. -/
namespace ParkIt

structure SettlementUpdate where
  status : Option String := none
  uploadedAt : Option (Option Int) := none
deriving DecidableEq, Repr

def SettlementUpdate.apply (u : SettlementUpdate) (r : EmoneySettlement) : EmoneySettlement :=
  { r with status := u.status.getD r.status, uploadedAt := u.uploadedAt.getD r.uploadedAt }

namespace EmoneySettlement
variable (r : EmoneySettlement)

def Due : Prop := r.status = "GENERATED" ∨ r.status = "FAILED"

instance : Decidable r.Due := inferInstanceAs (Decidable (_ ∨ _))

/-- What a flush writes: the columns whose value is not the one that was loaded. -/
def changes (status : String) (uploadedAt : Option Int) : SettlementUpdate where
  status := if r.status = status then none else some status
  uploadedAt := if r.uploadedAt = uploadedAt then none else some uploadedAt

theorem apply_changes (status : String) (uploadedAt : Option Int) :
    (r.changes status uploadedAt).apply r = { r with status, uploadedAt } := by
  have hstatus : (r.changes status uploadedAt).status.getD r.status = status := by
    unfold changes
    dsimp only
    split
    · assumption
    · rfl
  have htime : (r.changes status uploadedAt).uploadedAt.getD r.uploadedAt = uploadedAt := by
    unfold changes
    dsimp only
    split
    · assumption
    · rfl
  rw [SettlementUpdate.apply, hstatus, htime]

end EmoneySettlement

namespace Upload

open Effects

/-- The `settlement_sftp_*` settings. -/
structure SftpSettings where
  host : String := ""
  port : Int := 22
  username : String := ""
  keyPath : String := ""
  knownHosts : String := ""
  remoteDir : String := "/incoming"
  responseDir : String := "/incoming"
  connectTimeout : Int := 30
deriving DecidableEq, Repr

/-- The arguments of `asyncssh.connect`. -/
structure Connection where
  host : String
  port : Int
  username : String
  clientKeys : Option (List String)
  knownHosts : Option String
  connectTimeout : Int
deriving DecidableEq, Repr

def SftpSettings.connection (settings : SftpSettings) : Connection where
  host := settings.host
  port := settings.port
  username := settings.username
  clientKeys := (truthy (some settings.keyPath)).map fun k => [k]
  knownHosts := truthy (some settings.knownHosts)
  connectTimeout := settings.connectTimeout

/-- A job does not see whether the server had carried out the request when the connection broke. -/
inductive UploadExc where
  | runtime (msg : String)
  | os
  | sftp
  | connectionLost (served : Bool)
  | db
deriving DecidableEq, Repr

inductive UploadOp where
  | getSettlement (i : Id)
  | isFile (path : String)
  | haveAsyncssh
  | connect (c : Connection)
  | remove (path : String)
  | put (path target : String)
  | rename (source target : String)
  | close
  | now
  | commit (i : Id) (u : SettlementUpdate)
deriving DecidableEq, Repr

/-- What a call within the job's `try` raises is part of its answer. -/
abbrev UploadOp.Ans : UploadOp → Type
  | .getSettlement _ => Option EmoneySettlement
  | .isFile _ => Except UploadExc Bool
  | .haveAsyncssh => Bool
  | .connect _ | .remove _ | .put _ _ | .rename _ _ | .close => Except UploadExc Unit
  | .now => Int
  | .commit _ _ => Unit

abbrev UploadJob (α : Type) := Prog UploadOp UploadOp.Ans UploadExc α

def ask (o : UploadOp) : UploadJob o.Ans := Prog.perform o

def orRaise {α : Type} : Except UploadExc α → UploadJob α
  | .ok a => pure a
  | .error e => Prog.raise e

inductive UploadOutcome where
  | skipped (reason : String)
  | error (reason : String)
  | success (settlementId : Id)
deriving DecidableEq, Repr

/-- `os.path.basename`. -/
def basename (path : String) : String :=
  String.ofList (path.toList.reverse.takeWhile (· ≠ '/')).reverse

/-- `remote_dir.rstrip("/") or "/"`. -/
def rootOr (remoteDir : String) : String :=
  let stripped := String.ofList (remoteDir.toList.reverse.dropWhile (· = '/')).reverse
  if stripped = "" then "/" else stripped

def finalRemote (remoteDir filePath : String) : String :=
  rootOr remoteDir ++ "/" ++ basename filePath

def tmpRemote (remoteDir filePath : String) : String :=
  rootOr remoteDir ++ "/" ++ basename filePath ++ ".partial"

/-- `async with _sftp_session(...)`: the connection is closed however the body ends. -/
def sftpSession (c : Connection) (body : UploadJob Unit) : UploadJob Unit := do
  orRaise (← ask (.connect c))
  body.handle fun e => do
    orRaise (← ask .close)
    Prog.raise e
  orRaise (← ask .close)

def uploadSettlementFile (filePath : String) (c : Connection) (remoteDir : String) :
    UploadJob Bool := do
  if !(← orRaise (← ask (.isFile filePath))) then pure false
  else if !(← ask .haveAsyncssh) then
    Prog.raise (.runtime "asyncssh is required for SFTP upload")
  else do
    sftpSession c do
      Prog.handle (do orRaise (← ask (.remove (tmpRemote remoteDir filePath)))) fun _ => pure ()
      orRaise (← ask (.put filePath (tmpRemote remoteDir filePath)))
      orRaise (← ask (.rename (tmpRemote remoteDir filePath) (finalRemote remoteDir filePath)))
    pure true

/-- Whether the file has been uploaded is not asked for: a job that meets no exception goes on. -/
def uploadSettlementJob (settings : SftpSettings) (settlementId : Id) :
    UploadJob UploadOutcome := do
  if settings.host = "" then pure (.skipped "no_sftp_host")
  else do
    match ← ask (.getSettlement settlementId) with
    | none => pure (.error "not_found")
    | some settlement =>
      if settlement.Due then do
        let _ ← (uploadSettlementFile settlement.filePath settings.connection
          settings.remoteDir).handle fun e => do
            ask (.commit settlement.id (settlement.changes "FAILED" settlement.uploadedAt))
            Prog.raise e
        let now ← ask .now
        ask (.commit settlement.id (settlement.changes "UPLOADED" (some now)))
        pure (.success settlementId)
      else pure (.skipped s!"state={settlement.status}")

/-- The database and the disk of the settlement job, and the files on the bank's server. -/
structure Site where
  desk : Settlement.State
  asyncssh : Bool := true
  remote : String → Option String := fun _ => none

namespace Site
variable (s : Site)

def settlement (i : Id) : Option EmoneySettlement :=
  s.desk.world.db.settlements.find? fun r => r.id = i

def files (path : String) : Option String := s.desk.files path

def place (path : String) (content : Option String) : Site :=
  { s with remote := setKey s.remote path content }

def update (i : Id) (u : SettlementUpdate) : Site :=
  { s with
    desk.world.db.settlements :=
      s.desk.world.db.settlements.map fun r => if r.id = i then u.apply r else r }

def tick : Site := { s with desk.world := s.desk.world.readClock }

variable {s}

theorem settlement_id {i : Id} {r : EmoneySettlement} (h : s.settlement i = some r) : r.id = i := by
  simpa using List.find?_some h

theorem settlement_update (i k : Id) (u : SettlementUpdate) :
    (s.update i u).settlement k =
      (s.settlement k).map fun r => if r.id = i then u.apply r else r := by
  have hid : ∀ r : EmoneySettlement, (if r.id = i then u.apply r else r).id = r.id := by
    intro r
    split <;> rfl
  simp only [settlement, update, List.find?_map, Function.comp_def, hid]

theorem settlement_congr {s s' : Site} (h : s'.desk.world.db = s.desk.world.db) (k : Id) :
    s'.settlement k = s.settlement k := by
  rw [settlement, settlement, h]

end Site

section Names
variable {dir name path : String}

/-- The name that is joined to a directory is the base name of the path. -/
theorem basename_join (h : '/' ∉ name.toList) : basename (dir ++ "/" ++ name) = name := by
  have hname : ∀ c ∈ name.toList.reverse, (decide (c ≠ '/')) = true := by
    intro c hc
    exact decide_eq_true fun heq => h (heq ▸ List.mem_reverse.mp hc)
  have hsep : "/".toList = ['/'] := rfl
  rw [basename, String.toList_append, String.toList_append, hsep, List.reverse_append,
    List.takeWhile_append_of_pos hname, List.reverse_append]
  simp [String.ofList_toList]

theorem tmpRemote_ne (dir path : String) : tmpRemote dir path ≠ finalRemote dir path := by
  intro h
  have hlength := congrArg String.length h
  simp only [tmpRemote, finalRemote, String.length_append] at hlength
  have hsuffix : ".partial".length = 8 := rfl
  omega

/-- The name on the server shows the base name. -/
theorem finalRemote_eq : finalRemote dir path = rootOr dir ++ "/" ++ name ↔ basename path = name := by
  unfold finalRemote
  refine ⟨fun h => ?_, fun h => by rw [h]⟩
  have hlist := congrArg String.toList h
  simp only [String.toList_append] at hlist
  exact String.toList_inj.mp (List.append_cancel_left hlist)

end Names

/-- How an operation goes: of a file that is cut off, a part has arrived. -/
inductive Fate where
  | done
  | refused
  | lost (served : Bool)
  | cut (length : Nat)
deriving DecidableEq, Repr

/-- A request to the server, which leads to `s'` when it is carried out. -/
def request (x : Fate) (s s' : Site) : Except UploadExc Unit × Site :=
  match x with
  | .done => (.ok (), s')
  | .refused => (.error .sftp, s)
  | .lost true => (.error (.connectionLost true), s')
  | .lost false | .cut _ => (.error (.connectionLost false), s)

def cutOff (length : Nat) (content : String) : String := String.ofList (content.toList.take length)

/-- Servers differ in whether a rename replaces a file that has the new name. -/
def serve (replaces : Bool) (x : Fate) (o : UploadOp) (s : Site) :
    Except UploadExc o.Ans × Site :=
  match o with
  | .getSettlement i => (if x = .done then .ok (s.settlement i) else .error .db, s)
  | .isFile path => (.ok (if x = .done then .ok (s.files path).isSome else .error .os), s)
  | .haveAsyncssh => (.ok s.asyncssh, s)
  | .connect _ | .close =>
    let (a, s') := request x s s
    (.ok a, s')
  | .remove path =>
    let (a, s') := request (if (s.remote path).isSome then x else .refused) s (s.place path none)
    (.ok a, s')
  | .put path target =>
    match s.files path, x with
    | none, _ => (.ok (.error .os), s)
    | some content, .cut n =>
      (.ok (.error (.connectionLost false)), s.place target (some (cutOff n content)))
    | some content, x =>
      let (a, s') := request x s (s.place target (some content))
      (.ok a, s')
  | .rename source target =>
    let free := replaces || (s.remote target).isNone
    let (a, s') := request (if (s.remote source).isSome && free then x else .refused) s
      ((s.place source none).place target (s.remote source))
    (.ok a, s')
  | .now => (.ok s.desk.world.now, s.tick)
  | .commit i u =>
    match x with
    | .done => (.ok (), s.update i u)
    | .lost true => (.error .db, s.update i u)
    | _ => (.error .db, s)

/-- A settlement of one row. -/
def filed : EmoneySettlement where
  id := 1
  filename := "2026042702000000000000000012340000005601001.txt"
  filePath := Settlement.settlementDir ++ "/2026042702000000000000000012340000005601001.txt"
  batchDate := 0
  batchNumber := 1
  totalTransactions := 1
  totalAmount := 5000
  status := "GENERATED"
  fileContentHash := "0010000005000\n01AB\n"

def bank : SftpSettings := { host := "bank.example.com" }

end Upload
end ParkIt
