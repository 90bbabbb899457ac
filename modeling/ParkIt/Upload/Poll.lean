import ParkIt.Upload.Response
import ParkIt.Settlement.Partition

/-! The poll job: what the bank has answered is written to the rows of a settlement. -/
namespace ParkIt
namespace Upload

open Effects Settlement

inductive PollExc where
  | noSuchFile
  | os
  | ssh
  | unicode
  | noAsyncssh
  | db
deriving DecidableEq, Repr

inductive PollOp where
  | now
  | pending (cutoff : Int)
  | importAsyncssh
  | connect (c : Connection)
  | get (remote localTmp : String)
  | read (localTmp : String)
  | removeLocal (localTmp : String)
  | close
  | rows (settlement : Id)
  | commit (answers : List (Id × String)) (now : Int) (settlement : Id) (status ext : String)
deriving DecidableEq, Repr

abbrev PollOp.Val : PollOp → Type
  | .now => Int
  | .pending _ => List EmoneySettlement
  | .read _ => String
  | .rows _ => List EmoneyTransaction
  | .importAsyncssh | .connect _ | .get _ _ | .removeLocal _ | .close | .commit _ _ _ _ _ => Unit

/-- Any operation may raise. -/
abbrev PollOp.Ans (o : PollOp) : Type := Except PollExc o.Val

abbrev PollJob (α : Type) := Prog PollOp PollOp.Ans PollExc α

def askPoll (o : PollOp) : PollJob o.Val := do
  match ← Prog.perform o with
  | .ok v => pure v
  | .error e => Prog.raise e

/-- The filename without its `.txt`, whatever the case of the letters. -/
def responseBase (filename : String) : String :=
  let cs := filename.toList
  if ".txt".toList <:+ cs.map Char.toLower then String.ofList (cs.take (cs.length - 4))
  else filename

def responsePath (responseDir filename ext : String) : String :=
  rootOr responseDir ++ "/" ++ responseBase filename ++ "." ++ ext

def localTmp (filename ext : String) : String :=
  "/tmp/" ++ responseBase filename ++ "." ++ ext ++ ".fetched"

/-- The first of the response files that is there. -/
def fetchFirst (responseDir filename : String) : List String → PollJob (Option (String × String))
  | [] => pure none
  | ext :: exts => do
    let tmp := localTmp filename ext
    let got ← Prog.handle
      (do
        askPoll (.get (responsePath responseDir filename ext) tmp)
        pure true)
      fun
        | .noSuchFile | .os => pure false
        | e => Prog.raise e
    if got then do
      let content ← (askPoll (.read tmp)).handle fun e => do
        askPoll (.removeLocal tmp)
        Prog.raise e
      askPoll (.removeLocal tmp)
      pure (some (ext, content))
    else fetchFirst responseDir filename exts

def fetchResponseFile (settings : SftpSettings) (filename : String) :
    PollJob (Option (String × String)) := do
  askPoll .importAsyncssh
  askPoll (.connect settings.connection)
  let found ← (fetchFirst settings.responseDir filename ["OK", "NOK"]).handle fun e => do
    askPoll .close
    Prog.raise e
  askPoll .close
  pure found

/-- The payload as it stands in the settlement file. -/
def submitted (e : EmoneyTransaction) : String := upper (e.settlementPayloadHex.getD "")

/-- `??` for a row that the bank does not list. -/
def codeOf (ext content : String) (e : EmoneyTransaction) : String :=
  let parsed := if ext = "OK" then parseOkResponse content else parseNokResponse content
  (statusByPayload parsed.results (submitted e)).getD "??"

def verdict (ext : String) (codes : List String) : String :=
  let okCount := codes.count "00"
  if ext = "NOK" ∨ okCount = 0 then "ACKED_NOK"
  else if codes.length - okCount = 0 then "ACKED_OK"
  else "PARTIAL"

structure PollCounts where
  processed : Nat := 0
  ackedOk : Nat := 0
  ackedNok : Nat := 0
  parts : Nat := 0
deriving DecidableEq, Repr

def PollCounts.add (n : PollCounts) (status : String) : PollCounts where
  processed := n.processed + 1
  ackedOk := n.ackedOk + if status = "ACKED_OK" then 1 else 0
  ackedNok := n.ackedNok + if status = "ACKED_NOK" then 1 else 0
  parts := n.parts + if status = "PARTIAL" then 1 else 0

inductive PollOutcome where
  | skipped (reason : String)
  | success (counts : PollCounts)
deriving DecidableEq, Repr

def pollEach (settings : SftpSettings) : List EmoneySettlement → PollCounts → PollJob PollCounts
  | [], n => pure n
  | settlement :: rest, n => do
    match ← (fetchResponseFile settings settlement.filename).handle fun _ => pure none with
    | none => pollEach settings rest n
    | some (ext, content) => do
      let rows ← askPoll (.rows settlement.id)
      let now ← askPoll .now
      let answers := rows.map fun e => (e.id, codeOf ext content e)
      let status := verdict ext (answers.map Prod.snd)
      askPoll (.commit answers now settlement.id status ext)
      pollEach settings rest (n.add status)

def pollSettlementResponses (settings : SftpSettings) : PollJob PollOutcome := do
  if settings.host = "" then pure (.skipped "no_sftp_host")
  else do
    let now ← askPoll .now
    let pending ← askPoll (.pending (now - 7 * 24 * DateTime.microsPerHour))
    let counts ← pollEach settings pending {}
    pure (.success counts)

end Upload

def EmoneyTransaction.responded (answers : List (Id × String)) (now : Int)
    (e : EmoneyTransaction) : EmoneyTransaction :=
  match answers.lookup e.id with
  | some code => { e with bankResponseStatus := some code, bankResponseAt := some now }
  | none => e

/-- What a poll commits for one settlement. -/
def Db.respond (db : Db) (answers : List (Id × String)) (now : Int) (settlement : Id)
    (status ext : String) : Db :=
  { db with
    emoney := db.emoney.map (EmoneyTransaction.responded answers now)
    settlements := db.settlements.map fun r =>
      if r.id = settlement then
        { r with status, responseReceivedAt := some now, responseExtension := some ext }
      else r }

namespace Upload

open Effects Settlement

/-- What a text file reads like: every line ends with a line feed. -/
def universalNewlines : List Char → List Char
  | [] => []
  | '\r' :: '\n' :: cs => '\n' :: universalNewlines cs
  | '\r' :: cs => '\n' :: universalNewlines cs
  | c :: cs => c :: universalNewlines cs

/-- A poll with the number of operations that it has issued. -/
structure PollConn where
  site : Site
  step : Nat := 0

def sortByUpload (rs : List EmoneySettlement) : List EmoneySettlement :=
  rs.insertionSort fun a b => a.uploadedAt.getD 0 ≤ b.uploadedAt.getD 0

/-- Uploaded at the cutoff or later. -/
def awaits (cutoff : Int) (r : EmoneySettlement) : Bool :=
  decide (r.status = "UPLOADED" ∧ ∃ t ∈ r.uploadedAt, cutoff ≤ t)

namespace Site
variable (s : Site)

def setFile (path : String) (content : Option String) : Site :=
  { s with desk.files := setKey s.desk.files path content }

def respond (answers : List (Id × String)) (now : Int) (settlement : Id) (status ext : String) :
    Site :=
  { s with desk.world.db := s.desk.world.db.respond answers now settlement status ext }

def rows (settlement : Id) : List EmoneyTransaction :=
  s.desk.world.db.emoney.filter fun e => e.settlementBatchId = some settlement

end Site

/-- What an operation answers when nothing goes wrong on the way. -/
def answer (o : PollOp) (s : Site) : o.Ans × Site :=
  match o with
  | .now => (.ok s.desk.world.now, s.tick)
  | .pending cutoff =>
    let found := s.desk.world.db.settlements.filter (awaits cutoff)
    let ids := s.desk.order (found.map (·.id))
    (.ok (sortByUpload (ids.filterMap fun i => found.find? fun r => r.id = i)), s)
  | .importAsyncssh => (if s.asyncssh then .ok () else .error .noAsyncssh, s)
  | .connect _ | .close => (.ok (), s)
  | .get remote tmp =>
    match s.remote remote with
    | none => (.error .noSuchFile, s)
    | some content => (.ok (), s.setFile tmp (some content))
  | .read tmp =>
    match s.files tmp with
    | none => (.error .os, s)
    | some raw =>
      if isAscii raw then (.ok (String.ofList (universalNewlines raw.toList)), s)
      else (.error .unicode, s)
  | .removeLocal tmp => (.ok (), s.setFile tmp none)
  | .rows i => (.ok (s.desk.scan (s.rows i)), s)
  | .commit answers now i status ext =>
    if answers.all fun a => varcharOk 2 a.2 then
      (.ok (), s.respond answers now i status ext)
    else (.error .db, s)

/-- `except OSError: pass`. -/
def PollOp.swallowed : PollOp → Bool
  | .removeLocal _ => true
  | _ => false

/-- Any operation may raise, before or after it has been carried out. -/
def execPoll (trouble : Nat → Option (PollExc × Bool)) (o : PollOp) (c : PollConn) :
    Except PollExc o.Ans × PollConn :=
  let done := answer o c.site
  match if o.swallowed then none else trouble c.step with
  | none => (.ok done.1, ⟨done.2, c.step + 1⟩)
  | some (e, served) => (.ok (.error e), ⟨if served then done.2 else c.site, c.step + 1⟩)

def poll (settings : SftpSettings) (trouble : Nat → Option (PollExc × Bool)) (s : Site) :
    Except PollExc PollOutcome × Site :=
  let (r, c) := (pollSettlementResponses settings).run (execPoll trouble) ⟨s, 0⟩
  (r, c.site)

end Upload
end ParkIt
