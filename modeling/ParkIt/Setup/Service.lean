import ParkIt.Lib.Sessions
import ParkIt.Upload.Response
import ParkIt.Tables

/-! The setup wizard: the installer's token, the setup sessions, the first admin, and the flag. -/
namespace ParkIt.Setup

open Effects Sessions

/-- What the wizard has saved of a step; one key of the step `topology` is read again. -/
structure StepData where
  includeLocalSerial : Bool := false
deriving DecidableEq, Repr

structure SetupSession where
  id : Id
  sessionToken : String
  currentStep : String
  data : List (String × StepData) := []
  expiresAt : Int
deriving DecidableEq, Repr

structure User where
  username : String
  email : String
  fullName : String
  passwordHash : String
  role : String
  isActive : Bool
deriving DecidableEq, Repr

structure CreateAdminRequest where
  username : String := "admin"
  fullName : String
  email : String
  password : String
deriving DecidableEq, Repr

/-- The endpoints behind `require_setup_or_admin`; what they do concerns hardware and gates. -/
inductive WizardEndpoint where
  | preflight
  | detectSerial
  | testDevice
  | testGate
  | writeUdev
  | topology
deriving DecidableEq, Repr

/-- File operations that fail answer `none`; the database operations include their commit. -/
inductive SetupOp where
  | time
  | tokenExists
  | tokenStat
  | tokenText
  | unlinkToken
  | randomToken
  | selectSession (token : String)
  | insertSession (token : String) (expiresAt : Int)
  | deleteSession (id : Id)
  | saveStep (id : Id) (step : String) (data : List (String × StepData))
  | currentRole
  | countAdmins
  | insertUser (user : User)
  | createTokens
  | selectComplete
  | writeComplete (fresh : Bool) (value : String)
  | detectTopology
  | runScript (args : List String)
  | endpoint (e : WizardEndpoint)

abbrev SetupOp.Ans : SetupOp → Type
  | .time => Int
  | .tokenExists => Bool
  | .tokenStat => Option Int
  | .tokenText => Option String
  | .unlinkToken => Option Unit
  | .randomToken => String
  | .selectSession _ => Option SetupSession
  | .insertSession _ _ => SetupSession
  | .deleteSession _ => Unit
  | .saveStep _ _ _ => Unit
  | .currentRole => Option String
  | .countAdmins => Nat
  | .insertUser _ => Unit
  | .createTokens => Unit
  | .selectComplete => Option String
  | .writeComplete _ _ => Unit
  | .detectTopology => String
  | .runScript _ => Bool
  | .endpoint _ => Unit

inductive SetupExc where
  | http (status : Nat) (detail : String)
deriving DecidableEq, Repr

abbrev Work (α : Type) := Prog SetupOp SetupOp.Ans SetupExc α

def ask (o : SetupOp) : Work o.Ans := Prog.perform o

def httpException {α : Type} (status : Nat) (detail : String) : Work α :=
  Prog.raise (.http status detail)

/-- Times are counted in microseconds. -/
def setupTokenMaxAge : Int := 24 * 60 * 60 * 1000000

structure SetupSettings where
  setupSessionTtlSeconds : Int := 3600
  parkingInstallRoot : String := "/opt/parking-system-v2"
  isRoot : Bool := false
  hashPassword : String → String

section Service
variable (settings : SetupSettings)

def tokenOf (text : String) : String := String.ofList (Upload.strip text.toList)

def readSetupToken : Work (Option String) := do
  if ¬ (← ask .tokenExists) then pure none
  else
    match ← ask .tokenStat with
    | none => pure none
    | some mtime => do
      let now ← ask .time
      if now - mtime > setupTokenMaxAge then do
        let _ ← ask .unlinkToken
        pure none
      else
        match ← ask .tokenText with
        | none => pure none
        | some text => pure (if tokenOf text = "" then none else some (tokenOf text))

/-- An unlink that fails is only logged. -/
def deleteSetupToken : Work Unit := do
  let _ ← ask .unlinkToken

def createSession : Work SetupSession := do
  let token ← ask .randomToken
  let now ← ask .time
  ask (.insertSession token (now + settings.setupSessionTtlSeconds * 1000000))

def getSessionByToken (token : String) : Work (Option SetupSession) := do
  match ← ask (.selectSession token) with
  | none => pure none
  | some session => do
    let now ← ask .time
    if session.expiresAt < now then do
      ask (.deleteSession session.id)
      pure none
    else pure (some session)

/-- The cookie of the request, unless it is empty. -/
def cookieSession : Option String → Work (Option SetupSession)
  | none => pure none
  | some cookie => if cookie = "" then pure none else getSessionByToken cookie

def requireSetupOrAdmin (cookie : Option String) : Work (Option SetupSession) := do
  let session ← cookieSession cookie
  let role ← ask .currentRole
  if session.isNone && role != some "admin" then
    httpException 401 "Setup session or admin authentication required"
  else pure session

def hasAnyAdmin : Work Bool := do
  pure (decide ((← ask .countAdmins) > 0))

def setupComplete : Work Bool := do
  match ← ask .selectComplete with
  | none => pure false
  | some value => pure (value.toLower == "true")

def markSetupComplete : Work Unit := do
  let row ← ask .selectComplete
  ask (.writeComplete row.isNone "true")

/-- The setup cookie that the answer sets, if any, and what the wizard shows. -/
inductive Answer where
  | session (cookie currentStep : String)
  | admin (username : String)
  | state (complete hasAdmin : Bool) (topology : String) (currentStep : Option String)
  | saved (step : String)
  | step (currentStep : String) (data : List (String × StepData))
  | done (e : WizardEndpoint)
  | finalized (ok : Bool)
deriving DecidableEq, Repr

def redeemToken (token : String) : Work Answer := do
  match ← readSetupToken with
  | none => httpException 410 "Setup token not present — installer must regenerate one."
  | some diskToken =>
    if diskToken ≠ token then httpException 401 "Invalid setup token"
    else do
      deleteSetupToken
      let session ← createSession settings
      pure (.session session.sessionToken session.currentStep)

def createAdmin (cookie : Option String) (body : CreateAdminRequest) : Work Answer := do
  match ← cookieSession cookie with
  | none => httpException 401 "Setup session required"
  | some _ =>
    if ← hasAnyAdmin then
      httpException 409 "Admin already exists. Use the standard login flow."
    else do
      ask (.insertUser
        { username := body.username
          email := body.email
          fullName := body.fullName
          passwordHash := settings.hashPassword body.password
          role := "admin"
          isActive := true })
      ask .createTokens
      pure (.admin body.username)

def getState (cookie : Option String) : Work Answer := do
  let complete ← setupComplete
  let hasAdmin ← hasAnyAdmin
  let topology ← ask .detectTopology
  let session ← cookieSession cookie
  pure (.state complete hasAdmin topology (session.map (·.currentStep)))

def saveState (cookie : Option String) (step : String) (data : StepData) : Work Answer := do
  match ← cookieSession cookie with
  | none => httpException 401 "Setup session required"
  | some session => do
    ask (.saveStep session.id step ((step, data) :: session.data.filter (·.1 ≠ step)))
    pure (.saved step)

def readSession (cookie : Option String) : Work Answer := do
  match ← cookieSession cookie with
  | none => httpException 404 "No active setup session"
  | some session => pure (.step session.currentStep session.data)

def wizard (e : WizardEndpoint) (cookie : Option String) : Work Answer := do
  let _ ← requireSetupOrAdmin cookie
  ask (.endpoint e)
  pure (.done e)

def includeLocalSerial (session : SetupSession) : Bool :=
  ((session.data.find? (·.1 = "topology")).map (·.2.includeLocalSerial)).getD false

def finalizeCommand (includeLocal : Bool) : List String :=
  (if settings.isRoot then [] else ["sudo", "-n"]) ++
    ["bash", settings.parkingInstallRoot ++ "/scripts/enable-gate-daemons.sh", "--run", "--json"] ++
    (if includeLocal then ["--include-local-serial"] else [])

def finalize (cookie : Option String) : Work Answer := do
  let _ ← requireSetupOrAdmin cookie
  let session ← cookieSession cookie
  let includeLocal := (session.map includeLocalSerial).getD false
  let ok ← ask (.runScript (finalizeCommand settings includeLocal))
  if ¬ ok then pure (.finalized false)
  else do
    markSetupComplete
    deleteSetupToken
    match session with
      | some session => ask (.deleteSession session.id)
      | none => pure ()
    pure (.finalized true)

inductive Call where
  | redeemToken (token : String)
  | createAdmin (cookie : Option String) (body : CreateAdminRequest)
  | getState (cookie : Option String)
  | saveState (cookie : Option String) (step : String) (data : StepData)
  | readSession (cookie : Option String)
  | wizard (e : WizardEndpoint) (cookie : Option String)
  | finalize (cookie : Option String)
deriving DecidableEq, Repr

def Call.code : Call → Work Answer
  | .redeemToken token => Setup.redeemToken settings token
  | .createAdmin cookie body => Setup.createAdmin settings cookie body
  | .getState cookie => Setup.getState cookie
  | .saveState cookie step data => Setup.saveState cookie step data
  | .readSession cookie => Setup.readSession cookie
  | .wizard e cookie => Setup.wizard e cookie
  | .finalize cookie => Setup.finalize settings cookie

/-- The token that the request presents to be redeemed. -/
def Call.presented : Call → Option String
  | .redeemToken token => some token
  | _ => none

/-- The endpoint is behind `require_setup_or_admin`. -/
def Call.guarded : Call → Bool
  | .wizard _ _ | .finalize _ => true
  | _ => false

end Service

/-- How far a call has come. -/
inductive Phase where
  | begun
  | holding
  | dropped
  | found (r : SetupSession)
  | live (r : SetupSession)
  | passed
  | own (r : SetupSession)
  | mine (r : SetupSession)
  | vacant
  | refused
  | over
deriving DecidableEq, Repr

/-- The guard has let the call through. -/
def Phase.Admitted : Phase → Prop
  | .passed | .own _ | .mine _ => True
  | _ => False

def Phase.next (presented : Option String) : Phase → (o : SetupOp) → o.Ans → Phase
  | .begun, .tokenText, some text => if presented = some (tokenOf text) then .holding else .begun
  | .holding, .unlinkToken, _ => .dropped
  | .dropped, .insertSession _ _, _ => .over
  | .begun, .selectSession _, some r => .found r
  | .found r, .time, now => if r.expiresAt < now then .begun else .live r
  | .begun, .currentRole, role => if role = some "admin" then .passed else .refused
  | .live _, .currentRole, _ => .passed
  | .passed, .selectSession _, some r => .own r
  | .own r, .time, now => if r.expiresAt < now then .passed else .mine r
  | .live r, .countAdmins, n => if n = 0 then .vacant else .live r
  | .vacant, .insertUser _, _ => .over
  | .passed, .writeComplete _ _, _ | .mine _, .writeComplete _ _, _ => .over
  | phase, _, _ => phase

structure Note where
  call : Call
  phase : Phase := .begun
deriving DecidableEq, Repr

/-- What every call keeps to. -/
def setupRules : Protocol SetupOp SetupOp.Ans Note where
  allow g o :=
    match o with
    | .insertSession _ _ => g.phase = .dropped
    | .insertUser _ => g.phase = .vacant
    | .currentRole => g.call.guarded = true
    | .writeComplete _ value => value = "true"
    | .runScript _ | .endpoint _ => g.phase.Admitted
    | _ => True
  expect _ _ _ := True
  next g o a := { g with phase := g.phase.next g.call.presented o a }

/-- The file, the tables and the setting, and the clock of all processes. -/
structure Stores where
  clock : Int := 0
  tokenFile : Option (String × Int) := none
  sessions : List SetupSession := []
  nextSession : Id := 1
  users : List User := []
  complete : Option String := none
deriving DecidableEq, Repr

namespace Stores
variable (d : Stores)

def admins : Nat := d.users.countP (·.role = "admin")

def withSession (token : String) (expiresAt : Int) : SetupSession where
  id := d.nextSession
  sessionToken := token
  currentStep := "welcome"
  expiresAt := expiresAt

end Stores

/-- What an operation does and answers; file operations may fail, scripts and roles are free. -/
inductive Acts : (o : SetupOp) → Stores → o.Ans → Stores → Prop
  | time {d} : Acts .time d d.clock d
  | tokenExists {d} : Acts .tokenExists d d.tokenFile.isSome d
  | tokenStat {d} {a : Option Int} : (∀ m ∈ a, ∃ f ∈ d.tokenFile, f.2 = m) → Acts .tokenStat d a d
  | tokenText {d} {a : Option String} : (∀ text ∈ a, ∃ f ∈ d.tokenFile, f.1 = text) →
      Acts .tokenText d a d
  | unlinkToken {d} : Acts .unlinkToken d (some ()) { d with tokenFile := none }
  | unlinkFails {d} : Acts .unlinkToken d none d
  | randomToken {d token} : Acts .randomToken d token d
  | selectSession {d token} :
      Acts (.selectSession token) d (d.sessions.find? (·.sessionToken = token)) d
  | insertSession {d token expiresAt} : (∀ r ∈ d.sessions, r.sessionToken ≠ token) →
      Acts (.insertSession token expiresAt) d (d.withSession token expiresAt)
        { d with sessions := d.sessions ++ [d.withSession token expiresAt]
                 nextSession := d.nextSession + 1 }
  | deleteSession {d id} : Acts (.deleteSession id) d ()
      { d with sessions := d.sessions.filter (·.id ≠ id) }
  | saveStep {d id step data} : (∃ r ∈ d.sessions, r.id = id) → Acts (.saveStep id step data) d ()
      { d with sessions := d.sessions.map fun r =>
          if r.id = id then { r with currentStep := step, data } else r }
  | currentRole {d role} : Acts .currentRole d role d
  | countAdmins {d} : Acts .countAdmins d d.admins d
  | insertUser {d user} : (∀ u ∈ d.users, u.username ≠ user.username ∧ u.email ≠ user.email) →
      Acts (.insertUser user) d () { d with users := d.users ++ [user] }
  | createTokens {d} : Acts .createTokens d () d
  | selectComplete {d} : Acts .selectComplete d d.complete d
  | writeComplete {d} {fresh : Bool} {value} : (fresh → d.complete = none) →
      Acts (.writeComplete fresh value) d () { d with complete := some value }
  | detectTopology {d topology} : Acts .detectTopology d topology d
  | runScript {d args ok} : Acts (.runScript args) d ok d
  | endpoint {d e} : Acts (.endpoint e) d () d

/-- The operation raises, or its answer is lost. -/
inductive Fails : SetupOp → Stores → Stores → Prop
  | unreached {o d} : Fails o d d
  | lost {o d a d'} : Acts o d a d' → Fails o d d'

inductive Entry where
  | completed (sessionToken : Option String)
  | accepted
deriving DecidableEq, Repr

/-- The session that a call of `finalize` has come with. -/
def Phase.session : Phase → Option SetupSession
  | .mine r => some r
  | _ => none

/-- On record: the flag has been set, and a request has passed the guard without an admin's JWT. -/
def Note.record (g : Note) : (o : SetupOp) → Option o.Ans → List Entry
  | .writeComplete _ _, _ => [.completed (g.phase.session.map (·.sessionToken))]
  | .currentRole, some role =>
    match g.phase with
    | .live _ => if role = some "admin" then [] else [.accepted]
    | _ => []
  | _, _ => []

/-- The calls of all API workers. -/
def setupCalls (settings : SetupSettings) :
    Machine SetupOp SetupOp.Ans SetupExc Answer Stores Unit Note Entry where
  starts p _ g := ∃ c : Call, p = c.code settings ∧ g = { call := c }
  act o d _ a d' _ := Acts o d a d'
  fails o d _ d' := Fails o d d'
  during _ _ _ _ := False
  outside d d' := ∃ now, d.clock ≤ now ∧ d' = { d with clock := now }
  protocol := setupRules
  record := Note.record

abbrev SetupSys (ι : Type) := Sys ι SetupOp SetupOp.Ans SetupExc Answer Stores Unit Note Entry

end ParkIt.Setup
