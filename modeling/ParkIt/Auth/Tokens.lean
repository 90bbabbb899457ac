import ParkIt.Lib.Sessions
import Mathlib.Algebra.Order.Floor.Ring
import Mathlib.Data.Rat.Floor

/-! Access and refresh tokens, and the denylist that Redis keeps of them. -/
namespace ParkIt.Auth

open Effects Sessions Transition

inductive TokenType where
  | access
  | refresh
deriving DecidableEq, Repr

/-- The payload of a token; PyJWT stores `exp` in whole seconds. -/
structure Claims where
  sub : Option String := none
  username : Option String := none
  role : Option String := none
  exp : Option Int := none
  type : Option TokenType := none
  jti : Option String := none
deriving DecidableEq, Repr

inductive Token where
  | signed (c : Claims)
  | unsigned (text : String)
deriving DecidableEq, Repr

/-- What a token is made of. -/
structure TokenData where
  sub : String
  username : String
  role : String
deriving DecidableEq, Repr

structure TokenPair where
  accessToken : Token
  refreshToken : Token
deriving DecidableEq, Repr

structure TokenSettings where
  jwtAccessTokenExpireMinutes : Int := 30
  jwtRefreshTokenExpireDays : Int := 7

inductive AuthOp where
  | now
  | uuid
  | get (key : String)
  | set (key value : String) (ex : Int)
deriving DecidableEq, Repr

abbrev AuthOp.Ans : AuthOp → Type
  | .now => ℚ
  | .uuid => String
  | .get _ => Option String
  | .set _ _ _ => Unit

inductive AuthExc where
  | invalidToken
  | keyError
deriving DecidableEq, Repr

abbrev Work (α : Type) := Prog AuthOp AuthOp.Ans AuthExc α

def ask (o : AuthOp) : Work o.Ans := Prog.perform o

section Jwt
variable (settings : TokenSettings)

def encode (data : TokenData) (expire : ℚ) (type : TokenType) (jti : String) : Token :=
  .signed ⟨data.sub, data.username, data.role, some ⌊expire⌋, some type, some jti⟩

def createAccessToken (data : TokenData) : Work Token := do
  let now ← ask .now
  let jti ← ask .uuid
  pure (encode data (now + settings.jwtAccessTokenExpireMinutes * 60) .access jti)

def createRefreshToken (data : TokenData) : Work Token := do
  let now ← ask .now
  let jti ← ask .uuid
  pure (encode data (now + settings.jwtRefreshTokenExpireDays * 86400) .refresh jti)

def Claims.expired (c : Claims) (now : ℚ) : Bool := c.exp.any fun (exp : Int) => (exp : ℚ) ≤ now

/-- PyJWT reads the clock once the signature is verified. -/
def decodeToken : Token → Work Claims
  | .unsigned _ => Prog.raise .invalidToken
  | .signed c => do
    let now ← ask .now
    if c.expired now then Prog.raise .invalidToken else pure c

/-- `None` for every exception. -/
def tryDecode (token : Token) : Work (Option Claims) :=
  (decodeToken token >>= fun c => pure (some c)).handle fun _ => pure none

end Jwt

def denylistKey (jti : String) : String := "jwt:denylist:" ++ jti

/-- `_revoke_token`; the clock is past 1970. -/
def revokeJti (jti : String) (exp : Int) : Work Unit := do
  let now ← ask .now
  let ttl := max 0 (exp - ⌊now⌋)
  if 0 < ttl then ask (.set (denylistKey jti) "1" ttl)

def isTokenRevoked (jti : String) : Work Bool := do
  pure (← ask (.get (denylistKey jti))).isSome

def createTokens (settings : TokenSettings) (user : TokenData) : Work TokenPair := do
  let accessToken ← createAccessToken settings user
  let refreshToken ← createRefreshToken settings user
  pure ⟨accessToken, refreshToken⟩

/-- The jti of a payload, unless it is empty. -/
def Claims.truthyJti (c : Claims) : Option String := c.jti.filter (· ≠ "")

def refreshTokens (settings : TokenSettings) (refreshToken : Token) : Work (Option TokenPair) := do
  match ← tryDecode refreshToken with
  | none => pure none
  | some payload =>
    if payload.type ≠ some .refresh then pure none
    else do
      let revoked ← match payload.truthyJti with
        | some jti => isTokenRevoked jti
        | none => pure false
      if revoked then pure none
      else do
        match payload.truthyJti with
          | some jti => revokeJti jti (payload.exp.getD 0)
          | none => pure ()
        match payload.sub with
        | none => Prog.raise .keyError
        | some sub => do
          let data : TokenData := ⟨sub, payload.username.getD "", payload.role.getD "operator"⟩
          let newAccess ← createAccessToken settings data
          let newRefresh ← createRefreshToken settings data
          pure (some ⟨newAccess, newRefresh⟩)

/-- `hash` makes a jti of a token that has none. -/
def revokeToken (hash : Token → String) (token : Token) : Work Bool := do
  match ← tryDecode token with
  | none => pure false
  | some payload => do
    revokeJti (payload.jti.getD (hash token)) (payload.exp.getD 0)
    pure true

def isTokenValid (token : Token) : Work (Option Claims) := do
  match ← tryDecode token with
  | none => pure none
  | some payload =>
    if payload.type ≠ some .access then pure none
    else do
      let revoked ← match payload.truthyJti with
        | some jti => isTokenRevoked jti
        | none => pure false
      if revoked then pure none else pure (some payload)

inductive Call where
  | createTokens (user : TokenData)
  | refreshTokens (token : Token)
  | revokeToken (token : Token)
  | isTokenValid (token : Token)
deriving DecidableEq, Repr

inductive Answer where
  | created (pair : TokenPair)
  | refreshed (pair : Option TokenPair)
  | revoked (ok : Bool)
  | validated (payload : Option Claims)
deriving DecidableEq, Repr

/-- A token has been taken for a good one. -/
def Answer.accepts : Answer → Bool
  | .refreshed pair => pair.isSome
  | .validated payload => payload.isSome
  | _ => false

namespace Call

def code (settings : TokenSettings) (hash : Token → String) : Call → Work Answer
  | .createTokens user => do pure (.created (← Auth.createTokens settings user))
  | .refreshTokens token => do pure (.refreshed (← Auth.refreshTokens settings token))
  | .revokeToken token => do pure (.revoked (← Auth.revokeToken hash token))
  | .isTokenValid token => do pure (.validated (← Auth.isTokenValid token))

def token : Call → Option Token
  | .createTokens _ => none
  | .refreshTokens token | .revokeToken token | .isTokenValid token => some token

/-- The payload of the token that is presented. -/
def claims (c : Call) : Option Claims :=
  match c.token with
  | some (.signed c) => some c
  | _ => none

def jti (c : Call) : Option String := c.claims.bind Claims.jti

/-- The type of token that a call takes. -/
def wants : Call → Option TokenType
  | .refreshTokens _ => some .refresh
  | .isTokenValid _ => some .access
  | _ => none

/-- Every token has a jti of its own, so the jti determines when it expires. -/
def Presents (expOf : String → Int) (c : Call) : Prop :=
  ∀ p, c.claims = some p → ∃ id, p.jti = some id ∧ id ≠ "" ∧ p.exp = some (expOf id)

end Call

/-- How far a call has come with its token. -/
inductive Phase where
  | begun
  | decoded
  | passed
  | timed (ttl : Int)
  | revoked
  | access
  | issued
  | over
deriving DecidableEq, Repr

structure Note where
  call : Call
  phase : Phase := .begun
deriving DecidableEq, Repr

/-- The lifetime of the entry has been worked out. -/
def timedPhase (exp : Int) (now : ℚ) : Phase :=
  if 0 < exp - ⌊now⌋ then .timed (exp - ⌊now⌋) else .revoked

def Phase.next (exp : Int) : Phase → (o : AuthOp) → o.Ans → Phase
  | .begun, .now, t => if (exp : ℚ) ≤ t then .over else .decoded
  | .decoded, .get _, r => if r.isSome then .over else .passed
  | .decoded, .now, t | .passed, .now, t => timedPhase exp t
  | .timed _, .set _ _ _, _ => .revoked
  | .revoked, .uuid, _ => .access
  | .access, .uuid, _ => .issued
  | phase, _, _ => phase

def Note.next (expOf : String → Int) (g : Note) (o : AuthOp) (a : o.Ans) : Note :=
  match g.call.jti with
  | none => g
  | some id => { g with phase := g.phase.next (expOf id) o a }

def Note.Reads (g : Note) (id : String) : Prop :=
  g.call.jti = some id ∧ g.phase = .decoded ∧ g.call.wants.isSome

/-- What every call keeps to. -/
def tokenRules (expOf : String → Int) : Protocol AuthOp AuthOp.Ans Note where
  allow g o :=
    match o with
    | .get key => ∃ id, key = denylistKey id ∧ g.Reads id
    | .now => g.phase = .decoded → g.call.wants = none
    | .uuid => g.call.jti.isSome → g.call.wants = some .refresh
    | .set key _ ex => ∃ id, key = denylistKey id ∧ g.call.jti = some id ∧ g.phase = .timed ex
  expect _ _ _ := True
  next := Note.next expOf

/-- The clock that the workers and Redis share, and how long an entry is sure to live. -/
structure Denylist where
  clock : ℚ := 0
  entry : String → Option ℚ := fun _ => none

def Denylist.InForce (d : Denylist) (key : String) : Prop := ∃ t ∈ d.entry key, d.clock < t

/-- An entry that has run out may still be there. -/
inductive Acts : (o : AuthOp) → Denylist → o.Ans → Denylist → Prop
  | now {d} : Acts .now d d.clock d
  | uuid {d jti} : Acts .uuid d jti d
  | get {d key r} : (d.InForce key → r = some "1") → (d.entry key = none → r = none) →
      Acts (.get key) d r d
  | set {d key value ex} : Acts (.set key value ex) d ()
      { d with entry := Function.update d.entry key (some (d.clock + ex)) }

/-- Redis cannot be reached, or its answer is lost. -/
inductive Fails : AuthOp → Denylist → Denylist → Prop
  | unreached {o d} : Fails o d d
  | lost {o d a d'} : Acts o d a d' → Fails o d d'

inductive Entry where
  | revoked (jti : String)
  | issued (jti : String)
deriving DecidableEq, Repr

def Note.record (expOf : String → Int) (g : Note) (o : AuthOp) : Option o.Ans → List Entry
  | none => []
  | some a =>
    match (g.next expOf o a).phase with
    | .revoked => if g.phase = .revoked then [] else (g.call.jti.map Entry.revoked).toList
    | .issued => if g.phase = .issued then [] else (g.call.jti.map Entry.issued).toList
    | _ => []

/-- The calls of all API workers. -/
def tokenCalls (settings : TokenSettings) (hash : Token → String) (expOf : String → Int) :
    Machine AuthOp AuthOp.Ans AuthExc Answer Denylist Unit Note Entry where
  starts p _ g := ∃ c : Call, p = c.code settings hash ∧ g = { call := c } ∧ c.Presents expOf
  act o d _ a d' _ := Acts o d a d'
  fails o d _ d' := Fails o d d'
  during _ _ _ _ := False
  outside d d' := d'.entry = d.entry ∧ d.clock ≤ d'.clock
  protocol := tokenRules expOf
  record := Note.record expOf

abbrev TokenSys (ι : Type) := Sys ι AuthOp AuthOp.Ans AuthExc Answer Denylist Unit Note Entry

end ParkIt.Auth
