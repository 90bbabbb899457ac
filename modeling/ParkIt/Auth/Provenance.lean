import ParkIt.Auth.Tokens
import ParkIt.Lib.Answers

/-! The requests that log in, renew a session, log out, and ask for a role: every request that is
admitted goes back to a login. -/
namespace ParkIt.Auth

open Effects

structure User where
  id : Int
  username : String
  passwordHash : String
  role : String
  isActive : Bool := true
deriving DecidableEq, Repr

def User.tokenData (u : User) : TokenData := ⟨toString u.id, u.username, u.role⟩

/-- `authenticate_user`, of the row that is selected for the user name. -/
def authenticateUser (verifyPassword : String → String → Bool) (row : Option User)
    (password : String) : Option User :=
  match row with
  | none => none
  | some user =>
    if !user.isActive then none
    else if !verifyPassword password user.passwordHash then none
    else some user

/-- An empty cookie counts as none. -/
def Token.truthy : Token → Bool
  | .unsigned text => text ≠ ""
  | .signed _ => true

def getCurrentUser (accessToken : Option Token) : Work (Option Claims) :=
  match accessToken.filter Token.truthy with
  | none => pure none
  | some token => isTokenValid token

inductive Request where
  | login (username password : String)
  | refresh (refreshToken : Option Token)
  | logout (accessToken refreshToken : Option Token)
  | requireAuth (accessToken : Option Token)
  | requireRole (allowedRoles : List String) (accessToken : Option Token)
deriving DecidableEq, Repr

def requireAdmin (accessToken : Option Token) : Request := .requireRole ["admin"] accessToken

def requireOperator (accessToken : Option Token) : Request :=
  .requireRole ["admin", "operator", "supervisor"] accessToken

inductive Reply where
  | loggedIn (user : User) (tokens : TokenPair)
  | refreshed (tokens : TokenPair)
  | loggedOut
  | admitted (payload : Claims)
  | unauthorized (message : String)
  | forbidden (message : String)
deriving DecidableEq, Repr

/-- The tokens that a reply sets as cookies. -/
def Reply.tokens : Reply → List Token
  | .loggedIn _ pair | .refreshed pair => [pair.accessToken, pair.refreshToken]
  | _ => []

/-- What the API works with; the users are those of each moment. -/
structure Site where
  settings : TokenSettings := {}
  verifyPassword : String → String → Bool
  hash : Token → String := fun _ => ""
  users : ℚ → List User

section Code
variable (site : Site)

def login (row : Option User) (password : String) : Work Reply :=
  match authenticateUser site.verifyPassword row password with
  | none => pure (.unauthorized "Invalid username or password")
  | some user => do
    let tokens ← createTokens site.settings user.tokenData
    pure (.loggedIn user tokens)

def refresh (refreshToken : Option Token) : Work Reply :=
  match refreshToken.filter Token.truthy with
  | none => pure (.unauthorized "Refresh token missing")
  | some token => do
    match ← refreshTokens site.settings token with
    | none => pure (.unauthorized "Invalid or expired refresh token")
    | some tokens => pure (.refreshed tokens)

def revokeCookie (cookie : Option Token) : Work Unit :=
  match cookie.filter Token.truthy with
  | none => pure ()
  | some token => do
    let _ ← revokeToken site.hash token

def logout (accessToken refreshToken : Option Token) : Work Reply := do
  revokeCookie site accessToken
  revokeCookie site refreshToken
  pure .loggedOut

def requireAuth (accessToken : Option Token) : Work Reply := do
  match ← getCurrentUser accessToken with
  | none => pure (.unauthorized "Invalid authentication credentials")
  | some user => pure (.admitted user)

/-- A payload without a role is taken for that of an operator. -/
def requireRole (allowedRoles : List String) (accessToken : Option Token) : Work Reply := do
  match ← requireAuth accessToken with
  | .admitted user =>
    if user.role.getD "operator" ∈ allowedRoles then pure (.admitted user)
    else pure (.forbidden "Insufficient permissions")
  | reply => pure reply

def Request.code (row : Option User) : Request → Work Reply
  | .login _ password => Auth.login site row password
  | .refresh refreshToken => Auth.refresh site refreshToken
  | .logout accessToken refreshToken => Auth.logout site accessToken refreshToken
  | .requireAuth accessToken => Auth.requireAuth accessToken
  | .requireRole allowedRoles accessToken => Auth.requireRole allowedRoles accessToken

/-- The tokens that a request presents. -/
def Request.presented : Request → List Token
  | .login _ _ => []
  | .refresh refreshToken => refreshToken.toList
  | .logout accessToken refreshToken => accessToken.toList ++ refreshToken.toList
  | .requireAuth accessToken | .requireRole _ accessToken => accessToken.toList

end Code

/-- A request that has been served: when, what was selected from the users, and what the clock and
Redis said to it. -/
structure Served where
  request : Request
  row : Option User := none
  start : ℚ
  fin : ℚ
  env : Answers AuthOp AuthOp.Ans

def Site.reply (site : Site) (x : Served) : Option Reply :=
  match ((x.request.code site x.row).run x.env.exec []).1 with
  | .ok reply => some reply
  | .error _ => none

/-- The clock and the users are those of the time; whoever asks can present what has been handed
out before, but not sign anything. Redis may answer anything. -/
structure Site.Serves (site : Site) (before : List Served) (x : Served) : Prop where
  clock : ∀ j, x.start ≤ x.env j .now ∧ x.env j .now ≤ x.fin
  row : ∀ username password, x.request = .login username password →
    ∃ t, x.start ≤ t ∧ t ≤ x.fin ∧ x.row = (site.users t).find? (·.username = username)
  presents : ∀ c, .signed c ∈ x.request.presented →
    ∃ y ∈ before, y.fin ≤ x.start ∧ ∃ reply, site.reply y = some reply ∧ .signed c ∈ reply.tokens

inductive Site.Run (site : Site) : List Served → Prop
  | nil : Run site []
  | snoc {xs : List Served} {x : Served} : Run site xs → site.Serves xs x → Run site (xs ++ [x])

/-- A session of this user, from the login to the last time that it was renewed. -/
inductive Traced (site : Site) (xs : List Served) (u : User) : Served → Prop
  | login {y : Served} {username password : String} {t : ℚ} : y ∈ xs →
      y.request = .login username password → y.start ≤ t → t ≤ y.fin → u ∈ site.users t →
      u.username = username → u.isActive = true →
      site.verifyPassword password u.passwordHash = true → Traced site xs u y
  | refresh {y z : Served} {tokens : TokenPair} : Traced site xs u y → z ∈ xs →
      site.reply z = some (.refreshed tokens) → y.fin ≤ z.start →
      z.start < y.fin + site.settings.jwtRefreshTokenExpireDays * 86400 → Traced site xs u z

section Specs
variable {site : Site} {env : Answers AuthOp AuthOp.Ans} {j : Journal AuthOp AuthOp.Ans}
  {start fin : ℚ} {c : Claims} {data : TokenData}

/-- The clock stays within these times. -/
def Within (env : Answers AuthOp AuthOp.Ans) (start fin : ℚ) : Prop :=
  ∀ j, start ≤ env j .now ∧ env j .now ≤ fin

/-- A token that is made at this time. -/
inductive Made (settings : TokenSettings) (data : TokenData) (start fin : ℚ) : Token → Prop
  | access {now : ℚ} {jti : String} : start ≤ now → now ≤ fin → Made settings data start fin
      (encode data (now + settings.jwtAccessTokenExpireMinutes * 60) .access jti)
  | refresh {now : ℚ} {jti : String} : start ≤ now → now ≤ fin → Made settings data start fin
      (encode data (now + settings.jwtRefreshTokenExpireDays * 86400) .refresh jti)

/-- What follows from an answer; nothing is said about a request that raises. -/
abbrev Ends {α : Type} (env : Answers AuthOp AuthOp.Ans) (p : Work α)
    (j : Journal AuthOp AuthOp.Ans) (post : α → Prop) : Prop :=
  Prog.Ensures env.exec p j (fun a _ => post a) fun _ _ => True

theorem ends_bind {α β : Type} {p : Work α} {f : α → Work β} {mid : α → Prop} {post : β → Prop}
    (hp : Ends env p j mid) (hf : ∀ a j', mid a → Ends env (f a) j' post) :
    Ends env (p >>= f) j post :=
  hp.bind (fun _ _ _ => trivial) fun a j' ha => hf a j' ha

theorem ends_any {α β : Type} {p : Work α} {f : α → Work β} {post : β → Prop}
    (hf : ∀ a j', Ends env (f a) j' post) : Ends env (p >>= f) j post :=
  ends_bind (Prog.ensures_true p) fun a j' (_ : True) => hf a j'

theorem ends_createTokens (henv : Within env start fin) :
    Ends env (createTokens site.settings data) j fun pair =>
      Made site.settings data start fin pair.accessToken ∧
        Made site.settings data start fin pair.refreshToken :=
  ⟨.access (henv _).1 (henv _).2, .refresh (henv _).1 (henv _).2⟩

/-- The payload of a token that is signed, and has not run out when it is presented. -/
structure Payload (token : Token) (start : ℚ) (type : TokenType) (c : Claims) : Prop where
  signed : token = .signed c
  type : c.type = some type
  fresh : ∀ exp ∈ c.exp, start < ((exp : Int) : ℚ)

theorem ends_tryDecode (henv : Within env start fin) (token : Token) :
    Ends env (tryDecode token) j fun c => ∀ p, c = some p →
      token = .signed p ∧ ∀ exp ∈ p.exp, start < ((exp : Int) : ℚ) := by
  cases token with
  | unsigned text =>
    rintro p ⟨⟩
  | signed c =>
    unfold tryDecode
    refine Answers.ensures_handle.mpr (Prog.ensures_bind.mpr (Prog.ensures_bind.mpr ?_))
    refine Answers.ensures_perform.mpr ?_
    split
    · rintro p ⟨⟩
    · rename_i hfresh
      rintro p ⟨⟩
      refine ⟨rfl, fun exp hexp => ?_⟩
      have hlate : ¬ ((exp : Int) : ℚ) ≤ env j .now := by
        intro hle
        apply hfresh
        unfold Claims.expired
        rw [Option.mem_def.mp hexp, Option.any_some]
        exact decide_eq_true hle
      exact lt_of_le_of_lt (henv j).1 (not_le.mp hlate)

theorem ends_isTokenValid (henv : Within env start fin) (token : Token) :
    Ends env (isTokenValid token) j fun c => ∀ p, c = some p → Payload token start .access p := by
  unfold isTokenValid
  refine ends_bind (ends_tryDecode henv token) fun c j' hc => ?_
  cases c with
  | none => rintro p ⟨⟩
  | some q =>
    obtain ⟨htoken, hfresh⟩ := hc q rfl
    have hend : ∀ (revoked : Bool) j'', Ends env
        (if revoked = true then pure none else pure (some q) : Work (Option Claims)) j''
        fun c => ∀ p, c = some p → q.type = some .access → Payload token start .access p := by
      intro revoked j''
      split
      · rintro p ⟨⟩
      · rintro p ⟨⟩ htype
        exact ⟨htoken, htype, hfresh⟩
    dsimp only
    split
    · rintro p ⟨⟩
    · rename_i htype
      have hmono : ∀ {w : Work (Option Claims)} {j'' : Journal AuthOp AuthOp.Ans},
          Ends env w j'' (fun c => ∀ p, c = some p → q.type = some .access →
            Payload token start .access p) →
          Ends env w j'' fun c => ∀ p, c = some p → Payload token start .access p :=
        fun h => h.mono (fun _ _ h p hp => h p hp (not_not.mp htype)) fun _ _ h => h
      refine hmono ?_
      split
      · exact ends_any hend
      · exact hend false j'

/-- Two tokens that are made for the payload of a refresh token. -/
def Renews (settings : TokenSettings) (token : Token) (start fin : ℚ) (pair : TokenPair) : Prop :=
  ∃ c sub, Payload token start .refresh c ∧ c.sub = some sub ∧
    Made settings ⟨sub, c.username.getD "", c.role.getD "operator"⟩ start fin pair.accessToken ∧
    Made settings ⟨sub, c.username.getD "", c.role.getD "operator"⟩ start fin pair.refreshToken

theorem ends_refreshTokens (henv : Within env start fin) (token : Token) :
    Ends env (refreshTokens site.settings token) j fun r =>
      ∀ pair, r = some pair → Renews site.settings token start fin pair := by
  unfold refreshTokens
  refine ends_bind (ends_tryDecode henv token) fun c j' hc => ?_
  cases c with
  | none => rintro pair ⟨⟩
  | some c =>
    obtain ⟨htoken, hfresh⟩ := hc c rfl
    dsimp only
    split
    · rintro pair ⟨⟩
    · rename_i htype
      have hpayload : Payload token start .refresh c := ⟨htoken, not_not.mp htype, hfresh⟩
      cases hsub : c.sub with
      | none =>
        cases c.truthyJti with
        | none => trivial
        | some jti =>
          refine ends_any fun revoked j₁ => ?_
          split
          · rintro pair ⟨⟩
          · exact ends_any fun _ _ => trivial
      | some sub =>
        have hmake : ∀ j₁, Ends env (do
            let newAccess ← createAccessToken site.settings
              ⟨sub, c.username.getD "", c.role.getD "operator"⟩
            let newRefresh ← createRefreshToken site.settings
              ⟨sub, c.username.getD "", c.role.getD "operator"⟩
            pure (some ⟨newAccess, newRefresh⟩)) j₁ fun r =>
            ∀ pair, r = some pair → Renews site.settings token start fin pair := by
          rintro j₁ pair ⟨⟩
          exact ⟨c, sub, hpayload, hsub, .access (henv _).1 (henv _).2,
            .refresh (henv _).1 (henv _).2⟩
        cases c.truthyJti with
        | none => exact hmake j'
        | some jti =>
          refine ends_any fun revoked j₁ => ?_
          split
          · rintro pair ⟨⟩
          · exact ends_any fun _ j₂ => hmake j₂

/-- What a reply says about the request. -/
def Told (site : Site) (request : Request) (row : Option User) (start fin : ℚ) : Reply → Prop
  | .loggedIn user pair => ∃ username password, request = .login username password ∧
      authenticateUser site.verifyPassword row password = some user ∧
      Made site.settings user.tokenData start fin pair.accessToken ∧
      Made site.settings user.tokenData start fin pair.refreshToken
  | .refreshed pair => ∃ token, request = .refresh (some token) ∧
      Renews site.settings token start fin pair
  | .admitted c => ∃ token, request.presented = [token] ∧ Payload token start .access c ∧
      ∀ allowed cookie, request = .requireRole allowed cookie → c.role.getD "operator" ∈ allowed
  | _ => True

variable {row : Option User}

theorem ends_login (henv : Within env start fin) (username password : String) :
    Ends env (login site row password) j (Told site (.login username password) row start fin) := by
  unfold login
  split
  · trivial
  · rename_i user huser
    refine ends_bind (ends_createTokens henv) fun pair j' hmade => ?_
    exact ⟨username, password, rfl, huser, hmade⟩

theorem ends_refresh (henv : Within env start fin) (cookie : Option Token) :
    Ends env (refresh site cookie) j (Told site (.refresh cookie) row start fin) := by
  unfold refresh
  split
  · trivial
  · rename_i token htoken
    obtain ⟨rfl, -⟩ := Option.filter_eq_some_iff.mp htoken
    refine ends_bind (ends_refreshTokens henv token) fun r j' hr => ?_
    cases r with
    | none => trivial
    | some pair => exact ⟨token, rfl, hr pair rfl⟩

theorem ends_getCurrentUser (henv : Within env start fin) (cookie : Option Token) :
    Ends env (getCurrentUser cookie) j fun r => ∀ c, r = some c →
      ∃ token, cookie = some token ∧ Payload token start .access c := by
  unfold getCurrentUser
  split
  · rintro c ⟨⟩
  · rename_i token htoken
    obtain ⟨rfl, -⟩ := Option.filter_eq_some_iff.mp htoken
    exact (ends_isTokenValid henv token).mono (fun r _ hr c hc => ⟨token, rfl, hr c hc⟩)
      fun _ _ h => h

theorem ends_requireAuth (henv : Within env start fin) (cookie : Option Token) :
    Ends env (requireAuth cookie) j (Told site (.requireAuth cookie) row start fin) := by
  unfold requireAuth
  refine ends_bind (ends_getCurrentUser henv cookie) fun r j' hr => ?_
  cases r with
  | none => trivial
  | some c =>
    obtain ⟨token, rfl, hpayload⟩ := hr c rfl
    refine ⟨token, rfl, hpayload, ?_⟩
    rintro allowed cookie ⟨⟩

theorem ends_requireRole (henv : Within env start fin) (allowed : List String)
    (cookie : Option Token) : Ends env (requireRole allowed cookie) j
      (Told site (.requireRole allowed cookie) row start fin) := by
  unfold requireRole
  have hends : Ends env (requireAuth cookie) j (Told site (.requireAuth cookie) row start fin) :=
    ends_requireAuth henv cookie
  refine ends_bind hends fun r j' hr => ?_
  cases r with
  | admitted c =>
    obtain ⟨token, hpresented, hpayload, -⟩ := hr
    dsimp only
    split
    · rename_i hrole
      refine ⟨token, hpresented, hpayload, ?_⟩
      rintro allowed' cookie' ⟨⟩
      exact hrole
    · trivial
  | loggedIn u pair =>
    obtain ⟨_, _, hlogin, -⟩ := hr
    cases hlogin
  | refreshed pair =>
    obtain ⟨_, hrefresh, -⟩ := hr
    cases hrefresh
  | loggedOut | unauthorized | forbidden => trivial

theorem ends_code (henv : Within env start fin) (request : Request) :
    Ends env (request.code site row) j (Told site request row start fin) := by
  cases request with
  | login username password => exact ends_login henv username password
  | refresh cookie => exact ends_refresh henv cookie
  | logout access refresh =>
    exact ends_any fun _ _ => ends_any fun _ _ => trivial
  | requireAuth cookie => exact ends_requireAuth henv cookie
  | requireRole allowed cookie => exact ends_requireRole henv allowed cookie

end Specs

section Runs
variable {site : Site} {xs before : List Served} {x y : Served} {u : User}

theorem told_of_reply (h : site.Serves before x) {reply : Reply} (hreply : site.reply x = some reply) :
    Told site x.request x.row x.start x.fin reply := by
  have hends : Ends x.env (x.request.code site x.row) []
      (Told site x.request x.row x.start x.fin) := ends_code h.clock x.request
  unfold Site.reply at hreply
  rcases hrun : (x.request.code site x.row).run x.env.exec [] with ⟨e | r, j'⟩
  · rw [hrun] at hreply
    cases hreply
  · rw [hrun] at hreply
    cases hreply
    exact hends.of_ok hrun

theorem Traced.mono (h : Traced site xs u y) (hsub : xs ⊆ before) : Traced site before u y := by
  induction h with
  | login hy hrequest hstart hfin hu hname hactive hpassword =>
    exact .login (hsub hy) hrequest hstart hfin hu hname hactive hpassword
  | refresh _ hz hreply hle hlt ih => exact .refresh ih (hsub hz) hreply hle hlt

/-- Who a token that has been handed out is for. -/
def Handed (site : Site) (xs : List Served) : Prop :=
  ∀ y ∈ xs, ∀ reply, site.reply y = some reply → ∀ token ∈ reply.tokens,
    ∃ u, Traced site xs u y ∧ Made site.settings u.tokenData y.start y.fin token

theorem authenticateUser_eq_some {verify : String → String → Bool} {row : Option User}
    {password : String} (h : authenticateUser verify row password = some u) :
    row = some u ∧ u.isActive = true ∧ verify password u.passwordHash = true := by
  unfold authenticateUser at h
  split at h
  · cases h
  · split at h
    · cases h
    · split at h
      · cases h
      · rename_i hactive hpassword
        cases h
        exact ⟨rfl, by simpa using hactive, by simpa using hpassword⟩

theorem traced_login (h : site.Serves before x) (hx : x ∈ xs) {username password : String}
    (hrequest : x.request = .login username password)
    (hu : authenticateUser site.verifyPassword x.row password = some u) : Traced site xs u x := by
  obtain ⟨hrow, hactive, hpassword⟩ := authenticateUser_eq_some hu
  obtain ⟨t, hstart, hfin, hselected⟩ := h.row username password hrequest
  have hfound : (site.users t).find? (·.username = username) = some u := by
    rw [← hselected, hrow]
  have hname : u.username = username := by simpa using List.find?_some hfound
  exact .login hx hrequest hstart hfin (List.mem_of_find?_eq_some hfound) hname hactive hpassword

/-- Before the end of what is left of its life, a token of this type is worth what it was made
for. -/
theorem worth_of_payload {token : Token} {c : Claims} {data : TokenData} {start fin : ℚ}
    {type : TokenType} (hmade : Made site.settings data start fin token)
    (hpayload : Payload token x.start type c) :
    c.sub = some data.sub ∧ c.username = some data.username ∧ c.role = some data.role ∧
      x.start < fin + match type with
        | .access => (site.settings.jwtAccessTokenExpireMinutes * 60 : ℚ)
        | .refresh => (site.settings.jwtRefreshTokenExpireDays * 86400 : ℚ) := by
  obtain ⟨hsigned, htype, hfresh⟩ := hpayload
  cases hmade with
  | @access now jti hstart hfin =>
    cases hsigned
    cases htype
    have hexp := hfresh _ rfl
    have hfloor := Int.floor_le (now + site.settings.jwtAccessTokenExpireMinutes * 60)
    refine ⟨rfl, rfl, rfl, lt_of_lt_of_le hexp (hfloor.trans ?_)⟩
    exact add_le_add hfin le_rfl
  | @refresh now jti hstart hfin =>
    cases hsigned
    cases htype
    have hexp := hfresh _ rfl
    have hfloor := Int.floor_le (now + site.settings.jwtRefreshTokenExpireDays * 86400)
    refine ⟨rfl, rfl, rfl, lt_of_lt_of_le hexp (hfloor.trans ?_)⟩
    exact add_le_add hfin le_rfl

/-- Who has been handed the token that a request presents. -/
theorem handed_of_presented (hxs : Handed site before) (h : site.Serves before x) {token : Token}
    {c : Claims} {type : TokenType} (htoken : token ∈ x.request.presented)
    (hpayload : Payload token x.start type c) : ∃ u, ∃ y ∈ before, Traced site before u y ∧
      y.fin ≤ x.start ∧ Made site.settings u.tokenData y.start y.fin token := by
  have hsigned : .signed c ∈ x.request.presented := hpayload.signed ▸ htoken
  obtain ⟨y, hy, hle, reply, hreply, hin⟩ := h.presents c hsigned
  obtain ⟨u, htraced, hmade⟩ := hxs y hy reply hreply _ hin
  exact ⟨u, y, hy, htraced, hle, hpayload.signed ▸ hmade⟩

theorem handed_run (h : site.Run xs) : Handed site xs := by
  induction h with
  | nil => exact fun y hy => absurd hy List.not_mem_nil
  | @snoc before x hrun hserves ih =>
    have hsub : before ⊆ before ++ [x] := List.subset_append_left _ _
    intro y hy reply hreply token htoken
    rcases List.mem_append.mp hy with hy | hy
    · obtain ⟨u, htraced, hmade⟩ := ih y hy reply hreply token htoken
      exact ⟨u, htraced.mono hsub, hmade⟩
    obtain rfl := List.mem_singleton.mp hy
    have hmem : y ∈ before ++ [y] := List.mem_append_right _ (List.mem_singleton.mpr rfl)
    have htold := told_of_reply hserves hreply
    cases reply with
    | loggedIn user pair =>
      obtain ⟨username, password, hrequest, huser, hmade⟩ := htold
      refine ⟨user, traced_login hserves hmem hrequest huser, ?_⟩
      rcases List.mem_pair.mp htoken with rfl | rfl
      · exact hmade.1
      · exact hmade.2
    | refreshed pair =>
      obtain ⟨presented, hrequest, c, sub, hpayload, hsub', hmade⟩ := htold
      have hin : presented ∈ y.request.presented := by
        rw [hrequest]
        exact List.mem_singleton.mpr rfl
      obtain ⟨u, z, -, htraced, hle, hfrom⟩ := handed_of_presented ih hserves hin hpayload
      obtain ⟨hid, hname, hrole, hlt⟩ := worth_of_payload hfrom hpayload
      have hdata : (⟨sub, c.username.getD "", c.role.getD "operator"⟩ : TokenData) =
          u.tokenData := by
        rw [hname, hrole, Option.getD_some, Option.getD_some]
        rw [hsub'] at hid
        cases hid
        rfl
      rw [hdata] at hmade
      refine ⟨u, .refresh (htraced.mono hsub) hmem hreply hle hlt, ?_⟩
      rcases List.mem_pair.mp htoken with rfl | rfl
      · exact hmade.1
      · exact hmade.2
    | loggedOut | admitted | unauthorized | forbidden => cases htoken

/-- Whatever Redis answers and whatever becomes of the users, a request is admitted only with the
id, the name and the role that an active user had when this session began with their password. No
renewal came later than a refresh token lives, and the request comes no later than an access token
lives. -/
theorem admitted_since_login (h : site.Run xs) (hx : x ∈ xs) {c : Claims}
    (hreply : site.reply x = some (.admitted c)) : ∃ u y, Traced site xs u y ∧ y.fin ≤ x.start ∧
      x.start < y.fin + site.settings.jwtAccessTokenExpireMinutes * 60 ∧
      c.sub = some (toString u.id) ∧ c.username = some u.username ∧ c.role = some u.role ∧
      ∀ allowed cookie, x.request = .requireRole allowed cookie → u.role ∈ allowed := by
  induction h with
  | nil => cases hx
  | @snoc before z hrun hserves ih =>
    have hsub : before ⊆ before ++ [z] := List.subset_append_left _ _
    rcases List.mem_append.mp hx with hx | hx
    · obtain ⟨u, y, htraced, hrest⟩ := ih hx
      exact ⟨u, y, htraced.mono hsub, hrest⟩
    obtain rfl := List.mem_singleton.mp hx
    obtain ⟨token, hpresented, hpayload, hallowed⟩ := told_of_reply hserves hreply
    have hin : token ∈ x.request.presented := hpresented ▸ List.mem_singleton.mpr rfl
    obtain ⟨u, y, -, htraced, hle, hmade⟩ :=
      handed_of_presented (handed_run hrun) hserves hin hpayload
    obtain ⟨hid, hname, hrole, hlt⟩ := worth_of_payload hmade hpayload
    refine ⟨u, y, htraced.mono hsub, hle, hlt, hid, hname, hrole, fun allowed cookie hrequest => ?_⟩
    have hin := hallowed allowed cookie hrequest
    rwa [hrole, Option.getD_some] at hin

def clockAt (now : ℚ) : Answers AuthOp AuthOp.Ans
  | _, .now => now
  | _, .uuid => "a"
  | _, .get _ => none
  | _, .set _ _ _ => ()

def admin : User := { id := 7, username := "admin", passwordHash := "secret", role := "admin" }

/-- There is one user, and only at first. -/
def deserted : Site where
  verifyPassword password hash := password == hash
  users t := if t ≤ 0 then [admin] else []

def adminLogin : Served where
  request := .login "admin" "secret"
  row := some admin
  start := 0
  fin := 0
  env := clockAt 0

def adminTask : Served where
  request := requireAdmin (some (encode admin.tokenData 1800 .access "a"))
  start := 10
  fin := 10
  env := clockAt 10

/-- The request of a user who is gone is admitted. -/
theorem admitted_since_login_deserted :
    deserted.reply adminTask =
      some (.admitted ⟨some "7", some "admin", some "admin", some 1800, some .access, some "a"⟩) ∧
    ∃ u y, Traced deserted [adminLogin, adminTask] u y ∧ y.fin ≤ adminTask.start ∧
      adminTask.start < y.fin + deserted.settings.jwtAccessTokenExpireMinutes * 60 ∧
      some "7" = some (toString u.id) ∧ some "admin" = some u.username ∧
      some "admin" = some u.role ∧
      ∀ allowed cookie, adminTask.request = .requireRole allowed cookie → u.role ∈ allowed := by
  have hlogin : deserted.Serves [] adminLogin := by
    refine ⟨fun j => ⟨le_refl _, le_refl _⟩, ?_, by rintro c ⟨⟩⟩
    rintro username password ⟨⟩
    exact ⟨0, le_refl _, le_refl _, by decide +kernel⟩
  have htask : deserted.Serves [adminLogin] adminTask := by
    refine ⟨fun j => ⟨le_refl _, le_refl _⟩, by rintro username password ⟨⟩, fun c hc => ?_⟩
    refine ⟨adminLogin, List.mem_singleton.mpr rfl, by decide +kernel, ?_⟩
    refine ⟨.loggedIn admin ⟨encode admin.tokenData 1800 .access "a",
      encode admin.tokenData 604800 .refresh "a"⟩, by decide +kernel, ?_⟩
    rw [List.mem_singleton.mp hc]
    exact List.mem_cons_self
  have hreply : deserted.reply adminTask = some (.admitted
      ⟨some "7", some "admin", some "admin", some 1800, some .access, some "a"⟩) := by
    decide +kernel
  exact ⟨hreply, admitted_since_login ((Site.Run.nil.snoc hlogin).snoc htask) (by simp) hreply⟩

end Runs
end ParkIt.Auth
