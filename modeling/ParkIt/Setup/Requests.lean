import ParkIt.Setup.Service

/-! What the requests of the wizard do, one after the other. -/
namespace ParkIt.Setup

open Effects Sessions

section Follows
variable {settings : SetupSettings} {g : Note}

/-- The operations that any call may issue at any point. -/
def Free : SetupOp → Prop
  | .insertSession _ _ | .insertUser _ | .currentRole | .runScript _ | .endpoint _ => False
  | .writeComplete _ value => value = "true"
  | _ => True

/-- The operations of a lookup of a session. -/
def Lookup : SetupOp → Prop
  | .selectSession _ | .time | .deleteSession _ => True
  | _ => False

theorem lookup_free {o : SetupOp} (h : Lookup o) : Free o := by
  cases o with
  | selectSession _ | time | deleteSession _ => exact trivial
  | _ => exact h.elim

theorem free_rule {o : SetupOp} (h : Free o) : setupRules.allow g o := by
  cases o with
  | insertSession _ _ | insertUser _ | currentRole | runScript _ | endpoint _ => exact h.elim
  | writeComplete _ _ => exact h
  | _ => exact trivial

theorem follows_free {α : Type} {p : Work α} (h : Only Free (fun _ => True) p) :
    Follows setupRules g p (fun g' _ => g'.call = g.call) fun g' _ => g'.call = g.call := by
  have hrel : Follows setupRules g p (fun g' _ => g'.call = g.call)
      fun g' _ => g'.call = g.call ∧ True := by
    refine h.follows_rel (R := fun (g g' : Note) => g'.call = g.call) (fun _ => rfl) ?_ ?_
    · exact fun _ _ _ hab hbc => hbc.trans hab
    · exact fun g o ho => ⟨free_rule ho, fun _ => rfl⟩
  exact hrel.mono (fun _ _ h => h) fun _ _ h => h.1

theorem follows_ask {β : Type} {o : SetupOp} {f : o.Ans → Work β} {post : Note → β → Prop}
    {err : Note → SetupExc → Prop} (h : setupRules.allow g o)
    (hf : ∀ a, Follows setupRules (setupRules.next g o a) (f a) post err) :
    Follows setupRules g (ask o >>= f) post err := ⟨h, fun a _ => hf a⟩

theorem only_getSessionByToken (token : String) :
    Only Lookup (fun _ => True) (getSessionByToken token) := by
  refine ⟨trivial, fun session => ?_⟩
  cases session with
  | none => exact trivial
  | some session =>
    refine ⟨trivial, fun now => ?_⟩
    change Only _ _ (if session.expiresAt < now then _ else _)
    split
    · exact ⟨trivial, fun _ => trivial⟩
    · exact trivial

theorem only_cookieSession (cookie : Option String) :
    Only Lookup (fun _ => True) (cookieSession cookie) := by
  cases cookie with
  | none => exact trivial
  | some cookie =>
    change Only _ _ (if cookie = "" then pure none else getSessionByToken cookie)
    split
    · exact trivial
    · exact only_getSessionByToken cookie

theorem free_cookieSession (cookie : Option String) :
    Only Free (fun _ => True) (cookieSession cookie) :=
  (only_cookieSession cookie).mono (fun _ => lookup_free) fun _ h => h

theorem admitted_next {p : Phase} {presented : Option String} {o : SetupOp} {a : o.Ans}
    (ho : Lookup o) (hp : p.Admitted) : (p.next presented o a).Admitted := by
  unfold Phase.next
  split <;> first
    | exact hp
    | exact ho.elim
    | exact hp.elim
    | trivial
    | (split <;> first | exact hp.elim | trivial)

/-- A call that has been let through can look for its session again. -/
theorem follows_cookieSession_admitted (cookie : Option String) (hg : g.phase.Admitted) :
    Follows setupRules g (cookieSession cookie) (fun g' _ => g'.phase.Admitted)
      fun _ _ => True := by
  have hrel : Follows setupRules g (cookieSession cookie)
      (fun g' _ => g.phase.Admitted → g'.phase.Admitted)
      fun g' _ => (g.phase.Admitted → g'.phase.Admitted) ∧ True := by
    refine (only_cookieSession cookie).follows_rel
      (R := fun (g g' : Note) => g.phase.Admitted → g'.phase.Admitted) (fun _ h => h)
      (fun _ _ _ hab hbc h => hbc (hab h)) ?_
    exact fun g o ho => ⟨free_rule (lookup_free ho), fun _ => admitted_next ho⟩
  exact hrel.mono (fun _ _ h => h hg) fun _ _ _ => trivial

/-- The lookup of a session by a call that has done nothing before. -/
theorem follows_cookieSession {call : Call} (cookie : Option String) :
    Follows setupRules { call } (cookieSession cookie)
      (fun g' r => g'.call = call ∧ g'.phase = (r.map Phase.live).getD .begun) fun _ _ => True := by
  cases cookie with
  | none => exact ⟨rfl, rfl⟩
  | some cookie =>
    change Follows _ _ (if cookie = "" then pure none else getSessionByToken cookie) _ _
    split
    · exact ⟨rfl, rfl⟩
    · unfold getSessionByToken
      refine follows_ask (o := .selectSession cookie) trivial fun session => ?_
      cases session with
      | none => exact ⟨rfl, rfl⟩
      | some session =>
        refine follows_ask (o := .time) trivial fun now => ?_
        have hphase : (Phase.found session).next call.presented .time now =
            if session.expiresAt < now then .begun else .live session := rfl
        by_cases hexpired : session.expiresAt < now
        · rw [if_pos hexpired] at hphase ⊢
          refine ⟨trivial, fun _ _ => ⟨rfl, ?_⟩⟩
          exact congrArg (fun p => p.next call.presented (.deleteSession session.id) ()) hphase
        · rw [if_neg hexpired] at hphase ⊢
          exact ⟨rfl, hphase⟩

/-- Whom the guard lets through has a session, or an admin's JWT. -/
theorem follows_requireSetupOrAdmin {call : Call} (cookie : Option String)
    (hg : call.guarded = true) :
    Follows setupRules { call } (requireSetupOrAdmin cookie) (fun g' _ => g'.phase = .passed)
      fun _ _ => True := by
  unfold requireSetupOrAdmin
  refine (follows_cookieSession cookie).bind (fun _ _ _ => trivial) ?_
  rintro ⟨call', phase⟩ session ⟨rfl, rfl⟩
  refine follows_ask (o := .currentRole) hg fun role => ?_
  cases session with
  | some session => exact rfl
  | none =>
    by_cases hadmin : role = some "admin"
    · subst hadmin
      exact rfl
    · have hrefused : ((none : Option SetupSession).isNone && role != some "admin") = true := by
        simpa using hadmin
      rw [if_pos hrefused]
      exact trivial

/-- What holds of a token that has been read, if it is the one that is presented. -/
theorem follows_readSetupToken {token : String} :
    Follows setupRules { call := .redeemToken token } readSetupToken
      (fun g' r => g'.call = .redeemToken token ∧ (r = some token → g'.phase = .holding))
      fun _ _ => True := by
  unfold readSetupToken
  refine follows_ask (o := .tokenExists) trivial fun there => ?_
  split
  · exact ⟨rfl, nofun⟩
  refine follows_ask (o := .tokenStat) trivial fun mtime => ?_
  cases mtime with
  | none => exact ⟨rfl, nofun⟩
  | some mtime =>
    refine follows_ask (o := .time) trivial fun now => ?_
    split
    · exact follows_ask (o := .unlinkToken) trivial fun _ => ⟨rfl, nofun⟩
    · refine follows_ask (o := .tokenText) trivial fun text => ?_
      cases text with
      | none => exact ⟨rfl, nofun⟩
      | some text =>
        refine ⟨rfl, fun hr => ?_⟩
        have htoken : some token = some (tokenOf text) := by
          split at hr
          · cases hr
          · exact hr.symm
        exact if_pos htoken

theorem follows_redeemToken (token : String) :
    Follows setupRules { call := .redeemToken token } (redeemToken settings token)
      (fun _ _ => True) fun _ _ => True := by
  refine follows_readSetupToken.bind (fun _ _ _ => trivial) ?_
  rintro ⟨call, phase⟩ diskToken ⟨hcall, hphase⟩
  cases diskToken with
  | none => exact trivial
  | some diskToken =>
    dsimp only
    split
    · exact trivial
    · rename_i hsame
      cases hphase (congrArg some (not_not.mp hsame))
      refine follows_ask (o := .unlinkToken) trivial fun _ => ?_
      refine follows_ask (o := .randomToken) trivial fun fresh => ?_
      refine follows_ask (o := .time) trivial fun now => ?_
      exact follows_ask (o := .insertSession _ _) rfl fun _ => trivial

theorem follows_createAdmin (cookie : Option String) (body : CreateAdminRequest) :
    Follows setupRules { call := .createAdmin cookie body } (createAdmin settings cookie body)
      (fun _ _ => True) fun _ _ => True := by
  refine (follows_cookieSession cookie).bind (fun _ _ _ => trivial) ?_
  rintro ⟨call, phase⟩ session ⟨rfl, rfl⟩
  cases session with
  | none => exact trivial
  | some session =>
    unfold hasAnyAdmin
    refine follows_ask (o := .countAdmins) trivial fun (n : Nat) => ?_
    change Follows _ _ (if decide (n > 0) = true then _ else _) _ _
    split
    · exact trivial
    · rename_i hn
      refine follows_ask (o := .insertUser _) ?_ fun _ => ?_
      · have hzero : n = 0 := by simpa using hn
        exact if_pos hzero
      · exact follows_ask (o := .createTokens) trivial fun _ => trivial

theorem only_markSetupComplete : Only Free (fun _ => True) markSetupComplete :=
  ⟨trivial, fun _ => ⟨rfl, fun _ => trivial⟩⟩

theorem follows_finalize (cookie : Option String) :
    Follows setupRules { call := .finalize cookie } (finalize settings cookie)
      (fun _ _ => True) fun _ _ => True := by
  refine (follows_requireSetupOrAdmin cookie rfl).bind (fun _ _ _ => trivial) ?_
  intro g _ hpassed
  have hadmitted : g.phase.Admitted := by rw [hpassed]; trivial
  refine (follows_cookieSession_admitted cookie hadmitted).bind (fun _ _ _ => trivial) ?_
  intro g session hadmitted
  refine follows_ask (o := .runScript _) hadmitted fun ok => ?_
  refine (follows_free ?_).mono (fun _ _ _ => trivial) fun _ _ _ => trivial
  split
  · exact trivial
  · refine only_markSetupComplete.bind fun _ => ⟨trivial, fun _ => ?_⟩
    cases session with
    | none => exact trivial
    | some session => exact ⟨trivial, fun _ => trivial⟩

/-- Every call keeps to the rules. -/
theorem follows_code (c : Call) :
    Follows setupRules { call := c } (c.code settings) (fun _ _ => True) fun _ _ => True := by
  have hfree : ∀ {g : Note} {p : Work Answer}, Only Free (fun _ => True) p →
      Follows setupRules g p (fun _ _ => True) fun _ _ => True :=
    fun h => (follows_free h).mono (fun _ _ _ => trivial) fun _ _ _ => trivial
  cases c with
  | redeemToken token => exact follows_redeemToken token
  | createAdmin cookie body => exact follows_createAdmin cookie body
  | getState cookie =>
    refine hfree ⟨trivial, fun value => ?_⟩
    cases value <;>
      exact ⟨trivial, fun _ => ⟨trivial, fun _ => (free_cookieSession cookie).bind fun _ => trivial⟩⟩
  | saveState cookie step data =>
    refine hfree ((free_cookieSession cookie).bind fun session => ?_)
    cases session with
    | none => exact trivial
    | some session => exact ⟨trivial, fun _ => trivial⟩
  | readSession cookie =>
    refine hfree ((free_cookieSession cookie).bind fun session => ?_)
    cases session <;> exact trivial
  | wizard e cookie =>
    refine (follows_requireSetupOrAdmin cookie rfl).bind (fun _ _ _ => trivial) ?_
    intro g _ hpassed
    have hadmitted : g.phase.Admitted := by rw [hpassed]; trivial
    exact follows_ask (o := .endpoint e) hadmitted fun _ => trivial
  | finalize cookie => exact follows_finalize cookie

end Follows
end ParkIt.Setup
