import ParkIt.Setup.Requests
import Mathlib.Data.Fintype.Basic

/-! Who gets authority from the wizard, as long as its requests keep out of each other's way. -/
namespace ParkIt.Setup

open Effects Sessions Transition

/-- The call may still make a session of the installer's token. -/
def Phase.Claims (p : Phase) : Prop := p = .holding ∨ p = .dropped

/-- The guard has found a session and has not decided yet. -/
def Phase.Looking : Phase → Prop
  | .found _ | .live _ => True
  | _ => False

/-- `finalize` has set the flag. -/
def Finalized (d : Stores) : Prop := d.complete = some "true"

instance (d : Stores) : Decidable (Finalized d) := inferInstanceAs (Decidable (_ = _))

section Phases
variable {presented : Option String} {p : Phase} {o : SetupOp} {a : o.Ans} {r : SetupSession}

theorem holding_next (h : p.next presented o a = .holding) :
    p = .holding ∨ p = .begun ∧ ∃ text, (⟨o, a⟩ : (o : SetupOp) × o.Ans) = ⟨.tokenText, some text⟩ := by
  unfold Phase.next at h
  split at h <;> first
    | exact Or.inl h
    | (split at h <;> first | exact Or.inr ⟨rfl, _, rfl⟩ | cases h)
    | cases h

theorem dropped_next (h : p.next presented o a = .dropped) :
    p = .dropped ∨ p = .holding ∧ o = .unlinkToken := by
  unfold Phase.next at h
  split at h <;> first
    | exact Or.inl h
    | exact Or.inr ⟨rfl, rfl⟩
    | (split at h <;> cases h)
    | cases h

theorem vacant_next (h : p.next presented o a = .vacant) :
    p = .vacant ∨ (⟨o, a⟩ : (o : SetupOp) × o.Ans) = ⟨.countAdmins, 0⟩ := by
  unfold Phase.next at h
  split at h <;> first
    | exact Or.inl h
    | (split at h <;> first
        | (cases h; done)
        | (rename_i hn; exact Or.inr (by rw [hn])))
    | cases h

theorem found_next (h : p.next presented o a = .found r) :
    p = .found r ∨ p = .begun ∧ ∃ token,
      (⟨o, a⟩ : (o : SetupOp) × o.Ans) = ⟨.selectSession token, some r⟩ := by
  unfold Phase.next at h
  split at h <;> first
    | exact Or.inl h
    | (cases h; exact Or.inr ⟨rfl, _, rfl⟩)
    | (split at h <;> cases h)
    | cases h

theorem live_next (h : p.next presented o a = .live r) :
    p = .live r ∨ p = .found r ∧ ∃ now : Int, ¬ r.expiresAt < now ∧
      (⟨o, a⟩ : (o : SetupOp) × o.Ans) = ⟨.time, now⟩ := by
  unfold Phase.next at h
  split at h <;> first
    | exact Or.inl h
    | (split at h <;> first
        | (cases h; exact Or.inl rfl)
        | (cases h; exact Or.inr ⟨rfl, _, ‹_›, rfl⟩)
        | cases h)
    | cases h

theorem looking_next {fresh : Bool} {value : String}
    (h : (p.next presented (.writeComplete fresh value) ()).Looking) : p.Looking := by
  cases hp : p.next presented (.writeComplete fresh value) () with
  | found r =>
    rcases found_next hp with hp | ⟨-, token, hoa⟩
    · rw [hp]
      trivial
    · exact nomatch congrArg Sigma.fst hoa
  | live r =>
    rcases live_next hp with hp | ⟨-, now, -, hoa⟩
    · rw [hp]
      trivial
    · exact nomatch congrArg Sigma.fst hoa
  | _ =>
    rw [hp] at h
    exact h.elim

end Phases

section Stores
variable {o : SetupOp} {d d' : Stores} {a : o.Ans}

theorem acts_clock (h : Acts o d a d') : d'.clock = d.clock := by
  cases h <;> rfl

/-- Nobody writes the token file. -/
theorem acts_file (h : Acts o d a d') : d'.tokenFile = d.tokenFile ∨ d'.tokenFile = none := by
  cases h with
  | unlinkToken => exact Or.inr rfl
  | _ => exact Or.inl rfl

theorem acts_nextSession (h : Acts o d a d') : d'.nextSession = d.nextSession ∨
    (∃ token expiresAt, o = .insertSession token expiresAt) ∧
      d'.nextSession = d.nextSession + 1 ∧ d'.tokenFile = d.tokenFile := by
  cases h with
  | insertSession => exact Or.inr ⟨⟨_, _, rfl⟩, rfl, rfl⟩
  | _ => exact Or.inl rfl

theorem acts_admins (h : Acts o d a d') : d'.admins = d.admins ∨
    (∃ user, o = .insertUser user) ∧ d.admins ≤ d'.admins ∧ d'.admins ≤ d.admins + 1 := by
  cases h with
  | @insertUser _ user _ =>
    refine Or.inr ⟨⟨_, rfl⟩, ?_⟩
    have hone : [user].countP (·.role = "admin") ≤ 1 := List.countP_le_length
    simp only [Stores.admins, List.countP_append]
    omega
  | _ => exact Or.inl rfl

/-- The token and the expiry of a session are those of its creation. -/
theorem acts_sessions (h : Acts o d a d') : (∃ token expiresAt, o = .insertSession token expiresAt) ∨
    ∀ r' ∈ d'.sessions, ∃ r ∈ d.sessions, r.sessionToken = r'.sessionToken ∧
      r.expiresAt = r'.expiresAt := by
  cases h with
  | insertSession => exact Or.inl ⟨_, _, rfl⟩
  | deleteSession => exact Or.inr fun r hr => ⟨r, List.mem_of_mem_filter hr, rfl, rfl⟩
  | saveStep =>
    refine Or.inr fun r' hr' => ?_
    obtain ⟨r, hr, rfl⟩ := List.mem_map.mp hr'
    refine ⟨r, hr, ?_⟩
    split <;> exact ⟨rfl, rfl⟩
  | _ => exact Or.inr fun r hr => ⟨r, hr, rfl, rfl⟩

theorem acts_complete (h : Acts o d a d') : d'.complete = d.complete ∨
    (∃ fresh value, o = .writeComplete fresh value) ∧ d'.sessions = d.sessions := by
  cases h with
  | @writeComplete _ fresh value _ => exact Or.inr ⟨⟨fresh, value, rfl⟩, rfl⟩
  | _ => exact Or.inl rfl

theorem acts_tokenText {text : String} (h : Acts .tokenText d (some text) d') :
    d.tokenFile ≠ none := by
  cases h with
  | tokenText hfile =>
    obtain ⟨f, hf, -⟩ := hfile text rfl
    intro hnone
    exact nomatch hnone.symm.trans hf

theorem acts_countAdmins {n : Nat} (h : Acts .countAdmins d n d') : n = d.admins ∧ d' = d := by
  cases h
  exact ⟨rfl, rfl⟩

theorem acts_time {now : Int} (h : Acts .time d now d') : now = d.clock := by
  cases h
  rfl

theorem acts_selectSession {token : String} {found : Option SetupSession}
    (h : Acts (.selectSession token) d found d') :
    ∀ r ∈ found, r ∈ d.sessions ∧ r.sessionToken = token := by
  cases h
  intro r hr
  have hsome : d.sessions.find? (fun r => decide (r.sessionToken = token)) = some r := hr
  exact ⟨List.mem_of_find?_eq_some hsome, by simpa using List.find?_some hsome⟩

end Stores

section Runs
variable {ι : Type} [DecidableEq ι] {settings : SetupSettings} {s t : SetupSys ι}
  {l : Label ι SetupOp} {j k : ι}
  {x y : Session SetupOp SetupOp.Ans SetupExc Answer Unit Note}

/-- A request does not come between what another one has read and what it does next. -/
def Orderly (s : SetupSys ι) (l : Label ι SetupOp) (t : SetupSys ι) : Prop :=
  match l with
  | .go j .tokenText => ∀ y ∈ t.session j, y.note.phase = .holding →
      (∀ k, ∀ x ∈ s.session k, x.note.phase ≠ .holding) ∧ ¬ Finalized s.shared
  | .go j .unlinkToken => ∀ y ∈ t.session j, y.note.phase = .dropped → t.shared.tokenFile = none
  | .go j .countAdmins => ∀ y ∈ t.session j, y.note.phase = .vacant →
      ∀ k, ∀ x ∈ s.session k, x.note.phase ≠ .vacant
  | .go j (.writeComplete _ _) => ¬ Finalized s.shared → Finalized t.shared →
      (∀ k, ∀ x ∈ s.session k, ¬ x.note.phase.Claims ∧
        (x.note.call.guarded = true → ¬ x.note.phase.Looking)) ∧
      ∀ r ∈ s.shared.sessions, s.shared.clock ≤ r.expiresAt → ∃ x ∈ s.session j,
        x.note.phase.session.map (·.sessionToken) = some r.sessionToken
  | .go j (.selectSession token) => ∀ x ∈ s.session j, x.note.call.guarded = true →
      x.note.phase = .begun → Finalized s.shared → .completed (some token) ∈ s.log →
      ∀ r ∈ s.shared.sessions, r.sessionToken ≠ token
  | _ => True

/-- Where a session in some phase comes from. -/
theorem phase_back (h : Step (setupCalls settings) s l t) (hy : t.session k = some y) :
    s.session k = some y ∨ y.note.phase = .begun ∨
    ∃ o a x, l = .go k o ∧ Took (setupCalls settings) s t k o a x y ∧
      y.note.call = x.note.call ∧ y.note.phase = x.note.phase.next x.note.call.presented o a := by
  rcases session_back h hy with hback | ⟨-, -, hstart⟩ | ⟨o, a, x, hl, htook⟩
  · exact Or.inl hback
  · obtain ⟨c, -, hnote⟩ := hstart
    exact Or.inr (Or.inl (by rw [hnote]))
  · exact Or.inr (Or.inr ⟨o, a, x, hl, htook, by rw [htook.note]; rfl, by rw [htook.note]; rfl⟩)

/-- What a step does to the stores. -/
theorem store_step (h : Step (setupCalls settings) s l t) :
    (∃ now, s.shared.clock ≤ now ∧ t.shared = { s.shared with clock := now }) ∨
    ∃ j o x a, l = .go j o ∧ s.session j = some x ∧ (∃ k, x.rest = .call o k) ∧
      Acts o s.shared a t.shared ∧ ∀ y, t.session j = some y →
        y.note = { x.note with phase := x.note.phase.next x.note.call.presented o a } := by
  cases h with
  | start _ _ | stop _ => exact Or.inl ⟨s.shared.clock, le_refl _, rfl⟩
  | @go j o k own note a sh own' hj hact =>
    refine Or.inr ⟨j, o, _, a, rfl, hj, ⟨k, rfl⟩, hact, fun y hy => ?_⟩
    rw [session_set_self] at hy
    cases hy
    rfl
  | @fail j o k own note sh hj hfails =>
    cases hfails with
    | unreached => exact Or.inl ⟨s.shared.clock, le_refl _, rfl⟩
    | @lost a _ hact =>
      refine Or.inr ⟨j, o, _, a, rfl, hj, ⟨k, rfl⟩, hact, fun y hy => ?_⟩
      exact absurd rfl (session_set_none hy).1
  | during _ hduring => exact hduring.elim
  | outside hsh => exact Or.inl hsh

omit [DecidableEq ι] in
theorem asks_allow (hs : InProtocol (setupCalls settings) s) {o : SetupOp}
    (hx : s.session j = some x) (hrest : ∃ k, x.rest = .call o k) : setupRules.allow x.note o := by
  obtain ⟨k, hrest⟩ := hrest
  have hfollows := hs j x hx
  rw [hrest] at hfollows
  exact hfollows.1

theorem log_go {o : SetupOp} (h : Step (setupCalls settings) s (.go j o) t)
    (hx : s.session j = some x) : ∃ ra, t.log = s.log ++ x.note.record o ra := by
  cases h with
  | go hj _ =>
    cases hx.symm.trans hj
    exact ⟨some _, rfl⟩
  | fail hj _ =>
    cases hx.symm.trans hj
    exact ⟨none, rfl⟩
  | during _ hduring => exact hduring.elim

theorem clock_step (h : Step (setupCalls settings) s l t) : s.shared.clock ≤ t.shared.clock := by
  rcases store_step h with ⟨now, hle, hsh⟩ | ⟨_, _, _, _, -, -, -, hact, -⟩
  · rw [hsh]
    exact hle
  · exact (acts_clock hact).ge

theorem file_step (h : Step (setupCalls settings) s l t) :
    t.shared.tokenFile = s.shared.tokenFile ∨ t.shared.tokenFile = none := by
  rcases store_step h with ⟨now, -, hsh⟩ | ⟨_, _, _, _, -, -, -, hact, -⟩
  · exact Or.inl (by rw [hsh])
  · exact acts_file hact

/-- A call gets its claim from the token file, which is still there then. -/
theorem claims_back (h : Step (setupCalls settings) s l t) (hy : t.session k = some y)
    (hclaims : y.note.phase.Claims) :
    (∃ x, s.session k = some x ∧ x.note.phase.Claims) ∨
    l = .go k .tokenText ∧ y.note.phase = .holding ∧ s.shared.tokenFile ≠ none := by
  rcases phase_back h hy with hback | hbegun | ⟨o, a, x, rfl, htook, -, hnext⟩
  · exact Or.inl ⟨y, hback, hclaims⟩
  · rw [hbegun] at hclaims
    exact hclaims.elim nofun nofun
  · rcases hclaims with hholding | hdropped
    · rcases holding_next (hnext.symm.trans hholding) with hp | ⟨-, text, hoa⟩
      · exact Or.inl ⟨x, htook.before, Or.inl hp⟩
      · cases hoa
        exact Or.inr ⟨rfl, hholding, acts_tokenText htook.act⟩
    · rcases dropped_next (hnext.symm.trans hdropped) with hp | ⟨hp, -⟩
      · exact Or.inl ⟨x, htook.before, Or.inr hp⟩
      · exact Or.inl ⟨x, htook.before, Or.inl hp⟩

/-- At most one session has been made since the sequence was at `base`. -/
structure OneSession (base : Id) (s : SetupSys ι) : Prop where
  unique : ∀ j k x y, s.session j = some x → s.session k = some y → x.note.phase.Claims →
    y.note.phase.Claims → j = k
  gone : ∀ j x, s.session j = some x → x.note.phase = .dropped → s.shared.tokenFile = none
  spent : s.shared.nextSession = base ∨ s.shared.nextSession = base + 1 ∧
    s.shared.tokenFile = none ∧ ∀ j x, s.session j = some x → ¬ x.note.phase.Claims

omit [DecidableEq ι] in
theorem oneSession_start (h : s.Quiet) : OneSession s.shared.nextSession s where
  unique j k x y hx _ _ _ := by simp [h.1 j] at hx
  gone j x hx _ := by simp [h.1 j] at hx
  spent := Or.inl rfl

omit [DecidableEq ι] in
theorem OneSession.nextSession_le {base : Id} (h : OneSession base s) :
    s.shared.nextSession ≤ base + 1 := by
  rcases h.spent with hbase | ⟨hbase, -, -⟩
  · rw [hbase]
    exact Int.le_add_one (le_refl _)
  · exact hbase.le

theorem oneSession_step {base : Id} (hp : InProtocol (setupCalls settings) s)
    (h : Step (setupCalls settings) s l t) (horder : Orderly s l t) (hs : OneSession base s) :
    OneSession base t := by
  have hnew : ∀ k y, t.session k = some y → l = .go k .tokenText → y.note.phase = .holding →
      s.shared.tokenFile ≠ none → ∀ j x, s.session j = some x → ¬ x.note.phase.Claims := by
    rintro k y hy rfl hholding hfile j x hx (hx' | hx')
    · exact (horder y hy hholding).1 j x hx hx'
    · exact hfile (hs.gone j x hx hx')
  have hnone : s.shared.tokenFile = none → t.shared.tokenFile = none := by
    intro hnone
    rcases file_step h with hfile | hfile
    · exact hfile.trans hnone
    · exact hfile
  refine ⟨fun j k x y hx hy hxc hyc => ?_, fun k y hy hdropped => ?_, ?_⟩
  · rcases claims_back h hx hxc with ⟨x', hx', hxc'⟩ | ⟨hl, hholding, hfile⟩
    · rcases claims_back h hy hyc with ⟨y', hy', hyc'⟩ | ⟨hl, hholding, hfile⟩
      · exact hs.unique j k x' y' hx' hy' hxc' hyc'
      · exact absurd hxc' (hnew k y hy hl hholding hfile j x' hx')
    · rcases claims_back h hy hyc with ⟨y', hy', hyc'⟩ | ⟨hl', -, -⟩
      · exact absurd hyc' (hnew j x hx hl hholding hfile k y' hy')
      · cases hl.symm.trans hl'
        rfl
  · rcases phase_back h hy with hback | hbegun | ⟨o, a, x, rfl, htook, -, hnext⟩
    · exact hnone (hs.gone k y hback hdropped)
    · exact nomatch hbegun.symm.trans hdropped
    · rcases dropped_next (hnext.symm.trans hdropped) with hx | ⟨-, rfl⟩
      · exact hnone (hs.gone k x htook.before hx)
      · exact horder y hy hdropped
  · have hkeep : t.shared.nextSession = s.shared.nextSession →
        t.shared.nextSession = base ∨ t.shared.nextSession = base + 1 ∧
          t.shared.tokenFile = none ∧ ∀ j x, t.session j = some x → ¬ x.note.phase.Claims := by
      intro hnext
      rcases hs.spent with hbase | ⟨hbase, hfile, hidle⟩
      · exact Or.inl (hnext.trans hbase)
      · refine Or.inr ⟨hnext.trans hbase, hnone hfile, fun k y hy hyc => ?_⟩
        rcases claims_back h hy hyc with ⟨x, hx, hxc⟩ | ⟨-, -, hthere⟩
        · exact hidle k x hx hxc
        · exact hthere hfile
    rcases store_step h with ⟨now, -, hsh⟩ | ⟨j, o, x, a, rfl, hx, hrest, hact, hnote⟩
    · exact hkeep (by rw [hsh])
    · rcases acts_nextSession hact with hnext | ⟨⟨token, expiresAt, rfl⟩, hnext, hfile⟩
      · exact hkeep hnext
      · have hdropped : x.note.phase = .dropped := asks_allow hp hx hrest
        have hbase : s.shared.nextSession = base := by
          rcases hs.spent with hbase | ⟨-, -, hidle⟩
          · exact hbase
          · exact absurd (Or.inr hdropped) (hidle j x hx)
        refine Or.inr ⟨by rw [hnext, hbase], hfile.trans (hs.gone j x hx hdropped), ?_⟩
        intro k y hy hyc
        -- the call that has made the session was the only one with a claim, and has none left
        rcases claims_back h hy hyc with ⟨y', hy', hyc'⟩ | ⟨hl, -, -⟩
        · obtain rfl := hs.unique j k x y' hx hy' (Or.inr hdropped) hyc'
          rw [hnote y hy, hdropped] at hyc
          exact hyc.elim nofun nofun
        · exact nomatch hl

theorem vacant_back (h : Step (setupCalls settings) s l t) (hy : t.session k = some y)
    (hvacant : y.note.phase = .vacant) :
    (∃ x, s.session k = some x ∧ x.note.phase = .vacant) ∨
    l = .go k .countAdmins ∧ s.shared.admins = 0 ∧ t.shared = s.shared := by
  rcases phase_back h hy with hback | hbegun | ⟨o, a, x, rfl, htook, -, hnext⟩
  · exact Or.inl ⟨y, hback, hvacant⟩
  · exact nomatch hbegun.symm.trans hvacant
  · rcases vacant_next (hnext.symm.trans hvacant) with hx | hoa
    · exact Or.inl ⟨x, htook.before, hx⟩
    · cases hoa
      obtain ⟨hzero, hsh⟩ := acts_countAdmins htook.act
      exact Or.inr ⟨rfl, hzero.symm, hsh⟩

/-- At most one admin more than `base`. -/
structure OneAdmin (base : Nat) (s : SetupSys ι) : Prop where
  unique : ∀ j k x y, s.session j = some x → s.session k = some y → x.note.phase = .vacant →
    y.note.phase = .vacant → j = k
  zero : ∀ j x, s.session j = some x → x.note.phase = .vacant → s.shared.admins = 0
  bound : s.shared.admins ≤ base + 1

omit [DecidableEq ι] in
theorem oneAdmin_start (h : s.Quiet) : OneAdmin s.shared.admins s where
  unique j k x y hx _ _ _ := by simp [h.1 j] at hx
  zero j x hx _ := by simp [h.1 j] at hx
  bound := Nat.le_add_right _ 1

theorem oneAdmin_step {base : Nat} (hp : InProtocol (setupCalls settings) s)
    (h : Step (setupCalls settings) s l t) (horder : Orderly s l t) (hs : OneAdmin base s) :
    OneAdmin base t := by
  -- who inserts has counted no admin
  have hadmins : t.shared.admins = s.shared.admins ∨ ∃ j x user, l = .go j (.insertUser user) ∧
      s.session j = some x ∧ x.note.phase = .vacant ∧ t.shared.admins ≤ 1 ∧
      ∀ y, t.session j = some y → y.note.phase ≠ .vacant := by
    rcases store_step h with ⟨now, -, hsh⟩ | ⟨j, o, x, a, rfl, hx, hrest, hact, hnote⟩
    · exact Or.inl (by rw [hsh]; rfl)
    · rcases acts_admins hact with hsame | ⟨⟨user, rfl⟩, -, hle⟩
      · exact Or.inl hsame
      · have hvacant : x.note.phase = .vacant := asks_allow hp hx hrest
        rw [hs.zero j x hx hvacant] at hle
        refine Or.inr ⟨j, x, user, rfl, hx, hvacant, hle, fun y hy => ?_⟩
        rw [hnote y hy, hvacant]
        exact nofun
  refine ⟨fun j k x y hx hy hxv hyv => ?_, fun k y hy hyv => ?_, ?_⟩
  · rcases vacant_back h hx hxv with ⟨x', hx', hxv'⟩ | ⟨rfl, -, -⟩
    · rcases vacant_back h hy hyv with ⟨y', hy', hyv'⟩ | ⟨rfl, -, -⟩
      · exact hs.unique j k x' y' hx' hy' hxv' hyv'
      · exact absurd hxv' (horder y hy hyv j x' hx')
    · rcases vacant_back h hy hyv with ⟨y', hy', hyv'⟩ | ⟨hl, -, -⟩
      · exact absurd hyv' (horder x hx hxv k y' hy')
      · cases hl
        rfl
  · rcases vacant_back h hy hyv with ⟨y', hy', hyv'⟩ | ⟨-, hzero, hsh⟩
    · rcases hadmins with hsame | ⟨j, x, user, -, hx, hxv, -, hover⟩
      · exact hsame.trans (hs.zero k y' hy' hyv')
      · obtain rfl := hs.unique j k x y' hx hy' hxv hyv'
        exact absurd hyv (hover y hy)
    · rw [hsh, hzero]
  · rcases hadmins with hsame | ⟨_, _, _, -, -, -, hle, -⟩
    · exact hsame ▸ hs.bound
    · exact hle.trans (Nat.le_add_left 1 base)

/-- The guard has let a request through that has no admin's JWT. -/
def Accepted (s t : SetupSys ι) : Prop := t.log = s.log ++ [.accepted]

theorem record_cases (g : Note) (o : SetupOp) (ra : Option o.Ans) :
    g.record o ra = [] ∨
    (∃ fresh value, o = .writeComplete fresh value ∧
      g.record o ra = [.completed (g.phase.session.map (·.sessionToken))]) ∨
    o = .currentRole ∧ (∃ r, g.phase = .live r) ∧ g.record o ra = [.accepted] := by
  cases o with
  | writeComplete fresh value => exact Or.inr (Or.inl ⟨fresh, value, rfl, rfl⟩)
  | currentRole =>
    cases ra with
    | none => exact Or.inl rfl
    | some role =>
      obtain ⟨call, phase⟩ := g
      cases phase with
      | live r =>
        by_cases hadmin : role = some "admin"
        · exact Or.inl (if_pos hadmin)
        · exact Or.inr (Or.inr ⟨rfl, ⟨r, rfl⟩, if_neg hadmin⟩)
      | _ => exact Or.inl rfl
  | _ => exact Or.inl rfl

theorem accepted_back (hp : InProtocol (setupCalls settings) s)
    (h : Step (setupCalls settings) s l t) (haccepted : Accepted s t) :
    ∃ j x r, s.session j = some x ∧ x.note.call.guarded = true ∧ x.note.phase = .live r := by
  have hrecord : ∀ {j o} {x : Session SetupOp SetupOp.Ans SetupExc Answer Unit Note}
      (ra : Option o.Ans), s.session j = some x → (∃ k, x.rest = .call o k) →
      s.log ++ x.note.record o ra = s.log ++ [.accepted] →
      ∃ j x r, s.session j = some x ∧ x.note.call.guarded = true ∧ x.note.phase = .live r := by
    intro j o x ra hx hrest hlog
    have hentry := List.append_cancel_left hlog
    rcases record_cases x.note o ra with hr | ⟨fresh, value, -, hr⟩ | ⟨rfl, ⟨r, hlive⟩, -⟩
    · exact nomatch hr.symm.trans hentry
    · exact nomatch hr.symm.trans hentry
    · exact ⟨j, x, r, hx, asks_allow hp hx hrest, hlive⟩
  have hsame : s.log ≠ s.log ++ [.accepted] := by simp
  cases h with
  | start _ _ | stop _ | outside _ => exact absurd haccepted hsame
  | during _ hduring => exact hduring.elim
  | go hj _ => exact hrecord (some _) hj ⟨_, rfl⟩ haccepted
  | fail hj _ => exact hrecord none hj ⟨_, rfl⟩ haccepted

/-- Once the flag is set, only the sessions of `finalize` are left, and nobody looks at one. -/
structure Shut (s : SetupSys ι) : Prop where
  rows : ∀ r ∈ s.shared.sessions, s.shared.clock ≤ r.expiresAt →
    .completed (some r.sessionToken) ∈ s.log
  found : ∀ k y r, s.session k = some y → y.note.call.guarded = true → y.note.phase = .found r →
    r.expiresAt < s.shared.clock
  live : ∀ k y r, s.session k = some y → y.note.call.guarded = true → y.note.phase ≠ .live r
  idle : ∀ k y, s.session k = some y → ¬ y.note.phase.Claims

theorem shut_step (hp : InProtocol (setupCalls settings) s)
    (h : Step (setupCalls settings) s l t) (horder : Orderly s l t) (hfinal : Finalized s.shared)
    (hs : Shut s) : Shut t := by
  have hclock := clock_step h
  refine ⟨fun r' hr' hexp => ?_, fun k y r hy hg hfound => ?_, fun k y r hy hg hlive => ?_,
    fun k y hy hclaims => ?_⟩
  · have hold : ∃ r ∈ s.shared.sessions, r.sessionToken = r'.sessionToken ∧
        r.expiresAt = r'.expiresAt := by
      rcases store_step h with ⟨now, -, hsh⟩ | ⟨j, o, x, a, -, hx, hrest, hact, -⟩
      · rw [hsh] at hr'
        exact ⟨r', hr', rfl, rfl⟩
      · rcases acts_sessions hact with ⟨token, expiresAt, rfl⟩ | hrows
        · exact absurd (Or.inr (asks_allow hp hx hrest)) (hs.idle j x hx)
        · exact hrows r' hr'
    obtain ⟨r, hr, htoken, hexpires⟩ := hold
    rw [← hexpires] at hexp
    rw [← htoken]
    exact log_mono h (hs.rows r hr (hclock.trans hexp))
  · rcases phase_back h hy with hback | hbegun | ⟨o, a, x, rfl, htook, hcall, hnext⟩
    · exact lt_of_lt_of_le (hs.found k y r hback hg hfound) hclock
    · exact nomatch hbegun.symm.trans hfound
    · rw [hcall] at hg
      rcases found_next (hnext.symm.trans hfound) with hx | ⟨hbegun, token, hoa⟩
      · exact lt_of_lt_of_le (hs.found k x r htook.before hg hx) hclock
      · cases hoa
        obtain ⟨hr, rfl⟩ := acts_selectSession htook.act r rfl
        refine lt_of_lt_of_le (not_le.mp fun hle => ?_) hclock
        exact horder x htook.before hg hbegun hfinal (hs.rows r hr hle) r hr rfl
  · rcases phase_back h hy with hback | hbegun | ⟨o, a, x, rfl, htook, hcall, hnext⟩
    · exact hs.live k y r hback hg hlive
    · exact nomatch hbegun.symm.trans hlive
    · rw [hcall] at hg
      rcases live_next (hnext.symm.trans hlive) with hx | ⟨hx, now, hnow, hoa⟩
      · exact hs.live k x r htook.before hg hx
      · cases hoa
        rw [acts_time htook.act] at hnow
        exact hnow (hs.found k x r htook.before hg hx)
  · rcases claims_back h hy hclaims with ⟨x, hx, hxc⟩ | ⟨rfl, hholding, -⟩
    · exact hs.idle k x hx hxc
    · exact (horder y hy hholding).2 hfinal

/-- The flag is set by a write of it, which is on record. -/
theorem finalized_step (h : Step (setupCalls settings) s l t) (hopen : ¬ Finalized s.shared)
    (hfinal : Finalized t.shared) : ∃ j x fresh value, l = .go j (.writeComplete fresh value) ∧
      s.session j = some x ∧ t.shared.sessions = s.shared.sessions ∧
      t.shared.clock = s.shared.clock ∧
      .completed (x.note.phase.session.map (·.sessionToken)) ∈ t.log := by
  rcases store_step h with ⟨now, -, hsh⟩ | ⟨j, o, x, a, rfl, hx, -, hact, -⟩
  · rw [hsh] at hfinal
    exact absurd hfinal hopen
  · rcases acts_complete hact with hsame | ⟨⟨fresh, value, rfl⟩, hsessions⟩
    · exact absurd (hsame.symm.trans hfinal) hopen
    · refine ⟨j, x, fresh, value, rfl, hx, hsessions, acts_clock hact, ?_⟩
      obtain ⟨ra, hlog⟩ := log_go h hx
      rw [hlog]
      exact List.mem_append_right _ (List.mem_singleton.mpr rfl)

/-- The step that sets the flag finds no other session alive and no request on its way. -/
theorem shut_finalized (h : Step (setupCalls settings) s l t) (horder : Orderly s l t)
    (hopen : ¬ Finalized s.shared) (hfinal : Finalized t.shared) : Shut t := by
  obtain ⟨j, x, fresh, value, rfl, hx, hsessions, hclock, hlog⟩ := finalized_step h hopen hfinal
  obtain ⟨hquiet, hrows⟩ := horder hopen hfinal
  have hlooking : ∀ k y, t.session k = some y → y.note.call.guarded = true →
      ¬ y.note.phase.Looking := by
    intro k y hy hg hlooking
    rcases phase_back h hy with hback | hbegun | ⟨o, a, z, hl, htook, hcall, hnext⟩
    · exact (hquiet k y hback).2 hg hlooking
    · rw [hbegun] at hlooking
      exact hlooking
    · cases hl
      rw [hcall] at hg
      exact (hquiet j z htook.before).2 hg (looking_next (hnext ▸ hlooking))
  refine ⟨fun r hr hexp => ?_, fun k y r hy hg hfound => ?_, fun k y r hy hg hlive => ?_,
    fun k y hy hclaims => ?_⟩
  · rw [hclock] at hexp
    obtain ⟨x', hx', htoken⟩ := hrows r (hsessions ▸ hr) hexp
    obtain rfl : x = x' := Option.some.inj (hx.symm.trans hx')
    exact htoken ▸ hlog
  · exact absurd (by rw [hfound]; trivial) (hlooking k y hy hg)
  · exact hlooking k y hy hg (by rw [hlive]; trivial)
  · rcases claims_back h hy hclaims with ⟨z, hz, hzc⟩ | ⟨hl, -, -⟩
    · exact (hquiet k z hz).1 hzc
    · exact nomatch hl

/-- Every run that starts before the flag is set, and whose requests are orderly. -/
theorem setup_authority {xs : List (Label ι SetupOp × SetupSys ι)} (hquiet : s.Quiet)
    (hopen : ¬ Finalized s.shared) (h : Path (Step (setupCalls settings)) s xs)
    (horder : Path Orderly s xs) :
    (finish s xs).shared.nextSession ≤ s.shared.nextSession + 1 ∧
    (finish s xs).shared.admins ≤ s.shared.admins + 1 ∧
    Path (fun s _ t => Accepted s t → ¬ Finalized s.shared) s xs := by
  have hpath := h.and horder
  have hstart : InProtocol (setupCalls settings) s := hquiet.inProtocol
  have hprotocol : ∀ (s : SetupSys ι) l t, Step (setupCalls settings) s l t ∧ Orderly s l t →
      InProtocol (setupCalls settings) s → InProtocol (setupCalls settings) t := by
    refine fun s l t hstep => inProtocol_step hstep.1 ?_ fun _ _ _ _ _ _ _ _ => trivial
    rintro p own g ⟨c, rfl, rfl⟩
    exact follows_code c
  have hone : InProtocol (setupCalls settings) (finish s xs) ∧
      OneSession s.shared.nextSession (finish s xs) :=
    hpath.invariant (P := fun t => InProtocol (setupCalls settings) t ∧
      OneSession s.shared.nextSession t) (fun s l t hstep hs => ⟨hprotocol s l t hstep hs.1,
      oneSession_step hs.1 hstep.1 hstep.2 hs.2⟩) ⟨hstart, oneSession_start hquiet⟩
  have hadmin : InProtocol (setupCalls settings) (finish s xs) ∧
      OneAdmin s.shared.admins (finish s xs) :=
    hpath.invariant (P := fun t => InProtocol (setupCalls settings) t ∧
      OneAdmin s.shared.admins t) (fun s l t hstep hs => ⟨hprotocol s l t hstep hs.1,
      oneAdmin_step hs.1 hstep.1 hstep.2 hs.2⟩) ⟨hstart, oneAdmin_start hquiet⟩
  refine ⟨hone.2.nextSession_le, hadmin.2.bound, ?_⟩
  refine hpath.each (P := fun s => InProtocol (setupCalls settings) s ∧
    (Finalized s.shared → Shut s)) (fun s l t hstep hs => ⟨hprotocol s l t hstep hs.1, ?_⟩) ?_
    ⟨hstart, fun hfinal => absurd hfinal hopen⟩
  · intro hfinal
    by_cases hbefore : Finalized s.shared
    · exact shut_step hs.1 hstep.1 hstep.2 hbefore (hs.2 hbefore)
    · exact shut_finalized hstep.1 hstep.2 hbefore hfinal
  · intro s l t hstep hs haccepted hfinal
    obtain ⟨j, x, r, hx, hg, hlive⟩ := accepted_back hs.1 hstep.1 haccepted
    exact (hs.2 hfinal).live j x r hx hg hlive

end Runs

section Schedules

/-- One outcome of every operation; nobody has an admin's JWT, and the script succeeds. -/
def Stores.perform : (o : SetupOp) → Stores → Unit → Option o.Ans × Stores × Unit
  | .time, d, _ => (some d.clock, d, ())
  | .tokenExists, d, _ => (some d.tokenFile.isSome, d, ())
  | .tokenStat, d, _ => (some (d.tokenFile.map (·.2)), d, ())
  | .tokenText, d, _ => (some (d.tokenFile.map (·.1)), d, ())
  | .unlinkToken, d, _ => (some (some ()), { d with tokenFile := none }, ())
  | .randomToken, d, _ => (some (String.ofList (List.replicate d.nextSession.toNat 's')), d, ())
  | .selectSession token, d, _ => (some (d.sessions.find? (·.sessionToken = token)), d, ())
  | .insertSession token expiresAt, d, _ =>
    if ∀ r ∈ d.sessions, r.sessionToken ≠ token then
      (some (d.withSession token expiresAt),
        { d with sessions := d.sessions ++ [d.withSession token expiresAt]
                 nextSession := d.nextSession + 1 }, ())
    else (none, d, ())
  | .deleteSession id, d, _ => (some (), { d with sessions := d.sessions.filter (·.id ≠ id) }, ())
  | .saveStep _ _ _, d, _ => (none, d, ())
  | .currentRole, d, _ => (some none, d, ())
  | .countAdmins, d, _ => (some d.admins, d, ())
  | .insertUser user, d, _ =>
    if ∀ u ∈ d.users, u.username ≠ user.username ∧ u.email ≠ user.email then
      (some (), { d with users := d.users ++ [user] }, ())
    else (none, d, ())
  | .createTokens, d, _ => (some (), d, ())
  | .selectComplete, d, _ => (some d.complete, d, ())
  | .writeComplete fresh value, d, _ =>
    if fresh → d.complete = none then (some (), { d with complete := some value }, ())
    else (none, d, ())
  | .detectTopology, d, _ => (some "dev_box", d, ())
  | .runScript _, d, _ => (some true, d, ())
  | .endpoint _, d, _ => (some (), d, ())

theorem perform_acts {o : SetupOp} {d d' : Stores} {u u' : Unit} {a : o.Ans}
    (h : Stores.perform o d u = (some a, d', u')) : Acts o d a d' := by
  cases o with
  | tokenStat | tokenText =>
    cases h
    constructor
    simp
  | insertSession _ _ | insertUser _ | writeComplete _ _ =>
    simp only [Stores.perform] at h
    split at h <;> cases h
    constructor
    assumption
  | saveStep _ _ _ => cases h
  | _ =>
    cases h
    constructor

theorem perform_fails {o : SetupOp} {d d' : Stores} {u u' : Unit}
    (h : Stores.perform o d u = (none, d', u')) : Fails o d d' := by
  cases o with
  | insertSession _ _ | insertUser _ | writeComplete _ _ =>
    simp only [Stores.perform] at h
    split at h <;> cases h
    exact .unreached
  | saveStep _ _ _ =>
    cases h
    exact .unreached
  | _ => cases h

def installed : SetupSettings where
  hashPassword password := password

/-- The installer has just written its token. -/
def freshBox : SetupSys Bool where
  shared := { tokenFile := some ("wizard\n", 0) }

abbrev SetupTurn := Turn Bool SetupOp SetupOp.Ans SetupExc Answer Stores Unit Note

/-- One of two clients sends a request, and both go on in some order. -/
def requests (xs : List ((Bool × Call) × List Bool)) : List SetupTurn :=
  xs.flatMap fun x =>
    .start x.1.1 (x.1.2.code installed) () { call := x.1.2 } :: x.2.map fun j => .go j

def setupRun (xs : List ((Bool × Call) × List Bool)) : List (Label Bool SetupOp × SetupSys Bool) :=
  takeTurns (setupCalls installed) Stores.perform freshBox (requests xs)

theorem setupRun_path (xs : List ((Bool × Call) × List Bool)) :
    Path (Step (setupCalls installed)) freshBox (setupRun xs) := by
  refine takeTurns_path (M := setupCalls installed) (fun _ _ _ _ _ _ h => perform_acts h)
    (fun _ _ _ _ _ h => perform_fails h) ?_ ?_
  · intro j p own g hmem
    obtain ⟨⟨⟨k, c⟩, order⟩, -, hx⟩ := List.mem_flatMap.mp hmem
    rcases List.mem_cons.mp hx with hstart | hgo
    · cases hstart
      exact ⟨c, rfl, rfl⟩
    · obtain ⟨_, -, hgo⟩ := List.mem_map.mp hgo
      cases hgo
  · intro f hmem
    obtain ⟨⟨⟨k, c⟩, order⟩, -, hx⟩ := List.mem_flatMap.mp hmem
    rcases List.mem_cons.mp hx with hstart | hgo
    · cases hstart
    · obtain ⟨_, -, hgo⟩ := List.mem_map.mp hgo
      cases hgo

instance (p : Phase) : Decidable p.Claims := inferInstanceAs (Decidable (_ ∨ _))

instance (p : Phase) : Decidable p.Looking := by
  cases p <;> unfold Phase.Looking <;> infer_instance

instance (s : SetupSys Bool) (l : Label Bool SetupOp) (t : SetupSys Bool) :
    Decidable (Orderly s l t) := by
  unfold Orderly
  split <;> infer_instance

instance (s t : SetupSys Bool) : Decidable (Accepted s t) := inferInstanceAs (Decidable (_ = _))

def adminNamed (username : String) : CreateAdminRequest where
  username := username
  fullName := "Admin"
  email := username
  password := "rahasia-1"

/-- The other client comes with the same token, with the first admin made, and with the flag set. -/
def oneByOne : List (Label Bool SetupOp × SetupSys Bool) :=
  setupRun
    [((true, .redeemToken "wizard"), List.replicate 9 true),
      ((false, .redeemToken "wizard"), List.replicate 9 false),
      ((true, .createAdmin (some "s") (adminNamed "admin")), List.replicate 9 true),
      ((false, .createAdmin (some "s") (adminNamed "budi")), List.replicate 9 false),
      ((true, .finalize (some "s")), List.replicate 12 true),
      ((false, .wizard .preflight (some "s")), List.replicate 9 false)]

theorem setup_authority_one_by_one :
    Finalized (finish freshBox oneByOne).shared ∧
    ((finish freshBox oneByOne).shared.nextSession ≤ 2 ∧
      (finish freshBox oneByOne).shared.admins ≤ 1 ∧
      Path (fun s _ t => Accepted s t → ¬ Finalized s.shared) freshBox oneByOne) :=
  ⟨by decide, setup_authority ⟨fun _ => rfl, rfl⟩ (by decide) (setupRun_path _) (by decide)⟩

/-- Both clients read the token, both count no admin, and one of them finalizes. -/
def overlapping : List (Label Bool SetupOp × SetupSys Bool) :=
  setupRun
    [((true, .redeemToken "wizard"), List.replicate 4 true),
      ((false, .redeemToken "wizard"),
        List.replicate 4 false ++ List.replicate 9 true ++ List.replicate 9 false),
      ((true, .createAdmin (some "s") (adminNamed "admin")), List.replicate 3 true),
      ((false, .createAdmin (some "ss") (adminNamed "budi")),
        List.replicate 3 false ++ List.replicate 9 true ++ List.replicate 9 false),
      ((true, .finalize (some "s")), List.replicate 12 true),
      ((false, .wizard .testGate (some "ss")), List.replicate 9 false)]

theorem authority_of_overlapping_requests :
    Path (Step (setupCalls installed)) freshBox overlapping ∧
    (finish freshBox overlapping).shared.nextSession = freshBox.shared.nextSession + 2 ∧
    (finish freshBox overlapping).shared.users.map (·.role) = ["admin", "admin"] ∧
    ¬ Path (fun s _ t => Accepted s t → ¬ Finalized s.shared) freshBox overlapping :=
  ⟨setupRun_path _, by decide, by decide, by decide⟩

end Schedules
end ParkIt.Setup
