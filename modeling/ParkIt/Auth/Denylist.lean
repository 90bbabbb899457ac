import ParkIt.Auth.Tokens

/-! What every call does with its token, and what the denylist keeps. -/
namespace ParkIt.Auth

open Effects Sessions Transition

/-- Where a call has come to that accepts its token. -/
def Answer.phase : Answer → Phase
  | .refreshed _ => .issued
  | _ => .passed

/-- An answer fits what the call has done. -/
structure Note.Ends (g : Note) (a : Answer) : Prop where
  phase : ∀ id, g.call.jti = some id → a.accepts = true → g.phase = a.phase
  type : a.accepts = true → ∃ p ty, g.call.claims = some p ∧ p.type = some ty ∧
    g.call.wants = some ty

section Follows
variable {settings : TokenSettings} {hash : Token → String} {expOf : String → Int} {g : Note}
  {p : Claims} {id : String}

theorem Note.Ends.of_refused {a : Answer} (h : a.accepts = false) : g.Ends a :=
  ⟨fun _ _ ha => absurd ha (by rw [h]; decide), fun ha => absurd ha (by rw [h]; decide)⟩

theorem next_of_jti (h : g.call.jti = some id) (o : AuthOp) (a : o.Ans) :
    g.next expOf o a = { g with phase := g.phase.next (expOf id) o a } := by
  simp only [Note.next, h]

theorem follows_decodeToken (hcall : g.call.jti = some id) (hexp : p.exp = some (expOf id))
    (hphase : g.phase = .begun) :
    Follows (tokenRules expOf) g (decodeToken (.signed p))
      (fun g' r => r = p ∧ g' = { g with phase := .decoded })
      fun g' _ => g' = { g with phase := .over } := by
  refine ⟨fun h => (nomatch hphase.symm.trans h), fun t _ => ?_⟩
  change Follows (tokenRules expOf) (g.next expOf .now t) (if p.expired t = true then _ else _) _ _
  rw [next_of_jti hcall, hphase, Claims.expired, hexp, Option.any_some]
  by_cases ht : (expOf id : ℚ) ≤ t
  · rw [if_pos (decide_eq_true ht), Phase.next, if_pos ht]
    rfl
  · rw [if_neg (by simpa using ht), Phase.next, if_neg ht]
    exact ⟨rfl, rfl⟩

theorem follows_tryDecode (hcall : g.call.jti = some id) (hexp : p.exp = some (expOf id))
    (hphase : g.phase = .begun) :
    Follows (tokenRules expOf) g (tryDecode (.signed p))
      (fun g' r => r = none ∧ g' = { g with phase := .over } ∨
        r = some p ∧ g' = { g with phase := .decoded })
      fun _ _ => False := by
  rw [tryDecode, follows_handle]
  refine (follows_decodeToken hcall hexp hphase).bind (fun g' _ h => Or.inl ⟨rfl, h⟩) ?_
  rintro g' r ⟨rfl, hg'⟩
  exact Or.inr ⟨rfl, hg'⟩

theorem follows_isTokenRevoked (h : g.Reads id) :
    Follows (tokenRules expOf) g (isTokenRevoked id)
      (fun g' r => r = true ∧ g' = { g with phase := .over } ∨
        r = false ∧ g' = { g with phase := .passed })
      fun _ _ => False := by
  refine ⟨⟨id, rfl, h⟩, fun r _ => ?_⟩
  change Follows (tokenRules expOf) (g.next expOf (.get (denylistKey id)) r) _ _ _
  rw [next_of_jti h.1, h.2.1]
  cases r with
  | none => exact Or.inr ⟨rfl, rfl⟩
  | some _ => exact Or.inl ⟨rfl, rfl⟩

theorem follows_revokeJti (hjti : g.call.jti = some id)
    (hphase : g.phase = .decoded ∧ g.call.wants = none ∨ g.phase = .passed) :
    Follows (tokenRules expOf) g (revokeJti id (expOf id))
      (fun g' _ => g' = { g with phase := .revoked }) fun _ _ => False := by
  have hnow : (tokenRules expOf).allow g .now := by
    rcases hphase with ⟨-, hwants⟩ | hphase
    · exact fun _ => hwants
    · exact fun h => nomatch hphase.symm.trans h
  refine ⟨hnow, fun t _ => ?_⟩
  have hnext : g.next expOf .now t = { g with phase := timedPhase (expOf id) t } := by
    rw [next_of_jti hjti]
    rcases hphase with ⟨hphase, -⟩ | hphase <;> rw [hphase] <;> rfl
  change Follows (tokenRules expOf) (g.next expOf .now t)
    (if 0 < max 0 (expOf id - ⌊t⌋) then _ else _) _ _
  rw [hnext]
  unfold timedPhase
  by_cases ht : 0 < expOf id - ⌊t⌋
  · rw [max_eq_right (le_of_lt ht), if_pos ht, if_pos ht]
    refine ⟨⟨id, rfl, hjti, rfl⟩, fun _ _ => ?_⟩
    have hjti' : ({ g with phase := .timed (expOf id - ⌊t⌋) } : Note).call.jti = some id := hjti
    exact next_of_jti hjti' ..
  · rw [max_eq_left (not_lt.mp ht), if_neg ht, if_neg (lt_irrefl 0)]
    rfl

theorem follows_createTokens (hjti : g.call.jti = some id) (data : TokenData)
    (hwants : g.call.wants = some .refresh) (hphase : g.phase = .revoked) :
    Follows (tokenRules expOf) g (createTokens settings data)
      (fun g' _ => g' = { g with phase := .issued }) fun _ _ => False := by
  have hnext : ∀ p : Phase, ∀ o a, ({ g with phase := p } : Note).next expOf o a =
      { g with phase := p.next (expOf id) o a } := fun p => next_of_jti hjti
  obtain ⟨call, phase⟩ := g
  cases hphase
  refine ⟨nofun, fun t _ => ?_⟩
  change Follows (tokenRules expOf) (Note.next expOf _ .now t) _ _ _
  rw [hnext]
  refine ⟨fun _ => hwants, fun j _ => ?_⟩
  change Follows (tokenRules expOf) (Note.next expOf _ .uuid j) _ _ _
  rw [hnext]
  refine ⟨nofun, fun t' _ => ?_⟩
  change Follows (tokenRules expOf) (Note.next expOf _ .now t') _ _ _
  rw [hnext]
  exact ⟨fun _ => hwants, fun j' _ => hnext .access .uuid j'⟩

theorem truthyJti_of_ne (hjti : p.jti = some id) (hid : id ≠ "") : p.truthyJti = some id := by
  simp [Claims.truthyJti, hjti, hid]

/-- A call with a signed token. -/
structure Note.Holds (expOf : String → Int) (g : Note) (p : Claims) (id : String) : Prop where
  claims : g.call.claims = some p
  phase : g.phase = .begun
  jti : p.jti = some id
  ne : id ≠ ""
  exp : p.exp = some (expOf id)

theorem Note.Holds.call (h : g.Holds expOf p id) : g.call.jti = some id := by
  rw [Call.jti, h.claims]
  exact h.jti

theorem Note.Holds.decode (h : g.Holds expOf p id) :
    Follows (tokenRules expOf) g (tryDecode (.signed p))
      (fun g' r => r = none ∧ g' = { g with phase := .over } ∨
        r = some p ∧ g' = { g with phase := .decoded })
      fun _ _ => False := follows_tryDecode h.call h.exp h.phase

theorem follows_isTokenValid (h : g.Holds expOf p id) (hwants : g.call.wants = some .access) :
    Follows (tokenRules expOf) g (isTokenValid (.signed p))
      (fun g' r => g'.call = g.call ∧
        (r.isSome → g'.phase = .passed ∧ p.type = some .access)) fun _ _ => False := by
  refine h.decode.bind (fun _ _ h => h) ?_
  rintro g' r (⟨rfl, rfl⟩ | ⟨rfl, rfl⟩)
  · exact ⟨rfl, nofun⟩
  dsimp only
  split
  · exact ⟨rfl, nofun⟩
  rename_i htype
  rw [truthyJti_of_ne h.jti h.ne]
  have hreads : ({ g with phase := .decoded } : Note).Reads id := ⟨h.call, rfl, by rw [hwants]; rfl⟩
  refine (follows_isTokenRevoked hreads).bind (fun _ _ h => h) ?_
  rintro g' r (⟨rfl, rfl⟩ | ⟨rfl, rfl⟩)
  · exact ⟨rfl, nofun⟩
  · exact ⟨rfl, fun _ => ⟨rfl, not_not.mp htype⟩⟩

theorem follows_refreshTokens (h : g.Holds expOf p id) (hwants : g.call.wants = some .refresh) :
    Follows (tokenRules expOf) g (refreshTokens settings (.signed p))
      (fun g' r => g'.call = g.call ∧
        (r.isSome → g'.phase = .issued ∧ p.type = some .refresh)) fun _ _ => True := by
  refine h.decode.bind (fun _ _ h => h.elim) ?_
  rintro g' r (⟨rfl, rfl⟩ | ⟨rfl, rfl⟩)
  · exact ⟨rfl, nofun⟩
  dsimp only
  split
  · exact ⟨rfl, nofun⟩
  rename_i htype
  rw [truthyJti_of_ne h.jti h.ne, h.exp]
  have hreads : ({ g with phase := .decoded } : Note).Reads id := ⟨h.call, rfl, by rw [hwants]; rfl⟩
  refine (follows_isTokenRevoked hreads).bind (fun _ _ h => h.elim) ?_
  rintro g' r (⟨rfl, rfl⟩ | ⟨rfl, rfl⟩)
  · exact ⟨rfl, nofun⟩
  have hcall : ({ g with phase := .passed } : Note).call.jti = some id := h.call
  refine (follows_revokeJti hcall (Or.inr rfl)).bind (fun _ _ h => h.elim) ?_
  rintro g' _ rfl
  split
  · trivial
  · have hcall : ({ g with phase := .revoked } : Note).call.jti = some id := h.call
    change Follows (tokenRules expOf) _ (createTokens settings _ >>= fun pair => pure (some pair)) _ _
    refine (follows_createTokens hcall _ hwants rfl).bind (fun _ _ h => h.elim) ?_
    rintro g' pair rfl
    exact ⟨rfl, fun _ => ⟨rfl, not_not.mp htype⟩⟩

theorem follows_revokeToken (h : g.Holds expOf p id) (hwants : g.call.wants = none) :
    Follows (tokenRules expOf) g (revokeToken hash (.signed p))
      (fun g' _ => g'.call = g.call) fun _ _ => False := by
  refine h.decode.bind (fun _ _ h => h) ?_
  rintro g' r (⟨rfl, rfl⟩ | ⟨rfl, rfl⟩)
  · rfl
  dsimp only
  rw [h.jti, h.exp]
  have hcall : ({ g with phase := .decoded } : Note).call.jti = some id := h.call
  refine (follows_revokeJti hcall (Or.inl ⟨rfl, hwants⟩)).bind (fun _ _ h => h) ?_
  rintro g' _ rfl
  rfl

theorem follows_createTokens_call (hcall : g.call.claims = none) (hphase : g.phase = .begun)
    (data : TokenData) :
    Follows (tokenRules expOf) g (createTokens settings data) (fun g' _ => g' = g)
      fun _ _ => False := by
  have hnext : ∀ o a, g.next expOf o a = g := fun o a => by rw [Note.next, Call.jti, hcall]; rfl
  have honly : Only (fun o => o = .now ∨ o = .uuid) (fun _ => False) (createTokens settings data) :=
    ⟨Or.inl rfl, fun _ => ⟨Or.inr rfl, fun _ => ⟨Or.inl rfl, fun _ => ⟨Or.inr rfl, fun _ => trivial⟩⟩⟩⟩
  refine (honly.follows fun o ho => ⟨?_, fun a => hnext o a⟩).mono (fun _ _ h => h) fun _ _ h => h.2
  rcases ho with rfl | rfl
  · exact fun h => nomatch hphase.symm.trans h
  · intro hjti
    rw [Call.jti, hcall] at hjti
    cases hjti

/-- Every call keeps to the rules, and its answer fits. -/
theorem follows_code {c : Call} (h : c.Presents expOf) :
    Follows (tokenRules expOf) { call := c } (c.code settings hash) Note.Ends fun _ _ => True := by
  have hholds : ∀ q, c.claims = some q → ∃ i, ({ call := c } : Note).Holds expOf q i := by
    intro q hq
    obtain ⟨i, hjti, hne, hexp⟩ := h q hq
    exact ⟨i, hq, rfl, hjti, hne, hexp⟩
  cases c with
  | createTokens user =>
    refine (follows_createTokens_call rfl rfl user).bind (fun _ _ h => h.elim) ?_
    rintro _ _ rfl
    exact .of_refused rfl
  | refreshTokens token =>
    cases token with
    | unsigned text => exact Note.Ends.of_refused rfl
    | signed q =>
      obtain ⟨i, hq⟩ := hholds q rfl
      refine (follows_refreshTokens hq rfl).bind (fun _ _ _ => trivial) fun g' r hr => ?_
      refine ⟨fun _ _ ha => (hr.2 ha).1, fun ha => ?_⟩
      · rw [hr.1]
        exact ⟨q, _, rfl, (hr.2 ha).2, rfl⟩
  | revokeToken token =>
    cases token with
    | unsigned text => exact Note.Ends.of_refused rfl
    | signed q =>
      obtain ⟨i, hq⟩ := hholds q rfl
      exact (follows_revokeToken hq rfl).bind (fun _ _ _ => trivial) fun _ _ _ => .of_refused rfl
  | isTokenValid token =>
    cases token with
    | unsigned text => exact Note.Ends.of_refused rfl
    | signed q =>
      obtain ⟨i, hq⟩ := hholds q rfl
      refine (follows_isTokenValid hq rfl).bind (fun _ _ _ => trivial) fun g' r hr => ?_
      refine ⟨fun _ _ ha => (hr.2 ha).1, fun ha => ?_⟩
      · rw [hr.1]
        exact ⟨q, _, rfl, (hr.2 ha).2, rfl⟩

end Follows

section Sound
variable {ι : Type} [DecidableEq ι] {settings : TokenSettings} {hash : Token → String}
  {expOf : String → Int} {s t : TokenSys ι} {l : Label ι AuthOp}

theorem denylistKey_inj {a b : String} (h : denylistKey a = denylistKey b) : a = b :=
  (String.append_right_inj _).mp h

theorem acts_now {d d' : Denylist} {now : ℚ} (h : Acts .now d now d') : now = d.clock := by
  cases h
  rfl

theorem acts_get {d d' : Denylist} {key : String} {r : Option String} (h : Acts (.get key) d r d')
    (hforce : d.InForce key) : r = some "1" := by
  cases h with
  | get hfound _ => exact hfound hforce

theorem acts_set {d d' : Denylist} {key value : String} {ex : Int}
    (h : Acts (.set key value ex) d () d') : d'.entry key = some (d.clock + ex) := by
  cases h
  exact Function.update_self ..

theorem acts_clock {o : AuthOp} {d d' : Denylist} {a : o.Ans} (h : Acts o d a d') :
    d'.clock = d.clock := by
  cases h <;> rfl

/-- Only one operation touches the entries. -/
theorem acts_entry {o : AuthOp} {d d' : Denylist} {a : o.Ans} (h : Acts o d a d') :
    d'.entry = d.entry ∨ ∃ key value ex, o = .set key value ex ∧
      d'.entry = Function.update d.entry key (some (d.clock + ex)) := by
  cases h with
  | set => exact Or.inr ⟨_, _, _, rfl, rfl⟩
  | _ => exact Or.inl rfl

theorem fails_acts {o : AuthOp} {d d' : Denylist} (h : Fails o d d') :
    d' = d ∨ ∃ a, Acts o d a d' := by
  cases h with
  | unreached => exact Or.inl rfl
  | lost h => exact Or.inr ⟨_, h⟩

theorem clock_step (h : Step (tokenCalls settings hash expOf) s l t) :
    s.shared.clock ≤ t.shared.clock := by
  cases h with
  | start _ _ | stop _ => exact le_refl _
  | go _ hact => exact (acts_clock hact).ge
  | fail _ hfails =>
    rcases fails_acts hfails with hsh | ⟨a, hact⟩
    · exact hsh ▸ le_refl _
    · exact (acts_clock hact).ge
  | during _ hduring => exact hduring.elim
  | outside hsh => exact hsh.2

/-- An entry is as it was, or a call has written it with the lifetime that it had worked out. -/
theorem entry_step (hs : Promises (tokenCalls settings hash expOf) Note.Ends s)
    (h : Step (tokenCalls settings hash expOf) s l t) :
    t.shared.entry = s.shared.entry ∨ ∃ j x id ttl, s.session j = some x ∧
      x.note.call.jti = some id ∧ x.note.phase = .timed ttl ∧
      t.shared.entry = Function.update s.shared.entry (denylistKey id)
        (some (s.shared.clock + ttl)) := by
  have hwrites : ∀ {j o k own note a sh}, s.session j = some ⟨.call o k, own, note⟩ →
      Acts o s.shared a sh → sh.entry = s.shared.entry ∨ ∃ j x id ttl, s.session j = some x ∧
        x.note.call.jti = some id ∧ x.note.phase = .timed ttl ∧
        sh.entry = Function.update s.shared.entry (denylistKey id)
          (some (s.shared.clock + ttl)) := by
    intro j o k own note a sh hj hact
    rcases acts_entry hact with hsame | ⟨key, value, ex, rfl, hsh⟩
    · exact Or.inl hsame
    · obtain ⟨id, rfl, hjti, hphase⟩ := (hs _ _ hj).1
      exact Or.inr ⟨_, _, id, ex, hj, hjti, hphase, hsh⟩
  cases h with
  | start _ _ | stop _ => exact Or.inl rfl
  | go hj hact => exact hwrites hj hact
  | fail hj hfails =>
    rcases fails_acts hfails with rfl | ⟨a, hact⟩
    · exact Or.inl rfl
    · exact hwrites hj hact
  | during _ hduring => exact hduring.elim
  | outside hsh => exact Or.inl hsh.1

/-- The entry has been written, or there was no need to. -/
def Phase.Done : Phase → Prop
  | .revoked | .access | .issued => True
  | _ => False

/-- What every run keeps. -/
structure Sound (settings : TokenSettings) (hash : Token → String) (expOf : String → Int)
    (s : TokenSys ι) : Prop where
  promises : Promises (tokenCalls settings hash expOf) Note.Ends s
  entries : ∀ id t, s.shared.entry (denylistKey id) = some t → (expOf id : ℚ) ≤ t
  timed : ∀ j x id ttl, s.session j = some x → x.note.call.jti = some id →
    x.note.phase = .timed ttl → (expOf id : ℚ) ≤ s.shared.clock + ttl
  revoked : ∀ id, .revoked id ∈ s.log →
    (expOf id : ℚ) ≤ s.shared.clock ∨ ∃ t, s.shared.entry (denylistKey id) = some t
  done : ∀ j x id, s.session j = some x → x.note.call.jti = some id → x.note.phase.Done →
    .revoked id ∈ s.log

theorem next_call {g : Note} (o : AuthOp) (a : o.Ans) : (g.next expOf o a).call = g.call := by
  unfold Note.next
  split <;> rfl

theorem entry_lasts (hs : Promises (tokenCalls settings hash expOf) Note.Ends s)
    (h : Step (tokenCalls settings hash expOf) s l t) {key : String} {r : ℚ}
    (hr : s.shared.entry key = some r) : ∃ r', t.shared.entry key = some r' := by
  rcases entry_step hs h with hsame | ⟨j, x, id, ttl, -, -, -, hwritten⟩
  · exact ⟨r, by rw [hsame]; exact hr⟩
  · rw [hwritten]
    by_cases hkey : key = denylistKey id
    · exact ⟨_, by rw [hkey, Function.update_self]⟩
    · exact ⟨r, by rw [Function.update_of_ne hkey]; exact hr⟩

section Phases
variable {exp ttl : Int} {p : Phase} {o : AuthOp} {a : o.Ans}

theorem timed_next (h : p.next exp o a = .timed ttl) :
    p = .timed ttl ∨ ∃ now, (⟨o, a⟩ : (o : AuthOp) × o.Ans) = ⟨.now, now⟩ ∧ ttl = exp - ⌊now⌋ := by
  cases o with
  | now =>
    cases p with
    | decoded | passed =>
      simp only [Phase.next, timedPhase] at h
      split at h
      · exact Or.inr ⟨a, rfl, (Phase.timed.inj h).symm⟩
      · cases h
    | begun =>
      simp only [Phase.next] at h
      split at h <;> cases h
    | _ => exact Or.inl h
  | get key =>
    cases p with
    | decoded =>
      simp only [Phase.next] at h
      split at h <;> cases h
    | _ => exact Or.inl h
  | uuid | set key value ex =>
    cases p <;> first | exact Or.inl h | cases h

theorem revoked_next (h : p.next exp o a = .revoked) :
    p = .revoked ∨ (∃ now, (⟨o, a⟩ : (o : AuthOp) × o.Ans) = ⟨.now, now⟩ ∧ exp ≤ ⌊now⌋) ∨
      ∃ key value ex, o = .set key value ex := by
  cases o with
  | now =>
    cases p with
    | decoded | passed =>
      simp only [Phase.next, timedPhase] at h
      split at h
      · cases h
      · exact Or.inr (Or.inl ⟨a, rfl, by omega⟩)
    | begun =>
      simp only [Phase.next] at h
      split at h <;> cases h
    | _ => exact Or.inl h
  | get key =>
    cases p with
    | decoded =>
      simp only [Phase.next] at h
      split at h <;> cases h
    | _ => exact Or.inl h
  | uuid => cases p <;> first | exact Or.inl h | cases h
  | set key value ex => exact Or.inr (Or.inr ⟨key, value, ex, rfl⟩)

theorem done_next (h : (p.next exp o a).Done) : p.Done ∨ p.next exp o a = .revoked := by
  cases o with
  | now =>
    cases p with
    | decoded | passed =>
      simp only [Phase.next, timedPhase] at h ⊢
      split at h
      · exact h.elim
      · exact Or.inr (if_neg ‹_›)
    | begun =>
      simp only [Phase.next] at h
      split at h <;> exact h.elim
    | _ => exact Or.inl h
  | get key =>
    cases p with
    | decoded =>
      simp only [Phase.next] at h
      split at h <;> exact h.elim
    | _ => exact Or.inl h
  | uuid | set key value ex =>
    cases p <;> first | exact Or.inl trivial | exact Or.inr rfl | exact h.elim

end Phases

theorem entry_of_mem_record {x : Note} {o : AuthOp} {a : o.Ans} {id : String}
    (h : Entry.revoked id ∈ x.record expOf o (some a)) :
    x.call.jti = some id ∧ (x.next expOf o a).phase = .revoked ∧ x.phase ≠ .revoked := by
  simp only [Note.record] at h
  split at h
  · split at h
    · cases h
    · obtain ⟨id', hid, heq⟩ : ∃ id', x.call.jti = some id' ∧ Entry.revoked id' = .revoked id := by
        simpa using h
      cases heq
      exact ⟨hid, ‹_›, ‹_›⟩
  · split at h
    · cases h
    · simp at h
  · cases h

/-- A call that presents a token is where it was, or begins, or it has moved on. -/
theorem call_back (h : Step (tokenCalls settings hash expOf) s l t) {j : ι} {id : String}
    {x : Session AuthOp AuthOp.Ans AuthExc Answer Unit Note} (hx : t.session j = some x)
    (hjti : x.note.call.jti = some id) :
    s.session j = some x ∨ x.note.phase = .begun ∨
      ∃ o a y, l = .go j o ∧ Took (tokenCalls settings hash expOf) s t j o a y x ∧
        y.note.call = x.note.call ∧ x.note.phase = y.note.phase.next (expOf id) o a := by
  rcases session_back h hx with hx | ⟨-, -, c, -, hnote, -⟩ | ⟨o, a, y, hl, hy⟩
  · exact Or.inl hx
  · exact Or.inr (Or.inl (by rw [hnote]))
  · have hnote : x.note = y.note.next expOf o a := hy.note
    have hcall : y.note.call = x.note.call := by rw [hnote, next_call]
    refine Or.inr (Or.inr ⟨o, a, y, hl, hy, hcall, ?_⟩)
    rw [hnote, next_of_jti (hcall ▸ hjti)]

section Steps
variable (h : Step (tokenCalls settings hash expOf) s l t) (hs : Sound settings hash expOf s)
  {j : ι} {x : Session AuthOp AuthOp.Ans AuthExc Answer Unit Note} {id : String}
include h hs

theorem entries_step {r : ℚ} (hr : t.shared.entry (denylistKey id) = some r) :
    (expOf id : ℚ) ≤ r := by
  rcases entry_step hs.promises h with hsame | ⟨j, x, id', ttl, hj, hjti, hphase, hwritten⟩
  · exact hs.entries id r (by rw [← hsame]; exact hr)
  · rw [hwritten] at hr
    by_cases hid : id = id'
    · subst hid
      rw [Function.update_self] at hr
      cases hr
      exact hs.timed j x id ttl hj hjti hphase
    · rw [Function.update_of_ne fun hkey => hid (denylistKey_inj hkey)] at hr
      exact hs.entries id r hr

/-- The lifetime that a call has worked out still lasts until the token expires. -/
theorem timed_step {ttl : Int} (hj : t.session j = some x) (hjti : x.note.call.jti = some id)
    (hphase : x.note.phase = .timed ttl) : (expOf id : ℚ) ≤ t.shared.clock + ttl := by
  have hclock := clock_step h
  rcases call_back h hj hjti with hj | hbegun | ⟨o, a, y, -, hy, hcall, hnext⟩
  · exact (hs.timed j x id ttl hj hjti hphase).trans (by linarith)
  · cases hbegun.symm.trans hphase
  · rcases timed_next (hnext.symm.trans hphase) with hphase | ⟨now, heq, rfl⟩
    · exact (hs.timed j y id ttl hy.before (hcall ▸ hjti) hphase).trans (by linarith)
    · cases heq
      have hnow : now = s.shared.clock := acts_now hy.act
      have hfloor := Int.floor_le now
      push_cast
      linarith

theorem revoked_step (hid : .revoked id ∈ t.log) :
    (expOf id : ℚ) ≤ t.shared.clock ∨ ∃ r, t.shared.entry (denylistKey id) = some r := by
  have hclock := clock_step h
  rcases log_back h hid with hid | ⟨j, o, a, x, y, -, hy, hrecord⟩ | ⟨j, o, x, -, hrecord⟩
  · rcases hs.revoked id hid with hexp | ⟨r, hr⟩
    · exact Or.inl (hexp.trans hclock)
    · exact Or.inr (entry_lasts hs.promises h hr)
  · obtain ⟨hjti, hphase, hne⟩ := entry_of_mem_record hrecord
    rw [next_of_jti hjti] at hphase
    rcases revoked_next hphase with hphase | ⟨now, heq, hexp⟩ | ⟨key, value, ex, rfl⟩
    · exact absurd hphase hne
    · cases heq
      have hnow : now = s.shared.clock := acts_now hy.act
      have hfloor := Int.floor_le now
      have hcast : (expOf id : ℚ) ≤ ⌊now⌋ := by exact_mod_cast hexp
      exact Or.inl (by linarith)
    · obtain ⟨id', rfl, hid', -⟩ := hy.allow hs.promises
      cases hid'.symm.trans hjti
      exact Or.inr ⟨s.shared.clock + ex, acts_set hy.act⟩
  · cases hrecord

/-- A call that is done with the entry is on record. -/
theorem done_step (hj : t.session j = some x) (hjti : x.note.call.jti = some id)
    (hphase : x.note.phase.Done) : .revoked id ∈ t.log := by
  rcases call_back h hj hjti with hj | hbegun | ⟨o, a, y, -, hy, hcall, hnext⟩
  · exact log_mono h (hs.done j x id hj hjti hphase)
  · rw [hbegun] at hphase
    exact hphase.elim
  · have hjti' : y.note.call.jti = some id := hcall ▸ hjti
    by_cases hdone : y.note.phase.Done
    · exact log_mono h (hs.done j y id hy.before hjti' hdone)
    · rw [hnext] at hphase
      have hrevoked := (done_next hphase).resolve_left hdone
      have hlog : t.log = s.log ++ y.note.record expOf o (some a) := hy.log
      rw [hlog]
      refine List.mem_append_right _ ?_
      have hne : y.note.phase ≠ .revoked := fun heq => hdone (by rw [heq]; trivial)
      simp only [Note.record, next_of_jti hjti', hrevoked, if_neg hne, hjti']
      exact List.mem_singleton.mpr rfl

theorem sound_step : Sound settings hash expOf t where
  promises := promises_step h (by rintro _ _ _ ⟨c, rfl, rfl, hc⟩; exact follows_code hc)
    (fun _ _ _ _ _ _ _ _ => trivial) hs.promises
  entries _ _ hr := entries_step h hs hr
  timed _ _ _ _ hj hjti hphase := timed_step h hs hj hjti hphase
  revoked _ hid := revoked_step h hs hid
  done _ _ _ hj hjti hphase := done_step h hs hj hjti hphase

end Steps

omit [DecidableEq ι] in
theorem sound_start (hquiet : s.Quiet) (hempty : s.shared.entry = fun _ => none) :
    Sound settings hash expOf s := by
  refine ⟨hquiet.promises, fun id r hr => ?_, fun j x id ttl hj => ?_, fun id hid => ?_,
    fun j x id hj => ?_⟩
  · rw [hempty] at hr
    cases hr
  · simp [hquiet.1] at hj
  · simp [hquiet.2] at hid
  · simp [hquiet.1] at hj

end Sound

section Schedules
variable {ι : Type} [DecidableEq ι] {expOf : String → Int}

/-- What the clock and Redis answer; an entry that has run out is gone. -/
def performToken (o : AuthOp) (d : Denylist) (_ : Unit) : Option o.Ans × Denylist × Unit :=
  match o with
  | .now => (some d.clock, d, ())
  | .uuid => (some "b", d, ())
  | .get key =>
    (some (match d.entry key with
      | some t => if d.clock < t then some "1" else none
      | none => none), d, ())
  | .set key _ ex =>
    (some (), { d with entry := Function.update d.entry key (some (d.clock + ex)) }, ())

theorem performToken_acts {o : AuthOp} {d d' : Denylist} {u u' : Unit} {a : o.Ans}
    (h : performToken o d u = (some a, d', u')) : Acts o d a d' := by
  cases o with
  | now | uuid | set key value ex =>
    cases h
    constructor
  | get key =>
    simp only [performToken, Prod.mk.injEq, Option.some.injEq] at h
    obtain ⟨ha, rfl, -⟩ := h
    refine .get ?_ ?_
    · rintro ⟨t, ht, hlt⟩
      rw [← ha, Option.mem_def.mp ht]
      exact if_pos hlt
    · intro hnone
      rw [← ha, hnone]

theorem performToken_some {o : AuthOp} {d d' : Denylist} {u u' : Unit} :
    performToken o d u ≠ (none, d', u') := by
  cases o <;> nofun

/-- What happens next: a call makes some of its operations, or time passes. -/
inductive Deed (ι : Type) where
  | call (j : ι) (c : Call) (n : Nat)
  | go (j : ι) (n : Nat)
  | tick (t : ℚ)

abbrev TokenTurn (ι : Type) := Turn ι AuthOp AuthOp.Ans AuthExc Answer Denylist Unit Note

def Deed.turns : Deed ι → List (TokenTurn ι)
  | .call j c n => .start j (c.code {} fun _ => "") () { call := c } :: List.replicate n (.go j)
  | .go j n => List.replicate n (.go j)
  | .tick t => [.outside fun d => { d with clock := max d.clock t }]

/-- The answer of a call that is at its end. -/
def Session.answer (x : Session AuthOp AuthOp.Ans AuthExc Answer Unit Note) : Option Answer :=
  match x.rest with
  | .pure a => some a
  | _ => none

theorem rest_of_answer {x : Session AuthOp AuthOp.Ans AuthExc Answer Unit Note} {a : Answer}
    (h : Session.answer x = some a) : x.rest = .pure a := by
  unfold Session.answer at h
  split at h
  · cases h
    assumption
  · cases h

/-- Nothing has been revoked, and no call has been started. -/
def opened : TokenSys ι := { shared := {} }

def deedRun (expOf : String → Int) (deeds : List (Deed ι)) :
    List (Label ι AuthOp × TokenSys ι) :=
  takeTurns (tokenCalls {} (fun _ => "") expOf) performToken opened (deeds.flatMap Deed.turns)

theorem deedRun_path {deeds : List (Deed ι)}
    (h : ∀ j c n, .call j c n ∈ deeds → c.Presents expOf) :
    Path (Step (tokenCalls {} (fun _ => "") expOf)) opened (deedRun expOf deeds) := by
  have hact : ∀ o d u a d' u', performToken o d u = (some a, d', u') →
      (tokenCalls {} (fun _ => "") expOf).act o d u a d' u' :=
    fun _ _ _ _ _ _ h => performToken_acts h
  refine takeTurns_path hact (fun o d u d' u' h => absurd h performToken_some)
    (fun j p own note hmem => ?_)
    fun f hmem d => ?_
  · obtain ⟨deed, hdeed, hmem⟩ := List.mem_flatMap.mp hmem
    cases deed with
    | call j' c n =>
      rcases List.mem_cons.mp hmem with heq | hmem
      · cases heq
        exact ⟨c, rfl, rfl, h _ _ _ hdeed⟩
      · cases List.eq_of_mem_replicate hmem
    | go j' n => cases List.eq_of_mem_replicate hmem
    | tick t => cases List.mem_singleton.mp hmem
  · obtain ⟨deed, -, hmem⟩ := List.mem_flatMap.mp hmem
    cases deed with
    | call j' c n =>
      rcases List.mem_cons.mp hmem with heq | hmem
      · cases heq
      · cases List.eq_of_mem_replicate hmem
    | go j' n => cases List.eq_of_mem_replicate hmem
    | tick t =>
      cases List.mem_singleton.mp hmem
      exact ⟨rfl, le_max_left _ _⟩

end Schedules
end ParkIt.Auth
