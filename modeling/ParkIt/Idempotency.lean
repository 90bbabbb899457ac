import ParkIt.Services.Caching
import ParkIt.Completion
import Mathlib.Data.Fintype.Basic

/-! One payment for each idempotency key, when at most one request works on it at a time. -/
namespace ParkIt

open Effects Api RowLock Transition

variable {ι σ : Type} [DecidableEq ι]

abbrev ReqSession := Session Id ParkingTransaction TxUpdate Effect.Ans Exc PaymentResponse

abbrev ReqSys (ι σ : Type) :=
  Sys ι Id ParkingTransaction TxUpdate Effect.Ans Exc PaymentResponse σ

abbrev ReqLabel (ι : Type) := Label ι Id TxUpdate PaymentResponse

/-- Each session serves its own request. -/
def Serves (req : ι → Request) (j : ι) (p : Api PaymentResponse) : Prop := p = (req j).handler

abbrev ReqStep (req : ι → Request) (ext : σ → (e : Effect) → e.Ans → σ → Prop) :
    ReqSys ι σ → ReqLabel ι → ReqSys ι σ → Prop := Step txSchema (Serves req) ext

/-- Redis serves the entry of the key and does not expire it: the runs are within its lifetime. -/
structure Faithful (key : String) (cache : σ → Option PaymentResponse)
    (ext : σ → (e : Effect) → e.Ans → σ → Prop) : Prop where
  get : ∀ {sh a sh'}, ext sh (.getIdempotency key) a sh' → a = cache sh
  set : ∀ {sh r a sh'}, ext sh (.setIdempotency key r) a sh' → cache sh' = some r
  keep : ∀ {sh e a sh'}, ext sh e a sh' → (∀ r, e ≠ .setIdempotency key r) → cache sh' = cache sh

def Keyed (key : String) (req : ι → Request) (j : ι) : Prop := (req j).key = some key

instance (key : String) (req : ι → Request) (j : ι) : Decidable (Keyed key req j) :=
  inferInstanceAs (Decidable ((req j).key = some key))

/-- The next statement of the session asks the cache for the key. -/
def Asking (key : String) : ReqSession → Bool
  | .running (.call (.ext (.getIdempotency k)) _) _ => decide (k = key)
  | _ => false

/-- The session is past its question to the cache and has not ended. -/
def Working (key : String) : ReqSession → Bool
  | .idle => false
  | .ended _ => false
  | x => !Asking key x

def TxUpdate.isExit : TxUpdate → Bool
  | .exit _ _ => true
  | _ => false

/-- The session has flushed a completion and only has to commit it. -/
def Finishing : ReqSession → Bool
  | .running (.pure _) w => w.any fun x => x.2.isExit
  | _ => false

section Condition
variable (key : String) (req : ι → Request) (cache : σ → Option PaymentResponse)

/-- No request of the key misses the cache while another one is at work, and none loses its
commit after it has stored its answer. -/
def Undisturbed (s : ReqSys ι σ) : ReqLabel ι → Prop
  | .stmt j => Keyed key req j → Asking key (s.session j) = true → cache s.shared = none →
      ∀ j', Keyed key req j' → Working key (s.session j') = false
  | .abort j => Keyed key req j → Finishing (s.session j) = false
  | _ => True

instance [Fintype ι] (s : ReqSys ι σ) (l : ReqLabel ι) :
    Decidable (Undisturbed key req cache s l) :=
  match l with
  | .stmt j => inferInstanceAs (Decidable (Keyed key req j → Asking key (s.session j) = true →
      cache s.shared = none → ∀ j', Keyed key req j' → Working key (s.session j') = false))
  | .abort j => inferInstanceAs (Decidable (Keyed key req j → Finishing (s.session j) = false))
  | .begin _ => .isTrue trivial
  | .commit _ _ _ => .isTrue trivial

end Condition

/-- What a phase says about the cache and the session's updates. -/
def Phase.Agrees (c : Option PaymentResponse) (w : List (Id × TxUpdate)) : Phase → Prop
  | .other => True
  | .fresh => w = []
  | .missed => c = none
  | .answered r => c = some r ∧ (w = [] ∨ Reports w r)

/-- A session in step with the cache; rows are locked only after a miss. -/
def CacheOk (key : String) (keyed : Prop) (c : Option PaymentResponse) : ReqSession → Prop
  | .idle => True
  | .ended _ => True
  | .running p w => ∃ g : Phase, (g = .other ↔ ¬ keyed) ∧
      Follows (cacheGuard key) g p Phase.Fits Phase.MayRaise ∧ g.Agrees c w
  | .locking _ _ _ k w => ∃ g : Phase, (g = .other ↔ ¬ keyed) ∧ (g = .missed ∨ g = .other) ∧
      (∀ rows, Follows (cacheGuard key) g (k rows) Phase.Fits Phase.MayRaise) ∧ g.Agrees c w

section Session
variable {key : String} {keyed : Prop} {c c' : Option PaymentResponse} {x : ReqSession}
  {p : Api PaymentResponse} {w w' : List (Id × TxUpdate)} {g : Phase}

theorem fresh_asks (h : Follows (cacheGuard key) .fresh p Phase.Fits Phase.MayRaise) :
    Asking key (.running p w) = true := by
  cases p with
  | pure _ | throw _ => exact h.elim
  | call o k =>
    obtain ⟨ho, -⟩ := h
    cases o with
    | lock _ | update _ _ => exact ho.elim
    | ext e => cases e <;> first | exact decide_eq_true ho | exact ho.elim

theorem missed_not_asking (h : Follows (cacheGuard key) .missed p Phase.Fits Phase.MayRaise) :
    Asking key (.running p w) = false := by
  cases p with
  | pure _ | throw _ => rfl
  | call o k =>
    obtain ⟨ho, -⟩ := h
    cases o with
    | lock _ | update _ _ => rfl
    | ext e => cases e <;> first | exact ho.elim | rfl

/-- An answered request has nothing left to do but return the answer. -/
theorem answered_pure {r : PaymentResponse}
    (h : Follows (cacheGuard key) (.answered r) p Phase.Fits Phase.MayRaise) : p = .pure r := by
  cases p with
  | pure a => exact congrArg Prog.pure h
  | throw _ => exact h.elim
  | call o k => exact h.1.elim

/-- The cache matters only to a keyed session that is at work. -/
theorem CacheOk.of_idle (h : CacheOk key keyed c x) (hw : keyed → Working key x = false) :
    CacheOk key keyed c' x := by
  cases x with
  | idle | ended _ => trivial
  | running p w =>
    obtain ⟨g, hg, hp, ha⟩ := h
    refine ⟨g, hg, hp, ?_⟩
    cases g with
    | other => trivial
    | fresh => exact ha
    | missed =>
      have hk : keyed := not_not.mp fun hk => nomatch hg.mpr hk
      have := hw hk
      simp [Working, missed_not_asking hp] at this
    | answered r =>
      have hk : keyed := not_not.mp fun hk => nomatch hg.mpr hk
      have := hw hk
      simp [Working, answered_pure hp, Asking] at this
  | locking f todo got k w =>
    obtain ⟨g, hg, rfl | rfl, hp, ha⟩ := h
    · have hk : keyed := not_not.mp fun hk => nomatch hg.mpr hk
      have := hw hk
      simp [Working, Asking] at this
    · exact ⟨_, hg, Or.inr rfl, hp, trivial⟩

end Session

section Invariant
variable {key : String} {req : ι → Request} {cache : σ → Option PaymentResponse}
  {ext : σ → (e : Effect) → e.Ans → σ → Prop} {s s' : ReqSys ι σ} {l : ReqLabel ι}

/-- The rows and the cache while at most one request of the key works after a miss. -/
structure Guarded (key : String) (req : ι → Request) (cache : σ → Option PaymentResponse)
    (s : ReqSys ι σ) : Prop where
  rows : Inv txSchema Live Tells Answered s
  sessions : ∀ j, CacheOk key (Keyed key req j) (cache s.shared) (s.session j)
  alone : cache s.shared = none → ∀ j j', Keyed key req j → Keyed key req j' →
    Working key (s.session j) = true → Working key (s.session j') = true → j = j'

omit [DecidableEq ι] in
theorem serves_disciplined (j : ι) (p : Api PaymentResponse) (h : Serves req j p) :
    Disciplined txSchema Live Tells Answered p := h ▸ disciplined_request (req j)

/-- A step of session `j` that leaves the cache alone and starts no second work. -/
theorem Guarded.move {j : ι} {x : ReqSession} (h : Guarded key req cache s)
    (hrows : Inv txSchema Live Tells Answered s')
    (hs : s'.session = Function.update s.session j x) (hc : cache s'.shared = cache s.shared)
    (hx : CacheOk key (Keyed key req j) (cache s.shared) x)
    (hw : cache s.shared = none → Keyed key req j → Working key x = true →
      ∀ j', j' ≠ j → Keyed key req j' → Working key (s.session j') = false) :
    Guarded key req cache s' := by
  refine ⟨hrows, fun j' => ?_, ?_⟩
  · rw [hc, hs]
    by_cases hj : j' = j
    · subst j'
      simpa using hx
    · simpa [hj] using h.sessions j'
  · rw [hc]
    intro hn j₁ j₂ hk₁ hk₂ hw₁ hw₂
    rw [hs] at hw₁ hw₂
    by_cases h₁ : j₁ = j <;> by_cases h₂ : j₂ = j
    · exact h₁.trans h₂.symm
    · subst j₁
      have hidle := hw hn hk₁ (by simpa using hw₁) j₂ h₂ hk₂
      simp [h₂, hidle] at hw₂
    · subst j₂
      have hidle := hw hn hk₂ (by simpa using hw₂) j₁ h₁ hk₁
      simp [h₁, hidle] at hw₁
    · exact h.alone hn j₁ j₂ hk₁ hk₂ (by simpa [h₁] using hw₁) (by simpa [h₂] using hw₂)

omit [DecidableEq ι] in
/-- While a session of the key works after a miss, the others do not. -/
theorem Guarded.others {j : ι} (h : Guarded key req cache s) (hn : cache s.shared = none)
    (hk : Keyed key req j) (hw : Working key (s.session j) = true) :
    ∀ j', j' ≠ j → Keyed key req j' → Working key (s.session j') = false := by
  intro j' hj hk'
  by_contra hw'
  exact hj (h.alone hn j' j hk' hk (by simpa using hw') hw)

theorem request_agrees (key : String) (q : Request) (c : Option PaymentResponse) :
    (q.phase key = .other ↔ ¬ q.key = some key) ∧ (q.phase key).Agrees c [] := by
  unfold Request.phase
  by_cases hk : q.key = some key
  · simp [hk, Phase.Agrees]
  · simp [hk, Phase.Agrees]

theorem missed_next {e : Effect} {a : e.Ans} (ho : (cacheGuard key).allow .missed (.ext e))
    (hne : ∀ r, e ≠ .setIdempotency key r) :
    (cacheGuard key).next .missed (.ext e) a = .missed := by
  cases e with
  | setIdempotency k r =>
    obtain rfl : k = key := ho
    exact (hne r rfl).elim
  | getIdempotency _ => exact ho.elim
  | _ => rfl

omit [DecidableEq ι] in
theorem keyed_of_phase {j : ι} {g : Phase} (hg : g = .other ↔ ¬ Keyed key req j)
    (h : g ≠ .other) : Keyed key req j := not_not.mp fun hk => h (hg.mpr hk)

def OnRows : ApiOp → Prop
  | .ext _ => False
  | _ => True

/-- A locking select or an update goes on in the same phase. -/
theorem row_op_phase {o : ApiOp} {k : o.Ans → Api PaymentResponse} {g : Phase}
    (h : Follows (cacheGuard key) g (.call o k) Phase.Fits Phase.MayRaise)
    (ho : OnRows o) : (g = .missed ∨ g = .other) ∧
      ∀ a, Follows (cacheGuard key) g (k a) Phase.Fits Phase.MayRaise := by
  obtain ⟨hallow, hk⟩ := h
  cases o with
  | ext e => exact ho.elim
  | lock _ | update _ _ =>
    cases g with
    | fresh | answered _ => exact hallow.elim
    | missed => exact ⟨Or.inl rfl, fun a => hk a trivial⟩
    | other => exact ⟨Or.inr rfl, fun a => hk a trivial⟩

theorem Phase.Agrees.extend {g : Phase} {c : Option PaymentResponse}
    {w w' : List (Id × TxUpdate)} (h : g.Agrees c w) (hg : g = .missed ∨ g = .other) :
    g.Agrees c w' := by
  rcases hg with rfl | rfl
  · exact h
  · trivial

/-- The statement that talks to anything but the rows. -/
theorem guarded_effect (hf : Faithful key cache ext) {j : ι} {e : Effect}
    {k : e.Ans → Api PaymentResponse} {w : List (Id × TxUpdate)} {a : e.Ans} {sh : σ}
    (hj : s.session j = .running (.call (.ext e) k) w) (he : ext s.shared e a sh)
    (hu : Undisturbed key req cache s (.stmt j)) (h : Guarded key req cache s)
    (hrows : Inv txSchema Live Tells Answered (Sys.set { s with shared := sh } j
      (.running (k a) w))) :
    Guarded key req cache (Sys.set { s with shared := sh } j (.running (k a) w)) := by
  have hok := h.sessions j
  rw [hj] at hok
  obtain ⟨g, hg, ⟨hallow, hk⟩, ha⟩ := hok
  have hnext := hk a trivial
  cases g with
  | answered r => exact hallow.elim
  | other =>
    have hc : cache sh = cache s.shared := hf.keep he fun r hr => by
      subst hr
      exact hallow rfl
    have hsame : (cacheGuard key).next .other (.ext e) a = .other := by cases e <;> rfl
    rw [hsame] at hnext
    refine h.move hrows rfl hc ⟨.other, hg, hnext, trivial⟩ fun _ hkey => ?_
    exact (hg.mp rfl hkey).elim
  | fresh =>
    have hasks : Asking key (s.session j) = true := by
      rw [hj]
      exact fresh_asks ⟨hallow, hk⟩
    cases e with
    | getIdempotency k' =>
      obtain rfl : k' = key := hallow
      have hc : cache sh = cache s.shared := hf.keep he (by rintro r ⟨⟩)
      have hget : a = cache s.shared := hf.get he
      cases a with
      | none =>
        refine h.move hrows rfl hc ⟨.missed, by simpa using hg, hnext, hget.symm⟩ ?_
        exact fun hn hkey _ j' _ hk' => hu hkey hasks hn j' hk'
      | some r =>
        refine h.move hrows rfl hc ⟨.answered r, by simpa using hg, hnext, hget.symm, Or.inl ha⟩ ?_
        intro hn
        rw [hn] at hget
        cases hget
    | _ => exact hallow.elim
  | missed =>
    have hkey := keyed_of_phase hg fun hother => by cases hother
    have hasks : Asking key (.running (.call (.ext e) k) w) = false :=
      missed_not_asking (show Follows (cacheGuard key) .missed _ _ _ from ⟨hallow, hk⟩)
    have hwork : Working key (s.session j) = true := by
      rw [hj]
      simp [Working, hasks]
    by_cases hset : ∃ r, e = .setIdempotency key r
    · obtain ⟨r, rfl⟩ := hset
      have hc : cache sh = some r := hf.set he
      have hrep : Tells w (.setIdempotency key r) := inv_may h.rows hj
      refine ⟨hrows, fun j' => ?_, fun hn => ?_⟩
      · by_cases hj' : j' = j
        · subst j'
          have hx : CacheOk key (Keyed key req j) (cache sh) (.running (k a) w) :=
            ⟨.answered r, by simpa using hg, hnext, hc, Or.inr hrep⟩
          simpa [Sys.set] using hx
        · have hx : CacheOk key (Keyed key req j') (cache sh) (s.session j') :=
            (h.sessions j').of_idle fun hk' => h.others ha hkey hwork j' hj' hk'
          simpa [Sys.set, hj'] using hx
      · cases hn.symm.trans hc
    · have hne : ∀ r, e ≠ .setIdempotency key r := fun r hr => hset ⟨r, hr⟩
      rw [missed_next hallow hne] at hnext
      refine h.move hrows rfl (hf.keep he hne) ⟨.missed, hg, hnext, ha⟩ ?_
      exact fun hn _ _ => h.others hn hkey hwork

theorem guarded_step (hf : Faithful key cache ext) (hs : ReqStep req ext s l s')
    (hu : Undisturbed key req cache s l) (h : Guarded key req cache s) :
    Guarded key req cache s' := by
  have hrows := inv_step serves_disciplined hs h.rows
  cases hs with
  | @begin j p hj hp =>
    obtain rfl : p = (req j).handler := hp
    obtain ⟨hother, ha⟩ := request_agrees key (req j) (cache s.shared)
    refine h.move hrows rfl rfl ⟨_, hother, follows_request (req j), ha⟩ fun _ hk hw => ?_
    have hfollows : Follows (cacheGuard key) ((req j).phase key) (req j).handler Phase.Fits
        Phase.MayRaise := follows_request (req j)
    rw [Request.phase, if_pos (show (req j).key = some key from hk)] at hfollows
    simp [Working, fresh_asks hfollows] at hw
  | @select j f k w todo hj _ =>
    have hok := h.sessions j
    rw [hj] at hok
    obtain ⟨g, hg, hp, ha⟩ := hok
    obtain ⟨hphase, hk⟩ := row_op_phase (o := .lock f) hp trivial
    refine h.move hrows rfl rfl ⟨g, hg, hphase, hk, ha⟩ fun hn hkey _ => ?_
    exact h.others hn hkey (by rw [hj]; rfl)
  | @acquire j f i todo got k w r hj _ _ =>
    have hok := h.sessions j
    rw [hj] at hok
    refine h.move hrows rfl rfl hok fun hn hkey _ => ?_
    exact h.others hn hkey (by rw [hj]; rfl)
  | @selected j f got k w hj =>
    have hok := h.sessions j
    rw [hj] at hok
    obtain ⟨g, hg, -, hk, ha⟩ := hok
    refine h.move hrows rfl rfl ⟨g, hg, hk got, ha⟩ fun hn hkey _ => ?_
    exact h.others hn hkey (by rw [hj]; rfl)
  | @update j i u k w r hj _ _ =>
    have hok := h.sessions j
    rw [hj] at hok
    obtain ⟨g, hg, hp, ha⟩ := hok
    obtain ⟨hphase, hk⟩ := row_op_phase (o := .update i u) hp trivial
    refine h.move hrows rfl rfl ⟨g, hg, hk (), ha.extend hphase⟩ fun hn hkey _ => ?_
    exact h.others hn hkey (by rw [hj]; rfl)
  | effect hj he => exact guarded_effect hf hj he hu h hrows
  | commit _ => exact h.move hrows rfl rfl trivial fun _ _ hw => nomatch hw
  | abort _ _ => exact h.move hrows rfl rfl trivial fun _ _ hw => nomatch hw

end Invariant

section History
variable {key : String} {req : ι → Request} {cache : σ → Option PaymentResponse}
  {ext : σ → (e : Effect) → e.Ans → σ → Prop} {s s' : ReqSys ι σ} {l : ReqLabel ι}
  {ls : List (ReqLabel ι)}

def Completed (s : ReqSys ι σ) (i : Id) : Prop :=
  ∃ t, txSchema.lookup s.table i = some t ∧ t.status = .completed

/-- What has been answered and completed for the key so far: nothing before an answer is stored;
afterwards only that answer, whose row is completed or about to be. -/
def Told (key : String) (req : ι → Request) (cache : σ → Option PaymentResponse)
    (ls : List (ReqLabel ι)) (s : ReqSys ι σ) : Prop :=
  match cache s.shared with
  | none => ∀ j a w, .commit j a w ∈ ls → Keyed key req j →
      a.success = false ∧ ∀ i, ¬ Completes w i
  | some r => ∃ i, r.success = true ∧ r.transactionId = some i ∧
      (∀ j a w, .commit j a w ∈ ls → Keyed key req j →
        (a.success = true → a = r) ∧ ∀ i', Completes w i' → i' = i) ∧
      (Completed s i ∨
        ∃ j w, Keyed key req j ∧ s.session j = .running (.pure r) w ∧ Completes w i)

/-- A keyed session commits a failure, or the cached answer. -/
theorem keyed_commit {j : ι} {a : PaymentResponse} {w : List (Id × TxUpdate)}
    (hs : ReqStep req ext s (.commit j a w) s') (h : Guarded key req cache s)
    (hk : Keyed key req j) :
    (cache s.shared = none ∧ a.success = false ∧ ∀ i, ¬ Completes w i) ∨
    (cache s.shared = some a ∧ (w = [] ∨ Reports w a)) := by
  have hfits := commit_post hs h.rows
  cases hs with
  | commit hj =>
    have hok := h.sessions j
    rw [hj] at hok
    obtain ⟨g, hg, hp, ha⟩ := hok
    cases g with
    | other => exact (hg.mp rfl hk).elim
    | fresh => exact hp.elim
    | missed =>
      refine Or.inl ⟨ha, hp, ?_⟩
      rcases hfits with hno | hrep
      · exact hno
      · exact absurd (hrep.1.symm.trans hp) (by nofun)
    | answered r =>
      obtain rfl : a = r := hp
      exact Or.inr ha

/-- The row that a commit completes is COMPLETED from then on. -/
theorem completed_commit {j : ι} {a : PaymentResponse} {w : List (Id × TxUpdate)} {i : Id}
    (hs : ReqStep req ext s (.commit j a w) s') (hi : Inv txSchema Live Tells Answered s)
    (hc : Completes w i) : Completed s' i := by
  obtain ⟨now, x, hx⟩ := hc
  have hx := mem_writesTo.mpr hx
  rcases step_change hs hi i with ⟨hl, -⟩ | ⟨j', a', w', t, hl, -, hw, hchain, he⟩
  · rw [hl j a w rfl] at hx
    cases hx
  cases hl
  have hlive : t.status = .active := by
    rcases hus : writesTo w i with _ | ⟨u, us⟩
    · exact (hw hus).elim
    · rw [hus] at hchain
      exact hchain.1
  obtain ⟨-, hno⟩ | ⟨now', x', t', -, -, heq⟩ := liveChain_cases hchain hlive
  · exact (hno now x hx).elim
  · exact ⟨_, he, by rw [heq]; rfl⟩

theorem completed_step {i : Id} (hs : ReqStep req ext s l s')
    (hi : Inv txSchema Live Tells Answered s) (h : Completed s i) : Completed s' i := by
  obtain ⟨t, ht, hc⟩ := h
  have hdead : ¬ Live t := fun hl => nomatch hc.symm.trans hl
  exact ⟨t, (settled_step hs hi ht hdead).1, hc⟩

/-- The stored answer is as good as its commit. -/
theorem finishing_step {j : ι} {r : PaymentResponse} {w : List (Id × TxUpdate)} {i : Id}
    (hs : ReqStep req ext s l s') (hu : Undisturbed key req cache s l)
    (hi : Inv txSchema Live Tells Answered s) (hk : Keyed key req j)
    (hj : s.session j = .running (.pure r) w) (hc : Completes w i) :
    Completed s' i ∨ s'.session j = .running (.pure r) w := by
  have hother : ∀ (j' : ι) (x : ReqSession) (s₀ : ReqSys ι σ), s₀.session = s.session → j ≠ j' →
      (s₀.set j' x).session j = .running (.pure r) w := by
    intro j' x s₀ h₀ hne
    simp [Sys.set, hne, h₀, hj]
  have hstep := hs
  cases hs with
  | begin hj' _ | select hj' _ | acquire hj' _ _ | selected hj' | update hj' _ _
  | effect hj' _ =>
    refine Or.inr (hother _ _ _ rfl ?_)
    rintro rfl
    rw [hj] at hj'
    cases hj'
  | @commit j' a w' hj' =>
    by_cases he : j = j'
    · subst j'
      rw [hj] at hj'
      cases hj'
      exact Or.inl (completed_commit hstep hi hc)
    · exact Or.inr (hother _ _ _ rfl he)
  | @abort j' _ _ =>
    refine Or.inr (hother _ _ _ rfl ?_)
    rintro rfl
    obtain ⟨now, x, hx⟩ := hc
    have hfin := hu hk
    rw [hj] at hfin
    simpa [TxUpdate.isExit] using List.any_eq_false.mp hfin _ hx

/-- The cache changes only when a keyed session stores its answer. -/
theorem cache_step (hf : Faithful key cache ext) (hs : ReqStep req ext s l s')
    (h : Guarded key req cache s) :
    cache s'.shared = cache s.shared ∨
    ∃ j r w, l = .stmt j ∧ Keyed key req j ∧ cache s.shared = none ∧ cache s'.shared = some r ∧
      Reports w r ∧ s'.session j = .running (.pure r) w := by
  cases hs with
  | begin _ _ | select _ _ | acquire _ _ _ | selected _ | update _ _ _ | commit _ | abort _ _ =>
    exact Or.inl rfl
  | @effect j e k w a sh hj he =>
    by_cases hset : ∃ r, e = .setIdempotency key r
    · obtain ⟨r, rfl⟩ := hset
      have hrep : Tells w (.setIdempotency key r) := inv_may h.rows hj
      have hok := h.sessions j
      rw [hj] at hok
      obtain ⟨g, hg, ⟨hallow, hk⟩, ha⟩ := hok
      cases g with
      | other => exact (hallow rfl).elim
      | fresh | answered _ => exact hallow.elim
      | missed =>
        have hkey := keyed_of_phase hg (by nofun)
        have hpure := answered_pure (r := r) (hk a trivial)
        exact Or.inr ⟨j, r, w, rfl, hkey, ha, hf.set he, hrep, by simp [Sys.set, hpure]⟩
    · exact Or.inl (hf.keep he fun r hr => hset ⟨r, hr⟩)

theorem told_step (hf : Faithful key cache ext) (hs : ReqStep req ext s l s')
    (hu : Undisturbed key req cache s l) (h : Guarded key req cache s)
    (ht : Told key req cache ls s) : Told key req cache (ls ++ [l]) s' := by
  unfold Told at *
  rcases cache_step hf hs h with hc | ⟨j, r, w, rfl, hk, hn, hr, hrep, hj⟩
  · rw [hc]
    rcases hcache : cache s.shared with _ | r <;> rw [hcache] at ht
    · intro j a w hmem hk
      rcases List.mem_append.mp hmem with hmem | hmem
      · exact ht j a w hmem hk
      · obtain rfl := List.mem_singleton.mp hmem
        rcases keyed_commit hs h hk with ⟨-, hfail⟩ | ⟨hsome, -⟩
        · exact hfail
        · exact absurd (hcache.symm.trans hsome) (by nofun)
    · obtain ⟨i, hsucc, hid, hall, hrow⟩ := ht
      refine ⟨i, hsucc, hid, fun j a w hmem hk => ?_, ?_⟩
      · rcases List.mem_append.mp hmem with hmem | hmem
        · exact hall j a w hmem hk
        · obtain rfl := List.mem_singleton.mp hmem
          rcases keyed_commit hs h hk with ⟨hnone, -⟩ | ⟨hsome, hw⟩
          · exact absurd (hcache.symm.trans hnone) (by nofun)
          · obtain rfl : r = a := Option.some.inj (hcache.symm.trans hsome)
            refine ⟨fun _ => rfl, fun i' hi' => ?_⟩
            rcases hw with rfl | ⟨-, i'', hid', hone⟩
            · exact (not_completes_nil i' hi').elim
            · rw [hid] at hid'
              cases hid'
              exact (hone i').mp hi'
      · rcases hrow with hrow | ⟨j, w, hk, hj, hw⟩
        · exact Or.inl (completed_step hs h.rows hrow)
        · rcases finishing_step hs hu h.rows hk hj hw with hrow | hj'
          · exact Or.inl hrow
          · exact Or.inr ⟨j, w, hk, hj', hw⟩
  · rw [hn] at ht
    rw [hr]
    obtain ⟨hsucc, i, hid, hone⟩ := hrep
    refine ⟨i, hsucc, hid, fun j' a w' hmem hk' => ?_, Or.inr ⟨j, w, hk, hj, (hone i).mpr rfl⟩⟩
    rcases List.mem_append.mp hmem with hmem | hmem
    · obtain ⟨hfail, hno⟩ := ht j' a w' hmem hk'
      exact ⟨fun hs => absurd (hs.symm.trans hfail) (by nofun), fun i' hi' => (hno i' hi').elim⟩
    · cases List.mem_singleton.mp hmem

variable {xs : List (ReqLabel ι × ReqSys ι σ)}

/-- Before the requests arrive: distinct rows, nothing running, and no answer under the key. -/
structure Fresh (cache : σ → Option PaymentResponse) (s : ReqSys ι σ) : Prop where
  ids : (s.table.map (·.id)).Nodup
  idle : ∀ j, s.session j = .idle
  unused : cache s.shared = none

theorem told_path (hf : Faithful key cache ext) (hs : Fresh cache s)
    (h : Path (fun s l s' => ReqStep req ext s l s' ∧ Undisturbed key req cache s l) s xs) :
    Guarded key req cache (finish s xs) ∧ Told key req cache (xs.map Prod.fst) (finish s xs) := by
  have hguard : Guarded key req cache s := by
    refine ⟨inv_initial hs.ids hs.idle, fun j => ?_, fun _ j _ _ _ hw => ?_⟩
    · rw [hs.idle j]
      trivial
    · rw [hs.idle j] at hw
      cases hw
  have htold : Told key req cache [] s := by
    unfold Told
    rw [hs.unused]
    rintro j a w ⟨⟩
  have hstart : Guarded key req cache s ∧ Told key req cache [] s := ⟨hguard, htold⟩
  refine h.history (Q := fun ls s => Guarded key req cache s ∧ Told key req cache ls s) ?_ hstart
  rintro ls s l s' ⟨hstep, hu⟩ ⟨hg, ht⟩
  exact ⟨guarded_step hf hstep hu hg, told_step hf hstep hu hg ht⟩

/-- Undisturbed requests of one key pay for at most one stay, and every success tells the same. -/
theorem one_payment_per_key (hf : Faithful key cache ext) (hs : Fresh cache s)
    (h : Path (fun s l s' => ReqStep req ext s l s' ∧ Undisturbed key req cache s l) s xs) :
    (∀ j a w, .commit j a w ∈ xs.map Prod.fst → Keyed key req j → a.success = true →
      ∀ j' a' w', .commit j' a' w' ∈ xs.map Prod.fst → Keyed key req j' → a'.success = true →
        a = a') ∧
    (∀ j a w i, .commit j a w ∈ xs.map Prod.fst → Keyed key req j → Completes w i →
      ∀ j' a' w' i', .commit j' a' w' ∈ xs.map Prod.fst → Keyed key req j' → Completes w' i' →
        i = i') ∧
    ((∀ j, Keyed key req j →
        (finish s xs).session j = .idle ∨ ∃ a, (finish s xs).session j = .ended a) →
      ∀ j a w, .commit j a w ∈ xs.map Prod.fst → Keyed key req j → a.success = true →
        ∃ i, a.transactionId = some i ∧ Completed (finish s xs) i) := by
  have htold := (told_path hf hs h).2
  unfold Told at htold
  rcases hc : cache (finish s xs).shared with _ | r <;> rw [hc] at htold
  · refine ⟨fun j a w hm hk hsucc => ?_, fun j a w i hm hk hi => ?_, fun _ j a w hm hk hsucc => ?_⟩
    · exact absurd (hsucc.symm.trans (htold j a w hm hk).1) (by nofun)
    · exact ((htold j a w hm hk).2 i hi).elim
    · exact absurd (hsucc.symm.trans (htold j a w hm hk).1) (by nofun)
  · obtain ⟨i, -, hid, hall, hrow⟩ := htold
    refine ⟨fun j a w hm hk hsucc j' a' w' hm' hk' hsucc' => ?_,
      fun j a w i₁ hm hk hi j' a' w' i₂ hm' hk' hi' => ?_, fun hend j a w hm hk hsucc => ?_⟩
    · exact ((hall j a w hm hk).1 hsucc).trans ((hall j' a' w' hm' hk').1 hsucc').symm
    · exact ((hall j a w hm hk).2 i₁ hi).trans ((hall j' a' w' hm' hk').2 i₂ hi').symm
    · obtain rfl := (hall j a w hm hk).1 hsucc
      refine ⟨i, hid, ?_⟩
      rcases hrow with hrow | ⟨j', w', hk', hj', -⟩
      · exact hrow
      · rcases hend j' hk' with hidle | ⟨a', hended⟩
        · exact absurd (hj'.symm.trans hidle) (by nofun)
        · exact absurd (hj'.symm.trans hended) (by nofun)

end History

section Retries

def stores (key : String) : Effect → Bool
  | .setIdempotency k _ => decide (k = key)
  | _ => false

/-- The answers of a world whose Redis is up and lets the entry of the key live. -/
def lastingAnswer (key : String) (w : World) (e : Effect) : Option (e.Ans × World) :=
  (worldAnswer w e).filter fun x => !w.redisDown &&
    (stores key e || decide (x.2.cachedAnswer (some key) = w.cachedAnswer (some key)))

def LastingExt (key : String) (w : World) (e : Effect) (a : e.Ans) (w' : World) : Prop :=
  lastingAnswer key w e = some (a, w')

theorem faithful_lasting {key : String} (hk : key ≠ "") :
    Faithful key (fun w => w.cachedAnswer (some key)) (LastingExt key) := by
  have htruthy : truthy (some key) = some key := by simp [truthy, hk]
  constructor
  · intro w a w' h
    obtain ⟨hw, -⟩ := Option.filter_eq_some_iff.mp h
    cases hw
    simp only [World.cachedAnswer, htruthy, Option.bind_some]
  · intro w r a w' h
    obtain ⟨hw, hup⟩ := Option.filter_eq_some_iff.mp h
    have hdown : w.redisDown = false := by simpa [stores] using hup
    simp only [worldAnswer, execEffect, hdown] at hw
    cases hw
    have hlate : w.now < w.expiry idempotencyTtl := by
      simp [World.expiry, idempotencyTtl, microsPerSecond]
    simp [World.cachedAnswer, htruthy, World.setIdempotency, World.live, setKey, hdown, hlate]
  · intro w e a w' h hne
    obtain ⟨-, hkeep⟩ := Option.filter_eq_some_iff.mp h
    have hother : stores key e = false := by
      cases e with
      | setIdempotency k r => exact decide_eq_false fun hkk => hne r (hkk ▸ rfl)
      | _ => rfl
    simpa [hother] using (Bool.and_eq_true_iff.mp hkeep).2

/-- Two cars whose operators noted the same plate. -/
def twins : World :=
  let arrival : Call := .entry { plateNumber := some "B1234XY", vehicleTypeId := some 1 }
  { arrival.after (arrival.after booth) with now := DateTime.microsPerHour }

def keyedCash : Request :=
  .cash (some "k-1") none
    { gateId := "OUT1", gateOutId := 2, plateNumber := some "B1234XY", paidAmount := 10000 }

/-- The answer to the payment of one of them. -/
def paid (i : Id) : PaymentResponse :=
  cashResponse { transaction := { id := i, entryTime := .utc 0 }, fee := 3000, changeAmount := 7000 }

abbrev ReqTurn := Turn Bool Id ParkingTransaction TxUpdate Effect.Ans Exc PaymentResponse

def runTurns (ts : List ReqTurn) : List (ReqLabel Bool × ReqSys Bool World) :=
  takeTurns txSchema worldAnswer (sessionsOver _ twins) ts

/-- Both requests ask the cache before either has an answer to store. -/
def overlap : List ReqTurn :=
  [.begin true keyedCash.handler, .begin false keyedCash.handler, .go true, .go false]
  ++ List.replicate 24 (.go true) ++ List.replicate 24 (.go false)

/-- The commit of the first request fails after its answer has been stored. -/
def lostCommit : List ReqTurn :=
  [.begin true keyedCash.handler] ++ List.replicate 14 (.go true) ++
  [.abort true, .begin false keyedCash.handler] ++ List.replicate 24 (.go false)

theorem begin_not_go {j : Bool} {p : Api PaymentResponse} (n : Nat) (b : Bool) :
    Turn.begin j p ∉ List.replicate n (Turn.go b : ReqTurn) := by
  intro h
  cases List.eq_of_mem_replicate h

theorem overlap_serves (j : Bool) (p : Api PaymentResponse) (h : .begin j p ∈ overlap) :
    Serves (fun _ => keyedCash) j p := by
  simp only [overlap, List.mem_append, begin_not_go, or_false] at h
  rcases h with h
  simp only [List.mem_cons, List.not_mem_nil, or_false, reduceCtorEq] at h
  rcases h with h | h <;> cases h <;> rfl

theorem lostCommit_serves (j : Bool) (p : Api PaymentResponse) (h : .begin j p ∈ lostCommit) :
    Serves (fun _ => keyedCash) j p := by
  simp only [lostCommit, List.mem_append, begin_not_go, or_false, List.mem_cons, List.not_mem_nil,
    reduceCtorEq, false_or] at h
  rcases h with h | h <;> cases h <;> rfl

/-- Two overlapping requests of one key pay for both cars; and after a lost commit the retry is
told of a payment that does not exist. -/
theorem key_pays_twice :
    let start : ReqSys Bool World := sessionsOver _ twins
    Fresh (fun w => w.cachedAnswer (some "k-1")) start ∧
    (Path (ReqStep (fun _ => keyedCash) WorldExt) start (runTurns overlap) ∧
      ((runTurns overlap).map Prod.fst).filterMap committed = [(true, paid 1), (false, paid 2)] ∧
      (finish start (runTurns overlap)).table.map (·.status) = [.completed, .completed]) ∧
    (Path (ReqStep (fun _ => keyedCash) WorldExt) start (runTurns lostCommit) ∧
      ((runTurns lostCommit).map Prod.fst).filterMap committed = [(false, paid 1)] ∧
      (finish start (runTurns lostCommit)).table.map (·.status) = [.active, .active]) :=
  ⟨⟨by decide, fun _ => rfl, rfl⟩,
    ⟨takeTurns_path (fun _ _ _ _ h => h) overlap_serves, rfl, rfl⟩,
    ⟨takeTurns_path (fun _ _ _ _ h => h) lostCommit_serves, rfl, rfl⟩⟩

/-- The first answer is lost on the way and the request is sent again. -/
def retry : List ReqTurn :=
  [.begin true keyedCash.handler] ++ List.replicate 24 (.go true) ++
  [.begin false keyedCash.handler] ++ List.replicate 24 (.go false)

def retryRun : List (ReqLabel Bool × ReqSys Bool World) :=
  takeTurns txSchema (lastingAnswer "k-1") (sessionsOver _ twins) retry

theorem one_payment_per_key_retry :
    ∃ i, (paid 1).transactionId = some i ∧
      Completed (finish (sessionsOver PaymentResponse twins) retryRun) i := by
  have hserves : ∀ (j : Bool) p, .begin j p ∈ retry → Serves (fun _ => keyedCash) j p := by
    intro j p h
    simp only [retry, List.mem_append, begin_not_go, or_false, List.mem_cons, List.not_mem_nil] at h
    rcases h with h | h <;> cases h <;> rfl
  have hpath : Path (fun s l s' => ReqStep (fun _ => keyedCash) (LastingExt "k-1") s l s' ∧
      Undisturbed "k-1" (fun _ => keyedCash) (fun w => w.cachedAnswer (some "k-1")) s l)
      (sessionsOver _ twins) retryRun :=
    (takeTurns_path (fun _ _ _ _ h => h) hserves).and (by decide)
  refine (one_payment_per_key (faithful_lasting (by decide)) ⟨by decide, fun _ => rfl, rfl⟩
    hpath).2.2 ?_ true _ _ (List.mem_of_getElem? (i := 15) rfl) rfl rfl
  intro j _
  cases j <;> exact Or.inr ⟨_, rfl⟩

end Retries
end ParkIt
