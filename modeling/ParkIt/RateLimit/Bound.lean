import ParkIt.Lib.Sessions
import ParkIt.RateLimit.Limiter

/-! Limited requests side by side over one Redis. -/
namespace ParkIt.RateLimit

open Effects Sessions Scores Transition

/-- A request that has put its timestamp into the set of its key. -/
structure Admission where
  call : Call
  time : ℚ
deriving DecidableEq

/-- How far a request has come. -/
structure Note where
  call : Call
  now : Option ℚ := none
  /-- The members of the set, as it has counted them. -/
  counted : Option Nat := none
  admitted : Option Admission := none
deriving DecidableEq

namespace Note
variable (str : ℚ → String) (g : Note)

def next : (o : LimitOp) → o.Ans → Note
  | .time, now => { g with now := some now }
  | .redis (.zcard _), .ok n => { g with counted := some n }
  | .redis (.zadd _ _ now), .ok _ => { g with admitted := some ⟨g.call, now⟩ }
  | _, _ => g

def allow : LimitOp → Prop
  | .redis (.zadd key member now) =>
    key = g.call.key ∧ member = str now ∧ ∃ n, g.counted = some n ∧ n < g.call.maxRequests
  | .memory _ _ _ => False
  | _ => True

end Note

section Machine
variable (str : ℚ → String)

def limitRules : Protocol LimitOp LimitOp.Ans Note where
  allow := Note.allow str
  expect
    | _, .redis _, a => ∃ v, a = .ok v
    | _, _, _ => True
  next := Note.next

/-- A working Redis. The clocks of the workers show anything; that of Redis goes on. -/
def limitMachine : Machine LimitOp LimitOp.Ans LimitExc (Bool × Int) Redis Unit Note Admission where
  starts p _ g := ∃ c : Call, p = c.code str ∧ g = { call := c }
  act
    | .redis c, r, _, a, r', _ => a = .ok (r.execute c).1 ∧ r' = (r.execute c).2
    | _, r, _, _, r', _ => r' = r
  fails _ _ _ _ := False
  during _ _ _ _ := False
  outside r r' := ∃ clock, r.clock ≤ clock ∧ r' = r.later clock
  protocol := limitRules str
  record
    | g, .redis (.zadd _ _ now), some (.ok _) => [⟨g.call, now⟩]
    | _, _, _ => []

abbrev LimitSys (ι : Type) :=
  Sys ι LimitOp LimitOp.Ans LimitExc (Bool × Int) Redis Unit Note Admission

variable {ι : Type}

/-- When a timestamp is added: the set has not grown since the request has counted it, it does not
have the timestamp, and it has those of the requests admitted less than a window apart. -/
def Orderly (s : LimitSys ι) (l : Label ι LimitOp) (t : LimitSys ι) : Prop :=
  match l with
  | .start j => ∀ x ∈ t.session j, x.note.call ≠ .booth ""
  | .go j (.redis (.zadd key member now)) => ∀ x ∈ s.session j,
    (∀ n ∈ x.note.counted, (s.shared.keys key).set.card ≤ n) ∧
    member ∉ (s.shared.keys key).set ∧
    ∀ e ∈ s.log, e.call = x.note.call → |e.time - now| < e.call.window →
      str e.time ∈ (s.shared.keys key).set
  | _ => True

instance (s : LimitSys ι) (l : Label ι LimitOp) (t : LimitSys ι) :
    Decidable (Orderly str s l t) := by
  unfold Orderly
  split <;> infer_instance

end Machine

/-- What has been admitted of a call at the times that `p` holds of. -/
def admissions (log : List Admission) (c : Call) (p : ℚ → Bool) : Nat :=
  log.countP fun e => e.call = c ∧ p e.time

/-- In every half-open window no more requests are admitted than the limit says, and every answer
that admits its request is one of them. -/
structure Kept {ι : Type} (s : LimitSys ι) : Prop where
  upTo : ∀ (c : Call) (a : ℚ),
    admissions s.log c (fun t => a < t ∧ t ≤ a + c.window) ≤ c.maxRequests
  since : ∀ (c : Call) (a : ℚ),
    admissions s.log c (fun t => a ≤ t ∧ t < a + c.window) ≤ c.maxRequests
  answered : ∀ j x wait, s.session j = some x → x.rest = .pure (true, wait) →
    ∃ e ∈ s.log, x.note.admitted = some e ∧ e.call = x.note.call

section Following
variable {str : ℚ → String} {g : Note}

theorem follows_redis {c : Command} {post : Note → c.Val → Prop} {err : Note → LimitExc → Prop}
    (hallow : g.allow str (.redis c)) (hpost : ∀ v, post (g.next (.redis c) (.ok v)) v) :
    Follows (limitRules str) g (redis c) post err := by
  refine ⟨hallow, fun a ha => ?_⟩
  obtain ⟨v, rfl⟩ := ha
  exact hpost v

/-- An admitting answer comes after the timestamp has been added. -/
def Settled (g : Note) (answer : Bool × Int) : Prop :=
  answer.1 = true → g.call = .booth "" ∨ ∃ e, g.admitted = some e ∧ e.call = g.call

theorem follows_checkLimit (key : String) (maxRequests window : Nat) :
    Follows (limitRules str) { call := .limit key maxRequests window }
      (checkLimit str key maxRequests window) Settled fun _ _ => True := by
  refine follows_handle.mpr (follows_bind.mpr (follows_redis trivial fun _ => ?_))
  refine follows_bind.mpr (follows_perform.mpr ⟨trivial, fun now _ => ?_⟩)
  refine follows_bind.mpr (follows_redis trivial fun _ => ?_)
  refine follows_bind.mpr (follows_redis trivial fun count => ?_)
  refine follows_ite (fun _ => ?_) fun hroom => ?_
  · refine follows_bind.mpr (follows_redis trivial fun oldest => ?_)
    cases oldest with
    | none => exact fun h => Bool.noConfusion h
    | some oldest => exact fun h => Bool.noConfusion h
  · refine follows_bind.mpr (follows_redis ⟨rfl, rfl, count, rfl, by exact Nat.lt_of_not_le hroom⟩
      fun _ => ?_)
    refine follows_bind.mpr (follows_redis trivial fun _ => ?_)
    exact fun _ => .inr ⟨_, rfl, rfl⟩

theorem follows_booth (gateId : String) :
    Follows (limitRules str) { call := .booth gateId } ((Call.booth gateId).code str)
      Settled fun _ _ => True := by
  refine follows_handle.mpr (follows_bind.mpr ?_)
  refine follows_ite (fun hempty => ?_) fun hgate => ?_
  · subst hempty
    exact fun _ => .inl rfl
  refine follows_handle.mpr (follows_bind.mpr (follows_redis trivial fun _ => ?_))
  refine follows_bind.mpr (follows_perform.mpr ⟨trivial, fun now _ => ?_⟩)
  refine follows_bind.mpr (follows_redis trivial fun _ => ?_)
  refine follows_bind.mpr (follows_redis trivial fun count => ?_)
  refine follows_ite (fun _ => ?_) fun hroom => ?_
  · refine follows_bind.mpr (follows_redis trivial fun oldest => ?_)
    exact fun h => Bool.noConfusion h
  · refine follows_bind.mpr (follows_redis ⟨rfl, rfl, count, rfl, by exact Nat.lt_of_not_le hroom⟩
      fun _ => ?_)
    refine follows_redis trivial fun _ => ?_
    exact fun _ => .inr ⟨_, rfl, rfl⟩

theorem follows_code (c : Call) :
    Follows (limitRules str) { call := c } (c.code str) Settled fun _ _ => True := by
  cases c with
  | limit key maxRequests window => exact follows_checkLimit key maxRequests window
  | booth gateId => exact follows_booth gateId

end Following

/-- Times that lie less than a window of the call apart. -/
def Spread (c : Call) (p : ℚ → Bool) : Prop := ∀ t t', p t → p t' → |t - t'| < c.window

theorem spread_upTo (c : Call) (a : ℚ) : Spread c fun t => a < t ∧ t ≤ a + c.window := by
  intro t t' ht ht'
  obtain ⟨hl, hr⟩ := of_decide_eq_true ht
  obtain ⟨hl', hr'⟩ := of_decide_eq_true ht'
  rw [abs_lt]
  constructor <;> linarith

theorem spread_since (c : Call) (a : ℚ) : Spread c fun t => a ≤ t ∧ t < a + c.window := by
  intro t t' ht ht'
  obtain ⟨hl, hr⟩ := of_decide_eq_true ht
  obtain ⟨hl', hr'⟩ := of_decide_eq_true ht'
  rw [abs_lt]
  constructor <;> linarith

section Counting
variable {str : ℚ → String} {log : List Admission} {c : Call} {p : ℚ → Bool}
  {set : ScoreSet String ℚ} {e : Admission}

/-- Requests of one call less than a window apart have timestamps with different texts. -/
def Apart (str : ℚ → String) (e e' : Admission) : Prop :=
  e.call = e'.call → |e.time - e'.time| < e.call.window → str e.time ≠ str e'.time

/-- A set that has the timestamps of some requests has at least as many members. -/
theorem admissions_le_card (hapart : log.Pairwise (Apart str)) (hp : Spread c p)
    (hmem : ∀ e ∈ log, e.call = c → p e.time → str e.time ∈ set) :
    admissions log c p ≤ set.card := by
  have hnodup : ((log.filter fun e => e.call = c ∧ p e.time).map fun e => str e.time).Nodup := by
    rw [List.nodup_iff_pairwise_ne, List.pairwise_map, List.pairwise_filter]
    refine hapart.imp fun {e e'} h he he' => ?_
    obtain ⟨hc, ht⟩ := of_decide_eq_true he
    obtain ⟨hc', ht'⟩ := of_decide_eq_true he'
    exact h (hc.trans hc'.symm) (hc ▸ hp _ _ ht ht')
  have hsub : ((log.filter fun e => e.call = c ∧ p e.time).map fun e => str e.time) ⊆
      set.entries.map Prod.fst := by
    intro m hm
    obtain ⟨e, he, rfl⟩ := List.mem_map.mp hm
    obtain ⟨hlog, hpe⟩ := List.mem_filter.mp he
    obtain ⟨hc, ht⟩ := of_decide_eq_true hpe
    exact hmem e hlog hc ht
  have hlength := (hnodup.subperm hsub).length_le
  rw [List.length_map, List.length_map] at hlength
  rw [admissions, List.countP_eq_length_filter]
  exact hlength

theorem admissions_snoc : admissions (log ++ [e]) c p =
    admissions log c p + if e.call = c ∧ p e.time then 1 else 0 := by
  rw [admissions, List.countP_append, List.countP_singleton, admissions]
  congr 1
  exact if_congr decide_eq_true_iff rfl rfl

end Counting

section Runs
variable {ι : Type} [DecidableEq ι] {str : ℚ → String} {s t : LimitSys ι} {l : Label ι LimitOp}
  {j : ι} {key member : String} {now : ℚ}

variable (str) in
structure Sound (s : LimitSys ι) : Prop where
  promises : Promises (limitMachine str) Settled s
  apart : s.log.Pairwise (Apart str)
  bounded : ∀ c p, Spread c p → admissions s.log c p ≤ c.maxRequests
  entered : ∀ j x e, s.session j = some x → x.note.admitted = some e → e ∈ s.log
  limited : ∀ j x, s.session j = some x → x.note.call ≠ .booth ""

/-- What a request that adds its timestamp puts on record. -/
theorem log_step (h : Step (limitMachine str) s l t) : t.log = s.log ∨
    ∃ j key member now a x y, l = .go j (.redis (.zadd key member now)) ∧
      Took (limitMachine str) s t j (.redis (.zadd key member now)) a x y ∧
      t.log = s.log ++ [⟨x.note.call, now⟩] := by
  cases h with
  | start _ _ | stop _ | during _ _ | outside _ => exact .inl rfl
  | fail _ hfails => exact hfails.elim
  | @go j o k own note a sh own' hj hact =>
    have hsame : (limitMachine str).record note o (some a) = [] →
        s.log ++ (limitMachine str).record note o (some a) = s.log := by
      intro hnil
      rw [hnil, List.append_nil]
    cases o with
    | time => exact .inl (hsame rfl)
    | memory key maxRequests window => exact .inl (hsame rfl)
    | redis c =>
      cases c with
      | zadd key member now =>
        obtain ⟨rfl, hshared⟩ := hact
        exact .inr ⟨j, key, member, now, _, _, _, rfl, ⟨hj, ⟨_, rfl, rfl⟩, ⟨rfl, hshared⟩,
          session_set_self, fun _ hne => Function.update_of_ne hne .., rfl, rfl⟩, rfl⟩
      | connect | zremrangebyscore _ _ _ | zcard _ | oldest _ | expire _ _ =>
        exact .inl (hsame rfl)

theorem next_call (g : Note) (o : LimitOp) (a : o.Ans) : (g.next o a).call = g.call := by
  unfold Note.next
  split <;> rfl

/-- A request that is admitted by its step is put on record by it. -/
theorem next_admitted {g : Note} {o : LimitOp} {a : o.Ans} {e : Admission}
    (h : (g.next o a).admitted = some e) :
    g.admitted = some e ∨ e ∈ (limitMachine str).record g o (some a) := by
  unfold Note.next at h
  split at h
  · exact .inl h
  · exact .inl h
  · exact .inr (List.mem_singleton.mpr (Option.some.inj h).symm)
  · exact .inl h

theorem entered_step {x : Session LimitOp LimitOp.Ans LimitExc (Bool × Int) Unit Note}
    {e : Admission} (h : Step (limitMachine str) s l t) (hs : Sound str s)
    (hx : t.session j = some x) (he : x.note.admitted = some e) : e ∈ t.log := by
  rcases session_back h hx with hx | ⟨-, -, _, -, hnote⟩ | ⟨o, a, w, -, ht⟩
  · exact log_mono h (hs.entered j x e hx he)
  · rw [hnote] at he
    cases he
  · rw [ht.note] at he
    rcases next_admitted he with he | he
    · exact log_mono h (hs.entered j w e ht.before he)
    · rw [ht.log]
      exact List.mem_append_right _ he

theorem limited_step {x : Session LimitOp LimitOp.Ans LimitExc (Bool × Int) Unit Note}
    (h : Step (limitMachine str) s l t) (ho : Orderly str s l t) (hs : Sound str s)
    (hx : t.session j = some x) : x.note.call ≠ .booth "" := by
  rcases session_back h hx with hx | ⟨rfl, -, -⟩ | ⟨o, a, w, -, ht⟩
  · exact hs.limited j x hx
  · exact ho x hx
  · have hcall : x.note.call = w.note.call := by
      rw [ht.note]
      exact next_call ..
    rw [hcall]
    exact hs.limited j w ht.before

omit [DecidableEq ι] in
/-- There is room for the request that adds its timestamp, and nobody near has the same one. -/
theorem room_step {a : LimitOp.Ans (.redis (.zadd key member now))}
    {x y : Session LimitOp LimitOp.Ans LimitExc (Bool × Int) Unit Note}
    (ht : Took (limitMachine str) s t j (.redis (.zadd key member now)) a x y)
    (ho : Orderly str s (.go j (.redis (.zadd key member now))) t) (hs : Sound str s) :
    (∀ e ∈ s.log, Apart str e ⟨x.note.call, now⟩) ∧
      ∀ p, Spread x.note.call p → p now →
        admissions s.log x.note.call p < x.note.call.maxRequests := by
  obtain ⟨-, rfl, n, hcounted, hroom⟩ := ht.allow hs.promises
  obtain ⟨hcard, hnew, hkept⟩ := ho x ht.before
  refine ⟨fun e he hcall hnear heq => hnew (heq ▸ hkept e he hcall hnear), fun p hp hnow => ?_⟩
  have hle := admissions_le_card hs.apart hp fun e he hcall hpe =>
    hkept e he hcall (by rw [hcall]; exact hp _ _ hpe hnow)
  have hgrown := hcard n hcounted
  omega

theorem sound_step (h : Step (limitMachine str) s l t) (ho : Orderly str s l t)
    (hs : Sound str s) : Sound str t := by
  have hpromises : Promises (limitMachine str) Settled t := by
    refine promises_step h ?_ ?_ hs.promises
    · rintro p own note ⟨c, rfl, rfl⟩
      exact follows_code c
    · intro note o sh own a sh' own' hact
      cases o with
      | redis c => exact ⟨_, hact.1⟩
      | time | memory _ _ _ => trivial
  have hentered : ∀ j x e, t.session j = some x → x.note.admitted = some e → e ∈ t.log :=
    fun j x e => entered_step h hs
  have hlimited : ∀ j x, t.session j = some x → x.note.call ≠ .booth "" :=
    fun j x => limited_step h ho hs
  rcases log_step h with hlog | ⟨j, key, member, now, a, x, y, rfl, ht, hlog⟩
  · exact ⟨hpromises, hlog ▸ hs.apart, hlog ▸ hs.bounded, hentered, hlimited⟩
  · obtain ⟨hapart, hroom⟩ := room_step ht ho hs
    refine ⟨hpromises, ?_, fun c p hp => ?_, hentered, hlimited⟩
    · rw [hlog, List.pairwise_append]
      refine ⟨hs.apart, List.pairwise_singleton .., fun e he e' he' => ?_⟩
      obtain rfl := List.mem_singleton.mp he'
      exact hapart e he
    · have hold := hs.bounded c p hp
      rw [hlog, admissions_snoc]
      split
      · rename_i hnow
        obtain ⟨rfl, hnow⟩ := hnow
        exact hroom p hp hnow
      · omega

omit [DecidableEq ι] in
theorem Sound.kept (hs : Sound str s) : Kept s := by
  refine ⟨fun c a => hs.bounded c _ (spread_upTo c a), fun c a => hs.bounded c _ (spread_since c a),
    fun j x wait hx hrest => ?_⟩
  have hsettled : Settled x.note (true, wait) := by
    have hfollows := hs.promises j x hx
    rw [hrest] at hfollows
    exact hfollows
  rcases hsettled rfl with hbooth | ⟨e, he, hcall⟩
  · exact absurd hbooth (hs.limited j x hx)
  · exact ⟨e, hs.entered j x e hx he, he, hcall⟩

variable (str) in
omit [DecidableEq ι] in
theorem sound_quiet (h : s.Quiet) : Sound str s := by
  refine ⟨h.promises, ?_, fun c p _ => ?_, fun j x e hx => ?_, fun j x hx => ?_⟩
  · rw [h.2]
    exact .nil
  · rw [h.2]
    exact Nat.zero_le _
  · rw [h.1 j] at hx
    cases hx
  · rw [h.1 j] at hx
    cases hx

/-- In a run that keeps to the order, the limits hold in every state. -/
theorem limits_kept {xs : List (Label ι LimitOp × LimitSys ι)}
    (h : Path (Step (limitMachine str)) s xs) (hquiet : s.Quiet) (ho : Path (Orderly str) s xs) :
    Path (fun _ _ t => Kept t) s xs :=
  (h.and ho).each (fun _ _ _ h hs => sound_step h.1 h.2 hs)
    (fun _ _ _ h hs => (sound_step h.1 h.2 hs).kept) (sound_quiet str hquiet)

section Schedules

/-- Workers whose clocks are that of Redis. -/
def sharedClock (o : LimitOp) (r : Redis) (_ : Unit) : Option o.Ans × Redis × Unit :=
  match o with
  | .redis c => (some (.ok (r.execute c).1), (r.execute c).2, ())
  | .time => (some r.clock, r, ())
  | .memory _ _ _ => (some (false, 0), r, ())

def attempt (j : Nat) : Turn Nat LimitOp LimitOp.Ans LimitExc (Bool × Int) Redis Unit Note :=
  .start j (checkLimit wholeSeconds "login" 1 60) () { call := .limit "login" 1 60 }

def pass (seconds : Nat) : Turn Nat LimitOp LimitOp.Ans LimitExc (Bool × Int) Redis Unit Note :=
  .outside fun r => r.later (r.clock + seconds)

/-- Two attempts where one is allowed, in an order of their operations. -/
def attempts (order : List (Turn Nat LimitOp LimitOp.Ans LimitExc (Bool × Int) Redis Unit Note)) :
    List (Label Nat LimitOp × LimitSys Nat) :=
  takeTurns (limitMachine wholeSeconds) sharedClock { shared := {} }
    (attempt 0 :: attempt 1 :: order)

/-- The second attempt comes after a minute. -/
def inTurn : List (Turn Nat LimitOp LimitOp.Ans LimitExc (Bool × Int) Redis Unit Note) :=
  List.replicate 6 (.go 0) ++ pass 60 :: List.replicate 6 (.go 1)

/-- Both have counted when the first one adds its timestamp. -/
def sideBySide : List (Turn Nat LimitOp LimitOp.Ans LimitExc (Bool × Int) Redis Unit Note) :=
  List.replicate 4 (.go 0) ++ pass 1 :: List.replicate 6 (.go 1) ++ List.replicate 2 (.go 0)

theorem attempts_path
    {order : List (Turn Nat LimitOp LimitOp.Ans LimitExc (Bool × Int) Redis Unit Note)}
    (h : ∀ x ∈ order, (∃ j, x = .go j) ∨ ∃ seconds, x = pass seconds) :
    Path (Step (limitMachine wholeSeconds)) { shared := {} } (attempts order) := by
  refine takeTurns_path ?_ ?_ (fun j p own note hmem => ?_) fun f hmem r => ?_
  · intro o r own a r' own' hact
    cases o <;> cases hact
    · exact ⟨rfl, rfl⟩
    · rfl
    · rfl
  · intro o r own r' own' hfails
    cases o <;> cases hfails
  · rcases List.mem_cons.mp hmem with hstart | hmem
    · cases hstart
      exact ⟨.limit "login" 1 60, rfl, rfl⟩
    rcases List.mem_cons.mp hmem with hstart | hmem
    · cases hstart
      exact ⟨.limit "login" 1 60, rfl, rfl⟩
    · rcases h _ hmem with ⟨k, hgo⟩ | ⟨seconds, hpass⟩
      · cases hgo
      · cases hpass
  · rcases List.mem_cons.mp hmem with hstart | hmem
    · cases hstart
    rcases List.mem_cons.mp hmem with hstart | hmem
    · cases hstart
    · rcases h _ hmem with ⟨k, hgo⟩ | ⟨seconds, hpass⟩
      · cases hgo
      · cases hpass
        exact ⟨_, by linarith [(Nat.cast_nonneg seconds : (0 : ℚ) ≤ seconds)], rfl⟩

theorem order_inTurn (x) (h : x ∈ inTurn) : (∃ j, x = .go j) ∨ ∃ seconds, x = pass seconds := by
  simp only [inTurn, List.mem_append, List.mem_replicate, List.mem_cons] at h
  rcases h with ⟨-, rfl⟩ | rfl | ⟨-, rfl⟩
  · exact .inl ⟨_, rfl⟩
  · exact .inr ⟨_, rfl⟩
  · exact .inl ⟨_, rfl⟩

theorem order_sideBySide (x) (h : x ∈ sideBySide) :
    (∃ j, x = .go j) ∨ ∃ seconds, x = pass seconds := by
  simp only [sideBySide, List.mem_append, List.mem_replicate, List.mem_cons] at h
  rcases h with (⟨-, rfl⟩ | rfl | ⟨-, rfl⟩) | ⟨-, rfl⟩
  · exact .inl ⟨_, rfl⟩
  · exact .inr ⟨_, rfl⟩
  · exact .inl ⟨_, rfl⟩
  · exact .inl ⟨_, rfl⟩

theorem limits_kept_inTurn :
    Path (fun _ _ t => Kept t) { shared := {} } (attempts inTurn) :=
  limits_kept (attempts_path order_inTurn) ⟨fun _ => rfl, rfl⟩ (by decide +kernel)

/-- Both attempts are admitted within one second. -/
theorem both_admitted :
    Path (Step (limitMachine wholeSeconds)) { shared := {} } (attempts sideBySide) ∧
      ¬ Path (fun _ _ t => Kept t) { shared := {} } (attempts sideBySide) := by
  refine ⟨attempts_path order_sideBySide, fun h => ?_⟩
  have hkept : Kept (finish { shared := {} } (attempts sideBySide)) :=
    h.invariant (fun _ _ _ ht _ => ht) (sound_quiet wholeSeconds
      ⟨fun _ => rfl, rfl⟩).kept
  exact absurd (hkept.since (.limit "login" 1 60) 0) (by decide +kernel)

end Schedules

end Runs
end ParkIt.RateLimit
