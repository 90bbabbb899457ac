import ParkIt.RateLimit.Limiter

/-! The requests of one key, one after the other, and how long a rejected one is told to wait. -/
namespace ParkIt.RateLimit

open Effects Scores

structure Server where
  redis : Redis := {}
  buckets : Buckets := fun _ => []

namespace Server

/-- Redis works, and its clock is that of the worker. -/
def execute : (o : LimitOp) → Server → Except LimitExc o.Ans × Server
  | .redis c, s => (.ok (.ok (s.redis.execute c).1), { s with redis := (s.redis.execute c).2 })
  | .time, s => (.ok s.redis.clock, s)
  | .memory key maxRequests window, s =>
    (.ok (checkLimitMemory s.buckets key maxRequests window s.redis.clock).1,
      { s with buckets := (checkLimitMemory s.buckets key maxRequests window s.redis.clock).2 })

def later (s : Server) (t : ℚ) : Server := { s with redis := s.redis.later t }

end Server

/-- The limiters: in Redis, for a gate that has a name, and in memory. -/
inductive Limiter where
  | redis (c : Call) (named : c ≠ .booth "")
  | memory (key : String) (maxRequests window : Nat)

namespace Limiter
variable (str : ℚ → String) (l : Limiter) (s : Server) (t : ℚ)

def code : Limiter → Work (Bool × Int)
  | .redis c _ => c.code str
  | .memory key maxRequests window => Prog.perform (.memory key maxRequests window : LimitOp)

def maxRequests : Limiter → Nat
  | .redis c _ => c.maxRequests
  | .memory _ maxRequests _ => maxRequests

def window : Limiter → Nat
  | .redis c _ => c.window
  | .memory _ _ window => window

/-- The answer to a request at a time, and what it leaves. -/
def request : Except LimitExc (Bool × Int) × Server := (l.code str).run Server.execute (s.later t)

/-- What a sequence of requests leaves. -/
def after (ts : List ℚ) : Server := ts.foldl (fun s t => (l.request str s t).2) s

def stored (s : Server) : Limiter → List ℚ
  | .redis c _ => (s.redis.keys c.key).set.scores
  | .memory key _ _ => s.buckets key

/-- The timestamps that are younger than the window. -/
def recent : List ℚ := (l.stored s).filter fun ts => t - l.window < ts

/-- The advice keeps within the window, and a request that follows it is admitted. -/
def Honest (wait : Int) : Prop :=
  wait ≤ l.window ∧ ∀ t', t + wait ≤ t' → (l.request str (l.request str s t).2 t').1 = .ok (true, 0)

end Limiter

/-- The set of a key without what is older than the window. -/
def Redis.trimmed (r : Redis) (c : Call) (t : ℚ) : ScoreSet String ℚ :=
  (r.keys c.key).set.removeRangeByScore 0 (t - c.window)

/-- How long a rejected request is told to wait. -/
def waiting (oldest : Option ℚ) (window : Nat) (t : ℚ) : Int :=
  match oldest with
  | some oldest => max 1 (int (oldest + window - t))
  | none => window

section Answers
variable {str : ℚ → String} {s : Server} {c : Call} {α β : Type}

theorem run_redis {cmd : Command} {f : cmd.Val → Work α} {h : LimitExc → Work α} :
    ((redis cmd >>= f).handle h).run Server.execute s =
      ((f (s.redis.execute cmd).1).handle h).run Server.execute
        { s with redis := (s.redis.execute cmd).2 } := rfl

theorem run_time {f : ℚ → Work α} {h : LimitExc → Work α} :
    ((Prog.perform .time >>= f).handle h).run Server.execute s =
      ((f s.redis.clock).handle h).run Server.execute s := rfl

theorem run_redis_within {cmd : Command} {f : cmd.Val → Work α} {f' : α → Work β}
    {h : LimitExc → Work α} {h' : LimitExc → Work β} :
    ((((redis cmd >>= f).handle h) >>= f').handle h').run Server.execute s =
      ((((f (s.redis.execute cmd).1).handle h) >>= f').handle h').run Server.execute
        { s with redis := (s.redis.execute cmd).2 } := rfl

theorem run_redis_last {cmd : Command} {f' : cmd.Val → Work β} {h : LimitExc → Work cmd.Val}
    {h' : LimitExc → Work β} :
    ((((redis cmd).handle h) >>= f').handle h').run Server.execute s =
      ((f' (s.redis.execute cmd).1).handle h').run Server.execute
        { s with redis := (s.redis.execute cmd).2 } := rfl

theorem run_time_within {f : ℚ → Work α} {f' : α → Work β} {h : LimitExc → Work α}
    {h' : LimitExc → Work β} :
    ((((Prog.perform .time >>= f).handle h) >>= f').handle h').run Server.execute s =
      ((((f s.redis.clock).handle h) >>= f').handle h').run Server.execute s := rfl

/-- What a request leaves of its key in Redis. -/
def Redis.answered (str : ℚ → String) (r : Redis) (c : Call) : Redis :=
  let set := r.trimmed c r.clock
  r.put c.key (if c.maxRequests ≤ set.card then { r.keys c.key with set }
    else ⟨set.add (str r.clock) r.clock, some (r.clock + (c.window + 1 : Nat))⟩)

section Answered
variable {r : Redis}

variable (str) in
theorem answered_full (hfull : c.maxRequests ≤ (r.trimmed c r.clock).card) :
    (r.answered str c).keys c.key = { r.keys c.key with set := r.trimmed c r.clock } := by
  simp [Redis.answered, hfull]

variable (str) in
theorem answered_room (hroom : ¬ c.maxRequests ≤ (r.trimmed c r.clock).card) :
    (r.answered str c).keys c.key =
      ⟨(r.trimmed c r.clock).add (str r.clock) r.clock, some (r.clock + (c.window + 1 : Nat))⟩ := by
  simp [Redis.answered, hroom]

end Answered

/-- A limiter in Redis whose window is full. -/
theorem run_full (hc : c ≠ .booth "")
    (hfull : c.maxRequests ≤ (s.redis.trimmed c s.redis.clock).card) :
    (c.code str).run Server.execute s =
      (.ok (false, waiting (s.redis.trimmed c s.redis.clock).lowest c.window s.redis.clock),
        { s with redis := s.redis.answered str c }) := by
  rw [Redis.answered, if_pos hfull]
  cases c with
  | limit key maxRequests window =>
    rw [Call.code, checkLimit, run_redis, run_time, run_redis, run_redis]
    simp only [Redis.execute, Redis.put_keys_self]
    split
    · rw [run_redis]
      simp only [Redis.execute, Redis.put_keys_self, Redis.trimmed, Call.key, Call.window]
      cases ((s.redis.keys key).set.removeRangeByScore 0 (s.redis.clock - window)).lowest with
      | none => rfl
      | some oldest => rfl
    · rename_i hroom
      exact absurd hfull hroom
  | booth gateId =>
    have hgate : gateId ≠ "" := fun h => hc (h ▸ rfl)
    rw [Call.code, enforceBoothRateLimit, if_neg hgate, run_redis_within, run_time_within,
      run_redis_within, run_redis_within]
    simp only [Redis.execute, Redis.put_keys_self]
    split
    · rw [run_redis_within]
      simp only [Redis.execute, Redis.put_keys_self, Redis.trimmed, Call.key, Call.window]
      cases ((s.redis.keys (boothKey gateId)).set.removeRangeByScore 0
        (s.redis.clock - boothLimitWindow)).lowest with
      | none => rfl
      | some oldest => rfl
    · rename_i hroom
      exact absurd hfull hroom

/-- A limiter in Redis whose window has room. -/
theorem run_room (hc : c ≠ .booth "")
    (hroom : ¬ c.maxRequests ≤ (s.redis.trimmed c s.redis.clock).card) :
    (c.code str).run Server.execute s =
      (.ok (true, 0), { s with redis := s.redis.answered str c }) := by
  rw [Redis.answered, if_neg hroom]
  cases c with
  | limit key maxRequests window =>
    rw [Call.code, checkLimit, run_redis, run_time, run_redis, run_redis]
    simp only [Redis.execute, Redis.put_keys_self]
    split
    · rename_i hfull
      exact absurd hfull hroom
    · rw [run_redis, run_redis]
      simp only [Redis.execute, Redis.put_keys_self, Redis.put_put, Redis.put_clock]
      rfl
  | booth gateId =>
    have hgate : gateId ≠ "" := fun h => hc (h ▸ rfl)
    rw [Call.code, enforceBoothRateLimit, if_neg hgate, run_redis_within, run_time_within,
      run_redis_within, run_redis_within]
    simp only [Redis.execute, Redis.put_keys_self]
    split
    · rename_i hfull
      exact absurd hfull hroom
    · rw [run_redis_within]
      simp only [Redis.execute, Redis.put_keys_self]
      rw [run_redis_last]
      simp only [Redis.execute, Redis.put_keys_self, Redis.put_put, Redis.put_clock]
      rfl

end Answers

namespace Limiter

def deadline (s : Server) : Limiter → Option ℚ
  | .redis c _ => (s.redis.keys c.key).deadline
  | .memory _ _ _ => none

/-- What a limiter holds after the requests of its key up to a time. -/
structure Valid (l : Limiter) (s : Server) (t : ℚ) : Prop where
  atMost : (l.stored s).length ≤ l.maxRequests
  past : ∀ ts ∈ l.stored s, 0 ≤ ts ∧ ts ≤ t
  sorted : (l.stored s).Pairwise (· ≤ ·)
  /-- A set goes after its last timestamp has left the window. -/
  lasting : ∀ d ∈ l.deadline s, ∀ ts ∈ l.stored s, ts + l.window < d

section Requests
variable {str : ℚ → String} {l : Limiter} {s : Server} {c : Call} {hc : c ≠ .booth ""}
  {t t' : ℚ}

/-- Trimming and expiry leave what is younger than the window. -/
theorem trimmed_scores (hv : Valid (.redis c hc) s t) :
    ((s.later t').redis.trimmed c t').scores = (Limiter.redis c hc).recent s t' := by
  change (((s.redis.later t').keys c.key).set.removeRangeByScore 0 (t' - c.window)).scores =
    (s.redis.keys c.key).set.scores.filter fun ts => t' - c.window < ts
  rw [ScoreSet.removeRangeByScore_scores]
  have hlive : ((s.redis.later t').keys c.key).set.scores.filter (fun ts => t' - c.window < ts) =
      (s.redis.keys c.key).set.scores.filter fun ts => t' - c.window < ts := by
    change (Redis.live t' (s.redis.keys c.key)).set.scores.filter _ = _
    unfold Redis.live
    split
    · rename_i hgone
      obtain ⟨d, hd, hpast⟩ := hgone
      refine (List.filter_eq_nil_iff.mpr fun ts hts => ?_).symm
      have hlast := hv.lasting d hd ts hts
      change ts + (c.window : ℚ) < d at hlast
      simp only [decide_eq_true_eq, not_lt]
      linarith
    · rfl
  rw [← hlive]
  refine List.filter_congr fun ts hts => ?_
  have hpos : 0 ≤ ts := by
    change ts ∈ (Redis.live t' (s.redis.keys c.key)).set.scores at hts
    unfold Redis.live at hts
    split at hts
    · cases hts
    · exact (hv.past ts hts).1
  simp [hpos]

theorem trimmed_card (hv : Valid (.redis c hc) s t) :
    ((s.later t').redis.trimmed c t').card = ((Limiter.redis c hc).recent s t').length := by
  rw [ScoreSet.card_eq_length, trimmed_scores hv]

theorem recent_sorted (hv : Valid l s t) : (l.recent s t').Pairwise (· ≤ ·) :=
  hv.sorted.filter _

theorem min_recent (hv : Valid l s t) : (l.recent s t').min? = (l.recent s t').head? :=
  List.min?_eq_head? ((recent_sorted hv).imp min_eq_left)

variable (str) in
theorem request_redis_full (hv : Valid (.redis c hc) s t)
    (hfull : c.maxRequests ≤ ((Limiter.redis c hc).recent s t').length) :
    (Limiter.redis c hc).request str s t' =
        (.ok (false, waiting ((s.later t').redis.trimmed c t').lowest c.window t'),
          { s.later t' with redis := (s.later t').redis.answered str c }) ∧
      ((s.later t').redis.answered str c).keys c.key =
        { (s.later t').redis.keys c.key with set := (s.later t').redis.trimmed c t' } := by
  have hcard : c.maxRequests ≤ ((s.later t').redis.trimmed c t').card :=
    hfull.trans_eq (trimmed_card hv).symm
  exact ⟨run_full hc hcard, answered_full str hcard⟩

variable (str) in
theorem request_memory_full (key : String) (maxRequests window : Nat)
    (hfull : maxRequests ≤ ((Limiter.memory key maxRequests window).recent s t').length) :
    (Limiter.memory key maxRequests window).request str s t' =
      (.ok (false, max 1 (int
          ((((Limiter.memory key maxRequests window).recent s t').headD t') + window - t'))),
        { s.later t' with
          buckets := Function.update s.buckets key
            ((Limiter.memory key maxRequests window).recent s t') }) := by
  have hrun : (Limiter.memory key maxRequests window).request str s t' =
      (.ok (checkLimitMemory s.buckets key maxRequests window t').1,
        { s.later t' with
          buckets := (checkLimitMemory s.buckets key maxRequests window t').2 }) := rfl
  rw [hrun, checkLimitMemory]
  dsimp only
  rw [if_pos (by exact hfull)]
  rfl

variable (str) in
/-- The answer of a limiter whose window is full. -/
theorem answer_full (hv : Valid l s t) (hfull : l.maxRequests ≤ (l.recent s t').length) :
    ∃ wait, (l.request str s t').1 = .ok (false, wait) ∧
      ∀ oldest ∈ (l.recent s t').min?, wait = max 1 (int (oldest + l.window - t')) := by
  cases l with
  | redis c hc =>
    refine ⟨_, congrArg Prod.fst (request_redis_full str hv hfull).1, fun oldest holdest => ?_⟩
    rw [← trimmed_scores hv] at holdest
    have hlowest : ((s.later t').redis.trimmed c t').lowest = some oldest := holdest
    rw [hlowest]
    rfl
  | memory key maxRequests window =>
    refine ⟨_, congrArg Prod.fst (request_memory_full str key maxRequests window hfull),
      fun oldest holdest => ?_⟩
    rw [min_recent hv] at holdest
    rw [List.headD_eq_head?_getD, holdest]
    rfl

variable (str) in
theorem stored_full (hv : Valid l s t) (hfull : l.maxRequests ≤ (l.recent s t').length) :
    l.stored (l.request str s t').2 = l.recent s t' := by
  cases l with
  | redis c hc =>
    obtain ⟨hrequest, hkeys⟩ := request_redis_full str hv hfull
    rw [hrequest, ← trimmed_scores hv]
    exact congrArg (·.set.scores) hkeys
  | memory key maxRequests window =>
    rw [request_memory_full str key maxRequests window hfull]
    exact Function.update_self ..

/-- A full window leaves the moment at which the set goes, if it has not gone. -/
theorem deadline_full (hv : Valid l s t) (hfull : l.maxRequests ≤ (l.recent s t').length) {d : ℚ}
    (hd : d ∈ l.deadline (l.request str s t').2) : d ∈ l.deadline s := by
  cases l with
  | redis c hc =>
    obtain ⟨hrequest, hkeys⟩ := request_redis_full str hv hfull
    have hsame : (Limiter.redis c hc).deadline ((Limiter.redis c hc).request str s t').2 =
        (Redis.live t' (s.redis.keys c.key)).deadline := by
      have hdeadline := congrArg Entry.deadline hkeys
      rw [hrequest]
      exact hdeadline
    rw [hsame, Redis.live] at hd
    split at hd
    · cases hd
    · exact hd
  | memory key maxRequests window => cases hd

variable (str) in
/-- A limiter whose window has room admits the request, and puts its timestamp last. -/
theorem request_room (hv : Valid l s t) (hroom : ¬ l.maxRequests ≤ (l.recent s t').length) :
    (l.request str s t').1 = .ok (true, 0) ∧
    (∃ ys, ys.Sublist (l.recent s t') ∧ l.stored (l.request str s t').2 = ys ++ [t']) ∧
    ∀ d ∈ l.deadline (l.request str s t').2, d = t' + (l.window + 1 : Nat) := by
  cases l with
  | redis c hc =>
    have hcard : ¬ c.maxRequests ≤ ((s.later t').redis.trimmed c t').card := by
      rw [trimmed_card hv]
      exact hroom
    have hrun : (Limiter.redis c hc).request str s t' =
        (.ok (true, 0), { s.later t' with redis := (s.later t').redis.answered str c }) :=
      run_room hc hcard
    have hkeys := answered_room str (r := (s.later t').redis) hcard
    obtain ⟨ys, hys, hscores⟩ := ScoreSet.add_scores (x := (s.later t').redis.trimmed c t')
      (m := str t') (s := t')
    rw [trimmed_scores hv] at hys
    rw [hrun]
    refine ⟨rfl, ⟨ys, hys, ?_⟩, fun d hd => ?_⟩
    · exact (congrArg (·.set.scores) hkeys).trans hscores
    · have hdeadline : (Limiter.redis c hc).deadline
          { s.later t' with redis := (s.later t').redis.answered str c } =
          some (t' + (c.window + 1 : Nat)) := congrArg Entry.deadline hkeys
      rw [hdeadline] at hd
      exact (Option.some.inj hd).symm
  | memory key maxRequests window =>
    have hrun : (Limiter.memory key maxRequests window).request str s t' =
        (.ok (checkLimitMemory s.buckets key maxRequests window t').1,
          { s.later t' with
            buckets := (checkLimitMemory s.buckets key maxRequests window t').2 }) := rfl
    unfold checkLimitMemory at hrun
    dsimp only at hrun
    rw [if_neg (by exact hroom)] at hrun
    rw [hrun]
    refine ⟨rfl, ⟨_, List.Sublist.refl _, ?_⟩, fun d hd => by cases hd⟩
    exact Function.update_self ..

/-- Every request keeps the limiter in order. -/
theorem valid_request (hv : Valid l s t) (ht : t ≤ t') (h0 : 0 ≤ t') :
    Valid l (l.request str s t').2 t' := by
  have hrecent : ∀ ts ∈ l.recent s t', 0 ≤ ts ∧ ts ≤ t' := by
    intro ts hts
    obtain ⟨hpos, hle⟩ := hv.past ts (List.mem_filter.mp hts).1
    exact ⟨hpos, hle.trans ht⟩
  by_cases hfull : l.maxRequests ≤ (l.recent s t').length
  · have hstored := stored_full str hv hfull
    refine ⟨?_, ?_, ?_, fun d hd ts hts => ?_⟩
    · rw [hstored]
      exact (List.length_filter_le ..).trans hv.atMost
    · rw [hstored]
      exact hrecent
    · rw [hstored]
      exact recent_sorted hv
    · rw [hstored] at hts
      exact hv.lasting d (deadline_full hv hfull hd) ts (List.mem_filter.mp hts).1
  · obtain ⟨-, ⟨ys, hys, hstored⟩, hdeadline⟩ := request_room str hv hfull
    have hpast : ∀ ts ∈ ys ++ [t'], 0 ≤ ts ∧ ts ≤ t' := by
      intro ts hts
      rcases List.mem_append.mp hts with hts | hts
      · exact hrecent ts (hys.subset hts)
      · obtain rfl := List.mem_singleton.mp hts
        exact ⟨h0, le_refl _⟩
    refine ⟨?_, ?_, ?_, fun d hd ts hts => ?_⟩
    · have hlength := hys.length_le
      rw [hstored, List.length_append, List.length_singleton]
      omega
    · rw [hstored]
      exact hpast
    · rw [hstored, List.pairwise_append]
      refine ⟨(recent_sorted hv).sublist hys, List.pairwise_singleton .., fun ts hts ts' hts' => ?_⟩
      obtain rfl := List.mem_singleton.mp hts'
      exact (hpast ts (List.mem_append_left _ hts)).2
    · rw [hstored] at hts
      rw [hdeadline d hd]
      have hle := (hpast ts hts).2
      push_cast
      linarith

theorem Valid.later (hv : Valid l s t) (ht : t ≤ t') : Valid l s t' :=
  ⟨hv.atMost, fun ts hts => ⟨(hv.past ts hts).1, (hv.past ts hts).2.trans ht⟩, hv.sorted,
    hv.lasting⟩

/-- A sequence of requests in the order of their times. -/
structure InOrder (ts : List ℚ) : Prop where
  sorted : ts.Pairwise (· ≤ ·)
  pos : ∀ t ∈ ts, 0 ≤ t

theorem valid_after {ts : List ℚ} (hv : Valid l s t) (h : InOrder ts) (hlate : ∀ t' ∈ ts, t ≤ t')
    (hend : ∀ t'' ∈ t :: ts, t'' ≤ t') : Valid l (l.after str s ts) t' := by
  induction ts generalizing s t with
  | nil => exact hv.later (hend t List.mem_cons_self)
  | cons t₁ ts ih =>
    have hsorted := List.pairwise_cons.mp h.sorted
    refine ih (valid_request hv (hlate _ List.mem_cons_self) (h.pos _ List.mem_cons_self))
      ⟨hsorted.2, fun t' ht' => h.pos t' (List.mem_cons_of_mem _ ht')⟩ hsorted.1 fun t'' ht'' => ?_
    exact hend t'' (List.mem_cons_of_mem _ ht'')

/-- A limiter that holds nothing of its key. -/
theorem valid_empty (h : l.stored s = []) : Valid l s t := by
  refine ⟨?_, ?_, ?_, fun d _ ts hts => ?_⟩
  · rw [h]
    exact Nat.zero_le _
  · rw [h]
    exact fun ts hts => by cases hts
  · rw [h]
    exact .nil
  · rw [h] at hts
    cases hts

theorem valid_history {ts : List ℚ} (hempty : l.stored s = []) (h : InOrder (ts ++ [t])) :
    Valid l (l.after str s ts) t := by
  obtain ⟨hts, -, hlast⟩ := List.pairwise_append.mp h.sorted
  have hpos : ∀ t' ∈ ts, 0 ≤ t' := fun t' ht' => h.pos t' (List.mem_append_left _ ht')
  refine valid_after (t := 0) (valid_empty hempty) ⟨hts, hpos⟩ hpos fun t' ht' => ?_
  rcases List.mem_cons.mp ht' with rfl | ht'
  · exact h.pos t (List.mem_append_right _ List.mem_cons_self)
  · exact hlast t' ht' t List.mem_cons_self

end Requests
end Limiter

section Waiting
variable {x : ℚ}

theorem int_eq_floor (h : 0 ≤ x) : int x = ⌊x⌋ := by
  rw [Rat.floor_def', int, Int.tdiv_eq_ediv_of_nonneg (Rat.num_nonneg.mpr h)]

/-- The truncated rest is long enough where nothing is cut off, or where the floor of 1 covers
it. -/
theorem le_waiting_iff (h : 0 < x) : x ≤ (max 1 (int x) : Int) ↔ x ≤ 1 ∨ ∃ n : Int, x = n := by
  rw [int_eq_floor h.le]
  constructor
  · intro hle
    by_cases hone : x ≤ 1
    · exact .inl hone
    · have hfloor : 1 ≤ ⌊x⌋ := Int.le_floor.mpr (by push_cast; linarith)
      rw [max_eq_right hfloor] at hle
      exact .inr ⟨⌊x⌋, le_antisymm hle (Int.floor_le x)⟩
  · rintro (hone | ⟨n, rfl⟩)
    · have hle : ((1 : Int) : ℚ) ≤ (max 1 ⌊x⌋ : Int) := Int.cast_le.mpr (le_max_left ..)
      push_cast at hle ⊢
      linarith
    · rw [Int.floor_intCast]
      exact Int.cast_le.mpr (le_max_right ..)

theorem waiting_le {w : Nat} (h : 0 < x) (hle : x ≤ w) : max 1 (int x) ≤ w := by
  have hpos : (0 : ℚ) < w := h.trans_le hle
  have hone : 0 < w := Nat.cast_pos.mp hpos
  have hfloor : ⌊x⌋ ≤ w := Int.floor_le_iff.mpr (by push_cast; linarith)
  rw [int_eq_floor h.le]
  omega

end Waiting

namespace Limiter
variable {str : ℚ → String} {l : Limiter} {s : Server} {t t' oldest : ℚ} {wait : Int} {ts : List ℚ}

theorem admitted_iff (hv : Valid l s t) :
    (l.request str s t').1 = .ok (true, 0) ↔ (l.recent s t').length < l.maxRequests := by
  constructor
  · intro hadmitted
    by_contra hfull
    obtain ⟨wait, hanswer, -⟩ := answer_full str hv (Nat.le_of_not_lt hfull)
    cases hanswer.symm.trans hadmitted
  · exact fun hroom => (request_room str hv (Nat.not_le_of_lt hroom)).1

/-- A rejected request leaves what is young enough at a later time. -/
theorem recent_later (hv : Valid l s t) (hfull : l.maxRequests ≤ (l.recent s t).length) :
    l.recent (l.request str s t).2 t' = (l.recent s t).filter fun ts => t' - l.window < ts := by
  rw [recent, stored_full str hv hfull]

/-- A full window has room again when its oldest timestamp has left it. -/
theorem room_iff (hv : Valid l s t) (h0 : 0 ≤ t) (hfull : l.maxRequests = (l.recent s t).length)
    (holdest : oldest ∈ (l.recent s t).min?) :
    (l.request str (l.request str s t).2 t').1 = .ok (true, 0) ↔ oldest + l.window ≤ t' := by
  obtain ⟨hmem, hmin⟩ := List.min?_eq_some_iff.mp holdest
  rw [admitted_iff (valid_request hv (le_refl t) h0), recent_later hv hfull.le, hfull,
    List.length_filter_lt_length_iff_exists]
  constructor
  · rintro ⟨ts, hts, hgone⟩
    have hle := hmin ts hts
    simp only [decide_eq_true_eq, not_lt] at hgone
    linarith
  · intro hgone
    refine ⟨oldest, hmem, ?_⟩
    simp only [decide_eq_true_eq, not_lt]
    linarith

/-- For a window that is full and not empty. -/
theorem honest_of_oldest (hv : Valid l s t) (h0 : 0 ≤ t)
    (hfull : l.maxRequests = (l.recent s t).length) (holdest : oldest ∈ (l.recent s t).min?) :
    l.Honest str s t (max 1 (int (oldest + l.window - t))) ↔
      oldest + l.window - t ≤ 1 ∨ ∃ n : Int, oldest + l.window - t = n := by
  obtain ⟨hmem, -⟩ := List.min?_eq_some_iff.mp holdest
  obtain ⟨hstored, hyoung⟩ := List.mem_filter.mp hmem
  have hrest : 0 < oldest + l.window - t := by linarith [of_decide_eq_true hyoung]
  have hpast : oldest + l.window - t ≤ l.window := by linarith [(hv.past oldest hstored).2]
  rw [Honest, and_iff_right (waiting_le hrest hpast), ← le_waiting_iff hrest]
  constructor
  · intro hlater
    have hroom := (room_iff hv h0 hfull holdest).mp (hlater _ (le_refl _))
    linarith
  · intro hle t' ht'
    exact (room_iff hv h0 hfull holdest).mpr (by linarith)

/-- A rejected request is told the truth where nothing is cut off from the rest of its oldest
timestamp's time in the window, or where that is a second at most. -/
theorem honest_iff (hempty : l.stored s = []) (h : InOrder (ts ++ [t]))
    (hrejected : (l.request str (l.after str s ts) t).1 = .ok (false, wait)) :
    l.Honest str (l.after str s ts) t wait ↔ 0 < l.maxRequests ∧
      ∀ oldest ∈ (l.recent (l.after str s ts) t).min?,
        oldest + l.window - t ≤ 1 ∨ ∃ n : Int, oldest + l.window - t = n := by
  have h0 : 0 ≤ t := h.pos t (List.mem_append_right _ List.mem_cons_self)
  have hv : Valid l (l.after str s ts) t := valid_history hempty h
  generalize l.after str s ts = s at *
  have hfull : l.maxRequests = (l.recent s t).length := by
    refine le_antisymm ?_ ((List.length_filter_le ..).trans hv.atMost)
    by_contra hroom
    cases hrejected.symm.trans (request_room str hv hroom).1
  obtain ⟨wait', hanswer, hwait⟩ := answer_full str hv hfull.le
  obtain rfl : wait = wait' := by
    have heq := hrejected.symm.trans hanswer
    simpa using heq
  cases hmin : (l.recent s t).min? with
  | none =>
    have hnil : (l.recent s t) = [] := List.min?_eq_none_iff.mp hmin
    have hzero : l.maxRequests = 0 := by rw [hfull, hnil, List.length_nil]
    constructor
    · rintro ⟨-, hlater⟩
      have hadmitted := (admitted_iff (valid_request hv (le_refl t) h0)).mp
        (hlater (t + wait) (le_refl _))
      omega
    · rintro ⟨hpos, -⟩
      omega
  | some oldest =>
    have hpos : 0 < l.maxRequests :=
      hfull ▸ List.length_pos_of_mem (List.min?_eq_some_iff.mp hmin).1
    obtain rfl := hwait oldest hmin
    rw [honest_of_oldest hv h0 hfull hmin, and_iff_right hpos]
    constructor
    · rintro hwhole _ ⟨⟩
      exact hwhole
    · exact fun hwhole => hwhole oldest rfl

section Logins

/-- One request is allowed in a minute. -/
def login : Limiter := .redis (.limit "login" 1 60) (fun h => by cases h)

theorem honest_second : login.Honest wholeSeconds (login.after wholeSeconds {} [0]) 1 59 := by
  refine (honest_iff rfl ⟨?_, ?_⟩ (by decide +kernel)).mpr
    ⟨by decide, fun oldest h => .inr ⟨59, ?_⟩⟩
  · simp
  · simp
  · have hmin : (login.recent (login.after wholeSeconds {} [0]) 1).min? = some 0 := by
      decide +kernel
    obtain rfl : oldest = 0 := Option.some.inj (h.symm.trans hmin)
    norm_num [login, window, Call.window]

/-- Half a second is cut off, so the request comes half a second too early. -/
theorem rejected_again :
    (login.request wholeSeconds (login.after wholeSeconds {} [0]) (1 / 2)).1 = .ok (false, 59) ∧
      ¬ login.Honest wholeSeconds (login.after wholeSeconds {} [0]) (1 / 2) 59 := by
  refine ⟨by decide +kernel, fun h => ?_⟩
  have hadmitted := h.2 (119 / 2) (by norm_num)
  exact absurd hadmitted (by decide +kernel)

end Logins
end Limiter
end ParkIt.RateLimit
