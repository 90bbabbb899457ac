import ParkIt.Lib.Framing
import ParkIt.Lib.Twin
import ParkIt.RateLimit.Retry
import ParkIt.Upload.Response

/-! What the middleware makes of a request, and what the requests of others make of it. -/
namespace ParkIt.RateLimit

open Effects Scores

def defaultLimits : List (String × Nat × Nat) :=
  [("/api/auth/login", 5, 60), ("/api/auth/refresh", 10, 60), ("/api/payments/", 30, 60)]

def defaultFallback : Nat × Nat := (100, 60)

def exemptPaths : List String := ["/api/health", "/metrics", "/docs", "/openapi.json"]

/-- The path, the header `X-Forwarded-For`, and the host that the connection comes from. -/
structure Request where
  path : String
  forwarded : Option String := none
  host : Option String := none
deriving DecidableEq, Repr

def startsWith (s start : String) : Bool := start.toList.isPrefixOf s.toList

namespace Request
variable (r : Request)

def clientIp : String :=
  match r.forwarded.filter (· ≠ "") with
  | some forwarded => String.ofList (Upload.strip (forwarded.toList.takeWhile (· ≠ ',')))
  | none => r.host.getD "unknown"

def exempt : Bool := exemptPaths.any (startsWith r.path ·)

def matchLimit : Option String := (defaultLimits.find? fun l => startsWith r.path l.1).map (·.1)

/-- The number of requests and the seconds of the window. -/
def limit : Nat × Nat := (r.matchLimit.bind (List.lookup · defaultLimits)).getD defaultFallback

def redisKey : String := "rate_limit:" ++ r.clientIp ++ ":" ++ r.matchLimit.getD "default"

end Request

inductive Verdict where
  | exempt
  | passed (maxRequests window : Nat)
  /-- Status 429. -/
  | tooMany (retryAfter : Int) (maxRequests window : Nat)
deriving DecidableEq, Repr

section Code
variable (str : ℚ → String)

def dispatch (r : Request) : Work Verdict :=
  if r.exempt then pure .exempt
  else do
    let (isAllowed, retryAfter) ← checkLimit str r.redisKey r.limit.1 r.limit.2
    if isAllowed then pure (.passed r.limit.1 r.limit.2)
    else pure (.tooMany retryAfter r.limit.1 r.limit.2)

end Code

/-- A request to the middleware, or one of a booth, and the outside when it is dealt with: the clock
of Redis, the clock of the process, and the commands that raise, with an effect or without one. -/
structure Arrival where
  call : Request ⊕ String
  clock : ℚ
  now : ℚ
  fails : Command → Option Bool := fun _ => none

namespace Arrival

def code (str : ℚ → String) (a : Arrival) : Work Verdict :=
  match a.call with
  | .inl r => dispatch str r
  | .inr gateId => do
    enforceBoothRateLimit str gateId
    pure (.passed boothLimitMax boothLimitWindow)

def execute (a : Arrival) : (o : LimitOp) → Server → Except LimitExc o.Ans × Server
  | .redis c, s =>
    let done := { s with redis := (s.redis.execute c).2 }
    match a.fails c with
    | none => (.ok (.ok (s.redis.execute c).1), done)
    | some effect => (.ok (.error "redis"), if effect then done else s)
  | .time, s => (.ok a.now, s)
  | .memory key maxRequests window, s =>
    (.ok (checkLimitMemory s.buckets key maxRequests window a.now).1,
      { s with buckets := (checkLimitMemory s.buckets key maxRequests window a.now).2 })

/-- The key that the request is counted under. -/
def key (a : Arrival) : Option String :=
  match a.call with
  | .inl r => if r.exempt then none else some r.redisKey
  | .inr gateId => if gateId = "" then none else some (boothKey gateId)

def serve (str : ℚ → String) (s : Server) (a : Arrival) : Except LimitExc Verdict × Server :=
  (a.code str).run a.execute (s.later a.clock)

end Arrival

/-- What the requests are answered, one after the other. -/
def verdicts (str : ℚ → String) : Server → List Arrival → List (Except LimitExc Verdict)
  | _, [] => []
  | s, a :: rest => (a.serve str s).1 :: verdicts str (a.serve str s).2 rest

/-- What those of the requests are answered that satisfy `p`. -/
def answersOf (str : ℚ → String) (p : Arrival → Bool) (s : Server) (as : List Arrival) :
    List (Except LimitExc Verdict) :=
  ((as.zip (verdicts str s as)).filter fun x => p x.1).map (·.2)

section Keys

/-- An operation on one key. -/
def Touches (key : String) : LimitOp → Prop
  | .redis (.zremrangebyscore k _ _) | .redis (.zcard k) | .redis (.oldest k) => k = key
  | .redis (.zadd k _ _) | .redis (.expire k _) | .memory k _ _ => k = key
  | .redis .connect | .time => True

variable {str : ℚ → String} {key : String} {s t : Server} {a : Arrival} {o : LimitOp}

theorem only_redis {c : Command} (h : Touches key (.redis c)) :
    Only (Touches key) (fun _ => True) (redis c) := by
  refine (only_perform h).bind fun r => ?_
  cases r with
  | ok v => exact only_pure
  | error e => trivial

/-- The rule for a command of Redis. -/
theorem touches_redis {α : Type} {c : Command} {f : c.Val → Work α} (h : Touches key (.redis c))
    (hf : ∀ v, Only (Touches key) (fun _ => True) (f v)) :
    Only (Touches key) (fun _ => True) (redis c >>= f) := (only_redis h).bind hf

theorem touches_checkLimit (key : String) (maxRequests window : Nat) :
    Only (Touches key) (fun _ => True) (checkLimit str key maxRequests window) := by
  unfold checkLimit
  refine Only.handle ?_ fun _ (_ : True) => only_perform rfl
  refine touches_redis trivial fun _ => ?_
  refine (only_perform trivial).bind fun now => ?_
  refine touches_redis rfl fun _ => touches_redis rfl fun count => ?_
  split
  · refine touches_redis rfl fun oldest => ?_
    cases oldest with
    | some x => exact only_pure
    | none => exact only_pure
  · exact touches_redis rfl fun _ => touches_redis rfl fun _ => only_pure

theorem touches_booth {gateId : String} (h : gateId ≠ "") :
    Only (Touches (boothKey gateId)) (fun _ => True) (enforceBoothRateLimit str gateId) := by
  unfold enforceBoothRateLimit
  rw [if_neg h]
  refine Only.handle ?_ fun e (_ : True) => ?_
  · refine touches_redis trivial fun _ => ?_
    refine (only_perform trivial).bind fun now => ?_
    refine touches_redis rfl fun _ => touches_redis rfl fun count => ?_
    split
    · exact touches_redis rfl fun oldest => trivial
    · exact touches_redis rfl fun _ => only_redis rfl
  · cases e with
    | http status detail retryAfter => trivial
    | redis error => exact only_pure

/-- A request that is counted touches its key only. -/
theorem touches_code (h : a.key = some key) : Only (Touches key) (fun _ => True) (a.code str) := by
  unfold Arrival.key at h
  unfold Arrival.code
  split at h
  · rename_i r hcall
    split at h
    · cases h
    · rename_i hexempt
      cases h
      rw [dispatch, if_neg hexempt]
      refine (touches_checkLimit _ _ _).bind fun answer => ?_
      obtain ⟨isAllowed, retryAfter⟩ := answer
      cases isAllowed with
      | true => exact only_pure
      | false => exact only_pure
  · rename_i gateId hcall
    split at h
    · cases h
    · rename_i hgate
      cases h
      exact (touches_booth hgate).bind fun _ => only_pure

/-- A request that is not counted does nothing. -/
theorem run_free (h : a.key = none) : ((a.code str).run a.execute s).2 = s := by
  unfold Arrival.key at h
  unfold Arrival.code
  split at h
  · rename_i r hcall
    split at h
    · rename_i hexempt
      simp only [dispatch, if_pos hexempt]
      rfl
    · cases h
  · rename_i gateId hcall
    split at h
    · rename_i hgate
      simp only [enforceBoothRateLimit, if_pos hgate]
      rfl
    · cases h

end Keys

section Agreement

/-- The servers are alike under a key, at a time and from then on. -/
structure Agree (key : String) (s t : Server) : Prop where
  entry : s.redis.keys key = t.redis.keys key
  clock : s.redis.clock = t.redis.clock
  bucket : s.buckets key = t.buckets key

variable {str : ℚ → String} {key key' : String} {s t : Server} {a : Arrival} {o : LimitOp}

theorem live_live {c c' : ℚ} (h : c ≤ c') (e : Entry) :
    Redis.live c' (Redis.live c e) = Redis.live c' e := by
  unfold Redis.live
  by_cases hgone : ∃ deadline ∈ e.deadline, deadline ≤ c
  · obtain ⟨deadline, hdeadline, hle⟩ := hgone
    have hlater : ∃ deadline ∈ e.deadline, deadline ≤ c' := ⟨deadline, hdeadline, hle.trans h⟩
    have hempty : (if ∃ deadline ∈ e.deadline, deadline ≤ c then {} else e) = ({} : Entry) :=
      if_pos ⟨deadline, hdeadline, hle⟩
    rw [hempty, if_pos hlater, ite_self]
  · rw [if_neg hgone]

theorem agree_redis {c : Command} (hc : Touches key (.redis c)) (h : Agree key s t) :
    (s.redis.execute c).1 = (t.redis.execute c).1 ∧
      Agree key { s with redis := (s.redis.execute c).2 }
        { t with redis := (t.redis.execute c).2 } := by
  cases c with
  | connect => exact ⟨rfl, h.entry, h.clock, h.bucket⟩
  | zcard k =>
    obtain rfl : k = key := hc
    exact ⟨congrArg (·.set.card) h.entry, h.entry, h.clock, h.bucket⟩
  | oldest k =>
    obtain rfl : k = key := hc
    exact ⟨congrArg (·.set.lowest) h.entry, h.entry, h.clock, h.bucket⟩
  | zremrangebyscore k low high =>
    obtain rfl : k = key := hc
    refine ⟨rfl, ?_, h.clock, h.bucket⟩
    simp only [Redis.execute, Redis.put_keys_self, h.entry]
  | zadd k member score =>
    obtain rfl : k = key := hc
    refine ⟨rfl, ?_, h.clock, h.bucket⟩
    simp only [Redis.execute, Redis.put_keys_self, h.entry]
  | expire k seconds =>
    obtain rfl : k = key := hc
    refine ⟨rfl, ?_, h.clock, h.bucket⟩
    simp only [Redis.execute, Redis.put_keys_self, h.entry, h.clock]

theorem agree_execute (ho : Touches key o) (h : Agree key s t) :
    (a.execute o s).1 = (a.execute o t).1 ∧ Agree key (a.execute o s).2 (a.execute o t).2 := by
  cases o with
  | time => exact ⟨rfl, h⟩
  | memory k maxRequests window =>
    obtain rfl : k = key := ho
    simp only [Arrival.execute, checkLimitMemory, h.bucket]
    split
    · exact ⟨rfl, h.entry, h.clock, by simp⟩
    · exact ⟨rfl, h.entry, h.clock, by simp⟩
  | redis c =>
    obtain ⟨hanswer, hagree⟩ := agree_redis ho h
    unfold Arrival.execute
    dsimp only
    cases a.fails c with
    | none => exact ⟨by rw [hanswer], hagree⟩
    | some effect =>
      cases effect with
      | true => exact ⟨rfl, hagree⟩
      | false => exact ⟨rfl, h⟩

/-- An operation on another key leaves this one alone. -/
theorem keeps_execute (ho : Touches key' o) (hne : key ≠ key') :
    Agree key s (a.execute o s).2 := by
  have hupdate : ∀ (r : Redis) (e : Entry), (r.put key' e).keys key = r.keys key :=
    fun r e => Function.update_of_ne hne _ _
  have hredis : ∀ c, Touches key' (.redis c) →
      Agree key s { s with redis := (s.redis.execute c).2 } := by
    intro c hc
    cases c with
    | connect | zcard _ | oldest _ => exact ⟨rfl, rfl, rfl⟩
    | zremrangebyscore k _ _ | zadd k _ _ | expire k _ =>
      obtain rfl : k = key' := hc
      exact ⟨(hupdate _ _).symm, rfl, rfl⟩
  cases o with
  | time => exact ⟨rfl, rfl, rfl⟩
  | memory k maxRequests window =>
    obtain rfl : k = key' := ho
    refine ⟨rfl, rfl, ?_⟩
    simp only [Arrival.execute, checkLimitMemory]
    split
    · exact (Function.update_of_ne hne _ _).symm
    · exact (Function.update_of_ne hne _ _).symm
  | redis c =>
    unfold Arrival.execute
    dsimp only
    cases a.fails c with
    | none => exact hredis c ho
    | some effect =>
      cases effect with
      | true => exact hredis c ho
      | false => exact ⟨rfl, rfl, rfl⟩

theorem Agree.trans {u : Server} (h : Agree key s t) (h' : Agree key t u) : Agree key s u :=
  ⟨h.entry.trans h'.entry, h.clock.trans h'.clock, h.bucket.trans h'.bucket⟩

/-- The servers will be alike under a key when the clock of Redis has come to `c`. -/
structure Alike (key : String) (c : ℚ) (s t : Server) : Prop where
  entry : ∀ c', c ≤ c' → Redis.live c' (s.redis.keys key) = Redis.live c' (t.redis.keys key)
  bucket : s.buckets key = t.buckets key

theorem Alike.agree {c : ℚ} (h : Alike key c s t) (hc : c ≤ a.clock) :
    Agree key (s.later a.clock) (t.later a.clock) := ⟨h.entry _ hc, rfl, h.bucket⟩

variable (str) in
/-- A request of the key is answered alike, and leaves the servers alike. -/
theorem serve_own {c : ℚ} (hkey : a.key = some key) (h : Alike key c s t) (hc : c ≤ a.clock) :
    (a.serve str s).1 = (a.serve str t).1 ∧
      Alike key a.clock (a.serve str s).2 (a.serve str t).2 := by
  have htouches : Only (Touches key) (fun _ => True) (a.code str) := touches_code hkey
  have htwin : Prog.Twin a.execute (a.code str) (a.code str) (s.later a.clock) (t.later a.clock)
      (fun v w s' t' => v = w ∧ Agree key s' t') fun e f s' t' => e = f ∧ Agree key s' t' :=
    htouches.twin (fun o s t ho h => agree_execute ho h) (h.agree hc)
  unfold Prog.Twin at htwin
  unfold Arrival.serve
  rcases hs : (a.code str).run a.execute (s.later a.clock) with ⟨e | v, s'⟩ <;>
    rcases ht : (a.code str).run a.execute (t.later a.clock) with ⟨f | w, t'⟩ <;>
      rw [hs, ht] at htwin
  · obtain ⟨rfl, hagree⟩ := htwin
    exact ⟨rfl, fun c' _ => by rw [hagree.entry], hagree.bucket⟩
  · exact htwin.elim
  · exact htwin.elim
  · obtain ⟨rfl, hagree⟩ := htwin
    exact ⟨rfl, fun c' _ => by rw [hagree.entry], hagree.bucket⟩

/-- A request of another key, or of none, leaves the key as time does. -/
theorem serve_other (hkey : a.key ≠ some key) :
    Agree key (s.later a.clock) (a.serve str s).2 := by
  unfold Arrival.serve
  cases hother : a.key with
  | none =>
    rw [run_free hother]
    exact ⟨rfl, rfl, rfl⟩
  | some key' =>
    have hne : key ≠ key' := fun he => hkey (he ▸ hother)
    have htouches : Only (Touches key') (fun _ => True) (a.code str) := touches_code hother
    have hframe : Prog.Ensures a.execute (a.code str) (s.later a.clock)
        (fun _ s' => Agree key (s.later a.clock) s') fun _ s' => Agree key (s.later a.clock) s' :=
      htouches.ensures (R := Agree key) (fun s => ⟨rfl, rfl, rfl⟩) (fun _ _ _ h h' => h.trans h')
        (fun o s ho => keeps_execute ho hne) _
    unfold Prog.Ensures at hframe
    rcases hrun : (a.code str).run a.execute (s.later a.clock) with ⟨e | v, s'⟩ <;>
      rw [hrun] at hframe
    · exact hframe
    · exact hframe

variable (str) in
theorem Alike.other {c : ℚ} (hkey : a.key ≠ some key) (h : Alike key c s t) (hc : c ≤ a.clock) :
    Alike key a.clock (a.serve str s).2 t := by
  have hframe : Agree key (s.later a.clock) (a.serve str s).2 := serve_other hkey
  refine ⟨fun c' hc' => ?_, hframe.bucket.symm.trans h.bucket⟩
  have hentry : Redis.live a.clock (s.redis.keys key) = (a.serve str s).2.redis.keys key :=
    hframe.entry
  calc Redis.live c' ((a.serve str s).2.redis.keys key)
      = Redis.live c' (Redis.live a.clock (s.redis.keys key)) := by rw [hentry]
    _ = Redis.live c' (s.redis.keys key) := live_live hc' _
    _ = Redis.live c' (t.redis.keys key) := h.entry c' (hc.trans hc')

/-- The answers under a key are those that its requests get when there are no others. -/
theorem answersOf_key {c : ℚ} {as : List Arrival} (h : Alike key c s t)
    (hc : ∀ a ∈ as, c ≤ a.clock) (hsorted : as.Pairwise fun a b => a.clock ≤ b.clock) :
    answersOf str (fun a => a.key = some key) s as =
      verdicts str t (as.filter fun a => a.key = some key) := by
  induction as generalizing s t c with
  | nil => rfl
  | cons a as ih =>
    obtain ⟨hfirst, hrest⟩ := List.pairwise_cons.mp hsorted
    have hca := hc a List.mem_cons_self
    by_cases hkey : a.key = some key
    · obtain ⟨hanswer, halike⟩ := serve_own str hkey h hca
      have htail := ih halike hfirst hrest
      simp only [answersOf, verdicts, List.zip_cons_cons, List.filter_cons, hkey, decide_true,
        if_true, List.map_cons]
      rw [hanswer]
      exact congrArg _ htail
    · have htail := ih (h.other str hkey hca) hfirst hrest
      simp only [answersOf, verdicts, List.zip_cons_cons, List.filter_cons, hkey, decide_false,
        Bool.false_eq_true, if_false]
      exact htail

end Agreement

section Clients
variable {str : ℚ → String} {r : Request} {a : Arrival}

/-- A request that is counted, of the same client and under the same limit. -/
def Arrival.like (r : Request) (a : Arrival) : Bool :=
  match a.call with
  | .inl r' => !r'.exempt && r'.clientIp = r.clientIp && r'.matchLimit = r.matchLimit
  | .inr _ => false

theorem no_colon (r : Request) : ':' ∉ (r.matchLimit.getD "default").toList := by
  have hrules : ∀ l ∈ defaultLimits, ':' ∉ l.1.toList := by decide
  unfold Request.matchLimit
  cases hfind : defaultLimits.find? fun l => startsWith r.path l.1 with
  | none => exact (by decide : ':' ∉ "default".toList)
  | some l => exact hrules l (List.mem_of_find?_eq_some hfind)

theorem matchLimit_inj {r r' : Request}
    (h : (r.matchLimit.getD "default").toList = (r'.matchLimit.getD "default").toList) :
    r.matchLimit = r'.matchLimit := by
  have hnamed : ∀ r : Request, ∀ rule ∈ r.matchLimit, rule ≠ "default" := by
    intro r rule hrule
    have hrules : ∀ l ∈ defaultLimits, l.1 ≠ "default" := by decide
    obtain ⟨l, hl, rfl⟩ := Option.map_eq_some_iff.mp hrule
    exact hrules l (List.mem_of_find?_eq_some hl)
  rw [String.toList_inj] at h
  cases hr : r.matchLimit with
  | none =>
    cases hr' : r'.matchLimit with
    | none => rfl
    | some rule =>
      rw [hr, hr'] at h
      exact absurd h.symm (hnamed r' rule hr')
  | some rule =>
    cases hr' : r'.matchLimit with
    | none =>
      rw [hr, hr'] at h
      exact absurd h (hnamed r rule hr)
    | some rule' =>
      rw [hr, hr'] at h
      exact congrArg some h

/-- What stands after the last colon is determined. -/
theorem colon_unique {p q p' q' : List Char} (hq : ':' ∉ q) (hq' : ':' ∉ q')
    (h : p ++ ':' :: q = p' ++ ':' :: q') : p = p' ∧ q = q' := by
  have hreverse := congrArg List.reverse h
  simp only [List.reverse_append, List.reverse_cons, List.append_assoc, List.cons_append,
    List.nil_append] at hreverse
  obtain ⟨hback, hfront⟩ := Framing.split_unique (by simpa using hq) (by simpa using hq') hreverse
  exact ⟨List.reverse_inj.mp hfront, List.reverse_inj.mp hback⟩

theorem toList_redisKey (r : Request) : r.redisKey.toList = "rate_limit:".toList ++
    (r.clientIp.toList ++ ':' :: (r.matchLimit.getD "default").toList) := by
  simp [Request.redisKey, String.toList_append]

theorem redisKey_inj {r r' : Request} (h : r.redisKey = r'.redisKey) :
    r.clientIp = r'.clientIp ∧ r.matchLimit = r'.matchLimit := by
  have hchars := congrArg String.toList h
  rw [toList_redisKey, toList_redisKey, List.append_cancel_left_eq] at hchars
  obtain ⟨hip, hrule⟩ := colon_unique (no_colon r) (no_colon r') hchars
  exact ⟨String.toList_inj.mp hip, matchLimit_inj hrule⟩

/-- The key of a booth begins otherwise. -/
theorem redisKey_ne_boothKey {gateId : String} (hip : ¬ "booth".toList <+: r.clientIp.toList) :
    boothKey gateId ≠ r.redisKey := by
  intro h
  have hchars := congrArg String.toList h
  have hbooth : (boothKey gateId).toList =
      "rate_limit:".toList ++ ("booth".toList ++ ':' :: gateId.toList) := by
    simp [boothKey, String.toList_append]
  rw [hbooth, toList_redisKey, List.append_cancel_left_eq] at hchars
  refine hip ?_
  obtain ⟨tail, hclient, -⟩ | ⟨tail, hname, hrest⟩ := List.append_eq_append_iff.mp hchars
  · exact ⟨tail, hclient.symm⟩
  · cases tail with
    | nil => exact ⟨[], by simpa using hname⟩
    | cons c tail =>
      -- the colon would stand within the name
      obtain ⟨rfl, -⟩ := List.cons.inj hrest
      have hcolon : ':' ∈ "booth".toList := by
        rw [hname]
        exact List.mem_append_right _ List.mem_cons_self
      exact absurd hcolon (by decide)

theorem key_iff (hip : ¬ "booth".toList <+: r.clientIp.toList) :
    a.key = some r.redisKey ↔ a.like r = true := by
  unfold Arrival.key Arrival.like
  cases a.call with
  | inl r' =>
    cases hexempt : r'.exempt with
    | true => simp [hexempt]
    | false =>
      simp only [hexempt, Bool.false_eq_true, if_false, Option.some.injEq, Bool.not_false,
        Bool.true_and, Bool.and_eq_true, decide_eq_true_eq]
      constructor
      · exact redisKey_inj
      · rintro ⟨hsame, hrule⟩
        rw [Request.redisKey, Request.redisKey, hsame, hrule]
  | inr gateId =>
    by_cases hgate : gateId = ""
    · simp [hgate]
    · simp only [if_neg hgate, Option.some.injEq, Bool.false_eq_true, iff_false]
      exact redisKey_ne_boothKey hip

/-- Whatever others ask for, from wherever and under whichever limit, and whatever the client itself
asks for under another limit, whether Redis answers or fails: the requests of a client under a limit
are answered as if they were the only ones. -/
theorem verdicts_alone (str : ℚ → String) (r : Request) (as : List Arrival)
    (hip : ¬ "booth".toList <+: r.clientIp.toList)
    (hsorted : as.Pairwise fun a b => a.clock ≤ b.clock) :
    answersOf str (Arrival.like r) {} as = verdicts str {} (as.filter (Arrival.like r)) := by
  have hlike : Arrival.like r = fun a => decide (a.key = some r.redisKey) := by
    funext a
    exact Bool.eq_iff_iff.mpr ((key_iff hip).symm.trans decide_eq_true_iff.symm)
  rw [hlike]
  cases as with
  | nil => rfl
  | cons a as =>
    have hfirst : ∀ b ∈ a :: as, a.clock ≤ b.clock := by
      intro b hb
      obtain rfl | hb := List.mem_cons.mp hb
      · exact le_refl _
      · exact (List.pairwise_cons.mp hsorted).1 b hb
    exact answersOf_key ⟨fun _ _ => rfl, rfl⟩ hfirst hsorted

def login (address : String) : Request :=
  { path := "/api/auth/login", forwarded := some address, host := some "127.0.0.1" }

def arrival (request : Request) (second : ℚ) : Arrival :=
  { call := .inl request, clock := second, now := second }

/-- Six logins of one address within a minute, between those of another one, a payment and a
heartbeat of a booth. -/
def rushHour : List Arrival :=
  [arrival (login "10.0.0.7") 1, arrival (login "10.0.0.8, 10.0.0.7") 2,
    arrival (login "10.0.0.7") 3, { call := .inr "GOUT-01", clock := 4, now := 4 },
    arrival (login " 10.0.0.7,10.0.0.1") 5, arrival (login "10.0.0.7") 6,
    arrival { login "10.0.0.7" with path := "/api/payments/cash" } 7,
    arrival (login "10.0.0.7") 8, arrival (login "10.0.0.7") 9]

theorem verdicts_alone_rush :
    (verdicts wholeSeconds {} (rushHour.filter (Arrival.like (login "10.0.0.7")))).map
        Except.toOption =
      [some (.passed 5 60), some (.passed 5 60), some (.passed 5 60), some (.passed 5 60),
        some (.passed 5 60), some (.tooMany 52 5 60)] ∧
    answersOf wholeSeconds (Arrival.like (login "10.0.0.7")) {} rushHour =
      verdicts wholeSeconds {} (rushHour.filter (Arrival.like (login "10.0.0.7"))) :=
  ⟨by decide +kernel, verdicts_alone _ _ _ (by decide) (by decide)⟩

end Clients
end ParkIt.RateLimit
