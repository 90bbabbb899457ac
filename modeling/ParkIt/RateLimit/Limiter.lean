import ParkIt.Lib.Prog
import ParkIt.Lib.ScoreSet
import Mathlib.Data.Rat.Floor

/-! The rate limits: a sliding window of timestamps in Redis, or in the memory of one process. -/
namespace ParkIt.RateLimit

open Effects Scores

/-- `int(x)`, which truncates. -/
def int (x : ℚ) : Int := x.num.tdiv x.den

inductive Command where
  | connect
  | zremrangebyscore (key : String) (low high : ℚ)
  | zcard (key : String)
  /-- The score of `zrange(key, 0, 0, withscores=True)`. -/
  | oldest (key : String)
  | zadd (key member : String) (score : ℚ)
  | expire (key : String) (seconds : Nat)
deriving DecidableEq, Repr

abbrev Command.Val : Command → Type
  | .zcard _ => Nat
  | .oldest _ => Option ℚ
  | _ => Unit

inductive LimitOp where
  | redis (c : Command)
  | time
  /-- `_check_limit_memory`, which nothing can interrupt. -/
  | memory (key : String) (maxRequests window : Nat)
deriving DecidableEq, Repr

abbrev LimitOp.Ans : LimitOp → Type
  | .redis c => Except String c.Val
  | .time => ℚ
  | .memory _ _ _ => Bool × Int

inductive LimitExc where
  | redis (error : String)
  | http (status : Nat) (detail : String) (retryAfter : Int)
deriving DecidableEq, Repr

abbrev Work (α : Type) := Prog LimitOp LimitOp.Ans LimitExc α

def redis (c : Command) : Work c.Val := do
  match ← Prog.perform (.redis c : LimitOp) with
  | .ok v => pure v
  | .error e => Prog.raise (.redis e)

abbrev Buckets := String → List ℚ

def checkLimitMemory (buckets : Buckets) (key : String) (maxRequests window : Nat) (now : ℚ) :
    (Bool × Int) × Buckets :=
  let windowStart := now - window
  let kept := (buckets key).filter fun ts => windowStart < ts
  if maxRequests ≤ kept.length then
    let oldest := kept.headD now
    ((false, max 1 (int (oldest + window - now))), Function.update buckets key kept)
  else ((true, 0), Function.update buckets key (kept ++ [now]))

def boothLimitMax : Nat := 60

def boothLimitWindow : Nat := 60

def boothKey (gateId : String) : String := "rate_limit:booth:" ++ gateId

section Code
variable (str : ℚ → String)

/-- `str` is the text of a timestamp. -/
def checkLimit (redisKey : String) (maxRequests window : Nat) : Work (Bool × Int) :=
  Prog.handle (do
    redis .connect
    let now ← Prog.perform (.time : LimitOp)
    let windowStart := now - window
    redis (.zremrangebyscore redisKey 0 windowStart)
    let currentCount ← redis (.zcard redisKey)
    if maxRequests ≤ currentCount then
      match ← redis (.oldest redisKey) with
      | some oldestTimestamp => pure (false, max 1 (int (oldestTimestamp + window - now)))
      | none => pure (false, window)
    else
      redis (.zadd redisKey (str now) now)
      redis (.expire redisKey (window + 1))
      pure (true, 0))
    fun _ => Prog.perform (.memory redisKey maxRequests window : LimitOp)

/-- Fails open where Redis fails. -/
def enforceBoothRateLimit (gateId : String) : Work Unit :=
  if gateId = "" then pure ()
  else
    let key := boothKey gateId
    Prog.handle (do
      redis .connect
      let now ← Prog.perform (.time : LimitOp)
      let windowStart := now - boothLimitWindow
      redis (.zremrangebyscore key 0 windowStart)
      let count ← redis (.zcard key)
      if boothLimitMax ≤ count then
        let retryAfter := match ← redis (.oldest key) with
          | some oldest => max 1 (int (oldest + boothLimitWindow - now))
          | none => max 1 boothLimitWindow
        Prog.raise (.http 429 "Too many booth requests for this gate" retryAfter)
      else
        redis (.zadd key (str now) now)
        redis (.expire key (boothLimitWindow + 1)))
      fun
        | .http status detail retryAfter => Prog.raise (.http status detail retryAfter)
        | .redis _ => pure ()

/-- A request that is limited. -/
inductive Call where
  | limit (key : String) (maxRequests window : Nat)
  | booth (gateId : String)
deriving DecidableEq, Repr

namespace Call

def key : Call → String
  | .limit key _ _ => key
  | .booth gateId => boothKey gateId

def maxRequests : Call → Nat
  | .limit _ maxRequests _ => maxRequests
  | .booth _ => boothLimitMax

def window : Call → Nat
  | .limit _ _ window => window
  | .booth _ => boothLimitWindow

/-- Whether the request is admitted, and after how many seconds to try again. -/
def code : Call → Work (Bool × Int)
  | .limit key maxRequests window => checkLimit str key maxRequests window
  | .booth gateId =>
    Prog.handle (do
      enforceBoothRateLimit str gateId
      pure (true, 0))
      fun
        | .http _ _ retryAfter => pure (false, retryAfter)
        | e => Prog.raise e

end Call
end Code

/-- The text of a whole number of seconds. -/
def wholeSeconds (t : ℚ) : String := toString t.num ++ ".0"

/-- A sorted set of Redis, with the moment at which it goes. -/
structure Entry where
  set : ScoreSet String ℚ := ∅
  deadline : Option ℚ := none

/-- A key that is not there has the empty set. -/
structure Redis where
  keys : String → Entry := fun _ => {}
  clock : ℚ := 0

namespace Redis
variable (r : Redis)

def put (key : String) (e : Entry) : Redis := { r with keys := Function.update r.keys key e }

def live (clock : ℚ) (e : Entry) : Entry :=
  if ∃ deadline ∈ e.deadline, deadline ≤ clock then {} else e

/-- Redis at a later moment. -/
def later (clock : ℚ) : Redis where
  keys key := live clock (r.keys key)
  clock

/-- What a command of Redis answers and leaves. -/
def execute : (c : Command) → c.Val × Redis
  | .connect => ((), r)
  | .zremrangebyscore key low high =>
    ((), r.put key { r.keys key with set := (r.keys key).set.removeRangeByScore low high })
  | .zcard key => ((r.keys key).set.card, r)
  | .oldest key => ((r.keys key).set.lowest, r)
  | .zadd key member score =>
    ((), r.put key { r.keys key with set := (r.keys key).set.add member score })
  | .expire key seconds => ((), r.put key { r.keys key with deadline := some (r.clock + seconds) })

@[simp] theorem put_keys_self (key : String) (e : Entry) : (r.put key e).keys key = e :=
  Function.update_self ..

@[simp] theorem put_clock (key : String) (e : Entry) : (r.put key e).clock = r.clock := rfl

@[simp] theorem put_put (key : String) (e e' : Entry) :
    (r.put key e).put key e' = r.put key e' := by
  simp [put]

end Redis
end ParkIt.RateLimit
