import ParkIt.Lib.Lease
import ParkIt.Migration.Gates

/-! Which gates are shown as online, and for how long they are. -/
namespace ParkIt.Liveness

open Migration (Direction)

/-- A row of `gates`. -/
abbrev Gate := Migration.Gate

def second : Nat := 1000000

/-- `status_payload` of a daemon. -/
structure Beat where
  gateId : String
  state : String
  controllerOk : Bool
  ts : Nat
deriving DecidableEq, Repr

/-- How Redis takes a call: after which time it takes effect, if it does, and when it returns. -/
structure Call where
  effect : Option Nat
  took : Nat
  raises : Bool := false
  inTime : ∀ e ∈ effect, e ≤ took
  done : effect = none → raises = true

/-- One turn of the loop of `_heartbeat`. -/
structure Turn where
  beat : Beat
  xadd : Call
  publish : Call
  publishState : Call
  set : Call

/-- The append to the stream may fail; what else raises ends the turn, and is followed by a shorter
sleep. -/
def Turn.heartbeat (t : Turn) : Lease.Round Beat :=
  let published := t.xadd.took + t.publish.took
  if t.publish.raises then { took := published, wait := 5 * second }
  else
    let published := published + t.publishState.took
    if t.publishState.raises then { took := published, wait := 5 * second }
    else
      { renews := t.set.effect.map fun e => (published + e, t.beat)
        took := published + t.set.took
        wait := if t.set.raises then 5 * second else 30 * second }

/-- A post of a booth, and when the server has recorded it. -/
structure Post where
  recorded : Option Nat
  took : Nat
  inTime : ∀ e ∈ recorded, e ≤ took

/-- One turn of `_send_heartbeats`; a post that fails does not raise. -/
def Post.sendHeartbeat (p : Post) : Lease.Round Unit where
  renews := p.recorded.map fun e => (e, ())
  took := p.took
  wait := 15 * second

structure Pos extends Migration.Pos where
  lastSeenAt : Option Nat := none
deriving DecidableEq, Repr

inductive Event where
  | set (key : String) (value : Beat)
  | post (boothCode : String)
deriving DecidableEq, Repr

structure World where
  redis : List (String × Nat × Beat) := []
  pos : List Pos := []

/-- `booth_heartbeat`: a code that is not known is refused. -/
def boothHeartbeat (pos : List Pos) (boothCode : String) (now : Nat) : List Pos :=
  pos.map fun p => if p.code = boothCode then { p with lastSeenAt := some now } else p

def World.next (w : World) : Nat × Event → World
  | (now, .set key value) => { w with redis := w.redis ++ [(key, now, value)] }
  | (now, .post boothCode) => { w with pos := boothHeartbeat w.pos boothCode now }

/-- What has come of the events up to a time. -/
def World.after (w : World) (events : List (Nat × Event)) (now : Nat) : World :=
  (events.filter (·.1 ≤ now)).foldl World.next w

def liveKey (code : String) : String := "gate:heartbeat:" ++ code

/-- `GET`, of a key that was set with `ex=60`. -/
def World.get (w : World) (now : Nat) (key : String) : Option Beat :=
  (Lease.lookup (60 * second) ((w.redis.filter (·.1 = key)).map (·.2)) now).map (·.2)

structure Status where
  code : String
  direction : Direction
  online : Bool
  state : Option String := none
  controllerOk : Option Bool := none
  lastSeen : Option Nat := none
deriving DecidableEq, Repr

def statusOut (pos : List Pos) (now : Nat) (g : Gate) : Status :=
  let lastSeen := (g.posId.bind fun i => pos.find? (·.id = i)).bind (·.lastSeenAt)
  { code := g.code
    direction := g.direction
    online := lastSeen.any fun seen => now ≤ seen + 60 * second
    lastSeen := lastSeen }

def statusIn (g : Gate) : Option Beat → Status
  | some payload =>
    { code := g.code
      direction := g.direction
      online := true
      state := some payload.state
      controllerOk := some payload.controllerOk
      lastSeen := some payload.ts }
  | none => { code := g.code, direction := g.direction, online := false }

/-- `gates_heartbeat_status`: the keys of all entry gates are fetched at once. -/
def gatesHeartbeatStatus (gates : List Gate) (w : World) (now : Nat) : List Status :=
  let gates := gates.filter (·.isActive)
  let keys := (gates.filter (·.direction = .IN)).map fun g => liveKey g.code
  let values := keys.map (w.get now)
  let heartbeats := keys.zip values
  gates.map fun g =>
    match g.direction with
    | .OUT => statusOut w.pos now g
    | .IN => statusIn g ((heartbeats.lookup (liveKey g.code)).bind id)

section Answers
variable {w : World} {now : Nat} {g : Gate} {gates : List Gate}

theorem lookup_zip_map {f : String → Option Beat} {keys : List String} {key : String}
    (h : key ∈ keys) : (keys.zip (keys.map f)).lookup key = some (f key) := by
  induction keys with
  | nil => cases h
  | cons k keys ih =>
    by_cases hk : key = k
    · subst hk
      simp
    · have hin : key ∈ keys := by simpa [hk] using h
      simp [List.lookup_cons, ih hin, beq_eq_false_iff_ne.mpr hk]

/-- What is said of one gate, which depends on nothing that is said of another one. -/
def entry (w : World) (now : Nat) (g : Gate) : Status :=
  match g.direction with
  | .OUT => statusOut w.pos now g
  | .IN => statusIn g (w.get now (liveKey g.code))

theorem gatesHeartbeatStatus_eq (gates : List Gate) (w : World) (now : Nat) :
    gatesHeartbeatStatus gates w now = (gates.filter (·.isActive)).map (entry w now) := by
  refine List.map_congr_left fun g hg => ?_
  unfold entry
  cases hd : g.direction with
  | OUT => rfl
  | IN =>
    have hkey : liveKey g.code ∈ ((gates.filter (·.isActive)).filter
        (·.direction = .IN)).map fun g => liveKey g.code :=
      List.mem_map.mpr ⟨g, List.mem_filter.mpr ⟨hg, by simpa using hd⟩, rfl⟩
    dsimp only
    rw [lookup_zip_map hkey]
    rfl

theorem entry_code (w : World) (now : Nat) (g : Gate) : (entry w now g).code = g.code := by
  unfold entry
  cases g.direction with
  | OUT => rfl
  | IN => cases w.get now (liveKey g.code) <;> rfl

/-- What is shown for a code. -/
def shown (gates : List Gate) (w : World) (now : Nat) (code : String) : Option Status :=
  (gatesHeartbeatStatus gates w now).find? (·.code = code)

theorem shown_eq (hcodes : (gates.map (·.code)).Nodup) (hg : g ∈ gates)
    (hactive : g.isActive = true) : shown gates w now g.code = some (entry w now g) := by
  unfold shown
  rw [gatesHeartbeatStatus_eq]
  refine Serial.find_of_unique ?_ (by simp [entry_code]) fun s hs hcode => ?_
  · exact List.mem_map_of_mem (List.mem_filter.mpr ⟨hg, by simpa using hactive⟩)
  · obtain ⟨q, hq, rfl⟩ := List.mem_map.mp hs
    have hsame : q.code = g.code := by simpa [entry_code] using hcode
    rw [List.inj_on_of_nodup_map hcodes (List.mem_filter.mp hq).1 hg hsame]

end Answers

section Events
variable {w : World} {now : Nat} {key : String}

def beatAt (key : String) : Nat × Event → Option (Nat × Beat)
  | (t, .set k b) => if k = key then some (t, b) else none
  | (_, .post _) => none

def postOf (boothCode : String) : Nat × Event → Option (Nat × Unit)
  | (t, .post code) => if code = boothCode then some (t, ()) else none
  | (_, .set _ _) => none

/-- The beats that are written to a key. -/
def beatsAt (key : String) (events : List (Nat × Event)) : List (Nat × Beat) :=
  events.filterMap (beatAt key)

/-- When the posts of a booth are recorded. -/
def postsOf (boothCode : String) (events : List (Nat × Event)) : List (Nat × Unit) :=
  events.filterMap (postOf boothCode)

theorem beatAt_time {e : Nat × Event} {x : Nat × Beat} (h : beatAt key e = some x) :
    x.1 = e.1 := by
  obtain ⟨t, e⟩ := e
  cases e with
  | set k b =>
    obtain ⟨-, hx⟩ := Option.ite_none_right_eq_some.mp h
    exact congrArg Prod.fst (Option.some.inj hx).symm
  | post code => cases h

theorem postOf_time {e : Nat × Event} {x : Nat × Unit} (h : postOf key e = some x) :
    x.1 = e.1 := by
  obtain ⟨t, e⟩ := e
  cases e with
  | set k b => cases h
  | post code =>
    obtain ⟨-, hx⟩ := Option.ite_none_right_eq_some.mp h
    exact congrArg Prod.fst (Option.some.inj hx).symm

theorem filterMap_until {V : Type} {f : Nat × Event → Option (Nat × V)}
    (hf : ∀ e x, f e = some x → x.1 = e.1) (events : List (Nat × Event)) :
    (events.filter (·.1 ≤ now)).filterMap f = (events.filterMap f).filter (·.1 ≤ now) := by
  rw [List.filterMap_filter, List.filter_filterMap]
  refine List.filterMap_congr fun e _ => ?_
  cases hx : f e with
  | none => simp
  | some x =>
    rw [← hf e x hx]
    by_cases h : x.1 ≤ now <;> simp [h, Option.filter]

theorem lookup_until {V : Type} {ttl : Nat} (writes : List (Nat × V)) :
    Lease.lookup ttl (writes.filter (·.1 ≤ now)) now = Lease.lookup ttl writes now := by
  unfold Lease.lookup
  rw [List.filter_filter]
  simp only [Bool.and_self]

theorem beats_written (events : List (Nat × Event)) (w : World) :
    (((events.foldl World.next w).redis.filter (·.1 = key)).map (·.2)) =
      (w.redis.filter (·.1 = key)).map (·.2) ++ beatsAt key events := by
  induction events generalizing w with
  | nil => simp [beatsAt]
  | cons e events ih =>
    rw [List.foldl_cons, ih]
    obtain ⟨t, e⟩ := e
    cases e with
    | set k b => by_cases hk : k = key <;> simp [World.next, beatsAt, beatAt, hk]
    | post code => simp [World.next, beatsAt, beatAt, List.filterMap_cons]

/-- A key that has not been written before shows the beats of the events. -/
theorem get_after {events : List (Nat × Event)} (hw : w.redis = []) :
    (w.after events now).get now key =
      (Lease.lookup (60 * second) (beatsAt key events) now).map (·.2) := by
  have hbeats : beatsAt key (events.filter (·.1 ≤ now)) =
      (beatsAt key events).filter (·.1 ≤ now) := filterMap_until (fun _ _ => beatAt_time) events
  unfold World.get World.after
  rw [beats_written, hw, hbeats]
  exact congrArg (Option.map (·.2)) (lookup_until (beatsAt key events))

/-- The time that a booth was last seen is that of its latest post. -/
theorem pos_after {pos : List Pos} (hpos : ∀ p ∈ pos, p.lastSeenAt = none)
    (events : List (Nat × Event)) :
    (({ pos } : World).after events now).pos = pos.map fun p =>
      { p with lastSeenAt := (((postsOf p.code events).filter (·.1 ≤ now)).getLast?).map (·.1) } := by
  have hfold : ∀ (events : List (Nat × Event)) (w : World),
      (events.foldl World.next w).pos = w.pos.map fun p =>
        { p with lastSeenAt := (((postsOf p.code events).getLast?).map (·.1)).or p.lastSeenAt } := by
    intro events
    induction events with
    | nil => intro w; simp [postsOf]
    | cons e events ih =>
      intro w
      obtain ⟨t, e⟩ := e
      rw [List.foldl_cons, ih]
      cases e with
      | set k b => simp [World.next, postsOf, postOf]
      | post code =>
        simp only [World.next, boothHeartbeat, List.map_map]
        refine List.map_congr_left fun p _ => ?_
        by_cases hp : p.code = code
        · subst hp
          simp only [Function.comp_apply, if_true, postsOf, List.filterMap_cons, postOf]
          cases hlast : (events.filterMap (postOf p.code)).getLast? with
          | none => simp [List.getLast?_cons, hlast]
          | some x => simp [List.getLast?_cons, hlast]
        · simp [hp, postsOf, postOf, Ne.symm hp]
  unfold World.after
  rw [hfold]
  refine List.map_congr_left fun p hp => ?_
  rw [hpos p hp, Option.or_none]
  exact congrArg (fun l => { p with lastSeenAt := (List.getLast? l).map Prod.fst })
    (filterMap_until (fun _ _ => postOf_time) events)

end Events

open Lease

def OnlineAt (gates : List Gate) (w : World) (now : Nat) (code : String) : Prop :=
  ∃ s, shown gates w now code = some s ∧ s.online = true

section Daemons
variable {c k : Nat}

structure Turn.Within (t : Turn) (c : Nat) : Prop where
  xadd : t.xadd.took ≤ c
  publish : t.publish.took ≤ c
  publishState : t.publishState.took ≤ c
  set : t.set.took ≤ c

/-- A daemon whose calls take `c` at most, and that fails to set its key `k` times in a row at
most. -/
structure DaemonRun (c k : Nat) where
  start : Nat
  turns : List Turn
  within : ∀ t ∈ turns, t.Within c
  dry : DryAtMost k (turns.map Turn.heartbeat)

namespace DaemonRun

def beats (r : DaemonRun c k) : List (Nat × Beat) := renewals r.start (r.turns.map Turn.heartbeat)

/-- From the first beat to the end of the last turn. -/
def AliveAt (r : DaemonRun c k) (now : Nat) : Prop :=
  (∃ first, r.beats.head? = some first ∧ first.1 ≤ now) ∧
    now < ending r.start (r.turns.map Turn.heartbeat)

end DaemonRun

def daemonPace (c : Nat) : Pace where
  took := 4 * c
  lag := c
  pause := 30 * second
  retry := 5 * second

theorem Turn.Within.keeps {t : Turn} (h : t.Within c) : (daemonPace c).Keeps t.heartbeat := by
  obtain ⟨hxadd, hpublish, hstate, hset⟩ := h
  have hshort : 5 * second ≤ 30 * second := by decide
  unfold Turn.heartbeat
  split
  · exact ⟨by simp only [daemonPace]; omega, by rintro x ⟨⟩, fun _ => Nat.le_refl _⟩
  split
  · exact ⟨by simp only [daemonPace]; omega, by rintro x ⟨⟩, fun _ => Nat.le_refl _⟩
  · refine ⟨by simp only [daemonPace]; omega, fun x hx => ?_, fun hnone => ?_⟩
    · obtain ⟨e, he, rfl⟩ := Option.map_eq_some_iff.mp hx
      have hin := t.set.inTime e he
      refine ⟨by dsimp only; omega, by simp only [daemonPace]; omega, ?_⟩
      dsimp only [daemonPace]
      split <;> omega
    · have hraises := t.set.done (Option.map_eq_none_iff.mp hnone)
      rw [if_pos hraises]
      exact Nat.le_refl _

theorem DaemonRun.keeps (r : DaemonRun c k) :
    ∀ x ∈ r.turns.map Turn.heartbeat, (daemonPace c).Keeps x := by
  intro x hx
  obtain ⟨t, ht, rfl⟩ := List.mem_map.mp hx
  exact (r.within t ht).keeps

end Daemons

section Entries
variable {gates : List Gate} {g : Gate} {pos : List Pos} {events : List (Nat × Event)} {now : Nat}

theorem onlineAt_entry (hcodes : (gates.map (·.code)).Nodup) (hg : g ∈ gates)
    (hactive : g.isActive = true) (hin : g.direction = .IN) :
    OnlineAt gates (({ pos } : World).after events now) now g.code ↔
      (lookup (60 * second) (beatsAt (liveKey g.code) events) now).isSome = true := by
  unfold OnlineAt
  rw [shown_eq hcodes hg hactive]
  have hentry : entry (({ pos } : World).after events now) now g =
      statusIn g ((lookup (60 * second) (beatsAt (liveKey g.code) events) now).map (·.2)) := by
    rw [entry, hin]
    exact congrArg (statusIn g) (get_after rfl)
  rw [hentry]
  cases lookup (60 * second) (beatsAt (liveKey g.code) events) now with
  | none => simp [statusIn]
  | some b => simp [statusIn]

/-- A call that takes `c`, and works at once. -/
def early (c : Nat) : Call where
  effect := some 0
  took := c
  inTime := by simp
  done := by simp

/-- A call that takes `c`, and works at the end. -/
def late (c : Nat) : Call where
  effect := some c
  took := c
  inTime := by simp
  done := by simp

/-- A call that raises after `c`. -/
def failed (c : Nat) : Call where
  effect := none
  took := c
  raises := true
  inTime := by simp
  done := by simp

def slowTurn (beat : Beat) (c : Nat) : Turn := ⟨beat, late c, late c, late c, late c⟩
def firstTurn (beat : Beat) (c : Nat) : Turn := ⟨beat, early 0, early 0, early 0, early c⟩
def failedTurn (beat : Beat) (c : Nat) : Turn := ⟨beat, late c, late c, late c, failed c⟩

/-- One beat, failures as often as they may be, and a beat again. -/
def slowestRun (beat : Beat) (c k : Nat) : DaemonRun c k where
  start := 0
  turns := firstTurn beat c :: (List.replicate k (failedTurn beat c) ++ [slowTurn beat c])
  within := by
    intro t ht
    rcases List.mem_cons.mp ht with rfl | ht
    · constructor <;> simp [firstTurn, early]
    rcases List.mem_append.mp ht with ht | ht
    · rw [List.eq_of_mem_replicate ht]
      constructor <;> simp [failedTurn, late, failed]
    · rw [List.mem_singleton.mp ht]
      constructor <;> simp [slowTurn, late]
  dry := by
    refine dryAtMost_of_count ?_
    simp [List.countP_append, List.countP_replicate, Turn.heartbeat, firstTurn, failedTurn,
      slowTurn, early, late, failed]

theorem slowestRun_beats (beat : Beat) (c k : Nat) : (slowestRun beat c k).beats =
    [(0, beat), ((daemonPace c).gap k, beat)] := by
  unfold DaemonRun.beats slowestRun
  rw [List.map_cons, List.map_append, List.map_replicate, List.map_singleton]
  rw [renewals_between (0, beat) (4 * c, beat) rfl rfl ?_]
  · simp [Turn.heartbeat, firstTurn, failedTurn, early, late, failed, Pace.gap, daemonPace]
    omega
  · simp [Turn.heartbeat, slowTurn, late]
    omega

theorem not_held_after {V : Type} {ttl gap : Nat} {v w : V} (hgap : ttl < gap) :
    lookup ttl [(0, v), (gap, w)] ttl = none := by
  unfold lookup
  rw [List.filter_cons_of_pos (by simp), List.filter_cons_of_neg (by simpa using hgap)]
  simp [Option.filter]

def writesOf (key : String) (beats : List (Nat × Beat)) : List (Nat × Event) :=
  beats.map fun x => (x.1, .set key x.2)

theorem beatsAt_writesOf (key : String) (beats : List (Nat × Beat)) :
    beatsAt key (writesOf key beats) = beats := by
  unfold beatsAt writesOf
  rw [List.filterMap_map]
  have hsome : (beatAt key ∘ fun x : Nat × Beat => (x.1, Event.set key x.2)) = some := by
    funext x
    simp [beatAt]
  rw [hsome, List.filterMap_some]

/-- An entry gate whose daemon lives is online all the time, whatever else happens, if and only if
the failures in a row that are allowed fit into the life of the key. -/
theorem entry_online_iff (hcodes : (gates.map (·.code)).Nodup) (hg : g ∈ gates)
    (hactive : g.isActive = true) (hin : g.direction = .IN) (c k : Nat) :
    (∀ (r : DaemonRun c k) (events : List (Nat × Event)),
      beatsAt (liveKey g.code) events = r.beats → ∀ now, r.AliveAt now →
        OnlineAt gates (({ pos } : World).after events now) now g.code) ↔
      c + 30 * second + k * (4 * c + 5 * second) + 4 * c ≤ 60 * second := by
  constructor
  · intro h
    by_contra hgap
    have hlong : 60 * second < (daemonPace c).gap k := Nat.lt_of_not_le hgap
    let beat : Beat := { gateId := g.code, state := "IDLE", controllerOk := true, ts := 0 }
    have hbeats := slowestRun_beats beat c k
    have halive : (slowestRun beat c k).AliveAt (60 * second) := by
      refine ⟨⟨(0, beat), by rw [hbeats]; rfl, Nat.zero_le _⟩, Nat.lt_of_lt_of_le hlong ?_⟩
      have hlast : ((daemonPace c).gap k, beat) ∈ (slowestRun beat c k).beats := by
        rw [hbeats]
        exact List.mem_cons_of_mem _ List.mem_cons_self
      exact le_ending_of_mem (slowestRun beat c k).keeps hlast
    have hsaid := h (slowestRun beat c k) (writesOf (liveKey g.code) (slowestRun beat c k).beats)
      (beatsAt_writesOf _ _) _ halive
    rw [onlineAt_entry hcodes hg hactive hin, beatsAt_writesOf, hbeats, not_held_after hlong]
      at hsaid
    cases hsaid
  · rintro hgap r events hevents now ⟨⟨first, hfirst, hnow⟩, hend⟩
    obtain ⟨w, hw, hle, hlt⟩ := renewed_recently r.keeps r.dry hfirst hnow hend
    rw [onlineAt_entry hcodes hg hactive hin, hevents]
    have hheld : w.1 + (daemonPace c).gap k ≤ w.1 + 60 * second := Nat.add_le_add_left hgap w.1
    exact (lookup_isSome_iff (renewals_sorted r.keeps)).mpr
      ⟨w, hw, hle, Nat.lt_of_lt_of_le hlt hheld⟩

def entryGate : Gate := { id := 1, name := "Entry", code := "GIN-01", direction := .IN }

/-- Five failures in a row do no harm while every call takes a tenth of a second at most. -/
theorem entry_online_iff_five :
    100000 + 30 * second + 5 * (4 * 100000 + 5 * second) + 4 * 100000 ≤ 60 * second ∧
    ∀ (r : DaemonRun 100000 5) (events : List (Nat × Event)),
      beatsAt (liveKey "GIN-01") events = r.beats → ∀ now, r.AliveAt now →
        OnlineAt [entryGate] (({ pos := [] } : World).after events now) now "GIN-01" := by
  have hfits : 100000 + 30 * second + 5 * (4 * 100000 + 5 * second) + 4 * 100000 ≤ 60 * second := by
    decide
  refine ⟨hfits, ?_⟩
  exact (entry_online_iff (g := entryGate) (by simp) (List.mem_singleton.mpr rfl)
    rfl rfl 100000 5).mpr hfits

end Entries

section Booths
variable {d k : Nat}

/-- A booth whose posts take `d` at most, and are lost `k` times in a row at most. -/
structure BoothRun (d k : Nat) where
  start : Nat
  posts : List Post
  within : ∀ p ∈ posts, p.took ≤ d
  dry : DryAtMost k (posts.map Post.sendHeartbeat)

namespace BoothRun

def recorded (r : BoothRun d k) : List (Nat × Unit) :=
  renewals r.start (r.posts.map Post.sendHeartbeat)

def AliveAt (r : BoothRun d k) (now : Nat) : Prop :=
  (∃ first, r.recorded.head? = some first ∧ first.1 ≤ now) ∧
    now < ending r.start (r.posts.map Post.sendHeartbeat)

end BoothRun

def boothPace (d : Nat) : Pace where
  took := d
  lag := d
  pause := 15 * second
  retry := 15 * second

theorem BoothRun.keeps (r : BoothRun d k) :
    ∀ x ∈ r.posts.map Post.sendHeartbeat, (boothPace d).Keeps x := by
  intro x hx
  obtain ⟨p, hp, rfl⟩ := List.mem_map.mp hx
  have htook := r.within p hp
  refine ⟨htook, fun x hx => ?_, fun _ => Nat.le_refl _⟩
  obtain ⟨e, he, rfl⟩ := Option.map_eq_some_iff.mp hx
  refine ⟨p.inTime e he, ?_, Nat.le_refl _⟩
  simp only [Post.sendHeartbeat, boothPace]
  omega

def earlyPost (d : Nat) : Post := ⟨some 0, d, by simp⟩
def latePost (d : Nat) : Post := ⟨some d, d, by simp⟩
def lostPost (d : Nat) : Post := ⟨none, d, by simp⟩

/-- One post, losses as often as they may be, and a post again. -/
def slowestPosts (d k : Nat) : BoothRun d k where
  start := 0
  posts := earlyPost d :: (List.replicate k (lostPost d) ++ [latePost d])
  within := by
    intro p hp
    rcases List.mem_cons.mp hp with rfl | hp
    · exact Nat.le_refl d
    rcases List.mem_append.mp hp with hp | hp
    · rw [List.eq_of_mem_replicate hp]
      exact Nat.le_refl d
    · rw [List.mem_singleton.mp hp]
      exact Nat.le_refl d
  dry := by
    refine dryAtMost_of_count ?_
    simp [List.countP_append, List.countP_replicate, Post.sendHeartbeat, earlyPost, lostPost,
      latePost]

theorem slowestPosts_recorded (d k : Nat) :
    (slowestPosts d k).recorded = [(0, ()), ((boothPace d).gap k, ())] := by
  unfold BoothRun.recorded slowestPosts
  rw [List.map_cons, List.map_append, List.map_replicate, List.map_singleton]
  rw [renewals_between (0, ()) (d, ()) rfl rfl rfl]
  simp [Post.sendHeartbeat, earlyPost, lostPost, Pace.gap, boothPace]

end Booths

section Exits
variable {gates : List Gate} {g : Gate} {pos : List Pos} {booth : Pos}
  {events : List (Nat × Event)} {now : Nat}

/-- The booth that an exit gate belongs to, and that has not been seen before. -/
structure BoothOf (pos : List Pos) (g : Gate) (booth : Pos) : Prop where
  ids : (pos.map (·.id)).Nodup
  new : ∀ p ∈ pos, p.lastSeenAt = none
  mem : booth ∈ pos
  refers : g.posId = some booth.id

theorem seen_within {n : Nat} (last : Option (Nat × Unit)) :
    ((last.map (·.1)).any fun seen => decide (now ≤ seen + n)) =
      (last.filter fun w => decide (now < w.1 + (n + 1))).isSome := by
  cases last with
  | none => rfl
  | some x => simp only [Option.map_some, Option.any_some, Option.isSome_filter, ← Nat.add_assoc,
      Nat.lt_add_one_iff]

theorem onlineAt_exit (hcodes : (gates.map (·.code)).Nodup) (hg : g ∈ gates)
    (hactive : g.isActive = true) (hout : g.direction = .OUT) (hbooth : BoothOf pos g booth) :
    OnlineAt gates (({ pos } : World).after events now) now g.code ↔
      (lookup (60 * second + 1) (postsOf booth.code events) now).isSome = true := by
  have hseen : (({ pos } : World).after events now).pos.find? (·.id = booth.id) =
      some { booth with
        lastSeenAt := (((postsOf booth.code events).filter (·.1 ≤ now)).getLast?).map (·.1) } := by
    rw [pos_after hbooth.new]
    refine Serial.find_of_unique (List.mem_map.mpr ⟨booth, hbooth.mem, rfl⟩) (by simp) ?_
    intro q hq hid
    obtain ⟨p, hp, rfl⟩ := List.mem_map.mp hq
    rw [List.inj_on_of_nodup_map hbooth.ids hp hbooth.mem (by simpa using hid)]
  unfold OnlineAt
  rw [shown_eq hcodes hg hactive]
  have hentry : entry (({ pos } : World).after events now) now g =
      statusOut (({ pos } : World).after events now).pos now g := by rw [entry, hout]
  rw [hentry]
  unfold statusOut lookup
  rw [hbooth.refers, Option.bind_some, hseen, Option.bind_some, ← seen_within]
  simp only [Option.some.injEq, exists_eq_left']

def recordsOf (code : String) (posts : List (Nat × Unit)) : List (Nat × Event) :=
  posts.map fun x => (x.1, .post code)

theorem postsOf_recordsOf (code : String) (posts : List (Nat × Unit)) :
    postsOf code (recordsOf code posts) = posts := by
  unfold postsOf recordsOf
  rw [List.filterMap_map]
  have hsome : (postOf code ∘ fun x : Nat × Unit => (x.1, Event.post code)) = some := by
    funext x
    simp [postOf]
  rw [hsome, List.filterMap_some]

/-- An exit gate whose booth lives is online all the time if and only if the losses in a row that
are allowed fit into the 60 seconds. -/
theorem exit_online_iff (hcodes : (gates.map (·.code)).Nodup) (hg : g ∈ gates)
    (hactive : g.isActive = true) (hout : g.direction = .OUT) (hbooth : BoothOf pos g booth)
    (d k : Nat) :
    (∀ (r : BoothRun d k) (events : List (Nat × Event)),
      postsOf booth.code events = r.recorded → ∀ now, r.AliveAt now →
        OnlineAt gates (({ pos } : World).after events now) now g.code) ↔
      d + 15 * second + k * (d + 15 * second) + d ≤ 60 * second + 1 := by
  constructor
  · intro h
    by_contra hgap
    have hlong : 60 * second + 1 < (boothPace d).gap k := Nat.lt_of_not_le hgap
    have hrecorded := slowestPosts_recorded d k
    have halive : (slowestPosts d k).AliveAt (60 * second + 1) := by
      refine ⟨⟨(0, ()), by rw [hrecorded]; rfl, Nat.zero_le _⟩, Nat.lt_of_lt_of_le hlong ?_⟩
      have hlast : ((boothPace d).gap k, ()) ∈ (slowestPosts d k).recorded := by
        rw [hrecorded]
        exact List.mem_cons_of_mem _ List.mem_cons_self
      exact le_ending_of_mem (slowestPosts d k).keeps hlast
    have hsaid := h (slowestPosts d k) (recordsOf booth.code (slowestPosts d k).recorded)
      (postsOf_recordsOf _ _) _ halive
    rw [onlineAt_exit hcodes hg hactive hout hbooth, postsOf_recordsOf, hrecorded,
      not_held_after hlong] at hsaid
    cases hsaid
  · rintro hgap r events hevents now ⟨⟨first, hfirst, hnow⟩, hend⟩
    obtain ⟨w, hw, hle, hlt⟩ := renewed_recently r.keeps r.dry hfirst hnow hend
    rw [onlineAt_exit hcodes hg hactive hout hbooth, hevents]
    have hheld : w.1 + (boothPace d).gap k ≤ w.1 + (60 * second + 1) :=
      Nat.add_le_add_left hgap w.1
    exact (lookup_isSome_iff (renewals_sorted r.keeps)).mpr
      ⟨w, hw, hle, Nat.lt_of_lt_of_le hlt hheld⟩

def exitBooth : Pos := { id := 7, name := "Exit Booth", code := "GOUT-01_POS" }

def exitGate : Gate :=
  { id := 2, name := "Exit", code := "GOUT-01", direction := .OUT, posId := some 7 }

/-- Two posts in a row may be lost while a post takes a second at most. -/
theorem exit_online_iff_two :
    second + 15 * second + 2 * (second + 15 * second) + second ≤ 60 * second + 1 ∧
    ∀ (r : BoothRun second 2) (events : List (Nat × Event)),
      postsOf "GOUT-01_POS" events = r.recorded → ∀ now, r.AliveAt now →
        OnlineAt [exitGate] (({ pos := [exitBooth] } : World).after events now) now "GOUT-01" := by
  have hfits : second + 15 * second + 2 * (second + 15 * second) + second ≤ 60 * second + 1 := by
    decide
  have hbooth : BoothOf [exitBooth] exitGate exitBooth :=
    ⟨by simp, by simp [exitBooth], List.mem_singleton.mpr rfl, rfl⟩
  refine ⟨hfits, ?_⟩
  exact (exit_online_iff (g := exitGate) (by simp) (List.mem_singleton.mpr rfl)
    rfl rfl hbooth second 2).mpr hfits

end Exits
end ParkIt.Liveness
