import ParkIt.GateIn.Inventory
import ParkIt.GateIn.Runs

/-! The circuit breaker of the controller line, whatever the tasks of the lane do to it. -/
namespace ParkIt.GateIn.Circuit

open Effects ByteString Tasks Transition

/-- How far a task has come with a send, or with a reconnect. -/
inductive Stage where
  | apart
  | timed (now : Int)
  | admitted (now : Int) (b : Breaker)
  | landed (b : Breaker)
  | lost (now : Int) (b : Breaker)
  | counted (now : Int) (failCount : Nat)
  | tripped (now : Int) (failCount : Nat)
  | configured
deriving DecidableEq

namespace Stage

def allow : Stage → LaneOp → Prop
  | .apart, .breaker | .apart, .close => False
  | .apart, .write c => c.configures = true
  | .apart, .setBreaker b => b = {}
  | .apart, _ => True
  | .timed _, o => o = .breaker
  | .admitted _ _, o => ∃ c : ControllerCommand, c.configures = false ∧ o = .write c
  | .landed b, o => o = .setBreaker { b with failCount := 0 }
  | .lost _ b, o => o = .setBreaker { b with failCount := b.failCount + 1 }
  | .counted _ _, o => o = .close
  | .tripped now failCount, o => o = .setBreaker { failCount, openUntil := now + cbCooldown }
  | .configured, o => o = .setBreaker {}

/-- What the clock has shown the send. -/
def clock : Stage → Option Int
  | .timed now | .admitted now _ => some now
  | _ => none

def next : Stage → (o : LaneOp) → o.Ans → Stage
  | .apart, .loopTime, now => .timed now
  | .apart, .write _, true => .configured
  | .timed now, .breaker, b => if now < b.openUntil then .apart else .admitted now b
  | .admitted _ b, .write _, true => .landed b
  | .admitted now b, .write _, false => .lost now b
  | .lost now b, .setBreaker _, _ => .counted now (b.failCount + 1)
  | .counted now failCount, .close, _ =>
    if cbThreshold ≤ failCount then .tripped now failCount else .apart
  | _, _, _ => .apart

end Stage

/-- Sends and reconnects do not interleave. The lock around a write need not be modelled: no task
waits while it holds it, so it is free whenever it is asked for. -/
def circuit : Protocol LaneOp LaneOp.Ans Stage where
  allow := Stage.allow
  expect _ _ _ := True
  next := Stage.next

section Code
variable {α : Type} {p : Work α} {g : Stage} (cfg : Config)

/-- A handler that has begun no send ends with none under way. -/
abbrev Clean (p : Work α) : Prop :=
  Follows circuit .apart p (fun g _ => g = .apart) fun g _ => g = .apart

theorem clean_send {c : ControllerCommand} (h : c.configures = false) :
    Clean (sendControllerCommand c) := by
  unfold Clean sendControllerCommand
  refine ⟨trivial, fun up _ => ?_⟩
  cases up with
  | false => exact rfl
  | true =>
    refine ⟨trivial, fun now _ => ⟨rfl, fun b _ => ?_⟩⟩
    change Follows circuit (if now < b.openUntil then .apart else .admitted now b)
      (if now < b.openUntil then _ else _) _ _
    split
    · exact rfl
    · refine ⟨⟨c, h, rfl⟩, fun landed _ => ?_⟩
      cases landed with
      | true => exact ⟨rfl, fun _ _ => rfl⟩
      | false =>
        refine ⟨rfl, fun _ _ => ⟨rfl, fun _ _ => ?_⟩⟩
        change Follows circuit (if cbThreshold ≤ b.failCount + 1 then _ else _)
          (if cbThreshold ≤ b.failCount + 1 then _ else _) _ _
        split
        · exact ⟨rfl, fun _ _ => rfl⟩
        · exact rfl

theorem clean_quiet {o : LaneOp} (h : o.Quiet) : Clean (ask o) := by
  cases o <;> first | exact h.elim | exact ⟨trivial, fun _ _ => rfl⟩

theorem clean_composed (hp : Composed p) : Clean p := by
  refine hp.follows (P := circuit) (I := fun g : Stage => g = .apart) (fun hunit g hg => ?_) rfl
  subst hg
  cases hunit with
  | ask h => exact clean_quiet h
  | send h => exact clean_send h

theorem Clean.bind {β : Type} {f : α → Work β} (hp : Clean p) (hf : ∀ a, Clean (f a)) :
    Clean (p >>= f) := by
  refine Follows.bind hp (fun _ _ h => h) ?_
  rintro _ a rfl
  exact hf a

theorem Clean.attempt {q : Work α} (hp : Clean p) (hq : Clean q) : Clean (attempt p q) := by
  refine follows_handle.mpr (Follows.mono hp (fun _ _ h => h) ?_)
  rintro _ _ rfl
  exact hq

theorem Clean.ite {q : Work α} {c : Prop} [Decidable c] (hp : Clean p) (hq : Clean q) :
    Clean (if c then p else q) :=
  follows_ite (fun _ => hp) fun _ => hq

/-- The rule for an operation that is no part of a send. -/
theorem clean_then {o : LaneOp} {f : o.Ans → Work α} (h : circuit.allow .apart o)
    (hnext : ∀ a, circuit.next .apart o a = .apart) (hf : ∀ a, Clean (f a)) :
    Clean (ask o >>= f) := by
  refine ⟨h, fun a _ => ?_⟩
  rw [hnext a]
  exact hf a

theorem clean_pause (ms : Nat) : Clean (ask (.sleep (.ms ms))) := clean_quiet trivial

theorem clean_processRssBuffer (n : Nat) (buffer : Bytes) :
    Clean (processRssBuffer cfg n buffer) := by
  induction n generalizing buffer with
  | zero => exact rfl
  | succ n ih =>
    unfold processRssBuffer
    split
    · exact rfl
    · split
      · exact rfl
      · exact rfl
      · exact clean_then trivial (fun _ => rfl) fun _ =>
          (clean_composed (composed_dispatch cfg _)).bind fun _ => ih _

/-- A new connection is set up, and then the breaker is as new. -/
theorem clean_reconnected :
    Clean (setupRss >>= fun _ => ask (.setBreaker {}) >>= fun _ =>
      ask (.setReconnectDelay 1000)) := by
  have hreset {g : Stage} (hallow : circuit.allow g (.setBreaker {}))
      (hnext : circuit.next g (.setBreaker {}) () = .apart) :
      Follows circuit g (ask (.setBreaker {}) >>= fun _ => ask (.setReconnectDelay 1000))
        (fun g _ => g = .apart) fun g _ => g = .apart := by
    refine ⟨hallow, fun _ _ => ?_⟩
    rw [hnext]
    exact clean_quiet trivial
  refine ⟨trivial, fun up _ => ?_⟩
  cases up with
  | false => exact hreset rfl rfl
  | true =>
    refine ⟨rfl, fun landed _ => ?_⟩
    cases landed with
    | true => exact hreset rfl rfl
    | false => exact rfl

theorem clean_rssListener : Clean (rssListener cfg) := by
  refine Clean.attempt (clean_then trivial (fun _ => rfl) fun _ => Clean.ite ?_ ?_) (clean_pause _)
  · refine clean_then trivial (fun _ => rfl) fun _ => ?_
    refine clean_then trivial (fun _ => rfl) fun chunk => ?_
    cases chunk with
    | none => exact rfl
    | some chunk =>
      refine Clean.ite ?_ rfl
      refine clean_then trivial (fun _ => rfl) fun _ => ?_
      refine clean_then trivial (fun _ => rfl) fun _ => ?_
      exact (clean_processRssBuffer cfg _ _).bind fun _ => clean_quiet trivial
  · refine clean_then trivial (fun _ => rfl) fun _ => clean_then trivial (fun _ => rfl) fun _ =>
      clean_then trivial (fun _ => rfl) fun _ => clean_then trivial (fun _ => rfl) fun _ =>
        Clean.ite clean_reconnected ?_
    exact clean_then trivial (fun _ => rfl) fun _ => clean_then trivial (fun _ => rfl) fun _ =>
      clean_quiet trivial

/-- No task is left in the middle of a send or a reconnect. -/
theorem clean_code (c : Cause) : Clean (c.code cfg) := by
  cases c with
  | rss => exact clean_rssListener cfg
  | commands =>
    refine Clean.attempt (clean_then trivial (fun _ => rfl) fun a => ?_) (clean_pause _)
    cases a with
    | failed => exact rfl
    | nothing => exact rfl
    | message c => exact clean_composed (composed_processCommand cfg c.id c.fields)
  | serial =>
    refine Clean.attempt (clean_then trivial (fun _ => rfl) fun raw => ?_) (clean_pause _)
    cases raw with
    | none => exact rfl
    | some raw =>
      refine Clean.ite (clean_then trivial (fun _ => rfl) fun _ => Clean.ite ?_ rfl) rfl
      exact clean_composed (composed_onRfidCardRead _ _)
  | heartbeat =>
    refine clean_then trivial (fun _ => rfl) fun _ => clean_then trivial (fun _ => rfl) fun _ => ?_
    exact Clean.ite (clean_composed (composed_send rfl)) rfl
  | timer t =>
    cases t with
    | validating n =>
      exact clean_composed (composed_then trivial fun _ =>
        composed_check (composed_idle cfg) (.pure _))
    | vehiclePass n =>
      exact clean_composed (composed_then trivial fun _ =>
        composed_check (composed_onVehiclePassed cfg) (.pure _))
  | event e n => exact clean_composed (composed_handleMessage e n)

end Code

inductive Outcome where
  | landed (i : TaskIx)
  | failed (i : TaskIx)
  | reconnected
deriving DecidableEq, Repr

/-- How a send came out; or the listener has set up RSS on a new connection. -/
def outcome : LaneLabel → Option Outcome
  | .go i ⟨.write c, true⟩ => some (if c.configures then .reconnected else .landed i)
  | .go i ⟨.write c, false⟩ => if c.configures then none else some (.failed i)
  | _ => none

/-- The newest outcome comes first. -/
abbrev History := List Outcome

def recorded (h : History) (_ : LaneSys) (l : LaneLabel) : History := (outcome l).toList ++ h

def Outcome.isFailed : Outcome → Bool
  | .failed _ => true
  | _ => false

/-- How many sends have failed since one landed, or since the listener reconnected. -/
def streak (h : History) : Nat := (h.takeWhile Outcome.isFailed).length

def clockOf : Event LaneOp LaneOp.Ans → Option Int
  | ⟨.loopTime, now⟩ => some now
  | _ => none

/-- What the clock has last shown a task. -/
def reading (s : LaneSys) (i : TaskIx) : Option Int :=
  (s.task i).bind fun t => t.past.reverse.findSome? clockOf

/-- The task does this before anything else happens. -/
def Next (s : LaneSys) (i : TaskIx) (o : LaneOp) : Prop :=
  s.running = some i ∧ ∃ t ∈ s.task i, ∃ k, t.rest = .call o k

/-- The clock of the event loop, which a closed breaker relies on, never shows a time before 0. -/
def Clocked : LaneLabel → Prop
  | .go _ ⟨.loopTime, now⟩ => 0 ≤ now
  | _ => True

instance (l : LaneLabel) : Decidable (Clocked l) := by
  unfold Clocked
  split <;> infer_instance

/-- What the breaker is good for, in a step from `p` to `q`. -/
structure Guarded (p : LaneSys × History) (l : LaneLabel) (q : LaneSys × History) : Prop where
  /-- It opens on a failure, the third one in a row at least. -/
  opens : p.1.shared.breaker.openUntil < q.1.shared.breaker.openUntil →
    ∃ i, l.actor = some i ∧ p.2.head? = some (.failed i) ∧ 3 ≤ streak p.2
  /-- What is sent is written when it is not open. -/
  written : ∀ i (c : ControllerCommand) landed, l = .go i ⟨.write c, landed⟩ →
    c.configures = false → ∃ now ∈ reading p.1 i, p.1.shared.breaker.openUntil ≤ now
  /-- A send that lands sets the count back. -/
  reset : ∀ i (c : ControllerCommand), l = .go i ⟨.write c, true⟩ → c.configures = false →
    Next q.1 i (.setBreaker { q.1.shared.breaker with failCount := 0 })
  /-- Where no task is between two of its waits, there are no more failures than in a row. -/
  count : q.1.running = none → q.1.shared.breaker.failCount ≤ streak q.2
  /-- A send that has found the line up asks the breaker. -/
  asks : ∀ i now, l = .go i ⟨.loopTime, now⟩ → Next q.1 i .breaker
  /-- After a reconnect it goes on to write. -/
  attempted : ∀ i b, l = .go i ⟨.breaker, b⟩ → p.2.head? = some .reconnected →
    ∃ c : ControllerCommand, c.configures = false ∧ Next q.1 i (.write c)

section Steps
variable {g : Stage} {b : Breaker} {h : History} {i j : TaskIx} {o : LaneOp} {a : o.Ans}

/-- The breaker where no send is under way. -/
structure Settled (b : Breaker) (h : History) : Prop where
  count : b.failCount ≤ streak h
  fresh : h.head? = some .reconnected → b.openUntil = 0

/-- The last outcome is a failure of this task, which ends so many in a row. -/
structure Failed (i : TaskIx) (failCount : Nat) (h : History) : Prop where
  last : h.head? = some (.failed i)
  count : failCount ≤ streak h

/-- What the stage of a task says of the breaker and of the outcomes so far. -/
def At (i : TaskIx) (b : Breaker) (h : History) : Stage → Prop
  | .apart => Settled b h
  | .timed now => Settled b h ∧ 0 ≤ now
  | .admitted now b' => b' = b ∧ Settled b h ∧ b.openUntil ≤ now ∧ 0 ≤ now
  | .landed b' => b' = b ∧ h.head? = some (.landed i)
  | .lost now b' => b' = b ∧ 0 ≤ now ∧ Failed i (b.failCount + 1) h
  | .counted now failCount => b.failCount = failCount ∧ 0 ≤ now ∧ Failed i failCount h
  | .tripped now failCount =>
    b.failCount = failCount ∧ 0 ≤ now ∧ Failed i failCount h ∧ cbThreshold ≤ failCount
  | .configured => h.head? = some .reconnected

/-- The breaker after an operation. -/
def afterOp (b : Breaker) : LaneOp → Breaker
  | .setBreaker b' => b'
  | _ => b

theorem streak_failed (i : TaskIx) (h : History) : streak (.failed i :: h) = streak h + 1 := rfl

theorem recorded_configured {c : ControllerCommand} {landed : Bool} (hc : c.configures = true)
    (s : LaneSys) : recorded h s (.go i ⟨.write c, landed⟩) =
      if landed then .reconnected :: h else h := by
  cases landed <;> simp [recorded, outcome, hc]

theorem recorded_sent {c : ControllerCommand} {landed : Bool} (hc : c.configures = false)
    (s : LaneSys) : recorded h s (.go i ⟨.write c, landed⟩) =
      (if landed then .landed i else .failed i) :: h := by
  cases landed <;> simp [recorded, outcome, hc]

theorem Failed.settled (hf : Failed i b.failCount h) : Settled b h := by
  refine ⟨hf.count, fun hfresh => ?_⟩
  cases hf.last.symm.trans hfresh

/-- One operation of the task that has the line to itself. -/
theorem at_next (hat : At i b h g) (hallow : circuit.allow g o)
    (hread : ∀ b', (⟨o, a⟩ : Event LaneOp LaneOp.Ans) = ⟨.breaker, b'⟩ → b' = b)
    (hclock : Clocked (.go i ⟨o, a⟩)) (s : LaneSys) :
    At i (afterOp b o) (recorded h s (.go i ⟨o, a⟩)) (circuit.next g o a) := by
  cases g with
  | apart =>
    cases o with
    | breaker | close => exact hallow.elim
    | loopTime => exact ⟨hat, hclock⟩
    | setBreaker b' =>
      cases hallow
      exact ⟨Nat.zero_le _, fun _ => rfl⟩
    | write c =>
      rw [recorded_configured hallow]
      cases a with
      | true => exact rfl
      | false => exact hat
    | _ => exact hat
  | timed now =>
    cases hallow
    obtain rfl := hread a rfl
    change At i a h (if now < a.openUntil then .apart else .admitted now a)
    split
    · exact hat.1
    · exact ⟨rfl, hat.1, by omega, hat.2⟩
  | admitted now b' =>
    obtain ⟨c, hc, rfl⟩ := hallow
    obtain ⟨rfl, hsettled, hopen, hnow⟩ := hat
    rw [recorded_sent hc]
    cases a with
    | true => exact ⟨rfl, rfl⟩
    | false =>
      have hcount := Nat.add_le_add_right hsettled.count 1
      rw [← streak_failed i] at hcount
      exact ⟨rfl, hnow, rfl, hcount⟩
  | landed b' =>
    cases hallow
    obtain ⟨rfl, hlast⟩ := hat
    refine ⟨Nat.zero_le _, fun hfresh => ?_⟩
    cases hlast.symm.trans hfresh
  | lost now b' =>
    cases hallow
    obtain ⟨rfl, hnow, hfailed⟩ := hat
    exact ⟨rfl, hnow, hfailed⟩
  | counted now failCount =>
    cases hallow
    obtain ⟨rfl, hnow, hfailed⟩ := hat
    change At i b h (if cbThreshold ≤ b.failCount then .tripped now b.failCount else .apart)
    split
    · exact ⟨rfl, hnow, hfailed, ‹_›⟩
    · exact hfailed.settled
  | tripped now failCount =>
    cases hallow
    obtain ⟨rfl, -, hfailed, -⟩ := hat
    exact Failed.settled hfailed
  | configured =>
    cases hallow
    exact ⟨Nat.zero_le _, fun _ => rfl⟩

/-- The deadline is only ever put off by the third failure in a row. -/
theorem afterOp_openUntil (hat : At i b h g) (hallow : circuit.allow g o) (hb : 0 ≤ b.openUntil) :
    0 ≤ (afterOp b o).openUntil ∧
      (b.openUntil < (afterOp b o).openUntil → h.head? = some (.failed i) ∧ 3 ≤ streak h) := by
  by_cases ho : ∃ b', o = .setBreaker b'
  · obtain ⟨b', rfl⟩ := ho
    cases g with
    | apart | configured =>
      cases hallow
      exact ⟨le_refl _, fun hlt => absurd hb (not_le.mpr hlt)⟩
    | landed b' | lost now b' =>
      cases hallow
      obtain ⟨rfl, -⟩ := hat
      exact ⟨hb, fun hlt => absurd hlt (lt_irrefl _)⟩
    | tripped now failCount =>
      cases hallow
      obtain ⟨rfl, hnow, hfailed, hthreshold⟩ := hat
      refine ⟨Int.add_nonneg hnow (by decide), fun _ => ⟨hfailed.last, ?_⟩⟩
      exact hthreshold.trans hfailed.count
    | timed now => cases hallow
    | admitted now b' =>
      obtain ⟨c, -, heq⟩ := hallow
      cases heq
    | counted now failCount => cases hallow
  · have hsame : afterOp b o = b := by
      cases o with
      | setBreaker b' => exact absurd ⟨b', rfl⟩ ho
      | _ => rfl
    rw [hsame]
    exact ⟨hb, fun hlt => absurd hlt (lt_irrefl _)⟩

/-- A send goes by its own reading of the clock. -/
theorem next_clock (hallow : circuit.allow g o) {now : Int} (h : now ∈ (circuit.next g o a).clock) :
    clockOf ⟨o, a⟩ = some now ∨ clockOf ⟨o, a⟩ = none ∧ now ∈ g.clock := by
  cases g with
  | apart =>
    cases o with
    | breaker | close => exact hallow.elim
    | loopTime => exact .inl h
    | write c => cases a <;> cases h
    | _ => cases h
  | timed now' =>
    cases hallow
    change now ∈ (if now' < a.openUntil then Stage.apart else .admitted now' a).clock at h
    split at h
    · cases h
    · exact .inr ⟨rfl, h⟩
  | admitted now' b' =>
    obtain ⟨c, -, rfl⟩ := hallow
    cases a <;> cases h
  | counted now' failCount =>
    cases hallow
    change now ∈ (if cbThreshold ≤ failCount then Stage.tripped now' failCount
      else .apart).clock at h
    split at h <;> cases h
  | _ => cases hallow; cases h

end Steps

section Runs
variable {cfg : Config} {gateId : String} {s s' : LaneSys} {l : LaneLabel} {h : History}
  {i j : TaskIx} {o : LaneOp} {a : o.Ans} {t t' : LaneTask}

def stage (t : LaneTask) : Stage := t.note circuit fun _ => .apart

def stageAt (s : LaneSys) (i : TaskIx) : Stage := (s.task i).elim .apart stage

def Alone (s : LaneSys) (i : TaskIx) : Prop := ∀ j, j ≠ i → stageAt s j = .apart

structure Sound (cfg : Config) (gateId : String) (s : LaneSys) (h : History) : Prop where
  protocol : InProtocol circuit (fun _ => .apart) (fun _ g => g = .apart) s
  busy : OneBusy (lane cfg gateId) s
  nonneg : 0 ≤ s.shared.breaker.openUntil
  clock : ∀ i, ∀ now ∈ (stageAt s i).clock, now ∈ reading s i
  fits : ∀ i, Alone s i → At i s.shared.breaker h (stageAt s i)

theorem not_waits {g : Stage} (hg : g ≠ .apart) (ho : circuit.allow g o) : o.waits = false := by
  cases g with
  | apart => exact absurd rfl hg
  | admitted now b =>
    obtain ⟨c, -, rfl⟩ := ho
    rfl
  | _ => cases ho; rfl

/-- A task that has begun has one thing to do next. -/
theorem pending (hs : Sound cfg gateId s h) (hstage : stageAt s i ≠ .apart) :
    ∃ o, circuit.allow (stageAt s i) o ∧ Next s i o := by
  unfold stageAt at hstage ⊢
  cases ht : s.task i with
  | none =>
    rw [ht] at hstage
    exact absurd rfl hstage
  | some t =>
    rw [ht] at hstage
    have hfollows := hs.protocol i t ht
    have hbusy := hs.busy i t ht
    change stage t ≠ .apart at hstage
    change Follows circuit (stage t) t.rest _ _ at hfollows
    cases hrest : t.rest with
    | pure _ =>
      rw [hrest] at hfollows
      exact absurd hfollows hstage
    | throw _ =>
      rw [hrest] at hfollows
      exact absurd hfollows hstage
    | call o k =>
      rw [hrest] at hfollows hbusy
      refine ⟨o, hfollows.1, hbusy ?_, t, ht, k, hrest⟩
      change (!o.waits) = true
      rw [not_waits hstage hfollows.1]
      rfl

theorem Sound.alone (hs : Sound cfg gateId s h) (hfree : s.Free i) : Alone s i := by
  intro j hj
  by_contra hstage
  obtain ⟨o, -, hrunning, -⟩ := pending hs hstage
  exact hj (hfree j hrunning)

theorem Sound.idle (hs : Sound cfg gateId s h) (hrunning : s.running = none) (i : TaskIx) :
    stageAt s i = .apart := by
  by_contra hstage
  obtain ⟨o, -, hbusy, -⟩ := pending hs hstage
  cases hrunning.symm.trans hbusy

theorem stageAt_some (ht : s.task i = some t) : stageAt s i = stage t := by
  rw [stageAt, ht]
  rfl

theorem perform_breaker (x : Oracle) (sh : Lane) :
    (perform gateId o x sh).2.breaker = afterOp sh.breaker o := by
  cases o with
  | publish e eventId n => dsimp only [perform]; split <;> rfl
  | publishCommand c n => dsimp only [perform]; split <;> rfl
  | xreadgroup =>
    dsimp only [perform]
    split
    · rfl
    · dsimp only
      split <;> rfl
  | _ => rfl

theorem starts_breaker {c : Cause} {sh sh' : Lane} (hstarts : starts i c sh = some sh') :
    sh'.breaker = sh.breaker := by
  unfold starts at hstarts
  split at hstarts
  · cases hstarts; rfl
  · cases hstarts; rfl
  · cases hstarts; rfl
  · cases hstarts; rfl
  · split at hstarts
    · cases hstarts; rfl
    · cases hstarts
  · split at hstarts
    · cases hstarts
    · split at hstarts
      · cases hstarts; rfl
      · cases hstarts
  · cases hstarts

theorem outside_breaker {sh sh' : Lane} (houtside : Outside sh sh') : sh'.breaker = sh.breaker := by
  cases houtside <;> rfl

/-- What a step of a task does to the stages and to the breaker. -/
theorem took_circuit (ht : Took (lane cfg gateId) s s' i o a t t') :
    stageAt s' i = circuit.next (stageAt s i) o a ∧ (∀ j, j ≠ i → stageAt s' j = stageAt s j) ∧
      s'.shared.breaker = afterOp s.shared.breaker o ∧
      ∀ b, (⟨o, a⟩ : Event LaneOp LaneOp.Ans) = ⟨.breaker, b⟩ → b = s.shared.breaker := by
  obtain ⟨x, ha, hshared⟩ := took_perform ht
  refine ⟨?_, fun j hj => ?_, ?_, ?_⟩
  · rw [stageAt_some ht.before, stageAt_some ht.after]
    exact ht.note circuit fun _ => .apart
  · rw [stageAt, stageAt, ht.others j hj]
  · rw [hshared]
    exact perform_breaker x _
  · rintro b heq
    cases heq
    exact ha

theorem reading_took (ht : Took (lane cfg gateId) s s' i o a t t') :
    reading s' i = (clockOf ⟨o, a⟩).or (reading s i) := by
  rw [reading, reading, ht.before, ht.after, Option.bind_some, Option.bind_some, ht.past,
    List.reverse_append, List.reverse_singleton, List.singleton_append, List.findSome?_cons]
  cases clockOf ⟨o, a⟩ <;> rfl

theorem sound_start (st : GateState) : Sound cfg gateId { shared := { state := st } } [] where
  protocol _ _ ht := by cases ht
  busy _ _ ht := by cases ht
  nonneg := le_refl _
  clock _ _ hnow := by cases hnow
  fits _ _ := ⟨le_refl _, nofun⟩

/-- Where no task gets on with a send, and the breaker is as it was. -/
theorem Sound.same (hs : Sound cfg gateId s h) (hstep : LaneStep cfg gateId s l s')
    (hbreaker : s'.shared.breaker = s.shared.breaker)
    (htask : ∀ j, s'.task j = s.task j ∨ stageAt s j = .apart ∧ stageAt s' j = .apart) :
    Sound cfg gateId s' h := by
  have hstage : ∀ j, stageAt s' j = stageAt s j := fun j => by
    rcases htask j with hsame | ⟨hold, hnew⟩
    · rw [stageAt, stageAt, hsame]
    · rw [hold, hnew]
  refine ⟨inProtocol_step (clean_code cfg) (fun _ _ _ _ => trivial) hstep hs.protocol,
    oneBusy_step hstep hs.busy, hbreaker ▸ hs.nonneg, fun j now hnow => ?_, fun j hj => ?_⟩
  · rcases htask j with hsame | ⟨-, hnew⟩
    · rw [reading, hsame]
      exact hs.clock j now (hstage j ▸ hnow)
    · rw [hnew] at hnow
      cases hnow
  · rw [hbreaker, hstage]
    exact hs.fits j fun k hk => (hstage k).symm.trans (hj k hk)

theorem sound_took (hs : Sound cfg gateId s h) (hstep : LaneStep cfg gateId s (.go i ⟨o, a⟩) s')
    (ht : Took (lane cfg gateId) s s' i o a t t') (hclock : Clocked (.go i ⟨o, a⟩)) :
    Sound cfg gateId s' (recorded h s (.go i ⟨o, a⟩)) := by
  obtain ⟨hstage, hothers, hbreaker, hread⟩ := took_circuit ht
  have hallow : circuit.allow (stageAt s i) o := stageAt_some ht.before ▸ ht.allow hs.protocol
  have halone := hs.alone ht.free
  have hat := at_next (hs.fits i halone) hallow hread hclock s
  refine ⟨inProtocol_step (clean_code cfg) (fun _ _ _ _ => trivial) hstep hs.protocol,
    oneBusy_step hstep hs.busy, ?_, fun j now hnow => ?_, fun j hj => ?_⟩
  · rw [hbreaker]
    exact (afterOp_openUntil (hs.fits i halone) hallow hs.nonneg).1
  · by_cases hji : j = i
    · subst hji
      rw [hstage] at hnow
      rw [reading_took ht]
      rcases next_clock hallow hnow with hnew | ⟨hnone, hold⟩
      · rw [hnew]
        rfl
      · rw [hnone]
        exact hs.clock j now hold
    · rw [hothers j hji] at hnow
      rw [reading, ht.others j hji]
      exact hs.clock j now hnow
  · rw [hbreaker]
    by_cases hji : j = i
    · subst hji
      rw [hstage]
      exact hat
    · -- Both tasks are between their sends, so it does not matter which of them is looked at.
      rw [hothers j hji, halone j hji]
      rw [← hstage, hj i fun heq => hji heq.symm] at hat
      exact hat

theorem sound_step (hs : Sound cfg gateId s h) (hstep : LaneStep cfg gateId s l s')
    (hclock : Clocked l) : Sound cfg gateId s' (recorded h s l) := by
  cases l with
  | go i e =>
    obtain ⟨t, t', ht⟩ := took hstep
    exact sound_took hs hstep ht hclock
  | start i c =>
    have hsame := hs.same hstep
    cases hstep with
    | start hnone _ hstarts =>
      refine hsame (starts_breaker hstarts) fun j => ?_
      by_cases hji : j = i
      · subst hji
        refine .inr ⟨?_, stageAt_some task_set_self⟩
        rw [stageAt, hnone]
        rfl
      · exact .inl (Function.update_of_ne hji ..)
  | stop i =>
    have hsame := hs.same hstep
    cases hstep with
    | stop hi hrunning _ =>
      refine hsame rfl fun j => ?_
      by_cases hji : j = i
      · subst hji
        have hgone : (s.drop j).task j = none := Function.update_self ..
        refine .inr ⟨hs.idle hrunning j, ?_⟩
        rw [stageAt, hgone]
        rfl
      · exact .inl (Function.update_of_ne hji ..)
  | outside =>
    have hsame := hs.same hstep
    cases hstep with
    | outside houtside => exact hsame (outside_breaker houtside) fun _ => .inl rfl

/-- What the stage allows comes next. -/
theorem Sound.next (hs : Sound cfg gateId s h) {g : Stage} (hstage : stageAt s i = g)
    (hne : g ≠ .apart) : ∃ o, circuit.allow g o ∧ Next s i o := by
  subst hstage
  exact pending hs hne

theorem Sound.settled (hs : Sound cfg gateId s h) (hrunning : s.running = none) :
    Settled s.shared.breaker h := by
  have hat := hs.fits .rss fun j _ => hs.idle hrunning j
  rw [hs.idle hrunning] at hat
  exact hat

theorem Sound.allow (hs : Sound cfg gateId s h) (ht : Took (lane cfg gateId) s s' i o a t t') :
    circuit.allow (stageAt s i) o := stageAt_some ht.before ▸ ht.allow hs.protocol

theorem opens_step (hs : Sound cfg gateId s h) (hstep : LaneStep cfg gateId s l s')
    (hlt : s.shared.breaker.openUntil < s'.shared.breaker.openUntil) :
    ∃ i, l.actor = some i ∧ h.head? = some (.failed i) ∧ 3 ≤ streak h := by
  cases l with
  | go i e =>
    obtain ⟨t, t', ht⟩ := took hstep
    rw [(took_circuit ht).2.2.1] at hlt
    exact ⟨i, rfl, (afterOp_openUntil (hs.fits i (hs.alone ht.free)) (hs.allow ht) hs.nonneg).2 hlt⟩
  | start i c =>
    cases hstep with
    | start _ _ hstarts =>
      rw [set_shared, starts_breaker hstarts] at hlt
      exact absurd hlt (lt_irrefl _)
  | stop i =>
    cases hstep with
    | stop _ _ _ => exact absurd hlt (lt_irrefl _)
  | outside =>
    cases hstep with
    | outside houtside =>
      rw [outside_breaker houtside] at hlt
      exact absurd hlt (lt_irrefl _)

/-- A command that is sent has been admitted by the breaker. -/
theorem admitted_of_write (hs : Sound cfg gateId s h) {c : ControllerCommand} {landed : Bool}
    (ht : Took (lane cfg gateId) s s' i (.write c) landed t t') (hc : c.configures = false) :
    ∃ now b, stageAt s i = .admitted now b := by
  have hallow := hs.allow ht
  cases hstage : stageAt s i with
  | admitted now b => exact ⟨now, b, rfl⟩
  | apart =>
    rw [hstage] at hallow
    cases hc.symm.trans hallow
  | _ =>
    rw [hstage] at hallow
    cases hallow

theorem written_step (hs : Sound cfg gateId s h) {c : ControllerCommand} {landed : Bool}
    (hstep : LaneStep cfg gateId s (.go i ⟨.write c, landed⟩) s') (hc : c.configures = false) :
    ∃ now ∈ reading s i, s.shared.breaker.openUntil ≤ now := by
  obtain ⟨t, t', ht⟩ := took hstep
  obtain ⟨now, b, hstage⟩ := admitted_of_write hs ht hc
  have hat := hs.fits i (hs.alone ht.free)
  have hclock := hs.clock i
  rw [hstage] at hat hclock
  exact ⟨now, hclock now rfl, hat.2.2.1⟩

theorem reset_step (hs : Sound cfg gateId s h) {c : ControllerCommand}
    (hstep : LaneStep cfg gateId s (.go i ⟨.write c, true⟩) s')
    (hs' : Sound cfg gateId s' (recorded h s (.go i ⟨.write c, true⟩)))
    (hc : c.configures = false) :
    Next s' i (.setBreaker { s'.shared.breaker with failCount := 0 }) := by
  obtain ⟨t, t', ht⟩ := took hstep
  obtain ⟨hnext, -, hbreaker, -⟩ := took_circuit ht
  obtain ⟨now, b, hstage⟩ := admitted_of_write hs ht hc
  have hat := hs.fits i (hs.alone ht.free)
  rw [hstage] at hat hnext
  obtain ⟨rfl, -⟩ := hat
  obtain ⟨o, ho, hnext⟩ := hs'.next hnext nofun
  cases ho
  rw [hbreaker]
  exact hnext

theorem asks_step (hs : Sound cfg gateId s h) {now : Int}
    (hstep : LaneStep cfg gateId s (.go i ⟨.loopTime, now⟩) s')
    (hs' : Sound cfg gateId s' (recorded h s (.go i ⟨.loopTime, now⟩))) :
    Next s' i .breaker := by
  obtain ⟨t, t', ht⟩ := took hstep
  have hallow := hs.allow ht
  have hnext := (took_circuit ht).1
  cases hstage : stageAt s i with
  | apart =>
    rw [hstage] at hnext
    obtain ⟨o, ho, hnext⟩ := hs'.next hnext nofun
    cases ho
    exact hnext
  | admitted now' b =>
    rw [hstage] at hallow
    obtain ⟨c, -, heq⟩ := hallow
    cases heq
  | _ =>
    rw [hstage] at hallow
    cases hallow

theorem attempted_step (hs : Sound cfg gateId s h) {b : Breaker}
    (hstep : LaneStep cfg gateId s (.go i ⟨.breaker, b⟩) s')
    (hs' : Sound cfg gateId s' (recorded h s (.go i ⟨.breaker, b⟩)))
    (hfresh : h.head? = some .reconnected) :
    ∃ c : ControllerCommand, c.configures = false ∧ Next s' i (.write c) := by
  obtain ⟨t, t', ht⟩ := took hstep
  obtain ⟨hnext, -, -, hread⟩ := took_circuit ht
  have hallow := hs.allow ht
  have hat := hs.fits i (hs.alone ht.free)
  cases hstage : stageAt s i with
  | timed now =>
    rw [hstage] at hat hnext
    obtain ⟨hsettled, hnow⟩ := hat
    obtain rfl := hread b rfl
    have hopen := hsettled.fresh hfresh
    have hadmitted : circuit.next (.timed now) .breaker s.shared.breaker =
        .admitted now s.shared.breaker := if_neg (by omega)
    obtain ⟨o, ⟨c, hc, rfl⟩, hnext⟩ := hs'.next (hnext.trans hadmitted) nofun
    exact ⟨c, hc, hnext⟩
  | apart =>
    rw [hstage] at hallow
    exact hallow.elim
  | admitted now b' =>
    rw [hstage] at hallow
    obtain ⟨c, -, heq⟩ := hallow
    cases heq
  | _ =>
    rw [hstage] at hallow
    cases hallow

theorem guarded_step (hs : Sound cfg gateId s h) (hs' : Sound cfg gateId s' (recorded h s l))
    (hstep : LaneStep cfg gateId s l s') : Guarded (s, h) l (s', recorded h s l) where
  opens := opens_step hs hstep
  written i c landed hl hc := by
    subst hl
    exact written_step hs hstep hc
  reset i c hl hc := by
    subst hl
    exact reset_step hs hstep hs' hc
  count hrunning := (hs'.settled hrunning).count
  asks i now hl := by
    subst hl
    exact asks_step hs hstep hs'
  attempted i b hl hfresh := by
    subst hl
    exact attempted_step hs hstep hs' hfresh

end Runs

/-- The breaker guards the line in every run of the lane. -/
theorem breaker_guards (cfg : Config) (gateId : String) (st : GateState)
    {xs : List (LaneLabel × LaneSys)}
    (h : Path (LaneStep cfg gateId) { shared := { state := st } } xs)
    (hclock : Path (fun _ l _ => Clocked l) { shared := { state := st } } xs) :
    Path Guarded ({ shared := { state := st } }, [])
      (noted recorded { shared := { state := st } } [] xs) := by
  refine ((h.and hclock).noted recorded []).each (P := fun p => Sound cfg gateId p.1 p.2) ?_ ?_
    (sound_start st)
  · rintro ⟨s, h⟩ l ⟨s', h'⟩ ⟨⟨hstep, hl⟩, hr⟩ hs
    cases hr
    exact sound_step hs hstep hl
  · rintro ⟨s, h⟩ l ⟨s', h'⟩ ⟨⟨hstep, hl⟩, hr⟩ hs
    cases hr
    exact guarded_step hs (sound_step hs hstep hl) hstep

section Outage

def beat (turns : List LaneTurn) : List LaneTurn :=
  .start .heartbeat .heartbeat :: turns ++ [.stop .heartbeat]

/-- Three heartbeats fail, one is refused, the listener reconnects, and then one lands. -/
def outage : List LaneTurn :=
  (([0, 5, 10].map fun s : Int => beat (goes .heartbeat 5 { time := s * microsPerSecond } ++
    goes .heartbeat 4 { ok := false })).flatten ++
  beat (goes .heartbeat 5 { time := 15 * microsPerSecond }) ++
  .start .rss .rss :: goes .rss 1 { ok := false } ++ goes .rss 8 ++ [.stop .rss]) ++
  beat (goes .heartbeat 7 { time := 16 * microsPerSecond })

theorem breaker_guards_outage :
    ∃ xs, Path (LaneStep {} "1") boot xs ∧
      xs.filterMap (fun x => outcome x.1) =
        [.failed .heartbeat, .failed .heartbeat, .failed .heartbeat, .reconnected,
          .landed .heartbeat] ∧
      Path Guarded (boot, []) (noted recorded boot [] xs) := by
  have hpath : Path (LaneStep {} "1") boot (takeTurns (lane {} "1") boot outage) :=
    commanded_path (by simp [outage, beat])
  have hclock : Path (fun _ l _ => Clocked l) boot (takeTurns (lane {} "1") boot outage) := by
    decide +kernel
  exact ⟨_, hpath, by decide +kernel, breaker_guards {} "1" .idle hpath hclock⟩

end Outage
end ParkIt.GateIn.Circuit
