import Mathlib.Algebra.Order.Ring.Rat
import Mathlib.Tactic.NormNum
import ParkIt.GateIn.Daemon
import ParkIt.Sockets.Frames

/-! The gate test of the wizard, and what the channel of the gate lets it hear. -/
namespace ParkIt.Setup.GateTest

open GateIn Json Sockets

/-- The second message of a heartbeat. -/
structure HeartbeatState where
  gateId : String
  state : String
  stateData : List (String × Value)
  plain : (Value.obj stateData).Plain

/-- All that is published under the channel of a gate: by its daemon, by the print worker that gives
up, and by the snapshot worker. -/
inductive Airing where
  | event (p : Publication)
  | heartbeatState (s : HeartbeatState)
  | printFailed (gateId kind error : String)
  | snapshot (snapshotUrl : String)

namespace Airing

def fields : Airing → List (String × Value)
  | .event p => p.fields
  | .heartbeatState s =>
    [("event_type", .str "heartbeat_state"), ("gate_id", .str s.gateId), ("state", .str s.state),
      ("state_data", .obj s.stateData)]
  | .printFailed gateId kind error =>
    [("event_type", .str "print_failed_alert"), ("gate_id", .str gateId), ("kind", .str kind),
      ("error", .str error)]
  | .snapshot snapshotUrl =>
    [("type", .str "camera_snapshot"), ("snapshot_type", .str "exit"),
      ("snapshot_url", .str snapshotUrl)]

def text : Airing → String
  | .event p => frame p.live
  | a => dumps .dumps (.obj a.fields)

/-- The type of the event is this one. -/
def announces (want : String) : Airing → Bool
  | .event p => p.event.eventType = want
  | .heartbeatState _ => "heartbeat_state" = want
  | .printFailed _ _ _ => "print_failed_alert" = want
  | .snapshot _ => false

end Airing

/-- A text of the channel, with the second at which it is published. -/
structure Aired where
  time : ℚ
  airing : Airing

/-- What the wait comes to; its seconds are counted from `t0`. -/
structure Waited where
  acked : Bool
  elapsedMs : ℚ
  error : Option String
deriving DecidableEq

/-- Subscribed from `since` on; the clock is read at `t0`. -/
structure Subscription where
  since : ℚ
  t0 : ℚ
  ordered : since ≤ t0

section Code

/-- `payload.get("event_type") == want_type`. -/
def isType (want : String) (payload : List (String × Value)) : Bool :=
  match payload.lookup "event_type" with
  | some (.str s) => s = want
  | _ => false

def typeName : Value → String
  | .null => "NoneType"
  | .bool _ => "bool"
  | .int _ => "int"
  | .str _ => "str"
  | .arr _ => "list"
  | .obj _ => "dict"

def timedOut (t0 deadline : ℚ) : Waited :=
  ⟨false, (deadline - t0) * 1000, some "timeout — no event from daemon"⟩

/-- The loop over the messages of the subscription; a payload that is no object raises. -/
def waitLoop (want : String) (t0 deadline : ℚ) : List (ℚ × String) → Except String Waited
  | [] => .ok (timedOut t0 deadline)
  | (time, data) :: ms =>
    if deadline ≤ time then .ok (timedOut t0 deadline)
    else
      match loads data with
      | none => waitLoop want t0 deadline ms
      | some (.obj payload) =>
        if isType want payload then .ok ⟨true, (max t0 time - t0) * 1000, none⟩
        else waitLoop want t0 deadline ms
      | some v => .error ("'" ++ typeName v ++ "' object has no attribute 'get'")

/-- What is published before the subscription is not heard. -/
def waitEvent (channel : List (ℚ × String)) (want : String) (timeout : ℚ) (s : Subscription) :
    Except String Waited :=
  waitLoop want s.t0 (s.t0 + timeout) (channel.filter fun m => s.since ≤ m.1)

structure TestGateStep where
  action : String
  sent : Bool
  acked : Bool
  elapsedMs : Option ℚ := none
  error : Option String := none
deriving DecidableEq

structure TestGateResponse where
  ok : Bool
  gateCode : String
  steps : List TestGateStep := []
  error : Option String := none
deriving DecidableEq

inductive Answer where
  | httpException (status : Nat) (detail : String)
  /-- An exception that nothing catches. -/
  | raised
  | response (r : TestGateResponse)
deriving DecidableEq

structure Gate where
  code : String
  isActive : Bool := true
  relayMode : RelayMode := .single

/-- What Redis answers: an error of a command that is not sent, and the subscriptions. -/
structure Redis where
  openError : Option String := none
  openSubscription : Except String Subscription
  closeError : Option String := none
  closeSubscription : Except String Subscription

def noOpening : String :=
  "open command sent but no gate_opened event — daemon down? controller unreachable?"

def Waited.step (action : String) (w : Waited) : TestGateStep :=
  { action, sent := true, acked := w.acked, elapsedMs := some w.elapsedMs, error := w.error }

/-- The second half, for a gate with two relays. -/
def testClose (channel : List (ℚ × String)) (timeout : ℚ) (x : Redis) (gate : Gate)
    (steps : List TestGateStep) : TestGateResponse :=
  let failed (error : String) : TestGateResponse :=
    { ok := false, gateCode := gate.code, error := some error
      steps := steps ++ [{ action := "close", sent := false, acked := false, error := some error }] }
  match x.closeError, x.closeSubscription with
  | some error, _ => failed error
  | none, .error error => failed error
  | none, .ok s =>
    match waitEvent channel "gate_closed" timeout s with
    | .error error => failed error
    | .ok w =>
      { ok := w.acked, gateCode := gate.code, steps := steps ++ [w.step "close"]
        error := if w.acked then none else some "close command sent but no gate_closed event" }

def testGate (channel : List (ℚ × String)) (timeout : ℚ) (x : Redis) : Option Gate → Answer
  | none => .httpException 404 "Gate not found"
  | some gate =>
    if !gate.isActive then .httpException 400 "Gate is not active"
    else
      match x.openError, x.openSubscription with
      | some error, _ =>
        .response
          { ok := false, gateCode := gate.code, error := some error
            steps := [{ action := "open", sent := false, acked := false, error := some error }] }
      | none, .error _ => .raised
      | none, .ok s =>
        match waitEvent channel "gate_opened" timeout s with
        | .error _ => .raised
        | .ok w =>
          let steps := [w.step "open"]
          if !w.acked then
            .response
              { ok := false, gateCode := gate.code, steps
                error := some noOpening }
          else if gate.relayMode = .dual then .response (testClose channel timeout x gate steps)
          else .response { ok := true, gateCode := gate.code, steps }

end Code

def texts (airings : List Aired) : List (ℚ × String) := airings.map fun a => (a.time, a.airing.text)

def Answer.ok : Answer → Bool
  | .response r => r.ok
  | _ => false

/-- The announcement that the gate has opened, while the wizard listens. -/
def HeardOpening (airings : List Aired) (timeout : ℚ) (s : Subscription) : Prop :=
  ∃ a ∈ airings, ∃ p : Publication, a.airing = .event p ∧ p.event.kind = .inr .gateOpened ∧
    s.since ≤ a.time ∧ a.time < s.t0 + timeout

section Texts
variable (a : Airing) (want : String)

theorem loads_text : loads a.text = some (.obj a.fields) := by
  cases a with
  | event p => exact loads_live p
  | heartbeatState s =>
    refine loads_dumps (.obj ?_ ?_)
    · exact (by decide : ["event_type", "gate_id", "state", "state_data"].Nodup)
    · simp [Airing.fields, Value.Plain.str, s.plain]
  | printFailed gateId kind error =>
    refine loads_dumps (.obj ?_ ?_)
    · exact (by decide : ["event_type", "gate_id", "kind", "error"].Nodup)
    · simp [Airing.fields, Value.Plain.str]
  | snapshot snapshotUrl =>
    refine loads_dumps (.obj ?_ ?_)
    · exact (by decide : ["type", "snapshot_type", "snapshot_url"].Nodup)
    · simp [Airing.fields, Value.Plain.str]

theorem isType_fields : isType want a.fields = a.announces want := by
  cases a <;> rfl

/-- No text of the channel says that a gate has closed. -/
theorem not_announced_closed : a.announces "gate_closed" = false := by
  cases a with
  | event p =>
    obtain ⟨⟨gateId, timestamp, controllerOk | event⟩, added⟩ := p
    · rfl
    · cases event <;> rfl
  | _ => rfl

theorem announced_opened : a.announces "gate_opened" = true ↔
    ∃ p : Publication, a = .event p ∧ p.event.kind = .inr .gateOpened := by
  constructor
  · intro h
    cases a with
    | event p =>
      refine ⟨p, rfl, ?_⟩
      obtain ⟨⟨gateId, timestamp, controllerOk | event⟩, added⟩ := p
      · cases h
      · cases event <;> first | rfl | cases h
    | _ => cases h
  · rintro ⟨p, rfl, hkind⟩
    exact decide_eq_true (by rw [Event.eventType, hkind])

end Texts

section Waits
variable {airings : List Aired} {timeout : ℚ} {s : Subscription}

/-- In the order of time, the loop finds the first text it waits for, if one comes in time. -/
theorem waitLoop_texts (want : String) (t0 deadline : ℚ)
    (hsorted : airings.Pairwise fun a b => a.time ≤ b.time) :
    ∃ w, waitLoop want t0 deadline (texts airings) = .ok w ∧
      (w.acked = true ↔ ∃ a ∈ airings, a.time < deadline ∧ a.airing.announces want = true) := by
  induction airings with
  | nil => exact ⟨timedOut t0 deadline, rfl, by simp [timedOut]⟩
  | cons a airings ih =>
    obtain ⟨hfirst, hrest⟩ := List.pairwise_cons.mp hsorted
    obtain ⟨w, hloop, hacked⟩ := ih hrest
    have hstep : waitLoop want t0 deadline (texts (a :: airings)) =
        if deadline ≤ a.time then .ok (timedOut t0 deadline)
        else if a.airing.announces want then .ok ⟨true, (max t0 a.time - t0) * 1000, none⟩
        else waitLoop want t0 deadline (texts airings) := by
      simp only [texts, List.map_cons, waitLoop, loads_text, isType_fields]
    rw [hstep]
    by_cases hlate : deadline ≤ a.time
    · refine ⟨timedOut t0 deadline, if_pos hlate, ?_⟩
      constructor
      · rintro ⟨⟩
      · rintro ⟨b, hb, hearly, -⟩
        -- what comes after a late text is late
        have hle : a.time ≤ b.time := by
          obtain rfl | hb := List.mem_cons.mp hb
          · exact le_refl _
          · exact hfirst b hb
        exact absurd (lt_of_le_of_lt (hlate.trans hle) hearly) (lt_irrefl _)
    · rw [if_neg hlate]
      by_cases hsaid : a.airing.announces want = true
      · refine ⟨_, if_pos hsaid, ?_⟩
        exact ⟨fun _ => ⟨a, List.mem_cons_self, lt_of_not_ge hlate, hsaid⟩, fun _ => rfl⟩
      · refine ⟨w, (if_neg hsaid).trans hloop, hacked.trans ?_⟩
        constructor
        · rintro ⟨b, hb, hin⟩
          exact ⟨b, List.mem_cons_of_mem a hb, hin⟩
        · rintro ⟨b, hb, hearly, hb'⟩
          obtain rfl | hb := List.mem_cons.mp hb
          · exact absurd hb' hsaid
          · exact ⟨b, hb, hearly, hb'⟩

theorem waitEvent_texts (want : String) (timeout : ℚ) (s : Subscription)
    (hsorted : airings.Pairwise fun a b => a.time ≤ b.time) :
    ∃ w, waitEvent (texts airings) want timeout s = .ok w ∧
      (w.acked = true ↔ ∃ a ∈ airings, s.since ≤ a.time ∧ a.time < s.t0 + timeout ∧
        a.airing.announces want = true) := by
  have hheard : (texts airings).filter (fun m => s.since ≤ m.1) =
      texts (airings.filter fun a => s.since ≤ a.time) := by
    rw [texts, texts, List.filter_map]
    rfl
  obtain ⟨w, hloop, hacked⟩ :=
    waitLoop_texts want s.t0 (s.t0 + timeout)
      (hsorted.filter fun a => s.since ≤ a.time)
  refine ⟨w, ?_, hacked.trans ?_⟩
  · rw [waitEvent, hheard]
    exact hloop
  · simp only [List.mem_filter, decide_eq_true_eq, and_assoc]

theorem heardOpening_iff : HeardOpening airings timeout s ↔
    ∃ a ∈ airings, s.since ≤ a.time ∧ a.time < s.t0 + timeout ∧
      a.airing.announces "gate_opened" = true := by
  constructor
  · rintro ⟨a, ha, p, hp, hkind, hsince, hearly⟩
    exact ⟨a, ha, hsince, hearly, (announced_opened a.airing).mpr ⟨p, hp, hkind⟩⟩
  · rintro ⟨a, ha, hsince, hearly, hsaid⟩
    obtain ⟨p, hp, hkind⟩ := (announced_opened a.airing).mp hsaid
    exact ⟨a, ha, p, hp, hkind, hsince, hearly⟩

/-- The close is never acknowledged. -/
theorem testClose_fails (timeout : ℚ) (hsorted : airings.Pairwise fun a b => a.time ≤ b.time)
    (x : Redis) (gate : Gate) (steps : List TestGateStep) :
    (testClose (texts airings) timeout x gate steps).ok = false := by
  unfold testClose
  cases x.closeError with
  | some error => rfl
  | none =>
    cases x.closeSubscription with
    | error error => rfl
    | ok s =>
      obtain ⟨w, hwait, hacked⟩ :=
        waitEvent_texts "gate_closed" timeout s hsorted
      have hunheard : w.acked = false := by
        rw [← Bool.not_eq_true, hacked]
        rintro ⟨a, -, -, -, hsaid⟩
        exact Bool.false_ne_true ((not_announced_closed a.airing).symm.trans hsaid)
      simp only [hwait]
      exact hunheard

/-- Whatever else goes over the channel, the test of a gate succeeds exactly if the gate is active
and has not two relays, the command is sent, and the daemon announces the opening while the wizard
is subscribed, which it is only after the command. -/
theorem testGate_ok_iff {x : Redis} {gate : Option Gate}
    (hsorted : airings.Pairwise fun a b => a.time ≤ b.time) :
    (testGate (texts airings) timeout x gate).ok = true ↔
      ∃ g, gate = some g ∧ g.isActive = true ∧ g.relayMode ≠ .dual ∧ x.openError = none ∧
        ∃ s, x.openSubscription = .ok s ∧ HeardOpening airings timeout s := by
  cases gate with
  | none => simp [testGate, Answer.ok]
  | some g =>
    cases hactive : g.isActive with
    | false => simp [testGate, Answer.ok, hactive]
    | true =>
      cases herror : x.openError with
      | some error => simp [testGate, Answer.ok, hactive, herror]
      | none =>
        cases hsubscribed : x.openSubscription with
        | error error => simp [testGate, Answer.ok, hactive, herror, hsubscribed]
        | ok s =>
          obtain ⟨w, hwait, hacked⟩ :=
            waitEvent_texts "gate_opened" timeout s hsorted
          rw [← heardOpening_iff] at hacked
          have htest : testGate (texts airings) timeout x (some g) =
              if !w.acked then
                .response
                  { ok := false, gateCode := g.code, steps := [w.step "open"]
                    error := some noOpening }
              else if g.relayMode = .dual then
                .response (testClose (texts airings) timeout x g [w.step "open"])
              else .response { ok := true, gateCode := g.code, steps := [w.step "open"] } := by
            simp only [testGate, hactive, herror, hsubscribed, hwait]
            rfl
          rw [htest]
          cases hheard : w.acked with
          | false =>
            have hnot : ¬ HeardOpening airings timeout s := by
              rw [← hacked, hheard]
              exact Bool.false_ne_true
            constructor
            · rintro ⟨⟩
            · rintro ⟨_, -, -, -, -, s', hs', hopening⟩
              cases hs'
              exact absurd hopening hnot
          | true =>
            have hopening : HeardOpening airings timeout s := hacked.mp hheard
            by_cases hdual : g.relayMode = .dual
            · have hclose := testClose_fails timeout hsorted x g [w.step "open"]
              rw [if_neg (by decide), if_pos hdual]
              constructor
              · intro hok
                exact absurd (hclose.symm.trans hok) Bool.false_ne_true
              · rintro ⟨_, hg, -, hsingle, -⟩
                cases hg
                exact absurd hdual hsingle
            · rw [if_neg (by decide), if_neg hdual]
              exact ⟨fun _ => ⟨g, rfl, hactive, hdual, rfl, s, rfl, hopening⟩, fun _ => rfl⟩

/-- A daemon that announces the opening a moment before the wizard listens, and one that announces
it a moment later. -/
def announcedAt (time : ℚ) : List Aired :=
  [⟨time, .event ⟨⟨"GIN-01", "2024-05-01T08:00:00Z", .inr .gateOpened⟩, some ((5, 0), 0)⟩⟩]

def listening : Subscription := ⟨1 / 100, 1 / 100, le_refl _⟩

def listened : Redis := { openSubscription := .ok listening, closeSubscription := .ok listening }

theorem testGate_ok_later :
    (testGate (texts (announcedAt (1 / 200))) 8 listened (some { code := "GIN-01" })).ok ≠ true ∧
      (testGate (texts (announcedAt (1 / 50))) 8 listened (some { code := "GIN-01" })).ok =
        true := by
  have hsorted : ∀ time, (announcedAt time).Pairwise fun a b => a.time ≤ b.time :=
    fun time => List.pairwise_singleton _ _
  constructor
  · rw [ne_eq, testGate_ok_iff (hsorted _)]
    rintro ⟨g, -, -, -, -, s, hs, a, ha, -, -, -, hsince, -⟩
    obtain rfl := List.mem_singleton.mp ha
    cases hs
    revert hsince
    simp only [listening]
    norm_num
  · refine (testGate_ok_iff (hsorted _)).mpr ⟨_, rfl, rfl, by decide, rfl, listening, rfl, ?_⟩
    refine ⟨_, List.mem_singleton_self _, _, rfl, rfl, ?_, ?_⟩
    · simp only [listening]
      norm_num
    · simp only [listening]
      norm_num

end Waits
end ParkIt.Setup.GateTest
