import ParkIt.GateIn.Fallback
import Mathlib.Data.List.Perm.Subperm

/-! What a frame says and what the dispatcher makes of it. -/
namespace ParkIt.GateIn

open Effects ByteString Answers

/-- The changes of an input that a frame can report. -/
inductive Signal where
  | in1On
  | in1Off
  | in2On
  | in2Off
  | in3On
  | in3Off
  | in4On
  | in4Off
deriving DecidableEq, Repr

namespace Signal

def text : Signal → String
  | .in1On => "IN1ON"
  | .in1Off => "IN1OFF"
  | .in2On => "IN2ON"
  | .in2Off => "IN2OFF"
  | .in3On => "IN3ON"
  | .in3Off => "IN3OFF"
  | .in4On => "IN4ON"
  | .in4Off => "IN4OFF"

end Signal

/-- The change of one input, as `parse_stat` reads it. -/
def change (text : List Char) (on off : Signal) : List Signal :=
  if has text on.text then [on] else if has text off.text then [off] else []

/-- The changes that `parse_stat` reads from a frame. -/
def reported (text : List Char) : List Signal :=
  change text .in1On .in1Off ++ change text .in2On .in2Off ++ change text .in3On .in3Off ++
    change text .in4On .in4Off

/-- The first signal of the chain of `_dispatch_rss_message` that stands in the frame. -/
def firstSignal (text : List Char) : Option Signal :=
  [.in1On, .in1Off, .in2On, .in3On, .in4On, .in4Off].find? fun s => has text s.text

/-- The cards of a frame that are to be read in a state. -/
def awaited (cfg : Config) (st : GateState) (parsed : Stat) : List (String × String) :=
  if st = .waitingInput ∧ cfg.hasRfid = true then
    (parsed.wiegandW.map fun card => (card, "W")).toList ++
      (parsed.wiegandX.map fun card => (card, "X")).toList
  else []

section Code
variable (cfg : Config)

/-- The branches of `_dispatch_rss_message` for the signals. -/
def react : Signal → Work Unit
  | .in1On => do
    ask (.setIn1 true)
    send (.ack "IN1ON")
    if (← ask .state) = .idle then onVehicleDetected cfg
  | .in1Off => do
    ask (.setIn1 false)
    send (.ack "IN1OFF")
    if (← ask .state) = .waitingInput then onVehicleBackedUp cfg
    else if (← ask .state) = .opening then onVehiclePassed cfg
  | .in2On => do
    send (.ack "IN2ON")
    if !(← ask .in1On) then pure ()
    else if (← ask .state) = .waitingInput then onTicketButtonPressed
  | .in3On => do
    send (.ack "IN3ON")
    if (← ask .state) = .waitingInput then onHelpButton cfg
  | .in4On => do
    send (.ack "IN4ON")
    if (← ask .state) = .waitingInput then onReset cfg
    else if (← ask .state) = .opening then onVehiclePassed cfg
  | .in4Off => do
    send (.ack "IN4OFF")
    if (← ask .state) = .opening then onVehiclePassed cfg
  | .in2Off | .in3Off => pure ()

/-- The branch for everything else. -/
def readCards (parsed : Stat) : Work Unit := do
  if parsed.wiegandW.isSome ∨ parsed.wiegandX.isSome then do
    send (.ack "W")
    if (← ask .state) = .waitingInput ∧ cfg.hasRfid = true then
      match parsed.wiegandW, parsed.wiegandX with
      | some card, _ => onRfidCardRead card "W"
      | none, some card => onRfidCardRead card "X"
      | none, none => pure ()

/-- What a frame with several signals comes to is decided by one of them. -/
theorem dispatchRssMessage_eq (msg : Bytes) :
    dispatchRssMessage cfg msg =
      if confirms (decode msg) then pure ()
      else (firstSignal (decode msg)).elim (readCards cfg (parseStat msg)) (react cfg) := by
  unfold dispatchRssMessage firstSignal
  simp only [List.find?_cons, List.find?_nil, Signal.text]
  by_cases hok : confirms (decode msg) = true
  · rw [if_pos hok, if_pos hok]
  rw [if_neg hok, if_neg hok]
  iterate 6
    split
    · simp only [*]
      rfl
  simp only [*]
  rfl

end Code
/-- Acknowledgements of some signals and reads of some cards, among other operations. -/
def Within (acks : List String) (cards : List (String × String)) : LaneOp → Prop
  | .write (.ack a) => a ∈ acks
  | .xadd (.rfidCardRead card channel) => (card, channel) ∈ cards
  | _ => True

section Inventory
variable {acks : List String} {cards : List (String × String)} (cfg : Config)

theorem within_plain (o : LaneOp) (h : Plain o) : Within acks cards o := by
  cases o <;> trivial

theorem within_display (line1 line2 : String) :
    Issues (Within acks cards) (display cfg line1 line2) :=
  issues_display within_plain cfg trivial (fun _ _ => trivial) line1 line2

theorem within_idle : Issues (Within acks cards) (do let _ ← transition .idle; display cfg "" "") :=
  (issues_transition within_plain _).bind fun _ => within_display cfg _ _

theorem within_playIfEnabled (track : Int) : Issues (Within acks cards) (playIfEnabled cfg track) :=
  issues_playIfEnabled within_plain cfg (fun _ => trivial) (fun _ => ⟨trivial, fun _ _ => trivial⟩)
    track

theorem within_onVehicleDetected : Issues (Within acks cards) (onVehicleDetected cfg) :=
  (issues_transition within_plain _).bind fun _ =>
    (issues_publishEvent ⟨trivial, fun _ _ => trivial⟩ 0).bind fun _ =>
      (within_playIfEnabled cfg _).bind fun _ => within_display cfg _ _

theorem within_onVehiclePassed : Issues (Within acks cards) (onVehiclePassed cfg) := by
  refine (issues_transition within_plain _).bind fun _ =>
    (issues_publishEvent ⟨trivial, fun _ _ => trivial⟩ 0).bind fun _ =>
      (within_display cfg _ _).bind fun _ => ?_
  unfold relayClose
  split
  · exact only_pure
  · exact issues_send within_plain trivial

theorem within_onHelpButton : Issues (Within acks cards) (onHelpButton cfg) := by
  refine (issues_cmdPlayAudio within_plain cfg (fun _ => trivial)
    (fun _ => ⟨trivial, fun _ _ => trivial⟩) 5).bind fun _ => ?_
  refine (within_display cfg _ _).bind fun _ =>
    (issues_publishEvent ⟨trivial, fun _ _ => trivial⟩ 0).bind fun _ => ?_
  exact issues_then within_plain trivial fun _ => within_idle cfg

theorem within_onTicketButtonPressed : Issues (Within acks cards) onTicketButtonPressed :=
  (issues_transition within_plain _).bind fun _ =>
    issues_publishEvent ⟨trivial, fun _ _ => trivial⟩ _

theorem within_onRfidCardRead {card channel : String} (h : (card, channel) ∈ cards) :
    Issues (Within acks cards) (onRfidCardRead card channel) :=
  (issues_transition within_plain _).bind fun _ =>
    (issues_publishEvent ⟨h, fun _ _ => trivial⟩ _).bind fun _ =>
      issues_then within_plain trivial fun _ => only_perform (within_plain _ trivial)

/-- A handler that is called in one state. -/
theorem within_when {st : GateState} {p q : Work Unit} (hp : Issues (Within acks cards) p)
    (hq : Issues (Within acks cards) q) :
    Issues (Within acks cards) (do if (← ask .state) = st then p else q) :=
  issues_then within_plain trivial fun s => by
    split
    · exact hp
    · exact hq

theorem within_react {s : Signal} (h : s.text ∈ acks) :
    Issues (Within acks cards) (react cfg s) := by
  have hack : Issues (Within acks cards) (send (.ack s.text)) := issues_send within_plain h
  cases s with
  | in1On =>
    exact issues_then within_plain trivial fun _ => hack.bind fun _ =>
      within_when (within_onVehicleDetected cfg) only_pure
  | in1Off =>
    exact issues_then within_plain trivial fun _ => hack.bind fun _ =>
      within_when (within_idle cfg) (within_when (within_onVehiclePassed cfg) only_pure)
  | in2On =>
    refine hack.bind fun _ => issues_then within_plain trivial fun on => ?_
    split
    · exact only_pure
    · exact within_when within_onTicketButtonPressed only_pure
  | in3On => exact hack.bind fun _ => within_when (within_onHelpButton cfg) only_pure
  | in4On =>
    exact hack.bind fun _ =>
      within_when (within_idle cfg) (within_when (within_onVehiclePassed cfg) only_pure)
  | in4Off => exact hack.bind fun _ => within_when (within_onVehiclePassed cfg) only_pure
  | in2Off | in3Off => exact only_pure

/-- The card that is read when there are two. -/
def firstCard (parsed : Stat) : List (String × String) :=
  match parsed.wiegandW, parsed.wiegandX with
  | some card, _ => [(card, "W")]
  | none, some card => [(card, "X")]
  | none, none => []

theorem within_readCards (parsed : Stat) :
    Issues (Within ["W"] (firstCard parsed)) (readCards cfg parsed) := by
  have hread : ∀ (cs : List (String × String)) (p : Work Unit), Issues (Within ["W"] cs) p →
      Issues (Within ["W"] cs) (do
        send (.ack "W")
        if (← ask .state) = .waitingInput ∧ cfg.hasRfid = true then p) := by
    intro cs p hp
    have hack : Within ["W"] cs (.write (.ack "W")) := List.mem_singleton_self _
    refine (issues_send within_plain hack).bind fun _ => ?_
    refine issues_then within_plain trivial fun s => ?_
    split
    · exact hp
    · exact only_pure
  unfold readCards firstCard
  rcases parsed.wiegandW with - | w
  · rcases parsed.wiegandX with - | x
    · rw [if_neg (by simp)]
      exact only_pure
    · rw [if_pos (by simp)]
      exact hread _ _ (within_onRfidCardRead (List.mem_singleton_self _))
  · rw [if_pos (by simp)]
    exact hread _ _ (within_onRfidCardRead (List.mem_singleton_self _))

end Inventory

section Coverage
variable (env : Env) (cfg : Config)

def Unwritten (j : Log) : Prop := ∀ x ∈ j, ∀ s, x.op ≠ .setState s

def Unsensed (j : Log) : Prop := ∀ x ∈ j, ∀ on, x.op ≠ .setIn1 on

/-- The gate is in state `st`, with or without a vehicle at the first sensor, until the task itself
writes either. -/
structure Starts (st : GateState) (in1On : Bool) : Prop where
  state : ∀ j, Unwritten j → env j .state = st
  in1On : ∀ j, Unsensed j → env j .in1On = in1On

/-- The run of `p` comes to `q`. -/
def ComesTo (p q : Work Unit) : Prop := ∃ k j, Reaches env p [] (q >>= k) j

/-- What the daemon does about a change in a state that accepts it. -/
def reaction : Signal → GateState → Bool → Option (Work Unit)
  | .in1On, .idle, _ => some (onVehicleDetected cfg)
  | .in1Off, .waitingInput, _ => some (onVehicleBackedUp cfg)
  | .in1Off, .opening, _ => some (onVehiclePassed cfg)
  | .in2On, .waitingInput, true => some onTicketButtonPressed
  | .in3On, .waitingInput, _ => some (onHelpButton cfg)
  | .in4On, .waitingInput, _ => some (onReset cfg)
  | .in4On, .opening, _ => some (onVehiclePassed cfg)
  | .in4Off, .opening, _ => some (onVehiclePassed cfg)
  | _, _, _ => none

/-- The note that the daemon takes of the first sensor. -/
def sensed : Signal → Option Bool
  | .in1On => some true
  | .in1Off => some false
  | _ => none

/-- Everything that `parse_stat` reads from the frame is reacted to. -/
structure Covered (msg : Bytes) (st : GateState) (in1On : Bool) : Prop where
  acknowledged : ∀ s ∈ reported (decode msg),
    ComesTo env (dispatchRssMessage cfg msg) (send (.ack s.text))
  sensed : ∀ s ∈ reported (decode msg), ∀ on, sensed s = some on →
    ComesTo env (dispatchRssMessage cfg msg) (ask (.setIn1 on))
  actedOn : ∀ s ∈ reported (decode msg), ∀ r, reaction cfg s st in1On = some r →
    ComesTo env (dispatchRssMessage cfg msg) r
  read : ∀ c ∈ awaited cfg st (parseStat msg),
    ComesTo env (dispatchRssMessage cfg msg) (onRfidCardRead c.1 c.2)

/-- There is at most one thing to react to, and it is neither IN2OFF nor IN3OFF; a frame that
looks like a confirmation has nothing to react to. -/
structure Simple (msg : Bytes) (st : GateState) : Prop where
  one : (reported (decode msg)).length + (awaited cfg st (parseStat msg)).length ≤ 1
  in2Off : .in2Off ∉ reported (decode msg)
  in3Off : .in3Off ∉ reported (decode msg)
  confirms : confirms (decode msg) = true →
    reported (decode msg) = [] ∧ awaited cfg st (parseStat msg) = []

end Coverage

section Reactions
variable {env : Env} {cfg : Config} {st : GateState} {in1On : Bool} {j : Log}

theorem comesTo_of_reaches {p q : Work Unit} (h : Reaches env p [] q j) : ComesTo env p q :=
  ⟨pure, j, (Prog.bind_pure q).symm ▸ h⟩

theorem reaches_ask {o : LaneOp} (f : o.Ans → Work Unit) :
    Reaches env (ask o >>= f) j (f (env j o)) (env.record j o) := .call (.here _ _)

variable (env j) in
/-- A command is sent, or lost on the way, and the task goes on. -/
theorem reaches_send (c : ControllerCommand) (f : Unit → Work Unit) :
    ∃ j', Reaches env (send c >>= f) j (f ()) j' ∧ ∀ x ∈ j', x ∈ j ∨ Sends c x.op := by
  have hsent : Prog.Ensures env.exec (send c) j _ fun _ _ => False :=
    ensures_mem ((only_send c).bind fun _ => only_pure)
  obtain ⟨u, j', hreach, -, hops⟩ := reaches_of_ensures (f := f) hsent
  exact ⟨j', hreach, hops⟩

theorem unwritten_record (hj : Unwritten j) {o : LaneOp} (ho : ∀ s, o ≠ .setState s) :
    Unwritten (env.record j o) := by
  intro x hx
  rcases mem_record.mp hx with hx | rfl
  · exact hj x hx
  · exact ho

theorem unwritten_sent {c : ControllerCommand} {j' : Log} (hj : Unwritten j)
    (hops : ∀ x ∈ j', x ∈ j ∨ Sends c x.op) : Unwritten j' := by
  intro x hx s hs
  rcases hops x hx with hx | hx
  · exact hj x hx s hs
  · rw [hs] at hx
    exact hx

theorem unsensed_sent {c : ControllerCommand} {j' : Log}
    (hops : ∀ x ∈ j', x ∈ ([] : Log) ∨ Sends c x.op) : Unsensed j' := by
  intro x hx on hon
  rcases hops x hx with hx | hx
  · cases hx
  · rw [hon] at hx
    exact hx

theorem reaches_acked {p r : Work Unit} (c : ControllerCommand) (hj : Unwritten j)
    (h : ∀ j', Unwritten j' → ∃ j'', Reaches env p j' r j'') :
    ∃ j'', Reaches env (do send c; p) j r j'' := by
  obtain ⟨j', hsent, hops⟩ := reaches_send env j c fun _ => p
  obtain ⟨j'', hr⟩ := h j' (unwritten_sent hj hops)
  exact ⟨j'', hsent.trans hr⟩

section Starting
variable (hstarts : Starts env st in1On)
include hstarts

/-- The task reads the state that it started in. -/
theorem reaches_state (hj : Unwritten j) (f : GateState → Work Unit) :
    Reaches env (ask .state >>= f) j (f st) (env.record j .state) := by
  have hstep : Reaches env (ask .state >>= f) j (f (env j .state)) (env.record j .state) :=
    reaches_ask (o := .state) f
  rwa [hstarts.state j hj] at hstep

/-- The handler that is called in the state in which the task starts. -/
theorem reaches_when {p q r : Work Unit} {s : GateState} (hj : Unwritten j)
    (h : st = s → ∃ j', Reaches env p (env.record j .state) r j')
    (h' : st ≠ s → ∃ j', Reaches env q (env.record j .state) r j') :
    ∃ j', Reaches env (do if (← ask .state) = s then p else q) j r j' := by
  have hstep := reaches_state hstarts hj fun s' => if s' = s then p else q
  by_cases hs : st = s
  · obtain ⟨j', hp⟩ := h hs
    rw [if_pos hs] at hstep
    exact ⟨j', hstep.trans hp⟩
  · obtain ⟨j', hq⟩ := h' hs
    rw [if_neg hs] at hstep
    exact ⟨j', hstep.trans hq⟩

end Starting
end Reactions

section Handled
variable {text : List Char} {s : Signal}

theorem mem_reported_of_firstSignal (h : firstSignal text = some s) : s ∈ reported text := by
  unfold firstSignal at h
  unfold reported change
  simp only [List.find?_cons, List.find?_nil] at h
  grind

theorem firstSignal_of_mem_reported (h : s ∈ reported text) (h2 : s ≠ .in2Off) (h3 : s ≠ .in3Off) :
    firstSignal text ≠ none := by
  unfold reported change at h
  unfold firstSignal
  simp only [List.find?_cons, List.find?_nil]
  grind

theorem firstSignal_ne (h : firstSignal text = some s) : s ≠ .in2Off ∧ s ≠ .in3Off := by
  have hmem := List.mem_of_find?_eq_some h
  constructor <;> rintro rfl <;> simp at hmem

/-- A frame with one change is handled for it, unless it is one that the chain lacks. -/
theorem firstSignal_of_reported (h : reported text = [s]) (h2 : s ≠ .in2Off) (h3 : s ≠ .in3Off) :
    firstSignal text = some s := by
  have hmem : ∀ s', s' ∈ reported text ↔ s' = s := fun s' => by rw [h, List.mem_singleton]
  rcases hs : firstSignal text with - | s'
  · exact absurd hs (firstSignal_of_mem_reported ((hmem s).mpr rfl) h2 h3)
  · rw [(hmem s').mp (mem_reported_of_firstSignal hs)]

/-- An input is reported on or off, and each change once. -/
theorem reported_nodup (text : List Char) : (reported text).Nodup := by
  have hchange : ∀ on off, List.Sublist (change text on off) [on, off] := by
    intro on off
    unfold change
    split
    · exact List.sublist_append_left [on] [off]
    split
    · exact List.sublist_append_right [on] [off]
    · exact List.nil_sublist _
  have hall : List.Sublist (reported text)
      [.in1On, .in1Off, .in2On, .in2Off, .in3On, .in3Off, .in4On, .in4Off] :=
    (((hchange _ _).append (hchange _ _)).append (hchange _ _)).append (hchange _ _)
  exact hall.nodup (by decide)

end Handled

section Reacting
variable {env : Env} {cfg : Config} {st : GateState} {in1On : Bool} {s : Signal}

theorem acknowledges_react (h2 : s ≠ .in2Off) (h3 : s ≠ .in3Off) :
    ComesTo env (react cfg s) (send (.ack s.text)) := by
  cases s with
  | in1On | in1Off => exact ⟨_, _, reaches_ask _⟩
  | in2On | in3On | in4On | in4Off => exact ⟨_, _, .here _ _⟩
  | in2Off => exact absurd rfl h2
  | in3Off => exact absurd rfl h3

theorem senses_react {on : Bool} (h : sensed s = some on) :
    ComesTo env (react cfg s) (ask (.setIn1 on)) := by
  cases s with
  | in1On | in1Off =>
    cases h
    exact ⟨_, _, .here _ _⟩
  | _ => cases h

theorem reaction_react (hstarts : Starts env st in1On) {r : Work Unit}
    (h : reaction cfg s st in1On = some r) : ComesTo env (react cfg s) r := by
  have hnil : Unwritten ([] : Log) := by
    intro x hx
    cases hx
  have hdone : ∀ j, ∃ j', Reaches env r j r j' := fun j => ⟨j, .here _ _⟩
  have hread : ∀ j, Unwritten j → Unwritten (env.record j .state) := fun j hj =>
    unwritten_record hj fun _ => LaneOp.noConfusion
  -- the first sensor is noted before the acknowledgement
  have hnoted : ∀ on, Unwritten (env.record [] (.setIn1 on)) := fun on =>
    unwritten_record hnil fun _ => LaneOp.noConfusion
  -- the state is asked for once, or twice
  have hone : ∀ (q : Work Unit) j, Unwritten j →
      ∃ j', Reaches env (do if (← ask .state) = st then r else q) j r j' := fun q j hj =>
    reaches_when hstarts hj (fun _ => hdone _) fun hne => absurd rfl hne
  have htwo : ∀ (s' : GateState) (p q : Work Unit) j, st ≠ s' → Unwritten j →
      ∃ j', Reaches env (do
        if (← ask .state) = s' then p else if (← ask .state) = st then r else q) j r j' :=
    fun s' p q j hne hj => reaches_when hstarts hj (fun he => absurd he hne) fun _ =>
      hone q _ (hread j hj)
  suffices hreach : ∃ j', Reaches env (react cfg s) [] r j' by
    obtain ⟨j', hr⟩ := hreach
    exact comesTo_of_reaches hr
  unfold reaction at h
  split at h
  case h_1 =>
    cases h
    obtain ⟨j', hr⟩ := reaches_acked (.ack "IN1ON") (hnoted true) (hone (pure ()))
    exact ⟨j', (reaches_ask _).trans hr⟩
  case h_2 =>
    cases h
    obtain ⟨j', hr⟩ := reaches_acked (.ack "IN1OFF") (hnoted false) (hone _)
    exact ⟨j', (reaches_ask _).trans hr⟩
  case h_3 =>
    cases h
    obtain ⟨j', hr⟩ := reaches_acked (.ack "IN1OFF") (hnoted false) fun j hj =>
      htwo .waitingInput _ (pure ()) j GateState.noConfusion hj
    exact ⟨j', (reaches_ask _).trans hr⟩
  case h_4 =>
    cases h
    obtain ⟨j, hsent, hops⟩ := reaches_send env [] (.ack "IN2ON") fun _ => do
      if !(← ask .in1On) then pure ()
      else if (← ask .state) = .waitingInput then onTicketButtonPressed
    have hj : Unwritten j := unwritten_sent hnil hops
    have hon : env j .in1On = true := hstarts.in1On j (unsensed_sent hops)
    obtain ⟨j', hr⟩ := hone (pure ()) (env.record j .in1On)
      (unwritten_record hj fun _ => LaneOp.noConfusion)
    refine ⟨j', hsent.trans ((reaches_ask _).trans ?_)⟩
    rw [hon]
    exact hr
  case h_5 =>
    cases h
    exact reaches_acked (.ack "IN3ON") hnil (hone (pure ()))
  case h_6 =>
    cases h
    exact reaches_acked (.ack "IN4ON") hnil (hone _)
  case h_7 =>
    cases h
    exact reaches_acked (.ack "IN4ON") hnil fun j hj =>
      htwo .waitingInput _ (pure ()) j GateState.noConfusion hj
  case h_8 =>
    cases h
    exact reaches_acked (.ack "IN4OFF") hnil (hone (pure ()))
  case h_9 => cases h

/-- One awaited card is read. -/
theorem reads_readCards (hstarts : Starts env st in1On) {parsed : Stat} {c : String × String}
    (h : awaited cfg st parsed = [c]) :
    ComesTo env (readCards cfg parsed) (onRfidCardRead c.1 c.2) := by
  have hread : ∀ r : Work Unit, (st = .waitingInput ∧ cfg.hasRfid = true) →
      ComesTo env (do
        send (.ack "W")
        if (← ask .state) = .waitingInput ∧ cfg.hasRfid = true then r) r := by
    intro r hst
    obtain ⟨j, hsent, hops⟩ := reaches_send env [] (.ack "W") fun _ => do
      if (← ask .state) = .waitingInput ∧ cfg.hasRfid = true then r
    have hj : Unwritten j := by
      refine unwritten_sent (fun x hx => ?_) hops
      cases hx
    have hstep := reaches_state hstarts hj fun s =>
      if s = .waitingInput ∧ cfg.hasRfid = true then r else pure ()
    rw [if_pos hst] at hstep
    exact comesTo_of_reaches (hsent.trans hstep)
  unfold awaited at h
  split at h
  case isFalse => cases h
  case isTrue hst =>
    unfold readCards
    rcases hw : parsed.wiegandW with - | w <;> rcases hx : parsed.wiegandX with - | x <;>
      rw [hw, hx] at h <;> cases h
    · rw [if_pos (by simp)]
      exact hread _ hst
    · rw [if_pos (by simp)]
      exact hread _ hst

end Reacting

section Missing
variable {env : Env} {cfg : Config} {acks : List String} {cards : List (String × String)}
  {p : Work Unit}

/-- No signal is acknowledged that the task does not acknowledge. -/
theorem mem_acks (hp : Issues (Within acks cards) p) {a : String}
    (h : ComesTo env p (send (.ack a))) : a ∈ acks := by
  obtain ⟨k, j, hr⟩ := h
  have hsend : Issues (Within acks cards) (send (.ack a)) := (hr.only hp).of_bind
  -- connected, with the breaker closed
  exact ((hsend.2 true).2 (0 : Int)).2 ({} : Breaker) |>.1

theorem mem_cards (hp : Issues (Within acks cards) p) {c : String × String}
    (h : ComesTo env p (onRfidCardRead c.1 c.2)) : c ∈ cards := by
  obtain ⟨k, j, hr⟩ := h
  have hread : Issues (Within acks cards) (onRfidCardRead c.1 c.2) := (hr.only hp).of_bind
  exact ((hread.2 (0 : Nat)).2 true).1

end Missing

/-- What a frame is acknowledged with. -/
def acksOf (text : List Char) : List String :=
  if confirms text then [] else (firstSignal text).elim ["W"] fun s => [s.text]

/-- The cards of a frame that are ever read. -/
def cardsOf (msg : Bytes) : List (String × String) :=
  if confirms (decode msg) then []
  else (firstSignal (decode msg)).elim (firstCard (parseStat msg)) fun _ => []

section Frames
variable {env : Env} {cfg : Config} {msg : Bytes} {st : GateState} {in1On : Bool}

theorem within_dispatch :
    Issues (Within (acksOf (decode msg)) (cardsOf msg)) (dispatchRssMessage cfg msg) := by
  rw [dispatchRssMessage_eq]
  unfold acksOf cardsOf
  split
  · exact only_pure
  · cases firstSignal (decode msg) with
    | none => exact within_readCards cfg _
    | some s => exact within_react cfg (List.mem_singleton_self _)

theorem Signal.text_injective {s s' : Signal} (h : s.text = s'.text) : s = s' := by
  cases s <;> cases s' <;> first | rfl | simp [Signal.text] at h

theorem firstSignal_of_mem_acks {text : List Char} {s : Signal} (h : s.text ∈ acksOf text) :
    confirms text = false ∧ firstSignal text = some s := by
  unfold acksOf at h
  split at h
  · cases h
  · rename_i hok
    refine ⟨Bool.eq_false_iff.mpr hok, ?_⟩
    cases hs : firstSignal text with
    | none =>
      rw [hs] at h
      cases s <;> simp [Signal.text] at h
    | some s' =>
      rw [hs] at h
      rw [Signal.text_injective (List.mem_singleton.mp h)]

theorem firstCard_of_mem_cards {c : String × String} (h : c ∈ cardsOf msg) :
    confirms (decode msg) = false ∧ firstSignal (decode msg) = none ∧
      c ∈ firstCard (parseStat msg) := by
  unfold cardsOf at h
  split at h
  · cases h
  · rename_i hok
    refine ⟨Bool.eq_false_iff.mpr hok, ?_⟩
    cases hs : firstSignal (decode msg) with
    | none =>
      rw [hs] at h
      exact ⟨rfl, h⟩
    | some s' =>
      rw [hs] at h
      cases h

theorem firstCard_length (parsed : Stat) : (firstCard parsed).length ≤ 1 := by
  unfold firstCard
  split <;> simp

theorem awaited_nodup (parsed : Stat) : (awaited cfg st parsed).Nodup := by
  unfold awaited
  split
  · cases parsed.wiegandW <;> cases parsed.wiegandX <;> simp
  · exact List.nodup_nil

theorem eq_singleton_of_mem {α : Type} {l : List α} {x : α} (h : x ∈ l) (hl : l.length ≤ 1) :
    l = [x] := by
  obtain ⟨y, rfl⟩ := List.length_eq_one_iff.mp (Nat.le_antisymm hl (List.length_pos_of_mem h))
  rw [List.mem_singleton.mp h]

/-- More than one thing to react to is more than the chain of the dispatcher reacts to. -/
theorem simple_of_covered (h : Covered env cfg msg st in1On) : Simple cfg msg st := by
  have hacked : ∀ s ∈ reported (decode msg),
      confirms (decode msg) = false ∧ firstSignal (decode msg) = some s := fun s hs =>
    firstSignal_of_mem_acks (mem_acks within_dispatch (h.acknowledged s hs))
  have hread : ∀ c ∈ awaited cfg st (parseStat msg), confirms (decode msg) = false ∧
      firstSignal (decode msg) = none ∧ c ∈ firstCard (parseStat msg) := fun c hc =>
    firstCard_of_mem_cards (mem_cards within_dispatch (h.read c hc))
  refine ⟨?_, fun h2 => (firstSignal_ne (hacked _ h2).2).1 rfl,
    fun h3 => (firstSignal_ne (hacked _ h3).2).2 rfl, fun hok => ⟨?_, ?_⟩⟩
  · cases hs : firstSignal (decode msg) with
    | none =>
      have hrep : reported (decode msg) = [] := by
        refine List.eq_nil_iff_forall_not_mem.mpr fun s hmem => ?_
        rw [hs] at hacked
        cases (hacked s hmem).2
      have hsub := List.subperm_of_subset (awaited_nodup (parseStat msg)) fun c hc =>
        (hread c hc).2.2
      rw [hrep, List.length_nil, Nat.zero_add]
      exact hsub.length_le.trans (firstCard_length _)
    | some s =>
      have haw : awaited cfg st (parseStat msg) = [] := by
        refine List.eq_nil_iff_forall_not_mem.mpr fun c hmem => ?_
        rw [hs] at hread
        cases (hread c hmem).2.1
      have hsub : List.Subperm (reported (decode msg)) [s] := by
        refine List.subperm_of_subset (reported_nodup _) fun s' hmem => ?_
        rw [hs] at hacked
        exact List.mem_singleton.mpr (Option.some.inj (hacked s' hmem).2).symm
      rw [haw, List.length_nil, Nat.add_zero]
      exact hsub.length_le
  · exact List.eq_nil_iff_forall_not_mem.mpr fun s hmem =>
      Bool.noConfusion (hok.symm.trans (hacked s hmem).1)
  · exact List.eq_nil_iff_forall_not_mem.mpr fun c hmem =>
      Bool.noConfusion (hok.symm.trans (hread c hmem).1)

theorem covered_of_simple (hstarts : Starts env st in1On) (h : Simple cfg msg st) :
    Covered env cfg msg st in1On := by
  have hone := h.one
  have hchange : ∀ s ∈ reported (decode msg), dispatchRssMessage cfg msg = react cfg s ∧
      s ≠ .in2Off ∧ s ≠ .in3Off := by
    intro s hs
    have h2 : s ≠ .in2Off := fun he => h.in2Off (he ▸ hs)
    have h3 : s ≠ .in3Off := fun he => h.in3Off (he ▸ hs)
    have hrep : reported (decode msg) = [s] := eq_singleton_of_mem hs (by omega)
    have hok : confirms (decode msg) ≠ true := fun hok => by
      rw [(h.confirms hok).1] at hs
      cases hs
    rw [dispatchRssMessage_eq, if_neg hok, firstSignal_of_reported hrep h2 h3]
    exact ⟨rfl, h2, h3⟩
  refine ⟨fun s hs => ?_, fun s hs on hon => ?_, fun s hs r hr => ?_, fun c hc => ?_⟩
  · obtain ⟨heq, h2, h3⟩ := hchange s hs
    rw [heq]
    exact acknowledges_react h2 h3
  · rw [(hchange s hs).1]
    exact senses_react hon
  · rw [(hchange s hs).1]
    exact reaction_react hstarts hr
  · have hpos := List.length_pos_of_mem hc
    have haw : awaited cfg st (parseStat msg) = [c] := eq_singleton_of_mem hc (by omega)
    have hrep : reported (decode msg) = [] := List.eq_nil_of_length_eq_zero (by omega)
    have hok : confirms (decode msg) ≠ true := fun hok => by
      rw [(h.confirms hok).2] at hc
      cases hc
    have hnone : firstSignal (decode msg) = none := by
      refine Option.eq_none_iff_forall_not_mem.mpr fun s hs => ?_
      have hmem := mem_reported_of_firstSignal hs
      rw [hrep] at hmem
      cases hmem
    rw [dispatchRssMessage_eq, if_neg hok, hnone]
    exact reads_readCards hstarts haw

/-- The daemon reacts to everything that `parse_stat` reads from a frame exactly when that is one
thing at most. -/
theorem covered_iff_simple (hstarts : Starts env st in1On) :
    Covered env cfg msg st in1On ↔ Simple cfg msg st :=
  ⟨simple_of_covered, covered_of_simple hstarts⟩

end Frames

theorem lineEnv_starts (up : Bool) : Starts (lineEnv up) .waitingInput true :=
  ⟨fun _ _ => rfl, fun _ _ => rfl⟩

theorem covered_iff_simple_card :
    Covered (lineEnv true) { hasRfid := true } (frameOf "W1234") .waitingInput true := by
  refine (covered_iff_simple (lineEnv_starts true)).mpr ⟨?_, ?_, ?_, ?_⟩
  · decide
  · decide
  · decide
  · decide

/-- The ticket button is pressed while a card is held to the reader: the card is not read. -/
theorem card_hidden_by_button :
    ¬ Covered (lineEnv true) { hasRfid := true } (frameOf "IN2ONW1234") .waitingInput true := by
  intro h
  have hone := (simple_of_covered h).one
  have htwo : (reported (decode (frameOf "IN2ONW1234"))).length +
      (awaited { hasRfid := true } .waitingInput (parseStat (frameOf "IN2ONW1234"))).length =
        2 := by
    decide
  omega

end ParkIt.GateIn
