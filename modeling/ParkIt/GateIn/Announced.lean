import ParkIt.GateIn.Inventory

/-! A state of the gate and the event that goes with it, when Redis fails in between. -/
namespace ParkIt.GateIn.Announced

open Effects

/-- A call to Redis comes back; or it raises, without an effect or with one that is not answered. -/
inductive Outcome where
  | done
  | refused
  | unanswered
deriving DecidableEq, Repr

def Outcome.takesEffect : Outcome → Bool
  | .done | .unanswered => true
  | .refused => false

/-- What the calls of one handler come to. -/
structure Env (W : Type) where
  hset : Outcome
  xadd : GateEvent → Outcome
  publish : GateEvent → Outcome
  answer : (o : LaneOp) → W → o.Ans × W

/-- The daemon's state, its copy in Redis, and the events in the log and on the channel; `since`
are those that were published since the state last changed. -/
structure Gate (W : Type) where
  world : W
  state : GateState
  persisted : Option GateState := none
  eventLog : List GateEvent := []
  published : List GateEvent := []
  since : List GateEvent := []

section Code
variable {W : Type}

def keep (o : Outcome) (e : GateEvent) (es : List GateEvent) : List GateEvent :=
  if o.takesEffect then es ++ [e] else es

def Env.exec (env : Env W) (o : LaneOp) (g : Gate W) : Except LaneExc o.Ans × Gate W :=
  match o with
  | .state => (.ok g.state, g)
  | .setState st =>
    let (n, world) := env.answer (.setState st) g.world
    (.ok n, { g with world, state := st, since := if st = g.state then g.since else [] })
  | .hset =>
    (.ok (decide (env.hset = .done)),
      { g with persisted := if env.hset.takesEffect then some g.state else g.persisted })
  | .xadd e =>
    (.ok (if env.xadd e = .done then some g.eventLog.length else none),
      { g with eventLog := keep (env.xadd e) e g.eventLog })
  | .publish e _ _ =>
    (.ok (decide (env.publish e = .done)),
      { g with
        published := keep (env.publish e) e g.published
        since := keep (env.publish e) e g.since })
  | o =>
    let (a, world) := env.answer o g.world
    (.ok a, { g with world })

/-- The handlers that change the state and then publish. -/
inductive Handler where
  | vehicleDetected
  | ticketButtonPressed
  | rfidCardRead (cardNumber channel : String)
  | gateOpened
  | vehiclePassed
deriving DecidableEq, Repr

def Handler.code (cfg : Config) : Handler → Work Unit
  | .vehicleDetected => onVehicleDetected cfg
  | .ticketButtonPressed => onTicketButtonPressed
  | .rfidCardRead cardNumber channel => onRfidCardRead cardNumber channel
  | .gateOpened => onLaneOpened
  | .vehiclePassed => onVehiclePassed cfg

def Handler.target : Handler → GateState
  | .vehicleDetected => .waitingInput
  | .ticketButtonPressed => .processing
  | .rfidCardRead _ _ => .validating
  | .gateOpened => .opening
  | .vehiclePassed => .idle

def Handler.event : Handler → GateEvent
  | .vehicleDetected => .vehicleDetected "IN1"
  | .ticketButtonPressed => .ticketButtonPressed
  | .rfidCardRead cardNumber channel => .rfidCardRead cardNumber channel
  | .gateOpened => .gateOpened
  | .vehiclePassed => .vehiclePassed

/-- A serial controller cannot play audio; the booth is told to. -/
def Handler.audio (cfg : Config) : Handler → Option GateEvent
  | .vehicleDetected =>
    if cfg.audioEnabled ∧ cfg.serial then
      some (.playAudio ((cfg.trackMap.lookup (toString cfg.welcomeTrack)).getD cfg.welcomeTrack))
    else none
  | _ => none

/-- The handler when the event is published. -/
def Handler.rest (cfg : Config) (n : Nat) : Handler → Work Unit
  | .vehicleDetected => do
    playIfEnabled cfg cfg.welcomeTrack
    display cfg "Selamat Datang" "Tombol/Tempel Kartu"
  | .ticketButtonPressed => pure ()
  | .rfidCardRead _ _ => do
    let i ← ask (.spawn (.validating n))
    ask (.setValidatingTask i)
  | .gateOpened => do
    let _ ← ask (.spawn (.vehiclePass n))
    pure ()
  | .vehiclePassed => do
    display cfg "" ""
    relayClose cfg

end Code

section Runs
variable {W : Type} {env : Env W} {cfg : Config} {g : Gate W} {h : Handler}

def Env.moved (env : Env W) (st : GateState) (g : Gate W) : Gate W :=
  { g with
    world := (env.answer (.setState st) g.world).2
    state := st
    persisted := if env.hset.takesEffect then some st else g.persisted
    since := if st = g.state then g.since else [] }

def Env.told (env : Env W) (e : GateEvent) (g : Gate W) : Gate W :=
  { g with
    eventLog := keep (env.xadd e) e g.eventLog
    published := keep (env.publish e) e g.published
    since := keep (env.publish e) e g.since }

theorem run_transition (st : GateState) (g : Gate W) :
    (transition st).run env.exec g =
      (if env.hset = .done then .ok (env.answer (.setState st) g.world).1 else .error .redis,
        env.moved st g) := by
  rw [transition, Prog.run_bind, ask, Prog.run_perform]
  change ((persistState >>= fun _ => pure (env.answer (.setState st) g.world).1).run env.exec
    { g with
      world := (env.answer (.setState st) g.world).2
      state := st
      since := if st = g.state then g.since else [] }) = _
  rw [Prog.run_bind, persistState, Prog.run_bind, ask, Prog.run_perform]
  cases hset : env.hset <;> simp [Env.exec, Env.moved, hset]

theorem run_publishEvent (e : GateEvent) (n : Nat) (g : Gate W) :
    (publishEvent e n).run env.exec g =
      (if env.publish e = .done then .ok () else .error .redis, env.told e g) := by
  rw [publishEvent, Prog.run_bind, ask, Prog.run_perform]
  dsimp only [Env.exec]
  rw [Prog.run_bind, ask, Prog.run_perform]
  cases hpublish : env.publish e <;> simp [Env.exec, Env.told, hpublish]

/-- Neither the state nor Redis. -/
def Quiet : LaneOp → Prop
  | .state | .setState _ | .hset | .xadd _ | .publish _ _ _ => False
  | _ => True

theorem run_quiet (env : Env W) {α : Type} {p : Work α} (hp : Only Quiet (fun _ => False) p)
    (g : Gate W) :
    ∃ a world, p.run env.exec g = (.ok a, { g with world }) := by
  induction p generalizing g with
  | pure a => exact ⟨a, g.world, rfl⟩
  | throw e => exact hp.elim
  | call o k ih =>
    obtain ⟨ho, hk⟩ := hp
    have hexec : env.exec o g =
        (.ok (env.answer o g.world).1, { g with world := (env.answer o g.world).2 }) := by
      cases o <;> first | rfl | exact ho.elim
    rw [Prog.run_call, hexec]
    exact ih _ (hk _) _

theorem quiet_send (command : ControllerCommand) : Only Quiet (fun _ => False) (send command) := by
  refine ((only_send command).mono (fun o ho => ?_) fun _ h => h).bind fun _ => only_pure
  cases o <;> trivial

theorem quiet_display (cfg : Config) (line1 line2 : String) :
    Only Quiet (fun _ => False) (display cfg line1 line2) := by
  unfold display
  split
  · exact quiet_send _
  · exact only_pure

theorem quiet_relayClose (cfg : Config) : Only Quiet (fun _ => False) (relayClose cfg) := by
  unfold relayClose
  split
  · exact only_pure
  · exact quiet_send _

theorem quiet_rest (n : Nat) (haudio : h.audio cfg = none) :
    Only Quiet (fun _ => False) (h.rest cfg n) := by
  cases h with
  | vehicleDetected =>
    refine Only.bind ?_ fun _ => quiet_display cfg _ _
    unfold playIfEnabled cmdPlayAudio
    dsimp only [Handler.audio] at haudio
    split at haudio
    · cases haudio
    case isFalse hoff =>
      split
      case isTrue hon =>
        rw [if_neg fun hserial => hoff ⟨hon, hserial⟩]
        exact quiet_send _
      case isFalse => exact only_pure
  | ticketButtonPressed => exact only_pure
  | rfidCardRead _ _ => exact (only_perform trivial).bind fun _ => only_perform trivial
  | gateOpened => exact (only_perform trivial).bind fun _ => only_pure
  | vehiclePassed => exact (quiet_display cfg _ _).bind fun _ => quiet_relayClose cfg

/-- A welcome over the booth is one more event. -/
theorem rest_audio {e : GateEvent} (n : Nat) (haudio : h.audio cfg = some e) :
    h.rest cfg n = publishEvent e >>= fun _ =>
      display cfg "Selamat Datang" "Tombol/Tempel Kartu" := by
  cases h with
  | vehicleDetected =>
    dsimp only [Handler.audio] at haudio
    split at haudio
    case isTrue hboth =>
      cases haudio
      rw [Handler.rest, playIfEnabled, if_pos hboth.1, cmdPlayAudio, if_pos hboth.2]
    case isFalse => cases haudio
  | ticketButtonPressed | rfidCardRead _ _ | gateOpened | vehiclePassed => cases haudio

theorem run_rest_fails {e : GateEvent} (n : Nat) (haudio : h.audio cfg = some e)
    (he : env.publish e ≠ .done) (g : Gate W) :
    (h.rest cfg n).run env.exec g = (.error .redis, env.told e g) := by
  rw [rest_audio n haudio, Prog.run_bind, run_publishEvent, if_neg he]

theorem run_rest (n : Nat) (hall : ∀ e, h.audio cfg = some e → env.publish e = .done) (g : Gate W) :
    ∃ g', (h.rest cfg n).run env.exec g = (.ok (), g') ∧ g'.state = g.state ∧
      g.since <+: g'.since := by
  cases haudio : h.audio cfg with
  | none =>
    obtain ⟨a, world, hrun⟩ := run_quiet env (quiet_rest n haudio) g
    exact ⟨_, hrun, rfl, List.prefix_refl _⟩
  | some e =>
    have he := hall e haudio
    have htold : g.since <+: (env.told e g).since := by
      rw [Env.told, keep, he]
      exact List.prefix_append _ _
    obtain ⟨a, world, hrun⟩ :=
      run_quiet env (quiet_display cfg "Selamat Datang" "Tombol/Tempel Kartu") (env.told e g)
    refine ⟨{ env.told e g with world }, ?_, rfl, htold⟩
    rw [rest_audio n haudio, Prog.run_bind, run_publishEvent, if_pos he]
    exact hrun

theorem bind_unit (p : Work Unit) : (p >>= fun _ => pure ()) = p := by
  induction p with
  | pure a => rfl
  | throw e => rfl
  | call o k ih => exact congrArg (Prog.call o) (funext ih)

theorem code_eq (cfg : Config) (h : Handler) : ∃ tag : Nat → Nat, h.code cfg =
    transition h.target >>= fun n => publishEvent h.event (tag n) >>= fun _ => h.rest cfg n := by
  cases h with
  | ticketButtonPressed =>
    refine ⟨fun n => n, ?_⟩
    refine congrArg (transition .processing >>= ·) (funext fun n => ?_)
    exact (bind_unit _).symm
  | rfidCardRead _ _ => exact ⟨fun n => n, rfl⟩
  | vehicleDetected | gateOpened | vehiclePassed => exact ⟨fun _ => 0, rfl⟩

theorem run_code (env : Env W) (cfg : Config) (h : Handler) (g : Gate W) : ∃ n, (h.code cfg).run env.exec g =
    if env.hset = .done then
      if env.publish h.event = .done then
        (h.rest cfg n).run env.exec (env.told h.event (env.moved h.target g))
      else (.error .redis, env.told h.event (env.moved h.target g))
    else (.error .redis, env.moved h.target g) := by
  obtain ⟨tag, hcode⟩ := code_eq cfg h
  refine ⟨(env.answer (.setState h.target) g.world).1, ?_⟩
  rw [hcode, Prog.run_bind, run_transition]
  by_cases hset : env.hset = .done
  · rw [if_pos hset, if_pos hset]
    dsimp only
    rw [Prog.run_bind, run_publishEvent]
    by_cases hpublish : env.publish h.event = .done
    · rw [if_pos hpublish, if_pos hpublish]
    · rw [if_neg hpublish, if_neg hpublish]
  · rw [if_neg hset, if_neg hset]

end Runs

section Together
variable {W : Type} {env : Env W} {cfg : Config} {g : Gate W} {h : Handler}

structure Unchanged (g g' : Gate W) : Prop where
  state : g'.state = g.state
  persisted : g'.persisted = g.persisted
  eventLog : g'.eventLog = g.eventLog
  published : g'.published = g.published

/-- A gate that waits for the API has told it so. -/
def Answerable (g : Gate W) : Prop :=
  (g.state = .processing → .ticketButtonPressed ∈ g.since) ∧
  (g.state = .validating → ∃ cardNumber channel, .rfidCardRead cardNumber channel ∈ g.since)

/-- Every call of the handler comes back; a call that raises did nothing, and found the gate in the
handler's state already. -/
structure Together (env : Env W) (cfg : Config) (h : Handler) (g : Gate W) : Prop where
  hset : env.hset ≠ .done →
    g.state = h.target ∧ (env.hset = .unanswered → g.persisted = some h.target)
  publish : env.hset = .done → env.publish h.event ≠ .done →
    (g.state = h.target ∧ g.persisted = some h.target) ∧
    env.xadd h.event = .refused ∧ env.publish h.event = .refused
  audio : env.hset = .done → env.publish h.event = .done →
    ∀ e, h.audio cfg = some e → env.publish e = .done

theorem keep_eq {o : Outcome} {e : GateEvent} {es : List GateEvent} :
    keep o e es = es ↔ o = .refused := by
  cases o <;> simp [keep, Outcome.takesEffect]

theorem unchanged_moved (hset : env.hset ≠ .done) : Unchanged g (env.moved h.target g) ↔
    g.state = h.target ∧ (env.hset = .unanswered → g.persisted = some h.target) := by
  constructor
  · rintro ⟨hstate, hpersisted, -, -⟩
    refine ⟨hstate.symm, ?_⟩
    intro hunanswered
    rw [Env.moved, hunanswered] at hpersisted
    exact hpersisted.symm
  · rintro ⟨hstate, hpersisted⟩
    refine ⟨hstate.symm, ?_, rfl, rfl⟩
    rw [Env.moved]
    cases ho : env.hset with
    | done => exact (hset ho).elim
    | refused => rfl
    | unanswered => exact (hpersisted ho).symm

theorem unchanged_told (hset : env.hset = .done) :
    Unchanged g (env.told h.event (env.moved h.target g)) ↔
      (g.state = h.target ∧ g.persisted = some h.target) ∧
      env.xadd h.event = .refused ∧ env.publish h.event = .refused := by
  have hpersisted : (env.told h.event (env.moved h.target g)).persisted = some h.target := by
    rw [Env.told, Env.moved, hset]
    rfl
  constructor
  · rintro ⟨hstate, hkept, hlog, hpublished⟩
    exact ⟨⟨hstate.symm, hkept.symm.trans hpersisted⟩, keep_eq.mp hlog, keep_eq.mp hpublished⟩
  · rintro ⟨⟨hstate, hkept⟩, hlog, hpublished⟩
    exact ⟨hstate.symm, hpersisted.trans hkept.symm, keep_eq.mpr hlog, keep_eq.mpr hpublished⟩

/-- Where nothing else changed, the events of the state are those of before. -/
theorem since_moved (env : Env W) (hstate : g.state = h.target) : (env.moved h.target g).since = g.since := by
  rw [Env.moved]
  exact if_pos hstate.symm

theorem Answerable.congr {g' : Gate W} (hg : Answerable g) (hstate : g'.state = g.state)
    (hsince : g'.since = g.since) : Answerable g' := by
  rw [Answerable, hstate, hsince]
  exact hg

/-- A handler whose event is published. -/
theorem answerable_target {g' : Gate W} (hstate : g'.state = h.target)
    (hevent : h.event ∈ g'.since) : Answerable g' := by
  constructor
  · intro hprocessing
    rw [hstate] at hprocessing
    cases h with
    | ticketButtonPressed => exact hevent
    | vehicleDetected | rfidCardRead _ _ | gateOpened | vehiclePassed => cases hprocessing
  · intro hvalidating
    rw [hstate] at hvalidating
    cases h with
    | rfidCardRead cardNumber channel => exact ⟨cardNumber, channel, hevent⟩
    | vehicleDetected | ticketButtonPressed | gateOpened | vehiclePassed => cases hvalidating

theorem published_grows {o : Outcome} {e : GateEvent} {es : List GateEvent} :
    es.length ≤ (keep o e es).length := by
  unfold keep
  split
  · rw [List.length_append]
    omega
  · exact Nat.le_refl _

/-- The event was published, so a later exception finds it there. -/
theorem changed_audio {e : GateEvent} (hpublish : env.publish h.event = .done) :
    ¬ Unchanged g (env.told e (env.told h.event (env.moved h.target g))) := by
  intro hunchanged
  have hlen := congrArg List.length hunchanged.published
  have hfirst : (env.told h.event (env.moved h.target g)).published =
      g.published ++ [h.event] := by
    rw [Env.told, hpublish]
    rfl
  have hgrows : (env.told h.event (env.moved h.target g)).published.length ≤
      (env.told e (env.told h.event (env.moved h.target g))).published.length := published_grows
  rw [hlen, hfirst, List.length_append, List.length_singleton] at hgrows
  omega

/-- One handler: what it changes before it raises is nothing, and a gate that waits for the API
has told it so, exactly when its calls to Redis go together. -/
theorem handler_iff (env : Env W) (cfg : Config) (h : Handler) (g : Gate W) :
    ((∀ e, ((h.code cfg).run env.exec g).1 = .error e →
        Unchanged g ((h.code cfg).run env.exec g).2) ∧
      (Answerable g → Answerable ((h.code cfg).run env.exec g).2)) ↔ Together env cfg h g := by
  obtain ⟨n, hrun⟩ := run_code env cfg h g
  by_cases hset : env.hset = .done
  · rw [if_pos hset] at hrun
    by_cases hpublish : env.publish h.event = .done
    · rw [if_pos hpublish] at hrun
      by_cases hall : ∀ e, h.audio cfg = some e → env.publish e = .done
      · obtain ⟨g', hrest, hstate, hsince⟩ :=
          run_rest n hall (env.told h.event (env.moved h.target g))
        rw [hrest] at hrun
        rw [hrun]
        have hevent : h.event ∈ (env.told h.event (env.moved h.target g)).since := by
          rw [Env.told, hpublish]
          exact List.mem_append_right _ (List.mem_singleton.mpr rfl)
        refine iff_of_true ⟨?_, ?_⟩ ⟨fun h => (h hset).elim, fun _ h => (h hpublish).elim,
          fun _ _ => hall⟩
        · rintro e ⟨⟩
        · intro _
          exact answerable_target hstate (hsince.subset hevent)
      · obtain ⟨e, he⟩ := not_forall.mp hall
        obtain ⟨haudio, hfails⟩ := Classical.not_imp.mp he
        rw [run_rest_fails n haudio hfails] at hrun
        rw [hrun]
        refine iff_of_false ?_ ?_
        · rintro ⟨hback, -⟩
          exact changed_audio hpublish (hback _ rfl)
        · intro ht
          exact hfails (ht.audio hset hpublish e haudio)
    · rw [if_neg hpublish] at hrun
      rw [hrun]
      constructor
      · rintro ⟨hback, -⟩
        exact ⟨fun h => (h hset).elim, fun _ _ => (unchanged_told hset).mp (hback _ rfl),
          fun _ h => (hpublish h).elim⟩
      · intro ht
        have hunchanged := (unchanged_told hset).mpr (ht.publish hset hpublish)
        obtain ⟨⟨hstate, -⟩, -, hrefused⟩ := ht.publish hset hpublish
        have hsince : (env.told h.event (env.moved h.target g)).since = g.since := by
          rw [Env.told, hrefused]
          exact since_moved env hstate
        exact ⟨fun _ _ => hunchanged, fun hg => hg.congr hunchanged.state hsince⟩
  · rw [if_neg hset] at hrun
    rw [hrun]
    constructor
    · rintro ⟨hback, -⟩
      exact ⟨fun _ => (unchanged_moved hset).mp (hback _ rfl), fun h => (hset h).elim,
        fun h => (hset h).elim⟩
    · intro ht
      have hunchanged := (unchanged_moved hset).mpr (ht.hset hset)
      exact ⟨fun _ _ => hunchanged, fun hg => hg.congr hunchanged.state
        (since_moved env (ht.hset hset).1)⟩

/-- The handlers of a run, each with what its calls come to. -/
def play (cfg : Config) (g : Gate W) (steps : List (Handler × Env W)) : Gate W :=
  steps.foldl (fun g step => ((step.1.code cfg).run step.2.exec g).2) g

/-- In a run whose handlers all go together, a gate that waits for the API has told it so. -/
theorem answerable_play (steps : List (Handler × Env W)) (hg : Answerable g)
    (hall : ∀ before step after, steps = before ++ step :: after →
      Together step.2 cfg step.1 (play cfg g before)) : Answerable (play cfg g steps) := by
  induction steps using List.reverseRecOn with
  | nil => exact hg
  | append_singleton steps step ih =>
    have hrest := ih fun before step' after hsplit =>
      hall before step' (after ++ [step]) (by rw [hsplit, List.append_assoc]; rfl)
    have hstep := (handler_iff step.2 cfg step.1 (play cfg g steps)).mpr (hall steps step [] rfl)
    rw [play, List.foldl_append]
    exact hstep.2 hrest

/-- A state and its event go together exactly when the calls to Redis do, and over runs as well. -/
theorem state_with_event (cfg : Config) :
    (∀ (env : Env W) (h : Handler) (g : Gate W),
      ((∀ e, ((h.code cfg).run env.exec g).1 = .error e →
          Unchanged g ((h.code cfg).run env.exec g).2) ∧
        (Answerable g → Answerable ((h.code cfg).run env.exec g).2)) ↔ Together env cfg h g) ∧
    ∀ (g : Gate W) (steps : List (Handler × Env W)), Answerable g →
      (∀ before step after, steps = before ++ step :: after →
        Together step.2 cfg step.1 (play cfg g before)) →
      Answerable (play cfg g steps) :=
  ⟨fun env h g => handler_iff env cfg h g, fun _ steps hg hall => answerable_play steps hg hall⟩

/-- An outside that has nothing to say. -/
def silent : (o : LaneOp) → Unit → o.Ans × Unit
  | .state, _ => (.idle, ())
  | .setState _, _ | .spawn _, _ | .reconnectDelay, _ => ((0 : Nat), ())
  | .in1On, _ | .connected, _ | .write _, _ | .hset, _ | .publish _ _ _, _ | .xack _, _ |
    .commit, _ | .publishCommand _ _, _ => (false, ())
  | .breaker, _ => ({}, ())
  | .validatingTask, _ | .recv, _ | .readline, _ | .xadd _, _ | .gateByCode, _ |
    .memberByCard _, _ | .unclosed _, _ | .createEntry _, _ => (none, ())
  | .buffer, _ => ([], ())
  | .loopTime, _ | .today, _ => ((0 : Int), ())
  | .wallClock, _ => (⟨2026, 4, 12, 9, 30, 0⟩, ())
  | .xreadgroup, _ => (.nothing, ())
  | .uuid, _ => ("", ())
  | .processRfidPayment _ _, _ => (.failed, ())
  | .setIn1 _, _ | .setBreaker _, _ | .setValidatingTask _, _ | .cancel _, _ | .setBuffer _, _ |
    .setReconnectDelay _, _ | .taken _, _ | .connect, _ | .disconnect, _ | .close, _ |
    .sleep _, _ => ((), ())

/-- Redis keeps the state, and then does not take the event. -/
def lostOnChannel : Env Unit where
  hset := .done
  xadd _ := .refused
  publish _ := .refused
  answer := silent

/-- The button was pressed and the gate waits for an answer to an event that nobody got. -/
theorem waits_unannounced :
    let run := (Handler.ticketButtonPressed.code {}).run lostOnChannel.exec
      { world := (), state := .waitingInput, persisted := some .waitingInput }
    run.1 = .error .redis ∧ run.2.state = .processing ∧ run.2.persisted = some .processing ∧
      run.2.published = [] := by decide

end Together
end ParkIt.GateIn.Announced
