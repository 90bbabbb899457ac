import Mathlib.Data.Prod.Lex
import ParkIt.Lib.ConsumerGroup
import ParkIt.Lib.Path
import ParkIt.Lib.Tasks

/-! The command loop of a daemon over the consumer group of its gate. -/
namespace ParkIt.Redelivery

open Effects ConsumerGroup Transition

/-- Milliseconds and sequence number. -/
abbrev MessageId := ℕ ×ₗ ℕ

abbrev Fields := List (String × String)

abbrev CommandStream := Stream MessageId Fields String

inductive GroupAnswer where
  | created
  | alreadyExists
  | failed
deriving DecidableEq

inductive DaemonOp where
  | ping
  | recoverState
  | xgroupCreate
  | xreadgroup (consumerName : String) (start : ReadFrom MessageId) (count : ℕ)
  | handleCommand (commandData : Fields)
  | xack (msgId : MessageId)
  | sleep (seconds : ℕ)

/-- `none` is an exception. -/
abbrev DaemonOp.Ans : DaemonOp → Type
  | .ping | .xack _ => Bool
  | .recoverState | .sleep _ => Unit
  | .xgroupCreate => GroupAnswer
  | .xreadgroup _ _ _ => Option (List (MessageId × Fields))
  | .handleCommand _ => Option Bool

abbrev Daemon (α : Type) := Prog DaemonOp DaemonOp.Ans Unit α

section Code

def ensureConsumerGroup : Daemon Unit := do
  let answer ← Prog.perform DaemonOp.xgroupCreate
  if answer = .failed then Prog.raise () else pure ()

/-- One turn of the loop that waits for Redis, and the delay of its next turn. -/
def waitForRedisThenInit (delay : ℕ) : Daemon (Option ℕ) :=
  Prog.handle
    (do
      let ok ← Prog.perform DaemonOp.ping
      if ok then
        Prog.perform DaemonOp.recoverState
        ensureConsumerGroup
        pure none
      else Prog.raise ())
    fun _ => do
      Prog.perform (DaemonOp.sleep delay)
      pure (some (min (delay * 2) 30))

/-- An exception, of the handler or of the acknowledgement, is logged. -/
def processCommand (msgId : MessageId) (fields : Fields) : Daemon Unit := do
  let ack ← Prog.perform (DaemonOp.handleCommand fields)
  if ack = some true then
    let _ ← Prog.perform (DaemonOp.xack msgId)
    pure ()
  else pure ()

def processEntries : List (MessageId × Fields) → Daemon Unit
  | [] => pure ()
  | (msgId, fields) :: entries => do
    processCommand msgId fields
    processEntries entries

/-- One turn of the loop. -/
def consumeCommands (consumerName : String) : Daemon Unit := do
  let messages ← Prog.perform (DaemonOp.xreadgroup consumerName .new 1)
  match messages with
  | some entries => processEntries entries
  | none => Prog.perform (DaemonOp.sleep 1)

inductive Turn where
  | init (delay : ℕ)
  | consume
deriving DecidableEq

/-- A turn of one of the two loops, and which one is next. -/
def Turn.code (consumerName : String) : Turn → Daemon Turn
  | .init delay => do
    let again ← waitForRedisThenInit delay
    pure (again.elim .consume .init)
  | .consume => do
    consumeCommands consumerName
    pure .consume

end Code

section Worlds

structure Redis where
  stream : CommandStream := .empty
  created : Bool := false

/-- A process of the daemon: what it has left to do in its turn, and what it has done in it. -/
structure Process where
  consumerName : String
  rest : Daemon Turn
  past : List (Tasks.Event DaemonOp DaemonOp.Ans) := []

structure World where
  redis : Redis := {}
  process : Option Process := none

/-- A request takes effect and is answered, or its answer is lost, or it has no effect. -/
inductive Outcome where
  | answered
  | lost
  | refused
deriving DecidableEq

/-- What the outside does to an operation, and what `handle_command` returns. -/
structure Oracle where
  outcome : Outcome := .answered
  result : Option Bool := some true

def perform (r : Redis) (x : Oracle) : (o : DaemonOp) → o.Ans × Redis
  | .ping => (x.outcome = .answered, r)
  | .recoverState | .sleep _ => ((), r)
  | .xgroupCreate =>
    (if x.outcome ≠ .answered then .failed else if r.created then .alreadyExists else .created,
      if x.outcome = .refused then r else { r with created := true })
  | .xreadgroup consumerName start count =>
    if r.created ∧ x.outcome ≠ .refused then
      let given := r.stream.read consumerName start count
      (if x.outcome = .answered then some given.1 else none, { r with stream := given.2 })
    else (none, r)
  | .handleCommand _ => (x.result, r)
  | .xack msgId =>
    (x.outcome = .answered,
      if x.outcome = .refused then r else { r with stream := r.stream.ack msgId })

/-- What the group does with its entries when an operation is performed. -/
def noticed (r : Redis) (x : Oracle) : DaemonOp → List (Event MessageId)
  | .xreadgroup consumerName start count =>
    if r.created ∧ x.outcome ≠ .refused then
      ((r.stream.read consumerName start count).1.map Prod.fst).map .delivered
    else []
  | .xack msgId => if x.outcome = .refused then [] else [.acked msgId]
  | _ => []

inductive Label where
  | publish (id : MessageId) (fields : Fields)
  | boot (consumerName : String)
  | crash
  | go (x : Oracle)
  | turn

/-- A command is added; the daemon is started, stops or crashes, or goes on. -/
inductive Step : World → Label → World → Prop
  | publish {w : World} {id : MessageId} (fields : Fields)
      (h : ∀ e ∈ w.redis.stream.entries, e.1 < id) :
      Step w (.publish id fields)
        { w with redis := { w.redis with stream := w.redis.stream.add id fields h } }
  | boot {w : World} (consumerName : String) : w.process = none →
      Step w (.boot consumerName)
        { w with process := some ⟨consumerName, (Turn.init 1).code consumerName, []⟩ }
  | crash {w : World} {p : Process} : w.process = some p → Step w .crash { w with process := none }
  | go {w : World} {name : String} {o : DaemonOp} {k : o.Ans → Daemon Turn}
      {past : List (Tasks.Event DaemonOp DaemonOp.Ans)} (x : Oracle) :
      w.process = some ⟨name, .call o k, past⟩ →
      Step w (.go x)
        ⟨(perform w.redis x o).2,
          some ⟨name, k (perform w.redis x o).1, past ++ [⟨o, (perform w.redis x o).1⟩]⟩⟩
  | turn {w : World} {name : String} {t : Turn}
      {past : List (Tasks.Event DaemonOp DaemonOp.Ans)} :
      w.process = some ⟨name, .pure t, past⟩ →
      Step w .turn { w with process := some ⟨name, t.code name, []⟩ }

/-- The operation that the daemon has issued. -/
def World.asks (w : World) : Option DaemonOp :=
  match w.process with
  | some ⟨_, .call o _, _⟩ => some o
  | _ => none

def events (w : World) : Label → List (Event MessageId)
  | .go x => w.asks.elim [] (noticed w.redis x)
  | _ => []

def history : World → List (Label × World) → List (Event MessageId)
  | _, [] => []
  | w, (l, t) :: xs => events w l ++ history t xs

/-- The daemon waits for the next command, and there is none. -/
def World.Quiescent (w : World) : Prop :=
  (∃ name, w.process = some ⟨name, Turn.consume.code name, []⟩) ∧ w.redis.stream.undelivered = []

/-- What is given out is received, the handler returns `True`, and the acknowledgement lands. -/
def handlesOnce (r : Redis) (x : Oracle) : DaemonOp → Prop
  | .xreadgroup consumerName start count =>
    x.outcome = .lost → noticed r x (.xreadgroup consumerName start count) = []
  | .handleCommand _ => x.result = some true
  | .xack _ => x.outcome ≠ .refused
  | _ => True

/-- The step leaves no command behind: a daemon that goes down has acknowledged what it was given. -/
def Kept (w : World) : Label → Prop
  | .crash => w.redis.stream.pendingIds = []
  | .go x => ∀ o ∈ w.asks, handlesOnce w.redis x o
  | _ => True

end Worlds

section Hand

/-- The entries that have been read and not dealt with: the code acknowledges no other ones. -/
def commandProtocol : Protocol DaemonOp DaemonOp.Ans (List (MessageId × Fields)) where
  allow hand
    | .xreadgroup _ start _ => hand = [] ∧ start = .new
    | .handleCommand fields => ∃ msgId entries, hand = (msgId, fields) :: entries
    | .xack msgId => ∃ fields entries, hand = (msgId, fields) :: entries
    | _ => True
  expect _ _ _ := True
  next hand
    | .xreadgroup _ _ _, some entries => entries
    | .handleCommand _, result => if result = some true then hand else hand.tail
    | .xack _, _ => hand.tail
    | _, _ => hand

variable {msgId : MessageId} {fields : Fields} {entries : List (MessageId × Fields)}

theorem follows_processCommand :
    Follows commandProtocol ((msgId, fields) :: entries) (processCommand msgId fields)
      (fun hand _ => hand = entries) fun _ _ => False := by
  refine ⟨⟨msgId, entries, rfl⟩, fun ack _ => ?_⟩
  cases ack with
  | none => rfl
  | some ack =>
    cases ack with
    | false => rfl
    | true => exact ⟨⟨fields, entries, rfl⟩, fun _ _ => rfl⟩

theorem follows_processEntries (entries : List (MessageId × Fields)) :
    Follows commandProtocol entries (processEntries entries) (fun hand _ => hand = [])
      fun _ _ => False := by
  induction entries with
  | nil => rfl
  | cons e entries ih =>
    exact follows_processCommand.bind (fun _ _ h => h) fun hand _ h => h ▸ ih

theorem follows_consumeCommands (name : String) :
    Follows commandProtocol [] (consumeCommands name) (fun hand _ => hand = [])
      fun _ _ => False := by
  refine ⟨⟨rfl, rfl⟩, fun messages _ => ?_⟩
  cases messages with
  | none => exact ⟨trivial, fun _ _ => rfl⟩
  | some entries => exact follows_processEntries entries

theorem follows_waitForRedisThenInit (delay : ℕ) :
    Follows commandProtocol [] (waitForRedisThenInit delay) (fun hand _ => hand = [])
      fun _ _ => False := by
  refine follows_handle.mpr ⟨trivial, fun ok _ => ?_⟩
  cases ok with
  | false => exact ⟨trivial, fun _ _ => rfl⟩
  | true =>
    refine ⟨trivial, fun _ _ => ⟨trivial, fun answer _ => ?_⟩⟩
    cases answer with
    | failed => exact ⟨trivial, fun _ _ => rfl⟩
    | created | alreadyExists => rfl

theorem follows_code (name : String) (t : Turn) :
    Follows commandProtocol [] (t.code name) (fun hand _ => hand = []) fun _ _ => False := by
  cases t with
  | init delay =>
    exact (follows_waitForRedisThenInit delay).bind (fun _ _ h => h) fun hand _ h => h
  | consume => exact (follows_consumeCommands name).bind (fun _ _ h => h) fun hand _ h => h

end Hand

section Operations
variable {r : Redis} {x : Oracle} {o : DaemonOp} {hand : List (MessageId × Fields)}
  {future : List (Event MessageId)}

/-- What is in hand is pending, and in hand once. -/
structure Held (r : Redis) (hand : List (MessageId × Fields)) : Prop where
  nodup : (hand.map Prod.fst).Nodup
  pending : ∀ id ∈ hand.map Prod.fst, id ∈ r.stream.pendingIds

/-- All that is pending is in hand. -/
def Tracked (r : Redis) (hand : List (MessageId × Fields)) : Prop :=
  ∀ id ∈ r.stream.pendingIds, id ∈ hand.map Prod.fst

/-- Whatever is pending now or delivered later is acknowledged or delivered again. -/
def Covered (r : Redis) (future : List (Event MessageId)) : Prop :=
  (∀ id ∈ r.stream.pendingIds, Resolved id future) ∧ Redelivered future

theorem held_nil (r : Redis) : Held r [] := ⟨.nil, by simp⟩

theorem tracked_nil : Tracked r [] ↔ r.stream.pendingIds = [] := by
  simp [Tracked, List.eq_nil_iff_forall_not_mem]

theorem Held.tail {e : MessageId × Fields} (h : Held r (e :: hand)) :
    Held r hand ∧ e.1 ∈ r.stream.pendingIds ∧ e.1 ∉ hand.map Prod.fst := by
  obtain ⟨hnot, hnodup⟩ := List.nodup_cons.mp h.nodup
  exact ⟨⟨hnodup, fun id hid => h.pending id (List.mem_cons_of_mem _ hid)⟩,
    h.pending e.1 List.mem_cons_self, hnot⟩

theorem perform_held (hallow : commandProtocol.allow hand o) (h : Held r hand) :
    Held (perform r x o).2 (commandProtocol.next hand o (perform r x o).1) := by
  cases o with
  | xreadgroup name start count =>
    obtain ⟨rfl, rfl⟩ := hallow
    dsimp only [perform]
    split
    · split
      · refine ⟨Stream.read_nodup name, fun id hid => ?_⟩
        rw [Stream.pendingIds_read]
        exact List.mem_append_right _ hid
      · exact held_nil _
    · exact held_nil r
  | handleCommand fields =>
    obtain ⟨msgId, entries, rfl⟩ := hallow
    change Held r (if x.result = some true then _ else entries)
    split
    · exact h
    · exact h.tail.1
  | xack msgId =>
    obtain ⟨fields, entries, rfl⟩ := hallow
    obtain ⟨hentries, -, hnot⟩ := h.tail
    dsimp only [perform]
    split
    · exact hentries
    · refine ⟨hentries.nodup, fun id hid => Stream.mem_pendingIds_ack.mpr ?_⟩
      exact ⟨hentries.pending id hid, fun heq => hnot (heq ▸ hid)⟩
  | xgroupCreate =>
    dsimp only [perform]
    split <;> exact ⟨h.nodup, h.pending⟩
  | _ => exact h

/-- What has just been read was not pending before. -/
theorem tracked_read {stream : CommandStream} {created : Bool} {name : String} {count : ℕ} :
    Tracked ⟨(stream.read name .new count).2, created⟩ (stream.read name .new count).1 ↔
      stream.pendingIds = [] := by
  rw [Tracked, Stream.pendingIds_read, List.eq_nil_iff_forall_not_mem]
  constructor
  · intro htracked id hid
    exact Stream.read_not_pending name hid (htracked id (List.mem_append_left _ hid))
  · intro hnone id hid
    exact (List.mem_append.mp hid).resolve_left (hnone id)

/-- Nothing gets out of hand while it is pending if and only if it is handled once. -/
theorem perform_tracked (hallow : commandProtocol.allow hand o) (h : Held r hand) :
    Tracked (perform r x o).2 (commandProtocol.next hand o (perform r x o).1) ↔
      Tracked r hand ∧ handlesOnce r x o := by
  cases o with
  | xreadgroup name start count =>
    obtain ⟨rfl, rfl⟩ := hallow
    obtain ⟨stream, created⟩ := r
    obtain ⟨outcome, result⟩ := x
    cases created with
    | false => exact (and_iff_left fun _ => rfl).symm
    | true =>
      cases outcome with
      | answered =>
        change Tracked ⟨(stream.read name .new count).2, true⟩ (stream.read name .new count).1 ↔ _
        rw [tracked_read, tracked_nil]
        exact (and_iff_left fun hlost => by cases hlost).symm
      | lost =>
        change Tracked ⟨(stream.read name .new count).2, true⟩ [] ↔
          _ ∧ (_ → ((stream.read name .new count).1.map Prod.fst).map Event.delivered = [])
        rw [tracked_nil, tracked_nil, Stream.pendingIds_read, List.append_eq_nil_iff,
          List.map_eq_nil_iff]
        exact and_congr_right fun _ =>
          ⟨fun hnone _ => by rw [hnone]; rfl, fun hnone => by simpa using hnone rfl⟩
      | refused => exact (and_iff_left fun hlost => by cases hlost).symm
  | handleCommand fields =>
    obtain ⟨msgId, entries, rfl⟩ := hallow
    obtain ⟨-, hpending, hnot⟩ := h.tail
    change Tracked r (if x.result = some true then _ else entries) ↔ _ ∧ x.result = some true
    split
    · simp [*]
    · rename_i hresult
      exact ⟨fun htracked => absurd (htracked msgId hpending) hnot, fun h => absurd h.2 hresult⟩
  | xack msgId =>
    obtain ⟨fields, entries, rfl⟩ := hallow
    obtain ⟨-, hpending, hnot⟩ := h.tail
    dsimp only [perform]
    change Tracked _ entries ↔ _ ∧ x.outcome ≠ .refused
    split
    · rename_i hrefused
      exact ⟨fun htracked => absurd (htracked msgId hpending) hnot, fun h => absurd hrefused h.2⟩
    · rename_i hlands
      simp [Tracked, hlands, or_iff_not_imp_left]
  | xgroupCreate =>
    dsimp only [perform, handlesOnce]
    split <;> exact (and_iff_left trivial).symm
  | _ => exact (and_iff_left trivial).symm

theorem perform_covered (hallow : commandProtocol.allow hand o) :
    Covered r (noticed r x o ++ future) ↔ Covered (perform r x o).2 future := by
  cases o with
  | xreadgroup name start count =>
    obtain ⟨rfl, rfl⟩ := hallow
    dsimp only [perform, noticed]
    split
    · rw [Covered, Covered, redelivered_deliveries (Stream.read_nodup name)]
      change _ ↔ (∀ id ∈ (r.stream.read name .new count).2.pendingIds, _) ∧ _
      rw [Stream.pendingIds_read, List.forall_mem_append, and_assoc]
      refine and_congr_left fun _ => forall_congr' fun id => imp_congr_right fun hid => ?_
      exact resolved_deliveries (Stream.read_not_pending name hid)
    · rfl
  | xack msgId =>
    dsimp only [perform, noticed]
    split
    · rfl
    · refine and_congr_left fun _ => forall_congr' fun id => ?_
      rw [Stream.mem_pendingIds_ack, and_imp]
      refine imp_congr_right fun _ => ?_
      rcases eq_or_ne id msgId with rfl | hne
      · simp [Resolved]
      · simp [Resolved, hne]
  | xgroupCreate =>
    dsimp only [perform]
    split <;> rfl
  | _ => rfl

end Operations

section Runs
variable {w t : World} {l : Label} {xs : List (Label × World)} {future : List (Event MessageId)}

/-- What the process has in hand. -/
def Process.hand (p : Process) : List (MessageId × Fields) :=
  p.past.foldl (fun hand e => commandProtocol.next hand e.op e.ans) []

def World.hand (w : World) : List (MessageId × Fields) := w.process.elim [] Process.hand

/-- The process keeps to the protocol. -/
structure Sound (w : World) : Prop where
  follows : ∀ p, w.process = some p →
    Follows commandProtocol p.hand p.rest (fun hand _ => hand = []) fun _ _ => False
  held : Held w.redis w.hand

theorem hand_append {name : String} {past : List (Tasks.Event DaemonOp DaemonOp.Ans)}
    {e : Tasks.Event DaemonOp DaemonOp.Ans} {rest rest' : Daemon Turn} :
    (⟨name, rest', past ++ [e]⟩ : Process).hand =
      commandProtocol.next (⟨name, rest, past⟩ : Process).hand e.op e.ans := by
  simp [Process.hand]

theorem hand_eq {p : Process} (h : w.process = some p) : w.hand = p.hand := by
  rw [World.hand, h]
  rfl

theorem asks_eq {name : String} {o : DaemonOp} {k : o.Ans → Daemon Turn}
    {past : List (Tasks.Event DaemonOp DaemonOp.Ans)}
    (h : w.process = some ⟨name, .call o k, past⟩) : w.asks = some o := by
  rw [World.asks, h]

/-- At the end of a turn nothing is in hand. -/
theorem Sound.turned {name : String} {turn : Turn}
    {past : List (Tasks.Event DaemonOp DaemonOp.Ans)} (hw : Sound w)
    (h : w.process = some ⟨name, .pure turn, past⟩) : w.hand = [] :=
  (hand_eq h).trans (hw.follows _ h)

theorem sound_init : Sound {} := ⟨fun _ h => (by cases h), held_nil _⟩

theorem sound_step (h : Step w l t) (hw : Sound w) : Sound t := by
  cases h with
  | publish fields hnew => exact ⟨hw.follows, hw.held.nodup, hw.held.pending⟩
  | boot name hnone =>
    refine ⟨fun p hp => ?_, held_nil _⟩
    cases hp
    exact follows_code name (.init 1)
  | crash hp => exact ⟨fun _ h => (by cases h), held_nil _⟩
  | go x hp =>
    have hrest := hw.follows _ hp
    have hheld := hw.held
    rw [hand_eq hp] at hheld
    refine ⟨fun p h => ?_, ?_⟩
    · cases h
      rw [hand_append]
      exact hrest.2 _ trivial
    · rw [hand_eq rfl, hand_append]
      exact perform_held hrest.1 hheld
  | turn hp =>
    refine ⟨fun p h => ?_, held_nil _⟩
    cases h
    exact follows_code _ _

theorem tracked_step (h : Step w l t) (hw : Sound w) :
    Tracked t.redis t.hand ↔ Tracked w.redis w.hand ∧ Kept w l := by
  cases h with
  | publish fields hnew => exact (and_iff_left trivial).symm
  | boot name hnone =>
    rw [show w.hand = [] by rw [World.hand, hnone]; rfl]
    exact (and_iff_left trivial).symm
  | crash hp =>
    change Tracked w.redis [] ↔ _ ∧ w.redis.stream.pendingIds = []
    rw [tracked_nil]
    refine (and_iff_right_of_imp fun h id hid => ?_).symm
    rw [h] at hid
    cases hid
  | go x hp =>
    have hheld := hw.held
    rw [hand_eq hp] at hheld
    rw [hand_eq rfl, hand_append, perform_tracked (hw.follows _ hp).1 hheld, hand_eq hp]
    simp [Kept, asks_eq hp]
  | turn hp =>
    rw [hw.turned hp]
    exact (and_iff_left trivial).symm

theorem covered_step (h : Step w l t) (hw : Sound w) :
    Covered w.redis (events w l ++ future) ↔ Covered t.redis future := by
  cases h with
  | go x hp =>
    rw [events, asks_eq hp]
    exact perform_covered (hw.follows _ hp).1
  | publish | boot | crash | turn => rfl

theorem covered_iff (h : Path Step w xs) (hw : Sound w) (hend : (finish w xs).Quiescent) :
    Covered w.redis (history w xs) ↔
      Tracked w.redis w.hand ∧ Path (fun w l _ => Kept w l) w xs := by
  induction xs generalizing w with
  | nil =>
    obtain ⟨⟨name, hp⟩, -⟩ := hend
    rw [finish_nil] at hp
    rw [show w.hand = [] from hand_eq hp, tracked_nil]
    simp [Covered, Resolved, Redelivered, history, List.eq_nil_iff_forall_not_mem]
  | cons x xs ih =>
    obtain ⟨l, t⟩ := x
    obtain ⟨hstep, hpath⟩ := h
    rw [history, covered_step hstep hw, ih hpath (sound_step hstep hw) hend,
      tracked_step hstep hw, and_assoc, path_cons]

/-- In a run that comes to rest, every delivered command has been acknowledged or delivered again
if and only if each one was handled and acknowledged at once. -/
theorem redelivered_iff (h : Path Step {} xs) (hend : (finish {} xs).Quiescent) :
    Redelivered (history {} xs) ↔ Path (fun w l _ => Kept w l) {} xs := by
  have hcovered := covered_iff h sound_init hend
  have hnone : ∀ id ∈ (World.redis {}).stream.pendingIds, Resolved id (history {} xs) := by
    intro id hid
    cases hid
  rw [Covered, and_iff_right hnone] at hcovered
  exact hcovered.trans (and_iff_right (tracked_nil.mpr rfl))

end Runs

section Schedules

/-- The step that a label stands for, where it is possible. -/
def take (w : World) : Label → Option World
  | .publish id fields =>
    if h : ∀ e ∈ w.redis.stream.entries, e.1 < id then
      some { w with redis := { w.redis with stream := w.redis.stream.add id fields h } }
    else none
  | .boot name =>
    match w.process with
    | none => some { w with process := some ⟨name, (Turn.init 1).code name, []⟩ }
    | some _ => none
  | .crash => w.process.map fun _ => { w with process := none }
  | .go x =>
    match w.process with
    | some ⟨name, .call o k, past⟩ =>
      let (a, redis) := perform w.redis x o
      some ⟨redis, some ⟨name, k a, past ++ [⟨o, a⟩]⟩⟩
    | _ => none
  | .turn =>
    match w.process with
    | some ⟨name, .pure t, _⟩ => some { w with process := some ⟨name, t.code name, []⟩ }
    | _ => none

theorem take_step {w t : World} {l : Label} (h : take w l = some t) : Step w l t := by
  cases l with
  | publish id fields =>
    rw [take] at h
    split at h
    · cases h
      exact .publish fields _
    · cases h
  | boot name =>
    rw [take] at h
    split at h
    · cases h
      exact .boot name ‹_›
    · cases h
  | crash =>
    obtain ⟨p, hp, rfl⟩ := Option.map_eq_some_iff.mp h
    exact .crash hp
  | go x =>
    rw [take] at h
    split at h
    · cases h
      exact .go x ‹_›
    · cases h
  | turn =>
    rw [take] at h
    split at h
    · cases h
      exact .turn ‹_›
    · cases h

/-- Labels that are not possible are skipped. -/
def play : World → List Label → List (Label × World)
  | _, [] => []
  | w, l :: ls =>
    match take w l with
    | some t => (l, t) :: play t ls
    | none => play w ls

theorem play_path (w : World) (ls : List Label) : Path Step w (play w ls) := by
  induction ls generalizing w with
  | nil => trivial
  | cons l ls ih =>
    rw [play]
    split
    · exact ⟨take_step ‹_›, ih _⟩
    · exact ih w

/-- The daemon starts, reads a command, and its handler answers; then the loop turns. -/
def handled (result : Option Bool) (rest : List Label) : List Label :=
  [.boot "gate-in-1-0a1b2c3d", .go {}, .go {}, .go {}, .turn,
    .publish (toLex (1, 0)) [("command_type", "open_gate")], .go {}, .go { result }] ++ rest

theorem handled_kept :
    Path (fun w l _ => Kept w l) {} (play {} (handled (some true) [.go {}, .turn])) :=
  (redelivered_iff (play_path _ _) ⟨⟨"gate-in-1-0a1b2c3d", rfl⟩, by decide⟩).mp (by decide)

/-- A command that the handler wants to see again is not read again. -/
theorem refused_command_lost :
    ¬ ∀ xs : List (Label × World), Path Step {} xs → (finish {} xs).Quiescent →
      Redelivered (history {} xs) := by
  intro h
  have hlost := h (play {} (handled (some false) [.turn])) (play_path _ _)
    ⟨⟨"gate-in-1-0a1b2c3d", rfl⟩, by decide⟩
  revert hlost
  decide

end Schedules
end ParkIt.Redelivery
