import Mathlib.Data.Prod.Lex
import ParkIt.Lib.Prog

/-! The event log of a gate, and the replay that a client asks for when it is back. -/
namespace ParkIt.Replay
open Effects

/-- Milliseconds and sequence number. -/
abbrev EventId := ℕ ×ₗ ℕ

/-- The field `event` of an entry: missing, not JSON, an object, or another JSON value. -/
inductive Field where
  | absent
  | invalid
  | object (text : String)
  | other
deriving DecidableEq

structure Entry where
  id : EventId
  event : Field
deriving DecidableEq

/-- What goes over the socket; an event carries its id when the daemon knew it. -/
inductive Message where
  | replayed (id : EventId) (text : String)
  | live (id : Option EventId) (text : String)
  | complete (count : ℕ)
deriving DecidableEq

def Message.id : Message → Option EventId
  | .replayed id _ => some id
  | .live id _ => id
  | .complete _ => none

def entry (id : EventId) (text : String) : Entry := ⟨id, .object text⟩

section Log

/-- `XADD` with an approximate `MAXLEN`: the trim may leave more than 1000 entries. -/
inductive Published : List Entry → Prop
  | empty : Published []
  | xadd {log : List Entry} {id : EventId} (text : String) (k : ℕ) : Published log →
      (∀ e ∈ log, e.id < id) → (k = 0 ∨ k + 1000 ≤ log.length + 1) →
      Published ((log ++ [entry id text]).drop k)

theorem Published.sorted {log : List Entry} (h : Published log) :
    log.Pairwise fun a b => a.id < b.id := by
  induction h with
  | empty => exact List.Pairwise.nil
  | xadd text k _ hid _ ih =>
    refine List.Pairwise.drop (List.pairwise_append.mpr ⟨ih, List.pairwise_singleton _ _, ?_⟩)
    intro a ha b hb
    cases List.mem_singleton.mp hb
    exact hid a ha

theorem Published.object {log : List Entry} (h : Published log) :
    ∀ e ∈ log, ∃ text, e = entry e.id text := by
  induction h with
  | empty => simp
  | xadd text k _ _ _ ih =>
    intro e he
    obtain he | he := List.mem_append.mp (List.mem_of_mem_drop he)
    · exact ih e he
    · cases List.mem_singleton.mp he
      exact ⟨text, rfl⟩

/-- The buffered entries after an id; without one, all of them. -/
def backlog (log : List Entry) (since : Option EventId) : List Entry :=
  log.filter fun e => since.all (· < e.id)

end Log

inductive ReplayOp where
  | xrange (since : Option EventId) (count : ℕ)
  | send (m : Message)

abbrev ReplayOp.Ans : ReplayOp → Type
  | .xrange _ _ => Option (List Entry)
  | .send _ => Bool

inductive ReplayExc where
  | redis
  | socket
  | type
deriving DecidableEq, Repr

abbrev Work (α : Type) := Prog ReplayOp ReplayOp.Ans ReplayExc α

def sendText (m : Message) : Work Unit := do
  if ← (Prog.perform (ReplayOp.send m) : Work Bool) then pure () else Prog.raise .socket

def replayEntry (e : Entry) : Work Unit :=
  match e.event with
  | .absent => pure ()
  | .invalid => pure ()
  | .other => Prog.raise .type
  | .object text => sendText (.replayed e.id text)

def replayEntries : List Entry → Work Unit
  | [] => pure ()
  | e :: es => do
    replayEntry e
    replayEntries es

def replayCount : ℕ := 500

/-- The `try` of `_replay_events`; a text that asks for everything is no id. -/
def replay (since : Option EventId) : Work Unit := do
  match ← (Prog.perform (ReplayOp.xrange since replayCount) : Work (Option (List Entry))) with
  | none => Prog.raise .redis
  | some entries => do
    replayEntries entries
    sendText (.complete entries.length)

/-- An exception is logged. -/
def replayEvents (since : Option EventId) : Work Unit := (replay since).handle fun _ => pure ()

/-- What the socket is sent from elsewhere before an operation, and whether that comes back. -/
structure Turn where
  live : List (Option EventId × String) := []
  ok : Bool := true

def Turn.forwarded (t : Turn) : List Message := t.live.map fun e => .live e.1 e.2

/-- A client that is back, and what it has been sent since. -/
structure Site where
  log : List Entry
  turns : List Turn := []
  sent : List Message := []

namespace Site

def forward (s : Site) : Site :=
  { s with
    turns := s.turns.tail
    sent := s.sent ++ (s.turns.headD {}).forwarded }

end Site

def exec (o : ReplayOp) (s : Site) : Except ReplayExc o.Ans × Site :=
  let ok := (s.turns.headD {}).ok
  match o with
  | .xrange since count =>
    (.ok (if ok then some ((backlog s.log since).take count) else none), s.forward)
  | .send m => (.ok ok, if ok then { s.forward with sent := s.forward.sent ++ [m] } else s.forward)

/-- What the client has been sent when the replay is over. -/
def sentBy (log : List Entry) (since : Option EventId) (turns : List Turn) : List Message :=
  ((replayEvents since).run exec { log, turns }).2.sent

section Weave
variable {ι : Type}

/-- The items in order, each after its batch, and the next batch after the last item. -/
def weave : List (List ι) → List ι → List ι
  | ls, [] => ls.headD []
  | ls, b :: bs => ls.headD [] ++ b :: weave ls.tail bs

/-- A list without repetitions is woven from its first items and batches only in one way. -/
theorem weave_take_eq_iff {l : List ι} (hl : l.Nodup) (n : ℕ) (ls : List (List ι)) :
    weave ls (l.take n) = l ↔
      (∀ b ∈ ls.take (min n l.length), b = []) ∧
        (ls.drop (min n l.length)).headD [] = l.drop n := by
  induction n generalizing l ls with
  | zero => simp [weave]
  | succ n ih =>
    cases l with
    | nil => simp [weave]
    | cons b l =>
      rw [List.nodup_cons] at hl
      have hmin : min (n + 1) (b :: l).length = min n l.length + 1 := by simp
      rw [hmin, List.take_succ_cons, weave, List.drop_succ_cons]
      constructor
      · intro h
        have hhead : ls.headD [] = [] := by
          rcases hb : ls.headD [] with _ | ⟨a, as⟩
          · rfl
          · rw [hb, List.cons_append, List.cons.injEq] at h
            obtain ⟨rfl, h⟩ := h
            exact absurd (h ▸ List.mem_append_right _ List.mem_cons_self) hl.1
        rw [hhead, List.nil_append, List.cons.injEq] at h
        have hrest := (ih hl.2 ls.tail).mp h.2
        cases ls with
        | nil => simpa using hrest
        | cons a ls =>
          obtain rfl : a = [] := hhead
          simpa using hrest
      · rintro ⟨hempty, hlast⟩
        have hrest : weave ls.tail (l.take n) = l := by
          refine (ih hl.2 ls.tail).mpr ⟨fun a ha => ?_, ?_⟩
          · cases ls with
            | nil => simp at ha
            | cons c ls => exact hempty a (List.mem_cons_of_mem _ ha)
          · cases ls with
            | nil => simpa using hlast
            | cons c ls => simpa using hlast
        have hhead : ls.headD [] = [] := by
          cases ls with
          | nil => rfl
          | cons c ls => exact hempty c List.mem_cons_self
        rw [hhead, hrest, List.nil_append]

end Weave

section Run
variable {log : List Entry} {since : Option EventId} {turns : List Turn} {s : Site}

def Message.isComplete : Message → Bool
  | .complete _ => true
  | _ => false

/-- What the replay makes of an entry. -/
def Entry.replay (e : Entry) : Option Message :=
  match e.event with
  | .object text => some (.replayed e.id text)
  | _ => none

/-- Messages that are sent one by one, each after what is forwarded live before it. -/
def sends : List Turn → List Message → List Message
  | _, [] => []
  | ts, m :: ms => (ts.headD {}).forwarded ++ m :: sends ts.tail ms

def Site.after (s : Site) (ms : List Message) : Site :=
  { s with turns := s.turns.drop ms.length, sent := s.sent ++ sends s.turns ms }

theorem sends_append (ts : List Turn) (l l' : List Message) :
    sends ts (l ++ l') = sends ts l ++ sends (ts.drop l.length) l' := by
  induction l generalizing ts with
  | nil => rfl
  | cons m l ih => simp [sends, ih]

theorem Site.after_nil (s : Site) : s.after [] = s := by simp [Site.after, sends]

theorem Site.after_after (s : Site) (l l' : List Message) :
    (s.after l).after l' = s.after (l ++ l') := by
  simp [Site.after, sends_append]

/-- The replay has not been announced as complete. -/
def Site.Open (s : Site) : Prop := ∀ m ∈ s.sent, m.isComplete = false

theorem open_forward (h : s.Open) : s.forward.Open := by
  intro m hm
  obtain hm | hm := List.mem_append.mp hm
  · exact h m hm
  · obtain ⟨e, -, rfl⟩ := List.mem_map.mp hm
    rfl

/-- A message is sent, or the socket is gone. -/
theorem run_sendText (m : Message) (s : Site) :
    (sendText m).run exec s = (.ok (), s.after [m]) ∨
      (sendText m).run exec s = (.error .socket, s.forward) := by
  have hsend : (Prog.perform (ReplayOp.send m) : Work Bool).run exec s = exec (.send m) s :=
    Prog.run_perform exec s _
  rcases hok : (s.turns.headD {}).ok with _ | _
  · have hfail : (Prog.perform (ReplayOp.send m) : Work Bool).run exec s =
        (.ok false, s.forward) := by rw [hsend, exec, hok]; rfl
    exact Or.inr (by rw [sendText, Prog.run_bind_ok _ _ hfail]; rfl)
  · have hback : (Prog.perform (ReplayOp.send m) : Work Bool).run exec s =
        (.ok true, s.after [m]) := by
      rw [hsend, exec, hok]
      simp [Site.after, Site.forward, sends]
    exact Or.inl (by rw [sendText, Prog.run_bind_ok _ _ hback]; rfl)

theorem open_after_replay (h : s.Open) (e : Entry) : (s.after e.replay.toList).Open := by
  intro m hm
  obtain hm | hm := List.mem_append.mp hm
  · exact h m hm
  · rcases e with ⟨id, _ | _ | text | _⟩
    · cases hm
    · cases hm
    · obtain hm | hm := List.mem_append.mp hm
      · obtain ⟨e, -, rfl⟩ := List.mem_map.mp hm
        rfl
      · cases List.mem_singleton.mp hm
        rfl
    · cases hm

theorem run_replayEntry (h : s.Open) (e : Entry) :
    (replayEntry e).run exec s = (.ok (), s.after e.replay.toList) ∨
      ∃ exc s', (replayEntry e).run exec s = (.error exc, s') ∧ s'.Open := by
  unfold replayEntry Entry.replay
  rcases e.event with _ | _ | text | _
  · exact Or.inl (congrArg _ s.after_nil.symm)
  · exact Or.inl (congrArg _ s.after_nil.symm)
  · obtain hrun | hrun := run_sendText (.replayed e.id text) s
    · exact Or.inl hrun
    · exact Or.inr ⟨_, _, hrun, open_forward h⟩
  · exact Or.inr ⟨_, _, rfl, h⟩

theorem run_replayEntries (h : s.Open) (es : List Entry) :
    ((replayEntries es).run exec s = (.ok (), s.after (es.filterMap Entry.replay)) ∧
        (s.after (es.filterMap Entry.replay)).Open) ∨
      ∃ exc s', (replayEntries es).run exec s = (.error exc, s') ∧ s'.Open := by
  induction es generalizing s with
  | nil => exact Or.inl (by rw [List.filterMap_nil, s.after_nil]; exact ⟨rfl, h⟩)
  | cons e es ih =>
    rw [replayEntries]
    obtain he | ⟨exc, s', he, hopen⟩ := run_replayEntry h e
    · rw [Prog.run_bind_ok _ _ he]
      have hstep : (s.after e.replay.toList).after (es.filterMap Entry.replay) =
          s.after ((e :: es).filterMap Entry.replay) := by
        rw [Site.after_after, List.filterMap_cons]
        rcases e.replay with _ | m <;> rfl
      rw [← hstep]
      exact ih (open_after_replay h e)
    · exact Or.inr ⟨exc, s', Prog.run_bind_error _ _ he, hopen⟩

theorem run_xrange (since : Option EventId) (s : Site) :
    (Prog.perform (ReplayOp.xrange since replayCount) : Work (Option (List Entry))).run exec s =
        (.ok (some ((backlog s.log since).take replayCount)), s.forward) ∨
      (Prog.perform (ReplayOp.xrange since replayCount) : Work (Option (List Entry))).run exec s =
        (.ok none, s.forward) := by
  rw [Prog.run_perform]
  rcases hok : (s.turns.headD {}).ok with _ | _
  · exact Or.inr (by rw [exec, hok]; rfl)
  · exact Or.inl (by rw [exec, hok]; rfl)

/-- The messages of the replay itself. -/
def replayed (log : List Entry) (since : Option EventId) : List Message :=
  ((backlog log since).take replayCount).filterMap Entry.replay

/-- The replay ends with its last message, or without it. -/
theorem run_replay (h : s.Open) (since : Option EventId) :
    (∃ n, (replay since).run exec s =
        (.ok (), s.forward.after (replayed s.log since ++ [.complete n]))) ∨
      ∃ exc s', (replay since).run exec s = (.error exc, s') ∧ s'.Open := by
  rw [replay]
  obtain hx | hx := run_xrange since s
  · rw [Prog.run_bind_ok _ _ hx]
    dsimp only
    obtain ⟨hes, hopen⟩ | ⟨exc, s', hes, hopen⟩ :=
      run_replayEntries (open_forward h) ((backlog s.log since).take replayCount)
    · rw [Prog.run_bind_ok _ _ hes]
      obtain hrun | hrun := run_sendText (.complete ((backlog s.log since).take replayCount).length)
        (s.forward.after (replayed s.log since))
      · exact Or.inl ⟨_, hrun.trans (congrArg _ (Site.after_after _ _ _))⟩
      · exact Or.inr ⟨_, _, hrun, open_forward hopen⟩
    · exact Or.inr ⟨_, _, Prog.run_bind_error _ _ hes, hopen⟩
  · rw [Prog.run_bind_ok _ _ hx]
    exact Or.inr ⟨_, _, rfl, open_forward h⟩

def Completes (log : List Entry) (since : Option EventId) (turns : List Turn) : Prop :=
  ∃ m ∈ sentBy log since turns, m.isComplete = true

/-- What a replay that completes sends, message by message. -/
theorem sentBy_of_completes (h : Completes log since turns) :
    ∃ n, sentBy log since turns = (turns.headD {}).forwarded ++
      sends turns.tail (replayed log since ++ [.complete n]) := by
  unfold Completes sentBy replayEvents at h
  unfold sentBy replayEvents
  rw [Prog.run_handle _ _ _ fun o s e s' h => by cases o <;> cases h] at h ⊢
  have hstart : (Site.mk log turns []).Open := by simp [Site.Open]
  obtain ⟨n, hrun⟩ | ⟨exc, s', hrun, hopen⟩ := run_replay hstart since
  · rw [hrun]
    exact ⟨n, by simp [Site.after, Site.forward]⟩
  · rw [hrun] at h
    obtain ⟨m, hm, hcomplete⟩ := h
    exact absurd ((hopen m hm).symm.trans hcomplete) Bool.false_ne_true

/-- The buffered event that a message carries. -/
def carried (ids : List EventId) (m : Message) : Option EventId := m.id.filter (· ∈ ids)

/-- The ids of the backlog. -/
def wanted (log : List Entry) (since : Option EventId) : List EventId :=
  (backlog log since).map (·.id)

/-- The buffered events that the client has received, one for each message that carries one. -/
def got (log : List Entry) (since : Option EventId) (turns : List Turn) : List EventId :=
  (sentBy log since turns).filterMap (carried (wanted log since))

/-- The buffered events that are forwarded live before an operation. -/
def batch (ids : List EventId) (t : Turn) : List EventId := t.forwarded.filterMap (carried ids)

/-- The buffered events that are forwarded live before each message of the replay; what comes
before the log is read counts with the first one. -/
def batches (ids : List EventId) (turns : List Turn) : List (List EventId) :=
  (batch ids (turns.headD {}) ++ batch ids (turns.tail.headD {})) ::
    turns.tail.tail.map (batch ids)

theorem carried_sends {ids : List EventId} {ms : List Message} {n : ℕ} (ts : List Turn)
    (h : ∀ m ∈ ms, (carried ids m).isSome) :
    (sends ts (ms ++ [.complete n])).filterMap (carried ids) =
      weave (ts.map (batch ids)) (ms.filterMap (carried ids)) := by
  induction ms generalizing ts with
  | nil =>
    cases ts with
    | nil => rfl
    | cons t ts => exact (List.filterMap_append ..).trans (List.append_nil _)
  | cons m ms ih =>
    obtain ⟨id, hid⟩ := Option.isSome_iff_exists.mp (h m List.mem_cons_self)
    have hrest := ih ts.tail fun m' hm' => h m' (List.mem_cons_of_mem _ hm')
    have hhead : (ts.headD {}).forwarded.filterMap (carried ids) =
        (ts.map (batch ids)).headD [] := by cases ts <;> rfl
    rw [List.cons_append, sends, List.filterMap_append, List.filterMap_cons, hid, hrest, hhead,
      List.filterMap_cons, hid, weave, List.map_tail]

theorem weave_prepend {ι : Type} (l : List ι) (ls : List (List ι)) (bs : List ι) :
    l ++ weave ls bs = weave ((l ++ ls.headD []) :: ls.tail) bs := by
  cases bs <;> simp [weave]

theorem wanted_sorted (hlog : Published log) : (wanted log since).Pairwise (· < ·) :=
  List.pairwise_map.mpr (hlog.sorted.filter _)

theorem carried_entries {ids : List EventId} {es : List Entry}
    (h : ∀ e ∈ es, (∃ text, e = entry e.id text) ∧ e.id ∈ ids) :
    (∀ m ∈ es.filterMap Entry.replay, (carried ids m).isSome) ∧
      (es.filterMap Entry.replay).filterMap (carried ids) = es.map (·.id) := by
  induction es with
  | nil => simp
  | cons e es ih =>
    obtain ⟨⟨text, he⟩, hid⟩ := h e List.mem_cons_self
    obtain ⟨hsome, hmap⟩ := ih fun e' he' => h e' (List.mem_cons_of_mem _ he')
    have hreplay : e.replay = some (.replayed e.id text) := by rw [he]; rfl
    have hcarried : carried ids (.replayed e.id text) = some e.id :=
      Option.filter_eq_some_iff.mpr ⟨rfl, decide_eq_true hid⟩
    rw [List.filterMap_cons, hreplay]
    refine ⟨List.forall_mem_cons.mpr ⟨by rw [hcarried]; rfl, hsome⟩, ?_⟩
    rw [List.filterMap_cons, hcarried, hmap, List.map_cons]

theorem carried_replayed (hlog : Published log) (since : Option EventId) :
    (∀ m ∈ replayed log since, (carried (wanted log since) m).isSome) ∧
      (replayed log since).filterMap (carried (wanted log since)) =
        (wanted log since).take replayCount := by
  rw [wanted, ← List.map_take]
  refine carried_entries fun e he => ?_
  have hbacklog : e ∈ backlog log since := List.mem_of_mem_take he
  exact ⟨hlog.object e (List.mem_filter.mp hbacklog).1, List.mem_map_of_mem hbacklog⟩

theorem got_eq_weave (hlog : Published log) (hdone : Completes log since turns) :
    got log since turns =
      weave (batches (wanted log since) turns) ((wanted log since).take replayCount) := by
  obtain ⟨n, hsent⟩ := sentBy_of_completes hdone
  obtain ⟨hsome, htake⟩ := carried_replayed hlog since
  rw [got, hsent, List.filterMap_append, carried_sends _ hsome, htake, weave_prepend, batches]
  congr 2
  · cases turns with
    | nil => rfl
    | cons t ts => cases ts <;> rfl
  · simp only [List.map_tail]

theorem wanted_nodup (hlog : Published log) (since : Option EventId) : (wanted log since).Nodup :=
  List.Pairwise.imp (fun h => ne_of_lt h) (wanted_sorted hlog)

/-- The client has the backlog, each event once and in order, exactly when what comes live fits in
with the replay. -/
theorem got_backlog (hlog : Published log) (hdone : Completes log since turns) :
    got log since turns = wanted log since ↔
      (∀ b ∈ (batches (wanted log since) turns).take
          (min replayCount (wanted log since).length), b = []) ∧
        ((batches (wanted log since) turns).drop
          (min replayCount (wanted log since).length)).headD [] =
            (wanted log since).drop replayCount := by
  rw [got_eq_weave hlog hdone]
  exact weave_take_eq_iff (wanted_nodup hlog since) replayCount _

/-- Where no buffered event comes live, the backlog has to fit in one answer. -/
theorem got_backlog_quietly (hlog : Published log) (hdone : Completes log since turns)
    (hquiet : ∀ t ∈ turns, batch (wanted log since) t = []) :
    got log since turns = wanted log since ↔ (wanted log since).length ≤ replayCount := by
  have hbatches : ∀ b ∈ batches (wanted log since) turns, b = [] := by
    intro b hb
    obtain rfl | hb := List.mem_cons.mp hb
    · have hturn : ∀ ts : List Turn, (∀ t ∈ ts, batch (wanted log since) t = []) →
          batch (wanted log since) (ts.headD {}) = [] := by
        intro ts hts
        cases ts with
        | nil => rfl
        | cons t ts => exact hts t List.mem_cons_self
      rw [hturn turns hquiet, hturn turns.tail fun t ht => hquiet t (List.mem_of_mem_tail ht)]
      rfl
    · obtain ⟨t, ht, rfl⟩ := List.mem_map.mp hb
      exact hquiet t (List.mem_of_mem_tail (List.mem_of_mem_tail ht))
  have hlast : ∀ k, ((batches (wanted log since) turns).drop k).headD [] = [] := by
    intro k
    rcases hk : (batches (wanted log since) turns).drop k with _ | ⟨b, bs⟩
    · rfl
    · exact hbatches b (List.mem_of_mem_drop (hk ▸ List.mem_cons_self))
  rw [got_eq_weave hlog hdone, weave_take_eq_iff (wanted_nodup hlog since) replayCount, hlast]
  constructor
  · rintro ⟨-, hdrop⟩
    exact List.drop_eq_nil_iff.mp hdrop.symm
  · intro hle
    exact ⟨fun b hb => hbatches b (List.mem_of_mem_take hb),
      (List.drop_eq_nil_iff.mpr hle).symm⟩

end Run

section Progress
variable {log : List Entry} {since : Option EventId} {turns : List Turn} {s : Site}

/-- Redis answers, and the socket stays open. -/
def Willing (turns : List Turn) : Prop := ∀ t ∈ turns, t.ok = true

theorem Willing.headD (h : Willing turns) : (turns.headD {}).ok = true := by
  cases turns with
  | nil => rfl
  | cons t ts => exact h t List.mem_cons_self

theorem Willing.drop (h : Willing turns) (k : ℕ) : Willing (turns.drop k) :=
  fun t ht => h t (List.mem_of_mem_drop ht)

theorem run_sendText_ok (h : Willing s.turns) (m : Message) :
    (sendText m).run exec s = (.ok (), s.after [m]) := by
  have hback : (Prog.perform (ReplayOp.send m) : Work Bool).run exec s =
      (.ok true, s.after [m]) := by
    rw [Prog.run_perform, exec, h.headD]
    simp [Site.after, Site.forward, sends]
  rw [sendText, Prog.run_bind_ok _ _ hback]
  rfl

theorem run_replayEntries_ok (h : Willing s.turns) (es : List Entry)
    (hes : ∀ e ∈ es, ∃ text, e = entry e.id text) :
    (replayEntries es).run exec s = (.ok (), s.after (es.filterMap Entry.replay)) := by
  induction es generalizing s with
  | nil => exact congrArg _ s.after_nil.symm
  | cons e es ih =>
    obtain ⟨text, he⟩ := hes e List.mem_cons_self
    have hreplay : e.replay = some (.replayed e.id text) := by rw [he]; rfl
    have hsend : (replayEntry e).run exec s = (.ok (), s.after [.replayed e.id text]) := by
      rw [he]
      exact run_sendText_ok h _
    rw [replayEntries, Prog.run_bind_ok _ _ hsend,
      ih (s := s.after [.replayed e.id text]) (h.drop 1)
        fun e' he' => hes e' (List.mem_cons_of_mem _ he'),
      Site.after_after, List.filterMap_cons, hreplay]
    rfl

/-- A replay that nothing interrupts is announced as complete. -/
theorem completes_of_willing (hlog : Published log) (since : Option EventId)
    (h : Willing turns) : Completes log since turns := by
  have hx : (Prog.perform (ReplayOp.xrange since replayCount) :
      Work (Option (List Entry))).run exec { log, turns } =
        (.ok (some ((backlog log since).take replayCount)), (Site.mk log turns []).forward) := by
    rw [Prog.run_perform, exec, h.headD]
    rfl
  have hrest : Willing (Site.mk log turns []).forward.turns := fun t ht =>
    h t (List.mem_of_mem_tail ht)
  have hes := run_replayEntries_ok hrest ((backlog log since).take replayCount)
    fun e he => hlog.object e (List.mem_filter.mp (List.mem_of_mem_take he)).1
  unfold Completes sentBy replayEvents
  rw [Prog.run_handle _ _ _ (fun o s e s' h => by cases o <;> cases h), replay,
    Prog.run_bind_ok _ _ hx]
  dsimp only
  rw [Prog.run_bind_ok _ _ hes, run_sendText_ok (hrest.drop _)]
  refine ⟨.complete ((backlog log since).take replayCount).length, ?_, rfl⟩
  simp [Site.after, sends]

end Progress

section Sample

/-- Events of one session, one a millisecond. -/
def sampleLog (n : ℕ) : List Entry := (List.range n).map fun i => entry (toLex (i, 0)) "\x7b\x7d"

theorem sampleLog_published (n : ℕ) : Published (sampleLog n) := by
  induction n with
  | zero => exact .empty
  | succ n ih =>
    have hlast : ∀ e ∈ sampleLog n, e.id < toLex (n, 0) := by
      intro e he
      obtain ⟨i, hi, rfl⟩ := List.mem_map.mp he
      exact Prod.Lex.toLex_lt_toLex.mpr (Or.inl (List.mem_range.mp hi))
    have hadd := Published.xadd "\x7b\x7d" 0 ih hlast (Or.inl rfl)
    rwa [sampleLog, List.range_succ, List.map_append]

theorem wanted_sampleLog (n : ℕ) : (wanted (sampleLog n) none).length = n := by
  have hall : backlog (sampleLog n) none = sampleLog n := List.filter_eq_self.mpr fun _ _ => rfl
  rw [wanted, hall]
  simp [sampleLog]

theorem got_backlog_of_two :
    got (sampleLog 2) none [] = wanted (sampleLog 2) none ↔
      (∀ b ∈ (batches (wanted (sampleLog 2) none) []).take
          (min replayCount (wanted (sampleLog 2) none).length), b = []) ∧
        ((batches (wanted (sampleLog 2) none) []).drop
          (min replayCount (wanted (sampleLog 2) none).length)).headD [] =
            (wanted (sampleLog 2) none).drop replayCount :=
  got_backlog (sampleLog_published 2)
    (completes_of_willing (sampleLog_published 2) none (by simp [Willing]))

/-- Of 501 buffered events the client gets 500, and is told that the replay is complete. -/
theorem replay_of_501 :
    Published (sampleLog 501) ∧ Completes (sampleLog 501) none [] ∧
      got (sampleLog 501) none [] ≠ wanted (sampleLog 501) none := by
  have hlog := sampleLog_published 501
  have hwilling : Willing [] := by simp [Willing]
  have hdone := completes_of_willing hlog none hwilling
  refine ⟨hlog, hdone, fun hgot => ?_⟩
  have hle := (got_backlog_quietly hlog hdone (by simp)).mp hgot
  rw [wanted_sampleLog] at hle
  exact absurd hle (by decide)

end Sample

end ParkIt.Replay
