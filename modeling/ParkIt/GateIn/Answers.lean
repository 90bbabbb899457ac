import ParkIt.GateIn.Timers
import ParkIt.GateIn.Traffic
import Mathlib.Algebra.BigOperators.Group.Finset.Basic

/-! The gate opens once for a request, and for the vehicle that has made it. -/
namespace ParkIt.GateIn

open Effects ByteString Tasks Transition

/-- What is left to do can still come to a command that opens the gate. -/
inductive MayOpen : Work Unit → Prop
  | here {c n k} : c.Opens → MayOpen (.call (.publishCommand c n) k)
  | later {o : LaneOp} {k a} : MayOpen (k a) → MayOpen (.call o k)

/-- The request that the gate has sent after write `n` in the state `st` is still to be answered:
to be sent, on its way to the consumer or in its hands, or its answer is on the way back, or in the
hands of the daemon. -/
inductive UnderWay (s : LaneSys) (st : GateState) (n : Nat) : Prop
  | owed {i t} : s.task i = some t → (note t).phase.awaits = some (st, n) → UnderWay s st n
  | told {e} : (e, n) ∈ s.shared.events → e.awaits = some st → UnderWay s st n
  | served {i t e} : s.task i = some t → t.cause = .event e n → e.awaits = some st →
      (note t).phase = .calm → MayOpen t.rest → UnderWay s st n
  | sent {c} : c ∈ s.shared.commands → c.awaits = some st → c.origin = some n → UnderWay s st n
  | handled {i t c} : s.task i = some t → c ∈ (note t).command → c.awaits = some st →
      c.origin = some n → (note t).phase = .calm → UnderWay s st n

/-- The state is not written while the answer to a request is still to come. -/
def Patient (s : LaneSys) (l : LaneLabel) : Prop :=
  ∀ i st n, l = .go i ⟨.setState st, n⟩ → ∀ st' m, ¬ UnderWay s st' m

/-- The command that the barrier is told to open for. -/
def opensFor (s : LaneSys) : LaneLabel → Option Command
  | .go i ⟨.write w, _⟩ => if w.opens then handled s i else none
  | _ => none

/-- The request that the barrier opens for. -/
def firedFor (s : LaneSys) : LaneLabel → Option Nat
  | .go i ⟨.write w, true⟩ => if w.opens then (handled s i).bind Command.origin else none
  | _ => none

def fired (r : List Nat) (s : LaneSys) (l : LaneLabel) : List Nat := (firedFor s l).toList ++ r

/-- The answer to a request opens the gate in the episode of the request. -/
def InEpisode (s : LaneSys) (l : LaneLabel) : Prop :=
  ∀ c ∈ opensFor s l, ∀ n ∈ c.origin, c.awaits = some s.shared.state ∧ s.shared.writes = n

/-- No request has opened the gate before. -/
def FirstTime (p : LaneSys × List Nat) (l : LaneLabel) : Prop := ∀ n ∈ firedFor p.1 l, n ∉ p.2

instance (s : LaneSys) (l : LaneLabel) : Decidable (InEpisode s l) :=
  inferInstanceAs (Decidable (∀ c ∈ opensFor s l, ∀ n ∈ c.origin, _))

/-- The request that a calm task is there to answer. -/
def Note.asked (g : Note) : Option Nat :=
  match g.command with
  | some c => if c.Opens then c.origin else none
  | none =>
    match g.cause with
    | .event e n => if e.requests then some n else none
    | _ => none

/-- The request that a task has in hand. -/
def Note.owes (g : Note) : Option Nat :=
  match g.phase with
  | .requested n | .read n => some n
  | .calm => g.asked
  | _ => none

/-- Whether a task has request `n` in hand. -/
def heldBy (s : LaneSys) (n : Nat) (i : TaskIx) : Nat :=
  match s.task i with
  | some t => if (note t).owes = some n then 1 else 0
  | none => 0

/-- The tasks that send requests or answer them. -/
def askers : Finset TaskIx := {.rss, .commands, .serial, .consumer}

def toldFor (n : Nat) (e : GateEvent × Nat) : Bool := e.1.requests && e.2 = n

def sentFor (n : Nat) (c : Command) : Bool := c.Opens && c.origin = some n

/-- Whether request `n` is still to be made. -/
def unmade (s : Lane) (n : Nat) : Nat := if s.writes < n then 1 else 0

/-- Request `n`, where no task has it in hand. -/
def onWay (s : Lane) (n : Nat) : Nat :=
  unmade s n + s.events.countP (toldFor n) + s.commands.countP (sentFor n)

/-- Where request `n` is: still to be made, on its way, or in hand. -/
def places (s : LaneSys) (n : Nat) : Nat := onWay s.shared n + ∑ i ∈ askers, heldBy s n i

section Notes
variable {cfg : Config} {g : Note} {o : LaneOp} {a : o.Ans} {st : GateState} {n : Nat}

theorem asked_next (ho : o ≠ .xreadgroup) : (Note.next g o a).asked = g.asked := by
  rw [Note.asked, Note.asked, next_command ho, next_cause]

theorem owes_calm (h : g.phase = .calm) : g.owes = g.asked := by
  rw [Note.owes, h]

theorem owes_awaits (h : g.phase.awaits = some (st, n)) : g.owes = some n := by
  rw [Note.owes]
  cases hphase : g.phase with
  | requested m | read m =>
    rw [hphase] at h
    cases h
    rfl
  | _ =>
    rw [hphase] at h
    cases h

theorem asked_answers (h : g.asked = some n) (hc : g.command ≠ none → g.cause = .commands) :
    g.Answers := by
  unfold Note.asked at h
  split at h
  · rename_i c hcommand
    split at h
    · exact Or.inr ⟨hc (by rw [hcommand]; nofun), c, hcommand, ‹_›⟩
    · cases h
  · rename_i hcommand
    split at h
    · rename_i e m hcause
      exact Or.inl ⟨⟨e, m, hcause⟩, hcommand⟩
    · cases h

/-- Only a write of the state gives a task a request. -/
theorem owes_back (hallow : (moves cfg).allow g o) (hg : g.Answers → g.phase.Answering)
    (hc : g.command ≠ none → g.cause = .commands) (ho : o ≠ .xreadgroup)
    (h : (Note.next g o a).owes = some n) :
    g.owes = some n ∨ ∃ st, (⟨o, a⟩ : Event LaneOp LaneOp.Ans) = ⟨.setState st, n⟩ := by
  cases hphase : (Note.next g o a).phase with
  | requested m | read m =>
    rw [Note.owes, hphase] at h
    cases h
    have hawaits : (Note.next g o a).phase.awaits = some (_, n) := congrArg Phase.awaits hphase
    rcases owed_next hawaits with hbefore | he
    · exact Or.inl (owes_awaits hbefore)
    · exact Or.inr ⟨_, he⟩
  | calm =>
    rw [owes_calm hphase, asked_next ho] at h
    have hanswers := asked_answers h hc
    have hcalm := (answering_next hallow hanswers (hg hanswers)).2 hphase
    exact Or.inl ((owes_calm hcalm).trans h)
  | _ =>
    rw [Note.owes, hphase] at h
    cases h

theorem asked_none (hc : g.command ≠ none → g.cause = .commands)
    (hg : g.Answers → g.phase.Answering) (h : ¬ g.phase.Answering) : g.asked = none := by
  by_contra hsome
  obtain ⟨m, hm⟩ := Option.ne_none_iff_exists'.mp hsome
  exact h (hg (asked_answers hm hc))

end Notes

section Steps
variable {cfg : Config} {gateId : String} {s s' : LaneSys} {l : LaneLabel} {i : TaskIx}
  {o : LaneOp} {a : o.Ans} {t t' : LaneTask} {st : GateState} {n : Nat}

/-- A request that is on its way has been sent by a task that had it to send. -/
theorem told_back {e : GateEvent} (hs : Served cfg gateId s) (h : LaneStep cfg gateId s l s')
    (hmem : (e, n) ∈ s'.shared.events) (hst : e.awaits = some st) : UnderWay s st n := by
  have htraffic := traffic_step h
  generalize s'.shared = sh at htraffic hmem
  cases htraffic with
  | fewer hevents _ _ _ => exact .told (hevents.subset hmem) hst
  | told hevents _ =>
    rw [hevents] at hmem
    rcases List.mem_append.mp hmem with hmem | hmem
    · exact .told hmem hst
    · cases List.mem_singleton.mp hmem
      obtain ⟨t, t', ht⟩ := took h
      have hmay : (note t).MayPublish e n := ht.allow hs.sound.protocol
      refine .owed ht.before ?_
      cases e with
      | ticketButtonPressed | rfidCardRead _ _ =>
        rw [show (note t).phase = _ from hmay]
        cases hst
        rfl
      | _ => cases hst
  | taken hevents _ => exact .told (hevents ▸ List.mem_cons_of_mem _ hmem) hst
  | sent hevents _ | asked hevents _ | read hevents _ => exact .told (hevents ▸ hmem) hst

/-- A request that the consumer serves has come to it as an event. -/
theorem served_back {e : GateEvent} (hs : Served cfg gateId s) (h : LaneStep cfg gateId s l s')
    (hi : s'.task i = some t) (hcause : t.cause = .event e n) (hst : e.awaits = some st)
    (hcalm : (note t).phase = .calm) (hopen : MayOpen t.rest) : UnderWay s st n := by
  rcases task_back h hi with ⟨hi, -⟩ | ⟨c, rfl, -, rfl⟩ | ⟨o, a, u, rfl, hu⟩
  · exact .served hi hcause hst hcalm hopen
  · have htraffic := traffic_step h
    have hcause : c = .event e n := hcause
    subst hcause
    generalize s'.shared = sh at htraffic
    cases htraffic with
    | fewer _ _ _ hne => exact absurd rfl (hne _ _ _)
    | taken hevents _ => exact .told (hevents ▸ List.mem_cons_self) hst
  · have hs' := served_step h hs
    have hplaced := hs.placed i u hu.before
    have hcause' : u.cause = .event e n := hu.cause ▸ hcause
    have hread : o ≠ .xreadgroup := by
      rintro rfl
      have hi := (at_start (hs.reading i u hu.before) hu).1
      cases hi.symm.trans (hplaced.event e n hcause')
    have hanswers := answers_of_event (hs'.reading i t hi) (hs'.placed i t hi) hcause
    obtain ⟨k, hrest, hrest'⟩ := hu.asks
    refine .served hu.before hcause' hst (calm_back hs.sound hplaced hread hu hanswers hcalm) ?_
    rw [hrest]
    exact .later (hrest' ▸ hopen)

/-- An answer that is on its way has been sent by a task that served the request. -/
theorem sent_back {c : Command} (hs : Served cfg gateId s) (h : LaneStep cfg gateId s l s')
    (hmem : c ∈ s'.shared.commands) (hst : c.awaits = some st) (horigin : c.origin = some n) :
    UnderWay s st n := by
  have htraffic := traffic_step h
  generalize s'.shared = sh at htraffic hmem
  cases htraffic with
  | fewer _ hcommands _ _ => exact .sent (hcommands.subset hmem) hst horigin
  | told _ hcommands | taken _ hcommands => exact .sent (hcommands ▸ hmem) hst horigin
  | @sent i c' m ok id text _ _ hcommands =>
    rw [hcommands] at hmem
    rcases List.mem_append.mp hmem with hmem | hmem
    · exact .sent hmem hst horigin
    · cases List.mem_singleton.mp hmem
      cases horigin
      obtain ⟨t, t', ht⟩ := took h
      have hmay : (note t).MayAnswer c' n := ht.allow hs.sound.protocol
      obtain ⟨hopens, hcalm, e, hcause, hawaits⟩ := answer_back hmay hst
      obtain ⟨k, hrest, -⟩ := ht.asks
      refine .served ht.before ((note_cause t).symm.trans hcause) hawaits hcalm ?_
      rw [hrest]
      exact .here hopens
  | asked _ hcommands =>
    rw [hcommands] at hmem
    rcases List.mem_append.mp hmem with hmem | hmem
    · exact .sent hmem hst horigin
    · cases List.mem_singleton.mp hmem
      cases horigin
  | read _ hcommands => exact .sent (hcommands ▸ List.mem_cons_of_mem _ hmem) hst horigin

/-- An answer that is handled has been read. -/
theorem handled_back {c : Command} (hs : Served cfg gateId s) (h : LaneStep cfg gateId s l s')
    (hi : s'.task i = some t) (hc : c ∈ (note t).command) (hst : c.awaits = some st)
    (horigin : c.origin = some n) (hcalm : (note t).phase = .calm) : UnderWay s st n := by
  rcases task_back h hi with ⟨hi, -⟩ | ⟨c', -, -, rfl⟩ | ⟨o, a, u, rfl, hu⟩
  · exact .handled hi hc hst horigin hcalm
  · cases hc
  · have hs' := served_step h hs
    have hopens : c.Opens := opens_iff_awaits.mpr (by rw [hst]; rfl)
    have hanswers := answers_of_command (hs'.reading i t hi) (hs'.placed i t hi) hc hopens
    rw [took_note hu] at hc
    by_cases ho : o = .xreadgroup
    · subst ho
      have hstart := (at_start (hs.reading i u hu.before) hu).2
      cases a with
      | message c' =>
        cases hc
        have htraffic := traffic_step h
        generalize s'.shared = sh at htraffic
        cases htraffic with
        | fewer _ _ hne _ => exact absurd rfl (hne _ _)
        | read _ hcommands => exact .sent (hcommands ▸ List.mem_cons_self) hst horigin
      | _ =>
        rw [hstart] at hc
        cases hc
    · rw [next_command ho] at hc
      exact .handled hu.before hc hst horigin
        (calm_back hs.sound (hs.placed i u hu.before) ho hu hanswers hcalm)

/-- A request that is under way was so before, or has just been made. -/
theorem underWay_back (hs : Served cfg gateId s) (h : LaneStep cfg gateId s l s')
    (hway : UnderWay s' st n) : UnderWay s st n ∨ ∃ i, l = .go i ⟨.setState st, n⟩ := by
  cases hway with
  | @owed i t hi hphase =>
    rcases task_back h hi with ⟨hi, -⟩ | ⟨c, -, -, rfl⟩ | ⟨o, a, u, rfl, hu⟩
    · exact Or.inl (.owed hi hphase)
    · cases c <;> cases hphase
    · rw [took_note hu] at hphase
      rcases owed_next hphase with hphase | he
      · exact Or.inl (.owed hu.before hphase)
      · exact Or.inr ⟨i, by rw [he]⟩
  | told hmem hst => exact Or.inl (told_back hs h hmem hst)
  | served hi hcause hst hcalm hopen => exact Or.inl (served_back hs h hi hcause hst hcalm hopen)
  | sent hmem hst horigin => exact Or.inl (sent_back hs h hmem hst horigin)
  | handled hi hc hst horigin hcalm =>
    exact Or.inl (handled_back hs h hi hc hst horigin hcalm)

theorem heldBy_some (h : s.task i = some t) :
    heldBy s n i = if (note t).owes = some n then 1 else 0 := by
  rw [heldBy, h]

theorem heldBy_none (h : s.task i = none) : heldBy s n i = 0 := by
  rw [heldBy, h]

/-- Only the askers have requests in hand. -/
theorem Served.heldBy_eq_zero (hs : Served cfg gateId s) (hi : i ∉ askers) :
    heldBy s n i = 0 := by
  unfold heldBy
  split
  · rename_i t ht
    refine if_neg fun howes => hi ?_
    have hsub : inputs ⊆ askers := by decide
    have hplaced := hs.placed i t ht
    cases hphase : (note t).phase with
    | requested m | read m =>
      have hasking := hs.asking i t ht
      exact hsub (hasking.handles (hasking.asks (congrArg Phase.asks hphase)))
    | calm =>
      rw [owes_calm hphase] at howes
      rcases asked_answers howes (hs.commands ht) with ⟨⟨e, m, hcause⟩, -⟩ | ⟨hcause, c, hc, -⟩
      · rw [hplaced.event e m ((note_cause t).symm.trans hcause)]
        decide
      · rw [(hs.reading i t ht).command (by rw [hc]; nofun)]
        decide
    | _ =>
      rw [Note.owes, hphase] at howes
      cases howes
  · rfl

/-- When one task goes on, the others have in hand what they had. -/
theorem sum_held (hs : Served cfg gateId s) (hs' : Served cfg gateId s')
    (h : ∀ j, j ≠ i → s'.task j = s.task j) :
    ∑ j ∈ askers, heldBy s' n j + heldBy s n i = ∑ j ∈ askers, heldBy s n j + heldBy s' n i :=
  sum_change askers (fun j hj => by rw [heldBy, heldBy, h j hj])
    fun hi => ⟨hs.heldBy_eq_zero hi, hs'.heldBy_eq_zero hi⟩

theorem held_took (hs : Served cfg gateId s) (ht : Took (lane cfg gateId) s s' i o a t t')
    (ho : o ≠ .xreadgroup) (hwrite : ∀ st, (⟨o, a⟩ : Event LaneOp LaneOp.Ans) ≠ ⟨.setState st, n⟩) :
    heldBy s' n i ≤ heldBy s n i := by
  have hallow : (moves cfg).allow (note t) o := ht.allow hs.sound.protocol
  rw [heldBy_some ht.before, heldBy_some ht.after, took_note ht]
  split
  · rename_i howes
    rcases owes_back hallow (hs.placed i t ht.before).answering
      (hs.commands ht.before) ho howes with hbefore | ⟨st, he⟩
    · rw [if_pos hbefore]
    · exact absurd he (hwrite st)
  · exact Nat.zero_le _

theorem unmade_step (h : LaneStep cfg gateId s l s') (hl : ∀ i st n, l ≠ .go i ⟨.setState st, n⟩) :
    unmade s'.shared n = unmade s.shared n := by
  have hwrites : s'.shared.writes = s.shared.writes := congrArg (·.2.1) (mark_step h hl)
  rw [unmade, unmade, hwrites]

/-- A write of the state makes one request at most. -/
theorem held_write {a : LaneOp.Ans (.setState st)} (hs : Served cfg gateId s)
    (ht : Took (lane cfg gateId) s s' i (.setState st) a t t') :
    unmade s'.shared n + heldBy s' n i ≤ unmade s.shared n + heldBy s n i := by
  obtain ⟨rfl, -, hwrites, -⟩ := took_write ht
  rw [unmade, unmade, hwrites]
  by_cases hn : n = s.shared.writes + 1
  · subst hn
    rw [if_pos (Nat.lt_succ_self _), if_neg (Nat.lt_irrefl _)]
    have hone : heldBy s' (s.shared.writes + 1) i ≤ 1 := by
      rw [heldBy_some ht.after]
      split <;> decide
    omega
  · have hheld : heldBy s' n i ≤ heldBy s n i := by
      refine held_took hs ht nofun fun st' he => hn ?_
      cases he
      rfl
    have hunmade : (if s.shared.writes + 1 < n then 1 else 0) ≤
        if s.shared.writes < n then 1 else 0 := by
      split
      · rw [if_pos (by omega)]
      · exact Nat.zero_le _
    omega

/-- The request that a step spends, if it opens the gate. -/
def spent (s : LaneSys) (l : LaneLabel) (n : Nat) : Nat := (firedFor s l).toList.count n

theorem spent_fired {command : ControllerCommand} (hopens : command.opens = true)
    (hi : s.task i = some t) :
    spent s (.go i ⟨.write command, true⟩) n =
      if (note t).command.bind Command.origin = some n then 1 else 0 := by
  have hfired : firedFor s (.go i ⟨.write command, true⟩) =
      (note t).command.bind Command.origin := by
    rw [← handled_eq hi]
    exact if_pos hopens
  rw [spent, hfired]
  cases (note t).command.bind Command.origin <;> simp [List.count_singleton]

/-- Who opens the gate spends the request that he has in hand. -/
theorem held_fired {command : ControllerCommand} (hopens : command.opens = true)
    (hs : Served cfg gateId s) (ht : Took (lane cfg gateId) s s' i (.write command) true t t') :
    spent s (.go i ⟨.write command, true⟩) n + heldBy s' n i = heldBy s n i := by
  have hmay : (note t).phase = .calm ∧ ∃ c ∈ (note t).command, c.Opens :=
    ht.allow hs.sound.protocol hopens
  obtain ⟨hcalm, c, hc, hcopens⟩ := hmay
  have hafter : (note t').phase = .fired := by
    rw [took_note ht]
    exact congrArg Note.phase (if_pos hopens)
  have hasked : (note t).owes = c.origin := by
    rw [owes_calm hcalm, Note.asked, show (note t).command = some c from hc]
    exact if_pos hcopens
  have hnone : (note t').owes = none := by rw [Note.owes, hafter]
  rw [spent_fired hopens ht.before, heldBy_some ht.before, heldBy_some ht.after, hasked, hnone,
    show (note t).command = some c from hc]
  rfl

/-- Who has sent a request does not have it in hand any more. -/
theorem owes_published {g : Note} {e : GateEvent} {eventId : Option Nat} {m : Nat}
    (hmay : g.MayPublish e m) (he : e.requests = true) (hasked : g.asked = none) :
    (g.next (.publish e eventId m) true).owes = none := by
  cases e with
  | ticketButtonPressed =>
    have hcalm : (g.next (.publish .ticketButtonPressed eventId m) true).phase = .calm := by
      change g.published = _
      rw [Note.published, show g.phase = _ from hmay]
    rw [owes_calm hcalm, asked_next (by rintro ⟨⟩), hasked]
  | rfidCardRead card channel =>
    have htimed : (g.next (.publish (.rfidCardRead card channel) eventId m) true).phase =
        .timed m := by
      change g.published = _
      rw [Note.published, show g.phase = _ from hmay]
    rw [Note.owes, htimed]
  | _ => cases he

/-- A request that is sent was in hand, and is no longer. -/
theorem held_published {e : GateEvent} {eventId : Option Nat} {m : Nat} {ok : Bool}
    (hs : Served cfg gateId s) (ht : Took (lane cfg gateId) s s' i (.publish e eventId m) ok t t') :
    (if toldFor n (e, m) then 1 else 0) + heldBy s' n i ≤ heldBy s n i := by
  have hmay : (note t).MayPublish e m := ht.allow hs.sound.protocol
  cases he : e.requests with
  | false =>
    have hheld : heldBy s' n i ≤ heldBy s n i := held_took hs ht nofun nofun
    simp [toldFor, he, hheld]
  | true =>
    have hphase : (note t).phase = .requested m ∨ (note t).phase = .read m := by
      cases e with
      | ticketButtonPressed => exact Or.inl hmay
      | rfidCardRead _ _ => exact Or.inr hmay
      | _ => cases he
    have hbefore : (note t).owes = some m := by
      rcases hphase with hphase | hphase <;> rw [Note.owes, hphase]
    have hasked : (note t).asked = none := by
      refine asked_none (hs.commands ht.before) (hs.placed i t ht.before).answering ?_
      rcases hphase with hphase | hphase <;> rw [hphase] <;> exact id
    have hafter : (note t').owes = none := by
      rw [took_note ht]
      cases ok with
      | false => rfl
      | true => exact owes_published hmay he hasked
    rw [heldBy_some ht.before, heldBy_some ht.after, hbefore, hafter]
    simp [toldFor, he, Option.some.injEq]

/-- An answer that opens the gate was in hand, and is no longer. -/
theorem held_answered {c : RedisCommand} {m id : Nat} {text : String} {ok : Bool}
    (hs : Served cfg gateId s) (ht : Took (lane cfg gateId) s s' i (.publishCommand c m) ok t t') :
    (if sentFor n ⟨id, c.fields gateId text, some m⟩ then 1 else 0) + heldBy s' n i ≤
      heldBy s n i := by
  have hmay : (note t).MayAnswer c m := ht.allow hs.sound.protocol
  cases hawaits : Command.awaits ⟨id, c.fields gateId text, some m⟩ with
  | none =>
    have hheld : heldBy s' n i ≤ heldBy s n i := held_took hs ht nofun nofun
    have hopens : ¬ Command.Opens ⟨id, c.fields gateId text, some m⟩ := by
      rw [opens_iff_awaits, hawaits]
      nofun
    simp [sentFor, hopens, hheld]
  | some st =>
    obtain ⟨hopens, hcalm, e, hcause, he⟩ := answer_back hmay hawaits
    have hcommand : (note t).command = none := by
      by_contra hcommand
      cases (hs.commands ht.before hcommand).symm.trans hcause
    have hrequests : e.requests = true := requests_iff_awaits.mpr (by rw [he]; rfl)
    have hbefore : (note t).owes = some m := by
      rw [owes_calm hcalm, Note.asked, hcommand, hcause]
      exact if_pos hrequests
    have hafter : (note t').owes = none := by
      rw [took_note ht]
      cases c with
      | openGate _ _ | printTicketThenOpen _ _ => rfl
      | _ => exact hopens.elim
    have hcopens : Command.Opens ⟨id, c.fields gateId text, some m⟩ :=
      opens_iff_awaits.mpr (by rw [hawaits]; rfl)
    rw [heldBy_some ht.before, heldBy_some ht.after, hbefore, hafter]
    simp [sentFor, hcopens]

/-- A command that is read is in hand. -/
theorem held_read {c : Command} (hs : Served cfg gateId s)
    (ht : Took (lane cfg gateId) s s' i .xreadgroup (.message c) t t') :
    heldBy s' n i = if sentFor n c then 1 else 0 := by
  obtain ⟨rfl, hstart⟩ := at_start (hs.reading i t ht.before) ht
  have hcause : t.cause = .commands := (hs.placed _ t ht.before).commands rfl
  have hcalm : (note t').phase = .calm := by
    rw [took_note ht, hstart, hcause]
    rfl
  have hcommand : (note t').command = some c := by rw [took_note ht]; rfl
  rw [heldBy_some ht.after, owes_calm hcalm, Note.asked, hcommand]
  by_cases hopens : c.Opens <;> simp [sentFor, hopens]

theorem onWay_fewer {sh sh' : Lane} (hunmade : unmade sh' n ≤ unmade sh n)
    (hevents : sh'.events.Sublist sh.events) (hcommands : sh'.commands.Sublist sh.commands) :
    onWay sh' n ≤ onWay sh n :=
  Nat.add_le_add (Nat.add_le_add hunmade hevents.countP_le) hcommands.countP_le

/-- Only who fires the relay spends a request. -/
theorem spent_eq_zero (he : ∀ command : ControllerCommand, command.opens = true →
    (⟨o, a⟩ : Event LaneOp LaneOp.Ans) ≠ ⟨.write command, true⟩) :
    spent s (.go i ⟨o, a⟩) n = 0 := by
  unfold spent firedFor
  split
  · rename_i command heq
    cases heq
    split
    · exact absurd rfl (he command ‹_›)
    · rfl
  · rfl

/-- What a task has in hand, and what it makes of it. -/
theorem places_go (hs : Served cfg gateId s) (h : LaneStep cfg gateId s (.go i ⟨o, a⟩) s')
    (ht : Took (lane cfg gateId) s s' i o a t t') :
    spent s (.go i ⟨o, a⟩) n + (onWay s'.shared n + heldBy s' n i) ≤
      onWay s.shared n + heldBy s n i := by
  have htraffic := traffic_step h
  by_cases hwrite : ∃ st, o = .setState st
  · obtain ⟨st, rfl⟩ := hwrite
    have hheld := held_write (n := n) hs ht
    have hspent : spent s (.go i ⟨.setState st, a⟩) n = 0 :=
      spent_eq_zero fun _ _ he => nomatch he
    generalize s'.shared = sh at htraffic hheld ⊢
    cases htraffic with
    | fewer hevents hcommands _ _ =>
      have hevents := hevents.countP_le (p := toldFor n)
      have hcommands := hcommands.countP_le (p := sentFor n)
      unfold onWay
      omega
  · have hunmade : unmade s'.shared n = unmade s.shared n :=
      unmade_step h fun j st m heq => hwrite ⟨st, by cases heq; rfl⟩
    have hquiet (hread : o ≠ .xreadgroup) : heldBy s' n i ≤ heldBy s n i :=
      held_took hs ht hread fun st he => hwrite ⟨st, congrArg Event.op he⟩
    have hspent (hfires : ∀ command, o ≠ .write command) : spent s (.go i ⟨o, a⟩) n = 0 :=
      spent_eq_zero fun command _ he => hfires command (congrArg Event.op he)
    generalize hsh : s'.shared = sh at htraffic hunmade
    cases htraffic with
    | fewer hevents hcommands hread _ =>
      have hway := onWay_fewer hunmade.le hevents hcommands
      by_cases hfires : ∃ command, command.opens = true ∧
          (⟨o, a⟩ : Event LaneOp LaneOp.Ans) = ⟨.write command, true⟩
      · obtain ⟨command, hopens, he⟩ := hfires
        cases he
        have hheld := held_fired (n := n) hopens hs ht
        omega
      · have hspent : spent s (.go i ⟨o, a⟩) n = 0 :=
          spent_eq_zero fun command hopens he => hfires ⟨command, hopens, he⟩
        have hheld : heldBy s' n i ≤ heldBy s n i := by
          by_cases ho : o = .xreadgroup
          · subst ho
            rw [heldBy_some ht.before, heldBy_some ht.after, took_note ht]
            cases a with
            | message c => exact absurd rfl (hread i c)
            | _ => exact le_refl _
          · exact hquiet ho
        omega
    | told hevents hcommands =>
      have hheld := held_published (n := n) hs ht
      rw [hspent nofun, onWay, onWay, hunmade, hevents, hcommands, List.countP_append,
        List.countP_singleton]
      omega
    | @sent _ c m _ id text _ hevents hcommands =>
      have hheld : (if sentFor n ⟨id, c.fields gateId text, some m⟩ then 1 else 0) +
        heldBy s' n i ≤ heldBy s n i := held_answered hs ht
      rw [hspent nofun, onWay, onWay, hunmade, hevents, hcommands, List.countP_append,
        List.countP_singleton]
      omega
    | read hevents hcommands =>
      have hheld := held_read (n := n) hs ht
      rw [hspent nofun, onWay, onWay, hunmade, hevents, hcommands, List.countP_cons]
      omega

/-- A request is in one place at most, and it is gone when the gate has opened for it. -/
theorem places_step (hs : Served cfg gateId s) (h : LaneStep cfg gateId s l s') :
    spent s l n + places s' n ≤ places s n := by
  have hs' := served_step h hs
  have htraffic := traffic_step h
  unfold places
  cases l with
  | start i c =>
    have hother : ∀ j, j ≠ i → s'.task j = s.task j :=
      fun j hj => task_other h fun heq => hj (Option.some.inj heq).symm
    have hsum := sum_held (n := n) hs hs' hother
    have hspent : spent s (.start i c) n = 0 := rfl
    have hunmade : unmade s'.shared n = unmade s.shared n := unmade_step h nofun
    have hheld : heldBy s n i = 0 ∧ heldBy s' n i =
        if (Note.start c).owes = some n then 1 else 0 := by
      cases h with
      | start hnone _ _ => exact ⟨heldBy_none hnone, heldBy_some task_set_self⟩
    generalize hsh : s'.shared = sh at htraffic hunmade ⊢
    cases htraffic with
    | fewer hevents hcommands _ hevent =>
      have hway := onWay_fewer hunmade.le hevents hcommands
      have howes : (Note.start c).owes = none := by
        cases c with
        | event e m => exact absurd rfl (hevent i e m)
        | _ => rfl
      rw [howes] at hheld
      simp at hheld
      omega
    | @taken e m _ hevents hcommands =>
      have howes : (Note.start (.event e m)).owes = some n ↔ toldFor n (e, m) = true := by
        change (if e.requests then some m else none) = _ ↔ _
        cases he : e.requests <;> simp [toldFor, he]
      rw [onWay, onWay, hunmade, hevents, hcommands, List.countP_cons]
      simp only [howes] at hheld
      omega
  | go i e =>
    obtain ⟨o, a⟩ := e
    obtain ⟨t, t', ht⟩ := took h
    have hsum := sum_held (n := n) hs hs' ht.others
    have hgo := places_go (n := n) hs h ht
    omega
  | stop i =>
    cases h with
    | stop _ _ _ =>
      have hsum := sum_held (n := n) hs hs' (i := i) fun j hj => Function.update_of_ne hj ..
      have hheld : heldBy (s.drop i) n i = 0 := heldBy_none (Function.update_self ..)
      have hspent : spent s (.stop i) n = 0 := rfl
      rw [drop_shared]
      omega
  | outside =>
    have hspent : spent s .outside n = 0 := rfl
    have hunmade : unmade s'.shared n = unmade s.shared n := unmade_step h nofun
    have hsum : ∑ j ∈ askers, heldBy s' n j = ∑ j ∈ askers, heldBy s n j :=
      Finset.sum_congr rfl fun j _ => by rw [heldBy, heldBy, task_other h nofun]
    rw [hsum]
    generalize s'.shared = sh at htraffic hunmade ⊢
    cases htraffic with
    | fewer hevents hcommands _ _ =>
      have hway := onWay_fewer hunmade.le hevents hcommands
      omega
    | @asked id fields _ hevents hcommands =>
      have hnot : sentFor n ⟨id, fields, none⟩ = false := by simp [sentFor]
      rw [onWay, onWay, hunmade, hevents, hcommands, List.countP_append, List.countP_singleton,
        hnot]
      simp [hspent]

/-- While the state is not written, a request that is under way is the one the gate waits for. -/
def Waited (s : LaneSys) : Prop :=
  ∀ st n, UnderWay s st n → s.shared.state = st ∧ s.shared.writes = n

theorem waited_step (hs : Served cfg gateId s) (h : LaneStep cfg gateId s l s')
    (hl : Patient s l) (hwaited : Waited s) : Waited s' := by
  intro st n hway
  rcases underWay_back hs h hway with hbefore | ⟨i, rfl⟩
  · have hmark : s'.shared.mark = s.shared.mark :=
      mark_step h fun i st' m heq => hl i st' m heq st n hbefore
    obtain ⟨hstate, hwrites⟩ := hwaited st n hbefore
    exact ⟨(congrArg Prod.fst hmark).trans hstate, (congrArg (·.2.1) hmark).trans hwrites⟩
  · obtain ⟨t, t', ht⟩ := took h
    obtain ⟨hn, hstate, hwrites, -⟩ := took_write ht
    exact ⟨hstate, hwrites.trans hn.symm⟩

theorem inEpisode_step (hs : Served cfg gateId s) (h : LaneStep cfg gateId s l s')
    (hwaited : Waited s) : InEpisode s l := by
  intro c hc n hn
  unfold opensFor at hc
  split at hc
  · split at hc
    · rename_i i command ok hopens
      obtain ⟨t, t', ht⟩ := took h
      have hmay : (note t).phase = .calm ∧ ∃ c ∈ (note t).command, c.Opens :=
        ht.allow hs.sound.protocol hopens
      obtain ⟨hcalm, c', hc', hcopens⟩ := hmay
      rw [handled_eq ht.before] at hc
      cases hc.symm.trans hc'
      obtain ⟨st, hst⟩ := Option.isSome_iff_exists.mp (opens_iff_awaits.mp hcopens)
      obtain ⟨hstate, hwrites⟩ := hwaited st n (.handled ht.before hc' hst hn hcalm)
      exact ⟨hst.trans (congrArg some hstate.symm), hwrites⟩
    · cases hc
  · cases hc

/-- Every request is in one place at most, if it has not opened the gate before. -/
def Single (s : LaneSys) (r : List Nat) : Prop := ∀ n, places s n + r.count n ≤ 1

theorem single_step {r : List Nat} (hs : Served cfg gateId s) (h : LaneStep cfg gateId s l s')
    (hr : Single s r) : Single s' (fired r s l) := by
  intro n
  have hplaces := places_step (n := n) hs h
  have hbefore := hr n
  rw [fired, List.count_append]
  unfold spent at hplaces
  omega

theorem firstTime_step {r : List Nat} (hs : Served cfg gateId s) (h : LaneStep cfg gateId s l s')
    (hr : Single s r) : FirstTime (s, r) l := by
  intro n hn hbefore
  have hplaces := places_step (n := n) hs h
  have hone := hr n
  have hspent : 0 < spent s l n := List.count_pos_iff.mpr (Option.mem_toList.mpr hn)
  have hcount : 0 < r.count n := List.count_pos_iff.mpr hbefore
  omega

theorem served_start : Served cfg gateId { shared := { state := st } } :=
  ⟨sound_start ⟨Or.inr rfl, fun _ => Nat.le_refl 0⟩, nofun, nofun, nofun⟩

theorem not_underWay_start {st' : GateState} : ¬ UnderWay { shared := { state := st' } } st n := by
  intro hway
  cases hway with
  | owed hi _ | served hi _ _ _ _ | handled hi _ _ _ _ => cases hi
  | told hmem _ | sent hmem _ _ => cases hmem

end Steps

/-- A request opens the gate once at most; and while the state is not written before the request is
answered, it does so in the episode in which it has been made. -/
theorem opens_for_who_asked (cfg : Config) (gateId : String) (st : GateState)
    {xs : List (LaneLabel × LaneSys)}
    (h : Path (LaneStep cfg gateId) { shared := { state := st } } xs) :
    Path (fun p l _ => FirstTime p l) ({ shared := { state := st } }, [])
        (noted fired { shared := { state := st } } [] xs) ∧
      (Path (fun s l _ => Patient s l) { shared := { state := st } } xs →
        Path (fun s l _ => InEpisode s l) { shared := { state := st } } xs) := by
  refine ⟨?_, fun hpatient => ?_⟩
  · refine (h.noted fired []).each (P := fun p => Served cfg gateId p.1 ∧ Single p.1 p.2) ?_ ?_
      ⟨served_start, fun n => ?_⟩
    · rintro ⟨s, r⟩ l ⟨s', r'⟩ ⟨hstep, hr⟩ ⟨hs, hsingle⟩
      cases hr
      exact ⟨served_step hstep hs, single_step hs hstep hsingle⟩
    · rintro ⟨s, r⟩ l ⟨s', r'⟩ ⟨hstep, -⟩ ⟨hs, hsingle⟩
      exact firstTime_step hs hstep hsingle
    · change (if 0 < n then 1 else 0) + 0 + 0 + 0 + 0 ≤ 1
      split <;> decide
  · refine (h.and hpatient).each (P := fun s => Served cfg gateId s ∧ Waited s) ?_ ?_
      ⟨served_start, fun _ _ hway => absurd hway not_underWay_start⟩
    · rintro s l s' ⟨hstep, hl⟩ ⟨hs, hwaited⟩
      exact ⟨served_step hstep hs, waited_step hs hstep hl hwaited⟩
    · rintro s l s' ⟨hstep, -⟩ ⟨hs, hwaited⟩
      exact inEpisode_step hs hstep hwaited

theorem UnderWay.asked {s : LaneSys} {st : GateState} {n : Nat} (h : UnderWay s st n) :
    st = .processing ∨ st = .validating := by
  have hevent {e : GateEvent} (he : e.awaits = some st) : st = .processing ∨ st = .validating := by
    cases e with
    | ticketButtonPressed => exact Or.inl (Option.some.inj he).symm
    | rfidCardRead _ _ => exact Or.inr (Option.some.inj he).symm
    | _ => cases he
  have hcommand {c : Command} (hc : c.awaits = some st) : st = .processing ∨ st = .validating := by
    unfold Command.awaits at hc
    split at hc
    · exact Or.inl (Option.some.inj hc).symm
    · split at hc
      · exact Or.inr (Option.some.inj hc).symm
      · cases hc
  cases h with
  | @owed i t _ hphase =>
    cases hp : (note t).phase with
    | requested m => rw [hp] at hphase; cases hphase; exact Or.inl rfl
    | read m => rw [hp] at hphase; cases hphase; exact Or.inr rfl
    | _ => rw [hp] at hphase; cases hphase
  | told _ hst | served _ _ hst _ _ => exact hevent hst
  | sent _ hst _ | handled _ _ hst _ _ => exact hcommand hst

section Runs
variable {cfg : Config} {gateId : String} {xs : List (LaneLabel × LaneSys)}

/-- A request that is under way has been made by a write. -/
theorem underWay_written {st : GateState} {n : Nat} (h : Path (LaneStep cfg gateId) boot xs)
    (hway : UnderWay (finish boot xs) st n) : st ∈ (xs.map Prod.fst).filterMap writeOf := by
  let Q : List LaneLabel → LaneSys → Prop := fun as s =>
    Served cfg gateId s ∧ ∀ st n, UnderWay s st n → st ∈ as.filterMap writeOf
  have hboot : Q [] boot := ⟨served_start, fun st n hway => absurd hway not_underWay_start⟩
  refine (h.history (Q := Q) (fun as s l s' hstep hQ => ?_) hboot).2 st n hway
  refine ⟨served_step hstep hQ.1, fun st n hway => ?_⟩
  rw [List.filterMap_append, List.mem_append]
  rcases underWay_back hQ.1 hstep hway with hway | ⟨i, rfl⟩
  · exact Or.inl (hQ.2 st n hway)
  · exact Or.inr (List.mem_singleton.mpr rfl)

/-- A run that ends in the episode of its only request is patient. -/
theorem patient_of_last (h : Path (LaneStep cfg gateId) boot xs)
    (hlast : ∀ st ∈ ((xs.map Prod.fst).filterMap writeOf).dropLast,
      st ≠ .processing ∧ st ≠ .validating) : Path (fun s l _ => Patient s l) boot xs := by
  refine path_of_split fun pre l s' post heq i st n hl st' m hway => ?_
  subst heq hl
  have hmem := underWay_written (path_append.mp h).1 hway
  rw [List.map_append, List.filterMap_append] at hlast
  have hwrites : ((Label.go i ⟨.setState st, n⟩, s') :: post |>.map Prod.fst).filterMap writeOf =
      st :: (post.map Prod.fst).filterMap writeOf := rfl
  rw [hwrites, List.dropLast_append_cons] at hlast
  have hother := hlast st' (List.mem_append_left _ hmem)
  rcases hway.asked with hst | hst
  · exact hother.1 hst
  · exact hother.2 hst

end Runs

/-- A vehicle comes, and its driver presses the button. -/
def pressing : List LaneTurn :=
  frameTurns "IN1ON" ++ [.start .consumer (.event (.vehicleDetected "IN1") 0), .stop .consumer] ++
  frameTurns "IN2ON"

/-- The API answers with a ticket. -/
def answering : List LaneTurn :=
  .start .consumer (.event .ticketButtonPressed 2) ::
  goes .consumer 5 { gate := some (some { id := 1, name := "A" }), entry := some none } ++
  [.stop .consumer]

theorem opens_for_who_pressed :
    ∃ xs, Path (LaneStep {} "1") { shared := { state := .idle } } xs ∧
      (finish (boot, []) (noted fired boot [] xs)).2 = [2] ∧
      Path (fun p l _ => FirstTime p l) (boot, []) (noted fired boot [] xs) ∧
      Path (fun s l _ => InEpisode s l) boot xs := by
  have hpath : Path (LaneStep {} "1") boot (takeTurns (lane {} "1") boot
      (pressing ++ answering ++ .start .commands .commands :: goes .commands 10)) :=
    commanded_path (by simp [pressing, answering, frameTurns])
  obtain ⟨hfirst, hepisode⟩ := opens_for_who_asked {} "1" .idle hpath
  exact ⟨_, hpath, by decide +kernel, hfirst, hepisode (patient_of_last hpath (by decide +kernel))⟩

/-- The gate is reset before the daemon has read the answer. -/
theorem late_answer_opens :
    ¬ ∀ (cfg : Config) (gateId : String) (st : GateState) (xs : List (LaneLabel × LaneSys)),
      Path (LaneStep cfg gateId) { shared := { state := st } } xs →
      Path (fun p l _ => FirstTime p l) ({ shared := { state := st } }, [])
          (noted fired { shared := { state := st } } [] xs) ∧
        Path (fun s l _ => InEpisode s l) { shared := { state := st } } xs := by
  intro h
  have hpath := (h {} "1" .idle (takeTurns (lane {} "1") boot
    (pressing ++ command [("command_type", "reset_gate")] :: answering ++
      .start .commands .commands :: goes .commands 9 ++ [.stop .commands] ++
      .start .commands .commands :: goes .commands 10))
    (commanded_path (by simp [pressing, answering, frameTurns]))).2
  revert hpath
  decide +kernel

end ParkIt.GateIn
