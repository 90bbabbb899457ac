import ParkIt.GateIn.Barrier
import ParkIt.GateIn.Requests

/-! What goes between the gate and the API, and which tasks of the lane answer a request. -/
namespace ParkIt.GateIn

open Effects ByteString Tasks Transition

/-- The state in which the gate waits for what an event asks for. -/
def GateEvent.awaits : GateEvent → Option GateState
  | .ticketButtonPressed => some .processing
  | .rfidCardRead _ _ => some .validating
  | _ => none

/-- The state in which the gate waits for a command that opens it. -/
def Command.awaits (c : Command) : Option GateState :=
  if c.type = "print_ticket_then_open" then some .processing
  else if c.type = "open_gate" then some .validating
  else none

/-- A request that is still to be sent, with the number of its write. -/
def Phase.awaits : Phase → Option (GateState × Nat)
  | .requested n => some (.processing, n)
  | .read n => some (.validating, n)
  | _ => none

/-- What a step does to the events and to the commands. -/
inductive Traffic (gateId : String) (s : Lane) : LaneLabel → Lane → Prop
  | fewer {l s'} : s'.events.Sublist s.events → s'.commands.Sublist s.commands →
      (∀ i c, l ≠ .go i ⟨.xreadgroup, .message c⟩) → (∀ i e n, l ≠ .start i (.event e n)) →
      Traffic gateId s l s'
  | told {i e eventId n ok s'} : s'.events = s.events ++ [(e, n)] → s'.commands = s.commands →
      Traffic gateId s (.go i ⟨.publish e eventId n, ok⟩) s'
  | taken {e n s'} : s.events = (e, n) :: s'.events → s'.commands = s.commands →
      Traffic gateId s (.start .consumer (.event e n)) s'
  | sent {i c n ok id text s'} : s'.events = s.events →
      s'.commands = s.commands ++ [⟨id, c.fields gateId text, some n⟩] →
      Traffic gateId s (.go i ⟨.publishCommand c n, ok⟩) s'
  | asked {id fields s'} : s'.events = s.events →
      s'.commands = s.commands ++ [⟨id, fields, none⟩] → Traffic gateId s .outside s'
  | read {i c s'} : s'.events = s.events → s.commands = c :: s'.commands →
      Traffic gateId s (.go i ⟨.xreadgroup, .message c⟩) s'

/-- Where a task stands that answers a request. -/
def Phase.Answering : Phase → Prop
  | .calm | .fired | .opened _ | .armed _ | .over | .failed | .answered | .helped => True
  | _ => False

/-- The task answers a request: the event consumer, or the command loop with a command that opens
the gate. -/
def Note.Answers (g : Note) : Prop :=
  ((∃ e n, g.cause = .event e n) ∧ g.command = none) ∨
    g.cause = .commands ∧ ∃ c ∈ g.command, c.Opens

section Notes
variable {cfg : Config} {g : Note} {o : LaneOp} {a : o.Ans} {c : Command} {st : GateState} {n : Nat}

theorem opens_iff_awaits : c.Opens ↔ c.awaits.isSome := by
  unfold Command.Opens Command.awaits
  by_cases hprint : c.type = "print_ticket_then_open"
  · simp [hprint]
  · by_cases hopen : c.type = "open_gate" <;> simp [hprint, hopen]

theorem requests_iff_awaits {e : GateEvent} : e.requests = true ↔ e.awaits.isSome := by
  cases e <;> simp [GateEvent.requests, GateEvent.awaits]

/-- Who answers writes the state only when it has opened the gate. -/
theorem Note.MayWrite.opening (h : g.MayWrite st) (hg : g.Answers) :
    g.phase = .fired ∧ st = .opening := by
  rcases hg with ⟨⟨e, n, hcause⟩, -⟩ | ⟨-, c, hc, hopens⟩
  · have hacts := h.acts
    rw [Note.MayAct, hcause] at hacts
    exact hacts.elim
  · exact h.opens c hc hopens

theorem not_reject (hg : g.Answers) : ¬ ∃ c ∈ g.command, c.type = "reject_card" := by
  rintro ⟨c, hc, htype⟩
  rcases hg with ⟨-, hnone⟩ | ⟨-, c', hc', hopens⟩
  · cases hnone.symm.trans hc
  · cases hc.symm.trans hc'
    rcases hopens with hopens | hopens
    · exact absurd (htype.symm.trans hopens) (by decide)
    · exact absurd (htype.symm.trans hopens) (by decide)

/-- Who answers stays with it, and does not start again. -/
theorem answering_next (hallow : (moves cfg).allow g o) (hg : g.Answers) (h : g.phase.Answering) :
    (Note.next g o a).phase.Answering ∧ ((Note.next g o a).phase = .calm → g.phase = .calm) := by
  have hphase {p : Phase} (hp : g.phase = p) : p.Answering := hp ▸ h
  rcases next_shift (g := g) (o := o) (a := a) with hsame | hshift
  · exact ⟨hsame ▸ h, fun hcalm => hsame ▸ hcalm⟩
  · generalize (Note.next g o a).phase = p at hshift ⊢
    generalize he : (⟨o, a⟩ : Event LaneOp LaneOp.Ans) = e at hshift
    cases hshift with
    | passing _ | cleared _ | returned _ | detected _ | requested | read =>
      cases he
      exact absurd (Note.MayWrite.opening hallow hg).2 nofun
    | welcomed hp | asked hp | timed hp | passed hp | hindered hp _ | closed hp =>
      exact (hphase hp).elim
    | held | kept =>
      cases he
      exact (hphase hallow).elim
    | calling =>
      cases he
      exact absurd hallow.2 (not_reject hg)
    | called =>
      cases he
      exact absurd hallow.2 (not_reject hg)
    | rejected =>
      cases he
      exact absurd hallow.2 (not_reject hg)
    | taken =>
      cases he
      have hrss : g.cause = .rss := hallow.1
      rcases hg with ⟨⟨e, n, hcause⟩, -⟩ | ⟨hcause, -⟩ <;> cases hrss.symm.trans hcause
    | _ => exact ⟨trivial, nofun⟩

end Notes

section Steps
variable {cfg : Config} {gateId : String} {s s' : LaneSys} {l : LaneLabel} {i j : TaskIx}
  {o : LaneOp} {a : o.Ans} {t t' : LaneTask} {st : GateState} {n : Nat}

theorem traffic_quiet {sh sh' : Lane} (ho : o ≠ .xreadgroup) (hevents : sh'.events = sh.events)
    (hcommands : sh'.commands = sh.commands) : Traffic gateId sh (.go i ⟨o, a⟩) sh' := by
  refine .fewer (hevents ▸ .refl _) (hcommands ▸ .refl _) (fun j c heq => ho ?_) nofun
  cases heq
  rfl

theorem perform_traffic (x : Oracle) (sh : Lane) (i : TaskIx) :
    Traffic gateId sh (.go i ⟨o, (perform gateId o x sh).1⟩) (perform gateId o x sh).2 := by
  cases o with
  | publish e eventId n =>
    dsimp only [perform]
    split
    · exact .told rfl rfl
    · exact traffic_quiet (by rintro ⟨⟩) rfl rfl
  | publishCommand c n =>
    dsimp only [perform]
    split
    · exact .sent rfl rfl
    · exact traffic_quiet (by rintro ⟨⟩) rfl rfl
  | xreadgroup =>
    dsimp only [perform]
    split
    · split
      · exact .fewer (.refl _) (.refl _) nofun nofun
      · exact .fewer (.refl _) (.refl _) nofun nofun
    · rename_i c commands hcommands
      dsimp only
      cases hok : x.ok with
      | true => exact .read rfl hcommands
      | false =>
        refine .fewer ?_ ?_ nofun nofun
        · split <;> exact .refl _
        · split
          · rw [hcommands]
            exact List.sublist_cons_self ..
          · exact .refl _
  | _ => exact traffic_quiet (by rintro ⟨⟩) rfl rfl

theorem start_traffic {c : Cause} {sh sh' : Lane} (h : starts i c sh = some sh') :
    Traffic gateId sh (.start i c) sh' := by
  cases i with
  | consumer =>
    cases c with
    | event e n =>
      simp only [starts] at h
      split at h
      · cases h
      · rename_i event events hevents
        split at h
        · rename_i heq
          cases h
          exact .taken (hevents.trans (by rw [heq])) rfl
        · cases h
    | _ => cases h
  | timer k =>
    cases c with
    | timer u =>
      simp only [starts] at h
      split at h
      · cases h
        exact .fewer (.refl _) (.refl _) (by rintro _ _ ⟨⟩) (by rintro _ _ _ ⟨⟩)
      · cases h
    | _ => cases h
  | _ =>
    cases c <;> cases h
    exact .fewer (.refl _) (.refl _) (by rintro _ _ ⟨⟩) (by rintro _ _ _ ⟨⟩)

theorem outside_traffic {sh sh' : Lane} (h : Outside sh sh') : Traffic gateId sh .outside sh' := by
  cases h with
  | command fields => exact .asked rfl rfl
  | events hsub => exact .fewer hsub (.refl _) nofun nofun
  | commands hsub => exact .fewer (.refl _) hsub nofun nofun

theorem traffic_step (h : LaneStep cfg gateId s l s') : Traffic gateId s.shared l s'.shared := by
  cases l with
  | start i c =>
    cases h with
    | start _ _ hsh => exact start_traffic hsh
  | go i e =>
    obtain ⟨o, a⟩ := e
    obtain ⟨t, t', ht⟩ := took h
    obtain ⟨x, ha, hx⟩ := took_perform ht
    rw [ha, hx]
    exact perform_traffic x _ i
  | stop i =>
    cases h with
    | stop _ _ _ => exact .fewer (.refl _) (.refl _) nofun nofun
  | outside =>
    cases h with
    | outside hsh => exact outside_traffic hsh

/-- Where a task stands in the lane, and where it stands if it answers a request. -/
structure Placed (i : TaskIx) (t : LaneTask) : Prop where
  event : ∀ e n, t.cause = .event e n → i = .consumer
  commands : i = .commands → t.cause = .commands
  answering : (note t).Answers → (note t).phase.Answering

theorem start_cause {c : Cause} {sh sh' : Lane} (h : starts i c sh = some sh') :
    (∀ e n, c = .event e n → i = .consumer) ∧ (i = .commands → c = .commands) := by
  refine ⟨?_, ?_⟩
  · rintro e n rfl
    cases i <;> first | rfl | cases h
  · rintro rfl
    cases c <;> first | rfl | cases h

/-- Reading a command is the first thing that a task does, if it does so. -/
theorem at_start {a : LaneOp.Ans .xreadgroup} (hr : Reading cfg i t)
    (ht : Took (lane cfg gateId) s s' i .xreadgroup a t t') :
    i = .commands ∧ note t = .start t.cause := by
  obtain ⟨k, hrest, -⟩ := ht.asks
  rcases hr.rest with hunread | ⟨hpast, hi, -⟩
  · rw [hrest] at hunread
    exact absurd rfl hunread.1
  · exact ⟨hi, by rw [note, hpast, List.foldl_nil]⟩

/-- Who answers has answered before. -/
theorem answers_back (ho : o ≠ .xreadgroup) (ht : Took (lane cfg gateId) s s' i o a t t')
    (h : (note t').Answers) : (note t).Answers := by
  unfold Note.Answers at h ⊢
  rw [took_note ht, next_cause, next_command ho] at h
  exact h

theorem placed_step (hs : Sound cfg gateId s) (hreading : Each (fun _ => Reading cfg) s)
    (h : LaneStep cfg gateId s l s') (hplaced : Each (fun _ => Placed) s) :
    Each (fun _ => Placed) s' := by
  refine each_step h hplaced (fun i c _ hsh => ?_) (fun i o a t t' _ ht hi => ?_) fun _ _ _ _ h => h
  · obtain ⟨hevent, hcommands⟩ := start_cause hsh
    refine ⟨hevent, hcommands, fun hanswers => ?_⟩
    cases c with
    | timer u =>
      rcases hanswers with ⟨⟨e, n, hcause⟩, -⟩ | ⟨hcause, -⟩ <;> cases hcause
    | _ => trivial
  · refine ⟨fun e n hc => hi.event e n (ht.cause ▸ hc), fun hc => ht.cause ▸ hi.commands hc, ?_⟩
    intro hanswers
    by_cases ho : o = .xreadgroup
    · subst ho
      obtain ⟨rfl, hstart⟩ := at_start (hreading i t ht.before) ht
      have hcalm : (note t).phase = .calm := by
        rw [hstart, hi.commands rfl]
        rfl
      rw [took_note ht]
      have hnext : (Note.next (note t) .xreadgroup a).phase = (note t).phase := by
        cases a <;> rfl
      rw [hnext, hcalm]
      trivial
    · have hbefore := answers_back ho ht hanswers
      rw [took_note ht]
      exact (answering_next (ht.allow hs.protocol) hbefore (hi.answering hbefore)).1

/-- Who answers and is calm was calm before. -/
theorem calm_back (hs : Sound cfg gateId s) (hi : Placed i t) (ho : o ≠ .xreadgroup)
    (ht : Took (lane cfg gateId) s s' i o a t t') (hanswers : (note t').Answers)
    (hcalm : (note t').phase = .calm) : (note t).phase = .calm := by
  have hbefore := answers_back ho ht hanswers
  rw [took_note ht] at hcalm
  exact (answering_next (ht.allow hs.protocol) hbefore (hi.answering hbefore)).2 hcalm

theorem owed_next {g : Note} (h : (Note.next g o a).phase.awaits = some (st, n)) :
    g.phase.awaits = some (st, n) ∨
      (⟨o, a⟩ : Event LaneOp LaneOp.Ans) = ⟨.setState st, n⟩ := by
  generalize hp : (Note.next g o a).phase = p at h
  rcases next_phase hp with hsame | hshift
  · exact Or.inl (hsame ▸ h)
  · generalize (⟨o, a⟩ : Event LaneOp LaneOp.Ans) = e at hshift ⊢
    cases hshift with
    | requested => cases h; exact Or.inr rfl
    | read => cases h; exact Or.inr rfl
    | _ => cases h

theorem answers_of_event {e : GateEvent} (hr : Reading cfg i t) (hi : Placed i t)
    (hcause : t.cause = .event e n) : (note t).Answers := by
  refine Or.inl ⟨⟨e, n, (note_cause t).trans hcause⟩, ?_⟩
  by_contra hcommand
  cases (hr.command hcommand).symm.trans (hi.event e n hcause)

theorem answers_of_command {c : Command} (hr : Reading cfg i t) (hi : Placed i t)
    (hc : c ∈ (note t).command) (hopens : c.Opens) : (note t).Answers := by
  have hcommands : i = .commands := hr.command (by rw [hc]; nofun)
  exact Or.inr ⟨(note_cause t).trans (hi.commands hcommands), c, hc, hopens⟩

theorem fields_awaits {id : Nat} {c : RedisCommand} {text : String} {origin : Option Nat} :
    Command.awaits ⟨id, c.fields gateId text, origin⟩ =
      match c with
      | .printTicketThenOpen _ _ => some .processing
      | .openGate _ _ => some .validating
      | _ => none := by
  have htype : Command.type ⟨id, c.fields gateId text, origin⟩ = c.commandType :=
    c.get_commandType gateId text ""
  unfold Command.awaits
  rw [htype]
  cases c <;> rfl

/-- An answer that opens the gate is sent for a request, by a task that has not answered yet. -/
theorem answer_back {g : Note} {c : RedisCommand} {id : Nat} {text : String}
    (h : g.MayAnswer c n) (hst : Command.awaits ⟨id, c.fields gateId text, some n⟩ = some st) :
    c.Opens ∧ g.phase = .calm ∧ ∃ e, g.cause = .event e n ∧ e.awaits = some st := by
  rw [fields_awaits] at hst
  unfold Note.MayAnswer at h
  cases hcause : g.cause with
  | event e m =>
    rw [hcause] at h
    cases c with
    | printTicketThenOpen barcode gateName =>
      cases e with
      | ticketButtonPressed =>
        obtain ⟨rfl, hcalm⟩ := h
        exact ⟨trivial, hcalm, .ticketButtonPressed, rfl, hst⟩
      | _ => exact absurd trivial h.2
    | openGate duration reason =>
      cases e with
      | rfidCardRead card channel =>
        obtain ⟨rfl, hcalm⟩ := h
        exact ⟨trivial, hcalm, .rfidCardRead card channel, rfl, hst⟩
      | _ => exact absurd trivial h.2
    | _ => cases hst
  | _ =>
    rw [hcause] at h
    cases c <;> exact h.elim

/-- What every run keeps of the tasks that answer. -/
structure Served (cfg : Config) (gateId : String) (s : LaneSys) : Prop where
  sound : Sound cfg gateId s
  reading : Each (fun _ => Reading cfg) s
  placed : Each (fun _ => Placed) s
  asking : Each (fun _ => Asking) s

theorem served_step (h : LaneStep cfg gateId s l s') (hs : Served cfg gateId s) :
    Served cfg gateId s' :=
  ⟨sound_step h hs.sound, reading_step h hs.reading, placed_step hs.sound hs.reading h hs.placed,
    asking_step hs.sound h hs.asking⟩

theorem Served.commands (hs : Served cfg gateId s) (hi : s.task i = some t)
    (h : (note t).command ≠ none) : (note t).cause = .commands :=
  (note_cause t).trans ((hs.placed i t hi).commands ((hs.reading i t hi).command h))

end Steps
end ParkIt.GateIn
