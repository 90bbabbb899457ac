import ParkIt.GateIn.Handling

/-! What every run of the lane keeps: a task that has not waited knows the state of the gate. -/
namespace ParkIt.GateIn

open Effects ByteString Tasks Transition

/-- What the protocol notes of a task. -/
def note (t : LaneTask) : Note := t.past.foldl (fun g e => g.next e.op e.ans) (.start t.cause)

abbrev LaneStep (cfg : Config) (gateId : String) := Step (lane cfg gateId)

section Notes
variable {g : Note} {o : LaneOp} {a : o.Ans}

theorem Note.hindered_phase : g.hindered = { g with phase := g.hindered.phase } := by
  unfold Note.hindered
  split <;> rfl

/-- An operation after which what is known stays known. -/
def LaneOp.keeps : LaneOp → Bool
  | .setState _ => false
  | o => !o.waits

def LaneOp.sees : (o : LaneOp) → o.Ans → Option GateState
  | .state, st => some st
  | _, _ => none

def LaneOp.takes : LaneOp → Option Bytes
  | .taken msg => some msg
  | _ => none

def LaneOp.reads : (o : LaneOp) → o.Ans → Option Command
  | .xreadgroup, .message c => some c
  | _, _ => none

/-- What an operation makes of a note, the phase aside. -/
def Note.after (g : Note) (o : LaneOp) (a : o.Ans) (p : Phase) : Note where
  cause := g.cause
  command := (o.reads a).or g.command
  fresh := if o.keeps then g.fresh else (o.reads a).isSome
  frame := if o.keeps then o.takes.or g.frame else none
  seen := if o.keeps then (o.sees a).or g.seen else none
  phase := p

theorem next_after : Note.next g o a = g.after o a (Note.next g o a).phase := by
  have hite {c : Prop} [Decidable c] {x y : Note} (hx : x = g.after o a x.phase)
      (hy : y = g.after o a y.phase) :
      (if c then x else y) = g.after o a (if c then x else y).phase := by
    split
    · exact hx
    · exact hy
  have hhindered (h : g.after o a g.hindered.phase = { g with phase := g.hindered.phase }) :
      g.hindered = g.after o a g.hindered.phase := Note.hindered_phase.trans h.symm
  cases o with
  | connected => exact hite rfl (hhindered rfl)
  | loopTime | breaker => exact hite (hhindered rfl) rfl
  | write command => exact hite (hite rfl rfl) (hite (hhindered rfl) (hite rfl rfl))
  | spawn t => cases t <;> rfl
  | sleep d => cases d <;> rfl
  | hset => cases a <;> rfl
  | publish e eventId n => cases a <;> cases e <;> rfl
  | validatingTask | xreadgroup => cases a <;> rfl
  | publishCommand c n => cases c <;> rfl
  | _ => rfl

theorem next_known : (Note.next g o a).seen = (if o.keeps then (o.sees a).or g.seen else none) ∧
    (Note.next g o a).frame = if o.keeps then o.takes.or g.frame else none := by
  rw [next_after]
  exact ⟨rfl, rfl⟩

/-- The controller cannot be reached, or it does not take a command. -/
def Trouble : Event LaneOp LaneOp.Ans → Prop
  | ⟨.connected, ok⟩ => ok = false
  | ⟨.loopTime, now⟩ => now < 0
  | ⟨.breaker, b⟩ => 0 < b.openUntil
  | ⟨.write _, landed⟩ => landed = false
  | _ => False

/-- What moves a task from one phase to the next. -/
inductive Shift (g : Note) : Event LaneOp LaneOp.Ans → Phase → Prop
  | passing {n} : g.seen = some .opening → Shift g ⟨.setState .idle, n⟩ .passing
  | cleared {n} : g.seen ≠ some .opening → Shift g ⟨.setState .idle, n⟩ .calm
  | returned {n} : g.phase = .rejected → Shift g ⟨.setState .waitingInput, n⟩ .calm
  | detected {n} : g.phase ≠ .rejected → Shift g ⟨.setState .waitingInput, n⟩ .detected
  | requested {n} : Shift g ⟨.setState .processing, n⟩ (.requested n)
  | read {n} : Shift g ⟨.setState .validating, n⟩ (.read n)
  | opened {n} : Shift g ⟨.setState .opening, n⟩ (.opened n)
  | welcomed {e eventId n} : g.phase = .detected → Shift g ⟨.publish e eventId n, true⟩ .calm
  | asked {e eventId n m} : g.phase = .requested m → Shift g ⟨.publish e eventId n, true⟩ .calm
  | timed {e eventId n m} : g.phase = .read m → Shift g ⟨.publish e eventId n, true⟩ (.timed m)
  | armed {e eventId n m} : g.phase = .opened m → Shift g ⟨.publish e eventId n, true⟩ (.armed m)
  | passed {e eventId n} : g.phase = .passing → Shift g ⟨.publish e eventId n, true⟩ .passed
  | gaveUp {eventId n} : Shift g ⟨.publish .gateOpenFailed eventId n, true⟩ .over
  | unsaved : Shift g ⟨.hset, false⟩ .failed
  | untold {e eventId n} : Shift g ⟨.publish e eventId n, false⟩ .failed
  | held {n i} : Shift g ⟨.spawn (.validating n), i⟩ (.held i)
  | over {n i} : Shift g ⟨.spawn (.vehiclePass n), i⟩ .over
  | kept {i x} : Shift g ⟨.setValidatingTask i, x⟩ .calm
  | calling {i} : Shift g ⟨.validatingTask, some i⟩ (.calling i)
  | called {i x} : Shift g ⟨.cancel i, x⟩ .calm
  | taken {msg x} : Shift g ⟨.taken msg, x⟩ .calm
  | fired {command} : command.opens = true → Shift g ⟨.write command, true⟩ .fired
  | hindered {e} : g.phase = .passed → Trouble e → Shift g e .unclosed
  | closed : g.phase = .passed → Shift g ⟨.write .close1, true⟩ .closed
  | helped {x} : Shift g ⟨.sleep (.ms 10000), x⟩ .helped
  | rejected {seconds x} : Shift g ⟨.sleep (.text seconds), x⟩ .rejected
  | answered {c n x} : c.Opens → Shift g ⟨.publishCommand c n, x⟩ .answered

theorem hindered_shift {e : Event LaneOp LaneOp.Ans} (he : Trouble e) :
    g.hindered.phase = g.phase ∨ Shift g e g.hindered.phase := by
  unfold Note.hindered
  split
  · exact Or.inr (.hindered ‹_› he)
  · exact Or.inl rfl

theorem published_shift {e : GateEvent} {eventId : Option Nat} {n : Nat} :
    g.published = g.phase ∨ Shift g ⟨.publish e eventId n, true⟩ g.published := by
  unfold Note.published
  split
  · exact Or.inr (.welcomed ‹_›)
  · exact Or.inr (.asked ‹_›)
  · exact Or.inr (.timed ‹_›)
  · exact Or.inr (.armed ‹_›)
  · exact Or.inr (.passed ‹_›)
  · exact Or.inl rfl

theorem next_shift :
    (Note.next g o a).phase = g.phase ∨ Shift g ⟨o, a⟩ (Note.next g o a).phase := by
  cases o with
  | connected =>
    cases a with
    | true => exact Or.inl rfl
    | false => exact hindered_shift rfl
  | loopTime =>
    by_cases hnow : a < 0
    · rw [show Note.next g .loopTime a = g.hindered from if_pos hnow]
      exact hindered_shift hnow
    · exact Or.inl (congrArg Note.phase (if_neg hnow))
  | breaker =>
    by_cases hopen : 0 < a.openUntil
    · rw [show Note.next g .breaker a = g.hindered from if_pos hopen]
      exact hindered_shift hopen
    · exact Or.inl (congrArg Note.phase (if_neg hopen))
  | validatingTask =>
    cases a with
    | none => exact Or.inl rfl
    | some i => exact Or.inr .calling
  | cancel i => exact Or.inr .called
  | write command =>
    change (if _ then if _ then _ else _ else if _ then _ else if _ then _ else _ : Note).phase = _ ∨
      Shift g _ (if _ then if _ then _ else _ else if _ then _ else if _ then _ else _ : Note).phase
    split
    · rename_i hopens
      cases a with
      | true => exact Or.inr (.fired hopens)
      | false => exact Or.inl rfl
    · cases a with
      | false => exact hindered_shift rfl
      | true =>
        rw [if_neg (by decide)]
        split
        · rename_i hclose
          obtain ⟨rfl, hpassed⟩ := hclose
          exact Or.inr (.closed hpassed)
        · exact Or.inl rfl
  | setState st =>
    cases st with
    | idle =>
      by_cases hseen : g.seen = some .opening
      · rw [show (Note.next g (.setState .idle) a).phase = .passing from if_pos hseen]
        exact Or.inr (.passing hseen)
      · rw [show (Note.next g (.setState .idle) a).phase = .calm from if_neg hseen]
        exact Or.inr (.cleared hseen)
    | waitingInput =>
      by_cases hphase : g.phase = .rejected
      · rw [show (Note.next g (.setState .waitingInput) a).phase = .calm from if_pos hphase]
        exact Or.inr (.returned hphase)
      · rw [show (Note.next g (.setState .waitingInput) a).phase = .detected from if_neg hphase]
        exact Or.inr (.detected hphase)
    | processing => exact Or.inr .requested
    | validating => exact Or.inr .read
    | opening => exact Or.inr .opened
  | setValidatingTask i => exact Or.inr .kept
  | taken msg => exact Or.inr .taken
  | spawn t =>
    cases t with
    | validating n => exact Or.inr .held
    | vehiclePass n => exact Or.inr .over
  | sleep d =>
    cases d with
    | ms n =>
      change (if n = 10000 then _ else _) = _ ∨ Shift g _ (if n = 10000 then _ else _)
      split
      · rename_i hn
        subst hn
        exact Or.inr .helped
      · exact Or.inl rfl
    | seconds n => exact Or.inl rfl
    | text seconds => exact Or.inr .rejected
  | hset =>
    cases a with
    | true => exact Or.inl rfl
    | false => exact Or.inr .unsaved
  | publish e eventId n =>
    cases a with
    | false => exact Or.inr .untold
    | true =>
      cases e with
      | playAudio _ | helpButtonPressed | printFailedAlert => exact Or.inl rfl
      | gateOpenFailed => exact Or.inr .gaveUp
      | _ => exact published_shift
  | xreadgroup => cases a <;> exact Or.inl rfl
  | publishCommand c n =>
    cases c with
    | openGate _ _ | printTicketThenOpen _ _ => exact Or.inr (.answered trivial)
    | _ => exact Or.inl rfl
  | _ => exact Or.inl rfl

/-- A task stays in its phase, or it is moved on. -/
theorem next_phase {p : Phase} (h : (Note.next g o a).phase = p) :
    g.phase = p ∨ Shift g ⟨o, a⟩ p := by
  rcases next_shift (g := g) (o := o) (a := a) with hphase | hshift
  · exact Or.inl (hphase.symm.trans h)
  · exact Or.inr (h ▸ hshift)

theorem next_cause : (Note.next g o a).cause = g.cause := by
  rw [next_after]
  rfl

/-- Only the stream of commands brings a command. -/
theorem reads_eq_none (ho : o ≠ .xreadgroup) : o.reads a = none := by
  cases o with
  | xreadgroup => exact absurd rfl ho
  | _ => rfl

theorem next_command (ho : o ≠ .xreadgroup) : (Note.next g o a).command = g.command := by
  rw [next_after, Note.after, reads_eq_none ho]
  rfl

theorem next_fresh (ho : o ≠ .xreadgroup) :
    (Note.next g o a).fresh = if o.keeps then g.fresh else false := by
  rw [next_after, Note.after, reads_eq_none ho]
  rfl

theorem mayAct_timer {t : Timer} {st : GateState} (hcause : g.cause = .timer t) :
    g.MayAct st ↔ st = .idle ∧ g.phase = .due ∧ g.seen = some t.state := by
  rw [Note.MayAct, hcause]

theorem note_cause (t : LaneTask) : (note t).cause = t.cause := by
  have hfold : ∀ (past : List (Event LaneOp LaneOp.Ans)) (g : Note),
      (past.foldl (fun g e => Note.next g e.op e.ans) g).cause = g.cause := by
    intro past
    induction past with
    | nil => exact fun _ => rfl
    | cons e past ih => exact fun g => (ih _).trans next_cause
  exact hfold t.past _

end Notes

section Effects
variable {gateId : String} {o : LaneOp} {x : Oracle} {s s' : Lane}

/-- The state of the gate, and how often it has been written. -/
def Lane.mark (s : Lane) : GateState × Nat × (GateState → Nat) := (s.state, s.writes, s.entered)

/-- The timers that have been asked for or called off. -/
def Lane.alarms (s : Lane) : List (TaskId × Timer) × TaskId × List TaskId × Option TaskId :=
  (s.spawned, s.nextTask, s.cancelled, s.validatingTask)

/-- Events and commands come and go; the rest is as it was. -/
structure Carries (s s' : Lane) : Prop where
  mark : s'.mark = s.mark
  alarms : s'.alarms = s.alarms
  report : s'.report = s.report

def LaneOp.carries : LaneOp → Bool
  | .setState _ | .setValidatingTask _ | .spawn _ | .cancel _ | .taken _ => false
  | _ => true

theorem perform_carries (ho : o.carries = true) : Carries s (perform gateId o x s).2 := by
  cases o with
  | setState _ | setValidatingTask _ | spawn _ | cancel _ | taken _ => cases ho
  | publish e eventId n =>
    dsimp only [perform]
    split <;> exact ⟨rfl, rfl, rfl⟩
  | publishCommand c n =>
    dsimp only [perform]
    split <;> exact ⟨rfl, rfl, rfl⟩
  | xreadgroup =>
    dsimp only [perform]
    split
    · exact ⟨rfl, rfl, rfl⟩
    · dsimp only
      split <;> exact ⟨rfl, rfl, rfl⟩
  | _ => exact ⟨rfl, rfl, rfl⟩

theorem outside_carries (h : Outside s s') : Carries s s' := by
  cases h <;> exact ⟨rfl, rfl, rfl⟩

end Effects

/-- What a step changes. -/
inductive Change (s : Lane) : LaneLabel → Lane → Prop
  | carries {l s'} : Carries s s' → Change s l s'
  | started {k t s'} : (k, t) ∈ s.spawned → s' = { s with spawned := s.spawned.filter (·.1 ≠ k) } →
      Change s (.start (.timer k) (.timer t)) s'
  | wrote {i st s'} : s' = { s with
        state := st, writes := s.writes + 1
        entered := Function.update s.entered st (s.writes + 1) } →
      Change s (.go i ⟨.setState st, s.writes + 1⟩) s'
  | spawned {i t s'} : s' = { s with
        spawned := s.spawned ++ [(s.nextTask, t)], nextTask := s.nextTask + 1 } →
      Change s (.go i ⟨.spawn t, s.nextTask⟩) s'
  | held {i k s'} : s' = { s with validatingTask := some k } →
      Change s (.go i ⟨.setValidatingTask k, ()⟩) s'
  | cancelled {i k s'} : s' = { s with cancelled := k :: s.cancelled } →
      Change s (.go i ⟨.cancel k, ()⟩) s'
  | taken {i msg s'} : s' = { s with report := (in1Report msg).or s.report } →
      Change s (.go i ⟨.taken msg, ()⟩) s'

section Steps
variable {cfg : Config} {gateId : String} {s s' : LaneSys} {l : LaneLabel} {i j : TaskIx}
  {t t' u : LaneTask} {o : LaneOp} {a : o.Ans} {st : GateState} {n : Nat}

theorem busy_call {k : o.Ans → Work Unit} (h : t.rest = .call o k) :
    (lane cfg gateId).busy t.rest = !o.waits := by
  rw [h]
  rfl

theorem took_note (h : Took (lane cfg gateId) s s' i o a t t') : note t' = (note t).next o a :=
  h.note (moves cfg) Note.start

theorem took_perform (h : Took (lane cfg gateId) s s' i o a t t') :
    ∃ x, a = (perform gateId o x s.shared).1 ∧ s'.shared = (perform gateId o x s.shared).2 := by
  obtain ⟨x, hx⟩ := h.effect
  exact ⟨x, (congrArg Prod.fst hx).symm, (congrArg Prod.snd hx).symm⟩

theorem took_carries (h : Took (lane cfg gateId) s s' i o a t t') (ho : o.carries = true) :
    Carries s.shared s'.shared := by
  obtain ⟨x, -, hx⟩ := took_perform h
  exact hx ▸ perform_carries ho

theorem start_change {c : Cause} {sh sh' : Lane} (h : starts i c sh = some sh') :
    Change sh (.start i c) sh' := by
  unfold starts at h
  split at h
  · cases h; exact .carries ⟨rfl, rfl, rfl⟩
  · cases h; exact .carries ⟨rfl, rfl, rfl⟩
  · cases h; exact .carries ⟨rfl, rfl, rfl⟩
  · cases h; exact .carries ⟨rfl, rfl, rfl⟩
  · split at h
    · cases h; exact .started ‹_› rfl
    · cases h
  · split at h
    · cases h
    · split at h
      · cases h; exact .carries ⟨rfl, rfl, rfl⟩
      · cases h
  · cases h

theorem step_change (h : LaneStep cfg gateId s l s') : Change s.shared l s'.shared := by
  cases l with
  | start i c =>
    cases h with
    | start _ _ hsh => exact start_change hsh
  | go i e =>
    obtain ⟨o, a⟩ := e
    obtain ⟨t, t', ht⟩ := took h
    obtain ⟨x, ha, hx⟩ := took_perform ht
    cases o with
    | setState st => rw [ha]; exact .wrote hx
    | spawn t => rw [ha]; exact .spawned hx
    | setValidatingTask k => exact .held hx
    | cancel k => exact .cancelled hx
    | taken msg => exact .taken hx
    | _ => exact .carries (took_carries ht rfl)
  | stop i =>
    cases h with
    | stop _ _ _ => exact .carries ⟨rfl, rfl, rfl⟩
  | outside =>
    cases h with
    | outside hsh => exact .carries (outside_carries hsh)

/-- Only a write changes the state of the gate. -/
theorem mark_step (h : LaneStep cfg gateId s l s') (hl : ∀ i st n, l ≠ .go i ⟨.setState st, n⟩) :
    s'.shared.mark = s.shared.mark := by
  have hchange := step_change h
  generalize s'.shared = sh at hchange
  cases hchange with
  | carries hcarries => exact hcarries.mark
  | wrote _ => exact absurd rfl (hl _ _ _)
  | started _ hsh | spawned hsh | held hsh | cancelled hsh | taken hsh => rw [hsh]; rfl

theorem took_write {a : LaneOp.Ans (.setState st)}
    (h : Took (lane cfg gateId) s s' i (.setState st) a t t') :
    a = s.shared.writes + 1 ∧ s'.shared.state = st ∧ s'.shared.writes = s.shared.writes + 1 ∧
      s'.shared.entered = Function.update s.shared.entered st (s.shared.writes + 1) := by
  obtain ⟨x, ha, hx⟩ := took_perform h
  rw [hx]
  exact ⟨ha, rfl, rfl, rfl⟩

/-- While a task is in the middle of something, no other one changes the daemon. -/
theorem carries_of_busy (h : LaneStep cfg gateId s l s') (hs : OneBusy (lane cfg gateId) s)
    (hl : l.actor ≠ some j) (hu : s.task j = some u)
    (hbusy : (lane cfg gateId).busy u.rest = true) : Carries s.shared s'.shared := by
  have hrunning := hs j u hu hbusy
  cases h with
  | start _ hnone _ => exact absurd hrunning (by rw [hnone]; nofun)
  | go _ hfree _ _ => exact absurd (congrArg some (hfree j hrunning).symm) hl
  | stop _ hnone _ => exact absurd hrunning (by rw [hnone]; nofun)
  | outside hsh => exact outside_carries hsh

/-- What a task knows since its last wait. -/
def Knows (cfg : Config) (gateId : String) (sh : Lane) (_ : TaskIx) (t : LaneTask) : Prop :=
  (lane cfg gateId).busy t.rest = true →
    (∀ st, (note t).seen = some st → sh.state = st) ∧
    ∀ msg b, (note t).frame = some msg → in1Report msg = some b → sh.report = some b

theorem knows_took (h : Took (lane cfg gateId) s s' i o a t t')
    (ht : Knows cfg gateId s.shared i t) : Knows cfg gateId s'.shared i t' := by
  intro _
  obtain ⟨k, hrest, -⟩ := h.asks
  have hknown := next_known (g := note t) (o := o) (a := a)
  rw [← took_note h] at hknown
  by_cases hkeeps : o.keeps = true
  · rw [if_pos hkeeps, if_pos hkeeps] at hknown
    have hbusy : (lane cfg gateId).busy t.rest = true := by
      rw [busy_call hrest]
      cases o <;> first | rfl | cases hkeeps
    obtain ⟨hseen, hframe⟩ := ht hbusy
    obtain ⟨x, ha, hsh⟩ := took_perform h
    cases o with
    | setState _ => cases hkeeps
    | state =>
      rw [hsh]
      refine ⟨fun st hst => ?_, fun msg b hmsg hb => hframe msg b (hknown.2.symm.trans hmsg) hb⟩
      exact ha.symm.trans (Option.some.inj (hknown.1.symm.trans hst))
    | taken msg =>
      rw [hsh]
      refine ⟨fun st hst => hseen st (hknown.1.symm.trans hst), fun msg' b hmsg hb => ?_⟩
      cases hknown.2.symm.trans hmsg
      change (in1Report msg).or _ = _
      rw [hb]
      rfl
    | setValidatingTask _ | spawn _ | cancel _ =>
      rw [hsh]
      exact ⟨fun st hst => hseen st (hknown.1.symm.trans hst), fun msg b hmsg hb =>
        hframe msg b (hknown.2.symm.trans hmsg) hb⟩
    | _ =>
      have hcarries := took_carries h rfl
      refine ⟨fun st hst => ?_, fun msg b hmsg hb => ?_⟩
      · exact (congrArg Prod.fst hcarries.mark).trans (hseen st (hknown.1.symm.trans hst))
      · exact hcarries.report.trans (hframe msg b (hknown.2.symm.trans hmsg) hb)
  · rw [if_neg hkeeps, if_neg hkeeps] at hknown
    refine ⟨fun st hst => ?_, fun msg b hmsg => ?_⟩
    · cases hknown.1.symm.trans hst
    · cases hknown.2.symm.trans hmsg

theorem knows_step (h : LaneStep cfg gateId s l s') (hone : OneBusy (lane cfg gateId) s)
    (hs : Each (Knows cfg gateId) s) : Each (Knows cfg gateId) s' := by
  refine each_step h hs (fun i c _ _ _ => ?_) (fun i o a t t' _ ht hi => knows_took ht hi)
    fun j u hj hu hknows hbusy => ?_
  · exact ⟨(fun _ hst => nomatch hst), fun _ _ hmsg => nomatch hmsg⟩
  · obtain ⟨hseen, hframe⟩ := hknows hbusy
    have hcarries := carries_of_busy h hone hj hu hbusy
    exact ⟨fun st hst => (congrArg Prod.fst hcarries.mark).trans (hseen st hst),
      fun msg b hmsg hb => hcarries.report.trans (hframe msg b hmsg hb)⟩

/-- The write that the state of the gate comes from, and that no write is newer than the last. -/
structure Marked (s : Lane) : Prop where
  current : s.writes = 0 ∧ s.state = .idle ∨ s.entered s.state = s.writes
  entered : ∀ st, s.entered st ≤ s.writes

theorem marked_congr {s s' : Lane} (h : s'.mark = s.mark) (hs : Marked s) : Marked s' := by
  obtain ⟨hstate, hrest⟩ := Prod.mk.injEq .. ▸ h
  obtain ⟨hwrites, hentered⟩ := Prod.mk.injEq .. ▸ hrest
  constructor
  · rw [hstate, hwrites, hentered]
    exact hs.current
  · rw [hwrites, hentered]
    exact hs.entered

theorem marked_step (h : LaneStep cfg gateId s l s') (hs : Marked s.shared) :
    Marked s'.shared := by
  by_cases hl : ∃ i st n, l = .go i ⟨.setState st, n⟩
  · obtain ⟨i, st, n, rfl⟩ := hl
    obtain ⟨t, t', ht⟩ := took h
    obtain ⟨-, hstate, hwrites, hentered⟩ := took_write ht
    refine ⟨Or.inr ?_, fun st' => ?_⟩
    · rw [hstate, hwrites, hentered, Function.update_self]
    · rw [hwrites, hentered]
      by_cases hst : st' = st
      · rw [hst, Function.update_self]
      · rw [Function.update_of_ne hst]
        exact Nat.le_succ_of_le (hs.entered st')
  · exact marked_congr (mark_step h fun i st n heq => hl ⟨i, st, n, heq⟩) hs

/-- What every run of the lane keeps. -/
structure Sound (cfg : Config) (gateId : String) (s : LaneSys) : Prop where
  protocol : InProtocol (moves cfg) Note.start (fun _ g => g.Finished cfg) s
  one : OneBusy (lane cfg gateId) s
  knows : Each (Knows cfg gateId) s
  marked : Marked s.shared

theorem sound_step (h : LaneStep cfg gateId s l s') (hs : Sound cfg gateId s) :
    Sound cfg gateId s' where
  protocol := inProtocol_step (follows_code cfg) (fun _ _ _ _ => trivial) h hs.protocol
  one := oneBusy_step h hs.one
  knows := knows_step h hs.one hs.knows
  marked := marked_step h hs.marked

theorem sound_start {sh : Lane} (h : Marked sh) : Sound cfg gateId { shared := sh } where
  protocol _ _ h := nomatch h
  one _ _ h := nomatch h
  knows _ _ h := nomatch h
  marked := h

theorem marked_start : Marked {} := ⟨Or.inl ⟨rfl, rfl⟩, fun _ => Nat.le_refl 0⟩

/-- A task that has come to its end has nothing left to do. -/
theorem Sound.finished (hs : Sound cfg gateId s) (hi : s.task i = some t)
    (hended : ended t.rest = true) : (note t).Finished cfg := by
  have hfollows := hs.protocol i t hi
  cases hrest : t.rest with
  | call o k =>
    rw [hrest] at hended
    cases hended
  | _ =>
    rw [hrest] at hfollows
    exact hfollows

/-- A task that writes the state does what the protocol allows, on what it has seen. -/
theorem Sound.write {a : LaneOp.Ans (.setState st)} (hs : Sound cfg gateId s)
    (h : Took (lane cfg gateId) s s' i (.setState st) a t t') :
    (note t).MayWrite st ∧ ∀ st₀, (note t).seen = some st₀ → s.shared.state = st₀ := by
  obtain ⟨k, hrest, -⟩ := h.asks
  exact ⟨h.allow hs.protocol, (hs.knows i t h.before (by rw [hrest]; rfl)).1⟩

end Steps

section Schedules

/-- The lane before anything has happened. -/
def boot : LaneSys := { shared := {} }

/-- A task goes on, as long as it gets the same answers. -/
def goes (i : TaskIx) (n : Nat) (x : Oracle := {}) : List LaneTurn := List.replicate n (.go i x)

/-- A command from outside. -/
def command (fields : Fields) : LaneTurn := .outside fun s => s.enqueue fields none

/-- Only commands come from outside. -/
def Commanded (xs : List LaneTurn) : Prop :=
  ∀ f, .outside f ∈ xs → ∃ fields, f = fun s => s.enqueue fields none

@[simp] theorem commanded_nil : Commanded [] := fun _ h => nomatch h

@[simp] theorem commanded_command {fields : Fields} {xs : List LaneTurn} :
    Commanded (command fields :: xs) ↔ Commanded xs := by
  refine ⟨fun h f hf => h f (List.mem_cons_of_mem _ hf), fun h f hf => ?_⟩
  rcases List.mem_cons.mp hf with hf | hf
  · exact ⟨fields, Turn.outside.inj hf⟩
  · exact h f hf

@[simp] theorem commanded_start {i : TaskIx} {c : Cause} {xs : List LaneTurn} :
    Commanded (.start i c :: xs) ↔ Commanded xs := by
  simp [Commanded]

@[simp] theorem commanded_stop {i : TaskIx} {xs : List LaneTurn} :
    Commanded (.stop i :: xs) ↔ Commanded xs := by
  simp [Commanded]

@[simp] theorem commanded_goes {i : TaskIx} {n : Nat} {x : Oracle} : Commanded (goes i n x) := by
  intro f hf
  cases List.eq_of_mem_replicate hf

@[simp] theorem commanded_append {xs ys : List LaneTurn} :
    Commanded (xs ++ ys) ↔ Commanded xs ∧ Commanded ys := by
  simp only [Commanded, List.mem_append]
  exact ⟨fun h => ⟨fun f hf => h f (Or.inl hf), fun f hf => h f (Or.inr hf)⟩,
    fun h f hf => hf.elim (h.1 f) (h.2 f)⟩

theorem commanded_path {cfg : Config} {gateId : String} {s : LaneSys} {xs : List LaneTurn}
    (h : Commanded xs) : Path (LaneStep cfg gateId) s (takeTurns (lane cfg gateId) s xs) := by
  refine takeTurns_path _ fun f hf sh => ?_
  obtain ⟨fields, rfl⟩ := h f hf
  exact .command fields

end Schedules
end ParkIt.GateIn
