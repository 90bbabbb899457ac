import ParkIt.GateIn.Barrier
import ParkIt.GateIn.Requests

/-! An input is taken only while the controller reports a vehicle. -/
namespace ParkIt.GateIn

open Effects ByteString Tasks Transition

/-- A push event reports that no vehicle is there. -/
def saysOff (msg : Bytes) : Bool :=
  decide (in1Report msg = some false) && has (decode msg) "IN1OFF"

/-- A task that has taken up such a frame does not wait until it has seen that the gate does not
wait for an input, or has reset it. -/
def leaving : Protocol LaneOp LaneOp.Ans Bool where
  allow off o :=
    off = true →
      o.waits = false ∧ (∀ msg, o ≠ .taken msg) ∧ ∀ st, o = .setState st → st = .idle
  expect _ _ _ := True
  next off o a :=
    match o, a with
    | .taken msg, _ => saysOff msg
    | .state, st => off && decide (st = .waitingInput)
    | .setState _, _ => false
    | _, _ => off

def Leaves {α : Type} (off : Bool) (p : Work α) : Prop :=
  Follows leaving off p (fun off' _ => off' = false) fun off' _ => off' = false

/-- No frame is taken off the buffer. -/
abbrev Untaken {α : Type} (p : Work α) : Prop :=
  Only (fun o => ∀ msg, o ≠ .taken msg) (fun _ => True) p

section Rules
variable {cfg : Config} {α : Type} {p q : Work α}

theorem Inner.untaken (h : Inner p) : Untaken p :=
  h.mono (fun o ho msg heq => by rw [heq] at ho; exact ho) fun _ h => h

theorem Untaken.leaves (h : Untaken p) : Leaves false p := by
  have hstill : Follows leaving false p (fun off _ => off = false) fun off _ => off = false ∧ True := by
    refine h.follows fun o ho => ⟨fun hoff => absurd hoff Bool.false_ne_true, fun a => ?_⟩
    cases o with
    | taken msg => exact absurd rfl (ho msg)
    | _ => rfl
  exact hstill.mono (fun _ _ h => h) fun _ _ h => h.1

theorem leaves_inner (h : Inner p) : Leaves false p := h.untaken.leaves

theorem Leaves.bind {β : Type} {f : α → Work β} {off : Bool} (hp : Leaves off p)
    (hf : ∀ a, Leaves false (f a)) : Leaves off (p >>= f) := by
  refine Follows.bind hp (fun _ _ h => h) fun off' a h => ?_
  subst h
  exact hf a

theorem leaves_then {o : LaneOp} {f : o.Ans → Work α} (ho : ∀ msg, o ≠ .taken msg)
    (hf : ∀ a, Leaves false (f a)) : Leaves false (ask o >>= f) :=
  (Untaken.leaves (only_perform ho)).bind hf

theorem Leaves.ite {c : Prop} [Decidable c] {off : Bool} (hp : Leaves off p) (hq : Leaves off q) :
    Leaves off (if c then p else q) := by
  split
  · exact hp
  · exact hq

theorem Leaves.attempt {off : Bool} (hp : Leaves off p) (hq : Leaves false q) :
    Leaves off (attempt p q) := by
  refine follows_handle.mpr (Follows.mono hp (fun _ _ h => h) fun off' _ h => ?_)
  subst h
  exact hq

theorem follows_still (command : ControllerCommand) :
    Follows leaving true (send command) (fun off _ => off = true) fun _ _ => False := by
  have hstill : Follows leaving true (sendControllerCommand command) (fun off _ => off = true)
      fun off _ => off = true ∧ False := by
    refine (only_send command).follows fun o ho => ?_
    cases o <;> first | exact ho.elim | exact ⟨fun _ => ⟨rfl, nofun, nofun⟩, fun _ => rfl⟩
  exact hstill.bind (fun _ _ h => h.2) fun off _ h => h

theorem in1Report_eq {msg : Bytes} {b : Bool} (h : in1Report msg = some b) :
    ¬ confirms (decode msg) = true ∧ b = (parseStat msg).in1 := by
  unfold in1Report at h
  dsimp only at h
  split at h
  · cases h
  · split at h
    · exact ⟨‹_›, (Option.some.inj h).symm⟩
    · cases h

/-- Of an IN1OFF the listener makes an idle gate, where it was waiting for an input. -/
theorem leaves_dispatch (cfg : Config) (msg : Bytes) :
    Leaves (saysOff msg) (dispatchRssMessage cfg msg) := by
  cases hoff : saysOff msg with
  | false => exact leaves_inner (composed_dispatch cfg msg).inner
  | true =>
    obtain ⟨hreport, hoff⟩ := Bool.and_eq_true .. ▸ hoff
    have hreport := of_decide_eq_true hreport
    obtain ⟨hconfirms, -⟩ := in1Report_eq hreport
    have hon : ¬ has (decode msg) "IN1ON" = true := fun hon => by
      cases hreport.symm.trans (in1Report_on hconfirms hon)
    unfold dispatchRssMessage
    dsimp only
    rw [if_neg hconfirms, if_neg hon, if_pos hoff]
    have hpass : Leaves false (ask .state >>= fun st =>
        if st = .opening then onVehiclePassed cfg else pure ()) :=
      leaves_inner (composed_check (composed_onVehiclePassed cfg) (.pure _)).inner
    refine ⟨fun _ => ⟨rfl, nofun, nofun⟩, fun _ _ => (follows_still _).bind (fun _ _ h => h.elim) ?_⟩
    rintro _ _ rfl
    refine ⟨fun _ => ⟨rfl, nofun, nofun⟩, fun st _ => ?_⟩
    change Follows leaving (true && decide (st = .waitingInput)) (if _ then _ else _) _ _
    split
    · rename_i hst
      subst hst
      have hrest (n : Nat) : Leaves false (do
          let _ ← (do persistState; pure n)
          display cfg "" "") := by
        refine leaves_inner (Only.bind ?_ fun _ => (composed_display cfg "" "").inner)
        exact composed_persistState.inner.bind fun _ => only_pure
      exact ⟨fun _ => ⟨rfl, nofun, fun st h => by cases h; rfl⟩, fun n _ => hrest n⟩
    · rename_i hst
      rw [decide_eq_false hst]
      exact hpass

theorem leaves_processRssBuffer (n : Nat) (buffer : Bytes) :
    Leaves false (processRssBuffer cfg n buffer) := by
  induction n generalizing buffer with
  | zero => exact rfl
  | succ n ih =>
    unfold processRssBuffer
    split
    · exact rfl
    · split
      · exact rfl
      · exact rfl
      · refine ⟨fun hoff => absurd hoff Bool.false_ne_true, fun _ _ => ?_⟩
        exact (leaves_dispatch cfg _).bind fun _ => ih _

theorem leaves_rssListener (cfg : Config) : Leaves false (rssListener cfg) := by
  refine Leaves.attempt (leaves_then nofun fun _ => Leaves.ite ?_ ?_)
    (Untaken.leaves (only_perform nofun))
  · refine leaves_then nofun fun _ => leaves_then nofun fun chunk => ?_
    cases chunk with
    | none => exact rfl
    | some chunk =>
      refine Leaves.ite ?_ rfl
      refine leaves_then nofun fun _ => leaves_then nofun fun _ => ?_
      exact (leaves_processRssBuffer _ _).bind fun _ => Untaken.leaves (only_perform nofun)
  · refine leaves_inner (inner_then trivial fun _ => inner_then trivial fun _ =>
      inner_then trivial fun _ => inner_then trivial fun _ => Inner.ite ?_ ?_)
    · exact inner_setupRss.bind fun _ => inner_then trivial fun _ => inner_ask trivial
    · exact inner_then trivial fun _ => inner_then trivial fun _ => inner_ask trivial

/-- Only the listener takes frames off the buffer. -/
theorem leaves_code (cfg : Config) (c : Cause) : Leaves false (c.code cfg) := by
  cases c with
  | rss => exact leaves_rssListener cfg
  | commands =>
    refine Leaves.attempt (leaves_then nofun fun a => ?_) (Untaken.leaves (only_perform nofun))
    cases a with
    | failed => exact rfl
    | nothing => exact rfl
    | message c => exact leaves_inner (composed_processCommand cfg c.id c.fields).inner
  | serial =>
    refine leaves_inner (Inner.attempt (inner_then trivial fun raw => ?_) (inner_ask trivial))
    cases raw with
    | none => exact inner_raise
    | some raw =>
      refine Inner.ite (inner_then trivial fun _ => Inner.ite ?_ only_pure) only_pure
      exact (composed_onRfidCardRead _ _).inner
  | heartbeat =>
    refine leaves_inner (inner_then trivial fun _ => inner_then trivial fun _ => ?_)
    exact Inner.ite (composed_send rfl).inner only_pure
  | timer t =>
    cases t with
    | validating n =>
      exact leaves_inner (inner_then trivial fun _ =>
        (composed_check (composed_idle cfg) (.pure _)).inner)
    | vehiclePass n =>
      exact leaves_inner (inner_then trivial fun _ =>
        (composed_check (composed_onVehiclePassed cfg) (.pure _)).inner)
  | event e n => exact leaves_inner (composed_handleMessage e n).inner

end Rules

/-- The number of the write that has taken an input, until it is published. -/
def Phase.input : Phase → Option Nat
  | .requested n | .read n => some n
  | _ => none

/-- A request, by the number of the write that has taken the input. -/
def requestOf : LaneLabel → Option Nat
  | .go _ ⟨.publish e _ n, _⟩ => if e.requests then some n else none
  | _ => none

/-- The writes that have taken an input while the last IN1 report was ON. -/
def attended (ns : List Nat) (s : LaneSys) : LaneLabel → List Nat
  | .go _ ⟨.setState .processing, n⟩ | .go _ ⟨.setState .validating, n⟩ =>
    if s.shared.report = some true then n :: ns else ns
  | _ => ns

/-- The task that makes the gate wait for an input. -/
def waitsFor : LaneLabel → Option TaskIx
  | .go i ⟨.setState .waitingInput, _⟩ => some i
  | _ => none

/-- The frame that is taken up. -/
def takenUp : LaneLabel → Option Bytes
  | .go _ ⟨.taken msg, _⟩ => some msg
  | _ => none

/-- Where no task is in the middle of something, a gate that waits for an input has a vehicle; a
request comes from an input that was taken when there was one. -/
def InputAttended (p : LaneSys × List Nat) (l : LaneLabel) (q : LaneSys × List Nat) : Prop :=
  (q.1.running = none → q.1.shared.state = .waitingInput → q.1.shared.report = some true) ∧
    ∀ n ∈ requestOf l, n ∈ p.2

instance (p : LaneSys × List Nat) (l : LaneLabel) (q : LaneSys × List Nat) :
    Decidable (InputAttended p l q) :=
  inferInstanceAs (Decidable ((_ = none → _ → _) ∧ ∀ n ∈ requestOf l, _))

/-- A command makes the gate wait only while the last IN1 report is ON, and while it waits no
frame but an IN1OFF reports that the vehicle has left. -/
def Sighted (s : LaneSys) (l : LaneLabel) : Prop :=
  (∀ i ∈ waitsFor l, i ≠ .rss → s.shared.report = some true) ∧
    ∀ msg ∈ takenUp l, s.shared.state = .waitingInput → in1Report msg = some false →
      has (decode msg) "IN1OFF" = true

instance (s : LaneSys) (l : LaneLabel) : Decidable (Sighted s l) :=
  inferInstanceAs (Decidable ((∀ i ∈ waitsFor l, _ → _) ∧ ∀ msg ∈ takenUp l, _ → _ → _))

/-- Has the task taken up an IN1OFF that it has still to act on? -/
def off (t : LaneTask) : Bool := t.note leaving fun _ => false

/-- What is known of every task: who listens, and that a rejection is a command's. -/
structure Told (i : TaskIx) (t : LaneTask) : Prop where
  listens : t.cause = .rss → i = .rss
  rejects : (note t).phase = .rejected → (note t).command ≠ none

/-- What every run of the lane keeps whose steps are sighted. -/
structure Watched (cfg : Config) (gateId : String) (s : LaneSys) : Prop where
  sound : Sound cfg gateId s
  leaving : InProtocol leaving (fun _ => false) (fun _ off => off = false) s
  reading : Each (fun _ => Reading cfg) s
  told : Each (fun _ => Told) s
  present : s.shared.state = .waitingInput →
    s.shared.report = some true ∨ ∃ t, s.task .rss = some t ∧ off t = true

/-- Every request on its way comes from an input that was attended. -/
def Answering (ns : List Nat) (s : LaneSys) : Prop :=
  ∀ i t, s.task i = some t → ∀ n ∈ (note t).phase.input, n ∈ ns

section Notes
variable {g : Note} {o : LaneOp} {a : o.Ans} {n : Nat}

theorem input_next (h : (Note.next g o a).phase.input = some n) :
    g.phase.input = some n ∨
      ∃ st, (⟨o, a⟩ : Event LaneOp LaneOp.Ans) = ⟨.setState st, n⟩ ∧
        (st = .processing ∨ st = .validating) := by
  generalize hp : (Note.next g o a).phase = p at h
  rcases next_phase hp with hphase | hshift
  · exact Or.inl (hphase ▸ h)
  · generalize (⟨o, a⟩ : Event LaneOp LaneOp.Ans) = e at hshift
    cases hshift with
    | requested => cases h; exact Or.inr ⟨_, rfl, Or.inl rfl⟩
    | read => cases h; exact Or.inr ⟨_, rfl, Or.inr rfl⟩
    | _ => cases h

theorem rejected_next (h : (Note.next g o a).phase = .rejected) :
    g.phase = .rejected ∨ ∃ seconds, o = .sleep (.text seconds) := by
  rcases next_phase h with hphase | hshift
  · exact Or.inl hphase
  · generalize he : (⟨o, a⟩ : Event LaneOp LaneOp.Ans) = e at hshift
    cases hshift with
    | rejected => cases he; exact Or.inr ⟨_, rfl⟩

end Notes

section Steps
variable {cfg : Config} {gateId : String} {s s' : LaneSys} {l : LaneLabel} {i : TaskIx}
  {o : LaneOp} {a : o.Ans} {t t' : LaneTask} {ns : List Nat}

theorem start_rss {sh sh' : Lane} (h : starts i .rss sh = some sh') : i = .rss := by
  cases i <;> first | rfl | cases h

theorem off_next (h : Took (lane cfg gateId) s s' i o a t t') :
    off t' = leaving.next (off t) o a := h.note leaving fun _ => false

/-- A task that is on its way to act on an IN1OFF does not wait. -/
theorem off_busy (hs : InProtocol leaving (fun _ => false) (fun _ off => off = false) s)
    (ht : s.task i = some t) (hoff : off t = true) : (lane cfg gateId).busy t.rest = true := by
  have hfollows := hs i t ht
  rw [show t.note leaving (fun _ => false) = true from hoff] at hfollows
  cases hrest : t.rest with
  | pure a => rw [hrest] at hfollows; cases hfollows
  | throw e => rw [hrest] at hfollows; cases hfollows
  | call o k =>
    rw [hrest] at hfollows
    have hwaits := (hfollows.1 rfl).1
    change (!o.waits) = true
    rw [hwaits]
    rfl

theorem told_step (hs : Sound cfg gateId s) (hreading : Each (fun _ => Reading cfg) s)
    (h : LaneStep cfg gateId s l s') (htold : Each (fun _ => Told) s) :
    Each (fun _ => Told) s' := by
  refine each_step h htold (fun i c _ hsh => ?_) (fun i o a t t' _ ht hi => ?_) fun _ _ _ _ h => h
  · refine ⟨fun hc => ?_, fun hrejected => ?_⟩
    · have hc : c = .rss := hc
      subst hc
      exact start_rss hsh
    · cases c <;> cases hrejected
  · refine ⟨fun hc => hi.listens (ht.cause ▸ hc), fun hrejected => ?_⟩
    rw [took_note ht] at hrejected ⊢
    rcases rejected_next hrejected with hbefore | ⟨seconds, rfl⟩
    · have hread := (hreading i t ht.before).not_read ht (by rw [hbefore]; nofun)
        (by rw [hbefore]; nofun)
      rw [next_command hread]
      exact hi.rejects hbefore
    · obtain ⟨c, hc, -⟩ := (ht.allow hs.protocol).2
      change (note t).command ≠ none
      intro hnone
      cases hnone.symm.trans hc

theorem report_step (h : LaneStep cfg gateId s l s') (hl : ∀ i msg x, l ≠ .go i ⟨.taken msg, x⟩) :
    s'.shared.report = s.shared.report := by
  have hchange := step_change h
  generalize s'.shared = sh at hchange
  cases hchange with
  | carries hcarries => exact hcarries.report
  | taken _ => exact absurd rfl (hl _ _ _)
  | started _ hsh | wrote hsh | spawned hsh | held hsh | cancelled hsh => rw [hsh]

/-- The listener makes the gate wait for an input when an IN1ON is taken up. -/
theorem Watched.detected {n : Nat} (hs : Watched cfg gateId s)
    (ht : Took (lane cfg gateId) s s' .rss (.setState .waitingInput) n t t') :
    s.shared.report = some true := by
  obtain ⟨k, hrest, -⟩ := ht.asks
  have hno (hcommand : (note t).command ≠ none) : False := by
    cases (hs.reading .rss t ht.before).command hcommand
  cases (hs.sound.write ht).1.reason with
  | detected _ hsays =>
    rcases hsays with ⟨msg, hmsg, hon⟩ | ⟨-, c, hc, -⟩
    · exact (hs.sound.knows .rss t ht.before (by rw [hrest]; rfl)).2 msg true hmsg hon
    · exact (hno fun hnone => by cases hnone.symm.trans hc).elim
  | rejected hrejected => exact (hno ((hs.told .rss t ht.before).rejects hrejected)).elim

/-- A frame that is taken up while the gate waits for an input. -/
theorem Watched.taken {msg : Bytes} (hs : Watched cfg gateId s)
    (ht : Took (lane cfg gateId) s s' i (.taken msg) () t t')
    (hwaits : s.shared.state = .waitingInput) :
    i = .rss ∧ s.shared.report = some true := by
  have hcause : (note t).cause = .rss := (ht.allow hs.sound.protocol).1
  have hi := (hs.told i t ht.before).listens ((note_cause t).symm.trans hcause)
  refine ⟨hi, (hs.present hwaits).resolve_right ?_⟩
  rintro ⟨u, hu, hoff⟩
  subst hi
  cases ht.before.symm.trans hu
  exact (ht.allow hs.leaving hoff).2.1 msg rfl

theorem off_step (hone : OneBusy (lane cfg gateId) s)
    (hleaving : InProtocol leaving (fun _ => false) (fun _ off => off = false) s)
    (h : LaneStep cfg gateId s l s')
    (hwrite : ∀ i st n, l ≠ .go i ⟨.setState st, n⟩)
    (htaken : ∀ i msg x, l ≠ .go i ⟨.taken msg, x⟩) (hwaits : s.shared.state = .waitingInput)
    (ht : s.task .rss = some t) (hoff : off t = true) :
    ∃ t', s'.task .rss = some t' ∧ off t' = true := by
  have hrunning := hone .rss t ht (off_busy hleaving ht hoff)
  cases l with
  | start i c =>
    cases h with
    | start _ hnone _ => cases hrunning.symm.trans hnone
  | stop i =>
    cases h with
    | stop _ hnone _ => cases hrunning.symm.trans hnone
  | outside =>
    cases h with
    | outside _ => exact ⟨t, ht, hoff⟩
  | go i e =>
    obtain ⟨o, a⟩ := e
    obtain ⟨u, u', hu⟩ := took h
    have hi := hu.free .rss hrunning
    subst hi
    cases hu.before.symm.trans ht
    refine ⟨u', hu.after, ?_⟩
    rw [off_next hu, hoff]
    cases o with
    | setState st => exact absurd rfl (hwrite _ _ _)
    | taken msg => exact absurd rfl (htaken _ _ _)
    | state =>
      obtain ⟨x, ha, -⟩ := took_perform hu
      rw [ha]
      exact decide_eq_true hwaits
    | _ => rfl

theorem present_step (hs : Watched cfg gateId s) (h : LaneStep cfg gateId s l s')
    (hl : Sighted s l) (hwaits : s'.shared.state = .waitingInput) :
    s'.shared.report = some true ∨ ∃ t, s'.task .rss = some t ∧ off t = true := by
  by_cases hwrite : ∃ i st n, l = .go i ⟨.setState st, n⟩
  · obtain ⟨i, st, n, rfl⟩ := hwrite
    obtain ⟨t, t', ht⟩ := took h
    obtain ⟨-, hstate, -, -⟩ := took_write ht
    cases hstate.symm.trans hwaits
    rw [report_step h nofun]
    by_cases hi : i = .rss
    · subst hi
      exact Or.inl (hs.detected ht)
    · exact Or.inl (hl.1 i rfl hi)
  have hwrite : ∀ i st n, l ≠ .go i ⟨.setState st, n⟩ := fun i st n heq => hwrite ⟨i, st, n, heq⟩
  have hwaited : s.shared.state = .waitingInput :=
    (congrArg Prod.fst (mark_step h hwrite)).symm.trans hwaits
  by_cases htaken : ∃ i msg x, l = .go i ⟨.taken msg, x⟩
  · obtain ⟨i, msg, x, rfl⟩ := htaken
    obtain ⟨t, t', ht⟩ := took h
    obtain ⟨rfl, hreport⟩ := hs.taken ht hwaited
    obtain ⟨y, -, hshared⟩ := took_perform ht
    rw [hshared]
    change (in1Report msg).or _ = _ ∨ _
    cases hsays : in1Report msg with
    | none => exact Or.inl hreport
    | some b =>
      cases b with
      | true => exact Or.inl rfl
      | false =>
        refine Or.inr ⟨t', ht.after, ?_⟩
        rw [off_next ht]
        have hoff := hl.2 msg rfl hwaited hsays
        exact Bool.and_eq_true .. ▸ ⟨decide_eq_true hsays, hoff⟩
  have htaken : ∀ i msg x, l ≠ .go i ⟨.taken msg, x⟩ := fun i msg x heq =>
    htaken ⟨i, msg, x, heq⟩
  rw [report_step h htaken]
  rcases hs.present hwaited with hreport | ⟨t, ht, hoff⟩
  · exact Or.inl hreport
  · exact Or.inr (off_step hs.sound.one hs.leaving h hwrite htaken hwaited ht hoff)

theorem watched_step (hs : Watched cfg gateId s) (h : LaneStep cfg gateId s l s')
    (hl : Sighted s l) : Watched cfg gateId s' where
  sound := sound_step h hs.sound
  leaving := inProtocol_step (L := lane cfg gateId) (leaves_code cfg) (fun _ _ _ _ => trivial) h
    hs.leaving
  reading := reading_step h hs.reading
  told := told_step hs.sound hs.reading h hs.told
  present := present_step hs h hl

theorem watched_start {st : GateState} (hst : st ≠ .waitingInput) :
    Watched cfg gateId { shared := { state := st } } where
  sound := sound_start ⟨Or.inr rfl, fun _ => Nat.le_refl 0⟩
  leaving _ _ h := by cases h
  reading _ _ h := by cases h
  told _ _ h := by cases h
  present h := absurd h hst

theorem Watched.quiet (hs : Watched cfg gateId s) (hrunning : s.running = none)
    (hwaits : s.shared.state = .waitingInput) : s.shared.report = some true := by
  refine (hs.present hwaits).resolve_right ?_
  rintro ⟨t, ht, hoff⟩
  cases hrunning.symm.trans (hs.sound.one .rss t ht (off_busy hs.leaving ht hoff))

/-- An input is taken while the last IN1 report is ON. -/
theorem Watched.input {st : GateState} {n : Nat} (hs : Watched cfg gateId s)
    (ht : Took (lane cfg gateId) s s' i (.setState st) n t t')
    (hst : st = .processing ∨ st = .validating) : s.shared.report = some true := by
  obtain ⟨hmay, hseen⟩ := hs.sound.write ht
  refine (hs.present (hseen _ (hmay.input hst).1)).resolve_right ?_
  rintro ⟨u, hu, hoff⟩
  have hi := ht.free .rss (hs.sound.one .rss u hu (off_busy hs.leaving hu hoff))
  subst hi
  cases ht.before.symm.trans hu
  have hidle := (ht.allow hs.leaving hoff).2.2 st rfl
  subst hidle
  rcases hst with hst | hst <;> cases hst

theorem attended_subset : ns ⊆ attended ns s l := by
  unfold attended
  split
  · split
    · exact List.subset_cons_self ..
    · exact List.Subset.refl _
  · split
    · exact List.subset_cons_self ..
    · exact List.Subset.refl _
  · exact List.Subset.refl _

theorem attended_input {st : GateState} {n : Nat} (hst : st = .processing ∨ st = .validating)
    (hreport : s.shared.report = some true) :
    attended ns s (.go i ⟨.setState st, n⟩) = n :: ns := by
  rcases hst with rfl | rfl
  · exact if_pos hreport
  · exact if_pos hreport

theorem answering_step (hs : Watched cfg gateId s) (h : LaneStep cfg gateId s l s')
    (hns : Answering ns s) : Answering (attended ns s l) s' := by
  intro j u hu n hn
  rcases task_back h hu with ⟨hu, -⟩ | ⟨c, -, -, rfl⟩ | ⟨o, a, t, rfl, ht⟩
  · exact attended_subset (hns j u hu n hn)
  · cases c <;> cases hn
  · rw [took_note ht] at hn
    rcases input_next hn with hbefore | ⟨st, he, hst⟩
    · exact attended_subset (hns j t ht.before n hbefore)
    · cases he
      rw [attended_input hst (hs.input ht hst)]
      exact List.mem_cons_self

theorem requested_step (hs : Sound cfg gateId s) (h : LaneStep cfg gateId s l s')
    (hns : Answering ns s) : ∀ n ∈ requestOf l, n ∈ ns := by
  intro n hn
  unfold requestOf at hn
  split at hn
  · rename_i i e eventId m ok
    split at hn
    · rename_i hrequests
      cases hn
      obtain ⟨t, t', ht⟩ := took h
      have hmay : (note t).MayPublish e n := ht.allow hs.protocol
      refine hns i t ht.before n ?_
      cases e with
      | ticketButtonPressed | rfidCardRead _ _ => exact congrArg Phase.input hmay
      | _ => cases hrequests
    · cases hn
  · cases hn

/-- In a run whose steps are all sighted, every input is attended. -/
theorem input_attended (cfg : Config) (gateId : String) {st : GateState}
    (hst : st ≠ .waitingInput) {xs : List (LaneLabel × LaneSys)}
    (h : Path (LaneStep cfg gateId) { shared := { state := st } } xs)
    (hsighted : Path (fun s l _ => Sighted s l) { shared := { state := st } } xs) :
    Path InputAttended ({ shared := { state := st } }, [])
      (noted attended { shared := { state := st } } [] xs) := by
  refine ((h.and hsighted).noted attended []).each
    (P := fun p => Watched cfg gateId p.1 ∧ Answering p.2 p.1) ?_ ?_
    ⟨watched_start hst, fun _ _ h => by cases h⟩
  · rintro ⟨s, ns⟩ l ⟨s', ns'⟩ ⟨⟨hstep, hl⟩, hns⟩ ⟨hwatched, hanswering⟩
    cases hns
    exact ⟨watched_step hwatched hstep hl, answering_step hwatched hstep hanswering⟩
  · rintro ⟨s, ns⟩ l ⟨s', ns'⟩ ⟨⟨hstep, hl⟩, -⟩ ⟨hwatched, hanswering⟩
    exact ⟨(watched_step hwatched hstep hl).quiet, requested_step hwatched.sound hstep hanswering⟩

end Steps

theorem input_attended_bouncing :
    ∃ xs, Path (LaneStep {} "1") { shared := { state := .idle } } xs ∧
      xs.filterMap (requestOf ·.1) = [2] ∧
      Path InputAttended ({ shared := { state := .idle } }, [])
        (noted attended { shared := { state := .idle } } [] xs) := by
  have hpath : Path (LaneStep {} "1") boot (takeTurns (lane {} "1") boot bouncing) :=
    commanded_path (by simp [bouncing, frameTurns])
  have hsighted : Path (fun s l _ => Sighted s l) boot (takeTurns (lane {} "1") boot bouncing) := by
    decide +kernel
  have hidle : GateState.idle ≠ .waitingInput := by decide
  exact ⟨_, hpath, by decide +kernel, input_attended {} "1" hidle hpath hsighted⟩

/-- A card is read, the vehicle leaves, and then the card is rejected. -/
def rejectedTooLate : List LaneTurn :=
  frameTurns "IN1ON" ++ .start .serial .serial :: goes .serial 20 { bytes := some (utf8 "48225") } ++
  .stop .serial :: frameTurns "IN1OFF" ++
  [command [("command_type", "reject_card")], .start .commands .commands] ++ goes .commands 40 ++
  [.stop .commands]

/-- The gate waits for the input of a vehicle that is not there. -/
theorem input_not_attended :
    ¬ ∀ (cfg : Config) (gateId : String) (st : GateState), st ≠ .waitingInput →
      ∀ xs : List (LaneLabel × LaneSys), Path (LaneStep cfg gateId) { shared := { state := st } } xs →
        Path InputAttended ({ shared := { state := st } }, [])
          (noted attended { shared := { state := st } } [] xs) := by
  intro h
  have hpath := h { hasRfid := true } "1" .idle (by decide)
    (takeTurns (lane { hasRfid := true } "1") boot rejectedTooLate)
    (commanded_path (by simp [rejectedTooLate, frameTurns]))
  revert hpath
  decide +kernel

end ParkIt.GateIn
