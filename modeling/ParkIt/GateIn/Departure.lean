import ParkIt.GateIn.Closing
import ParkIt.GateIn.Presence

/-! Once the vehicle has left, the gate comes back to IDLE. -/
namespace ParkIt.GateIn.Departure

open Effects ByteString Tasks Transition

/-- Has a task called off a timer, and not written the state since? -/
def callsOff (called : Bool) (e : Event LaneOp LaneOp.Ans) : Bool :=
  match e.op with
  | .cancel _ => true
  | .setState _ => false
  | _ => called

def calledOff (t : LaneTask) : Bool := t.past.foldl callsOff false

/-- The task that Redis fails. -/
def failed : LaneLabel → Option TaskIx
  | .go i ⟨.hset, false⟩ | .go i ⟨.publish _ _ _, false⟩ => some i
  | _ => none

def stopped : LaneLabel → Option TaskIx
  | .stop i => some i
  | _ => none

def writer : LaneLabel → Option TaskIx
  | .go i ⟨.setState _, _⟩ => some i
  | _ => none

/-- Redis does not fail a task that has a timer to start, and a rejection that has called off the
timer is not cut short. -/
def Guarded (s : LaneSys) (l : LaneLabel) : Prop :=
  (∀ i ∈ failed l, ∀ t ∈ s.task i, (note t).phase.owes = none) ∧
    ∀ i ∈ stopped l, ∀ t ∈ s.task i, calledOff t = false

/-- An IN1OFF is dispatched. -/
def leaves : LaneLabel → Bool
  | .go _ ⟨.taken msg, _⟩ => saysOff msg
  | _ => false

/-- A frame is dispatched, or a command is read. -/
def bids : LaneLabel → Bool
  | .go _ ⟨.taken _, _⟩ | .go _ ⟨.xreadgroup, .message _⟩ => true
  | _ => false

/-- No rejection comes back from its pause. -/
def NoReturn (s : LaneSys) (l : LaneLabel) : Prop :=
  ∀ i ∈ writer l, ∀ t ∈ s.task i, (note t).phase ≠ .rejected

instance (s : LaneSys) (l : LaneLabel) : Decidable (Guarded s l) :=
  inferInstanceAs (Decidable ((∀ i ∈ failed l, ∀ t ∈ s.task i, _ = none) ∧
    ∀ i ∈ stopped l, ∀ t ∈ s.task i, _ = false))

instance (s : LaneSys) (l : LaneLabel) : Decidable (NoReturn s l) :=
  inferInstanceAs (Decidable (∀ i ∈ writer l, ∀ t ∈ s.task i, _ ≠ _))

/-- No timer is outstanding, and no task is in the middle of something or of a rejection. -/
structure AtRest (s : LaneSys) : Prop where
  running : s.running = none
  timers : ∀ t, ¬ Outstanding s t
  rejections : ∀ i t, s.task i = some t → calledOff t = false

/-- What a timer does when it finds the state that it was started for. -/
def ends (cfg : Config) : Timer → Work Unit
  | .validating _ => do
    let _ ← transition .idle
    display cfg "" ""
  | .vehiclePass _ => onVehiclePassed cfg

def looks (cfg : Config) (t : Timer) : Work Unit := do
  if (← ask .state) = t.state then ends cfg t

/-- What a timer that is due has left to do. -/
inductive Sleeping (cfg : Config) (t : Timer) : Work Unit → Prop
  | asleep : Sleeping cfg t (do ask (.sleep (gateOpenTimeout cfg)); looks cfg t)
  | awake : Sleeping cfg t (looks cfg t)
  | ending {k} : Sleeping cfg t (.call (.setState .idle) k)
  | late : Sleeping cfg t (.pure ())

/-- A timer has no other one to start, and does nothing before it has looked. -/
structure Timed (cfg : Config) (i : TaskIx) (t : LaneTask) : Prop where
  timer : ∀ k, i = .timer k → ∃ u, t.cause = .timer u
  owes : ∀ u, t.cause = .timer u → (note t).phase.owes = none
  sleeping : ∀ u, t.cause = .timer u → (note t).phase = .due → Sleeping cfg u t.rest

def Called (s : LaneSys) : Prop := ∃ i t, s.task i = some t ∧ calledOff t = true

theorem code_timer (cfg : Config) (t : Timer) : Cause.code cfg (.timer t) =
    (do ask (.sleep (gateOpenTimeout cfg)); looks cfg t) := by
  cases t <;> rfl

theorem ends_writes (cfg : Config) (t : Timer) : ∃ k, ends cfg t = .call (.setState .idle) k := by
  cases t <;> exact ⟨_, rfl⟩

section Notes
variable {cfg : Config} {g : Note} {o : LaneOp} {a : o.Ans} {t : Timer} {p : Phase}

theorem owes_not_settled (h : p.owes = some t) : ¬ p.Settled cfg := by
  cases p <;> first | exact id | cases h

/-- A timer is owed until it is started. -/
theorem owes_on (hallow : (moves cfg).allow g o) (howes : g.phase.owes = some t)
    (ho : ∀ st, o ≠ .setState st) (hset : (⟨o, a⟩ : Event LaneOp LaneOp.Ans) ≠ ⟨.hset, false⟩)
    (hpublish : ∀ e eventId n,
      (⟨o, a⟩ : Event LaneOp LaneOp.Ans) ≠ ⟨.publish e eventId n, false⟩) :
    (Note.next g o a).phase.owes = some t ∨ o = .spawn t := by
  have hphase {p : Phase} (hp : g.phase = p) : p.owes = some t := hp ▸ howes
  rcases next_shift (g := g) (o := o) (a := a) with hsame | hshift
  · exact Or.inl (hsame ▸ howes)
  · generalize (Note.next g o a).phase = p at hshift ⊢
    generalize he : (⟨o, a⟩ : Event LaneOp LaneOp.Ans) = e at hshift hset hpublish
    cases hshift with
    | passing _ | cleared _ | returned _ | detected _ | requested | read | opened =>
      cases he
      exact absurd rfl (ho _)
    | timed hp | armed hp =>
      have howed := hphase hp
      exact Or.inl howed
    | welcomed hp | asked hp | passed hp | hindered hp _ | closed hp => cases hphase hp
    | unsaved => exact absurd rfl hset
    | untold => exact absurd rfl (hpublish _ _ _)
    | gaveUp | kept =>
      cases he
      cases hphase hallow
    | calling | called =>
      cases he
      cases hphase hallow.1
    | taken =>
      cases he
      exact absurd hallow.2 (owes_not_settled howes)
    | helped | rejected =>
      cases he
      exact absurd hallow.1 (owes_not_settled howes)
    | fired hopens =>
      cases he
      cases hphase (hallow hopens).1
    | answered hopens =>
      cases he
      cases hphase (Closing.answered_calm hallow hopens)
    | _ =>
      -- The timer is started.
      cases he
      have hspawn := hphase hallow
      cases hspawn
      exact Or.inr rfl

end Notes

section Steps
variable {cfg : Config} {gateId : String} {s s' : LaneSys} {l : LaneLabel} {i : TaskIx}
  {o : LaneOp} {a : o.Ans} {u u' : LaneTask} {t : Timer} {k : TaskId}

theorem timed_step (hs : Sound cfg gateId s) (h : LaneStep cfg gateId s l s')
    (htimed : Each (fun _ => Timed cfg) s) : Each (fun _ => Timed cfg) s' := by
  refine each_step h htimed (fun i c _ hsh => ?_) (fun i o a u u' _ hu hi => ?_) fun _ _ _ _ h => h
  · refine ⟨fun k hk => ?_, fun t hc => ?_, fun t hc _ => ?_⟩
    · subst hk
      cases c with
      | timer t => exact ⟨t, rfl⟩
      | _ => cases hsh
    · have hc : c = .timer t := hc
      subst hc
      rfl
    · have hc : c = .timer t := hc
      subst hc
      change Sleeping cfg t (Cause.code cfg (.timer t))
      rw [code_timer]
      exact .asleep
  · refine ⟨fun k hk => hu.cause ▸ hi.timer k hk, fun t hc => ?_, fun t hc hdue => ?_⟩
    · rw [hu.cause] at hc
      by_contra howes
      obtain ⟨t', ht'⟩ := Option.ne_none_iff_exists'.mp howes
      rw [took_note hu] at ht'
      rcases owes_next ht' with hbefore | he
      · cases (hi.owes t hc).symm.trans hbefore
      · cases he
        obtain ⟨hidle, -⟩ := (mayAct_timer ((note_cause u).trans hc)).mp (hs.write hu).1.acts
        cases t' <;> cases hidle
    · rw [hu.cause] at hc
      rw [took_note hu] at hdue
      obtain ⟨k, hrest, hrest'⟩ := hu.asks
      have hsleeping := hi.sleeping t hc (due_next hdue)
      rw [hrest] at hsleeping
      rw [hrest']
      generalize hcall : (Prog.call o k : Work Unit) = p at hsleeping
      cases hsleeping with
      | asleep => cases hcall; exact .awake
      | awake =>
        cases hcall
        change Sleeping cfg t (if a = t.state then ends cfg t else pure ())
        split
        · obtain ⟨k, hk⟩ := ends_writes cfg t
          exact hk ▸ .ending
        · exact .late
      | ending =>
        cases hcall
        exfalso
        revert hdue
        change (if _ then Phase.passing else .calm) = .due → False
        split <;> rintro ⟨⟩
      | late => cases hcall

theorem called_off_next (hu : Took (lane cfg gateId) s s' i o a u u') :
    calledOff u' = callsOff (calledOff u) ⟨o, a⟩ := by
  rw [calledOff, hu.past, List.foldl_append]
  rfl

/-- A rejection that has called off a timer is under way until it writes the state. -/
theorem called_lasts (h : LaneStep cfg gateId s l s') (hl : Guarded s l)
    (hwrite : ∀ i st n, l ≠ .go i ⟨.setState st, n⟩) (hcalled : Called s) : Called s' := by
  obtain ⟨i, u, hi, hoff⟩ := hcalled
  rcases task_forth h hi with ⟨hi', -⟩ | ⟨o, a, u', rfl, hu⟩ | ⟨rfl, -⟩
  · exact ⟨i, u, hi', hoff⟩
  · refine ⟨i, u', hu.after, ?_⟩
    rw [called_off_next hu, hoff]
    cases o with
    | setState st => exact absurd rfl (hwrite i st a)
    | _ => rfl
  · cases hoff.symm.trans (hl.2 i rfl u hi)

theorem called_cancel {x : LaneOp.Ans (.cancel k)}
    (h : LaneStep cfg gateId s (.go i ⟨.cancel k, x⟩) s') : Called s' := by
  obtain ⟨u, u', hu⟩ := took h
  exact ⟨i, u', hu.after, called_off_next hu⟩

theorem cancelled_on (h : LaneStep cfg gateId s l s') (hk : k ∉ s.shared.cancelled) :
    k ∉ s'.shared.cancelled ∨ Called s' := by
  have hchange := step_change h
  generalize hsh : s'.shared = sh at hchange
  cases hchange with
  | carries hcarries => exact Or.inl ((carries_alarms hcarries).2.1 ▸ hk)
  | cancelled _ => exact Or.inr (called_cancel h)
  | started _ hsh | wrote hsh | spawned hsh | held hsh | taken hsh => exact Or.inl (hsh ▸ hk)

theorem spawned_on (h : LaneStep cfg gateId s l s') (hk : (k, t) ∈ s.shared.spawned) :
    (k, t) ∈ s'.shared.spawned ∨
      ∃ t', (k, t') ∈ s.shared.spawned ∧ l = .start (.timer k) (.timer t') := by
  have hchange := step_change h
  generalize hsh : s'.shared = sh at hchange
  cases hchange with
  | carries hcarries => exact Or.inl ((carries_alarms hcarries).1 ▸ hk)
  | @started k' t' _ hmem hsh =>
    by_cases hkk : k = k'
    · subst hkk
      exact Or.inr ⟨t', hmem, rfl⟩
    · rw [hsh]
      exact Or.inl (List.mem_filter.mpr ⟨hk, decide_eq_true hkk⟩)
  | spawned hsh => exact Or.inl (hsh ▸ List.mem_append_left _ hk)
  | wrote hsh | held hsh | cancelled hsh | taken hsh => exact Or.inl (hsh ▸ hk)

/-- What every guarded run keeps: the write of VALIDATING or OPENING that the state comes from has
its timer outstanding, or the timer has been called off by a rejection that is under way. -/
structure Kept (cfg : Config) (gateId : String) (s : LaneSys) : Prop where
  sound : Sound cfg gateId s
  alarmed : Alarmed s
  timed : Each (fun _ => Timed cfg) s
  keyed : ∀ k t t', (k, t) ∈ s.shared.spawned → (k, t') ∈ s.shared.spawned → t = t'
  awaited : ∀ t, s.shared.state = t.state → s.shared.writes = t.number → Outstanding s t ∨ Called s

theorem spawned_called (h : LaneStep cfg gateId s l s') (hk : (k, t) ∈ s'.shared.spawned)
    (hcancel : k ∉ s.shared.cancelled) : Outstanding s' t ∨ Called s' := by
  rcases cancelled_on h hcancel with hcancel | hcalled
  · exact Or.inl (.spawned hk hcancel)
  · exact Or.inr hcalled

/-- Who has a timer to start starts it, if Redis does not fail him. -/
theorem owed_lasts (hs : Kept cfg gateId s) (h : LaneStep cfg gateId s l s') (hl : Guarded s l)
    (hwrite : ∀ i st n, l ≠ .go i ⟨.setState st, n⟩) (hi : s.task i = some u)
    (howes : (note u).phase.owes = some t) : Outstanding s' t ∨ Called s' := by
  rcases task_forth h hi with ⟨hi', -⟩ | ⟨o, a, u', rfl, hu⟩ | ⟨rfl, -, hended⟩
  · exact Or.inl (.owed hi' howes)
  · have hallow : (moves cfg).allow (note u) o := hu.allow hs.sound.protocol
    have hdue : (note u).phase.owes ≠ none := by
      rw [howes]
      exact Option.some_ne_none t
    have hset : (⟨o, a⟩ : Event LaneOp LaneOp.Ans) ≠ ⟨.hset, false⟩ := by
      rintro ⟨⟩
      exact hdue (hl.1 i rfl u hi)
    have hpublish : ∀ e eventId n,
        (⟨o, a⟩ : Event LaneOp LaneOp.Ans) ≠ ⟨.publish e eventId n, false⟩ := by
      rintro e eventId n ⟨⟩
      exact hdue (hl.1 i rfl u hi)
    have hstill : ∀ st, o ≠ .setState st := by
      rintro st rfl
      exact hwrite i st a rfl
    rcases owes_on hallow howes hstill hset hpublish with hkeeps | rfl
    · refine Or.inl (.owed hu.after ?_)
      rw [took_note hu]
      exact hkeeps
    · obtain ⟨x, ha, hsh⟩ := took_perform hu
      have hfresh : s.shared.nextTask ∉ s.shared.cancelled := fun hmem =>
        Nat.lt_irrefl _ (hs.alarmed.called _ (Or.inl hmem)).known
      refine spawned_called h (k := s.shared.nextTask) ?_ hfresh
      rw [hsh]
      exact List.mem_append_right _ List.mem_cons_self
  · have htimer := hs.timed i u hi
    exfalso
    rcases hended with hended | hcancelled
    · exact owes_not_settled howes (hs.sound.finished hi hended).phase
    · cases i with
      | timer k =>
        obtain ⟨t', hcause⟩ := htimer.timer k rfl
        cases howes.symm.trans (htimer.owes t' hcause)
      | _ => cases hcancelled

theorem spawned_lasts (hs : Kept cfg gateId s) (h : LaneStep cfg gateId s l s')
    (hk : (k, t) ∈ s.shared.spawned) (hcancel : k ∉ s.shared.cancelled) :
    Outstanding s' t ∨ Called s' := by
  rcases spawned_on h hk with hk' | ⟨t', ht', rfl⟩
  · exact spawned_called h hk' hcancel
  · cases hs.keyed k t t' hk ht'
    rcases cancelled_on h hcancel with hcancel | hcalled
    · refine Or.inl ?_
      cases h with
      | start _ _ hsh =>
        refine .asleep (task_set_self) rfl rfl ?_ ?_
        · change ended (Cause.code cfg (.timer t)) = false
          rw [code_timer]
          rfl
        · simpa [isCancelled] using hcancel
    · exact Or.inr hcalled

/-- A timer that is due is asleep until it has found its state. -/
theorem asleep_lasts (hs : Kept cfg gateId s) (h : LaneStep cfg gateId s l s')
    (hwrite : ∀ i st n, l ≠ .go i ⟨.setState st, n⟩) (hstate : s.shared.state = t.state)
    (hi : s.task i = some u) (hcause : u.cause = .timer t) (hdue : (note u).phase = .due)
    (hended : ended u.rest = false) (halive : isCancelled i s.shared = false) :
    Outstanding s' t ∨ Called s' := by
  have halive' : isCancelled i s'.shared = false ∨ Called s' := by
    cases i with
    | timer k =>
      simp only [isCancelled, List.contains_eq_mem, decide_eq_false_iff_not] at halive ⊢
      exact cancelled_on h halive
    | _ => exact Or.inl rfl
  refine halive'.imp_left fun halive' => ?_
  rcases task_forth h hi with ⟨hi', -⟩ | ⟨o, a, u', rfl, hu⟩ | ⟨-, -, hstops⟩
  · exact .asleep hi' hcause hdue hended halive'
  · obtain ⟨k, hrest, hrest'⟩ := hu.asks
    have hsleeping := (hs.timed i u hi).sleeping t hcause hdue
    rw [hrest] at hsleeping
    generalize hcall : (Prog.call o k : Work Unit) = p at hsleeping
    cases hsleeping with
    | asleep =>
      cases hcall
      refine .asleep hu.after (hu.cause ▸ hcause) ?_ (by rw [hrest']; rfl) halive'
      obtain ⟨seconds, hseconds⟩ := gateOpenTimeout_seconds cfg
      rw [took_note hu, hseconds]
      exact hdue
    | awake =>
      cases hcall
      refine .asleep hu.after (hu.cause ▸ hcause) (by rw [took_note hu]; exact hdue) ?_ halive'
      obtain ⟨x, ha, -⟩ := took_perform hu
      have hlook : a = t.state := ha.trans hstate
      obtain ⟨k', hk'⟩ := ends_writes cfg t
      rw [hrest']
      change ended (if a = t.state then ends cfg t else pure ()) = false
      rw [if_pos hlook, hk']
      rfl
    | ending =>
      cases hcall
      exact absurd rfl (hwrite i _ a)
    | late => cases hcall
  · rcases hstops with hstops | hstops
    · cases hended.symm.trans hstops
    · cases halive.symm.trans hstops

theorem keyed_step (hs : Kept cfg gateId s) (h : LaneStep cfg gateId s l s') {t' : Timer}
    (hk : (k, t) ∈ s'.shared.spawned) (hk' : (k, t') ∈ s'.shared.spawned) : t = t' := by
  rcases spawned_step h hk with hk | ⟨hfresh, i, rfl⟩
  · rcases spawned_step h hk' with hk' | ⟨hfresh, -⟩
    · exact hs.keyed k t t' hk hk'
    · exact absurd (hs.alarmed.spawned k t hk) (hfresh ▸ Nat.lt_irrefl _)
  · rcases spawned_step h hk' with hk' | ⟨-, j, hj⟩
    · exact absurd (hs.alarmed.spawned k t' hk') (hfresh ▸ Nat.lt_irrefl _)
    · cases hj
      rfl

theorem awaited_step (hs : Kept cfg gateId s) (h : LaneStep cfg gateId s l s') (hl : Guarded s l)
    (hstate : s'.shared.state = t.state) (hwrites : s'.shared.writes = t.number) :
    Outstanding s' t ∨ Called s' := by
  by_cases hwrite : ∃ i st n, l = .go i ⟨.setState st, n⟩
  · obtain ⟨i, st, n, rfl⟩ := hwrite
    obtain ⟨u, u', hu⟩ := took h
    obtain ⟨hn, hstate', hwrites', -⟩ := took_write hu
    refine Or.inl (.owed hu.after ?_)
    have hst : st = t.state := hstate'.symm.trans hstate
    have hnumber : n = t.number := hn.trans (hwrites'.symm.trans hwrites)
    rw [took_note hu, hst, hnumber]
    cases t <;> rfl
  · have hwrite : ∀ i st n, l ≠ .go i ⟨.setState st, n⟩ :=
      fun i st n heq => hwrite ⟨i, st, n, heq⟩
    have hmark := mark_step h hwrite
    have hbefore : s.shared.state = t.state := (congrArg Prod.fst hmark).symm.trans hstate
    have hnumber : s.shared.writes = t.number := (congrArg (·.2.1) hmark).symm.trans hwrites
    rcases hs.awaited t hbefore hnumber with hout | hcalled
    · cases hout with
      | owed hi howes => exact owed_lasts hs h hl hwrite hi howes
      | spawned hk hcancel => exact spawned_lasts hs h hk hcancel
      | asleep hi hcause hdue hended halive =>
        exact asleep_lasts hs h hwrite hbefore hi hcause hdue hended halive
    · exact Or.inr (called_lasts h hl hwrite hcalled)

theorem kept_step (hs : Kept cfg gateId s) (h : LaneStep cfg gateId s l s') (hl : Guarded s l) :
    Kept cfg gateId s' where
  sound := sound_step h hs.sound
  alarmed := alarmed_step hs.sound h hs.alarmed
  timed := timed_step hs.sound h hs.timed
  keyed _ _ _ hk hk' := keyed_step hs h hk hk'
  awaited _ hstate hwrites := awaited_step hs h hl hstate hwrites

theorem kept_boot : Kept cfg gateId boot where
  sound := sound_start marked_start
  alarmed := alarmed_boot
  timed _ _ hi := by cases hi
  keyed _ _ _ hk := by cases hk
  awaited t hstate := by cases t <;> cases hstate

/-- What holds from the departure on, while no frame is dispatched and no command is read. -/
structure Left (cfg : Config) (gateId : String) (s : LaneSys) : Prop where
  kept : Kept cfg gateId s
  leaving : InProtocol leaving (fun _ => false) (fun _ off => off = false) s
  silent : ∀ i u, s.task i = some u → (lane cfg gateId).busy u.rest = true → ¬ (note u).SaysOn
  served : s.shared.state ≠ .processing
  gone : s.shared.state = .waitingInput → ∃ u, s.task .rss = some u ∧ off u = true

/-- What says that a vehicle is there was known before, and has not become old. -/
theorem saysOn_back {g : Note} (hl : bids (.go i ⟨o, a⟩) = false) (h : (Note.next g o a).SaysOn) :
    o.keeps = true ∧ g.SaysOn := by
  have htakes : o.takes = none := by
    cases o with
    | taken msg => cases hl
    | _ => rfl
  have hknown := (next_known (g := g) (o := o) (a := a)).2
  rw [htakes, Option.none_or] at hknown
  by_cases ho : o = .xreadgroup
  · subst ho
    exfalso
    cases a with
    | message c => cases hl
    | _ => rcases h with ⟨msg, hmsg, -⟩ | ⟨hfresh, -⟩ <;> cases ‹_›
  · by_cases hkeeps : o.keeps = true
    · refine ⟨hkeeps, ?_⟩
      rw [if_pos hkeeps] at hknown
      unfold Note.SaysOn at h ⊢
      rwa [hknown, next_fresh ho, if_pos hkeeps, next_command ho] at h
    · rw [if_neg hkeeps] at hknown
      exfalso
      rcases h with ⟨msg, hmsg, -⟩ | ⟨hfresh, -⟩
      · cases hknown.symm.trans hmsg
      · rw [next_fresh ho, if_neg hkeeps] at hfresh
        cases hfresh

theorem silent_step (hs : Left cfg gateId s) (h : LaneStep cfg gateId s l s') (hl : bids l = false)
    (hi : s'.task i = some u) (hbusy : (lane cfg gateId).busy u.rest = true) :
    ¬ (note u).SaysOn := by
  intro hsays
  rcases task_back h hi with ⟨hi, -⟩ | ⟨c, -, -, rfl⟩ | ⟨o, a, v, rfl, hv⟩
  · exact hs.silent i u hi hbusy hsays
  · rcases hsays with ⟨msg, hmsg, -⟩ | ⟨hfresh, -⟩
    · cases hmsg
    · cases hfresh
  · rw [took_note hv] at hsays
    obtain ⟨hkeeps, hsays⟩ := saysOn_back hl hsays
    obtain ⟨k, hrest, -⟩ := hv.asks
    refine hs.silent i v hv.before ?_ hsays
    rw [busy_call hrest]
    cases o <;> first | rfl | cases hkeeps

/-- No task makes the gate wait for an answer or for an input. -/
theorem write_left {st : GateState} {n : LaneOp.Ans (.setState st)} (hs : Left cfg gateId s)
    (hu : Took (lane cfg gateId) s s' i (.setState st) n u u')
    (hreturn : (note u).phase ≠ .rejected) : st ≠ .processing ∧ st ≠ .waitingInput := by
  obtain ⟨hmay, hseen⟩ := hs.kept.sound.write hu
  obtain ⟨k, hrest, -⟩ := hu.asks
  have hbusy : (lane cfg gateId).busy u.rest = true := by
    rw [busy_call hrest]
    rfl
  have hreason := hmay.reason
  refine ⟨?_, ?_⟩
  · rintro rfl
    cases hreason with
    | pressed hlook =>
      obtain ⟨v, hv, hoff⟩ := hs.gone (hseen _ hlook)
      obtain rfl := hu.free .rss (hs.kept.sound.one .rss v hv (off_busy hs.leaving hv hoff))
      cases hu.before.symm.trans hv
      cases (hu.allow hs.leaving hoff).2.2 _ rfl
  · rintro rfl
    cases hreason with
    | detected _ hsays => exact hs.silent i u hu.before hbusy hsays
    | rejected hrejected => exact hreturn hrejected

theorem left_step (hs : Left cfg gateId s) (h : LaneStep cfg gateId s l s') (hguarded : Guarded s l)
    (hl : bids l = false) (hreturn : NoReturn s l) : Left cfg gateId s' := by
  have hleaving := inProtocol_step (L := lane cfg gateId) (leaves_code cfg)
    (fun _ _ _ _ => trivial) h hs.leaving
  by_cases hwrite : ∃ i st n, l = .go i ⟨.setState st, n⟩
  · obtain ⟨i, st, n, rfl⟩ := hwrite
    obtain ⟨u, u', hu⟩ := took h
    obtain ⟨-, hstate, -, -⟩ := took_write hu
    obtain ⟨hprocessing, hwaits⟩ := write_left hs hu (hreturn i rfl u hu.before)
    exact ⟨kept_step hs.kept h hguarded, hleaving, fun _ _ hi => silent_step hs h hl hi,
      hstate ▸ hprocessing, fun hwaiting => absurd (hstate.symm.trans hwaiting) hwaits⟩
  · have hwrite : ∀ i st n, l ≠ .go i ⟨.setState st, n⟩ :=
      fun i st n heq => hwrite ⟨i, st, n, heq⟩
    have hstate : s'.shared.state = s.shared.state := congrArg Prod.fst (mark_step h hwrite)
    have htaken : ∀ i msg x, l ≠ .go i ⟨.taken msg, x⟩ := by
      rintro i msg x rfl
      cases hl
    refine ⟨kept_step hs.kept h hguarded, hleaving, fun _ _ hi => silent_step hs h hl hi,
      hstate ▸ hs.served, fun hwaiting => ?_⟩
    have hwaited := hstate.symm.trans hwaiting
    obtain ⟨u, hu, hoff⟩ := hs.gone hwaited
    exact off_step hs.kept.sound.one hs.leaving h hwrite htaken hwaited hu hoff

/-- What holds before the departure. -/
structure Before (cfg : Config) (gateId : String) (s : LaneSys) : Prop where
  kept : Kept cfg gateId s
  leaving : InProtocol leaving (fun _ => false) (fun _ off => off = false) s
  reading : Each (fun _ => Reading cfg) s
  told : Each (fun _ => Told) s

theorem before_step (hs : Before cfg gateId s) (h : LaneStep cfg gateId s l s') (hl : Guarded s l) :
    Before cfg gateId s' where
  kept := kept_step hs.kept h hl
  leaving := inProtocol_step (L := lane cfg gateId) (leaves_code cfg) (fun _ _ _ _ => trivial) h
    hs.leaving
  reading := reading_step h hs.reading
  told := told_step hs.kept.sound hs.reading h hs.told

theorem before_boot : Before cfg gateId boot where
  kept := kept_boot
  leaving _ _ hi := by cases hi
  reading _ _ hi := by cases hi
  told _ _ hi := by cases hi

/-- The listener has taken up the IN1OFF, and no task knows of a vehicle. -/
theorem left_start (hs : Before cfg gateId s) (h : LaneStep cfg gateId s l s') (hl : Guarded s l)
    (hleaves : leaves l = true) (hstate : s.shared.state ≠ .processing) : Left cfg gateId s' := by
  have hs' := before_step hs h hl
  unfold leaves at hleaves
  split at hleaves
  · rename_i i msg x
    obtain ⟨u, u', hu⟩ := took h
    have hcause : (note u).cause = .rss := (hu.allow hs.kept.sound.protocol).1
    obtain rfl := (hs.told i u hu.before).listens ((note_cause u).symm.trans hcause)
    have hsame : s'.shared.state = s.shared.state :=
      congrArg Prod.fst (mark_step h (by rintro _ _ _ ⟨⟩))
    refine ⟨hs'.kept, hs'.leaving, fun j v hj hbusy hsays => ?_, hsame ▸ hstate,
      fun _ => ⟨u', hu.after, (off_next hu).trans hleaves⟩⟩
    by_cases hne : j = .rss
    · subst hne
      cases hj.symm.trans hu.after
      rcases hsays with ⟨msg', hmsg, hon⟩ | ⟨-, c, hc, -⟩
      · have hframe : (note u').frame = some msg := by
          rw [took_note hu]
          rfl
        cases hframe.symm.trans hmsg
        cases (of_decide_eq_true (Bool.and_eq_true .. ▸ hleaves).1).symm.trans hon
      · cases (hs'.reading .rss u' hj).command (by rw [hc]; exact Option.some_ne_none c)
    · rw [hu.others j hne] at hj
      cases hbusy.symm.trans (hu.idle hs.kept.sound.one hj hne)
  · cases hleaves

/-- Nothing is left to be waited for. -/
theorem idle_of_rest (hs : Left cfg gateId s) (hrest : AtRest s) : s.shared.state = .idle := by
  have hawaited : ∀ t : Timer, s.shared.writes = t.number → s.shared.state ≠ t.state := by
    intro t hwrites hstate
    rcases hs.kept.awaited t hstate hwrites with hout | ⟨i, u, hi, hoff⟩
    · exact hrest.timers t hout
    · cases hoff.symm.trans (hrest.rejections i u hi)
  cases hstate : s.shared.state with
  | idle => rfl
  | waitingInput =>
    obtain ⟨u, hu, hoff⟩ := hs.gone hstate
    cases hrest.running.symm.trans (hs.kept.sound.one .rss u hu (off_busy hs.leaving hu hoff))
  | processing => exact absurd hstate hs.served
  | validating => exact absurd hstate (hawaited (.validating s.shared.writes) rfl)
  | opening => exact absurd hstate (hawaited (.vehiclePass s.shared.writes) rfl)

end Steps

/-- Where no task is left, the lane is at rest. -/
theorem atRest_of_none {cfg : Config} {gateId : String} {xs : List (LaneLabel × LaneSys)}
    (h : Path (LaneStep cfg gateId) boot xs)
    (hrest : (finish boot xs).running = none ∧ (finish boot xs).shared.spawned = [] ∧
      ∀ i ∈ [.rss, .commands, .serial, .heartbeat, .consumer] ++
        (List.range (finish boot xs).shared.nextTask).map TaskIx.timer,
          ((finish boot xs).task i).isNone = true) : AtRest (finish boot xs) := by
  obtain ⟨hrunning, hspawned, hlisted⟩ := hrest
  have halarmed := alarmed_run h
  have hnone (i : TaskIx) : (finish boot xs).task i = none := by
    cases hi : (finish boot xs).task i with
    | none => rfl
    | some t =>
      have hmem : i ∈ [.rss, .commands, .serial, .heartbeat, .consumer] ++
          (List.range (finish boot xs).shared.nextTask).map TaskIx.timer := by
        cases i with
        | timer k =>
          have hk := halarmed.started k t hi
          exact List.mem_append_right _ (List.mem_map_of_mem (List.mem_range.mpr hk))
        | _ => simp
      have hnone := hlisted i hmem
      rw [hi] at hnone
      cases hnone
  refine ⟨hrunning, fun t hout => ?_, fun i t hi => ?_⟩
  · cases hout with
    | owed hi _ | asleep hi _ _ _ _ => cases (hnone _).symm.trans hi
    | spawned hk _ =>
      rw [hspawned] at hk
      cases hk
  · cases (hnone i).symm.trans hi

/-- When the vehicle leaves a gate that does not wait for an answer, the gate comes back to IDLE:
with no further frame or command it comes to rest there. -/
theorem comes_back (cfg : Config) (gateId : String) {run xs ys : List (LaneLabel × LaneSys)}
    {l : LaneLabel} {s' : LaneSys} (h : Path (LaneStep cfg gateId) boot run)
    (hrun : run = xs ++ (l, s') :: ys) (hleaves : leaves l = true)
    (hunbidden : Path (fun _ l _ => bids l = false) s' ys) (hrest : AtRest (finish boot run))
    (hguarded : Path (fun s l _ => Guarded s l) boot run)
    (hstate : (finish boot xs).shared.state ≠ .processing)
    (hreturn : Path (fun s l _ => NoReturn s l) s' ys) :
    (finish boot run).shared.state = .idle := by
  subst hrun
  obtain ⟨hbefore, hafter⟩ := path_append.mp (h.and hguarded)
  obtain ⟨⟨hstep, hl⟩, hafter⟩ := hafter
  have hs : Before cfg gateId (finish boot xs) :=
    hbefore.invariant (fun s l s' hstep hs => before_step hs hstep.1 hstep.2) before_boot
  have hleft : Left cfg gateId (finish s' ys) :=
    (hafter.and (hunbidden.and hreturn)).invariant
      (fun s l s' hstep hs => left_step hs hstep.1.1 hstep.1.2 hstep.2.1 hstep.2.2)
      (left_start hs hstep hl hleaves hstate)
  rw [finish_append] at hrest ⊢
  exact idle_of_rest hleft hrest

/-- The `n`-th step of a run. -/
theorem split_at {xs : List (LaneLabel × LaneSys)} {n : Nat} (hn : n < xs.length) :
    xs = xs.take n ++ (xs[n].1, xs[n].2) :: xs.drop (n + 1) := by
  rw [← List.drop_eq_getElem_cons hn, List.take_append_drop]

/-- A card is read, the vehicle leaves, and no answer comes. -/
def leftValidating : List (LaneLabel × LaneSys) :=
  takeTurns (lane { hasRfid := true } "1") boot
    (frameTurns "IN1ON" ++
      .start .serial .serial :: goes .serial 20 { bytes := some (utf8 "48225") } ++
      .stop .serial :: frameTurns "IN1OFF" ++
      .start (.timer 0) (.timer (.validating 2)) :: goes (.timer 0) 12 ++ [.stop (.timer 0)])

theorem comes_back_from_card :
    ∃ run xs l s' ys, Path (LaneStep { hasRfid := true } "1") boot run ∧
      run = xs ++ (l, s') :: ys ∧ leaves l = true ∧
      (finish boot xs).shared.state = .validating ∧ (finish boot run).shared.state = .idle := by
  have hpath : Path (LaneStep { hasRfid := true } "1") boot leftValidating :=
    commanded_path (by simp [frameTurns])
  have hsplit := @split_at leftValidating 46 (by decide +kernel)
  refine ⟨_, _, _, _, _, hpath, hsplit, by decide +kernel, by decide +kernel, ?_⟩
  exact comes_back _ "1" hpath hsplit (by decide +kernel) (by decide +kernel)
    (atRest_of_none hpath (by decide +kernel)) (by decide +kernel) (by decide +kernel)
    (by decide +kernel)

/-- The button is pressed, the vehicle leaves, and no answer comes. -/
def leftProcessing : List (LaneLabel × LaneSys) :=
  takeTurns (lane {} "1") boot (frameTurns "IN1ON" ++ frameTurns "IN2ON" ++ frameTurns "IN1OFF")

theorem stays_processing :
    ¬ ∀ (cfg : Config) (gateId : String) (run xs ys : List (LaneLabel × LaneSys)) (l : LaneLabel)
      (s' : LaneSys), Path (LaneStep cfg gateId) boot run → run = xs ++ (l, s') :: ys →
      leaves l = true → Path (fun _ l _ => bids l = false) s' ys → AtRest (finish boot run) →
      (finish boot run).shared.state = .idle := by
  intro h
  have hpath : Path (LaneStep {} "1") boot leftProcessing := commanded_path (by simp [frameTurns])
  have hidle := h {} "1" leftProcessing _ _ _ _ hpath
    (@split_at leftProcessing 56 (by decide +kernel)) (by decide +kernel) (by decide +kernel) (atRest_of_none hpath (by decide +kernel))
  revert hidle
  decide +kernel

end ParkIt.GateIn.Departure
