import ParkIt.GateIn.Circuit
import ParkIt.GateIn.Timers

/-! Who ends an OPENING has the vehicle announced and the barrier closed. -/
namespace ParkIt.GateIn.Closing

open Effects ByteString Tasks Transition

/-- What is left of `_on_vehicle_passed` to a task that has ended an OPENING. -/
inductive Duty where
  | tell
  | close
deriving DecidableEq, Repr

abbrev Duties := TaskIx → Option Duty

/-- What an operation of a task leaves it to do, with the state of the gate before. -/
def dutyAfter (d : Option Duty) (state : GateState) : Event LaneOp LaneOp.Ans → Option Duty
  | ⟨.setState st, _⟩ => if state = .opening ∧ st ≠ .opening then some .tell else d
  | ⟨.publish .vehiclePassed _ _, true⟩ => if d = some .tell then some .close else d
  | ⟨.write .close1, true⟩ => if d = some .close then none else d
  | _ => d

def duties (d : Duties) (s : LaneSys) : LaneLabel → Duties
  | .go i e => Function.update d i (dutyAfter (d i) s.shared.state e)
  | _ => d

/-- An OPENING is ended by IDLE, a passage is told once, and no task stops before it has closed the
barrier. -/
def Closes (p : LaneSys × Duties) : LaneLabel → Prop
  | .go i ⟨.setState st, _⟩ =>
    p.1.shared.state = .opening → st ≠ .opening → st = .idle ∧ p.2 i = none
  | .go i ⟨.publish .vehiclePassed _ _, _⟩ => p.2 i = some .tell
  | .stop i => p.2 i = none
  | _ => True

/-- What the controller is sent reaches it. -/
def Reliable : LaneLabel → Prop
  | .go _ ⟨.connected, ok⟩ | .go _ ⟨.write _, ok⟩ => ok = true
  | .go _ ⟨.loopTime, now⟩ => 0 ≤ now
  | _ => True

/-- The task neither resets the gate nor comes back from the pause of the help button or of a
rejection: these write the state whatever it is. -/
def Looks (t : LaneTask) : Prop :=
  (∀ c ∈ (note t).command, c.type ≠ "reset_gate") ∧ (note t).phase ≠ .helped ∧
    (note t).phase ≠ .rejected

/-- An OPENING is ended by a task that looks, and Redis does not fail it before it is done. -/
def Unforced (p : LaneSys × Duties) : LaneLabel → Prop
  | .go i ⟨.setState st, _⟩ =>
    p.1.shared.state = .opening → st ≠ .opening → ∀ t ∈ p.1.task i, Looks t
  | .go i ⟨.hset, ok⟩ | .go i ⟨.publish _ _ _, ok⟩ => p.2 i ≠ none → ok = true
  | _ => True

instance (p : LaneSys × Duties) (l : LaneLabel) : Decidable (Closes p l) := by
  unfold Closes
  cases l with
  | go i e => split <;> infer_instance
  | _ => infer_instance

instance (l : LaneLabel) : Decidable (Reliable l) := by
  unfold Reliable
  cases l with
  | go i e => split <;> infer_instance
  | _ => infer_instance

instance (t : LaneTask) : Decidable (Looks t) := inferInstanceAs (Decidable (_ ∧ _ ∧ _))

instance (p : LaneSys × Duties) (l : LaneLabel) : Decidable (Unforced p l) := by
  unfold Unforced
  cases l with
  | go i e => split <;> infer_instance
  | _ => infer_instance

/-- The duty that a phase stands for. -/
def dutyOf : Phase → Option Duty
  | .passing => some .tell
  | .passed => some .close
  | _ => none

section Notes
variable {cfg : Config} {g : Note} {o : LaneOp} {a : o.Ans} {p : Phase}

theorem duty_settled (hmode : cfg.relayMode ≠ .single) (h : p.Settled cfg) : dutyOf p = none := by
  cases p with
  | passed => exact absurd h hmode
  | passing => exact h.elim
  | _ => rfl

theorem duty_free (h : p.Free) : dutyOf p = none := by
  cases p with
  | passing | passed => exact h.elim
  | _ => rfl

/-- An operation that has nothing to do with the passage of a vehicle. -/
def LaneOp.aside : LaneOp → Bool
  | .setState _ | .publish _ _ _ | .hset | .write _ => false
  | _ => true

/-- A duty comes from a look at OPENING. -/
theorem duty_back (h : dutyOf (Note.next g o a).phase ≠ none) :
    dutyOf g.phase ≠ none ∨ o = .setState .idle ∧ g.seen = some .opening := by
  generalize hp : (Note.next g o a).phase = p at h
  rcases next_phase hp with hsame | hshift
  · exact Or.inl (hsame ▸ h)
  · generalize he : (⟨o, a⟩ : Event LaneOp LaneOp.Ans) = e at hshift
    cases hshift with
    | passing hlook => cases he; exact Or.inr ⟨rfl, hlook⟩
    | passed hphase => exact Or.inl (by rw [hphase]; nofun)
    | _ => exact absurd rfl h

theorem answered_calm {c : RedisCommand} {n : Nat} (h : g.MayAnswer c n) (hopens : c.Opens) :
    g.phase = .calm := by
  unfold Note.MayAnswer at h
  split at h
  · exact h.2
  · exact h.2
  · exact absurd hopens h.2
  · exact h.elim

/-- Only a passage gives a task a duty, and takes it from the task. -/
theorem duty_aside (hmode : cfg.relayMode ≠ .single) (hallow : (moves cfg).allow g o)
    (ho : LaneOp.aside o = true) (htrouble : ¬ Trouble ⟨o, a⟩) :
    dutyOf (Note.next g o a).phase = dutyOf g.phase := by
  rcases next_shift (g := g) (o := o) (a := a) with hsame | hshift
  · rw [hsame]
  · generalize (Note.next g o a).phase = p at hshift ⊢
    generalize he : (⟨o, a⟩ : Event LaneOp LaneOp.Ans) = e at hshift htrouble
    cases hshift with
    | held | kept =>
      cases he
      rw [show g.phase = _ from hallow]
      rfl
    | calling | called =>
      cases he
      rw [hallow.1]
      rfl
    | taken =>
      cases he
      exact (duty_settled hmode hallow.2).symm
    | hindered _ he' => exact absurd he' htrouble
    | helped | rejected =>
      cases he
      exact (duty_settled hmode hallow.1).symm
    | answered hopens =>
      cases he
      rw [answered_calm hallow hopens]
      rfl
    | _ =>
      cases he
      first
        | exact absurd ho Bool.false_ne_true
        | rw [show g.phase = _ from hallow]; rfl

/-- A task that looks at what it ends has looked at OPENING. -/
theorem passed_of_looks {st : GateState} (hmay : g.MayWrite st)
    (hseen : ∀ st₀, g.seen = some st₀ → st₀ = .opening) (hst : st ≠ .opening)
    (hlooks : (∀ c ∈ g.command, c.type ≠ "reset_gate") ∧ g.phase ≠ .helped ∧ g.phase ≠ .rejected) :
    st = .idle ∧ g.seen = some .opening := by
  obtain ⟨hreset, hhelped, hrejected⟩ := hlooks
  cases hmay.reason with
  | passed hlook => exact ⟨rfl, hlook⟩
  | helped hphase => exact absurd hphase hhelped
  | rejected hphase => exact absurd hphase hrejected
  | reset hc htype => exact absurd htype (hreset _ hc)
  | opened _ => exact absurd rfl hst
  | detected hlook _ | backedUp hlook | expired hlook | pressed hlook | read hlook =>
    cases hseen _ hlook

theorem duty_setState {st : GateState} {n : Nat} (h : st = .idle → g.seen ≠ some .opening) :
    dutyOf (Note.next g (.setState st) n).phase = none := by
  cases st with
  | idle => exact congrArg dutyOf (if_neg (h rfl))
  | waitingInput =>
    change dutyOf (if _ then Phase.calm else .detected) = none
    split <;> rfl
  | _ => rfl

/-- Who tells of a passage had to. -/
theorem duty_told {n : Nat} (hmay : g.MayPublish .vehiclePassed n) :
    dutyOf g.phase = some .tell := by
  have hphase : g.phase = .passing := hmay
  rw [hphase]
  rfl

theorem duty_publish {e : GateEvent} {eventId : Option Nat} {n : Nat} {ok : Bool}
    (hmay : g.MayPublish e n) (hok : dutyOf g.phase ≠ none → ok = true) :
    dutyOf (Note.next g (.publish e eventId n) ok).phase =
      if e = .vehiclePassed then some .close else dutyOf g.phase := by
  cases ok with
  | false =>
    have hnone : dutyOf g.phase = none := by
      by_contra hduty
      cases hok hduty
    have hother : e ≠ .vehiclePassed := by
      rintro rfl
      cases hnone.symm.trans (duty_told hmay)
    rw [if_neg hother, hnone]
    rfl
  | true =>
    cases e with
    | vehiclePassed =>
      have hphase : g.phase = .passing := hmay
      change dutyOf g.published = _
      rw [Note.published, hphase]
      rfl
    | playAudio _ | helpButtonPressed | printFailedAlert => rfl
    | gateOpened =>
      obtain ⟨m, hphase⟩ := hmay
      change dutyOf g.published = _
      rw [Note.published, hphase]
      rfl
    | gateOpenFailed =>
      have hphase : g.phase = _ := hmay
      rw [hphase]
      rfl
    | vehicleDetected _ | ticketButtonPressed | rfidCardRead _ _ =>
      have hphase : g.phase = _ := hmay
      change dutyOf g.published = _
      rw [Note.published, hphase]
      rfl

theorem duty_write {command : ControllerCommand} (hallow : (moves cfg).allow g (.write command)) :
    dutyOf (Note.next g (.write command) true).phase =
      if command = .close1 ∧ dutyOf g.phase = some .close then none else dutyOf g.phase := by
  by_cases hopens : command.opens = true
  · have hcalm := (hallow hopens).1
    have hother : command ≠ .close1 := by
      rintro rfl
      cases hopens
    rw [if_neg fun h => hother h.1, hcalm]
    exact congrArg (fun g : Note => dutyOf g.phase) (if_pos hopens)
  · have hnext : Note.next g (.write command) true =
        if command = .close1 ∧ g.phase = .passed then { g with phase := .closed } else g :=
      if_neg hopens
    have hpassed : dutyOf g.phase = some .close ↔ g.phase = .passed := by
      cases g.phase <;> simp [dutyOf]
    rw [hnext]
    simp only [hpassed]
    split <;> rfl

theorem duty_hset {ok : Bool} (hok : dutyOf g.phase ≠ none → ok = true) :
    dutyOf (Note.next g .hset ok).phase = dutyOf g.phase := by
  cases ok with
  | true => rfl
  | false =>
    have hnone : dutyOf g.phase = none := by
      by_contra hduty
      cases hok hduty
    exact hnone.symm

end Notes

section Steps
variable {cfg : Config} {gateId : String} {s s' : LaneSys} {l : LaneLabel} {d : Duties}
  {i j : TaskIx} {o : LaneOp} {a : o.Ans} {t t' : LaneTask}

/-- The timer of a card has no duty. -/
structure Apt (i : TaskIx) (t : LaneTask) : Prop where
  timer : ∀ k, i = .timer k → ∃ u, t.cause = .timer u
  free : ∀ n, t.cause = .timer (.validating n) → dutyOf (note t).phase = none

/-- What a run in which no write to the controller fails keeps. -/
structure Dutiful (cfg : Config) (gateId : String) (s : LaneSys) (d : Duties) : Prop where
  sound : Sound cfg gateId s
  alarmed : Alarmed s
  apt : Each (fun _ => Apt) s
  line : ∃ h, Circuit.Sound cfg gateId s h ∧ ∀ i, .failed i ∉ h
  shut : s.shared.breaker.openUntil ≤ 0
  duties : ∀ i, d i = (s.task i).bind fun t => dutyOf (note t).phase

theorem apt_step (hs : Sound cfg gateId s) (h : LaneStep cfg gateId s l s')
    (hapt : Each (fun _ => Apt) s) : Each (fun _ => Apt) s' := by
  refine each_step h hapt (fun i c _ hsh => ⟨?_, fun n hc => ?_⟩) (fun i o a t t' _ ht hi => ?_)
    fun _ _ _ _ h => h
  · rintro k rfl
    cases c with
    | timer u => exact ⟨u, rfl⟩
    | _ => cases hsh
  · have hcause : c = .timer (.validating n) := hc
    subst hcause
    rfl
  · refine ⟨fun k hk => ht.cause ▸ hi.timer k hk, fun n hcause => ?_⟩
    rw [ht.cause] at hcause
    by_contra hduty
    rw [took_note ht] at hduty
    rcases duty_back hduty with hduty | ⟨rfl, hlook⟩
    · exact hduty (hi.free n hcause)
    · have hacts := (hs.write ht).1.acts
      obtain ⟨-, -, hseen⟩ := (mayAct_timer ((note_cause t).trans hcause)).mp hacts
      cases hlook.symm.trans hseen

/-- Where no write fails, the breaker stays as it is. -/
theorem line_step {h : Circuit.History} (hs : Circuit.Sound cfg gateId s h)
    (hfailed : ∀ i, .failed i ∉ h) (hstep : LaneStep cfg gateId s l s') (hl : Reliable l) :
    ∃ h', Circuit.Sound cfg gateId s' h' ∧ ∀ i, .failed i ∉ h' := by
  have hclock : Circuit.Clocked l := by
    unfold Circuit.Clocked
    split
    · exact hl
    · trivial
  refine ⟨_, Circuit.sound_step hs hstep hclock, fun i hmem => ?_⟩
  rcases List.mem_append.mp hmem with hnew | hold
  · unfold Circuit.outcome at hnew
    split at hnew
    · split at hnew <;> cases List.mem_singleton.mp hnew
    · cases hl
    · cases hnew
  · exact hfailed i hold

theorem shut_step {h : Circuit.History} (hs : Circuit.Sound cfg gateId s h)
    (hfailed : ∀ i, .failed i ∉ h) (hstep : LaneStep cfg gateId s l s')
    (hshut : s.shared.breaker.openUntil ≤ 0) : s'.shared.breaker.openUntil ≤ 0 := by
  by_contra hopen
  obtain ⟨i, -, hlast, -⟩ := Circuit.opens_step hs hstep (lt_of_le_of_lt hshut (not_le.mp hopen))
  exact hfailed i (List.mem_of_mem_head? hlast)

theorem not_trouble (hshut : s.shared.breaker.openUntil ≤ 0) (hl : Reliable (.go i ⟨o, a⟩))
    (ht : Took (lane cfg gateId) s s' i o a t t') : ¬ Trouble ⟨o, a⟩ := by
  intro htrouble
  cases o with
  | connected | write _ => cases hl.symm.trans htrouble
  | loopTime => exact absurd hl (not_le.mpr htrouble)
  | breaker =>
    obtain ⟨x, ha, -⟩ := took_perform ht
    have hopen : 0 < a.openUntil := htrouble
    rw [ha] at hopen
    exact absurd hshut (not_le.mpr hopen)
  | _ => exact htrouble

theorem Dutiful.duty (hs : Dutiful cfg gateId s d) (ht : s.task i = some t) :
    d i = dutyOf (note t).phase := by
  rw [hs.duties, ht, Option.bind_some]

/-- A duty is kept count of as the task goes on. -/
theorem duty_took (hmode : cfg.relayMode ≠ .single) (hs : Dutiful cfg gateId s d)
    (ht : Took (lane cfg gateId) s s' i o a t t') (hl : Reliable (.go i ⟨o, a⟩))
    (hforced : Unforced (s, d) (.go i ⟨o, a⟩)) :
    dutyAfter (d i) s.shared.state ⟨o, a⟩ = dutyOf (note t').phase := by
  have hduty := hs.duty ht.before
  have hallow : (moves cfg).allow (note t) o := ht.allow hs.sound.protocol
  rw [took_note ht]
  cases o with
  | setState st =>
    obtain ⟨hmay, hseen⟩ := hs.sound.write ht
    change (if _ then some Duty.tell else d i) = _
    split
    · rename_i hends
      obtain ⟨hidle, hlook⟩ := passed_of_looks hmay (fun st₀ hst₀ => (hseen st₀ hst₀).symm.trans
        hends.1) hends.2 (hforced hends.1 hends.2 t ht.before)
      subst hidle
      have hnext : ((note t).next (.setState .idle) a).phase = .passing := if_pos hlook
      rw [hnext]
      rfl
    · rename_i hends
      rw [hduty, duty_free hmay.free, duty_setState]
      rintro rfl hlook
      exact hends ⟨hseen _ hlook, nofun⟩
  | publish e eventId n =>
    have hok : dutyOf (note t).phase ≠ none → a = true := hduty ▸ hforced
    have hmay : (note t).MayPublish e n := hallow
    rw [duty_publish hmay hok]
    by_cases he : e = .vehiclePassed
    · subst he
      have htell := duty_told hmay
      obtain rfl := hok (by rw [htell]; nofun)
      rw [if_pos rfl]
      exact if_pos (hduty.trans htell)
    · rw [if_neg he]
      cases e <;> first | exact hduty | exact absurd rfl he
  | write command =>
    obtain rfl : a = true := hl
    rw [duty_write hallow, ← hduty]
    by_cases hclose : command = .close1
    · subst hclose
      simp only [true_and]
      rfl
    · rw [if_neg fun h => hclose h.1]
      cases command <;> first | rfl | exact absurd rfl hclose
  | hset =>
    rw [duty_hset (hduty ▸ hforced)]
    exact hduty
  | _ =>
    rw [duty_aside hmode hallow rfl (not_trouble hs.shut hl ht)]
    exact hduty

/-- A task that stops has nothing left to do. -/
theorem duty_stop (hmode : cfg.relayMode ≠ .single) (hs : Dutiful cfg gateId s d)
    (h : LaneStep cfg gateId s (.stop i) s') : d i = none := by
  cases h with
  | @stop _ t hi _ hended =>
    rw [hs.duty hi]
    rcases hended with hended | hcancelled
    · exact duty_settled hmode (hs.sound.finished hi hended).phase
    · -- Only the timers of cards are called off.
      cases i with
      | timer k =>
        obtain ⟨u, hcause⟩ := (hs.apt _ _ hi).timer k rfl
        have hmem : k ∈ s.shared.cancelled := List.contains_iff_mem.mp hcancelled
        obtain ⟨n, rfl⟩ := (hs.alarmed.called k (Or.inl hmem)).started t u hi hcause
        exact (hs.apt _ _ hi).free n hcause
      | _ => cases hcancelled

theorem dutiful_step (hmode : cfg.relayMode ≠ .single) (hs : Dutiful cfg gateId s d)
    (h : LaneStep cfg gateId s l s') (hl : Reliable l) (hforced : Unforced (s, d) l) :
    Dutiful cfg gateId s' (duties d s l) := by
  obtain ⟨history, hline, hfailed⟩ := hs.line
  refine ⟨sound_step h hs.sound, alarmed_step hs.sound h hs.alarmed, apt_step hs.sound h hs.apt,
    line_step hline hfailed h hl, shut_step hline hfailed h hs.shut, fun j => ?_⟩
  cases l with
  | go i e =>
    obtain ⟨o, a⟩ := e
    obtain ⟨t, t', ht⟩ := took h
    by_cases hj : j = i
    · subst hj
      rw [duties, Function.update_self, duty_took hmode hs ht hl hforced, ht.after,
        Option.bind_some]
    · rw [duties, Function.update_of_ne hj, ht.others j hj]
      exact hs.duties j
  | start i c =>
    refine (hs.duties j).trans ?_
    by_cases hj : j = i
    · subst hj
      cases h with
      | start hnone _ hsh =>
        rw [hnone, task_set_self]
        cases c <;> rfl
    · rw [task_other h fun heq => hj (Option.some.inj heq).symm]
  | stop i =>
    by_cases hj : j = i
    · subst hj
      refine (duty_stop hmode hs h).trans ?_
      cases h with
      | stop _ _ _ =>
        have hgone : (s.drop j).task j = none := Function.update_self ..
        rw [hgone]
        rfl
    · rw [task_other h fun heq => hj (Option.some.inj heq).symm]
      exact hs.duties j
  | outside =>
    cases h with
    | outside _ => exact hs.duties j

theorem closes_step (hmode : cfg.relayMode ≠ .single) (hs : Dutiful cfg gateId s d)
    (h : LaneStep cfg gateId s l s') (hl : Reliable l) (hforced : Unforced (s, d) l) :
    Closes (s, d) l := by
  cases l with
  | go i e =>
    obtain ⟨o, a⟩ := e
    obtain ⟨t, t', ht⟩ := took h
    have hduty := hs.duty ht.before
    cases o with
    | setState st =>
      obtain ⟨hmay, hseen⟩ := hs.sound.write ht
      intro hstate hst
      have hpassed := passed_of_looks hmay (fun st₀ hst₀ => (hseen st₀ hst₀).symm.trans hstate) hst
        (hforced hstate hst t ht.before)
      exact ⟨hpassed.1, hduty.trans (duty_free hmay.free)⟩
    | publish e eventId n =>
      have hmay : (note t).MayPublish e n := ht.allow hs.sound.protocol
      cases e with
      | vehiclePassed => exact hduty.trans (duty_told hmay)
      | _ => trivial
    | _ => trivial
  | stop i => exact duty_stop hmode hs h
  | _ => trivial

end Steps

/-- Where the controller takes what it is sent, every OPENING that is not ended by force is closed:
the task that ends it goes on to tell of the vehicle and to close the barrier. -/
theorem opening_closed (cfg : Config) (gateId : String) (hmode : cfg.relayMode ≠ .single)
    {xs : List (LaneLabel × LaneSys)} (h : Path (LaneStep cfg gateId) boot xs)
    (hreliable : Path (fun _ l _ => Reliable l) boot xs)
    (hunforced : Path (fun p l _ => Unforced p l) (boot, fun _ => none)
      (noted duties boot (fun _ => none) xs)) :
    Path (fun p l _ => Closes p l) (boot, fun _ => none) (noted duties boot (fun _ => none) xs) := by
  have hstart : Dutiful cfg gateId boot fun _ => none :=
    ⟨sound_start marked_start, alarmed_boot, nofun,
      ⟨[], Circuit.sound_start .idle, fun _ => List.not_mem_nil⟩, le_refl _, fun _ => rfl⟩
  refine (((h.and hreliable).noted duties fun _ => none).and hunforced).each
    (P := fun p => Dutiful cfg gateId p.1 p.2) ?_ ?_ hstart
  · rintro ⟨s, d⟩ l ⟨s', d'⟩ ⟨⟨⟨hstep, hl⟩, hd⟩, hforced⟩ hs
    cases hd
    exact dutiful_step hmode hs hstep hl hforced
  · rintro ⟨s, d⟩ l ⟨s', d'⟩ ⟨⟨⟨hstep, hl⟩, -⟩, hforced⟩ hs
    exact closes_step hmode hs hstep hl hforced

/-- The gate opens, and the vehicle passes in its time. -/
theorem opening_closed_once :
    ∃ xs, Path (LaneStep { relayMode := .dual } "1") boot xs ∧
      (finish (boot, fun _ => none) (noted duties boot (fun _ => none) xs)).1.shared.writes = 2 ∧
      Path (fun p l _ => Closes p l) (boot, fun _ => none)
        (noted duties boot (fun _ => none) xs) := by
  have hpath : Path (LaneStep { relayMode := .dual } "1") boot
      (takeTurns (lane { relayMode := .dual } "1") boot oneVehicle) :=
    commanded_path (by simp [oneVehicle])
  refine ⟨_, hpath, by decide +kernel, opening_closed _ "1" (by decide) hpath ?_ ?_⟩ <;> decide +kernel

/-- The gate opens, and it is reset before the vehicle has passed. -/
def resetInBetween : List LaneTurn :=
  [command [("command_type", "open_gate")], .start .commands .commands] ++ goes .commands 17 ++
  [.stop .commands, command [("command_type", "reset_gate")], .start .commands .commands] ++
  goes .commands 10 ++ [.stop .commands]

/-- After a reset the barrier stays open. -/
theorem reset_leaves_open :
    ¬ ∀ (cfg : Config) (gateId : String) (xs : List (LaneLabel × LaneSys)),
      cfg.relayMode ≠ .single → Path (LaneStep cfg gateId) boot xs →
      Path (fun _ l _ => Reliable l) boot xs →
      Path (fun p l _ => Closes p l) (boot, fun _ => none)
        (noted duties boot (fun _ => none) xs) := by
  intro h
  have hpath := h { relayMode := .dual } "1"
    (takeTurns (lane { relayMode := .dual } "1") boot resetInBetween) (by decide)
    (commanded_path (by simp [resetInBetween])) (by decide +kernel)
  revert hpath
  decide +kernel

end ParkIt.GateIn.Closing
