import ParkIt.GateIn.Inventory
import ParkIt.GateIn.Timers

/-! An OPENING that is entered has just been opened. -/
namespace ParkIt.GateIn

open Effects ByteString Tasks Transition

/-- The commands that move the barrier. -/
def ControllerCommand.movesBarrier : ControllerCommand → Bool
  | .trig1 | .open1 | .close1 | .stop1 => true
  | _ => false

/-- A command that moved the barrier, the task that sent it, and what the task was handling. -/
structure Moved where
  task : TaskIx
  write : ControllerCommand
  command : Option Command
deriving DecidableEq

/-- The command that a task is handling. -/
def handled (s : LaneSys) (i : TaskIx) : Option Command := (s.task i).bind fun t => (note t).command

/-- The last command that moved the barrier. -/
def lastMoved (r : Option Moved) (s : LaneSys) : LaneLabel → Option Moved
  | .go i ⟨.write command, true⟩ =>
    if command.movesBarrier then some ⟨i, command, handled s i⟩ else r
  | _ => r

/-- The task that enters OPENING. -/
def entersOpening : LaneLabel → Option TaskIx
  | .go i ⟨.setState .opening, _⟩ => some i
  | _ => none

/-- When OPENING is entered, the last thing the barrier was told is to open, for the same command. -/
def OpeningIsOpen (p : LaneSys × Option Moved) (l : LaneLabel) : Prop :=
  ∀ i ∈ entersOpening l, ∃ m ∈ p.2, m.task = i ∧ m.write.opens = true ∧ m.command = handled p.1 i ∧
    ∃ c ∈ m.command, c.Opens

instance (p : LaneSys × Option Moved) (l : LaneLabel) : Decidable (OpeningIsOpen p l) :=
  inferInstanceAs (Decidable (∀ i ∈ entersOpening l, _))

def tellsBarrier : LaneLabel → Bool
  | .go _ ⟨.write command, true⟩ => command.movesBarrier
  | _ => false

/-- The barrier is not moved while the handler that has opened it is on its way to OPENING. -/
def Undisturbed (s : LaneSys) (l : LaneLabel) : Prop :=
  tellsBarrier l = true → ∀ t ∈ s.task .commands, (note t).phase ≠ .fired

instance (s : LaneSys) (l : LaneLabel) : Decidable (Undisturbed s l) :=
  inferInstanceAs (Decidable (_ → _))

/-- A task that is in the middle of handling reads no other command; no other task reads any. -/
structure Reading (cfg : Config) (i : TaskIx) (t : LaneTask) : Prop where
  rest : Unread t.rest ∨ t.past = [] ∧ i = .commands ∧ t.rest = consumeCommands cfg
  command : (note t).command ≠ none → i = .commands

/-- Who has fired the relay was the last one to move the barrier. -/
def Fired (r : Option Moved) (s : LaneSys) : Prop :=
  ∀ i t, s.task i = some t → (note t).phase = .fired →
    ∃ m ∈ r, m.task = i ∧ m.write.opens = true ∧ m.command = (note t).command ∧
      ∃ c ∈ m.command, c.Opens

section Notes
variable {g : Note} {o : LaneOp} {a : o.Ans}

theorem opens_movesBarrier {command : ControllerCommand} (h : command.opens = true) :
    command.movesBarrier = true := by
  cases command <;> first | rfl | cases h

end Notes

section Steps
variable {cfg : Config} {gateId : String} {s s' : LaneSys} {l : LaneLabel} {r : Option Moved}
  {i : TaskIx} {o : LaneOp} {a : o.Ans} {t t' : LaneTask}

theorem start_commands {sh sh' : Lane} (h : starts i .commands sh = some sh') : i = .commands := by
  cases i <;> first | rfl | cases h

theorem reading_step (h : LaneStep cfg gateId s l s') (hs : Each (fun _ => Reading cfg) s) :
    Each (fun _ => Reading cfg) s' := by
  refine each_step h hs (fun i c _ hsh => ?_) (fun i o a t t' _ ht hi => ?_) fun _ _ _ _ h => h
  · refine ⟨?_, fun hc => absurd rfl hc⟩
    by_cases hc : c = .commands
    · subst hc
      exact Or.inr ⟨rfl, start_commands hsh, rfl⟩
    · exact Or.inl (unread_code cfg hc)
  · obtain ⟨k, hrest, hrest'⟩ := ht.asks
    rcases hi.rest with hunread | ⟨-, hi', hcode⟩
    · rw [hrest] at hunread
      refine ⟨Or.inl (hrest' ▸ hunread.2 a), fun hc => hi.command ?_⟩
      rwa [took_note ht, next_command hunread.1] at hc
    · obtain ⟨k', hk', hafter⟩ := unread_after_command cfg
      cases hrest.symm.trans (hcode.trans hk')
      exact ⟨Or.inl (hrest' ▸ hafter a), fun _ => hi'⟩

/-- A task that has done something reads no command. -/
theorem Reading.not_read (h : Reading cfg i t) (ht : Took (lane cfg gateId) s s' i o a t t')
    (hcalm : (note t).phase ≠ .calm) (hdue : (note t).phase ≠ .due) : o ≠ .xreadgroup := by
  obtain ⟨k, hrest, -⟩ := ht.asks
  rcases h.rest with hunread | ⟨hpast, -, -⟩
  · rw [hrest] at hunread
    exact hunread.1
  · have hstart : note t = .start t.cause := by rw [note, hpast, List.foldl_nil]
    rw [hstart] at hcalm hdue
    cases hcause : t.cause with
    | timer u => exact absurd (by rw [hcause]; rfl) hdue
    | _ => exact absurd (by rw [hcause]; rfl) hcalm

/-- Where a task has fired, an undisturbed step moves no barrier. -/
theorem lastMoved_eq (hl : Undisturbed s l) (hreading : Each (fun _ => Reading cfg) s)
    (hfired : Fired r s) (ht : s.task i = some t) (hphase : (note t).phase = .fired) :
    lastMoved r s l = r := by
  obtain ⟨m, -, -, -, hm, c, hc, -⟩ := hfired i t ht hphase
  have hi : i = .commands := by
    refine (hreading i t ht).command fun hnone => ?_
    rw [hm, hnone] at hc
    cases hc
  subst hi
  unfold lastMoved
  split
  · exact if_neg fun hmoves => hl hmoves t ht hphase
  · rfl

theorem handled_eq (h : s.task i = some t) : handled s i = (note t).command := by
  rw [handled, h, Option.bind_some]

theorem fired_step (hs : Sound cfg gateId s) (hreading : Each (fun _ => Reading cfg) s)
    (h : LaneStep cfg gateId s l s') (hl : Undisturbed s l) (hfired : Fired r s) :
    Fired (lastMoved r s l) s' := by
  intro j u hu hphase
  rcases task_back h hu with ⟨hu, -⟩ | ⟨c, -, -, rfl⟩ | ⟨o, a, t, rfl, ht⟩
  · rw [lastMoved_eq hl hreading hfired hu hphase]
    exact hfired j u hu hphase
  · cases c <;> cases hphase
  · rw [took_note ht] at hphase ⊢
    rcases next_phase hphase with hsame | hshift
    · have hread := (hreading j t ht.before).not_read ht (by rw [hsame]; nofun) (by rw [hsame]; nofun)
      rw [lastMoved_eq hl hreading hfired ht.before hsame, next_command hread]
      exact hfired j t ht.before hsame
    · generalize he : (⟨o, a⟩ : Event LaneOp LaneOp.Ans) = e at hshift
      cases hshift with
      | fired hopens =>
        cases he
        obtain ⟨-, c, hc, hcopens⟩ := ht.allow hs.protocol hopens
        have hhandled := handled_eq ht.before
        refine ⟨⟨j, _, handled s j⟩, if_pos (opens_movesBarrier hopens), rfl, hopens, ?_, c, ?_,
          hcopens⟩
        · rw [next_command (by simp)]
          exact hhandled
        · exact hhandled.symm ▸ hc

theorem openingIsOpen_step (hs : Sound cfg gateId s) (h : LaneStep cfg gateId s l s')
    (hfired : Fired r s) : OpeningIsOpen (s, r) l := by
  intro i hi
  unfold entersOpening at hi
  split at hi
  · cases hi
    obtain ⟨t, t', ht⟩ := took h
    have hreason := (hs.write ht).1.reason
    rw [handled_eq ht.before]
    cases hreason with
    | opened hphase => exact hfired i t ht.before hphase
  · cases hi

end Steps

/-- In a run that is not disturbed, OPENING means open. -/
theorem opening_means_open (cfg : Config) (gateId : String) (st : GateState) (r : Option Moved)
    {xs : List (LaneLabel × LaneSys)}
    (h : Path (LaneStep cfg gateId) { shared := { state := st } } xs)
    (hundisturbed : Path (fun s l _ => Undisturbed s l) { shared := { state := st } } xs) :
    Path (fun p l _ => OpeningIsOpen p l) ({ shared := { state := st } }, r)
      (noted lastMoved { shared := { state := st } } r xs) := by
  have hmarked : Marked { state := st } := ⟨Or.inr rfl, fun _ => Nat.le_refl 0⟩
  refine ((h.and hundisturbed).noted lastMoved r).each (P := fun p =>
    Sound cfg gateId p.1 ∧ Each (fun _ => Reading cfg) p.1 ∧ Fired p.2 p.1) ?_ ?_
    ⟨sound_start hmarked, nofun, nofun⟩
  · rintro ⟨s, r⟩ l ⟨s', r'⟩ ⟨⟨hstep, hl⟩, hr⟩ ⟨hsound, hreading, hfired⟩
    cases hr
    exact ⟨sound_step hstep hsound, reading_step hstep hreading,
      fired_step hsound hreading hstep hl hfired⟩
  · rintro ⟨s, r⟩ l ⟨s', r'⟩ ⟨⟨hstep, -⟩, -⟩ ⟨hsound, -, hfired⟩
    exact openingIsOpen_step hsound hstep hfired

theorem opening_means_open_once :
    ∃ xs, Path (LaneStep {} "1") { shared := { state := .idle } } xs ∧
      (xs.map fun x => entersOpening x.1).filterMap id = [.commands] ∧
      Path (fun p l _ => OpeningIsOpen p l) ({ shared := { state := .idle } }, none)
        (noted lastMoved { shared := { state := .idle } } none xs) := by
  have hpath : Path (LaneStep {} "1") boot (takeTurns (lane {} "1") boot oneVehicle) :=
    commanded_path (by simp [oneVehicle])
  have hundisturbed : Path (fun s l _ => Undisturbed s l) boot
      (takeTurns (lane {} "1") boot oneVehicle) := by decide +kernel
  exact ⟨_, hpath, by decide +kernel,
    opening_means_open {} "1" .idle none hpath hundisturbed⟩

/-- The gate is opened twice; the vehicle passes while the second opening is announced. -/
def passingInBetween : List LaneTurn :=
  [command [("command_type", "open_gate")], .start .commands .commands] ++ goes .commands 19 ++
  [.stop .commands, command [("command_type", "open_gate")], .start .commands .commands] ++
  goes .commands 6 ++ .start .rss .rss :: goes .rss 29 { bytes := some (frameOf "IN1OFF") } ++
  goes .commands 3

/-- OPENING is entered when CLOSE1 was the last thing that the barrier was told. -/
theorem opening_of_closed_gate :
    ¬ ∀ (cfg : Config) (gateId : String) (st : GateState) (r : Option Moved)
      (xs : List (LaneLabel × LaneSys)),
      Path (LaneStep cfg gateId) { shared := { state := st } } xs →
      Path (fun p l _ => OpeningIsOpen p l) ({ shared := { state := st } }, r)
        (noted lastMoved { shared := { state := st } } r xs) := by
  intro h
  have hpath := h { relayMode := .dual, serial := true } "1" .idle none
    (takeTurns (lane { relayMode := .dual, serial := true } "1") boot passingInBetween)
    (commanded_path (by simp [passingInBetween]))
  revert hpath
  decide +kernel

end ParkIt.GateIn
