import ParkIt.GateIn.Barrier

/-! Commands that were added before the daemon was started. -/
namespace ParkIt.GateIn

open Effects ByteString Tasks Transition

/-- What is left of the lane when the daemon starts anew: Redis keeps what its group has not been
given, and a group that is new is given the whole stream. -/
def Lane.restarted (s : Lane) (st : GateState) : Lane :=
  { state := st, events := s.events, commands := s.commands, nextCommand := s.nextCommand }

/-- The tasks of the daemon are gone; the event consumer is a process of its own. -/
def restarted (s : LaneSys) (st : GateState) : LaneSys where
  shared := s.shared.restarted st
  task i := if i = .consumer then s.task i else none

/-- The lane, and the number of the first command that is added after the last start. -/
abbrev Life := LaneSys × Nat

/-- A step of the lane, or a start of the daemon, after a stop or a crash at any point. -/
inductive LifeStep (cfg : Config) (gateId : String) : Life → Option LaneLabel → Life → Prop
  | step {s l s' since} : LaneStep cfg gateId s l s' → LifeStep cfg gateId (s, since) (some l) (s', since)
  | restart {s since} (st : GateState) :
      LifeStep cfg gateId (s, since) none (restarted s st, s.shared.nextCommand)

/-- The task that fires the relay. -/
def firesRelay : Option LaneLabel → Option TaskIx
  | some (.go i ⟨.write command, true⟩) => if command.opens then some i else none
  | _ => none

/-- The relay is fired for a command that was added after the start. -/
def NoGhost (p : Life) (l : Option LaneLabel) : Prop :=
  ∀ i ∈ firesRelay l, ∃ c ∈ handled p.1 i, c.Opens ∧ p.2 ≤ c.id

instance (p : Life) (l : Option LaneLabel) : Decidable (NoGhost p l) :=
  inferInstanceAs (Decidable (∀ i ∈ firesRelay l, _))

/-- A start finds no command in the stream that opens the gate and has not been delivered. -/
def StartsClear (p : Life) (l : Option LaneLabel) : Prop :=
  l.isNone = true → ∀ c ∈ p.1.shared.commands, ¬ c.Opens

instance (p : Life) (l : Option LaneLabel) : Decidable (StartsClear p l) :=
  inferInstanceAs (Decidable (_ → _))

section Commands
variable {cfg : Config} {gateId : String} {s s' : Lane}

/-- Commands are taken away, or added under new numbers. -/
structure Newer (s s' : Lane) : Prop where
  next : s.nextCommand ≤ s'.nextCommand
  commands : ∀ c ∈ s'.commands, c ∈ s.commands ∨ s.nextCommand ≤ c.id

theorem newer_of_subset (hnext : s'.nextCommand = s.nextCommand)
    (h : s'.commands ⊆ s.commands) : Newer s s' :=
  ⟨hnext.ge, fun _ hc => Or.inl (h hc)⟩

theorem newer_enqueue (fields : Fields) (origin : Option Nat) :
    Newer s (s.enqueue fields origin) := by
  refine ⟨Nat.le_succ _, fun c hc => ?_⟩
  rcases List.mem_append.mp hc with hc | hc
  · exact Or.inl hc
  · rw [List.mem_singleton.mp hc]
    exact Or.inr (Nat.le_refl _)

theorem perform_newer (o : LaneOp) (x : Oracle) : Newer s (perform gateId o x s).2 := by
  cases o with
  | publish e eventId n =>
    dsimp only [perform]
    split <;> exact newer_of_subset rfl (List.Subset.refl _)
  | publishCommand c n =>
    dsimp only [perform]
    split
    · exact newer_enqueue _ _
    · exact newer_of_subset rfl (List.Subset.refl _)
  | xreadgroup =>
    dsimp only [perform]
    split
    · exact newer_of_subset rfl (List.Subset.refl _)
    · rename_i c commands hcommands
      dsimp only
      split
      · exact newer_of_subset rfl (hcommands ▸ List.subset_cons_self ..)
      · exact newer_of_subset rfl (List.Subset.refl _)
  | _ => exact newer_of_subset rfl (List.Subset.refl _)

theorem start_newer {i : TaskIx} {c : Cause} (h : starts i c s = some s') : Newer s s' := by
  unfold starts at h
  split at h
  · cases h; exact newer_of_subset rfl (List.Subset.refl _)
  · cases h; exact newer_of_subset rfl (List.Subset.refl _)
  · cases h; exact newer_of_subset rfl (List.Subset.refl _)
  · cases h; exact newer_of_subset rfl (List.Subset.refl _)
  · split at h
    · cases h; exact newer_of_subset rfl (List.Subset.refl _)
    · cases h
  · split at h
    · cases h
    · split at h
      · cases h; exact newer_of_subset rfl (List.Subset.refl _)
      · cases h
  · cases h

theorem outside_newer (h : Outside s s') : Newer s s' := by
  cases h with
  | command fields => exact newer_enqueue fields none
  | events _ => exact newer_of_subset rfl (List.Subset.refl _)
  | commands hsub => exact newer_of_subset rfl hsub.subset

theorem newer_step {s s' : LaneSys} {l : LaneLabel} (h : LaneStep cfg gateId s l s') :
    Newer s.shared s'.shared := by
  cases l with
  | start i c =>
    cases h with
    | start _ _ hsh => exact start_newer hsh
  | go i e =>
    obtain ⟨t, t', ht⟩ := took h
    obtain ⟨x, -, hx⟩ := took_perform ht
    exact hx ▸ perform_newer e.op x
  | stop i =>
    cases h with
    | stop _ _ _ => exact newer_of_subset rfl (List.Subset.refl _)
  | outside =>
    cases h with
    | outside hsh => exact outside_newer hsh

theorem read_mem {x : Oracle} {c : Command} (h : .message c = (perform gateId .xreadgroup x s).1) :
    c ∈ s.commands := by
  dsimp only [perform] at h
  split at h
  · split at h <;> cases h
  · rename_i c' commands hcommands
    split at h
    · cases h
      exact hcommands ▸ List.mem_cons_self
    · cases h

end Commands

section Notes
variable {g : Note} {o : LaneOp} {a : o.Ans}

/-- A command that is handled has been handled before, or it has just been read. -/
theorem command_next {c : Command} (h : (Note.next g o a).command = some c) :
    g.command = some c ∨ (⟨o, a⟩ : Event LaneOp LaneOp.Ans) = ⟨.xreadgroup, .message c⟩ := by
  by_cases ho : o = .xreadgroup
  · subst ho
    cases a with
    | message c' => cases h; exact Or.inr rfl
    | _ => exact Or.inl h
  · exact Or.inl (next_command ho ▸ h)

end Notes

section Lives
variable {cfg : Config} {gateId : String} {s s' : LaneSys} {since : Nat} {l : LaneLabel}
  {p q : Life}

/-- Commands that open the gate are new, wherever they are. -/
structure Fresh (cfg : Config) (p : Life) : Prop where
  protocol : InProtocol (moves cfg) Note.start (fun _ g => g.Finished cfg) p.1
  reading : Each (fun _ => Reading cfg) p.1
  since : p.2 ≤ p.1.shared.nextCommand
  stream : ∀ c ∈ p.1.shared.commands, c.Opens → p.2 ≤ c.id
  task : ∀ i t, p.1.task i = some t → ∀ c, (note t).command = some c → c.Opens → p.2 ≤ c.id

theorem fresh_boot : Fresh cfg (boot, 0) where
  protocol _ _ h := by cases h
  reading _ _ h := by cases h
  since := Nat.le_refl 0
  stream _ h := by cases h
  task _ _ h := by cases h

/-- The event consumer, which lives on, handles no command. -/
theorem fresh_restart (st : GateState) (h : Fresh cfg (s, since))
    (hclear : ∀ c ∈ s.shared.commands, ¬ c.Opens) :
    Fresh cfg (restarted s st, s.shared.nextCommand) := by
  have hback : ∀ {i t}, (restarted s st).task i = some t → i = .consumer ∧ s.task i = some t := by
    intro i t ht
    change (if i = .consumer then s.task i else none) = some t at ht
    split at ht
    · exact ⟨‹_›, ht⟩
    · cases ht
  refine ⟨fun i t ht => h.protocol i t (hback ht).2, fun i t ht => h.reading i t (hback ht).2,
    Nat.le_refl _, fun c hc hopens => absurd hopens (hclear c hc), fun i t ht c hc => ?_⟩
  obtain ⟨rfl, ht⟩ := hback ht
  have hcommands := (h.reading _ t ht).command fun hnone => by rw [hc] at hnone; cases hnone
  cases hcommands

theorem fresh_step (hp : Fresh cfg (s, since)) (h : LaneStep cfg gateId s l s') :
    Fresh cfg (s', since) := by
  have hnewer := newer_step h
  refine ⟨inProtocol_step (follows_code cfg) (fun _ _ _ _ => trivial) h hp.protocol,
    reading_step h hp.reading, hp.since.trans hnewer.next, fun c hc hopens => ?_,
    fun j u hu c hc hopens => ?_⟩
  · rcases hnewer.commands c hc with hc | hnew
    · exact hp.stream c hc hopens
    · exact hp.since.trans hnew
  · rcases task_back h hu with ⟨hu, -⟩ | ⟨c, -, -, rfl⟩ | ⟨o, a, t, -, ht⟩
    · exact hp.task j u hu c hc hopens
    · cases hc
    · rw [took_note ht] at hc
      rcases command_next hc with hc | hread
      · exact hp.task j t ht.before c hc hopens
      · cases hread
        obtain ⟨x, hx, -⟩ := took_perform ht
        exact hp.stream c (read_mem hx) hopens

theorem noGhost_step (hp : Fresh cfg (s, since)) (h : LaneStep cfg gateId s l s') :
    NoGhost (s, since) (some l) := by
  intro i hi
  unfold firesRelay at hi
  split at hi
  · rename_i heq
    split at hi
    · rename_i hopens
      cases hi
      cases heq
      obtain ⟨t, t', ht⟩ := took h
      obtain ⟨-, c, hc, hcopens⟩ := ht.allow hp.protocol hopens
      exact ⟨c, (handled_eq ht.before).symm ▸ hc, hcopens, hp.task i t ht.before c hc hcopens⟩
    · cases hi
  · cases hi

/-- When no start finds an undelivered command that opens the gate, none of an earlier life does. -/
theorem no_ghost_open (cfg : Config) (gateId : String) {xs : List (Option LaneLabel × Life)}
    (h : Path (LifeStep cfg gateId) (boot, 0) xs)
    (hclear : Path (fun p l _ => StartsClear p l) (boot, 0) xs) :
    Path (fun p l _ => NoGhost p l) (boot, 0) xs := by
  refine (h.and hclear).each (P := Fresh cfg) ?_ ?_ fresh_boot
  · rintro p l q ⟨hstep, hclear⟩ hp
    cases hstep with
    | step hstep => exact fresh_step hp hstep
    | restart st => exact fresh_restart st hp (hclear rfl)
  · rintro p l q ⟨hstep, -⟩ hp
    cases hstep with
    | step hstep => exact noGhost_step hp hstep
    | restart st => exact fun i hi => by cases hi

end Lives

/-- A run of the lane in one life of the daemon. -/
def lived (since : Nat) (xs : List (LaneLabel × LaneSys)) : List (Option LaneLabel × Life) :=
  xs.map fun x => (some x.1, x.2, since)

theorem lived_path {cfg : Config} {gateId : String} {s : LaneSys} (since : Nat)
    {xs : List (LaneLabel × LaneSys)} (h : Path (LaneStep cfg gateId) s xs) :
    Path (LifeStep cfg gateId) (s, since) (lived since xs) := by
  induction xs generalizing s with
  | nil => trivial
  | cons x xs ih => exact ⟨.step h.1, ih h.2⟩

def openGate : LaneTurn := command [("command_type", "open_gate")]

/-- The daemon fires the relay for the next command. -/
def firing : List LaneTurn := .start .commands .commands :: goes .commands 6

/-- The daemon is started, and then a command is added. -/
def openedAfterStart : List (Option LaneLabel × Life) :=
  (none, restarted boot .idle, 0) ::
    lived 0 (takeTurns (lane {} "1") (restarted boot .idle) (openGate :: firing))

theorem no_ghost_open_after_start :
    Path (LifeStep {} "1") (boot, 0) openedAfterStart ∧
      openedAfterStart.filterMap (firesRelay ·.1) = [.commands] ∧
      Path (fun p l _ => NoGhost p l) (boot, 0) openedAfterStart := by
  have hpath : Path (LifeStep {} "1") (boot, 0) openedAfterStart :=
    ⟨.restart .idle, lived_path 0 (commanded_path (by simp [openGate, firing]))⟩
  exact ⟨hpath, by decide +kernel, no_ghost_open {} "1" hpath (by decide +kernel)⟩

/-- A command is added while the daemon is down. -/
def openedBeforeStart : List (Option LaneLabel × Life) :=
  let added := takeTurns (lane {} "1") boot [openGate]
  lived 0 added ++ (none, restarted (finish boot added) .idle, 1) ::
    lived 1 (takeTurns (lane {} "1") (restarted (finish boot added) .idle) firing)

/-- It opens the gate when the daemon is up again. -/
theorem ghost_open_after_start :
    ¬ ∀ (cfg : Config) (gateId : String) (xs : List (Option LaneLabel × Life)),
      Path (LifeStep cfg gateId) (boot, 0) xs → Path (fun p l _ => NoGhost p l) (boot, 0) xs := by
  intro h
  have hadded : Path (LaneStep {} "1") boot (takeTurns (lane {} "1") boot [openGate]) :=
    commanded_path (by simp [openGate])
  have hpath := h {} "1" openedBeforeStart (path_append.mpr ⟨lived_path 0 hadded, .restart .idle,
    lived_path 1 (commanded_path (by simp [firing]))⟩)
  revert hpath
  decide +kernel

end ParkIt.GateIn
