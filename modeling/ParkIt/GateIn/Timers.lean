import ParkIt.GateIn.Runs

/-! Whose episode a timer ends. -/
namespace ParkIt.GateIn

open Effects ByteString Tasks Transition

/-- The write that the timer was started after. -/
def Timer.number : Timer → Nat
  | .validating n | .vehiclePass n => n

/-- The timer that a handler has still to start. -/
def Phase.owes : Phase → Option Timer
  | .read n | .timed n => some (.validating n)
  | .opened n | .armed n => some (.vehiclePass n)
  | _ => none

/-- A timer that is still to come: to be started, waiting to start, or asleep. -/
inductive Outstanding (s : LaneSys) (t : Timer) : Prop
  | owed {i u} : s.task i = some u → (note u).phase.owes = some t → Outstanding s t
  | spawned {i} : (i, t) ∈ s.shared.spawned → i ∉ s.shared.cancelled → Outstanding s t
  | asleep {i u} : s.task i = some u → u.cause = .timer t → (note u).phase = .due →
      ended u.rest = false → isCancelled i s.shared = false → Outstanding s t

section Notes
variable {g : Note} {o : LaneOp} {a : o.Ans} {t : Timer} {p : Phase}

/-- A timer is owed from the write on. -/
theorem owes_next (h : (Note.next g o a).phase.owes = some t) :
    g.phase.owes = some t ∨
      (⟨o, a⟩ : Event LaneOp LaneOp.Ans) = ⟨.setState t.state, t.number⟩ := by
  generalize hp : (Note.next g o a).phase = p at h
  rcases next_phase hp with hphase | hshift
  · exact Or.inl (hphase ▸ h)
  · generalize (⟨o, a⟩ : Event LaneOp LaneOp.Ans) = e at hshift
    cases hshift with
    | timed hread => exact Or.inl (hread ▸ h)
    | armed hopened => exact Or.inl (hopened ▸ h)
    | read => cases h; exact Or.inr rfl
    | opened => cases h; exact Or.inr rfl
    | _ => cases h

/-- A timer is due from the start on. -/
theorem due_next (h : (Note.next g o a).phase = .due) : g.phase = .due := by
  rcases next_phase h with hphase | hshift
  · exact hphase
  · cases hshift

theorem held_next {k : TaskId} (h : (Note.next g o a).phase = .held k) :
    g.phase = .held k ∨
      ∃ n, (⟨o, a⟩ : Event LaneOp LaneOp.Ans) = ⟨.spawn (.validating n), k⟩ := by
  rcases next_phase h with hphase | hshift
  · exact Or.inl hphase
  · generalize (⟨o, a⟩ : Event LaneOp LaneOp.Ans) = e at hshift
    cases hshift with
    | held => exact Or.inr ⟨_, rfl⟩

theorem calling_next {k : TaskId} (h : (Note.next g o a).phase = .calling k) :
    g.phase = .calling k ∨ (⟨o, a⟩ : Event LaneOp LaneOp.Ans) = ⟨.validatingTask, some k⟩ := by
  rcases next_phase h with hphase | hshift
  · exact Or.inl hphase
  · generalize (⟨o, a⟩ : Event LaneOp LaneOp.Ans) = e at hshift
    cases hshift with
    | calling => exact Or.inr rfl

end Notes

section Steps
variable {cfg : Config} {gateId : String} {s s' : LaneSys} {l : LaneLabel} {i : TaskIx}
  {t : Timer}

theorem carries_alarms {sh sh' : Lane} (h : Carries sh sh') :
    sh'.spawned = sh.spawned ∧ sh'.cancelled = sh.cancelled ∧ sh'.nextTask = sh.nextTask ∧
      sh'.validatingTask = sh.validatingTask := by
  have halarms := h.alarms
  unfold Lane.alarms at halarms
  rw [Prod.mk.injEq, Prod.mk.injEq, Prod.mk.injEq] at halarms
  exact ⟨halarms.1, halarms.2.2.1, halarms.2.1, halarms.2.2.2⟩

theorem cancelled_step (h : LaneStep cfg gateId s l s') :
    s.shared.cancelled ⊆ s'.shared.cancelled := by
  have hchange := step_change h
  generalize s'.shared = sh at hchange
  cases hchange with
  | carries hcarries => exact (carries_alarms hcarries).2.1 ▸ List.Subset.refl _
  | cancelled hsh => rw [hsh]; exact List.subset_cons_self ..
  | started _ hsh | wrote hsh | spawned hsh | held hsh | taken hsh =>
    rw [hsh]; exact List.Subset.refl _

theorem alive_back (h : LaneStep cfg gateId s l s') (halive : isCancelled i s'.shared = false) :
    isCancelled i s.shared = false := by
  cases i with
  | timer k =>
    simp only [isCancelled, List.contains_eq_mem, decide_eq_false_iff_not] at halive ⊢
    exact fun hmem => halive (cancelled_step h hmem)
  | _ => rfl

theorem spawned_step {k : TaskId} (h : LaneStep cfg gateId s l s')
    (hk : (k, t) ∈ s'.shared.spawned) :
    (k, t) ∈ s.shared.spawned ∨ k = s.shared.nextTask ∧ ∃ i, l = .go i ⟨.spawn t, k⟩ := by
  have hchange := step_change h
  generalize s'.shared = sh at hchange hk
  cases hchange with
  | carries hcarries => exact Or.inl ((carries_alarms hcarries).1 ▸ hk)
  | started _ hsh =>
    rw [hsh] at hk
    exact Or.inl (List.mem_of_mem_filter hk)
  | spawned hsh =>
    rw [hsh] at hk
    rcases List.mem_append.mp hk with hk | hk
    · exact Or.inl hk
    · cases List.mem_singleton.mp hk
      exact Or.inr ⟨rfl, _, rfl⟩
  | wrote hsh | held hsh | cancelled hsh | taken hsh => rw [hsh] at hk; exact Or.inl hk

theorem start_spawned {sh sh' : Lane} {k : TaskId} {c : Cause}
    (h : starts (.timer k) c sh = some sh') : ∃ t, (k, t) ∈ sh.spawned := by
  cases c with
  | timer t =>
    simp only [starts] at h
    split at h
    · exact ⟨t, ‹_›⟩
    · cases h
  | _ => cases h

theorem start_timer {sh sh' : Lane} (h : starts i (.timer t) sh = some sh') :
    ∃ k, i = .timer k ∧ (k, t) ∈ sh.spawned := by
  cases i with
  | timer k =>
    simp only [starts] at h
    split at h
    · exact ⟨k, rfl, ‹_›⟩
    · cases h
  | _ => cases h

/-- A timer that is outstanding was so before, or is owed for the write just made. -/
theorem outstanding_back (hs : Sound cfg gateId s) (h : LaneStep cfg gateId s l s')
    (ht : Outstanding s' t) :
    Outstanding s t ∨ ∃ i, l = .go i ⟨.setState t.state, t.number⟩ := by
  cases ht with
  | @owed i u hu howes =>
    rcases task_back h hu with ⟨hu, -⟩ | ⟨c, -, -, rfl⟩ | ⟨o, a, v, rfl, hv⟩
    · exact Or.inl (.owed hu howes)
    · cases c <;> cases howes
    · rw [took_note hv] at howes
      rcases owes_next howes with howes | he
      · exact Or.inl (.owed hv.before howes)
      · exact Or.inr ⟨i, by rw [he]⟩
  | @spawned k hk hcancel =>
    rcases spawned_step h hk with hk | ⟨-, i, rfl⟩
    · exact Or.inl (.spawned hk fun hmem => hcancel (cancelled_step h hmem))
    · obtain ⟨u, u', hu⟩ := took h
      have hallow := hu.allow hs.protocol
      refine Or.inl (.owed hu.before ?_)
      cases t with
      | validating n => exact congrArg Phase.owes hallow
      | vehiclePass n => exact congrArg Phase.owes hallow
  | @asleep i u hu hcause hdue hended halive =>
    rcases task_back h hu with ⟨hu, -⟩ | ⟨c, rfl, hsh, rfl⟩ | ⟨o, a, v, rfl, hv⟩
    · exact Or.inl (.asleep hu hcause hdue hended (alive_back h halive))
    · have hcause : c = .timer t := hcause
      subst hcause
      obtain ⟨k, rfl, hk⟩ := start_timer hsh
      refine Or.inl (.spawned hk fun hmem => ?_)
      have hmem' := cancelled_step h hmem
      simp [isCancelled, hmem'] at halive
    · rw [took_note hv] at hdue
      obtain ⟨k, hrest, -⟩ := hv.asks
      refine Or.inl (.asleep hv.before (hv.cause ▸ hcause) (due_next hdue) ?_ hv.alive)
      rw [hrest]
      rfl

end Steps

section Alarms
variable {cfg : Config} {gateId : String} {s s' : LaneSys} {l : LaneLabel} {k : TaskId}

/-- An id that is called off, or that a handler may call off. -/
def Callable (s : LaneSys) (k : TaskId) : Prop :=
  k ∈ s.shared.cancelled ∨ s.shared.validatingTask = some k ∨
    ∃ i u, s.task i = some u ∧ ((note u).phase = .held k ∨ (note u).phase = .calling k)

/-- The id of a validating timer. -/
structure Validated (s : LaneSys) (k : TaskId) : Prop where
  spawned : ∀ t, (k, t) ∈ s.shared.spawned → ∃ n, t = .validating n
  started : ∀ u t, s.task (.timer k) = some u → u.cause = .timer t → ∃ n, t = .validating n
  known : k < s.shared.nextTask

/-- Only validating timers are called off. -/
structure Alarmed (s : LaneSys) : Prop where
  spawned : ∀ k t, (k, t) ∈ s.shared.spawned → k < s.shared.nextTask
  started : ∀ k u, s.task (.timer k) = some u → k < s.shared.nextTask
  called : ∀ k, Callable s k → Validated s k

theorem nextTask_step (h : LaneStep cfg gateId s l s') :
    s.shared.nextTask ≤ s'.shared.nextTask := by
  have hchange := step_change h
  generalize s'.shared = sh at hchange
  cases hchange with
  | carries hcarries => exact (carries_alarms hcarries).2.2.1 ▸ Nat.le_refl _
  | spawned hsh => rw [hsh]; exact Nat.le_succ _
  | started _ hsh | wrote hsh | held hsh | cancelled hsh | taken hsh =>
    rw [hsh]

theorem started_known (hs : Alarmed s) (h : LaneStep cfg gateId s l s') {u : LaneTask}
    (hu : s'.task (.timer k) = some u) : k < s.shared.nextTask := by
  rcases task_back h hu with ⟨hu, -⟩ | ⟨c, -, hsh, -⟩ | ⟨o, a, v, -, hv⟩
  · exact hs.started k u hu
  · obtain ⟨t, hk⟩ := start_spawned hsh
    exact hs.spawned k t hk
  · exact hs.started k v hv.before

theorem validated_step (h : LaneStep cfg gateId s l s') (hk : Validated s k) :
    Validated s' k := by
  refine ⟨fun t ht => ?_, fun u t hu hcause => ?_, Nat.lt_of_lt_of_le hk.known (nextTask_step h)⟩
  · rcases spawned_step h ht with ht | ⟨hfresh, -⟩
    · exact hk.spawned t ht
    · exact absurd hk.known (hfresh ▸ Nat.lt_irrefl _)
  · rcases task_back h hu with ⟨hu, -⟩ | ⟨c, -, hsh, rfl⟩ | ⟨o, a, v, -, hv⟩
    · exact hk.started u t hu hcause
    · have hcause : c = .timer t := hcause
      subst hcause
      obtain ⟨k', heq, ht⟩ := start_timer (i := .timer k) (t := t) hsh
      cases heq
      exact hk.spawned t ht
    · exact hk.started v t hv.before (hv.cause ▸ hcause)

theorem callable_back (hs : Sound cfg gateId s) (h : LaneStep cfg gateId s l s')
    (hk : Callable s' k) : Callable s k ∨ ∃ i n, l = .go i ⟨.spawn (.validating n), k⟩ := by
  have hchange := step_change h
  rcases hk with hk | hk | ⟨i, u, hu, hphase⟩
  · generalize s'.shared = sh at hchange hk
    cases hchange with
    | carries hcarries => exact Or.inl (Or.inl ((carries_alarms hcarries).2.1 ▸ hk))
    | @cancelled i k' _ hsh =>
      rw [hsh] at hk
      rcases List.mem_cons.mp hk with rfl | hk
      · obtain ⟨u, u', hu⟩ := took h
        exact Or.inl (Or.inr (Or.inr ⟨i, u, hu.before, Or.inr (hu.allow hs.protocol).1⟩))
      · exact Or.inl (Or.inl hk)
    | started _ hsh | wrote hsh | spawned hsh | held hsh | taken hsh =>
      rw [hsh] at hk
      exact Or.inl (Or.inl hk)
  · generalize s'.shared = sh at hchange hk
    cases hchange with
    | carries hcarries =>
      exact Or.inl (Or.inr (Or.inl ((carries_alarms hcarries).2.2.2 ▸ hk)))
    | @held i k' _ hsh =>
      rw [hsh] at hk
      cases hk
      obtain ⟨u, u', hu⟩ := took h
      exact Or.inl (Or.inr (Or.inr ⟨i, u, hu.before, Or.inl (hu.allow hs.protocol)⟩))
    | started _ hsh | wrote hsh | spawned hsh | cancelled hsh | taken hsh =>
      rw [hsh] at hk
      exact Or.inl (Or.inr (Or.inl hk))
  · rcases task_back h hu with ⟨hu, -⟩ | ⟨c, -, -, rfl⟩ | ⟨o, a, v, rfl, hv⟩
    · exact Or.inl (Or.inr (Or.inr ⟨i, u, hu, hphase⟩))
    · cases c <;> rcases hphase with hphase | hphase <;> cases hphase
    · rw [took_note hv] at hphase
      rcases hphase with hphase | hphase
      · rcases held_next hphase with hheld | ⟨n, he⟩
        · exact Or.inl (Or.inr (Or.inr ⟨i, v, hv.before, Or.inl hheld⟩))
        · exact Or.inr ⟨i, n, by rw [he]⟩
      · rcases calling_next hphase with hcalling | he
        · exact Or.inl (Or.inr (Or.inr ⟨i, v, hv.before, Or.inr hcalling⟩))
        · cases he
          obtain ⟨x, ha, -⟩ := took_perform hv
          exact Or.inl (Or.inr (Or.inl ha.symm))

/-- The id of a new timer is a new one. -/
theorem validated_spawned (halarmed : Alarmed s) {i : TaskIx} {n : Nat}
    (h : LaneStep cfg gateId s (.go i ⟨.spawn (.validating n), k⟩) s') : Validated s' k := by
  have hchange := step_change h
  have hfresh : k = s.shared.nextTask ∧ s'.shared.nextTask = s.shared.nextTask + 1 := by
    obtain ⟨u, u', hu⟩ := took h
    obtain ⟨x, ha, hx⟩ := took_perform hu
    exact ⟨ha, by rw [hx]; rfl⟩
  refine ⟨fun t ht => ?_, fun u t hu hcause => ?_, ?_⟩
  · rcases spawned_step h ht with ht | ⟨-, j, hj⟩
    · exact absurd (halarmed.spawned k t ht) (hfresh.1 ▸ Nat.lt_irrefl _)
    · cases hj
      exact ⟨n, rfl⟩
  · exact absurd (started_known halarmed h hu) (hfresh.1 ▸ Nat.lt_irrefl _)
  · rw [hfresh.1, hfresh.2]
    exact Nat.lt_succ_self _

theorem alarmed_step (hs : Sound cfg gateId s) (h : LaneStep cfg gateId s l s')
    (halarmed : Alarmed s) : Alarmed s' := by
  refine ⟨fun k t ht => ?_, fun k u hu => ?_, fun k hk => ?_⟩
  · rcases spawned_step h ht with ht | ⟨hk, i, rfl⟩
    · exact Nat.lt_of_lt_of_le (halarmed.spawned k t ht) (nextTask_step h)
    · obtain ⟨u, u', hu⟩ := took h
      obtain ⟨x, -, hx⟩ := took_perform hu
      rw [hk, hx]
      exact Nat.lt_succ_self _
  · exact Nat.lt_of_lt_of_le (started_known halarmed h hu) (nextTask_step h)
  · rcases callable_back hs h hk with hk | ⟨i, n, rfl⟩
    · exact validated_step h (halarmed.called k hk)
    · exact validated_spawned halarmed h

theorem alarmed_boot : Alarmed boot := by
  refine ⟨fun k t ht => (nomatch ht), fun k u hu => (nomatch hu), fun k hk => ?_⟩
  rcases hk with hk | hk | ⟨i, u, hu, -⟩
  · cases hk
  · cases hk
  · cases hu

/-- The timer of an opening is never called off. -/
theorem Alarmed.pass_alive (halarmed : Alarmed s) {u : LaneTask} {n : Nat} {i : TaskIx}
    (hu : s.task i = some u) (hcause : u.cause = .timer (.vehiclePass n)) :
    isCancelled i s.shared = false := by
  cases i with
  | timer k =>
    simp only [isCancelled, List.contains_eq_mem, decide_eq_false_iff_not]
    intro hk
    obtain ⟨m, hm⟩ := (halarmed.called k (Or.inl hk)).started u _ hu hcause
    cases hm
  | _ => rfl

theorem alarmed_run {xs : List (LaneLabel × LaneSys)} (h : Path (LaneStep cfg gateId) boot xs) :
    Alarmed (finish boot xs) :=
  (h.invariant (P := fun s => Sound cfg gateId s ∧ Alarmed s)
    (fun _ _ _ hstep hs => ⟨sound_step hstep hs.1, alarmed_step hs.1 hstep hs.2⟩)
    ⟨sound_start marked_start, alarmed_boot⟩).2

theorem pass_alive_run {xs : List (LaneLabel × LaneSys)} {u : LaneTask} {n : Nat} {i : TaskIx}
    (h : Path (LaneStep cfg gateId) boot xs) (hu : (finish boot xs).task i = some u)
    (hcause : u.cause = .timer (.vehiclePass n)) :
    isCancelled i (finish boot xs).shared = false := (alarmed_run h).pass_alive hu hcause

end Alarms

/-- An episode that a timer looks after begins when no such timer is outstanding any more. -/
def Spaced (s : LaneSys) (l : LaneLabel) : Prop :=
  ∀ i st n t, l = .go i ⟨.setState st, n⟩ → t.state = st → ¬ Outstanding s t

/-- A timer that writes the state ends the episode that it was started in. -/
def OwnEpisode (s : LaneSys) (l : LaneLabel) : Prop :=
  match l with
  | .go i ⟨.setState st, _⟩ =>
    match (s.task i).map Task.cause with
    | some (.timer t) => st = .idle ∧ s.shared.state = t.state ∧ s.shared.writes = t.number
    | _ => True
  | _ => True

instance (s : LaneSys) (l : LaneLabel) : Decidable (OwnEpisode s l) := by
  unfold OwnEpisode
  split
  · split <;> infer_instance
  · infer_instance

/-- Every outstanding timer belongs to the last episode of its state. -/
def Timely (s : LaneSys) : Prop := ∀ t, Outstanding s t → s.shared.entered t.state = t.number

section Episodes
variable {cfg : Config} {gateId : String} {s s' : LaneSys} {l : LaneLabel}

theorem timely_step (hs : Sound cfg gateId s) (h : LaneStep cfg gateId s l s')
    (hspaced : Spaced s l) (htimely : Timely s) : Timely s' := by
  intro t ht
  by_cases hwrite : ∃ i st n, l = .go i ⟨.setState st, n⟩
  · obtain ⟨i, st, n, rfl⟩ := hwrite
    obtain ⟨u, u', hu⟩ := took h
    obtain ⟨hn, -, -, hentered⟩ := took_write hu
    rw [hentered]
    rcases outstanding_back hs h ht with ht | ⟨j, hj⟩
    · have hne : t.state ≠ st := fun hst => hspaced i st n t rfl hst ht
      rw [Function.update_of_ne hne]
      exact htimely t ht
    · cases hj
      rw [Function.update_self]
      exact hn.symm
  · have hmark := mark_step h fun i st n heq => hwrite ⟨i, st, n, heq⟩
    have hentered : s'.shared.entered = s.shared.entered := by
      unfold Lane.mark at hmark
      rw [Prod.mk.injEq, Prod.mk.injEq] at hmark
      exact hmark.2.2
    rcases outstanding_back hs h ht with ht | ⟨i, rfl⟩
    · rw [hentered]
      exact htimely t ht
    · exact absurd ⟨i, _, _, rfl⟩ hwrite

theorem ownEpisode_step (hs : Sound cfg gateId s) (h : LaneStep cfg gateId s l s')
    (htimely : Timely s) : OwnEpisode s l := by
  unfold OwnEpisode
  split
  · rename_i i st n
    split
    · rename_i t hcause
      obtain ⟨u, u', hu⟩ := took h
      obtain ⟨hmay, hseen⟩ := hs.write hu
      obtain ⟨k, hrest, -⟩ := hu.asks
      rw [hu.before] at hcause
      have hcause : u.cause = .timer t := Option.some.inj hcause
      obtain ⟨hidle, hdue, hlook⟩ := (mayAct_timer ((note_cause u).trans hcause)).mp hmay.acts
      have hstate := hseen _ hlook
      have hentered := htimely t (.asleep hu.before hcause hdue (by rw [hrest]; rfl) hu.alive)
      refine ⟨hidle, hstate, ?_⟩
      rcases hs.marked.current with ⟨-, hfirst⟩ | hcurrent
      · cases t <;> cases hstate.symm.trans hfirst
      · rw [← hcurrent, hstate, hentered]
    · trivial
  · trivial

theorem not_outstanding_boot (t : Timer) : ¬ Outstanding boot t := by
  intro ht
  cases ht with
  | owed hu _ => cases hu
  | spawned hk _ => cases hk
  | asleep hu _ _ _ _ => cases hu

/-- A timer that was started in one episode never ends another one. -/
theorem timers_end_own_episode (cfg : Config) (gateId : String) {xs : List (LaneLabel × LaneSys)}
    (h : Path (LaneStep cfg gateId) boot xs) (hspaced : Path (fun s l _ => Spaced s l) boot xs) :
    Path (fun s l _ => OwnEpisode s l) boot xs := by
  refine (h.and hspaced).each (P := fun s => Sound cfg gateId s ∧ Timely s) ?_ ?_
    ⟨sound_start marked_start, fun t ht => absurd ht (not_outstanding_boot t)⟩
  · rintro s l s' ⟨hstep, hspaced⟩ ⟨hsound, htimely⟩
    exact ⟨sound_step hstep hsound, timely_step hsound hstep hspaced htimely⟩
  · rintro s l s' ⟨hstep, -⟩ ⟨hsound, htimely⟩
    exact ownEpisode_step hsound hstep htimely

/-- The state that a step writes. -/
def writeOf : LaneLabel → Option GateState
  | .go _ ⟨.setState st, _⟩ => some st
  | _ => none

/-- An outstanding timer was asked for by a write. -/
theorem outstanding_written {xs : List (LaneLabel × LaneSys)} {t : Timer}
    (h : Path (LaneStep cfg gateId) boot xs) (ht : Outstanding (finish boot xs) t) :
    t.state ∈ (xs.map Prod.fst).filterMap writeOf := by
  let Q : List LaneLabel → LaneSys → Prop := fun as s =>
    Sound cfg gateId s ∧ ∀ t, Outstanding s t → t.state ∈ as.filterMap writeOf
  have hboot : Q [] boot :=
    ⟨sound_start marked_start, fun t ht => absurd ht (not_outstanding_boot t)⟩
  refine (h.history (Q := Q) (fun as s l s' hstep hQ => ?_) hboot).2 t ht
  refine ⟨sound_step hstep hQ.1, fun t ht => ?_⟩
  rw [List.filterMap_append, List.mem_append]
  rcases outstanding_back hQ.1 hstep ht with ht | ⟨i, rfl⟩
  · exact Or.inl (hQ.2 t ht)
  · exact Or.inr (List.mem_singleton.mpr rfl)

/-- A run that enters every state once only is spaced. -/
theorem spaced_of_nodup {xs : List (LaneLabel × LaneSys)} (h : Path (LaneStep cfg gateId) boot xs)
    (hnodup : ((xs.map Prod.fst).filterMap writeOf).Nodup) :
    Path (fun s l _ => Spaced s l) boot xs := by
  refine path_of_split fun pre l s' post heq i st n t hl hst ht => ?_
  subst heq hl hst
  have hmem := outstanding_written (path_append.mp h).1 ht
  rw [List.map_append, List.filterMap_append] at hnodup
  exact (List.nodup_append.mp hnodup).2.2 _ hmem _ List.mem_cons_self rfl

end Episodes

/-- A vehicle that the lane does not see leave. -/
def oneVehicle : List LaneTurn :=
  [command [("command_type", "open_gate")], .start .commands .commands] ++ goes .commands 17 ++
  [.stop .commands, .start (.timer 0) (.timer (.vehiclePass 1))] ++ goes (.timer 0) 18

theorem oneVehicle_ends_own_episode :
    ∃ xs, Path (LaneStep {} "1") boot xs ∧ ((xs.map Prod.fst).filterMap writeOf) = [.opening, .idle] ∧
      Path (fun s l _ => OwnEpisode s l) boot xs := by
  have hpath : Path (LaneStep {} "1") boot (takeTurns (lane {} "1") boot oneVehicle) :=
    commanded_path (by simp [oneVehicle])
  have hwrites : ((takeTurns (lane {} "1") boot oneVehicle).map Prod.fst).filterMap writeOf =
      [.opening, .idle] := by decide +kernel
  refine ⟨_, hpath, hwrites, timers_end_own_episode {} "1" hpath ?_⟩
  exact spaced_of_nodup hpath (by rw [hwrites]; decide)

/-- A vehicle opens the gate and leaves before its timer has run out; so does the next one. -/
def twoVehicles : List LaneTurn :=
  [command [("command_type", "open_gate")], .start .commands .commands] ++ goes .commands 17 ++
  [.stop .commands, .start (.timer 0) (.timer (.vehiclePass 1)), .start .rss .rss] ++
  goes .rss 29 { bytes := some (frameOf "IN1OFF") } ++
  [.stop .rss, command [("command_type", "open_gate")], .start .commands .commands] ++
  goes .commands 17 ++ [.stop .commands] ++ goes (.timer 0) 3

/-- The timer of the first vehicle ends the episode of the second one. -/
theorem leftover_timer_ends_next_episode :
    ¬ ∀ (cfg : Config) (gateId : String) (xs : List (LaneLabel × LaneSys)),
      Path (LaneStep cfg gateId) boot xs → Path (fun s l _ => OwnEpisode s l) boot xs := by
  intro h
  have hpath := h { relayMode := .dual } "1" (takeTurns (lane { relayMode := .dual } "1") boot
    twoVehicles) (commanded_path (by simp [twoVehicles]))
  revert hpath
  decide +kernel

end ParkIt.GateIn
