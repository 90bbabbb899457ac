import ParkIt.Entries.Tickets

/-! Stays for which the gate was never opened. -/
namespace ParkIt.Entries

open Effects Sessions GateIn Transition UniqueIndex

/-- The handler has flushed a stay and has not committed it. -/
def Phase.Holds : Phase → Prop
  | .stored _ => True
  | _ => False

instance (p : Phase) : Decidable p.Holds := by
  cases p <;> unfold Phase.Holds <;> infer_instance

instance (p : Phase) : Decidable p.Owes := by
  cases p <;> unfold Phase.Owes <;> infer_instance

/-- The command that opens the gate for the message is in the stream of the gate. -/
def Opened (d : Stores) (o : Origin) : Prop :=
  ∃ e ∈ d.stream, e.message = o.1 ∧ e.gateId = o.2 ∧ opens e.command = true

section Runs
variable {ι : Type} [DecidableEq ι] {s t : EntrySys ι} {l : Label ι EntryOp} {o : Origin} {j : ι}
  {x : Session EntryOp EntryOp.Ans EntryExc Unit Own Note} {r : Row}
  {xs : List (Label ι EntryOp × EntrySys ι)}

/-- No handler is at work for the message. -/
def Over (s : EntrySys ι) (o : Origin) : Prop :=
  ∀ j x, s.session j = some x → x.note.origin ≠ some o

/-- An entry whose gate was not opened leaves no ACTIVE stay behind. -/
def NoTrace (s : EntrySys ι) : Prop :=
  ∀ o, Over s o → ¬ Opened s.shared o →
    ∀ r ∈ s.shared.table.rows, r.origin = some o → r.tx.status ≠ .active

/-- A card whose ACTIVE stays are all due to entries of that kind has no unclosed stay. -/
def NotTurnedAway (s : EntrySys ι) : Prop :=
  ∀ cardNumber, (∀ r ∈ s.shared.table.rows, r.tx.status = .active →
      r.tx.cardNumber = some cardNumber →
      ∃ o, r.origin = some o ∧ Over s o ∧ ¬ Opened s.shared o) →
    ((s.shared.visible {}).any fun r =>
      r.tx.status = .active ∧ r.tx.cardNumber = some cardNumber) = false

/-- A commit that takes effect is reported to its handler; from then on the process lives until
the command is in the stream, and Redis takes it. -/
def Delivered (s : EntrySys ι) (l : Label ι EntryOp) (t : EntrySys ι) : Prop :=
  match l with
  | .stop j => ∀ x ∈ s.session j, ¬ x.note.phase.Owes
  | .go j _ => ∀ x ∈ s.session j,
      (x.note.phase.Owes → t.shared.stream ≠ s.shared.stream) ∧
      (x.note.phase.Holds → t.shared.table.rows ≠ s.shared.table.rows →
        ∃ y ∈ t.session j, y.note.phase.Owes)
  | _ => True

/-- Some handler has committed a stay for the message and goes on to open the gate. -/
def AtIt (s : EntrySys ι) (o : Origin) : Prop :=
  ∃ j x, s.session j = some x ∧ x.note.origin = some o ∧ x.note.phase.Owes

/-- Every stay of a message has had the gate opened, or is about to. -/
def Attended (s : EntrySys ι) : Prop :=
  ∀ r ∈ s.shared.table.rows, ∀ o, r.origin = some o → Opened s.shared o ∨ AtIt s o

theorem session_forward (h : Step entryCalls s l t) (hx : s.session j = some x) :
    t.session j = some x ∨ l = .stop j ∨ ∃ o, l = .go j o := by
  cases h with
  | @start k _ _ _ hk _ =>
    refine Or.inl (session_set_ne ?_ hx)
    rintro rfl
    exact nomatch hk.symm.trans hx
  | @go k o _ _ _ _ _ _ _ _ | @fail k o _ _ _ _ _ _ =>
    by_cases hk : j = k
    · exact Or.inr (Or.inr ⟨o, by rw [hk]⟩)
    · exact Or.inl (session_set_ne hk hx)
  | @stop k _ _ =>
    by_cases hk : j = k
    · exact Or.inr (Or.inl (by rw [hk]))
    · exact Or.inl (session_set_ne hk hx)
  | during _ _ | outside _ => exact Or.inl hx

theorem opened_step (hs : Sound s) (h : Step entryCalls s l t) (ho : Opened s.shared o) :
    Opened t.shared o := by
  obtain ⟨e, he, hopened⟩ := ho
  rcases stream_step hs h with hsame | ⟨j, x, n, gateId, c, -, -, -, hgrown, -⟩
  · exact ⟨e, hsame ▸ he, hopened⟩
  · exact ⟨e, hgrown ▸ List.mem_append_left _ he, hopened⟩

/-- A handler that owes an opening still does after the step, or has paid its debt. -/
theorem atIt_step (hs : Sound s) (h : Step entryCalls s l t) (hd : Delivered s l t)
    (ha : AtIt s o) : Opened t.shared o ∨ AtIt t o := by
  obtain ⟨j, x, hx, horigin, howes⟩ := ha
  rcases session_forward h hx with hx' | rfl | ⟨op, rfl⟩
  · exact Or.inr ⟨j, x, hx', horigin, howes⟩
  · exact absurd howes (hd x hx)
  · have hgrows := (hd x hx).1 howes
    rcases stream_step hs h with hsame | ⟨k, y, n, gateId, c, hl, hy, ho, hgrown, hc, -⟩
    · exact absurd hsame hgrows
    · cases hl
      cases hx.symm.trans hy
      cases horigin.symm.trans ho
      refine Or.inl ⟨⟨gateId, n, c⟩, ?_, rfl, rfl, ?_⟩
      · rw [hgrown]
        exact List.mem_append_right _ List.mem_cons_self
      · rcases hc with ⟨-, hnot⟩ | ⟨w, -, rfl⟩
        · exact absurd howes hnot
        · cases w <;> rfl

/-- A new stay is due to a handler that goes on to open the gate. -/
theorem atIt_new (hs : Sound s) (h : Step entryCalls s l t) (hd : Delivered s l t)
    (hr : r ∈ t.shared.table.rows) (ho : r.origin = some o) :
    (∃ q ∈ s.shared.table.rows, SameStay q r) ∨ AtIt t o := by
  rcases rows_born hs h hr with hq | ⟨j, a, own', x, w, rfl, hdid, hp, horigin, -, hid⟩
  · exact Or.inl hq
  · have hholds : x.note.phase.Holds := by
      rw [hp]
      trivial
    have hnew : t.shared.table.rows ≠ s.shared.table.rows := fun heq => hid r (heq ▸ hr) rfl
    obtain ⟨y, hy, howes⟩ := (hd x hdid.before).2 hholds hnew
    refine Or.inr ⟨j, y, hy, ?_, howes⟩
    rw [(hdid.after y hy).2]
    exact horigin.symm.trans ho

theorem attended_step (hs : Sound s) (h : Step entryCalls s l t) (hd : Delivered s l t)
    (ha : Attended s) : Attended t := by
  intro r hr o ho
  rcases atIt_new hs h hd hr ho with ⟨q, hq, hsame⟩ | hat
  · rcases ha q hq o (hsame.origin.trans ho) with hopened | hat
    · exact Or.inl (opened_step hs h hopened)
    · exact atIt_step hs h hd hat
  · exact Or.inr hat

omit [DecidableEq ι] in
theorem Attended.noTrace (h : Attended s) : NoTrace s := by
  intro o hover hclosed r hr ho
  rcases h r hr o ho with hopened | ⟨j, x, hx, horigin, -⟩
  · exact absurd hopened hclosed
  · exact absurd horigin (hover j x hx)

omit [DecidableEq ι] in
theorem NoTrace.notTurnedAway (h : NoTrace s) : NotTurnedAway s := by
  intro cardNumber hstays
  have hrows : s.shared.visible {} = s.shared.table.rows := rfl
  rw [hrows, List.any_eq_false]
  intro r hr hunclosed
  obtain ⟨hactive, hcard⟩ := of_decide_eq_true hunclosed
  obtain ⟨o, ho, hover, hclosed⟩ := hstays r hr hactive hcard
  exact h o hover hclosed r hr ho hactive

/-- In every run whose commits are reported and whose commands are delivered, an entry without a
way in leaves no trace. -/
theorem entry_leaves_no_trace (hrest : AtRest s) (h : Path (Step entryCalls) s xs)
    (hd : Path Delivered s xs) : NoTrace (finish s xs) ∧ NotTurnedAway (finish s xs) := by
  have hstart : Sound s ∧ Attended s := by
    refine ⟨sound_start hrest.quiet hrest.kept, fun r hr o ho => ?_⟩
    exact nomatch (hrest.origins r hr).symm.trans ho
  have hattended := ((h.and hd).invariant (P := fun s => Sound s ∧ Attended s)
    (fun _ _ _ hstep hs => ⟨sound_step hstep.1 hs.1, attended_step hs.1 hstep.1 hstep.2 hs.2⟩)
    hstart).2
  exact ⟨hattended.noTrace, hattended.noTrace.notTurnedAway⟩

end Runs

section LostOpening

instance (s : EntrySys Bool) (l : Label Bool EntryOp) (t : EntrySys Bool) :
    Decidable (Delivered s l t) := by
  unfold Delivered
  split <;> infer_instance

theorem entry_leaves_no_trace_tap :
    (finish lane tap).shared.stream = [⟨"IN1", 1, .openGate none "operator"⟩] ∧
      NoTrace (finish lane tap) ∧ NotTurnedAway (finish lane tap) :=
  ⟨by decide, entry_leaves_no_trace lane_atRest tap_path (by decide)⟩

/-- The card is read while Redis does not take commands. -/
def lostOpening : List (Label Bool EntryOp × EntrySys Bool) :=
  entryRun false lane [((false, .rfidCardRead "M-77" "reader", 1), List.replicate 9 false)]

/-- The member tries again when it does. -/
def secondTap : List (Label Bool EntryOp × EntrySys Bool) :=
  entryRun true (finish lane lostOpening)
    [((false, .rfidCardRead "M-77" "reader", 2), List.replicate 9 false)]

theorem lostOpening_strands : ¬ NoTrace (finish lane lostOpening) := by
  intro h
  have hidle : ∀ j, ((finish lane lostOpening).session j).isNone = true := by decide
  have hstream : (finish lane lostOpening).shared.stream = [] := by decide
  have hstay : ∃ r ∈ (finish lane lostOpening).shared.table.rows,
      r.origin = some (1, "IN1") ∧ r.tx.status = .active := by decide
  obtain ⟨r, hr, horigin, hactive⟩ := hstay
  refine h (1, "IN1") (fun j x hx => ?_) ?_ r hr horigin hactive
  · have hnone := hidle j
    rw [hx] at hnone
    cases hnone
  · rintro ⟨e, he, -⟩
    rw [hstream] at he
    cases he

/-- The gate has not been opened, the stay remains, and the card is rejected. -/
theorem unopened_stay_remains :
    AtRest lane ∧ Path (Step entryCalls) lane (lostOpening ++ secondTap) ∧
      ¬ NoTrace (finish lane lostOpening) ∧
      (finish lane (lostOpening ++ secondTap)).shared.stream =
        [⟨"IN1", 2, .rejectCard "Transaksi" "Belum Selesai" 11 "3.0"⟩] := by
  have hpath : Path (Step entryCalls) lane (lostOpening ++ secondTap) :=
    path_append.mpr ⟨entryRun_path _ _ _, entryRun_path _ _ _⟩
  exact ⟨lane_atRest, hpath, lostOpening_strands, by decide⟩

end LostOpening

end ParkIt.Entries
