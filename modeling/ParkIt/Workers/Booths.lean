import ParkIt.Workers.Handover

/-! One worker per booth, as long as no two calls meet at a gate. -/
namespace ParkIt.Workers

open Effects Sessions Transition

section Runs
variable {ι : Type} [DecidableEq ι] {lib : Libraries} {s t : BoothSys ι} {l : Label ι BoothOp}

/-- When a call commits, what it has read is still so. -/
def Current (s : BoothSys ι) : Label ι BoothOp → Prop
  | .go j .commit => ∀ x ∈ s.session j, x.note.Current s.shared.sessions
  | _ => True

/-- What every run keeps whose commits are current. -/
structure Sound (lib : Libraries) (s : BoothSys ι) : Prop where
  kept : Kept s.shared.sessions s.shared.nextSession
  inProtocol : InProtocol (boothCalls lib) s
  fits : Each (fun own g => Note.Fits g own) s
  linked : ∀ j x r, s.session j = some x → x.note.subject = some r →
    ∃ q ∈ s.shared.sessions, q.id = r.id ∧ q.gateId = r.gateId
  fresh : ∀ j x row, s.session j = some x → x.note.inserted = some row →
    row.id < s.shared.nextSession ∧ ∀ q ∈ s.shared.sessions, q.id ≠ row.id
  apart : ∀ j k x y row row', j ≠ k → s.session j = some x → s.session k = some y →
    x.note.inserted = some row → y.note.inserted = some row' → row.id ≠ row'.id

/-- The table changes by a commit only, and the sequence by an insert. -/
theorem rows_step (hs : Sound lib s) (h : Step (boothCalls lib) s l t) :
    (t.shared.sessions = s.shared.sessions ∧ s.shared.nextSession ≤ t.shared.nextSession) ∨
    ∃ j x, l = .go j .commit ∧ s.session j = some x ∧
      t.shared.sessions = x.note.effect s.shared.sessions ∧
      t.shared.nextSession = s.shared.nextSession ∧
      (∀ y, t.session j = some y → y.note = .committed) ∧
      ∀ k, k ≠ j → t.session k = s.session k := by
  cases h with
  | start _ _ | stop _ => exact Or.inl ⟨rfl, le_refl _⟩
  | during _ hduring => exact hduring.elim
  | outside hsh => exact Or.inl ⟨hsh.1, hsh.2.ge⟩
  | @fail j o k own note sh hj hfails =>
    cases hfails with
    | rolledBack => exact Or.inl ⟨rfl, le_refl _⟩
    | lost =>
      refine Or.inr ⟨j, _, rfl, hj, seen_of_fits (hs.fits _ _ hj), rfl, fun y hy => ?_,
        fun k hk => Function.update_of_ne hk ..⟩
      exact absurd rfl (session_set_none hy).1
  | @go j o k own note a sh own' hj hact =>
    cases o with
    | commit =>
      cases hact
      refine Or.inr ⟨j, _, rfl, hj, seen_of_fits (hs.fits _ _ hj), rfl, fun y hy => ?_,
        fun k hk => Function.update_of_ne hk ..⟩
      rw [session_set_self] at hy
      cases hy
      cases note <;> rfl
    | insert row =>
      cases hact
      exact Or.inl ⟨rfl, Int.le_add_one (le_refl _)⟩
    | refresh id =>
      obtain ⟨hd, -⟩ := Prod.mk.inj (Prod.mk.inj hact).2
      exact Or.inl ⟨hd ▸ rfl, hd ▸ le_refl _⟩
    | now | getGate _ | getUser _ | getAssignment _ | activeShifts | insertAlert _
    | openSessions _ | getSession _ | update _ _ =>
      cases hact
      exact Or.inl ⟨rfl, le_refl _⟩

theorem Kept.mono {rows : List WorkerSession} {m n : Id} (h : Kept rows m) (hle : m ≤ n) :
    Kept rows n :=
  { h with fresh := fun q hq => lt_of_lt_of_le (h.fresh q hq) hle }

theorem next_mono (hs : Sound lib s) (h : Step (boothCalls lib) s l t) :
    s.shared.nextSession ≤ t.shared.nextSession := by
  rcases rows_step hs h with ⟨-, hle⟩ | ⟨_, _, -, -, -, he, -⟩
  · exact hle
  · exact he.ge

theorem kept_step (hs : Sound lib s) (h : Step (boothCalls lib) s l t) (hcurrent : Current s l) :
    Kept t.shared.sessions t.shared.nextSession := by
  rcases rows_step hs h with ⟨hrows, hle⟩ | ⟨j, x, rfl, hj, hrows, hnext, -⟩
  · rw [hrows]
    exact hs.kept.mono hle
  · rw [hrows, hnext]
    exact kept_effect hs.kept (hs.fits j x hj) (hcurrent x hj) (hs.linked j x · hj)
      (hs.fresh j x · hj)

theorem linked_step (hs : Sound lib s) (h : Step (boothCalls lib) s l t) (j : ι)
    (y : Session BoothOp BoothOp.Ans BoothExc WorkerSession Uncommitted Note) (r : WorkerSession)
    (hy : t.session j = some y) (hr : y.note.subject = some r) :
    ∃ q ∈ t.shared.sessions, q.id = r.id ∧ q.gateId = r.gateId := by
  have hkeep : ∀ q ∈ s.shared.sessions, ∃ q' ∈ t.shared.sessions,
      q'.id = q.id ∧ q'.gateId = q.gateId := by
    intro q hq
    rcases rows_step hs h with ⟨hrows, -⟩ | ⟨_, _, -, -, hrows, -⟩ <;> rw [hrows]
    · exact ⟨q, hq, rfl, rfl⟩
    · exact effect_keeps hq
  have hold : ∃ q ∈ s.shared.sessions, q.id = r.id ∧ q.gateId = r.gateId := by
    rcases session_back h hy with hback | ⟨-, -, hstart⟩ | ⟨o, a, x, -, htook⟩
    · exact hs.linked j y r hback hr
    · obtain ⟨c, -, -, hnote⟩ := hstart
      rw [hnote] at hr
      exact nomatch hr
    · rw [htook.note] at hr
      rcases subject_next (htook.allow hs.inProtocol) htook.act (hs.fits j x htook.before) hr
        with hr | hr
      · exact hs.linked j x r htook.before hr
      · exact ⟨r, hr, rfl, rfl⟩
  obtain ⟨q, hq, hid, hgate⟩ := hold
  obtain ⟨q', hq', hid', hgate'⟩ := hkeep q hq
  exact ⟨q', hq', hid'.trans hid, hgate'.trans hgate⟩

/-- Where an uncommitted row comes from. -/
theorem inserted_back (hs : Sound lib s) (h : Step (boothCalls lib) s l t) {j : ι}
    {y : Session BoothOp BoothOp.Ans BoothExc WorkerSession Uncommitted Note} {row : WorkerSession}
    (hy : t.session j = some y) (hrow : y.note.inserted = some row) :
    (∃ x, s.session j = some x ∧ x.note.inserted = some row) ∨
    row.id = s.shared.nextSession ∧ t.shared.sessions = s.shared.sessions ∧
      t.shared.nextSession = s.shared.nextSession + 1 ∧ ∀ k, k ≠ j → t.session k = s.session k := by
  rcases session_back h hy with hback | ⟨-, -, hstart⟩ | ⟨o, a, x, -, htook⟩
  · exact Or.inl ⟨y, hback, hrow⟩
  · obtain ⟨c, -, -, hnote⟩ := hstart
    rw [hnote] at hrow
    exact nomatch hrow
  · rw [htook.note] at hrow
    rcases inserted_next (htook.allow hs.inProtocol) htook.act hrow with hold | ⟨hid, hrows, hnext⟩
    · exact Or.inl ⟨x, htook.before, hold.1⟩
    · exact Or.inr ⟨hid, hrows, hnext, htook.others⟩

theorem fresh_step (hs : Sound lib s) (h : Step (boothCalls lib) s l t) (j : ι)
    (y : Session BoothOp BoothOp.Ans BoothExc WorkerSession Uncommitted Note) (row : WorkerSession)
    (hy : t.session j = some y) (hrow : y.note.inserted = some row) :
    row.id < t.shared.nextSession ∧ ∀ q ∈ t.shared.sessions, q.id ≠ row.id := by
  rcases inserted_back hs h hy hrow with ⟨x, hx, hold⟩ | ⟨hid, hrows, hnext, -⟩
  · obtain ⟨hlt, hnew⟩ := hs.fresh j x row hx hold
    refine ⟨lt_of_lt_of_le hlt (next_mono hs h), fun q hq => ?_⟩
    rcases rows_step hs h with ⟨hrows, -⟩ | ⟨j', x', -, hj', hrows, -, hover, -⟩ <;> rw [hrows] at hq
    · exact hnew q hq
    · have hne : j' ≠ j := by
        rintro rfl
        rw [hover y hy] at hrow
        exact nomatch hrow
      rcases mem_effect hq with ⟨q₀, hq₀, he⟩ | hq
      · rw [← he]
        exact hnew q₀ hq₀
      · exact hs.apart j' j x' x q row hne hj' hx hq hold
  · rw [hrows, hnext, hid]
    exact ⟨Int.lt_add_one_of_le (le_refl _), fun q hq => ne_of_lt (hs.kept.fresh q hq)⟩

theorem apart_step (hs : Sound lib s) (h : Step (boothCalls lib) s l t) (j k : ι)
    (x y : Session BoothOp BoothOp.Ans BoothExc WorkerSession Uncommitted Note)
    (row row' : WorkerSession) (hne : j ≠ k) (hx : t.session j = some x) (hy : t.session k = some y)
    (hrow : x.note.inserted = some row) (hrow' : y.note.inserted = some row') :
    row.id ≠ row'.id := by
  rcases inserted_back hs h hx hrow with ⟨x', hx', hold⟩ | ⟨hid, -, -, hothers⟩
  · rcases inserted_back hs h hy hrow' with ⟨y', hy', hold'⟩ | ⟨hid, -, -, -⟩
    · exact hs.apart j k x' y' row row' hne hx' hy' hold hold'
    · rw [hid]
      exact ne_of_lt (hs.fresh j x' row hx' hold).1
  · rw [hothers k hne.symm] at hy
    rw [hid]
    exact (ne_of_lt (hs.fresh k y row' hy hrow').1).symm

theorem sound_step (hs : Sound lib s) (h : Step (boothCalls lib) s l t) (hcurrent : Current s l) :
    Sound lib t where
  kept := kept_step hs h hcurrent
  inProtocol := by
    refine inProtocol_step h ?_ (fun g o sh own a sh' own' hact => ?_) hs.inProtocol
    · rintro p own g ⟨c, rfl, -, rfl⟩
      exact follows_code c
    · cases o with
      | openSessions gateId =>
        cases hact
        intro r hr
        exact (of_decide_eq_true (List.mem_filter.mp hr).2).2
      | _ => exact trivial
  fits := by
    refine each_step h hs.inProtocol ?_ (fun o sh own g a sh' own' hallow hact hfits => ?_) hs.fits
    · rintro p own g ⟨c, -, rfl, rfl⟩
      rfl
    · exact fits_next hallow hact hfits
  linked := linked_step hs h
  fresh := fresh_step hs h
  apart := apart_step hs h

omit [DecidableEq ι] in
theorem sound_start (hquiet : s.Quiet) (hkept : Kept s.shared.sessions s.shared.nextSession) :
    Sound lib s where
  kept := hkept
  inProtocol := hquiet.inProtocol
  fits := hquiet.each
  linked j _ _ hj := nomatch (hquiet.1 j).symm.trans hj
  fresh j _ _ hj := nomatch (hquiet.1 j).symm.trans hj
  apart j _ _ _ _ _ _ hj := nomatch (hquiet.1 j).symm.trans hj

theorem scalarOneOrNone_of_length {rows : List WorkerSession} (h : rows.length ≤ 1) :
    ∃ r, scalarOneOrNone rows = pure r := by
  rcases rows with _ | ⟨r, _ | ⟨q, rows⟩⟩
  · exact ⟨none, rfl⟩
  · exact ⟨some r, rfl⟩
  · simp only [List.length_cons] at h
    omega

/-- As long as every commit is current, a booth has one worker and a session one successor, and
the query for the open session of a gate has one answer. -/
theorem one_worker_per_booth {xs : List (Label ι BoothOp × BoothSys ι)} (hquiet : s.Quiet)
    (hkept : Kept s.shared.sessions s.shared.nextSession) (h : Path (Step (boothCalls lib)) s xs)
    (hcurrent : Path (fun s l _ => Current s l) s xs) :
    (∀ gateId, (BoothDb.openAt (finish s xs).shared.sessions gateId).length ≤ 1) ∧
    (∀ id, (BoothDb.successors (finish s xs).shared.sessions id).length ≤ 1) ∧
    ∀ j x gateId k rows d own, (finish s xs).session j = some x →
      x.rest = .call (.openSessions gateId) k →
      (boothCalls lib).act (.openSessions gateId) (finish s xs).shared x.own rows d own →
      ∃ r, scalarOneOrNone rows = pure r := by
  have hs : Sound lib (finish s xs) :=
    (h.and hcurrent).invariant (fun _ _ _ hstep hs => sound_step hs hstep.1 hstep.2)
      (sound_start hquiet hkept)
  refine ⟨hs.kept.openAt_length, hs.kept.successors_length, ?_⟩
  intro j x gateId k rows d own hj hrest hact
  have hbegun : x.note = .begun := by
    have hfollows := hs.inProtocol j x hj
    rw [hrest] at hfollows
    exact hfollows.1
  have hfits : Note.begun.Fits x.own := hbegun ▸ hs.fits j x hj
  obtain rfl : BoothDb.openAt ((finish s xs).shared.seen x.own) gateId = rows :=
    Option.some.inj (Prod.mk.inj hact).1
  rw [seen_of_fits hfits]
  exact scalarOneOrNone_of_length (hs.kept.openAt_length gateId)

end Runs

section Schedules

/-- One worker's hash; bcrypt raises for what is no hash. -/
def pinHash : String := "$2b$04$abcdefghijklmnopqrstuuLmbu5vDTuG9XSinpEFXpa/UakZY.oz6"

def installed : Libraries where
  checkpw pin hash := if hash = pinHash then some (decide (pin = "1234")) else none
  acceptsOriginalWorkerId := false

/-- The worker of gate 1 has confirmed to be leaving, and two others wait. -/
def leaving : BoothDb where
  sessions :=
    [{ id := 1, shiftId := 3, workerId := 7, gateId := 1, date := 0, status := .pendingHandover,
       startedAt := .utc 0, outgoingConfirmedAt := some (.utc 0), endType := some "SCHEDULED" }]
  nextSession := 2
  gates := [{ id := 1, direction := "OUT" }]
  users := [{ id := 7, workerPin := some pinHash }, { id := 8, workerPin := some pinHash },
    { id := 9, workerPin := some pinHash }]
  shifts := [{ id := 3, startTime := 0, endTime := DateTime.microsPerDay }]

theorem leaving_kept : Kept leaving.sessions leaving.nextSession where
  ids := by decide
  fresh := by decide
  single q hq r hr _ _ _ := (List.mem_singleton.mp hq).trans (List.mem_singleton.mp hr).symm
  chain q hq p hp := by
    rw [List.mem_singleton.mp hq] at hp
    exact nomatch hp
  successor q hq r hr p hp _ := by
    rw [List.mem_singleton.mp hq] at hp
    exact nomatch hp

def atBooth : BoothSys Bool := { shared := leaving }

def confirmsIncoming (j : Bool) (workerId : Id) :
    Turn Bool BoothOp BoothOp.Ans BoothExc WorkerSession BoothDb Uncommitted Note :=
  .start j ((Call.confirmIncoming { pendingSessionId := 1, workerId, pin := "1234" }).code installed)
    {} .begun

def boothRun
    (xs : List (Turn Bool BoothOp BoothOp.Ans BoothExc WorkerSession BoothDb Uncommitted Note)) :
    List (Label Bool BoothOp × BoothSys Bool) :=
  takeTurns (boothCalls installed) BoothDb.perform atBooth xs

theorem perform_fails {o : BoothOp} {d d' : BoothDb} {own own' : Uncommitted}
    (h : BoothDb.perform o d own = (none, d', own')) : Fails o d own d' := by
  cases o with
  | refresh id =>
    obtain ⟨rfl, -⟩ := Prod.mk.inj (Prod.mk.inj h).2
    exact .rolledBack
  | _ => exact nomatch (Prod.mk.inj h).1

/-- The calls of workers 8 and 9 for the place of worker 7, in one order or another. -/
def incoming (order : List Bool) :
    List (Turn Bool BoothOp BoothOp.Ans BoothExc WorkerSession BoothDb Uncommitted Note) :=
  confirmsIncoming true 8 :: confirmsIncoming false 9 :: order.map .go

theorem incoming_path (order : List Bool) :
    Path (Step (boothCalls installed)) atBooth (boothRun (incoming order)) := by
  refine takeTurns_path (M := boothCalls installed) (fun _ _ _ _ _ _ h => h)
    (fun _ _ _ _ _ h => perform_fails h) ?_ ?_
  · intro j p own g hmem
    simp only [incoming, confirmsIncoming, List.mem_cons, Turn.start.injEq, List.mem_map,
      reduceCtorEq, and_false, exists_false, or_false] at hmem
    rcases hmem with ⟨-, rfl, rfl, rfl⟩ | ⟨-, rfl, rfl, rfl⟩ <;> exact ⟨_, rfl, rfl, rfl⟩
  · intro f hmem
    simp [incoming, confirmsIncoming] at hmem

instance (g : Note) (rows : List WorkerSession) : Decidable (g.Current rows) := by
  cases g <;> unfold Note.Current <;> infer_instance

instance {ι : Type} [DecidableEq ι] (s : BoothSys ι) (l : Label ι BoothOp) :
    Decidable (Current s l) := by
  unfold Current
  split <;> infer_instance

/-- The second worker comes when the first one has taken over, and is turned away. -/
def inTurn : List (Label Bool BoothOp × BoothSys Bool) :=
  boothRun (incoming (List.replicate 12 true ++ List.replicate 12 false))

theorem one_worker_per_booth_in_turn :
    (BoothDb.openAt (finish atBooth inTurn).shared.sessions 1).length = 1 ∧
    (∀ gateId, (BoothDb.openAt (finish atBooth inTurn).shared.sessions gateId).length ≤ 1) ∧
    ∀ id, (BoothDb.successors (finish atBooth inTurn).shared.sessions id).length ≤ 1 := by
  have hall := one_worker_per_booth ⟨fun _ => rfl, rfl⟩ leaving_kept
    (incoming_path (List.replicate 12 true ++ List.replicate 12 false)) (by decide)
  exact ⟨by decide, hall.1, hall.2.1⟩

/-- Both have read the pending session before either of them commits. -/
def sideBySide : List (Label Bool BoothOp × BoothSys Bool) :=
  boothRun (incoming (List.replicate 4 true ++ List.replicate 12 false ++ List.replicate 8 true))

theorem two_workers_at_one_booth :
    Path (Step (boothCalls installed)) atBooth sideBySide ∧
    (BoothDb.openAt (finish atBooth sideBySide).shared.sessions 1).map (·.workerId) = [9, 8] ∧
    (BoothDb.successors (finish atBooth sideBySide).shared.sessions 1).map (·.id) = [2, 3] ∧
    scalarOneOrNone (BoothDb.openAt (finish atBooth sideBySide).shared.sessions 1) =
      Prog.raise .multipleResultsFound :=
  ⟨incoming_path _, by decide, by decide, rfl⟩

end Schedules
end ParkIt.Workers
