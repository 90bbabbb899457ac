import ParkIt.Printing.Attempts

/-! Is a print job printed once, or the operator told? -/
namespace ParkIt.Printing

open Effects ByteString GateIn

/-- `CriticalWorkerSettings.max_tries`. -/
def maxTries : Nat := 3

/-- The worker takes a job up again after `Retry`, with so many attempts left. -/
def runs (job : Ctx → PrintJob PrintResult) (outs : Nat → Outcomes) :
    Nat → Nat → Output → Except PrintExc PrintResult × Output
  | 0, _, w => (.error .maxRetries, w)
  | left + 1, jobTry, w =>
    match (job { jobTry, maxTries }).run (exec (outs jobTry)) w with
    | (.error (.retry _), w') => runs job outs left (jobTry + 1) w'
    | r => r

/-- A print job of the queue. -/
inductive PrintArgs where
  | ticket (a : TicketArgs)
  | receipt (a : ReceiptArgs)

namespace PrintArgs

def task : PrintArgs → PrintTask
  | .ticket a => a.task
  | .receipt a => a.task

def job (settings : PrintSettings) (ctx : Ctx) : PrintArgs → PrintJob PrintResult
  | .ticket a => printTicket settings ctx a
  | .receipt a => printReceipt settings ctx a

theorem job_eq (settings : PrintSettings) (ctx : Ctx) (a : PrintArgs) :
    a.job settings ctx = a.task.attempt settings ctx := by
  cases a <;> rfl

/-- All attempts at the job. -/
def done (settings : PrintSettings) (outs : Nat → Outcomes) (a : PrintArgs) :
    Except PrintExc PrintResult × Output :=
  runs (fun ctx => a.job settings ctx) outs maxTries 1 {}

end PrintArgs

section Verdicts
variable (task : PrintTask) (r : Except PrintExc PrintResult × Output)

/-- The job ends with success. -/
def Succeeds (r : Except PrintExc PrintResult) : Prop :=
  ∃ result, r = .ok result ∧ result.status = .success

/-- The data are written once, and the job ends with success. -/
def PrintedOnce : Prop :=
  Succeeds r.1 ∧ ∃ data sheet, task.escposData = some data ∧ (sheet = data ∨ sheet = cmdPr4 data) ∧
    r.2.sheets = [sheet]

/-- Nothing is written, and the operator is told. -/
def Reported : Prop := r.2.sheets = [] ∧ ∃ error, task.alert error ∈ r.2.alerts

end Verdicts

/-- The job is printed once or reported, and it succeeds with a device that works at once. -/
structure PrintedOrReported (settings : PrintSettings) (outs : Nat → Outcomes) (a : PrintArgs) :
    Prop where
  once : PrintedOnce a.task (a.done settings outs) ∨ Reported a.task (a.done settings outs)
  prompt : (outs 1).Works → Succeeds (a.done settings outs).1

section Runs
variable {settings : PrintSettings} {task : PrintTask} {outs : Nat → Outcomes} {w : Output}
  {left t : Nat}

variable (settings task outs) in
abbrev attempts (left t : Nat) (w : Output) : Except PrintExc PrintResult × Output :=
  runs (fun ctx => task.attempt settings ctx) outs left t w

variable (task outs) in
/-- The job is over after an attempt, or taken up again. -/
theorem attempts_cases (hmock : settings.mockHardware = false) (left t : Nat) (w : Output) :
    ∃ r w', task.Ends settings (outs t) { jobTry := t, maxTries } w r w' ∧
      ((∃ defer, r = .error (.retry defer) ∧
          attempts settings task outs (left + 1) t w =
            attempts settings task outs left (t + 1) w') ∨
        (∀ defer, r ≠ .error (.retry defer)) ∧
          attempts settings task outs (left + 1) t w = (r, w')) := by
  have hends : Prog.Ensures (exec (outs t)) (task.attempt settings { jobTry := t, maxTries }) w
      (fun result w' => task.Ends settings (outs t) { jobTry := t, maxTries } w (.ok result) w')
      fun e w' => task.Ends settings (outs t) { jobTry := t, maxTries } w (.error e) w' :=
    PrintTask.attempt_ends hmock rfl
  unfold attempts
  rw [runs]
  rcases hr : (task.attempt settings { jobTry := t, maxTries }).run (exec (outs t)) w with
    ⟨e | result, w'⟩
  · refine ⟨_, w', hends.of_error hr, ?_⟩
    cases e with
    | retry defer => exact Or.inl ⟨defer, rfl, rfl⟩
    | _ => exact Or.inr ⟨by rintro _ ⟨⟩, rfl⟩
  · exact ⟨_, w', hends.of_ok hr, Or.inr ⟨by rintro _ ⟨⟩, rfl⟩⟩

theorem not_succeeds {result : PrintResult} {s : PrintStatus} (h : result.status = s)
    (hs : s ≠ .success) : ¬ Succeeds (.ok result) := by
  rintro ⟨_, ⟨⟩, hsuccess⟩
  exact hs (h.symm.trans hsuccess)

/-- What goes to the device is the data of the job. -/
theorem sheet_of_route {r : Route} {data : Bytes} {config : PrintConfig}
    (h : routeOf data config = some r) : r.data = data ∨ r.data = cmdPr4 data := by
  unfold routeOf at h
  split at h
  · obtain ⟨host, -, h⟩ := Option.bind_eq_some_iff.mp h
    obtain ⟨port, -, h⟩ := Option.bind_eq_some_iff.mp h
    split at h
    case h_1 p _ =>
      obtain ⟨cmd, hcmd, h⟩ := Option.bind_eq_some_iff.mp h
      obtain rfl := Option.some.inj h
      cases p with
      | compass => cases hcmd
      | enet =>
        cases hcmd
        exact Or.inr rfl
    case h_2 => cases h
  · obtain ⟨ip, -, h⟩ := Option.bind_eq_some_iff.mp h
    obtain rfl := Option.some.inj h
    exact Or.inl rfl
  · obtain ⟨device, -, h⟩ := Option.bind_eq_some_iff.mp h
    obtain rfl := Option.some.inj h
    exact Or.inl rfl
  · cases h

/-- What is written stays written, and a success has written something. -/
theorem ends_sheets {out : Outcomes} {ctx : Ctx} {r : Except PrintExc PrintResult} {w' : Output}
    (h : task.Ends settings out ctx w r w') :
    w.sheets.length ≤ w'.sheets.length ∧ (Succeeds r → w.sheets.length < w'.sheets.length) := by
  have herror : ∀ e, ¬ Succeeds (.error e) := by
    rintro e ⟨_, ⟨⟩, -⟩
  cases h with
  | skipped result _ hstatus =>
    exact ⟨Nat.le_refl _, fun h => (not_succeeds hstatus (by decide) h).elim⟩
  | unbuilt => exact ⟨Nat.le_refl _, fun h => (herror _ h).elim⟩
  | printed r data =>
    have hlength : (w.wrote r.data).sheets.length = w.sheets.length + 1 := List.length_append
    omega
  | retried => exact ⟨Nat.le_refl _, fun h => (herror _ h).elim⟩
  | told result error _ _ _ hstatus =>
    exact ⟨Nat.le_refl _, fun h => (not_succeeds hstatus (by decide) h).elim⟩
  | untold result _ _ _ hstatus =>
    exact ⟨Nat.le_refl _, fun h => (not_succeeds hstatus (by decide) h).elim⟩
  | uncounted => exact ⟨Nat.le_refl _, fun h => (herror _ h).elim⟩
  | spoilt _ data _ _ _ hstatus hsheets =>
    have hlength : w'.sheets.length = w.sheets.length + 1 := by
      rw [hsheets, List.length_append, List.length_singleton]
    omega

variable (task outs) in
theorem attempts_sheets (hmock : settings.mockHardware = false) (left t : Nat) (w : Output) :
    w.sheets.length ≤ (attempts settings task outs left t w).2.sheets.length ∧
      (Succeeds (attempts settings task outs left t w).1 →
        w.sheets.length < (attempts settings task outs left t w).2.sheets.length) := by
  induction left generalizing t w with
  | zero =>
    refine ⟨Nat.le_refl _, ?_⟩
    rintro ⟨result, ⟨⟩, -⟩
  | succ left ih =>
    obtain ⟨r, w', hends, ⟨defer, -, hrun⟩ | ⟨-, hrun⟩⟩ := attempts_cases task outs hmock left t w
    · rw [hrun]
      have hgrows := (ends_sheets hends).1
      have hrest := ih (t + 1) w'
      exact ⟨hgrows.trans hrest.1, fun h => hgrows.trans_lt (hrest.2 h)⟩
    · rw [hrun]
      exact ends_sheets hends

/-- The first of the next attempts may be the one that counts. -/
theorem after_succ {P Q : Nat → Prop} :
    (∃ n < left + 1, (∀ k < n, P (t + k)) ∧ Q (t + n)) ↔
      Q t ∨ (P t ∧ ∃ n < left, (∀ k < n, P (t + 1 + k)) ∧ Q (t + 1 + n)) := by
  constructor
  · rintro ⟨- | n, hn, hp, hq⟩
    · exact Or.inl hq
    · refine Or.inr ⟨hp 0 (Nat.succ_pos n), n, Nat.lt_of_succ_lt_succ hn, fun k hk => ?_, ?_⟩
      · rw [Nat.add_right_comm]
        exact hp (k + 1) (Nat.succ_lt_succ hk)
      · rw [Nat.add_right_comm]
        exact hq
  · rintro (hq | ⟨hp, n, hn, hrest, hq⟩)
    · exact ⟨0, Nat.succ_pos left, fun k hk => absurd hk (Nat.not_lt_zero k), hq⟩
    · refine ⟨n + 1, Nat.succ_lt_succ hn, fun k hk => ?_, ?_⟩
      · cases k with
        | zero => exact hp
        | succ k =>
          have hk' := hrest k (Nat.lt_of_succ_lt_succ hk)
          rwa [Nat.add_right_comm] at hk'
      · rwa [Nat.add_right_comm] at hq

theorem always_succ {P : Nat → Prop} :
    (∀ k < left + 1, P (t + k)) ↔ P t ∧ ∀ k < left, P (t + 1 + k) := by
  rw [Nat.forall_lt_succ_left]
  simp only [Nat.add_right_comm t 1]
  rfl

/-- What comes of the attempts that are left is what their outcomes say. -/
structure Tallies (settings : PrintSettings) (task : PrintTask) (outs : Nat → Outcomes)
    (left t : Nat) (r : Except PrintExc PrintResult × Output) : Prop where
  printed : PrintedOnce task r ↔ ∃ n < left, (∀ k < n, task.Misses settings (outs (t + k))) ∧
    task.Prints settings (outs (t + n))
  reported : Reported task r ↔ 0 < left ∧ (∀ k < left, task.Misses settings (outs (t + k))) ∧
    (outs maxTries).publish = .ok ()

/-- The first of the attempts prints, or it comes to nothing and the rest is left. -/
theorem prints_succ :
    (∃ n < left + 1, (∀ k < n, task.Misses settings (outs (t + k))) ∧
        task.Prints settings (outs (t + n))) ↔
      task.Prints settings (outs t) ∨ (task.Misses settings (outs t) ∧
        ∃ n < left, (∀ k < n, task.Misses settings (outs (t + 1 + k))) ∧
          task.Prints settings (outs (t + 1 + n))) :=
  after_succ (P := fun k => task.Misses settings (outs k)) (Q := fun k =>
    task.Prints settings (outs k))

section Tallies
variable {r : Except PrintExc PrintResult × Output}

/-- An attempt with something wrong in it. -/
theorem tallies_of_neither (hprinted : ¬ PrintedOnce task r) (hreported : ¬ Reported task r)
    (hp : ¬ task.Prints settings (outs t)) (hm : ¬ task.Misses settings (outs t)) :
    Tallies settings task outs (left + 1) t r := by
  constructor
  · exact (iff_of_false hprinted fun h => h.elim hp fun h => hm h.1).trans prints_succ.symm
  · exact iff_of_false hreported fun h => hm (h.2.1 0 (Nat.succ_pos left))

theorem tallies_of_sheets (h : 0 < r.2.sheets.length)
    (hmore : Succeeds r.1 → 1 < r.2.sheets.length) (hp : ¬ task.Prints settings (outs t))
    (hm : ¬ task.Misses settings (outs t)) : Tallies settings task outs (left + 1) t r := by
  refine tallies_of_neither ?_ ?_ hp hm
  · rintro ⟨hsucceeds, data, sheet, -, -, hone⟩
    have hlength := hmore hsucceeds
    rw [hone] at hlength
    exact Nat.lt_irrefl _ hlength
  · rintro ⟨hnone, -⟩
    rw [hnone] at h
    exact Nat.lt_irrefl _ h

theorem tallies_of_silent {e : Except PrintExc PrintResult} (h : ¬ Succeeds e)
    (hp : ¬ task.Prints settings (outs t)) (hm : ¬ task.Misses settings (outs t)) :
    Tallies settings task outs (left + 1) t (e, {}) := by
  refine tallies_of_neither (fun hprinted => h hprinted.1) ?_ hp hm
  rintro ⟨-, error, hmem⟩
  cases hmem

/-- After the last attempt the operator is told where the publish goes through. -/
theorem tallies_of_last (h : ¬ Succeeds r.1) (hmiss : task.Misses settings (outs maxTries))
    (hreported : Reported task r ↔ (outs maxTries).publish = .ok ()) :
    Tallies settings task outs 1 maxTries r := by
  constructor
  · refine iff_of_false (fun hprinted => h hprinted.1) ?_
    rintro ⟨n, hn, -, hprints⟩
    obtain rfl : n = 0 := by omega
    exact hmiss.lost hprints.landed
  · refine hreported.trans ⟨fun hpublish => ⟨Nat.one_pos, fun k hk => ?_, hpublish⟩, fun h => h.2.2⟩
    obtain rfl : k = 0 := by omega
    exact hmiss

theorem tallies_zero {e : Except PrintExc PrintResult} (h : ¬ Succeeds e) :
    Tallies settings task outs 0 t (e, {}) := by
  constructor
  · refine iff_of_false (fun hprinted => h hprinted.1) ?_
    rintro ⟨n, hn, -⟩
    exact Nat.not_lt_zero n hn
  · refine iff_of_false ?_ fun h => Nat.lt_irrefl 0 h.1
    rintro ⟨-, error, hmem⟩
    cases hmem

/-- An attempt that comes to nothing leaves it to the others. -/
theorem tallies_of_retried (hmiss : task.Misses settings (outs t)) (hpos : 0 < left)
    (hrest : Tallies settings task outs left (t + 1) r) :
    Tallies settings task outs (left + 1) t r := by
  constructor
  · refine (hrest.printed.trans ?_).trans prints_succ.symm
    exact ⟨fun h => Or.inr ⟨hmiss, h⟩, fun h =>
      h.elim (fun h => (hmiss.lost h.landed).elim) (·.2)⟩
  · rw [hrest.reported, always_succ (P := fun k => task.Misses settings (outs k))]
    simp only [hpos, hmiss, Nat.succ_pos, true_and]

end Tallies

theorem attempts_tallies (hmock : settings.mockHardware = false) (h : t + left = maxTries + 1) :
    Tallies settings task outs left t (attempts settings task outs left t {}) := by
  induction left generalizing t with
  | zero => exact tallies_zero (by rintro ⟨_, ⟨⟩, -⟩)
  | succ left ih =>
    obtain ⟨r, w', hends, hrun⟩ := attempts_cases task outs hmock left t {}
    -- an attempt that does not ask for another is the last
    have hlast : (∀ defer, r ≠ .error (.retry defer)) →
        attempts settings task outs (left + 1) t {} = (r, w') := by
      intro hne
      rcases hrun with ⟨defer, he, -⟩ | ⟨-, hrun⟩
      · exact absurd he (hne defer)
      · exact hrun
    have hend : maxTries ≤ t → left = 0 ∧ t = maxTries := fun hlate => by omega
    cases hends with
    | skipped result hpaper hstatus =>
      rw [hlast (by rintro _ ⟨⟩)]
      exact tallies_of_silent (not_succeeds hstatus (by decide)) (fun h => h.paper hpaper) fun h =>
        h.paper hpaper
    | unbuilt hdata =>
      rw [hlast (by rintro _ ⟨⟩)]
      refine tallies_of_silent (by rintro ⟨_, ⟨⟩, -⟩) (fun h => ?_) fun h => h.built hdata
      obtain ⟨data, hd, -⟩ := h.landed
      cases hdata.symm.trans hd
    | printed r data hprints hdata hroute =>
      rw [hlast (by rintro _ ⟨⟩)]
      constructor
      · refine (iff_of_true ?_ (Or.inl hprints)).trans prints_succ.symm
        exact ⟨⟨_, rfl, rfl⟩, data, r.data, hdata, sheet_of_route hroute, rfl⟩
      · refine iff_of_false ?_ fun h => (h.2.1 0 (Nat.succ_pos left)).lost hprints.landed
        rintro ⟨⟨⟩, -⟩
    | retried defer hmiss hlt =>
      rcases hrun with ⟨_, -, hrun⟩ | ⟨hne, -⟩
      swap
      · exact absurd rfl (hne defer)
      rw [hrun]
      refine tallies_of_retried hmiss ?_ (ih (by omega))
      have hlt : t < maxTries := hlt
      omega
    | told result error hmiss hlate hpublish hstatus =>
      rw [hlast (by rintro _ ⟨⟩)]
      obtain ⟨rfl, rfl⟩ := hend hlate
      exact tallies_of_last (not_succeeds hstatus (by decide)) hmiss
        (iff_of_true ⟨rfl, error, List.mem_singleton_self _⟩ hpublish)
    | untold result hmiss hlate hpublish hstatus =>
      rw [hlast (by rintro _ ⟨⟩)]
      obtain ⟨rfl, rfl⟩ := hend hlate
      refine tallies_of_last (not_succeeds hstatus (by decide)) hmiss (iff_of_false ?_ hpublish)
      rintro ⟨-, error, hmem⟩
      cases hmem
    | uncounted text hlost hcount =>
      rw [hlast (by rintro _ ⟨⟩)]
      exact tallies_of_silent (by rintro ⟨_, ⟨⟩, -⟩) (fun h => hlost h.landed) fun h =>
        hcount h.counted
    | spoilt _ data _ hland hspoilt hstatus hsheets =>
      have hone : w'.sheets.length = 1 := by
        rw [hsheets, List.length_append, List.length_singleton]
        rfl
      rcases hrun with ⟨_, -, hrun⟩ | ⟨-, hrun⟩
      · have hgrows := attempts_sheets task outs hmock left (t + 1) w'
        rw [hrun]
        exact tallies_of_sheets (by omega) (fun h => by have := hgrows.2 h; omega) hspoilt
          fun h => h.lost hland
      · rw [hrun]
        refine tallies_of_sheets (hone ▸ Nat.one_pos) ?_ hspoilt fun h => h.lost hland
        rintro ⟨result, hr, hs⟩
        exact absurd ((hstatus result hr).symm.trans hs) PrintStatus.noConfusion

end Runs

/-- One of the attempts prints, after some that came to nothing; or all come to nothing, the
operator is told, and the device did not work at first. -/
def Settles (settings : PrintSettings) (outs : Nat → Outcomes) (task : PrintTask) : Prop :=
  (∃ n < maxTries, (∀ k < n, task.Misses settings (outs (1 + k))) ∧
      task.Prints settings (outs (1 + n))) ∨
    (∀ k < maxTries, task.Misses settings (outs (1 + k))) ∧ (outs maxTries).publish = .ok () ∧
      ¬ (outs 1).Works

section Jobs
variable {settings : PrintSettings} {outs : Nat → Outcomes} {a : PrintArgs}

theorem done_eq : a.done settings outs = attempts settings a.task outs maxTries 1 {} := by
  cases a <;> rfl

/-- A job that the operator is told of has not succeeded. -/
theorem not_succeeds_of_reported (hmock : settings.mockHardware = false)
    (h : Reported a.task (a.done settings outs)) : ¬ Succeeds (a.done settings outs).1 := by
  intro hsucceeds
  rw [done_eq] at h hsucceeds
  have hlength := (attempts_sheets a.task outs hmock maxTries 1 {}).2 hsucceeds
  rw [h.1] at hlength
  exact Nat.lt_irrefl _ hlength

/-- With real hardware, a job is printed once or reported exactly when each attempt before the last
comes to nothing at all. -/
theorem printedOrReported_iff (hmock : settings.mockHardware = false) :
    PrintedOrReported settings outs a ↔ Settles settings outs a.task := by
  have htallies : Tallies settings a.task outs maxTries 1 (a.done settings outs) :=
    done_eq ▸ attempts_tallies hmock rfl
  constructor
  · intro h
    rcases h.once with hprinted | hreported
    · exact Or.inl (htallies.printed.mp hprinted)
    · obtain ⟨-, hmiss, hpublish⟩ := htallies.reported.mp hreported
      exact Or.inr ⟨hmiss, hpublish, fun hworks =>
        not_succeeds_of_reported hmock hreported (h.prompt hworks)⟩
  · rintro (hprints | ⟨hmiss, hpublish, hbroken⟩)
    · have hprinted := htallies.printed.mpr hprints
      exact ⟨Or.inl hprinted, fun _ => hprinted.1⟩
    · exact ⟨Or.inr (htallies.reported.mpr ⟨by decide, hmiss, hpublish⟩), fun hworks =>
        absurd hworks hbroken⟩

end Jobs

/-- A ticket of a gate with a network printer. -/
def networkTicket : PrintArgs :=
  .ticket {
    gateId := "IN1"
    barcode := "T1001"
    printConfig := some {
      mode := some .network
      printerIpAddress := some (some "10.0.0.9") } }

theorem printedOrReported_network : PrintedOrReported {} (fun _ => {}) networkTicket := by
  refine (printedOrReported_iff rfl).mpr (Or.inl ⟨0, by decide, fun k hk => ?_, ?_⟩)
  · exact absurd hk (Nat.not_lt_zero k)
  · refine ⟨fun h => Bool.noConfusion h.1, ?_, rfl, rfl⟩
    exact ⟨_, rfl, _, rfl, fun _ => rfl, rfl, rfl⟩

/-- A ticket of a gate with the default protocol. -/
def compassTicket : PrintArgs :=
  .ticket {
    gateId := "IN1"
    barcode := "T1001"
    printConfig := some {
      protocol := some (some (.of .compass))
      controllerHost := some (some "10.0.0.5")
      controllerPort := some (some 5000) } }

/-- Everything works, and the ticket is not printed. -/
theorem compass_never_prints : ¬ PrintedOrReported {} (fun _ => {}) compassTicket := by
  intro h
  obtain ⟨result, hresult, hsuccess⟩ := h.prompt ⟨rfl, rfl, rfl⟩
  have hfailed : (compassTicket.done {} fun _ => {}).1 = .ok {
      status := .failed
      message := "ticket print failed after 3 attempts"
      error := some (.cannotImport "cmd_pr4" "protocols.compass.protocol") } := rfl
  obtain rfl := Except.ok.inj (hresult.symm.trans hfailed)
  cases hsuccess

end ParkIt.Printing
