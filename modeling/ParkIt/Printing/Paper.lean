import ParkIt.Lib.Sessions
import ParkIt.Printing.Reporting

/-! Print jobs, refills and manual decrements at one printer whose paper is counted. -/
namespace ParkIt.Printing

open Effects Sessions ByteString GateIn

inductive PaperStatus where
  | ok
  | warning
  | critical
  | empty
deriving DecidableEq, Repr

/-- `_paper_status`. -/
def paperStatus (settings : PrintSettings) (remaining : Int) : PaperStatus :=
  if !settings.printerPaperCounterEnabled then .ok
  else if remaining ≤ 0 then .empty
  else if remaining ≤ settings.printerPaperCriticalThreshold then .critical
  else if remaining ≤ settings.printerPaperWarningThreshold then .warning
  else .ok

/-- The response repeats the row. -/
structure PrinterResponse where
  printer : Printer
  paperStatus : PaperStatus
deriving DecidableEq, Repr

def toResponse (settings : PrintSettings) (printer : Printer) : PrinterResponse :=
  ⟨printer, paperStatus settings printer.paperRemaining⟩

/-- The operations of the jobs and the routes. A commit flushes an object that was loaded as
`loaded`. -/
inductive PaperOp where
  | job (o : PrintOp)
  | select (id : Nat)
  | now
  | commitRefill (loaded object : Printer)
  | commitDecrement (loaded object : Printer)
  | refresh (id : Nat)
deriving DecidableEq, Repr

abbrev PaperOp.Ans : PaperOp → Type
  | .job o => o.Ans
  | .select _ => Option Printer
  | .now => Int
  | .commitRefill _ _ | .commitDecrement _ _ => Unit
  | .refresh _ => Printer

inductive PaperExc where
  | job (e : PrintExc)
  | http (status : Nat) (detail : String)
deriving DecidableEq, Repr

abbrev PaperWork (α : Type) := Prog PaperOp PaperOp.Ans PaperExc α

section Routes
variable (settings : PrintSettings)

def askPaper (o : PaperOp) : PaperWork o.Ans := Prog.perform o

def httpException {α : Type} (status : Nat) (detail : String) : PaperWork α :=
  Prog.raise (.http status detail)

/-- Without a count the printer is full again. -/
def refillPaper (printerId : Nat) (count : Option Int) : PaperWork PrinterResponse := do
  match ← askPaper (.select printerId) with
  | none => httpException 404 "Printer not found"
  | some printer =>
    let now ← askPaper .now
    askPaper (.commitRefill printer { printer with
      paperRemaining := count.getD printer.paperCapacity
      lastRefilledAt := some now })
    let printer ← askPaper (.refresh printerId)
    pure (toResponse settings printer)

def decrementPaper (printerId : Nat) : PaperWork PrinterResponse :=
  if !settings.printerPaperCounterEnabled then httpException 400 "Paper counter is disabled"
  else do
    match ← askPaper (.select printerId) with
    | none => httpException 404 "Printer not found"
    | some printer =>
      askPaper (.commitDecrement printer { printer with
        paperRemaining :=
          if 0 < printer.paperRemaining then printer.paperRemaining - 1
          else printer.paperRemaining })
      let printer ← askPaper (.refresh printerId)
      pure (toResponse settings printer)

end Routes

/-- Whoever works at the counter of a printer. -/
inductive PaperCall where
  | print (ctx : Ctx) (a : PrintArgs)
  | refill (printerId : Nat) (count : Option Int)
  | decrement (printerId : Nat)

namespace PaperCall

def code (settings : PrintSettings) : PaperCall → PaperWork Unit
  | .print ctx a => do
    let _ ← (a.job settings ctx).relabel .job (fun _ a => a) .job
    pure ()
  | .refill printerId count => do
    let _ ← refillPaper settings printerId count
    pure ()
  | .decrement printerId => do
    let _ ← decrementPaper settings printerId
    pure ()

end PaperCall

namespace Printer

/-- A flush writes the columns whose value is not the one that was loaded. -/
def flush (row loaded object : Printer) : Printer :=
  { row with
    paperRemaining :=
      if object.paperRemaining = loaded.paperRemaining then row.paperRemaining
      else object.paperRemaining
    lastRefilledAt :=
      if object.lastRefilledAt = loaded.lastRefilledAt then row.lastRefilledAt
      else object.lastRefilledAt }

end Printer

/-- The row of the printer as it is committed, with the history of its paper: the count of the last
refill, the sheets that have been printed or recorded by hand since then, and what the counter
showed at the start of each print. -/
structure PaperDb where
  row : Printer
  refilled : Int := row.paperRemaining
  refills : Nat := 0
  printed : Nat := 0
  starts : List Int := []

namespace PaperDb
variable (d : PaperDb)

/-- A read sees the committed row; a statement of a job may raise. -/
def Reads : (o : PaperOp) → o.Ans → Prop
  | .job (.findPrinter _ none), a => a = .ok (some d.row) ∨ ∃ text, a = .error text
  | .job (.getPrinter _), a => a = .ok (some d.row) ∨ ∃ text, a = .error text
  | .select _, a => a = some d.row
  | .refresh _, a => a = d.row
  | _, _ => True

/-- A print starts, and comes to its end or not. -/
def print (sheet : Option Nat) (done : Bool) : PaperDb × Option Nat :=
  ({ d with
    starts := d.starts ++ [d.row.paperRemaining]
    printed := if done then d.printed + 1 else d.printed },
    if done then some d.refills else sheet)

/-- What an operation leaves behind. A job holds the refill after which it has printed a sheet,
until the sheet is recorded or the job reports its end. -/
def after (sheet : Option Nat) : (o : PaperOp) → o.Ans → PaperDb × Option Nat
  | .job (.write _), a => d.print sheet a.isOk
  | .job (.mockWrite _ _ _), a => d.print sheet a.isOk
  | .job (.commitPaper _ remaining), .ok _ =>
    ({ d with row := { d.row with paperRemaining := remaining } }, none)
  | .job (.countSuccess _), _ | .job (.countFailure _), _ => (d, none)
  | .commitRefill loaded object, _ =>
    ({ d with
      row := d.row.flush loaded object
      refilled := object.paperRemaining
      refills := d.refills + 1
      printed := 0 }, sheet)
  | .commitDecrement loaded object, _ =>
    ({ d with
      row := d.row.flush loaded object
      printed :=
        if object.paperRemaining = loaded.paperRemaining then d.printed else d.printed + 1 },
      sheet)
  | _, _ => (d, sheet)

/-- A statement of a route ends its session when it raises, and a commit may have taken effect. -/
def Fails (sheet : Option Nat) : PaperOp → PaperDb → Prop
  | .job _, _ => False
  | o, d' => d' = d ∨ ∃ a, d' = (d.after sheet o a).1

end PaperDb

/-- How far a job has come with its sheet. -/
inductive SheetPhase where
  | fresh
  | held
  | done
deriving DecidableEq, Repr

/-- A job prints once at most, a route does not; a job records a sheet that it has printed, and
nobody takes paper off an empty counter. -/
def paperRules : Protocol PaperOp PaperOp.Ans SheetPhase where
  allow phase o := match o with
    | .job (.write _) | .job (.mockWrite _ _ _) => phase = .fresh
    | .job (.commitPaper _ remaining) => phase = .held ∧ 0 ≤ remaining
    | .job _ => True
    | .commitDecrement loaded object => phase = .fresh ∧
        (object.paperRemaining = loaded.paperRemaining ∨
          0 < loaded.paperRemaining ∧ object.paperRemaining = loaded.paperRemaining - 1)
    | _ => phase = .fresh
  expect _ _ _ := True
  next phase o := match o with
    | .job (.write _) => fun a => if a.isOk then .held else .done
    | .job (.mockWrite _ _ _) => fun a => if a.isOk then .held else .done
    | .job (.commitPaper _ _) => fun a => if a.isOk then .done else phase
    | .job (.countSuccess _) | .job (.countFailure _) => fun _ => .done
    | _ => fun _ => phase

def paperCalls (settings : PrintSettings) :
    Machine PaperOp PaperOp.Ans PaperExc Unit PaperDb (Option Nat) SheetPhase Unit where
  starts p sheet phase := ∃ c : PaperCall, p = c.code settings ∧ sheet = none ∧ phase = .fresh
  act o d sheet a d' sheet' := d.Reads o a ∧ (d', sheet') = d.after sheet o a
  fails o d sheet d' := d.Fails sheet o d'
  during _ _ _ _ := False
  outside _ _ := False
  protocol := paperRules
  record _ _ _ := []

abbrev PaperSys (ι : Type) :=
  Sys ι PaperOp PaperOp.Ans PaperExc Unit PaperDb (Option Nat) SheetPhase Unit

section Following

def jobRules : Protocol PrintOp PrintOp.Ans SheetPhase where
  allow phase o := paperRules.allow phase (.job o)
  expect _ _ _ := True
  next phase o a := paperRules.next phase (.job o) a

/-- What has nothing to do with the sheet of a job. -/
def Aside : PrintOp → Prop
  | .write _ | .mockWrite _ _ _ | .commitPaper _ _ | .countSuccess _ | .countFailure _ => False
  | _ => True

variable {α β : Type} {phase : SheetPhase} {post : SheetPhase → α → Prop}

abbrev Quiet (p : PrintJob α) : Prop := Only Aside (fun _ => True) p

/-- The rest of a job, whatever is raised in it. -/
abbrev Keeps (phase : SheetPhase) (p : PrintJob α) (post : SheetPhase → α → Prop) : Prop :=
  Follows jobRules phase p post fun _ _ => True

theorem jobRules_of_aside {o : PrintOp} (h : Aside o) :
    jobRules.allow phase o ∧ ∀ a, jobRules.next phase o a = phase := by
  cases o with
  | write _ | mockWrite _ _ _ | commitPaper _ _ | countSuccess _ | countFailure _ => exact h.elim
  | _ => exact ⟨trivial, fun _ => rfl⟩

theorem keeps_of_quiet {p : PrintJob α} (h : Quiet p) (hpost : ∀ a, post phase a) :
    Keeps phase p post := by
  refine (h.follows fun o ho => jobRules_of_aside ho).mono ?_ fun _ _ _ => trivial
  rintro _ a rfl
  exact hpost a

theorem quiet_call {o : PrintOp} (h : Aside o) : Quiet (call o) :=
  (only_perform h).bind fun a => by cases a <;> trivial

theorem quiet_then {o : PrintOp} {f : o.Val → PrintJob α} (h : Aside o) (hf : ∀ a, Quiet (f a)) :
    Quiet (call o >>= f) := (quiet_call h).bind hf

theorem quiet_caught {p : PrintJob α} {h : PrintExc → PrintJob α} (hp : Quiet p)
    (hh : ∀ e, Quiet (h e)) : Quiet (p.handle h) := Only.handle hp fun e _ => hh e

theorem quiet_printConfigOr (given : Option PrintConfig) (gateId gateType : String) :
    Quiet (printConfigOr given gateId gateType) := by
  have hfound : Quiet (getPrintConfig gateId gateType) :=
    quiet_caught (quiet_then trivial fun _ => quiet_then trivial fun _ => trivial) fun _ => trivial
  unfold printConfigOr
  cases given with
  | none => exact hfound
  | some config =>
    dsimp only
    split
    · exact hfound
    · trivial

theorem quiet_checkPaperAvailable (settings : PrintSettings) (gateId : String) :
    Quiet (checkPaperAvailable settings gateId) := by
  unfold checkPaperAvailable
  split
  · trivial
  · refine quiet_caught (quiet_then trivial fun printer => ?_) fun _ => trivial
    cases printer <;> trivial

theorem quiet_retryOrAlert (ctx : Ctx) (gateId : String) (kind : PrintKind) (e : PrintExc) :
    Quiet (retryOrAlert ctx gateId kind e) := by
  unfold retryOrAlert
  split
  · trivial
  · refine Only.bind ?_ fun _ => trivial
    unfold publishAlert
    split
    · exact quiet_caught (quiet_call trivial) fun _ => trivial
    · trivial

/-- What comes before the print. -/
theorem keeps_after {p : PrintJob β} {f : β → PrintJob α} (hp : Quiet p)
    (hf : ∀ b, Keeps phase (f b) post) : Keeps phase (p >>= f) post := by
  have hquiet : Follows jobRules phase p (fun phase' _ => phase' = phase) _ :=
    hp.follows fun o ho => jobRules_of_aside ho
  refine hquiet.bind (fun _ _ _ => trivial) ?_
  rintro _ b rfl
  exact hf b

theorem keeps_then {o : PrintOp} {f : o.Val → PrintJob α} (h : Aside o)
    (hf : ∀ a, Keeps phase (f a) post) : Keeps phase (call o >>= f) post :=
  keeps_after (quiet_call h) hf

/-- The write of a job that has not written. -/
theorem keeps_write {data : Bytes} {f : Unit → PrintJob α} (hf : ∀ u, Keeps .held (f u) post) :
    Keeps .fresh (call (.write data) >>= f) post := by
  refine ⟨rfl, fun a _ => ?_⟩
  cases a with
  | ok u => exact hf u
  | error text => trivial

theorem keeps_caught {p : PrintJob α} {h : PrintExc → PrintJob α} (hp : Keeps phase p post)
    (hh : ∀ phase' e, Keeps phase' (h e) post) : Keeps phase (p.handle h) post :=
  follows_handle.mpr (hp.mono (fun _ _ h => h) fun phase' e _ => hh phase' e)

theorem keeps_required {key : String} {e : Entry β} {f : Option β → PrintJob α}
    (hf : ∀ v, Keeps phase (f v) post) : Keeps phase (required key e >>= f) post := by
  cases e with
  | none => trivial
  | some v => exact hf v

theorem keeps_printDirectly (name text : String) (device : Device) (data : Bytes) :
    Keeps .fresh (printDirectly name text device data) fun phase _ => phase = .held := by
  have himport : Quiet ((call (.importPrinter name)).handle fun _ =>
      Prog.raise (.importError text)) := quiet_caught (quiet_call trivial) fun _ => trivial
  refine keeps_after himport fun _ => keeps_then trivial fun _ => keeps_caught ?_ fun _ e => ?_
  · exact keeps_write fun _ => keeps_of_quiet (quiet_call trivial) fun _ => rfl
  · exact keeps_then trivial fun _ => trivial

theorem keeps_printVia (data : Bytes) (config : PrintConfig) :
    Keeps .fresh (printVia data config) fun phase _ => phase = .held := by
  unfold printVia
  split
  · refine keeps_required fun host => keeps_required fun port => ?_
    split
    · rename_i p _
      cases p with
      | compass => trivial
      | enet =>
        have hwrite : Keeps .fresh ((call (.write (cmdPr4 data))).handle fun e => do
            call .close
            Prog.raise e) fun phase _ => phase = .held := by
          refine keeps_caught ⟨rfl, fun a _ => ?_⟩ fun _ e => keeps_then trivial fun _ => trivial
          cases a <;> trivial
        refine keeps_then trivial fun _ => hwrite.bind (fun _ _ h => h) ?_
        rintro _ - rfl
        exact keeps_of_quiet (quiet_call trivial) fun _ => rfl
    · trivial
    · trivial
  · exact keeps_required fun ip => keeps_printDirectly _ _ _ _
  · exact keeps_required fun device => keeps_printDirectly _ _ _ _
  · trivial

theorem keeps_decrementPaperCounter (settings : PrintSettings) (printerId : Option Nat) :
    Keeps .held (decrementPaperCounter settings printerId) fun _ _ => True := by
  unfold decrementPaperCounter
  split
  · refine keeps_caught (keeps_then trivial fun printer => ?_) fun _ _ => trivial
    cases printer with
    | none => trivial
    | some printer =>
      dsimp only
      split
      · rename_i hpos
        refine ⟨⟨rfl, Int.le_sub_one_of_lt hpos⟩, fun a _ => ?_⟩
        cases a <;> trivial
      · trivial
  · trivial

theorem keeps_attempt (settings : PrintSettings) (ctx : Ctx) (task : PrintTask) :
    Keeps .fresh (task.attempt settings ctx) fun _ _ => True := by
  unfold PrintTask.attempt
  refine keeps_after (quiet_printConfigOr _ _ _) fun config => ?_
  refine keeps_after (quiet_checkPaperAvailable _ _) fun checked => ?_
  obtain ⟨canPrint, printerId⟩ := checked
  dsimp only
  split
  · trivial
  cases task.escposData with
  | none => trivial
  | some data =>
    dsimp only
    split
    · refine ⟨rfl, fun a _ => ?_⟩
      cases a with
      | error text => trivial
      | ok path =>
        exact (keeps_decrementPaperCounter _ _).bind (fun _ _ h => h) fun _ _ _ => trivial
    · refine keeps_caught ((keeps_printVia data config).bind (fun _ _ h => h) ?_) fun _ e => ?_
      · rintro _ - rfl
        refine (keeps_decrementPaperCounter _ _).bind (fun _ _ h => h) fun _ _ _ => ?_
        refine ⟨trivial, fun a _ => ?_⟩
        cases a <;> trivial
      · refine ⟨trivial, fun a _ => ?_⟩
        cases a with
        | error text => trivial
        | ok u => exact keeps_of_quiet (quiet_retryOrAlert _ _ _ _) fun _ => trivial

/-- Everyone keeps to the rules of the counter. -/
theorem follows_code (settings : PrintSettings) (c : PaperCall) :
    Follows paperRules .fresh (c.code settings) (fun _ _ => True) fun _ _ => True := by
  cases c with
  | print ctx a =>
    have hjob : Keeps .fresh (a.job settings ctx) fun _ _ => True := by
      rw [PrintArgs.job_eq]
      exact keeps_attempt _ _ _
    refine Follows.bind (?_ : Follows _ _ _ (fun _ _ => True) fun _ _ => True)
      (fun _ _ _ => trivial) fun _ _ _ => trivial
    exact hjob.relabel (fun _ _ h => h) (fun _ _ _ _ => trivial) (fun _ _ _ => rfl) fun _ _ _ =>
      trivial
  | refill printerId count =>
    refine Follows.bind (?_ : Follows _ _ _ (fun _ _ => True) fun _ _ => True)
      (fun _ _ _ => trivial) fun _ _ _ => trivial
    refine ⟨rfl, fun printer _ => ?_⟩
    cases printer with
    | none => trivial
    | some printer => exact ⟨rfl, fun _ _ => ⟨rfl, fun _ _ => ⟨rfl, fun _ _ => trivial⟩⟩⟩
  | decrement printerId =>
    refine Follows.bind (?_ : Follows _ _ _ (fun _ _ => True) fun _ _ => True)
      (fun _ _ _ => trivial) fun _ _ _ => trivial
    unfold decrementPaper
    split
    · trivial
    refine ⟨rfl, fun printer _ => ?_⟩
    cases printer with
    | none => trivial
    | some printer =>
      refine ⟨⟨rfl, ?_⟩, fun _ _ => ⟨rfl, fun _ _ => trivial⟩⟩
      dsimp only
      split
      · exact Or.inr ⟨‹_›, rfl⟩
      · exact Or.inl rfl

end Following

end ParkIt.Printing
