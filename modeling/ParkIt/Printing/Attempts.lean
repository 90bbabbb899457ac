import ParkIt.Printing.Worker

/-! The attempts at a print job, and what comes of them. -/
namespace ParkIt.Printing

open Effects ByteString GateIn

/-- What one attempt is answered; it issues no operation twice. -/
structure Outcomes where
  printerOfType : Except String (Option Printer) := .ok none
  gate : Except String (Option GateController) := .ok none
  activePrinter : Except String (Option Printer) := .ok none
  counterRow : Except String (Option Printer) := .ok none
  commitPaper : Except String Unit := .ok ()
  importPrinter : Except String Unit := .ok ()
  connect : Except String Unit := .ok ()
  write : Except String Unit := .ok ()
  close : Except String Unit := .ok ()
  closeAgain : Except String Unit := .ok ()
  countSuccess : Except String Unit := .ok ()
  countFailure : Except String Unit := .ok ()
  publish : Except String Unit := .ok ()
  mockWrite : Except String String := .ok ""

def Outcomes.answer (out : Outcomes) : (o : PrintOp) → o.Ans
  | .findPrinter _ (some _) => out.printerOfType
  | .findPrinter _ none => out.activePrinter
  | .findGate _ => out.gate
  | .getPrinter _ => out.counterRow
  | .commitPaper _ _ => out.commitPaper
  | .importPrinter _ => out.importPrinter
  | .connect _ => out.connect
  | .write _ => out.write
  | .close => out.close
  | .closeAgain => out.closeAgain
  | .countSuccess _ => out.countSuccess
  | .countFailure _ => out.countFailure
  | .publish _ _ => out.publish
  | .mockWrite _ _ _ => out.mockWrite

/-- What has been written completely, and what the operator has been told. -/
structure Output where
  sheets : List Bytes := []
  alerts : List PrintFailedAlert := []
deriving DecidableEq, Repr

namespace Output

def wrote (w : Output) (data : Bytes) : Output := { w with sheets := w.sheets ++ [data] }

def told (w : Output) (alert : PrintFailedAlert) : Output :=
  { w with alerts := w.alerts ++ [alert] }

def after (w : Output) : (o : PrintOp) → o.Ans → Output
  | .write data, .ok _ => w.wrote data
  | .publish _ alert, .ok _ => w.told alert
  | _, _ => w

end Output

def exec (out : Outcomes) (o : PrintOp) (w : Output) : Except PrintExc o.Ans × Output :=
  (.ok (out.answer o), w.after o (out.answer o))

section Rules
variable {out : Outcomes} {w : Output}

/-- Neither a write nor an alert. -/
def Silent : PrintOp → Prop
  | .write _ | .publish _ _ => False
  | _ => True

theorem after_silent {o : PrintOp} (ho : Silent o) (a : o.Ans) : w.after o a = w := by
  cases o <;> first | rfl | exact ho.elim

theorem ensures_call {o : PrintOp} {post : o.Val → Output → Prop}
    {err : PrintExc → Output → Prop} :
    Prog.Ensures (exec out) (call o) w post err ↔
      (∀ a, out.answer o = .ok a → post a (w.after o (.ok a))) ∧
        ∀ text, out.answer o = .error text → err (.raised text) (w.after o (.error text)) := by
  unfold Prog.Ensures
  have hrun : (call o).run (exec out) w =
      (orRaised (out.answer o)).run (exec out) (w.after o (out.answer o)) := rfl
  rw [hrun]
  rcases out.answer o with text | a
  · simp [orRaised]
  · simp [orRaised]

theorem ensures_caught {α : Type} {p : PrintJob α} {h : PrintExc → PrintJob α}
    {post : α → Output → Prop} {err : PrintExc → Output → Prop} :
    Prog.Ensures (exec out) (p.handle h) w post err ↔
      Prog.Ensures (exec out) p w post fun e w' => Prog.Ensures (exec out) (h e) w' post err :=
  ensures_handle (only_any p) (fun _ _ _ => ⟨_, rfl⟩) w

section Steps
variable {α : Type} {post : α → Output → Prop} {err : PrintExc → Output → Prop}

theorem step_silent {o : PrintOp} {f : o.Val → PrintJob α} (ho : Silent o)
    (hok : ∀ a, out.answer o = .ok a → Prog.Ensures (exec out) (f a) w post err)
    (herr : ∀ text, out.answer o = .error text → err (.raised text) w) :
    Prog.Ensures (exec out) (call o >>= f) w post err := by
  rw [Prog.ensures_bind, ensures_call]
  simp only [after_silent ho]
  exact ⟨hok, herr⟩

theorem step_write {data : Bytes} {f : Unit → PrintJob α}
    (hok : out.write = .ok () → Prog.Ensures (exec out) (f ()) (w.wrote data) post err)
    (herr : ∀ text, out.write = .error text → err (.raised text) w) :
    Prog.Ensures (exec out) (call (.write data) >>= f) w post err := by
  rw [Prog.ensures_bind, ensures_call]
  exact ⟨fun _ h => hok h, herr⟩

theorem step_caught {p : PrintJob α} {h : PrintExc → PrintJob α}
    (errp : PrintExc → Output → Prop) (hp : Prog.Ensures (exec out) p w post errp)
    (hh : ∀ e w', errp e w' → Prog.Ensures (exec out) (h e) w' post err) :
    Prog.Ensures (exec out) (p.handle h) w post err :=
  ensures_caught.mpr (hp.mono (fun _ _ h => h) hh)

end Steps
end Rules

/-- Where the data of a job go, and the library that takes them there. -/
structure Route where
  library : Option String := none
  device : Device
  data : Bytes
deriving DecidableEq, Repr

/-- The code comes to a device for these configs only. -/
def routeOf (escposData : Bytes) (config : PrintConfig) : Option Route :=
  match config.mode.getD .controllerPassthrough with
  | .controllerPassthrough => do
    let host ← config.controllerHost
    let port ← config.controllerPort
    match config.protocol.getD (some (.of .compass)) with
    | some (.of p) => do
      let cmd ← definedPr4 p
      pure { device := .controller host port, data := cmd escposData }
    | _ => none
  | .network => do
    let ip ← config.printerIpAddress
    pure {
      library := some "Network"
      device := .network ip (config.printerPort.getD (some 9100))
      data := escposData }
  | .serial => do
    let device ← config.printerDevice
    pure {
      library := some "Serial"
      device := .serial device (config.baudrate.getD (some 9600))
      data := escposData }
  | .other _ => none

namespace Route
variable (r : Route) (out : Outcomes)

/-- The device is found and takes all data. -/
structure Lands : Prop where
  found : r.library.isSome = true → out.importPrinter = .ok ()
  connect : out.connect = .ok ()
  write : out.write = .ok ()

end Route

/-- The data have been written completely. -/
def Lands (out : Outcomes) (escposData : Bytes) (config : PrintConfig) : Prop :=
  ∃ r, routeOf escposData config = some r ∧ r.Lands out

section Devices
variable {out : Outcomes} {w : Output} {escposData : Bytes} {config : PrintConfig}

/-- The data are written and the device is closed, or an exception is raised. -/
def Sends (r : Route) (out : Outcomes) (w : Output) (p : PrintJob Unit) : Prop :=
  Prog.Ensures (exec out) p w
    (fun _ w' => r.Lands out ∧ out.close = .ok () ∧ w' = w.wrote r.data)
    fun _ w' => (¬ r.Lands out ∧ w' = w) ∨
      (r.Lands out ∧ out.close ≠ .ok () ∧ w' = w.wrote r.data)

theorem closeAgain_spec (e : PrintExc) (w : Output) :
    Prog.Ensures (exec out) (do
      call .closeAgain
      Prog.raise e) w (fun (_ : Unit) _ => False) fun _ w' => w' = w :=
  step_silent trivial (fun _ _ => rfl) fun _ _ => rfl

theorem ok_ne_error {α : Type} {r : Except String α} {a : α} {text : String} (h : r = .ok a)
    (he : r = .error text) : False := by
  rw [h] at he
  cases he

theorem sends_directly (name text : String) (device : Device) :
    Sends ⟨some name, device, escposData⟩ out w (printDirectly name text device escposData) := by
  unfold Sends printDirectly
  set r : Route := ⟨some name, device, escposData⟩
  refine Prog.Ensures.bind (?_ : Prog.Ensures (exec out) _ w
      (fun _ w' => out.importPrinter = .ok () ∧ w' = w) fun _ w' => ¬ r.Lands out ∧ w' = w)
    (fun _ _ h => Or.inl h) ?_
  · refine step_caught (fun _ w' => ¬ r.Lands out ∧ w' = w) ?_ fun _ _ h => h
    refine ensures_call.mpr ⟨fun _ h => ⟨h, rfl⟩, fun text he => ⟨fun h => ?_, rfl⟩⟩
    exact ok_ne_error (h.found rfl) he
  rintro - w' ⟨himport, hw⟩
  rw [hw]
  refine step_silent trivial (fun _ hconnect => ?_) fun text he =>
    Or.inl ⟨fun h => ok_ne_error h.connect he, rfl⟩
  refine step_caught (fun _ w' => (¬ r.Lands out ∧ w' = w) ∨
      (r.Lands out ∧ out.close ≠ .ok () ∧ w' = w.wrote r.data)) ?_ fun e w' he => ?_
  · refine step_write (fun hwrite => ?_) fun text he =>
      Or.inl ⟨fun h => ok_ne_error h.write he, rfl⟩
    have hlands : r.Lands out := ⟨fun _ => himport, hconnect, hwrite⟩
    exact ensures_call.mpr ⟨fun _ hclose => ⟨hlands, hclose, rfl⟩, fun text he =>
      Or.inr ⟨hlands, fun h => ok_ne_error h he, rfl⟩⟩
  · refine (closeAgain_spec e w').mono (fun _ _ h => h.elim) ?_
    rintro _ _ rfl
    exact he

theorem sends_passthrough (host : Option String) (port : Option Nat) (cmd : Bytes → Bytes) :
    Sends ⟨none, .controller host port, cmd escposData⟩ out w (do
      call (.connect (.controller host port))
      (call (.write (cmd escposData))).handle fun e => do
        call .close
        Prog.raise e
      call .close) := by
  unfold Sends
  set r : Route := ⟨none, .controller host port, cmd escposData⟩
  refine step_silent trivial (fun _ hconnect => ?_) fun text he =>
    Or.inl ⟨fun h => ok_ne_error h.connect he, rfl⟩
  refine Prog.Ensures.bind (?_ : Prog.Ensures (exec out) _ w
      (fun _ w' => r.Lands out ∧ w' = w.wrote r.data) fun _ w' => ¬ r.Lands out ∧ w' = w)
    (fun _ _ h => Or.inl h) ?_
  · refine step_caught (fun _ w' => ¬ r.Lands out ∧ w' = w) ?_ ?_
    · exact ensures_call.mpr ⟨fun _ hwrite => ⟨⟨Bool.noConfusion, hconnect, hwrite⟩, rfl⟩,
        fun text he => ⟨fun h => ok_ne_error h.write he, rfl⟩⟩
    · rintro e _ ⟨hlost, rfl⟩
      exact step_silent trivial (fun _ _ => ⟨hlost, rfl⟩) fun _ _ => ⟨hlost, rfl⟩
  · rintro - _ ⟨hlands, rfl⟩
    exact ensures_call.mpr ⟨fun _ hclose => ⟨hlands, hclose, rfl⟩, fun text he =>
      Or.inr ⟨hlands, fun h => ok_ne_error h he, rfl⟩⟩

/-- What the code does with a config is what becomes of its route. -/
def TakesRoute (out : Outcomes) (w : Output) (escposData : Bytes) (config : PrintConfig)
    (p : PrintJob Unit) : Prop :=
  Prog.Ensures (exec out) p w
    (fun _ w' => ∃ r, routeOf escposData config = some r ∧ r.Lands out ∧ out.close = .ok () ∧
      w' = w.wrote r.data)
    fun _ w' => (¬ Lands out escposData config ∧ w' = w) ∨
      (Lands out escposData config ∧ out.close ≠ .ok () ∧ ∃ data, w' = w.wrote data)

theorem takesRoute_of_sends {r : Route} {p : PrintJob Unit}
    (hr : routeOf escposData config = some r)
    (hp : Sends r out w p) : TakesRoute out w escposData config p := by
  refine hp.mono (fun _ w' h => ⟨r, hr, h⟩) ?_
  rintro e w' (⟨hlost, rfl⟩ | ⟨hlands, hclose, rfl⟩)
  · refine Or.inl ⟨?_, rfl⟩
    rintro ⟨r', hr', hlands⟩
    rw [Option.some.inj (hr.symm.trans hr')] at hlost
    exact hlost hlands
  · exact Or.inr ⟨⟨r, hr, hlands⟩, hclose, _, rfl⟩

theorem takesRoute_of_raise {e : PrintExc} (hr : routeOf escposData config = none) :
    TakesRoute out w escposData config (Prog.raise e) := by
  refine Or.inl ⟨?_, rfl⟩
  rintro ⟨r, hr', -⟩
  cases hr.symm.trans hr'

theorem printVia_takesRoute : TakesRoute out w escposData config (printVia escposData config) := by
  unfold printVia
  cases hmode : config.mode.getD .controllerPassthrough with
  | controllerPassthrough =>
    unfold printViaController
    cases hhost : config.controllerHost with
    | none => exact takesRoute_of_raise (by simp [routeOf, hmode, hhost])
    | some host =>
      cases hport : config.controllerPort with
      | none => exact takesRoute_of_raise (by simp [routeOf, hmode, hhost, hport])
      | some port =>
        cases hprotocol : config.protocol.getD (some (.of .compass)) with
        | none => exact takesRoute_of_raise (by simp [routeOf, hmode, hhost, hport, hprotocol])
        | some protocol =>
          cases protocol with
          | other text =>
            exact takesRoute_of_raise (by simp [routeOf, hmode, hhost, hport, hprotocol])
          | of p =>
            cases p with
            | compass =>
              refine takesRoute_of_raise ?_
              simp [routeOf, hmode, hhost, hport, hprotocol, definedPr4]
            | enet =>
              refine takesRoute_of_sends ?_ (sends_passthrough host port cmdPr4)
              simp [routeOf, hmode, hhost, hport, hprotocol, definedPr4]
  | network =>
    unfold printViaNetwork
    cases hip : config.printerIpAddress with
    | none => exact takesRoute_of_raise (by simp [routeOf, hmode, hip])
    | some ip => exact takesRoute_of_sends (by simp [routeOf, hmode, hip]) (sends_directly _ _ _)
  | serial =>
    unfold printViaSerial
    cases hdevice : config.printerDevice with
    | none => exact takesRoute_of_raise (by simp [routeOf, hmode, hdevice])
    | some device =>
      exact takesRoute_of_sends (by simp [routeOf, hmode, hdevice]) (sends_directly _ _ _)
  | other text => exact takesRoute_of_raise (by simp [routeOf, hmode])

end Devices

namespace Outcomes
variable (out : Outcomes)

def foundConfig : PrintConfig :=
  match out.printerOfType, out.gate with
  | .ok printer, .ok gate => configOf printer gate
  | _, _ => { mode := some .controllerPassthrough }

/-- The paper of the printer is counted and used up. -/
def PaperOut (settings : PrintSettings) : Prop :=
  settings.printerPaperCounterEnabled = true ∧
    ∃ printer, out.activePrinter = .ok (some printer) ∧ printer.paperRemaining ≤ 0

/-- Whatever the device is, it is reached, takes the data and is closed. -/
structure Works : Prop where
  connect : out.connect = .ok ()
  write : out.write = .ok ()
  close : out.close = .ok ()

end Outcomes

namespace PrintTask
variable (settings : PrintSettings) (task : PrintTask) (out : Outcomes)

/-- The config that an attempt goes by. -/
def configUsed : PrintConfig :=
  match task.printConfig with
  | none => out.foundConfig
  | some config => if config = {} then out.foundConfig else config

/-- The data are built and written. -/
def Landed : Prop := ∃ data, task.escposData = some data ∧ Lands out data (task.configUsed out)

/-- The attempt comes to nothing, and is counted as a failure. -/
structure Misses : Prop where
  paper : ¬ out.PaperOut settings
  built : task.escposData ≠ none
  lost : ¬ task.Landed out
  counted : out.countFailure = .ok ()

/-- The data are written, the device is closed and the success is counted. -/
structure Prints : Prop where
  paper : ¬ out.PaperOut settings
  landed : task.Landed out
  close : out.close = .ok ()
  counted : out.countSuccess = .ok ()

def alert (error : PrintExc) : PrintFailedAlert := ⟨task.gateId, task.kind, error⟩

/-- How an attempt can end. -/
inductive Ends (ctx : Ctx) (w : Output) : Except PrintExc PrintResult → Output → Prop where
  | skipped (result : PrintResult) : out.PaperOut settings → result.status = .skipped →
      Ends ctx w (.ok result) w
  | unbuilt : task.escposData = none → Ends ctx w (.error .payload) w
  | printed (r : Route) (data : Bytes) : task.Prints settings out →
      task.escposData = some data → routeOf data (task.configUsed out) = some r →
      Ends ctx w (.ok { status := .success, message := task.printed }) (w.wrote r.data)
  | retried (defer : Nat) : task.Misses settings out → ctx.jobTry < ctx.maxTries →
      Ends ctx w (.error (.retry defer)) w
  | told (result : PrintResult) (error : PrintExc) : task.Misses settings out →
      ctx.maxTries ≤ ctx.jobTry → out.publish = .ok () → result.status = .failed →
      Ends ctx w (.ok result) (w.told (task.alert error))
  | untold (result : PrintResult) : task.Misses settings out → ctx.maxTries ≤ ctx.jobTry →
      out.publish ≠ .ok () → result.status = .failed → Ends ctx w (.ok result) w
  | uncounted (text : String) : ¬ task.Landed out → out.countFailure ≠ .ok () →
      Ends ctx w (.error (.raised text)) w
  | spoilt (r : Except PrintExc PrintResult) (data : Bytes) (w' : Output) : task.Landed out →
      ¬ task.Prints settings out → (∀ result, r = .ok result → result.status = .failed) →
      w'.sheets = w.sheets ++ [data] → Ends ctx w r w'

section Attempt
variable {settings : PrintSettings} {task : PrintTask} {out : Outcomes} {w : Output}

theorem getPrintConfig_spec (gateId gateType : String) :
    Prog.Ensures (exec out) (getPrintConfig gateId gateType) w
      (fun config w' => config = out.foundConfig ∧ w' = w) fun _ _ => False := by
  refine step_caught (fun _ w' =>
    { mode := some .controllerPassthrough } = out.foundConfig ∧ w' = w) ?_ fun _ _ h => h
  refine step_silent trivial (fun printer hprinter => ?_) fun text he => ?_
  · have hprinter : out.printerOfType = .ok printer := hprinter
    refine step_silent trivial (fun gate hgate => ?_) fun text he => ?_
    · have hgate : out.gate = .ok gate := hgate
      exact ⟨by rw [Outcomes.foundConfig, hprinter, hgate], rfl⟩
    · have he : out.gate = .error text := he
      exact ⟨by rw [Outcomes.foundConfig, hprinter, he], rfl⟩
  · have he : out.printerOfType = .error text := he
    exact ⟨by rw [Outcomes.foundConfig, he], rfl⟩

theorem printConfigOr_spec (gateType : String) :
    Prog.Ensures (exec out) (printConfigOr task.printConfig task.gateId gateType) w
      (fun config w' => config = task.configUsed out ∧ w' = w) fun _ _ => False := by
  unfold printConfigOr configUsed
  rcases task.printConfig with - | config
  · exact getPrintConfig_spec _ _
  · dsimp only
    split
    · exact getPrintConfig_spec _ _
    · exact ⟨rfl, rfl⟩

theorem checkPaperAvailable_spec (gateId : String) :
    Prog.Ensures (exec out) (checkPaperAvailable settings gateId) w
      (fun r w' => (r.1 = false ↔ out.PaperOut settings) ∧ w' = w) fun _ _ => False := by
  unfold checkPaperAvailable
  cases hcounter : settings.printerPaperCounterEnabled with
  | false =>
    refine ⟨iff_of_false Bool.noConfusion fun h => ?_, rfl⟩
    cases hcounter.symm.trans h.1
  | true =>
    refine step_caught (fun _ w' => ¬ out.PaperOut settings ∧ w' = w) ?_ ?_
    · refine step_silent trivial (fun printer hprinter => ?_) fun text he => ?_
      · have hprinter : out.activePrinter = .ok printer := hprinter
        rcases printer with - | printer
        · refine ⟨iff_of_false Bool.noConfusion ?_, rfl⟩
          rintro ⟨-, printer, hp, -⟩
          cases hprinter.symm.trans hp
        · refine ⟨?_, rfl⟩
          rw [decide_eq_false_iff_not, Int.not_lt]
          refine ⟨fun h => ⟨hcounter, printer, hprinter, h⟩, ?_⟩
          rintro ⟨-, p, hp, h⟩
          obtain rfl : printer = p := Option.some.inj (Except.ok.inj (hprinter.symm.trans hp))
          exact h
      · refine ⟨?_, rfl⟩
        rintro ⟨-, printer, hp, -⟩
        exact ok_ne_error hp he
    · rintro e _ ⟨hpaper, rfl⟩
      exact ⟨iff_of_false Bool.noConfusion hpaper, rfl⟩

theorem decrementPaperCounter_spec (printerId : Option Nat) :
    Prog.Ensures (exec out) (decrementPaperCounter settings printerId) w
      (fun _ w' => w' = w) fun _ _ => False := by
  unfold decrementPaperCounter
  split
  · refine step_caught (fun _ w' => w' = w) ?_ fun _ _ h => h
    refine step_silent trivial (fun printer _ => ?_) fun _ _ => rfl
    rcases printer with - | printer
    · rfl
    · dsimp only
      split
      · exact ensures_call.mpr ⟨fun _ _ => rfl, fun _ _ => rfl⟩
      · rfl
  · rfl

theorem retryOrAlert_spec {ctx : Ctx} (hredis : ctx.redis = true) (error : PrintExc) :
    Prog.Ensures (exec out) (retryOrAlert ctx task.gateId task.kind error) w
      (fun result w' => ctx.maxTries ≤ ctx.jobTry ∧ result.status = .failed ∧
        (out.publish = .ok () ∧ w' = w.told (task.alert error) ∨ out.publish ≠ .ok () ∧ w' = w))
      fun e w' => ctx.jobTry < ctx.maxTries ∧ (∃ defer, e = .retry defer) ∧ w' = w := by
  unfold retryOrAlert
  split
  · rename_i hlt
    exact ⟨hlt, ⟨_, rfl⟩, rfl⟩
  · rename_i hlt
    refine Prog.Ensures.bind (?_ : Prog.Ensures (exec out) _ w
        (fun _ w' => out.publish = .ok () ∧ w' = w.told (task.alert error) ∨
          out.publish ≠ .ok () ∧ w' = w) fun _ _ => False)
      (fun _ _ h => h.elim) fun _ w' h => ⟨Nat.le_of_not_lt hlt, rfl, h⟩
    rw [publishAlert, if_pos hredis]
    refine step_caught (fun _ w' => out.publish ≠ .ok () ∧ w' = w) ?_ fun _ _ h => Or.inr h
    exact ensures_call.mpr ⟨fun _ h => Or.inl ⟨h, rfl⟩, fun text he =>
      ⟨fun h => ok_ne_error h he, rfl⟩⟩

theorem attempt_ends {ctx : Ctx} (hmock : settings.mockHardware = false)
    (hredis : ctx.redis = true) :
    Prog.Ensures (exec out) (task.attempt settings ctx) w
      (fun result w' => task.Ends settings out ctx w (.ok result) w')
      fun e w' => task.Ends settings out ctx w (.error e) w' := by
  unfold attempt
  refine (printConfigOr_spec _).bind (fun _ _ h => h.elim) ?_
  rintro config w₁ ⟨rfl, hw⟩
  rw [← hw]
  refine (checkPaperAvailable_spec _).bind (fun _ _ h => h.elim) ?_
  rintro ⟨canPrint, printerId⟩ w₂ ⟨hpaper, hw₂⟩
  rw [hw₂]
  cases canPrint with
  | false => exact .skipped _ (hpaper.mp rfl) rfl
  | true =>
    have hin : ¬ out.PaperOut settings := fun h => Bool.noConfusion (hpaper.mpr h)
    dsimp only
    rw [if_neg (by decide)]
    cases hdata : task.escposData with
    | none => exact .unbuilt hdata
    | some data =>
      dsimp only
      rw [if_neg (by simp [hmock])]
      have hlanded : task.Landed out ↔ Lands out data (task.configUsed out) := by
        constructor
        · rintro ⟨data', hdata', hlands⟩
          rwa [Option.some.inj (hdata.symm.trans hdata')]
        · exact fun h => ⟨data, hdata, h⟩
      refine step_caught (fun _ w' => (¬ task.Landed out ∧ w' = w₁) ∨
        (task.Landed out ∧ ¬ task.Prints settings out ∧ ∃ data, w' = w₁.wrote data)) ?_ ?_
      · refine printVia_takesRoute.bind ?_ ?_
        · rintro e w' (⟨hlost, hw'⟩ | ⟨hlands, hclose, hw'⟩)
          · exact Or.inl ⟨fun h => hlost (hlanded.mp h), hw'⟩
          · exact Or.inr ⟨hlanded.mpr hlands, fun h => hclose h.close, hw'⟩
        · rintro - w' ⟨r, hroute, hlands, hclose, rfl⟩
          have hland : task.Landed out := hlanded.mpr ⟨r, hroute, hlands⟩
          refine (decrementPaperCounter_spec _).bind (fun _ _ h => h.elim) ?_
          rintro - w' rfl
          refine step_silent trivial (fun _ hcount => ?_) fun text he => ?_
          · exact .printed r data ⟨hin, hland, hclose, hcount⟩ hdata hroute
          · exact Or.inr ⟨hland, fun h => ok_ne_error h.counted he, _, rfl⟩
      · rintro e w' (⟨hlost, rfl⟩ | ⟨hland, hspoilt, data', rfl⟩)
        · refine step_silent trivial (fun _ hcount => ?_) fun text he =>
            .uncounted text hlost fun h => ok_ne_error h he
          have hbuilt : task.escposData ≠ none := by
            rw [hdata]
            exact Option.some_ne_none _
          have hmiss : task.Misses settings out := ⟨hin, hbuilt, hlost, hcount⟩
          refine (retryOrAlert_spec hredis e).mono ?_ ?_
          · rintro result w'' ⟨hlast, hfailed, ⟨hpublish, rfl⟩ | ⟨hpublish, rfl⟩⟩
            · exact .told result e hmiss hlast hpublish hfailed
            · exact .untold result hmiss hlast hpublish hfailed
          · rintro _ w'' ⟨hlt, ⟨defer, rfl⟩, rfl⟩
            exact .retried defer hmiss hlt
        · refine step_silent trivial (fun _ hcount => ?_) fun text he =>
            .spoilt _ data' _ hland hspoilt (fun _ h => by cases h) rfl
          refine (retryOrAlert_spec hredis e).mono ?_ ?_
          · rintro result w'' ⟨-, hfailed, ⟨-, rfl⟩ | ⟨-, rfl⟩⟩ <;>
              refine .spoilt _ data' _ hland hspoilt (fun _ h => ?_) rfl <;>
              cases h <;> exact hfailed
          · rintro _ w'' ⟨-, -, rfl⟩
            exact .spoilt _ data' _ hland hspoilt (fun _ h => by cases h) rfl

end Attempt
end PrintTask

end ParkIt.Printing
