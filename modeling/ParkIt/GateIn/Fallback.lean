import ParkIt.GateIn.Issues

/-! When a driver leaves without a ticket, and who is told. -/
namespace ParkIt.GateIn

open Effects ByteString Answers

section Sends
variable {env : Env} {j : Log}

/-- The command is written: the controller is connected, the breaker is closed and the write does
not fail. -/
def Lands (env : Env) (j : Log) (command : ControllerCommand) : Prop :=
  let j₁ := env.record j .connected
  let j₂ := env.record j₁ .loopTime
  let j₃ := env.record j₂ .breaker
  env j .connected = true ∧ ¬ env j₁ .loopTime < (env j₂ .breaker).openUntil ∧
    env j₃ (.write command) = true

/-- Has the command been written? -/
def Written (command : ControllerCommand) (j : Log) : Prop :=
  (⟨.write command, true⟩ : Exchange LaneOp LaneOp.Ans) ∈ j

theorem written_record {command : ControllerCommand} {o : LaneOp} (h : o ≠ .write command) :
    Written command (env.record j o) ↔ Written command j := by
  rw [Written, mem_record, or_iff_left]
  · rfl
  · intro heq
    exact h (congrArg Exchange.op heq).symm

variable (env j) in
theorem written_write (command : ControllerCommand) :
    Written command (env.record j (.write command)) ↔
      Written command j ∨ env j (.write command) = true := by
  rw [Written, mem_record]
  refine or_congr_right ⟨fun h => ?_, fun h => by rw [h]⟩
  cases h' : env j (.write command) with
  | true => rfl
  | false =>
    rw [h'] at h
    cases h

theorem sendControllerCommand_lands (command : ControllerCommand) :
    Prog.Ensures env.exec (sendControllerCommand command) j
      (fun landed j' => (landed = true ↔ Lands env j command) ∧
        (Written command j' ↔ Written command j ∨ landed = true)) fun _ _ => False := by
  unfold sendControllerCommand Lands
  rw [Prog.ensures_bind, ensures_ask]
  dsimp only
  by_cases hconnected : env j .connected = true
  · rw [hconnected]
    simp only [Bool.not_true, Bool.false_eq_true, if_false, true_and]
    rw [Prog.ensures_bind, ensures_ask, Prog.ensures_bind, ensures_ask]
    split
    · rename_i hopen
      exact ⟨by simp [hopen], by simp [written_record]⟩
    rename_i hclosed
    rw [Prog.ensures_bind, ensures_ask]
    have hwrite := written_write env
      (env.record (env.record (env.record j .connected) .loopTime) .breaker) command
    split
    · rename_i hlanded
      rw [Prog.ensures_bind, ensures_ask, Prog.ensures_pure, written_record (by simp), hwrite]
      exact ⟨by simp [hclosed, hlanded], by simp [hlanded]⟩
    · rename_i hlost
      rw [Prog.ensures_bind, ensures_ask, Prog.ensures_bind, ensures_ask]
      split
      · rw [Prog.ensures_bind, ensures_ask, Prog.ensures_pure]
        exact ⟨by simp [hlost], by simp [written_record, hwrite, hlost]⟩
      · rw [Prog.ensures_pure]
        exact ⟨by simp [hlost], by simp [written_record, hwrite, hlost]⟩
  · rw [Bool.not_eq_true] at hconnected
    rw [hconnected]
    exact ⟨by simp, by simp [written_record]⟩

theorem send_lands (command : ControllerCommand) :
    Prog.Ensures env.exec (send command) j
      (fun _ j' => Written command j' ↔ Written command j ∨ Lands env j command)
      fun _ _ => False := by
  refine (sendControllerCommand_lands command).bind (fun _ _ h => h) ?_
  rintro landed j' ⟨hlands, hwritten⟩
  rw [Prog.ensures_pure, hwritten, hlands]

end Sends

/-- Neither a ticket, nor the number on the display, nor the alert. -/
def Aside : LaneOp → Prop
  | .write (.pr3 _) | .write (.ds _ _) | .publish .printFailedAlert _ _ => False
  | _ => True

theorem aside_plain (o : LaneOp) (h : Plain o) : Aside o := by
  cases o <;> trivial

section Asides
variable (cfg : Config)

theorem aside_playIfEnabled (track : Int) : Issues Aside (playIfEnabled cfg track) :=
  issues_playIfEnabled aside_plain cfg (fun _ => trivial) (fun _ => ⟨trivial, fun _ _ => trivial⟩)
    track

theorem aside_cmdOpenGate : Issues Aside (cmdOpenGate cfg) := by
  refine (issues_relayOpenReliable aside_plain cfg trivial trivial _).bind fun landed => ?_
  split
  · exact (issues_publishEvent ⟨trivial, fun _ _ => trivial⟩ 0).bind fun _ => only_pure
  · refine (issues_cmdPlayAudio aside_plain cfg (fun _ => trivial)
      (fun _ => ⟨trivial, fun _ _ => trivial⟩) 9).bind fun _ => Only.bind ?_ fun _ => only_pure
    exact issues_onLaneOpened aside_plain ⟨trivial, fun _ _ => trivial⟩

end Asides

section Totality
variable {env : Env} {j : Log} (cfg : Config)

/-- Redis takes every event. -/
def Heard (env : Env) : Prop := ∀ j e i n, env j (.publish e i n) = true

theorem publishEvent_heard (hheard : Heard env) (e : GateEvent) (n : Nat) :
    Prog.Ensures env.exec (publishEvent e n) j
      (fun _ j' => ∃ i, j' = env.record (env.record j (.xadd e)) (.publish e i n))
      fun _ _ => False := by
  rw [publishEvent, Prog.ensures_bind, ensures_ask, Prog.ensures_bind, ensures_ask, hheard,
    if_pos rfl, Prog.ensures_pure]
  exact ⟨_, rfl⟩

theorem playIfEnabled_heard (hheard : Heard env) (track : Int) :
    Prog.Ensures env.exec (playIfEnabled cfg track) j (fun _ _ => True) fun _ _ => False := by
  unfold playIfEnabled
  split
  · unfold cmdPlayAudio
    dsimp only
    split
    · exact (publishEvent_heard hheard _ _).mono (fun _ _ _ => trivial) fun _ _ h => h
    · exact (send_lands _).mono (fun _ _ _ => trivial) fun _ _ h => h
  · trivial

end Totality

section Report
variable (env : Env) (cfg : Config) (barcode gateName : String)

/-- The ticket has been written to the controller. -/
def TicketWritten (j : Log) : Prop :=
  ∃ t data, escposData gateName barcode t = some data ∧ Written (.pr3 data) j

def Alerted (j : Log) : Prop :=
  ∃ i n, (⟨.publish .printFailedAlert i n, true⟩ : Exchange LaneOp LaneOp.Ans) ∈ j

/-- The number was to be shown on the display, before what the journal ends with. -/
def FallbackTried (j : Log) : Prop :=
  ∃ k j', Reaches env (cmdPrintTicketThenOpen cfg barcode gateName) []
      (send (.ds "CATAT NOMOR:" barcode) >>= k) j' ∧ j' <+: j

/-- Who leaves without a ticket has been told and reported, and nobody else. -/
structure Reported (j : Log) : Prop where
  missing : ¬ TicketWritten barcode gateName j →
    Alerted j ∧ FallbackTried env cfg barcode gateName j
  printed : TicketWritten barcode gateName j →
    ¬ Alerted j ∧ ∀ ok, (⟨.write (.ds "CATAT NOMOR:" barcode), ok⟩ : Exchange LaneOp LaneOp.Ans) ∉ j

/-- The handler comes to open the gate, and what it has done until then is as it should be. -/
def ReportsThenOpens : Prop :=
  ∃ j, Reaches env (cmdPrintTicketThenOpen cfg barcode gateName) [] (cmdOpenGate cfg) j ∧
    Reported env cfg barcode gateName j

/-- The ticket can be made and lands. -/
def TicketLands : Prop :=
  let j := env.record [] .wallClock
  ∃ data, escposData gateName barcode (env [] .wallClock) = some data ∧ Lands env j (.pr3 data)

theorem escposData_none_iff {gateName barcode : String} {t : LocalTime} :
    escposData gateName barcode t = none ↔ 256 ≤ barcode.length := by
  unfold escposData
  split
  · simp
    omega
  · simp
    omega

variable {env cfg barcode gateName}

theorem cmdPrintTicketThenOpen_eq (hprinter : cfg.hasTicketPrinter = true) :
    cmdPrintTicketThenOpen cfg barcode gateName = printTicket barcode gateName >>= fun s =>
      afterPrint cfg barcode s >>= fun _ => cmdOpenGate cfg := by
  unfold cmdPrintTicketThenOpen
  rw [hprinter]
  rfl

/-- A ticket that cannot be made. -/
theorem printTicket_unmade (h : escposData gateName barcode (env [] .wallClock) = none) :
    Prog.Ensures env.exec (printTicket barcode gateName) []
      (fun s j => s = false ∧ j = env.record [] .wallClock) fun _ _ => False := by
  rw [printTicket, attempt, Answers.ensures_handle, Prog.ensures_bind, ensures_ask, h,
    Prog.ensures_raise, Prog.ensures_pure]
  exact ⟨rfl, rfl⟩

/-- A ticket that can be made counts as printed, whether it lands or not. -/
theorem printTicket_made {data : Bytes}
    (h : escposData gateName barcode (env [] .wallClock) = some data) :
    Prog.Ensures env.exec (printTicket barcode gateName) [] (fun s j => s = true ∧
        (Written (.pr3 data) j ↔ Lands env (env.record [] .wallClock) (.pr3 data)) ∧
        ∀ x ∈ j, Sends (.pr3 data) x.op ∨ x.op = .wallClock ∨ x.op = .sleep (.ms 1500))
      fun _ _ => False := by
  rw [printTicket, attempt, Answers.ensures_handle, Prog.ensures_bind, ensures_ask, h]
  dsimp only
  have hnew : ¬ Written (.pr3 data) (env.record [] .wallClock) := by
    rw [written_record (by simp)]
    exact List.not_mem_nil
  have honly : Only (Sends (.pr3 data)) (fun _ => False) (send (.pr3 data)) :=
    (only_send _).bind fun _ => only_pure
  refine ((send_lands _).and (ensures_mem honly)).bind (fun _ _ h => h.1.elim) ?_
  rintro - j ⟨hlands, -, hsent⟩
  rw [Prog.ensures_bind, ensures_ask, Prog.ensures_pure]
  refine ⟨rfl, ?_, fun x hx => ?_⟩
  · rw [written_record (by simp), hlands, or_iff_right hnew]
  · rcases mem_record.mp hx with hx | rfl
    · rcases hsent x hx with hx | hx
      · exact Or.inr (Or.inl (congrArg Exchange.op (List.mem_singleton.mp hx)))
      · exact Or.inl hx
    · exact Or.inr (Or.inr rfl)

variable (cfg barcode) in
theorem afterPrint_true (hheard : Heard env) (j : Log) :
    Prog.Ensures env.exec (afterPrint cfg barcode true) j
      (fun _ j' => ∀ x ∈ j', x ∈ j ∨ Aside x.op) fun _ _ => False :=
  ((playIfEnabled_heard cfg hheard _).and (ensures_mem (aside_playIfEnabled cfg _))).mono
    (fun _ _ h => h.2.2) fun _ _ h => h.1

theorem not_pr3_of_aside {o : LaneOp} (h : Aside o) (data : Bytes) : o ≠ .write (.pr3 data) := by
  rintro rfl
  exact h

variable (cfg barcode) in
/-- Without a ticket the alert is raised, and no ticket is written then. -/
theorem afterPrint_false (hheard : Heard env) (j : Log) :
    Prog.Ensures env.exec (afterPrint cfg barcode false) j
      (fun _ j' => Alerted j' ∧ ∀ x ∈ j', x ∈ j ∨ ∀ data, x.op ≠ .write (.pr3 data))
      fun _ _ => False := by
  have honly : Only (Sends (.ds "CATAT NOMOR:" barcode)) (fun _ => False)
      (send (.ds "CATAT NOMOR:" barcode)) := (only_send _).bind fun _ => only_pure
  unfold afterPrint
  refine ((send_lands _).and (ensures_mem honly)).bind (fun _ _ h => h.1.elim) ?_
  rintro - j₁ ⟨-, -, hsent⟩
  refine (publishEvent_heard hheard _ _).bind (fun _ _ h => h) ?_
  rintro - _ ⟨i, rfl⟩
  rw [Prog.ensures_bind, ensures_ask]
  refine ((playIfEnabled_heard cfg hheard _).and (ensures_mem (aside_playIfEnabled cfg _))).mono
    ?_ fun _ _ h => h.1
  rintro - j₂ ⟨-, hgrows, hplayed⟩
  refine ⟨⟨i, 0, hgrows.subset (mem_record.mpr (Or.inl (mem_record.mpr (Or.inr ?_))))⟩, ?_⟩
  · rw [hheard]
  · intro x hx
    rcases hplayed x hx with hx | hx
    · rcases mem_record.mp hx with hx | rfl
      · rcases mem_record.mp hx with hx | rfl
        · rcases mem_record.mp hx with hx | rfl
          · rcases hsent x hx with hx | hx
            · exact Or.inl hx
            · refine Or.inr fun data heq => ?_
              rw [heq] at hx
              cases hx
          · exact Or.inr fun _ => LaneOp.noConfusion
        · exact Or.inr fun _ => LaneOp.noConfusion
      · exact Or.inr fun _ => LaneOp.noConfusion
    · exact Or.inr (not_pr3_of_aside hx)

/-- What printing a ticket and playing a track come to. -/
def Printing (data : Bytes) (o : LaneOp) : Prop :=
  (Sends (.pr3 data) o ∨ o = .wallClock ∨ o = .sleep (.ms 1500)) ∨ Aside o

theorem printing_silent {data : Bytes} {o : LaneOp} (h : Printing data o) :
    (∀ i n, o ≠ .publish .printFailedAlert i n) ∧ ∀ line1 line2, o ≠ .write (.ds line1 line2) := by
  constructor
  · rintro i n rfl
    obtain (h | h | h) | h := h
    · exact h
    · cases h
    · cases h
    · exact h
  · rintro line1 line2 rfl
    obtain (h | h | h) | h := h
    · cases h
    · cases h
    · cases h
    · exact h

/-- No ticket: the number is shown and the alert raised. -/
theorem unmade_reported (hprinter : cfg.hasTicketPrinter = true) (hheard : Heard env)
    (hdata : escposData gateName barcode (env [] .wallClock) = none) :
    ReportsThenOpens env cfg barcode gateName := by
  obtain ⟨s, j₁, hprint, rfl, rfl⟩ := reaches_of_ensures
    (f := fun s => afterPrint cfg barcode s >>= fun _ => cmdOpenGate cfg) (printTicket_unmade hdata)
  obtain ⟨-, j₂, hopen, halert, hnew⟩ := reaches_of_ensures (f := fun _ => cmdOpenGate cfg)
    (afterPrint_false cfg barcode hheard (env.record [] .wallClock))
  rw [← cmdPrintTicketThenOpen_eq hprinter] at hprint
  refine ⟨j₂, hprint.trans hopen, ?_, ?_⟩
  · intro _
    obtain ⟨k, hk⟩ : ∃ k, (afterPrint cfg barcode false >>= fun _ => cmdOpenGate cfg) =
        send (.ds "CATAT NOMOR:" barcode) >>= k := ⟨_, Prog.bind_assoc _ _ _⟩
    exact ⟨halert, k, _, hk ▸ hprint, hopen.grows⟩
  · rintro ⟨t, data, -, hwritten⟩
    rcases hnew _ hwritten with hmem | hne
    · cases congrArg Exchange.op (List.mem_singleton.mp hmem)
    · exact absurd rfl (hne data)

/-- The handler goes on from the printed ticket, which counts as printed in any case. -/
theorem printTicket_reaches (hprinter : cfg.hasTicketPrinter = true) {data : Bytes}
    (hdata : escposData gateName barcode (env [] .wallClock) = some data) :
    ∃ j, Reaches env (cmdPrintTicketThenOpen cfg barcode gateName) []
        (afterPrint cfg barcode true >>= fun _ => cmdOpenGate cfg) j ∧
      (Written (.pr3 data) j ↔ TicketLands env barcode gateName) ∧
      ∀ x ∈ j, Sends (.pr3 data) x.op ∨ x.op = .wallClock ∨ x.op = .sleep (.ms 1500) := by
  obtain ⟨s, j, hprint, rfl, hwritten, hops⟩ := reaches_of_ensures
    (f := fun s => afterPrint cfg barcode s >>= fun _ => cmdOpenGate cfg) (printTicket_made hdata)
  rw [← cmdPrintTicketThenOpen_eq hprinter] at hprint
  refine ⟨j, hprint, hwritten.trans ⟨fun hlands => ⟨data, hdata, hlands⟩, ?_⟩, hops⟩
  rintro ⟨data', hdata', hlands⟩
  obtain rfl := Option.some.inj (hdata.symm.trans hdata')
  exact hlands

/-- A ticket that does not land: nobody is told. -/
theorem lost_not_reported (hprinter : cfg.hasTicketPrinter = true) {data : Bytes}
    (hdata : escposData gateName barcode (env [] .wallClock) = some data)
    (hlost : ¬ TicketLands env barcode gateName) : ¬ ReportsThenOpens env cfg barcode gateName := by
  rintro ⟨j, hreach, hreported⟩
  obtain ⟨j₁, hprint, hwritten, hops⟩ := printTicket_reaches hprinter hdata
  have hfrom : ∀ x ∈ j, x ∈ j₁ ∨ Aside x.op := by
    intro x hx
    have hrun := hreach.mem_run hx
    rw [hprint.run_eq] at hrun
    exact mem_of_only ((aside_playIfEnabled cfg _).bind fun _ => aside_cmdOpenGate cfg) hrun
  have hmissing : ¬ TicketWritten barcode gateName j := by
    rintro ⟨t, data', -, hmem⟩
    rcases hfrom _ hmem with hmem | haside
    · obtain heq | heq | heq := hops _ hmem
      · obtain rfl : data' = data := ControllerCommand.pr3.inj heq
        exact hlost (hwritten.mp hmem)
      · cases heq
      · cases heq
    · exact haside
  obtain ⟨i, n, halert⟩ := (hreported.missing hmissing).1
  exact (printing_silent ((hfrom _ halert).imp_left (hops _))).1 i n rfl

theorem landed_reported (hprinter : cfg.hasTicketPrinter = true) (hheard : Heard env) {data : Bytes}
    (hdata : escposData gateName barcode (env [] .wallClock) = some data)
    (hlands : TicketLands env barcode gateName) : ReportsThenOpens env cfg barcode gateName := by
  obtain ⟨j₁, hprint, hwritten, hops⟩ := printTicket_reaches hprinter hdata
  obtain ⟨-, j₂, hopen, hnew⟩ := reaches_of_ensures (f := fun _ => cmdOpenGate cfg)
    (afterPrint_true cfg barcode hheard j₁)
  have hfrom : ∀ x ∈ j₂, Printing data x.op := fun x hx => (hnew x hx).imp_left (hops x)
  refine ⟨j₂, hprint.trans hopen, fun hmissing => ?_, fun _ => ⟨?_, fun ok hmem => ?_⟩⟩
  · exact absurd ⟨_, data, hdata, hopen.grows.subset (hwritten.mpr hlands)⟩ hmissing
  · rintro ⟨i, n, halert⟩
    exact (printing_silent (hfrom _ halert)).1 i n rfl
  · exact (printing_silent (hfrom _ hmem)).2 _ _ rfl

/-- Whether a missing ticket is reported depends on how it goes missing: what cannot be made is
reported, what does not land is taken for printed. -/
theorem reportsThenOpens_iff (hprinter : cfg.hasTicketPrinter = true) (hheard : Heard env) :
    ReportsThenOpens env cfg barcode gateName ↔
      256 ≤ barcode.length ∨ TicketLands env barcode gateName := by
  rcases hdata : escposData gateName barcode (env [] .wallClock) with - | data
  · exact iff_of_true (unmade_reported hprinter hheard hdata)
      (Or.inl (escposData_none_iff.mp hdata))
  · have hlength : ¬ 256 ≤ barcode.length := by
      intro hlong
      rw [escposData_none_iff.mpr hlong] at hdata
      cases hdata
    rw [or_iff_right hlength]
    exact ⟨fun h => by_contra fun hlost => lost_not_reported hprinter hdata hlost h,
      landed_reported hprinter hheard hdata⟩

end Report

/-- Redis and the clocks are at hand; the controller is connected or not. -/
def lineEnv (up : Bool) : Env := fun _ o =>
  match o with
  | .connected | .write _ => up
  | .in1On | .hset | .publish _ _ _ | .xack _ | .commit | .publishCommand _ _ => true
  | .state => .waitingInput
  | .setState _ => 0
  | .breaker => {}
  | .validatingTask => none
  | .spawn _ => 0
  | .buffer => []
  | .recv | .readline => none
  | .reconnectDelay => 1000
  | .loopTime => 0
  | .wallClock => ⟨2025, 1, 1, 8, 0, 0⟩
  | .xadd _ => none
  | .xreadgroup => .nothing
  | .gateByCode | .memberByCard _ | .unclosed _ | .createEntry _ => none
  | .today => 0
  | .uuid => ""
  | .processRfidPayment _ _ => .failed
  | .setIn1 _ | .setBreaker _ | .setValidatingTask _ | .cancel _ | .setBuffer _ |
    .setReconnectDelay _ | .taken _ | .connect | .disconnect | .close | .sleep _ => ()

theorem reportsThenOpens_connected :
    ReportsThenOpens (lineEnv true) { hasTicketPrinter := true } "T1001" "Utara" := by
  refine (reportsThenOpens_iff rfl fun _ _ _ _ => rfl).mpr (Or.inr ?_)
  exact ⟨_, if_pos (by decide), rfl, by decide, rfl⟩

/-- The controller is down: no ticket, and no alert either. -/
theorem ticket_lost_unreported :
    ¬ ReportsThenOpens (lineEnv false) { hasTicketPrinter := true } "T1001" "Utara" := by
  refine lost_not_reported rfl (if_pos (by decide)) ?_
  rintro ⟨data, -, hconnected, -⟩
  cases hconnected

end ParkIt.GateIn
