import ParkIt.GateIn.Moves

/-! Every task of the lane keeps to the protocol of its moves. -/
namespace ParkIt.GateIn

open Effects ByteString Tasks

section Commands
variable {cfg : Config} {g g' : Note}

/-- A task that carries out a command that opens the gate. -/
structure Note.Firing (g : Note) : Prop where
  cause : g.cause.Handles
  command : ∃ c ∈ g.command, c.Opens

theorem Note.Firing.congr (h : g.Firing) (hcause : g'.cause = g.cause)
    (hcommand : g'.command = g.command) : g'.Firing :=
  ⟨hcause.symm ▸ h.cause, hcommand.symm ▸ h.command⟩

/-- Where a try to open the gate may end. -/
def fires (ok : Bool) : Phase := if ok then .fired else .calm

theorem follows_openCommand {command : ControllerCommand} (h : g.Firing)
    (hopens : command.opens = true) (hphase : g.phase = .calm) :
    Follows (moves cfg) g (sendControllerCommand command) (fun g' ok => g.Reaches (fires ok) g')
      fun _ _ => False := by
  have hcalm : g.Reaches (fires false) g := ⟨rfl, rfl, hphase⟩
  refine ⟨trivial, fun ok _ => ?_⟩
  cases ok with
  | false =>
    change g.Reaches (fires false) g.hindered
    rw [Note.hindered_eq (by rw [hphase]; nofun)]
    exact hcalm
  | true =>
    have hstill : ∀ {p : Prop} [Decidable p], (if p then g.hindered else g) = g := by
      intro p _
      rw [Note.hindered_eq (by rw [hphase]; nofun), ite_self]
    refine ⟨trivial, fun now _ => ⟨trivial, fun b _ => ?_⟩⟩
    change Follows (moves cfg) (if 0 < b.openUntil then Note.hindered (if now < 0 then g.hindered else g)
      else if now < 0 then g.hindered else g) (if now < b.openUntil then _ else _) _ _
    rw [hstill, hstill]
    split
    · exact hcalm
    · refine ⟨fun _ => ⟨hphase, h.command⟩, fun landed _ => ?_⟩
      have hnext : (moves cfg).next g (.write command) landed =
          if landed then { g with phase := .fired } else g := if_pos hopens
      rw [hnext]
      cases landed with
      | true => exact ⟨trivial, fun _ _ => ⟨rfl, rfl, rfl⟩⟩
      | false =>
        refine ⟨trivial, fun _ _ => ⟨trivial, fun _ _ => ?_⟩⟩
        change Follows (moves cfg) g (if cbThreshold ≤ _ then _ else _) _ _
        split
        · exact ⟨trivial, fun _ _ => hcalm⟩
        · exact hcalm

theorem follows_relayOpen (h : g.Firing) (hphase : g.phase = .calm) :
    Follows (moves cfg) g (relayOpen cfg) (fun g' ok => g.Reaches (fires ok) g') fun _ _ => False := by
  unfold relayOpen
  split
  · exact follows_openCommand h rfl hphase
  · exact follows_openCommand h rfl hphase

theorem follows_relayOpenReliable (n : Nat) (h : g.Firing) (hphase : g.phase = .calm) :
    Follows (moves cfg) g (relayOpenReliable cfg n) (fun g' ok => g.Reaches (fires ok) g')
      fun _ _ => False := by
  induction n generalizing g with
  | zero => exact ⟨rfl, rfl, hphase⟩
  | succ n ih =>
    refine (follows_relayOpen h hphase).bind (fun _ _ h => h) fun g₁ ok h₁ => ?_
    cases ok with
    | true => exact h₁
    | false =>
      change Follows (moves cfg) g₁ (if 0 < n then _ else _) _ _
      split
      · have hsleep : g₁.MaySleep cfg (.ms 800) := ⟨h₁.phase.symm ▸ trivial, fun h => nomatch h⟩
        refine ⟨hsleep, fun _ _ => ?_⟩
        have hfiring : g₁.rested.Firing := h.congr h₁.cause h₁.command
        refine (ih (g := g₁.rested) hfiring h₁.phase).mono (fun g₂ ok h₂ => ?_) fun _ _ h => h
        exact ⟨h₂.cause.trans h₁.cause, h₂.command.trans h₁.command, h₂.phase⟩
      · exact h₁

theorem follows_openGate (h : g.Firing) (hphase : g.phase = .calm) :
    Follows (moves cfg) g (cmdOpenGate cfg) (fun g' _ => g.Reaches .over g')
      fun g' _ => g' = g.failure := by
  refine (follows_relayOpenReliable _ h hphase).bind (fun _ _ h => h.elim) fun g₁ ok h₁ => ?_
  cases ok with
  | false =>
    have hmay : g₁.MayPublish .gateOpenFailed 0 := h₁.phase
    refine (follows_publish hmay).bind (fun _ _ h => h.trans h₁.failure) ?_
    rintro _ - rfl
    exact ⟨h₁.cause, h₁.command, rfl⟩
  | true =>
    refine (follows_audio 9 (h₁.ne_passed nofun)).bind (fun _ _ h => h.trans h₁.failure)
      fun g₂ _ h₂ => ?_
    have h₂ : g.Reaches .fired g₂ := ⟨h₂.reaches.cause.trans h₁.cause,
      h₂.reaches.command.trans h₁.command, h₂.reaches.phase.trans h₁.phase⟩
    refine (follows_laneOpened h₂.phase (h₂.cause.symm ▸ h.cause)).bind
      (fun _ _ h => h.trans h₂.failure) fun g₃ _ h₃ => ?_
    exact h₂.trans h₃

theorem follows_printTicket (barcode gateName : String) (hphase : g.phase = .calm) :
    Follows (moves cfg) g (printTicket barcode gateName) (fun g' _ => g.Waited g')
      fun _ _ => False := by
  refine follows_handle.mpr (follows_bind.mpr ⟨trivial, fun t _ => follows_pure.mpr ?_⟩)
  change Follows (moves cfg) g _ _ _
  cases escposData gateName barcode t with
  | none => exact Or.inl rfl
  | some data =>
    refine follows_quiet (follows_send (by rw [hphase]; nofun) rfl) ?_
    exact ⟨⟨hphase.symm ▸ trivial, fun h => nomatch h⟩, fun _ _ => Or.inr rfl⟩

theorem follows_afterPrint (barcode : String) (ok : Bool) (hphase : g.phase = .calm) :
    Follows (moves cfg) g (afterPrint cfg barcode ok) (fun g' _ => g.Waited g')
      fun g' _ => g' = g.failure := by
  have hcalm : g.phase ≠ .passed := by rw [hphase]; nofun
  cases ok with
  | true => exact follows_playIfEnabled _ hcalm
  | false =>
    refine follows_quiet (follows_send hcalm rfl) ?_
    have hmay : g.MayPublish .printFailedAlert 0 := trivial
    refine (follows_publish hmay).bind (fun _ _ h => h) ?_
    rintro _ - rfl
    have hsleep : g.rested.MaySleep cfg (.ms 3000) := ⟨hphase.symm ▸ trivial, fun h => nomatch h⟩
    refine ⟨hsleep, fun _ _ => ?_⟩
    refine (follows_playIfEnabled (g := g.rested) _ hcalm).mono (fun g' _ h => ?_)
      fun _ _ h => h
    exact Note.Waited.trans (Or.inr rfl) h

theorem follows_printTicketThenOpen (barcode gateName : String) (h : g.Firing)
    (hphase : g.phase = .calm) :
    Follows (moves cfg) g (cmdPrintTicketThenOpen cfg barcode gateName) (fun g' _ => g.Reaches .over g')
      fun g' _ => g' = g.failure := by
  have hcalm : g.phase ≠ .passed := by rw [hphase]; nofun
  have hopen {g₁ : Note} (h₁ : g.Waited g₁) :
      Follows (moves cfg) g₁ (cmdOpenGate cfg) (fun g' _ => g.Reaches .over g')
        fun g' _ => g' = g.failure := by
    have h₁ := h₁.reaches
    refine (follows_openGate (h.congr h₁.cause h₁.command) (h₁.phase.trans hphase)).mono
      (fun g' _ h => h₁.trans h) fun _ _ h => h.trans h₁.failure
  unfold cmdPrintTicketThenOpen
  split
  · exact (follows_playIfEnabled _ hcalm).bind (fun _ _ h => h) fun g₁ _ h₁ => hopen h₁
  · refine (follows_printTicket _ _ hphase).bind (fun _ _ h => h.elim) fun g₁ ok h₁ => ?_
    refine (follows_afterPrint _ _ (h₁.reaches.phase.trans hphase)).bind
      (fun _ _ h => h.trans h₁.reaches.failure) fun g₂ _ h₂ => ?_
    exact hopen (h₁.trans h₂)

/-- A task that carries out a command. -/
structure Note.Obeys (g : Note) (c : Command) : Prop where
  cause : g.cause.Handles
  command : g.command = some c
  fresh : g.fresh = true
  phase : g.phase = .calm
  seen : g.seen = none

/-- Only two kinds of commands open the gate. -/
theorem Note.Obeys.opens {c : Command} (h : g.Obeys c)
    (htype : ¬ (c.type = "open_gate" ∨ c.type = "print_ticket_then_open")) :
    ∀ c' ∈ g.command, ¬ c'.Opens := by
  intro c' hc'
  cases h.command.symm.trans hc'
  exact htype

theorem follows_rejectCard {c : Command} (line1 line2 : String) (audioTrack : Int)
    (displaySeconds : String) (h : g.Obeys c) (htype : c.type = "reject_card") :
    Follows (moves cfg) g (cmdRejectCard cfg line1 line2 audioTrack displaySeconds)
      (fun g' _ => g.Reaches .calm g') fun g' _ => g' = g.failure := by
  have hphase : g.phase ≠ .passed := by rw [h.phase]; nofun
  have hcancel : Follows (moves cfg) g cancelValidating (fun g' _ => g' = g) fun _ _ => False := by
    refine ⟨⟨h.phase, c, h.command, htype⟩, fun i _ => ?_⟩
    cases i with
    | none => rfl
    | some i =>
      refine ⟨⟨rfl, c, h.command, htype⟩, fun _ _ => ?_⟩
      change { g with phase := Phase.calm } = g
      rw [← h.phase]
  refine follows_quiet hcancel (follows_quiet (follows_display _ _ hphase) ?_)
  refine (follows_audio _ hphase).bind (fun _ _ h => h) fun g₁ _ h₁ => ?_
  have h₁' := h₁.reaches
  have hsleep : g₁.MaySleep cfg (.text displaySeconds) :=
    ⟨h₁'.phase.symm ▸ h.phase.symm ▸ trivial, c, h₁'.command.symm ▸ h.command, htype⟩
  refine ⟨hsleep, fun _ _ => ?_⟩
  obtain ⟨g₂, hg₂⟩ : ∃ g₂ : Note, g₂ = { g.rested with phase := .rejected } := ⟨_, rfl⟩
  have hnext : (moves cfg).next g₁ (.sleep (.text displaySeconds)) () = g₂ := by
    rw [hg₂]
    rcases h₁ with rfl | rfl <;> rfl
  have hreaches : g.Reaches .rejected g₂ := by
    rw [hg₂]
    exact ⟨rfl, rfl, rfl⟩
  rw [hnext]
  have hwrite : g₂.MayWrite .waitingInput :=
    mayWrite_handles (.rejected hreaches.phase) (hreaches.cause.symm ▸ h.cause)
      (hreaches.phase.symm ▸ trivial) (hreaches.command.symm ▸ h.opens (by rw [htype]; decide))
  refine (follows_transition hwrite).bind (fun _ _ h => h.trans hreaches.failure) ?_
  rintro _ n rfl
  have hcalm : g₂.Reaches .calm (g₂.wrote .waitingInput n) :=
    reaches_wrote rfl (if_pos hreaches.phase)
  exact (follows_display _ _ (hcalm.ne_passed nofun)).mono
    (fun _ _ h => h ▸ hreaches.trans hcalm) fun _ _ h => h.elim

theorem follows_resetGate {c : Command} (h : g.Obeys c) (htype : c.type = "reset_gate") :
    Follows (moves cfg) g (cmdResetGate cfg) (fun g' _ => g.Reaches .calm g')
      fun g' _ => g' = g.failure := by
  have hwrite : g.MayWrite .idle := mayWrite_handles (.reset h.command htype) h.cause
    (h.phase.symm ▸ trivial) (h.opens (by rw [htype]; decide))
  refine follows_idle hwrite ?_
  rw [h.seen]
  nofun

theorem follows_orValueError {α β : Type} {a : Option α} {f : α → Work β}
    {post : Note → β → Prop} {err : Note → LaneExc → Prop}
    (hf : ∀ a, Follows (moves cfg) g (f a) post err) (herr : err g .value) :
    Follows (moves cfg) g (orValueError a >>= f) post err := by
  cases a with
  | none => exact herr
  | some a => exact hf a

/-- The command task has done what it can. -/
structure Note.Ends (cfg : Config) (g g' : Note) : Prop where
  cause : g'.cause = g.cause
  finished : g'.Finished cfg

theorem Note.Finished.rested (h : g.Finished cfg) (hcause : ∀ t, g.cause ≠ .timer t) :
    g.rested.Finished cfg :=
  ⟨h.phase, fun t ht => absurd ht (hcause t), h.command⟩

theorem follows_handleCommand {c : Command} (h : g.Obeys c) :
    Follows (moves cfg) g (handleCommand cfg c.fields) (fun g' _ => g.Ends cfg g')
      fun _ _ => False := by
  have hover : g.Over cfg g := ⟨rfl, rfl, h.phase ▸ trivial⟩
  have hcalm : g.phase ≠ .passed := by rw [h.phase]; nofun
  have hfailure : g.Ends cfg g.failure := ⟨rfl, finished_failure⟩
  have hother {name : String} (htype : c.type = name)
      (hname : ¬ (name = "open_gate" ∨ name = "print_ticket_then_open")) :
      ∀ c' ∈ g.command, ¬ c'.Opens := h.opens (htype.symm ▸ hname)
  have hend {g' : Note} {name : String} (htype : c.type = name)
      (hname : ¬ (name = "open_gate" ∨ name = "print_ticket_then_open"))
      (h' : g.Over cfg g') : g.Ends cfg g' :=
    ⟨h'.cause, h'.finished (hother htype hname)⟩
  have hdone {α : Type} {p : Work α} {name : String} (htype : c.type = name)
      (hname : ¬ (name = "open_gate" ∨ name = "print_ticket_then_open"))
      (hp : Follows (moves cfg) g p (fun g' _ => g.Over cfg g') fun g' _ => g' = g.failure) :
      Follows (moves cfg) g (p >>= fun _ => pure true) (fun g' _ => g.Ends cfg g')
        fun g' _ => g.Ends cfg g' := by
    refine hp.bind ?_ fun _ _ h => hend htype hname h
    rintro _ - rfl
    exact hfailure
  have hopened {p : Work Bool}
      (hp : Follows (moves cfg) g p (fun g' _ => g.Reaches .over g') fun g' _ => g' = g.failure) :
      Follows (moves cfg) g (p >>= fun _ => pure true) (fun g' _ => g.Ends cfg g')
        fun g' _ => g.Ends cfg g' := by
    refine hp.bind ?_ fun g' _ h' => ⟨h'.cause, ?_, ?_, fun _ _ _ => Or.inl h'.phase⟩
    · rintro _ - rfl
      exact hfailure
    · rw [h'.phase]
      trivial
    · rw [h'.phase]
      nofun
  unfold handleCommand
  refine follows_handle.mpr ?_
  change Follows (moves cfg) g _ (fun g' _ => g.Ends cfg g') fun g' _ => g.Ends cfg g'
  dsimp only
  split
  · rename_i htype
    exact hopened (follows_openGate ⟨h.cause, c, h.command, Or.inl htype⟩ h.phase)
  split
  · rename_i _ htype
    refine hdone htype (by decide) ?_
    exact (follows_relayClose_again hcalm).mono (fun _ _ h' => h' ▸ hover) fun _ _ h => h.elim
  split
  · rename_i _ _ htype
    unfold relayBrake
    split
    · refine hdone htype (by decide) ?_
      exact (follows_send hcalm rfl).mono (fun _ _ h' => h' ▸ hover) fun _ _ h => h.elim
    · exact hdone (p := pure ()) htype (by decide) hover
  split
  · rename_i _ _ _ htype
    refine follows_orValueError (fun track => hdone htype (by decide) ?_)
      (hend htype (by decide) hover)
    refine (follows_audio track hcalm).mono (fun g' _ h' => h'.reaches.over ?_) fun _ _ h => h
    exact h.phase ▸ trivial
  split
  · rename_i _ _ _ _ htype
    refine hdone htype (by decide) ?_
    exact (follows_display _ _ hcalm).mono (fun _ _ h' => h' ▸ hover) fun _ _ h => h.elim
  split
  · rename_i _ _ _ _ _ htype
    exact hopened
      (follows_printTicketThenOpen _ _ ⟨h.cause, c, h.command, Or.inr htype⟩ h.phase)
  split
  · rename_i _ _ _ _ _ _ htype
    have hraise : g.Ends cfg g := hend htype (by decide) hover
    -- neither number matters, and `pyFloat` is costly to unfold
    generalize Upload.pyInt _ = audioTrack, pyFloat _ = displaySeconds
    refine follows_orValueError (fun track => follows_orValueError (fun seconds => ?_) hraise)
      hraise
    refine hdone htype (by decide) ?_
    exact (follows_rejectCard _ _ _ _ h htype).mono (fun _ _ h => h.over trivial) fun _ _ h => h
  split
  · rename_i _ _ _ _ _ _ _ htype
    refine hdone htype (by decide) ?_
    exact (follows_resetGate h htype).mono (fun _ _ h => h.over trivial) fun _ _ h => h
  split
  · rename_i _ _ _ _ _ _ _ _ htype
    refine follows_orValueError (fun frame => hdone htype (by decide) ?_)
      (hend htype (by decide) hover)
    exact follows_dispatch
      ⟨h.phase, h.cause, hother htype (by decide), Or.inr ⟨h.fresh, c, h.command, htype⟩⟩
  · rename_i hopen _ _ _ _ hprint _ _ _
    exact ⟨rfl, hover.finished (h.opens fun hopens => hopens.elim hopen hprint)⟩

end Commands

section Loops
variable {cfg : Config} {g : Note} {c : Cause}

theorem follows_attempt {α : Type} {p h : Work α} {post : Note → α → Prop}
    {raised err : Note → LaneExc → Prop} (hp : Follows (moves cfg) g p post raised)
    (hh : ∀ g' e, raised g' e → Follows (moves cfg) g' h post err) :
    Follows (moves cfg) g (attempt p h) post err :=
  follows_handle.mpr (hp.mono (fun _ _ h => h) hh)

theorem follows_processCommand {c : Command} (h : g.Obeys c) :
    Follows (moves cfg) g (processCommand cfg c.id c.fields) (fun g' _ => g'.Finished cfg)
      fun _ _ => False := by
  refine follows_handle.mpr ?_
  change Follows (moves cfg) g _ (fun g' _ => g'.Finished cfg) fun g' _ => g'.Finished cfg
  refine (follows_handleCommand h).bind (fun _ _ h => h.elim) fun g₁ ok h₁ => ?_
  have hrested : g₁.rested.Finished cfg :=
    h₁.finished.rested fun t ht => by
      have hhandles := h₁.cause.symm ▸ h.cause
      rw [ht] at hhandles
      exact hhandles
  cases ok with
  | false => exact h₁.finished
  | true =>
    refine ⟨trivial, fun ok _ => ?_⟩
    cases ok with
    | true => exact hrested
    | false => exact hrested

/-- A task that carries out no command and is no timer. -/
structure Note.Clear (cfg : Config) (c : Cause) (g : Note) : Prop where
  cause : g.cause = c
  command : g.command = none
  phase : g.phase.Settled cfg

theorem Note.Clear.finished (h : g.Clear cfg c) (hc : ∀ t, c ≠ .timer t) : g.Finished cfg := by
  refine ⟨h.phase, fun t ht => absurd (h.cause.symm.trans ht) (hc t), fun c hc => ?_⟩
  cases h.command.symm.trans hc

theorem Note.Clear.rested (h : g.Clear cfg c) : g.rested.Clear cfg c :=
  ⟨h.cause, h.command, h.phase⟩

theorem Note.Over.clear {g' : Note} (h : g.Over cfg g') (hcause : g.cause = c)
    (hcommand : g.command = none) : g'.Clear cfg c :=
  ⟨h.cause.trans hcause, h.command.trans hcommand, h.phase.settled⟩

theorem clear_start (hc : ∀ t, c ≠ .timer t) : (Note.start c).Clear cfg c := by
  refine ⟨rfl, rfl, ?_⟩
  cases c with
  | timer t => exact absurd rfl (hc t)
  | _ => trivial

theorem Note.Clear.maySleep (h : g.Clear cfg c) (n : Nat) : g.MaySleep cfg (.ms n) :=
  ⟨h.phase, fun _ c hc => by cases h.command.symm.trans hc⟩

/-- A pause after an exception. -/
theorem clear_slept (n : Nat) (h : g.Clear cfg c) :
    (Note.next g (.sleep (.ms n)) ()).Clear cfg c := by
  refine ⟨h.cause, h.command, ?_⟩
  change (if n = 10000 then Phase.helped else g.phase).Settled cfg
  split
  · trivial
  · exact h.phase

theorem follows_consumeCommands :
    Follows (moves cfg) (.start .commands) (consumeCommands cfg) (fun g' _ => g'.Finished cfg)
      fun _ _ => False := by
  have hclear : (Note.start .commands).Clear cfg .commands := clear_start nofun
  refine follows_handle.mpr ⟨trivial, fun a _ => ?_⟩
  cases a with
  | failed => exact ⟨hclear.maySleep _, fun _ _ => hclear.finished nofun⟩
  | nothing => exact hclear.finished nofun
  | message c =>
    have hobeys : ({ Note.start .commands with command := some c, fresh := true } : Note).Obeys c :=
      ⟨trivial, rfl, rfl, rfl, rfl⟩
    exact (follows_processCommand hobeys).mono (fun _ _ h => h) fun _ _ h => h.elim

/-- Every frame of the buffer is dispatched from a calm phase. -/
theorem follows_processRssBuffer (n : Nat) (buffer : Bytes) (h : g.Clear cfg .rss) :
    Follows (moves cfg) g (processRssBuffer cfg n buffer) (fun g' _ => g'.Clear cfg .rss)
      fun g' _ => g'.Clear cfg .rss := by
  induction n generalizing g buffer with
  | zero => exact h
  | succ n ih =>
    unfold processRssBuffer
    split
    · exact h
    · split
      · exact h
      · exact h
      · rename_i msg rest _
        refine ⟨⟨h.cause, h.phase⟩, fun _ _ => ?_⟩
        have hdispatches : ({ g with frame := some msg, phase := .calm } : Note).Dispatches msg := by
          refine ⟨rfl, h.cause.symm ▸ trivial, fun c hc => ?_, Or.inl rfl⟩
          cases h.command.symm.trans hc
        refine (follows_dispatch hdispatches).bind ?_ fun g₁ _ h₁ => ?_
        · rintro _ - rfl
          exact ⟨h.cause, h.command, trivial⟩
        · exact ih rest (h₁.clear h.cause h.command)

theorem follows_setupRss (hphase : g.phase = .calm) :
    Follows (moves cfg) g setupRss (fun g' _ => g' = g) fun g' _ => g' = g := by
  have hstill : g.hindered = g := Note.hindered_eq (by rw [hphase]; nofun)
  refine ⟨trivial, fun ok _ => ?_⟩
  cases ok with
  | false => exact hstill
  | true =>
    refine ⟨(fun h => nomatch h), fun landed _ => ?_⟩
    cases landed with
    | false => exact hstill
    | true => rfl

theorem follows_rssListener :
    Follows (moves cfg) (.start .rss) (rssListener cfg) (fun g' _ => g'.Finished cfg)
      fun _ _ => False := by
  have hself : (Note.start .rss).Clear cfg .rss := clear_start nofun
  refine follows_attempt (?_ : Follows (moves cfg) _ _ (fun g' _ => g'.Finished cfg)
    fun g' _ => g'.Clear cfg .rss) fun g' _ h => ⟨h.maySleep _, fun _ _ => ?_⟩
  · refine ⟨trivial, fun ok _ => ?_⟩
    cases ok with
    | true =>
      refine ⟨trivial, fun _ _ => ⟨trivial, fun chunk _ => ?_⟩⟩
      cases chunk with
      | none => exact hself
      | some chunk =>
        change Follows (moves cfg) (Note.start .rss) (if chunk ≠ [] then _ else _) _ _
        split
        · refine ⟨trivial, fun buffer _ => ⟨trivial, fun _ _ => ?_⟩⟩
          refine (follows_processRssBuffer _ _ hself).bind (fun _ _ h => h)
            fun g₁ rest h₁ => ⟨trivial, fun _ _ => h₁.finished nofun⟩
        · exact hself.finished nofun
    | false =>
      refine ⟨trivial, fun _ _ => ⟨trivial, fun _ _ => ⟨trivial, fun _ _ => ⟨trivial, ?_⟩⟩⟩⟩
      intro ok _
      cases ok with
      | true =>
        refine (follows_setupRss (g := .start .rss) rfl).bind ?_ ?_
        · rintro _ - rfl
          exact hself
        · rintro _ - rfl
          exact ⟨trivial, fun _ _ => ⟨trivial, fun _ _ => hself.finished nofun⟩⟩
      | false =>
        refine ⟨trivial, fun delay _ => ⟨hself.maySleep _, fun _ _ => ⟨trivial, fun _ _ => ?_⟩⟩⟩
        exact (clear_slept _ hself).finished nofun
  · exact (clear_slept _ h).finished nofun

theorem follows_rfidSerialReader :
    Follows (moves cfg) (.start .serial) (rfidSerialReaderTask cfg) (fun g' _ => g'.Finished cfg)
      fun _ _ => False := by
  have hself : (Note.start .serial).Clear cfg .serial := clear_start nofun
  refine follows_attempt (?_ : Follows (moves cfg) _ _ (fun g' _ => g'.Finished cfg)
    fun g' _ => g'.Clear cfg .serial) fun g' _ h =>
      ⟨h.maySleep _, fun _ _ => (clear_slept _ h).finished nofun⟩
  refine ⟨trivial, fun raw _ => ?_⟩
  cases raw with
  | none => exact hself
  | some raw =>
    change Follows (moves cfg) (Note.start .serial) (if asciiLine raw ≠ "" then _ else _) _ _
    split
    · refine ⟨trivial, fun st _ => ?_⟩
      change Follows (moves cfg) { Note.start .serial with seen := some st } (if _ then _ else _) _ _
      split
      · rename_i hst
        obtain ⟨rfl, -⟩ := hst
        have hwrite : ({ Note.start .serial with seen := some .waitingInput } : Note).MayWrite
            .validating := mayWrite_handles (.read rfl) trivial trivial nofun
        refine (follows_cardRead _ _ hwrite).mono (fun g' _ h => ?_) ?_
        · exact ((h.over trivial).clear rfl rfl).finished nofun
        · rintro _ - rfl
          exact ⟨rfl, rfl, trivial⟩
      · exact Note.Clear.finished (c := .serial) ⟨rfl, rfl, trivial⟩ nofun
    · exact hself.finished nofun

theorem follows_heartbeat :
    Follows (moves cfg) (.start .heartbeat) controllerHeartbeat (fun g' _ => g'.Finished cfg)
      fun _ _ => False := by
  have hself : (Note.start .heartbeat).Clear cfg .heartbeat := clear_start nofun
  refine ⟨hself.maySleep _, fun _ _ => ⟨trivial, fun ok _ => ?_⟩⟩
  cases ok with
  | false => exact hself.finished nofun
  | true =>
    have hsend : Follows (moves cfg) (.start .heartbeat) (send .stat)
        (fun g' _ => g' = .start .heartbeat) fun _ _ => False := follows_send nofun rfl
    exact hsend.mono (fun _ _ h => h ▸ hself.finished nofun) fun _ _ h => h

end Loops

section Consumer
variable {cfg : Config} {g : Note} {e : GateEvent} {n : Nat}

/-- The event consumer before its answer. -/
structure Note.Serves (g : Note) (e : GateEvent) (n : Nat) : Prop where
  cause : g.cause = .event e n
  command : g.command = none
  phase : g.phase = .calm

theorem Note.Serves.rested (h : g.Serves e n) : g.rested.Serves e n := ⟨h.cause, h.command, h.phase⟩

theorem Note.Serves.finished (h : g.Serves e n) : g.Finished cfg :=
  Note.Clear.finished ⟨h.cause, h.command, h.phase ▸ trivial⟩ nofun

/-- A call of the database or the clock. -/
theorem follows_call {α : Type} {o : LaneOp} {f : o.Ans → Work α} {post : Note → α → Prop}
    {err : Note → LaneExc → Prop} (hallow : (moves cfg).allow g o)
    (hnext : ∀ a, (moves cfg).next g o a = g.rested)
    (hf : ∀ a, Follows (moves cfg) g.rested (f a) post err) :
    Follows (moves cfg) g (ask o >>= f) post err :=
  follows_bind.mpr ⟨hallow, fun a _ => (hnext a).symm ▸ hf a⟩

theorem follows_tell {c : RedisCommand} (h : g.Serves e n) (hopens : ¬ c.Opens) :
    Follows (moves cfg) g (publishCommand c n) (fun g' _ => g'.Serves e n)
      fun g' _ => g'.Serves e n := by
  have hmay : g.MayAnswer c n := by
    unfold Note.MayAnswer
    rw [h.cause]
    cases c with
    | openGate _ _ | printTicketThenOpen _ _ => exact absurd trivial hopens
    | _ => exact ⟨rfl, hopens⟩
  have hnext : ∀ ok, (moves cfg).next g (.publishCommand c n) ok = g.rested := by
    cases c with
    | openGate _ _ | printTicketThenOpen _ _ => exact absurd trivial hopens
    | _ => exact fun _ => rfl
  refine ⟨hmay, fun ok _ => ?_⟩
  rw [hnext]
  cases ok <;> exact h.rested

theorem follows_answer {c : RedisCommand} (h : g.Serves e n) (hmay : g.MayAnswer c n)
    (hopens : c.Opens) :
    Follows (moves cfg) g (publishCommand c n) (fun g' _ => g'.Finished cfg)
      fun g' _ => g'.Finished cfg := by
  have hnext : ∀ ok,
      (moves cfg).next g (.publishCommand c n) ok = { g.rested with phase := .answered } := by
    cases c with
    | openGate _ _ | printTicketThenOpen _ _ => exact fun _ => rfl
    | _ => exact hopens.elim
  refine ⟨hmay, fun ok _ => ?_⟩
  have hfinished : ({ g.rested with phase := .answered } : Note).Finished cfg :=
    Note.Clear.finished (c := .event e n) ⟨h.cause, h.command, trivial⟩ nofun
  rw [hnext]
  cases ok <;> exact hfinished

/-- The value of a database call, or its exception. -/
theorem follows_database {α β : Type} {a : Option α} {f : α → Work β} {post : Note → β → Prop}
    {err : Note → LaneExc → Prop} (hf : ∀ a, Follows (moves cfg) g (f a) post err)
    (herr : err g .database) : Follows (moves cfg) g (orDatabaseError a >>= f) post err := by
  cases a with
  | none => exact herr
  | some a => exact hf a

theorem follows_commit (h : g.Serves e n) :
    Follows (moves cfg) g commit (fun g' _ => g'.Serves e n) fun g' _ => g'.Serves e n := by
  refine ⟨trivial, fun ok _ => ?_⟩
  cases ok <;> exact h.rested

theorem follows_ticketPressed (h : g.Serves .ticketButtonPressed n) :
    Follows (moves cfg) g (handleTicketButtonPressed n) (fun g' _ => g'.Finished cfg)
      fun _ _ => False := by
  refine follows_attempt (?_ : Follows (moves cfg) g _ (fun g' _ => g'.Finished cfg)
    fun g' _ => g'.Finished cfg) fun _ _ h => h
  refine follows_call trivial (fun _ => rfl) fun gate => ?_
  refine follows_database (fun gate => ?_) h.rested.finished
  cases gate with
  | none => exact h.rested.finished
  | some gate =>
    refine follows_call trivial (fun _ => rfl) fun barcode => ?_
    refine follows_call trivial (fun _ => rfl) fun stored => ?_
    refine follows_database (fun stored => ?_) h.rested.finished
    refine (follows_commit (h.rested.rested.rested)).bind (fun _ _ h => h.finished) fun g' _ h' => ?_
    have hmay : g'.MayAnswer (.printTicketThenOpen (stored.getD "None") gate.name) n := by
      unfold Note.MayAnswer
      rw [h'.cause]
      exact ⟨rfl, h'.phase⟩
    exact follows_answer h' hmay trivial

theorem follows_rfidExit (gate : GateRow) (cardNumber : String) (h : g.Serves e n) :
    Follows (moves cfg) g (handleRfidExit gate cardNumber n) (fun g' _ => g'.Serves e n)
      fun g' _ => g'.Serves e n := by
  refine follows_call trivial (fun _ => rfl) fun ended => ?_
  cases ended with
  | failed => exact h.rested
  | success => exact follows_commit h.rested
  | value msg =>
    refine (follows_tell h.rested ?_).bind (fun _ _ h => h) fun g₁ _ h₁ => ?_
    · split <;> exact id
    · exact follows_tell h₁ id

theorem follows_warning (text : RedisCommand) (track : Int) (h : g.Serves e n)
    (hopens : ¬ text.Opens) :
    Follows (moves cfg) g (do
        publishCommand text n
        publishCommand (.playAudio track) n
        ask (.sleep (.ms 6000)))
      (fun g' _ => g'.Serves e n) fun g' _ => g'.Serves e n := by
  refine (follows_tell h hopens).bind (fun _ _ h => h) fun g₁ _ h₁ => ?_
  refine (follows_tell h₁ id).bind (fun _ _ h => h) fun g₂ _ h₂ => ?_
  refine ⟨⟨h₂.phase.symm ▸ trivial, fun h => nomatch h⟩, fun _ _ => ?_⟩
  exact ⟨h₂.cause, h₂.command, h₂.phase⟩

theorem follows_warnExpiry (member : MemberRow) (h : g.Serves e n) :
    Follows (moves cfg) g (warnExpiry member n) (fun g' _ => g'.Serves e n)
      fun g' _ => g'.Serves e n := by
  unfold warnExpiry
  split
  · exact h
  · refine follows_call trivial (fun _ => rfl) fun today => ?_
    dsimp only
    split
    · exact follows_warning _ _ h.rested id
    · split
      · exact follows_warning _ _ h.rested id
      · exact h.rested

theorem follows_expired (member : MemberRow) (h : g.Serves e n) :
    Follows (moves cfg) g (expired member) (fun g' _ => g'.Serves e n) fun g' _ => g'.Serves e n := by
  unfold expired
  split
  · exact h
  · exact follows_call trivial (fun _ => rfl) fun today => h.rested

theorem follows_reject (line1 line2 : String) (track : Int) (h : g.Serves e n) :
    Follows (moves cfg) g (publishCommand (rejectCard line1 line2 track) n)
      (fun g' _ => g'.Finished cfg) fun g' _ => g'.Finished cfg :=
  (follows_tell h id).mono (fun _ _ h => h.finished) fun _ _ h => h.finished

theorem follows_rfidEntry (gate : GateRow) {cardNumber channel : String}
    (h : g.Serves (.rfidCardRead cardNumber channel) n) :
    Follows (moves cfg) g (handleRfidEntry gate cardNumber n) (fun g' _ => g'.Finished cfg)
      fun g' _ => g'.Finished cfg := by
  refine follows_call trivial (fun _ => rfl) fun member => ?_
  refine follows_database (fun member => ?_) h.rested.finished
  cases member with
  | none => exact follows_reject _ _ _ h.rested
  | some member =>
    dsimp only
    split
    · exact follows_reject _ _ _ h.rested
    refine (follows_expired member h.rested).bind (fun _ _ h => h.finished) fun g₁ late h₁ => ?_
    cases late with
    | true => exact follows_reject _ _ _ h₁
    | false =>
      refine follows_call trivial (fun _ => rfl) fun open' => ?_
      refine follows_database (fun open' => ?_) h₁.rested.finished
      cases open' with
      | true => exact follows_reject _ _ _ h₁.rested
      | false =>
        refine (follows_warnExpiry member h₁.rested).bind (fun _ _ h => h.finished) fun g₂ _ h₂ => ?_
        refine follows_call trivial (fun _ => rfl) fun stored => ?_
        refine follows_database (fun stored => ?_) h₂.rested.finished
        refine (follows_commit h₂.rested).bind (fun _ _ h => h.finished) fun g₃ _ h₃ => ?_
        have hmay : g₃.MayAnswer (.openGate none "operator") n := by
          unfold Note.MayAnswer
          rw [h₃.cause]
          exact ⟨rfl, h₃.phase⟩
        exact follows_answer h₃ hmay trivial

theorem follows_cardReadEvent {cardNumber channel : String}
    (h : g.Serves (.rfidCardRead cardNumber channel) n) :
    Follows (moves cfg) g (handleRfidCardRead cardNumber n) (fun g' _ => g'.Finished cfg)
      fun _ _ => False := by
  refine follows_attempt (?_ : Follows (moves cfg) g _ (fun g' _ => g'.Finished cfg)
    fun g' _ => g'.Finished cfg) fun _ _ h => h
  refine follows_call trivial (fun _ => rfl) fun gate => ?_
  refine follows_database (fun gate => ?_) h.rested.finished
  cases gate with
  | none => exact h.rested.finished
  | some gate =>
    dsimp only
    split
    · exact (follows_rfidExit gate cardNumber h.rested).mono (fun _ _ h => h.finished)
        fun _ _ h => h.finished
    · exact follows_rfidEntry gate h.rested

theorem follows_handleMessage (h : g.Serves e n) :
    Follows (moves cfg) g (handleMessage e n) (fun g' _ => g'.Finished cfg)
      fun _ _ => False := by
  cases e with
  | ticketButtonPressed => exact follows_ticketPressed h
  | rfidCardRead cardNumber channel => exact follows_cardReadEvent h
  | _ => exact h.finished

end Consumer

/-- Every task of the lane keeps to the protocol. -/
theorem follows_code (cfg : Config) (c : Cause) :
    Follows (moves cfg) (.start c) (c.code cfg) (fun g' _ => g'.Finished cfg)
      fun g' _ => g'.Finished cfg := by
  cases c with
  | rss => exact follows_rssListener.mono (fun _ _ h => h) fun _ _ h => h.elim
  | commands => exact follows_consumeCommands.mono (fun _ _ h => h) fun _ _ h => h.elim
  | serial => exact follows_rfidSerialReader.mono (fun _ _ h => h) fun _ _ h => h.elim
  | heartbeat => exact follows_heartbeat.mono (fun _ _ h => h) fun _ _ h => h.elim
  | timer t =>
    cases t with
    | validating n => exact follows_validatingTimeout rfl rfl rfl
    | vehiclePass n => exact follows_vehiclePassTimer rfl rfl rfl
  | event e n =>
    exact (follows_handleMessage ⟨rfl, rfl, rfl⟩).mono (fun _ _ h => h) fun _ _ h => h.elim

end ParkIt.GateIn
