import ParkIt.GateIn.Inventory

/-! The connection that the frame listener reads from, and the command that makes it speak. -/
namespace ParkIt.GateIn.Subscription

open Effects ByteString

/-- A connection to the controller. It stays closed once it is; `refused` says that a write of the
RSS command on it raised. -/
structure Connection where
  isOpen : Bool
  subscribed : Bool := false
  refused : Bool := false
deriving DecidableEq, Repr

structure Line where
  controller : Option Connection
  running : Bool := true
deriving DecidableEq, Repr

namespace Line

/-- `self.controller and self.controller.is_connected()`. -/
def isConnected (l : Line) : Bool := l.controller.any (·.isOpen)

def closed (l : Line) : Line :=
  { l with controller := l.controller.map fun c => { c with isOpen := false } }

def wrote (l : Line) (command : ControllerCommand) (landed : Bool) : Line :=
  match command with
  | .rss _ =>
    { l with
      controller := l.controller.map fun c =>
        if landed then { c with subscribed := true } else { c with refused := true } }
  | _ => l

end Line

/-- What an operation of the listener does to the connection. -/
inductive Does (l : Line) : (o : LaneOp) → o.Ans → Line → Prop where
  | connected : Does l .connected l.isConnected l
  | connects : Does l .connect () { l with controller := some { isOpen := true } }
  | connectFails : Does l .connect () { l with controller := none }
  | disconnect : Does l .disconnect () { l with controller := none }
  | close : Does l .close () l.closed
  | write {command : ControllerCommand} (landed : Bool) :
    Does l (.write command) landed (l.wrote command landed)
  | other {o : LaneOp} (a : o.Ans) : o ≠ .connected → o ≠ .connect → o ≠ .disconnect → o ≠ .close →
    (∀ command, o ≠ .write command) → Does l o a l

/-- The listener sets the connection up once, outside of its loop; a turn of the loop is
`rssListener`. -/
inductive Task where
  | starting (p : Work Unit)
  | turning (p : Work Unit)
  | dead
  | ended

inductive Label where
  | op (o : LaneOp) (a : o.Ans)
  | raised
  | turn
  /-- The peer goes away, or a failed `_send_controller_command` of another task closes. -/
  | closes
  | stops
  | ends

section Steps
variable (cfg : Config)

inductive Step : Line × Task → Label → Line × Task → Prop where
  | start {l l' : Line} {o : LaneOp} {a : o.Ans} {k : o.Ans → Work Unit} : Does l o a l' →
    Step (l, .starting (.call o k)) (.op o a) (l', .starting (k a))
  | startRaised {l : Line} {e : LaneExc} : Step (l, .starting (.throw e)) .raised (l, .dead)
  | enter {l : Line} : l.running = true →
    Step (l, .starting (.pure ())) .turn (l, .turning (rssListener cfg))
  | op {l l' : Line} {o : LaneOp} {a : o.Ans} {k : o.Ans → Work Unit} : Does l o a l' →
    Step (l, .turning (.call o k)) (.op o a) (l', .turning (k a))
  | raised {l : Line} {e : LaneExc} : Step (l, .turning (.throw e)) .raised (l, .dead)
  | turn {l : Line} : l.running = true →
    Step (l, .turning (.pure ())) .turn (l, .turning (rssListener cfg))
  | closes {l : Line} {t : Task} : Step (l, t) .closes (l.closed, t)
  | stops {l : Line} {t : Task} : Step (l, t) .stops ({ l with running := false }, t)
  | ends {l : Line} {t : Task} : l.running = false → Step (l, t) .ends (l, .ended)

/-- A run from the start of the task on a line that nobody has subscribed. -/
inductive Run : Line × Task → List (Label × (Line × Task)) → Prop where
  | start {l : Line} : (∀ c ∈ l.controller, c.subscribed = false ∧ c.refused = false) →
    Run (l, .starting setupRss) []
  | step {s t : Line × Task} {x : Label} {xs : List (Label × (Line × Task))} :
    Run s xs → Step cfg s x t → Run t ((x, s) :: xs)

end Steps

/-- The listener is about to read. -/
def Reads (t : Task) : Prop := ∃ k, t = .turning (.call .recv k)

/-- Who listens has subscribed, and somebody listens. -/
structure Attentive (s : Line × Task) : Prop where
  subscribed : Reads s.2 → ∀ c ∈ s.1.controller, c.isOpen = true → c.subscribed = true
  listening : s.1.running = true → s.2 ≠ .dead ∧ s.2 ≠ .ended

/-- The set-up before the loop does not raise while the daemon runs, and the listener finds no
connection open on which the RSS command was refused. -/
structure Sound (x : Label) (s : Line × Task) : Prop where
  setup : x = .raised → ∀ p, s.2 = .starting p → s.1.running = false
  refused : x = .op .connected true → ∀ c ∈ s.1.controller, c.refused = false

/-- What the listener knows of its connection. -/
structure Known where
  gone : Bool
  subscribed : Bool
  refused : Bool

def Known.Settled (g : Known) : Prop := g.gone = true ∨ g.subscribed = true ∨ g.refused = true

def attention : Protocol LaneOp LaneOp.Ans Known where
  allow g o := o = .recv → g.gone = true ∨ g.subscribed = true
  expect g o a :=
    match o, a with
    | .connected, up => up = true → g.gone = false ∧ g.refused = false
    | _, _ => True
  next g o a :=
    match o, a with
    | .connected, up => if up then g else { g with gone := true }
    | .connect, _ => ⟨false, false, false⟩
    | .disconnect, _ => ⟨true, false, false⟩
    | .close, _ => { g with gone := true }
    | .write (.rss _), landed =>
      if landed then { g with subscribed := true } else { g with refused := true }
    | _, _ => g

section Listener
variable {cfg : Config} {g : Known}

abbrev Attends {α : Type} (g : Known) (p : Work α) (post : Known → Prop) : Prop :=
  Follows attention g p (fun g' _ => post g') fun g' _ => post g'

/-- A subscription stays while only handlers act. -/
theorem subscribed_next {o : LaneOp} (ho : o.Handling) (a : o.Ans) (h : g.subscribed = true) :
    (attention.next g o a).subscribed = true := by
  cases o with
  | connected =>
    change (if a then g else { g with gone := true }).subscribed = true
    split <;> exact h
  | write command =>
    cases command with
    | rss _ =>
      change (if a then { g with subscribed := true } else { g with refused := true }).subscribed =
        true
      split
      · rfl
      · exact h
    | _ => exact h
  | close => exact h
  | recv | connect | disconnect => exact ho.elim
  | _ => exact h

theorem attends_handles {α : Type} {p : Work α} (hp : Handles p) (h : g.subscribed = true) :
    Attends g p fun g' => g'.subscribed = true := by
  have hrel := hp.follows_rel (P := attention) (R := fun g g' : Known =>
    g.subscribed = true → g'.subscribed = true) (g := g) (fun _ h => h)
    (fun _ _ _ h h' h₀ => h' (h h₀)) fun g o ho => by
      refine ⟨?_, fun a => subscribed_next ho a⟩
      rintro rfl
      exact ho.elim
  exact hrel.mono (fun _ _ h' => h' h) fun _ _ h' => h'.1 h

theorem attends_processRssBuffer (n : Nat) (buffer : Bytes) (h : g.subscribed = true) :
    Attends g (processRssBuffer cfg n buffer) fun g' => g'.subscribed = true := by
  induction n generalizing buffer g with
  | zero => exact h
  | succ n ih =>
    unfold processRssBuffer
    split
    · exact h
    · split
      · exact h
      · exact h
      · refine ⟨fun heq => (by cases heq), fun _ _ => ?_⟩
        exact (attends_handles (composed_dispatch cfg _).handles h).bind (fun _ _ h => h) fun g' _ h' => ih _ h'

theorem attends_then {o : LaneOp} {f : o.Ans → Work Unit} {post : Known → Prop}
    (ho : o = .recv → g.gone = true ∨ g.subscribed = true)
    (hf : ∀ a, attention.expect g o a → Attends (attention.next g o a) (f a) post) :
    Attends g (ask o >>= f) post := ⟨ho, hf⟩

theorem attends_setupRss :
    Follows attention g setupRss (fun g' _ => g'.Settled) fun g' _ => g'.Settled := by
  refine ⟨nofun, fun up _ => ?_⟩
  cases up with
  | true =>
    refine ⟨nofun, fun landed _ => ?_⟩
    cases landed with
    | true => exact Or.inr (Or.inl rfl)
    | false => exact Or.inr (Or.inr rfl)
  | false => exact Or.inl rfl

/-- A turn that starts with a connection that is gone, subscribed or refused ends with such a one. -/
theorem attends_rssListener (cfg : Config) (h : g.Settled) :
    Follows attention g (rssListener cfg) (fun g' _ => g'.Settled) fun _ _ => False := by
  have hrest : ∀ g' : Known, g'.Settled →
      Follows attention g' (ask (.sleep (.ms 1000))) (fun g' _ => g'.Settled) fun _ _ => False :=
    fun g' h' => ⟨nofun, fun _ _ => h'⟩
  refine follows_handle.mpr (Follows.mono ?_ (fun _ _ h => h) fun g' _ h' => hrest g' h')
  change Attends g _ Known.Settled
  refine attends_then nofun fun up hup => ?_
  cases up with
  | true =>
    obtain ⟨hgone, hrefused⟩ := hup rfl
    have hsub : g.subscribed = true := by
      rcases h with h | h | h
      · rw [hgone] at h
        cases h
      · exact h
      · rw [hrefused] at h
        cases h
    refine attends_then nofun fun _ _ => attends_then (fun _ => Or.inr hsub) fun got _ => ?_
    cases got with
    | none => exact Or.inr (Or.inl hsub)
    | some chunk =>
      change Attends g (if chunk ≠ [] then _ else _) Known.Settled
      split
      · refine attends_then nofun fun _ _ => attends_then nofun fun _ _ => ?_
        refine (attends_processRssBuffer _ _ hsub).bind (fun _ _ h => Or.inr (Or.inl h)) ?_
        intro g' rest h'
        exact ⟨nofun, fun _ _ => Or.inr (Or.inl h')⟩
      · exact Or.inr (Or.inl hsub)
  | false =>
    refine attends_then nofun fun _ _ => attends_then nofun fun _ _ => attends_then nofun fun _ _ =>
      attends_then nofun fun up _ => ?_
    cases up with
    | true =>
      refine attends_setupRss.bind (fun _ _ h => h) fun g' _ h' => ?_
      exact attends_then nofun fun _ _ => ⟨nofun, fun _ _ => h'⟩
    | false =>
      refine attends_then nofun fun _ _ => attends_then nofun fun _ _ => ?_
      exact ⟨nofun, fun _ _ => Or.inl rfl⟩

end Listener
section Invariant
variable {cfg : Config} {l l' : Line} {g : Known} {s t : Line × Task} {x : Label}

def Matches (l : Line) (g : Known) : Prop :=
  ∀ c ∈ l.controller, (g.gone = true → c.isOpen = false) ∧
    (g.subscribed = true → c.subscribed = true) ∧ (g.refused = true → c.refused = true)

theorem matches_closed (h : Matches l g) : Matches l.closed g := by
  intro c hc
  obtain ⟨c', hc', rfl⟩ := Option.map_eq_some_iff.mp hc
  exact ⟨fun _ => rfl, (h c' hc').2⟩

theorem matches_gone (h : Matches l g) (hclosed : l.isConnected = false) :
    Matches l { g with gone := true } := by
  intro c hc
  refine ⟨fun _ => ?_, (h c hc).2⟩
  rw [Line.isConnected, hc] at hclosed
  exact hclosed

theorem matches_wrote (h : Matches l g) (n : Nat) (landed : Bool) :
    Matches (l.wrote (.rss n) landed)
      (if landed then { g with subscribed := true } else { g with refused := true }) := by
  intro c hc
  obtain ⟨c', hc', rfl⟩ := Option.map_eq_some_iff.mp hc
  obtain ⟨hgone, hsub, hrefused⟩ := h c' hc'
  cases landed with
  | true => exact ⟨hgone, fun _ => rfl, hrefused⟩
  | false => exact ⟨hgone, hsub, fun _ => rfl⟩

/-- The connection does what the listener takes from the answers. -/
theorem matches_next {o : LaneOp} {a : o.Ans} (h : Matches l g) (hd : Does l o a l') :
    Matches l' (attention.next g o a) := by
  cases hd with
  | connected =>
    change Matches l (if l.isConnected then g else { g with gone := true })
    split
    case isTrue => exact h
    case isFalse hclosed => exact matches_gone h (Bool.eq_false_of_not_eq_true hclosed)
  | connects =>
    rintro c ⟨⟩
    exact ⟨nofun, nofun, nofun⟩
  | connectFails | disconnect => exact fun c hc => absurd hc (Option.not_mem_none c)
  | close =>
    intro c hc
    refine ⟨fun _ => ?_, (matches_closed h c hc).2⟩
    obtain ⟨c', -, rfl⟩ := Option.map_eq_some_iff.mp hc
    rfl
  | @write command landed =>
    cases command with
    | rss n => exact matches_wrote h n landed
    | _ => exact h
  | other _ h₁ h₂ h₃ h₄ h₅ =>
    cases o with
    | connected => exact (h₁ rfl).elim
    | connect => exact (h₂ rfl).elim
    | disconnect => exact (h₃ rfl).elim
    | close => exact (h₄ rfl).elim
    | write command => exact (h₅ command rfl).elim
    | _ => exact h

theorem expected {o : LaneOp} {a : o.Ans} (h : Matches l g) (hd : Does l o a l')
    (hs : Sound (.op o a) s) (hl : s.1 = l) : attention.expect g o a := by
  cases hd with
  | connected =>
    intro hup
    obtain ⟨c, hc, hopen⟩ : ∃ c ∈ l.controller, c.isOpen = true := by
      rcases hcontroller : l.controller with - | c
      · rw [Line.isConnected, hcontroller] at hup
        cases hup
      · rw [Line.isConnected, hcontroller] at hup
        exact ⟨c, rfl, hup⟩
    obtain ⟨hgone, -, hrefused⟩ := h c hc
    have hclear : c.refused = false := by
      refine hs.refused ?_ c (hl ▸ hc)
      rw [hup]
    constructor
    · refine Bool.eq_false_of_not_eq_true fun hg => ?_
      rw [hgone hg] at hopen
      cases hopen
    · refine Bool.eq_false_of_not_eq_true fun hg => ?_
      rw [hrefused hg] at hclear
      cases hclear
  | other _ h₁ _ _ _ _ =>
    cases o with
    | connected => exact (h₁ rfl).elim
    | _ => trivial
  | _ => trivial

/-- The listener with what it knows of the line. -/
def Knows (s : Line × Task) : Prop :=
  match s.2 with
  | .starting p => ∃ g, Matches s.1 g ∧
    Follows attention g p (fun g' _ => g'.Settled) fun _ _ => True
  | .turning p => ∃ g, Matches s.1 g ∧
    Follows attention g p (fun g' _ => g'.Settled) fun _ _ => False
  | .dead | .ended => s.1.running = false

theorem knows_start (l : Line) : Knows (l, .starting setupRss) := by
  refine ⟨⟨false, false, false⟩, fun c _ => ⟨nofun, nofun, nofun⟩, ?_⟩
  exact Follows.mono attends_setupRss (fun _ _ h => h) fun _ _ _ => trivial

theorem knows_step (h : Knows s) (hstep : Step cfg s x t) (hs : Sound x s) : Knows t := by
  cases hstep with
  | start hd =>
    obtain ⟨g, hg, -, hk⟩ := h
    exact ⟨_, matches_next hg hd, hk _ (expected hg hd hs rfl)⟩
  | startRaised => exact hs.setup rfl _ rfl
  | enter _ | turn _ =>
    obtain ⟨g, hg, hsettled⟩ := h
    exact ⟨g, hg, attends_rssListener cfg hsettled⟩
  | op hd =>
    obtain ⟨g, hg, -, hk⟩ := h
    exact ⟨_, matches_next hg hd, hk _ (expected hg hd hs rfl)⟩
  | raised =>
    obtain ⟨g, -, hfalse⟩ := h
    exact hfalse.elim
  | @closes l t =>
    cases t with
    | starting p | turning p =>
      obtain ⟨g, hg, hp⟩ := h
      exact ⟨g, matches_closed hg, hp⟩
    | dead | ended => exact h
  | @stops l t =>
    cases t with
    | starting p | turning p =>
      obtain ⟨g, hg, hp⟩ := h
      exact ⟨g, hg, hp⟩
    | dead | ended => rfl
  | ends hstopped => exact hstopped

theorem Knows.toAttentive (h : Knows s) : Attentive s := by
  obtain ⟨l, t⟩ := s
  constructor
  · rintro ⟨k, rfl⟩ c hc hopen
    obtain ⟨g, hg, hallow, -⟩ := h
    obtain ⟨hgone, hsub, -⟩ := hg c hc
    rcases hallow rfl with hg | hg
    · rw [hgone hg] at hopen
      cases hopen
    · exact hsub hg
  · intro hrunning
    constructor
    · rintro rfl
      exact absurd hrunning (by rw [h]; decide)
    · rintro rfl
      exact absurd hrunning (by rw [h]; decide)

/-- In every run whose steps are sound, who listens has subscribed, and somebody listens. -/
theorem reads_attentively {xs : List (Label × (Line × Task))} (hr : Run cfg s xs)
    (hs : ∀ y ∈ xs, Sound y.1 y.2) : Attentive s := by
  have hknows : Knows s := by
    induction hr with
    | start hl => exact knows_start _
    | step _ hstep ih =>
      have hsteps := List.forall_mem_cons.mp hs
      exact knows_step (ih hsteps.2) hstep hsteps.1
  exact hknows.toAttentive

/-- The set-up goes out, and the first turn reads. -/
theorem attentive_reading : ∃ s xs, Run {} s xs ∧ Reads s.2 ∧ Attentive s := by
  have h₀ : Run {} ({ controller := some { isOpen := true } }, .starting setupRss) [] :=
    .start (by rintro c ⟨⟩; exact ⟨rfl, rfl⟩)
  have h₁ := h₀.step (.start .connected)
  have h₂ := h₁.step (.start (.write true))
  have h₃ := h₂.step (.enter rfl)
  have h₄ := h₃.step (.op .connected)
  have h₅ := h₄.step (.op (.other () nofun nofun nofun nofun nofun))
  refine ⟨_, _, h₅, ⟨_, rfl⟩, reads_attentively h₅ ?_⟩
  simp only [List.forall_mem_cons]
  refine ⟨⟨nofun, nofun⟩, ⟨nofun, ?_⟩, ⟨nofun, nofun⟩, ⟨nofun, nofun⟩, ⟨nofun, ?_⟩,
    List.forall_mem_nil _⟩
  · rintro - c ⟨⟩
    rfl
  · rintro - c ⟨⟩
    rfl

/-- The RSS command is refused on a new connection that stays open: the next turn reads from it.
Refused before the loop, it ends the listener. -/
theorem inattentive :
    (∃ s xs, Run {} s xs ∧ s.1.running = true ∧ Reads s.2 ∧
      s.1.controller = some { isOpen := true, subscribed := false, refused := true }) ∧
    ∃ s xs, Run {} s xs ∧ s.1.running = true ∧ s.2 = .dead := by
  constructor
  · have h₀ : Run {} ({ controller := none }, .starting setupRss) [] := .start nofun
    have h₁ := h₀.step (.start .connected)
    have h₂ := h₁.step (.enter rfl)
    have h₃ := h₂.step (.op .connected)
    have h₄ := h₃.step (.op (.other () nofun nofun nofun nofun nofun))
    have h₅ := h₄.step (.op .disconnect)
    have h₆ := h₅.step (.op .connects)
    have h₇ := h₆.step (.op .connected)
    have h₈ := h₇.step (.op .connected)
    have h₉ := h₈.step (.op (.write false))
    have h₁₀ := h₉.step (.op (.other () nofun nofun nofun nofun nofun))
    have h₁₁ := h₁₀.step (.turn rfl)
    have h₁₂ := h₁₁.step (.op .connected)
    have h₁₃ := h₁₂.step (.op (.other () nofun nofun nofun nofun nofun))
    exact ⟨_, _, h₁₃, rfl, ⟨_, rfl⟩, rfl⟩
  · have h₀ : Run {} ({ controller := some { isOpen := true } }, .starting setupRss) [] :=
      .start (by rintro c ⟨⟩; exact ⟨rfl, rfl⟩)
    have h₁ := h₀.step (.start .connected)
    have h₂ := h₁.step (.start (.write false))
    have h₃ := h₂.step .startRaised
    exact ⟨_, _, h₃, rfl, rfl⟩

end Invariant
end ParkIt.GateIn.Subscription
