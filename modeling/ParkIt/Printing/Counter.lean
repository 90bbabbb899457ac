import ParkIt.Printing.Paper

/-! The paper counter of a printer, whoever prints, refills and counts beside whom. -/
namespace ParkIt.Printing

open Effects Sessions Transition

abbrev PaperSession := Session PaperOp PaperOp.Ans PaperExc Unit (Option Nat) SheetPhase

/-- The session has printed a sheet since a refill, and has not recorded it yet. -/
def holdsSheet (refills : Nat) : Option PaperSession → Bool
  | none => false
  | some x => x.own = some refills

/-- No other write comes between what is read of the counter and what is written to it, each sheet
is recorded, and no print starts with an empty counter. -/
def Undisturbed {ι : Type} (s : PaperSys ι) (l : Label ι PaperOp) (t : PaperSys ι) : Prop :=
  match l with
  | .go _ (.job (.write _)) | .go _ (.job (.mockWrite _ _ _)) => 0 < s.shared.row.paperRemaining
  | .go j (.job (.commitPaper _ remaining)) => (t.session j).any (·.own.isNone) = true →
      s.shared.row.paperRemaining =
        remaining + (holdsSheet s.shared.refills (s.session j)).toNat
  | .go j (.job (.countSuccess _)) | .go j (.job (.countFailure _)) =>
      holdsSheet s.shared.refills (s.session j) = false
  | .go _ (.commitDecrement loaded _) => t.shared.printed ≠ s.shared.printed →
      s.shared.row.paperRemaining = loaded.paperRemaining
  | .go _ (.commitRefill loaded object) => t.shared.refills ≠ s.shared.refills →
      0 ≤ object.paperRemaining ∧ (object.paperRemaining = loaded.paperRemaining →
        s.shared.row.paperRemaining = loaded.paperRemaining)
  | .stop j => holdsSheet s.shared.refills (s.session j) = false
  | _ => True

section Counting
variable {ι : Type} [Fintype ι]

/-- The sheets that are printed and not recorded yet. -/
def pending (s : PaperSys ι) : Nat := s.count (holdsSheet s.shared.refills)

/-- The counter shows what the last refill set, less the sheets printed since then that are not
still to be recorded. -/
structure Counted (s : PaperSys ι) : Prop where
  balance : s.shared.row.paperRemaining = s.shared.refilled - s.shared.printed + pending s
  nonneg : 0 ≤ s.shared.row.paperRemaining
  started : ∀ remaining ∈ s.shared.starts, 0 < remaining

structure Sound (settings : PrintSettings) (s : PaperSys ι) : Prop where
  counted : Counted s
  inProtocol : InProtocol (paperCalls settings) s
  past : ∀ j x, s.session j = some x → ∀ n, x.own = some n → n ≤ s.shared.refills
  held : ∀ j x, s.session j = some x → (x.own ≠ none ↔ x.note = .held)

variable {s t : PaperSys ι}

theorem counted_same (h : Counted s) (hsh : t.shared = s.shared)
    (hpending : pending t = pending s) : Counted t := by
  refine ⟨?_, ?_, ?_⟩
  · rw [hsh, hpending]
    exact h.balance
  · rw [hsh]
    exact h.nonneg
  · rw [hsh]
    exact h.started

/-- A sheet more is printed, or a print has failed. -/
theorem counted_print {sheet : Option Nat} {done : Bool} (h : Counted s)
    (hsh : t.shared = (s.shared.print sheet done).1)
    (hpending : pending t = pending s + done.toNat) :
    Counted t ↔ 0 < s.shared.row.paperRemaining := by
  have hstarts : t.shared.starts = s.shared.starts ++ [s.shared.row.paperRemaining] := by
    rw [hsh]
    rfl
  constructor
  · intro ht
    refine ht.started _ ?_
    rw [hstarts]
    exact List.mem_append_right _ (List.mem_singleton_self _)
  · intro hpaper
    refine ⟨?_, ?_, ?_⟩
    · have hbalance := h.balance
      rw [hpending, hsh]
      cases done with
      | false => exact hbalance
      | true =>
        dsimp only [PaperDb.print, Bool.toNat_true]
        rw [if_pos rfl]
        omega
    · rw [hsh]
      exact h.nonneg
    · rw [hstarts]
      intro remaining hmem
      rcases List.mem_append.mp hmem with hmem | hmem
      · exact h.started _ hmem
      · rw [List.mem_singleton.mp hmem]
        exact hpaper

/-- A job writes the counter, and holds no sheet any more. -/
theorem counted_commit {remaining : Int} {held : Bool} (h : Counted s) (hpos : 0 ≤ remaining)
    (hsh : t.shared = { s.shared with row := { s.shared.row with paperRemaining := remaining } })
    (hpending : pending t + held.toNat = pending s) :
    Counted t ↔ s.shared.row.paperRemaining = remaining + held.toNat := by
  have hbalance := h.balance
  constructor
  · intro ht
    have hnew := ht.balance
    rw [hsh] at hnew
    dsimp only at hnew
    omega
  · intro hread
    refine ⟨?_, ?_, ?_⟩
    · rw [hsh]
      dsimp only
      omega
    · rw [hsh]
      exact hpos
    · rw [hsh]
      exact h.started

/-- A sheet is given up. -/
theorem counted_drop {held : Bool} (h : Counted s) (hsh : t.shared = s.shared)
    (hpending : pending t + held.toNat = pending s) : Counted t ↔ held = false := by
  have hbalance := h.balance
  constructor
  · intro ht
    have hnew := ht.balance
    rw [hsh] at hnew
    rw [← Bool.toNat_eq_zero]
    omega
  · rintro rfl
    exact counted_same h hsh hpending

/-- A refill starts the count anew. -/
theorem counted_refill {loaded object : Printer} (h : Counted s)
    (hsh : t.shared = (s.shared.after none (.commitRefill loaded object) ()).1)
    (hpending : pending t = 0) :
    Counted t ↔ 0 ≤ object.paperRemaining ∧ (object.paperRemaining = loaded.paperRemaining →
      s.shared.row.paperRemaining = loaded.paperRemaining) := by
  have hrow : t.shared.row.paperRemaining = if object.paperRemaining = loaded.paperRemaining then
      s.shared.row.paperRemaining else object.paperRemaining := by rw [hsh]; rfl
  have hrefilled : t.shared.refilled = object.paperRemaining := by rw [hsh]; rfl
  have hprinted : t.shared.printed = 0 := by rw [hsh]; rfl
  have hstarted : ∀ remaining ∈ t.shared.starts, 0 < remaining := by
    rw [hsh]
    exact h.started
  constructor
  · intro ht
    have hnew := ht.balance
    have hnonneg := ht.nonneg
    rw [hpending, hrow, hrefilled, hprinted] at hnew
    rw [hrow] at hnonneg
    split at hnew <;> omega
  · rintro ⟨hpos, hread⟩
    refine ⟨?_, ?_, hstarted⟩
    · rw [hpending, hrow, hrefilled, hprinted]
      split <;> omega
    · rw [hrow]
      split <;> omega

/-- A sheet is recorded by hand. -/
theorem counted_decrement {loaded object : Printer} (h : Counted s)
    (hrule : object.paperRemaining = loaded.paperRemaining ∨
      0 < loaded.paperRemaining ∧ object.paperRemaining = loaded.paperRemaining - 1)
    (hsh : t.shared = (s.shared.after none (.commitDecrement loaded object) ()).1)
    (hpending : pending t = pending s) :
    Counted t ↔ (t.shared.printed ≠ s.shared.printed →
      s.shared.row.paperRemaining = loaded.paperRemaining) := by
  have hrow : t.shared.row.paperRemaining = if object.paperRemaining = loaded.paperRemaining then
      s.shared.row.paperRemaining else object.paperRemaining := by rw [hsh]; rfl
  have hrefilled : t.shared.refilled = s.shared.refilled := by rw [hsh]; rfl
  have hprinted : t.shared.printed = if object.paperRemaining = loaded.paperRemaining then
      s.shared.printed else s.shared.printed + 1 := by rw [hsh]; rfl
  have hstarted : ∀ remaining ∈ t.shared.starts, 0 < remaining := by
    rw [hsh]
    exact h.started
  have hbalance := h.balance
  have hnonneg := h.nonneg
  constructor
  · intro ht hne
    have hnew := ht.balance
    rw [hpending, hrow, hrefilled, hprinted] at hnew
    rw [hprinted] at hne
    split at hnew <;> split at hne <;> omega
  · intro hread
    rw [hprinted] at hread
    refine ⟨?_, ?_, hstarted⟩
    · rw [hpending, hrow, hrefilled, hprinted]
      split <;> split at hread <;> omega
    · rw [hrow]
      split <;> omega

end Counting

section Sheets
variable {d d' : PaperDb} {sheet : Option Nat} {o : PaperOp} {a : o.Ans} {phase : SheetPhase}

theorem refills_after : d.refills ≤ (d.after sheet o a).1.refills := by
  unfold PaperDb.after
  split <;> first | exact Nat.le_refl _ | exact Nat.le_succ _

/-- A job comes to hold a sheet by printing it. -/
theorem sheet_after {n : Nat} (h : (d.after sheet o a).2 = some n) :
    sheet = some n ∨ n = d.refills := by
  unfold PaperDb.after PaperDb.print at h
  dsimp only at h
  split at h
  iterate 2
    split at h
    · exact Or.inr (Option.some.inj h).symm
    · exact Or.inl h
  all_goals first | exact Or.inl h | cases h

/-- The phase of a job says whether it holds a sheet. -/
theorem held_after (h : sheet ≠ none ↔ phase = .held) (hallow : paperRules.allow phase o) :
    (d.after sheet o a).2 ≠ none ↔ paperRules.next phase o a = .held := by
  have hprint : ∀ done, phase = .fresh → ((d.print sheet done).2 ≠ none ↔
      (if done then SheetPhase.held else .done) = .held) := by
    rintro done rfl
    have hnone : sheet = none := by
      by_contra hne
      cases h.mp hne
    cases done <;> simp [PaperDb.print, hnone]
  have hnot : (none : Option Nat) ≠ none ↔ SheetPhase.done = .held :=
    iff_of_false (fun h => h rfl) SheetPhase.noConfusion
  cases o with
  | job o =>
    cases o with
    | write data => exact hprint a.isOk hallow
    | mockWrite gateId kind data => exact hprint a.isOk hallow
    | commitPaper id remaining =>
      cases a with
      | ok u => exact hnot
      | error text => exact h
    | countSuccess kind | countFailure kind => exact hnot
    | _ => exact h
  | _ => exact h

/-- The operations of the routes leave the sheets alone. -/
theorem after_route (hroute : ∀ o', o ≠ .job o') :
    d.after sheet o a = ((d.after none o a).1, sheet) := by
  cases o with
  | job o => exact absurd rfl (hroute o)
  | _ => rfl

theorem fails_route (h : d.Fails sheet o d') (hroute : ∀ o', o ≠ .job o') :
    d' = d ∨ ∃ a, d' = (d.after none o a).1 := by
  cases o with
  | job o => exact absurd rfl (hroute o)
  | _ => exact h

theorem fresh_of_route (h : paperRules.allow phase o) (hroute : ∀ o', o ≠ .job o') :
    phase = .fresh := by
  cases o with
  | job o => exact absurd rfl (hroute o)
  | commitDecrement loaded object => exact h.1
  | _ => exact h

end Sheets

section Steps
variable {ι : Type} [Fintype ι] [DecidableEq ι] {settings : PrintSettings} {s t : PaperSys ι}
  {l : Label ι PaperOp} {j : ι} {x y : PaperSession}

theorem holdsSheet_none {refills : Nat} (h : x.own = none) :
    holdsSheet refills (some x) = false := by
  simp [holdsSheet, h]

/-- A step of one session changes the sheets by those of that session. -/
theorem pending_step (hrefills : t.shared.refills = s.shared.refills)
    (hothers : ∀ k, k ≠ j → t.session k = s.session k) :
    pending t + (holdsSheet s.shared.refills (s.session j)).toNat =
      pending s + (holdsSheet s.shared.refills (t.session j)).toNat := by
  rw [pending, pending, hrefills]
  exact count_of_others _ hothers

omit [DecidableEq ι] in
theorem own_of_fresh (hs : Sound settings s) (hx : s.session j = some x) (h : x.note = .fresh) :
    x.own = none := by
  by_contra hne
  cases ((hs.held j x hx).mp hne).symm.trans h

/-- What a job does changes the counter by the sheets that it records. -/
theorem counted_job {o : PrintOp} {a : o.Ans} (hs : Sound settings s) (hx : s.session j = some x)
    (hy : t.session j = some y) (hothers : ∀ k, k ≠ j → t.session k = s.session k)
    (hallow : paperRules.allow x.note (.job o))
    (hafter : (t.shared, y.own) = s.shared.after x.own (.job o) a) :
    Counted t ↔ Undisturbed s (.go j (.job o)) t := by
  have hsh : t.shared = (s.shared.after x.own (.job o) a).1 := congrArg Prod.fst hafter
  have hown : y.own = (s.shared.after x.own (.job o) a).2 := congrArg Prod.snd hafter
  have hprint : ∀ done, x.note = .fresh → (t.shared, y.own) = s.shared.print x.own done →
      (Counted t ↔ 0 < s.shared.row.paperRemaining) := by
    intro done hfresh hafter
    have hsh : t.shared = (s.shared.print x.own done).1 := congrArg Prod.fst hafter
    have hnone : x.own = none := own_of_fresh hs hx hfresh
    have hown : holdsSheet s.shared.refills (some y) = done := by
      have hy : y.own = (s.shared.print x.own done).2 := congrArg Prod.snd hafter
      rw [holdsSheet, hy, hnone]
      cases done <;> simp [PaperDb.print]
    have hpending := pending_step (by rw [hsh]; rfl) hothers
    rw [hx, hy, holdsSheet_none hnone, hown] at hpending
    exact counted_print hs.counted hsh hpending
  have hsame : t.shared = s.shared → y.own = x.own → Counted t := by
    intro hsh hown
    have hpending := pending_step (by rw [hsh]) hothers
    rw [hx, hy, holdsSheet, holdsSheet, hown] at hpending
    exact counted_same hs.counted hsh (Nat.add_right_cancel hpending)
  cases o with
  | write data => exact hprint _ hallow hafter
  | mockWrite gateId kind data => exact hprint _ hallow hafter
  | commitPaper id remaining =>
    cases a with
    | ok u =>
      have hpending := pending_step (by rw [hsh]; rfl) hothers
      rw [hy, holdsSheet_none hown] at hpending
      have hcommit := counted_commit hs.counted hallow.2 hsh hpending
      refine ⟨fun h _ => hcommit.mp h, fun h => hcommit.mpr (h ?_)⟩
      rw [hy, Option.any_some, hown]
      rfl
    | error text =>
      refine iff_of_true (hsame hsh hown) ?_
      intro hnone
      rw [hy, Option.any_some, Option.isNone_iff_eq_none] at hnone
      exact absurd (hown.symm.trans hnone) ((hs.held j x hx).mpr hallow.1)
  | countSuccess kind | countFailure kind =>
    have hpending := pending_step (by rw [hsh]; rfl) hothers
    rw [hy, holdsSheet_none hown] at hpending
    exact counted_drop hs.counted hsh hpending
  | _ => exact iff_of_true (hsame hsh hown) trivial

/-- A route holds no sheet, whether its statement comes back or not. -/
theorem counted_route {o : PaperOp} {a : o.Ans} (hs : Sound settings s) (hx : s.session j = some x)
    (hroute : ∀ o', o ≠ .job o') (hothers : ∀ k, k ≠ j → t.session k = s.session k)
    (hallow : paperRules.allow x.note o) (hsh : t.shared = (s.shared.after none o a).1)
    (hnone : ∀ refills, holdsSheet refills (t.session j) = false) :
    Counted t ↔ Undisturbed s (.go j o) t := by
  have hown : x.own = none := own_of_fresh hs hx (fresh_of_route hallow hroute)
  have hpending : t.shared.refills = s.shared.refills → pending t = pending s := by
    intro hrefills
    have hstep := pending_step hrefills hothers
    rw [hx, hnone, holdsSheet_none hown] at hstep
    exact hstep
  cases o with
  | job o => exact absurd rfl (hroute o)
  | commitRefill loaded object =>
    have hfresh : pending t = 0 := by
      refine count_eq_zero _ fun k => ?_
      rcases hz : t.session k with - | z
      · rfl
      by_cases hk : k = j
      · rw [← hz, hk, hnone]
      · rw [hothers k hk] at hz
        rw [hsh, holdsSheet, decide_eq_false_iff_not]
        intro hown
        exact Nat.not_succ_le_self _ (hs.past k z hz _ hown)
    have hrefill := counted_refill hs.counted hsh hfresh
    have hne : t.shared.refills ≠ s.shared.refills := by
      rw [hsh]
      exact Nat.succ_ne_self _
    exact ⟨fun h _ => hrefill.mp h, fun h => hrefill.mpr (h hne)⟩
  | commitDecrement loaded object =>
    exact counted_decrement hs.counted hallow.2 hsh (hpending (by rw [hsh]; rfl))
  | select id | refresh id | now =>
    exact iff_of_true (counted_same hs.counted hsh (hpending (by rw [hsh]; rfl))) trivial

omit [Fintype ι] [DecidableEq ι] in
/-- A statement of a route that has not taken effect. -/
theorem undisturbed_same {o : PaperOp} (hroute : ∀ o', o ≠ .job o') (hsh : t.shared = s.shared) :
    Undisturbed s (.go j o) t := by
  cases o with
  | job o => exact absurd rfl (hroute o)
  | commitRefill loaded object => exact fun hne => absurd (congrArg PaperDb.refills hsh) hne
  | commitDecrement loaded object => exact fun hne => absurd (congrArg PaperDb.printed hsh) hne
  | select id | refresh id | now => trivial

/-- The counter is right after a step exactly when the step is undisturbed. -/
theorem counted_step_iff (hs : Sound settings s) (h : Step (paperCalls settings) s l t) :
    Counted t ↔ Undisturbed s l t := by
  have hrest : ∀ {u : PaperSys ι} {j : ι} {x : Option PaperSession} {k : ι}, k ≠ j →
      (u.set j x).session k = u.session k := fun hk => Function.update_of_ne hk ..
  cases h with
  | @start j p own note hj hstart =>
    obtain ⟨c, -, hown, -⟩ := hstart
    have hpending := pending_step (s := s) (t := s.set j (some ⟨p, own, note⟩)) rfl
      fun k hk => hrest hk
    rw [session_set_self, hj, holdsSheet_none hown] at hpending
    exact iff_of_true (counted_same hs.counted rfl hpending) trivial
  | @go j o k own note a sh own' hj hact =>
    have hallow : paperRules.allow note o := (hs.inProtocol j _ hj).1
    by_cases hroute : ∀ o', o ≠ .job o'
    · have hafter := hact.2.trans (after_route hroute)
      refine counted_route hs hj hroute (fun k hk => hrest hk) hallow (congrArg Prod.fst hafter) ?_
      intro refills
      rw [session_set_self]
      exact holdsSheet_none ((congrArg Prod.snd hafter).trans
        (own_of_fresh hs hj (fresh_of_route hallow hroute)))
    · obtain ⟨o', rfl⟩ := not_forall_not.mp hroute
      exact counted_job hs hj session_set_self (fun k hk => hrest hk) hallow hact.2
  | @fail j o k own note sh hj hfails =>
    have hallow : paperRules.allow note o := (hs.inProtocol j _ hj).1
    have hroute : ∀ o', o ≠ .job o' := by
      rintro o' rfl
      exact hfails
    set u : PaperSys ι := { s with
      shared := sh
      log := s.log ++ (paperCalls settings).record note o none }
    have hnone : ∀ refills, holdsSheet refills ((u.set j none).session j) = false :=
      fun refills => by rw [session_set_self]; rfl
    rcases fails_route hfails hroute with hsh | ⟨a, hsh⟩
    · have hpending := pending_step (s := s) (t := u.set j none) (congrArg PaperDb.refills hsh)
        fun k hk => hrest hk
      rw [hj, hnone, holdsSheet_none (own_of_fresh hs hj (fresh_of_route hallow hroute))] at hpending
      exact iff_of_true (counted_same hs.counted hsh hpending) (undisturbed_same hroute hsh)
    · exact counted_route hs hj hroute (fun k hk => hrest hk) hallow hsh hnone
  | during _ hduring => exact hduring.elim
  | @stop j x hj =>
    have hpending := pending_step (s := s) (t := s.set j none) rfl fun k hk => hrest hk
    rw [session_set_self] at hpending
    exact counted_drop hs.counted rfl hpending
  | outside hout => exact hout.elim

omit [Fintype ι] in
theorem refills_step (h : Step (paperCalls settings) s l t) :
    s.shared.refills ≤ t.shared.refills := by
  cases h with
  | start _ _ | stop _ => exact Nat.le_refl _
  | go _ hact => exact refills_after.trans_eq (congrArg (·.1.refills) hact.2).symm
  | @fail j o k own note sh hj hfails =>
    have hroute : ∀ o', o ≠ .job o' := by
      rintro o' rfl
      exact hfails
    rcases fails_route hfails hroute with hsh | ⟨a, hsh⟩
    · exact (congrArg PaperDb.refills hsh).ge
    · exact refills_after.trans_eq (congrArg PaperDb.refills hsh).symm
  | during _ hduring => exact hduring.elim
  | outside hout => exact hout.elim

theorem sound_step (hs : Sound settings s) (h : Step (paperCalls settings) s l t)
    (hl : Undisturbed s l t) : Sound settings t := by
  have hrefills := refills_step h
  refine ⟨(counted_step_iff hs h).mpr hl, ?_, ?_, ?_⟩
  · refine inProtocol_step h ?_ (fun _ _ _ _ _ _ _ _ => trivial) hs.inProtocol
    rintro p own note ⟨c, rfl, -, rfl⟩
    exact follows_code settings c
  · intro k y hy n hn
    rcases session_back h hy with hback | ⟨-, -, hstart⟩ | ⟨o, a, x, -, htook⟩
    · exact (hs.past k y hback n hn).trans hrefills
    · obtain ⟨c, -, hown, -⟩ := hstart
      cases hown.symm.trans hn
    · have hown : y.own = (s.shared.after x.own o a).2 := congrArg Prod.snd htook.act.2
      rcases sheet_after (hown.symm.trans hn) with hx | rfl
      · exact (hs.past k x htook.before n hx).trans hrefills
      · exact hrefills
  · intro k y hy
    rcases session_back h hy with hback | ⟨-, -, hstart⟩ | ⟨o, a, x, -, htook⟩
    · exact hs.held k y hback
    · obtain ⟨c, -, hown, hnote⟩ := hstart
      rw [hown, hnote]
      exact iff_of_false (fun h => h rfl) SheetPhase.noConfusion
    · have hown : y.own = (s.shared.after x.own o a).2 := congrArg Prod.snd htook.act.2
      rw [hown, htook.note]
      exact held_after (hs.held k x htook.before) (htook.allow hs.inProtocol)

end Steps

section Runs
variable {ι : Type} [Fintype ι] [DecidableEq ι] {settings : PrintSettings} {s : PaperSys ι}

/-- The printer has just been filled up, and nobody is at work. -/
structure Fresh (s : PaperSys ι) : Prop where
  quiet : s.Quiet
  filled : s.shared = { row := s.shared.row }
  nonneg : 0 ≤ s.shared.row.paperRemaining

omit [DecidableEq ι] in
theorem sound_fresh (h : Fresh s) : Sound settings s := by
  have hpending : pending s = 0 := count_eq_zero _ fun j => by rw [h.quiet.1 j]; rfl
  have hnone : ∀ {j x}, s.session j ≠ some x := fun hj => by simp [h.quiet.1] at hj
  refine ⟨⟨?_, h.nonneg, ?_⟩, h.quiet.inProtocol, fun j x hx => absurd hx hnone, fun j x hx =>
    absurd hx hnone⟩
  · rw [hpending, h.filled]
    dsimp only
    omega
  · rw [h.filled]
    intro _ hmem
    cases hmem

/-- In undisturbed runs the counter is right in every state. -/
theorem counted_of_undisturbed {xs : List (Label ι PaperOp × PaperSys ι)} (hfresh : Fresh s)
    (h : Path (Step (paperCalls settings)) s xs) (hxs : Path Undisturbed s xs) :
    Counted (finish s xs) := by
  have hsound : Sound settings s := sound_fresh hfresh
  exact ((h.and hxs).invariant (fun _ _ _ hstep hs => sound_step hs hstep.1 hstep.2) hsound).counted

end Runs

section Schedules

/-- Everything goes well. -/
def reply (d : PaperDb) : (o : PaperOp) → o.Ans
  | .job (.findPrinter _ none) | .job (.getPrinter _) => .ok (some d.row)
  | .job o => Outcomes.answer {} o
  | .select _ => some d.row
  | .now => 0
  | .commitRefill _ _ | .commitDecrement _ _ => ()
  | .refresh _ => d.row

def performPaper (o : PaperOp) (d : PaperDb) (sheet : Option Nat) :
    Option o.Ans × PaperDb × Option Nat :=
  (some (reply d o), d.after sheet o (reply d o))

def counting : PrintSettings := { printerPaperCounterEnabled := true }

def filledUp : PaperSys Bool := { shared := { row := { id := 1, paperRemaining := 5 } } }

theorem reads_reply (d : PaperDb) (o : PaperOp) : d.Reads o (reply d o) := by
  cases o with
  | job o =>
    cases o with
    | findPrinter gateId gateType =>
      cases gateType with
      | none => exact Or.inl rfl
      | some gateType => trivial
    | getPrinter id => exact Or.inl rfl
    | _ => trivial
  | select id => rfl
  | refresh id => rfl
  | _ => trivial

/-- Two jobs, with their operations in some order. -/
def twoTickets (order : List Bool) : List (Label Bool PaperOp × PaperSys Bool) :=
  takeTurns (paperCalls counting) performPaper filledUp
    (.start true ((PaperCall.print {} networkTicket).code counting) none .fresh ::
      .start false ((PaperCall.print {} networkTicket).code counting) none .fresh ::
      order.map .go)

theorem twoTickets_path (order : List Bool) :
    Path (Step (paperCalls counting)) filledUp (twoTickets order) := by
  refine takeTurns_path ?_ ?_ ?_ ?_
  · intro o d sheet a d' sheet' h
    obtain ⟨ha, hafter⟩ := Prod.mk.inj h
    obtain rfl := Option.some.inj ha
    exact ⟨reads_reply d o, hafter.symm⟩
  · intro o d sheet d' sheet' h
    cases (Prod.mk.inj h).1
  · intro j p own note hmem
    simp only [List.mem_cons, Turn.start.injEq, List.mem_map, reduceCtorEq, and_false, exists_false,
      or_false] at hmem
    rcases hmem with ⟨-, rfl, rfl, rfl⟩ | ⟨-, rfl, rfl, rfl⟩ <;> exact ⟨_, rfl, rfl, rfl⟩
  · intro f hmem
    simp at hmem

instance {ι : Type} (s : PaperSys ι) (l : Label ι PaperOp) (t : PaperSys ι) :
    Decidable (Undisturbed s l t) := by
  unfold Undisturbed
  split <;> infer_instance

theorem filledUp_fresh : Fresh filledUp := ⟨⟨fun _ => rfl, rfl⟩, rfl, by decide⟩

/-- One ticket after the other. -/
def inTurn : List (Label Bool PaperOp × PaperSys Bool) :=
  twoTickets (List.replicate 9 true ++ List.replicate 9 false)

theorem counted_in_turn : (finish filledUp inTurn).shared.row.paperRemaining = 3 ∧
    Counted (finish filledUp inTurn) :=
  ⟨by decide, counted_of_undisturbed filledUp_fresh (twoTickets_path _) (by decide)⟩

/-- Both jobs read the counter before either of them writes it. -/
def sideBySide : List (Label Bool PaperOp × PaperSys Bool) :=
  twoTickets (List.replicate 6 true ++ List.replicate 9 false ++ List.replicate 3 true)

/-- Two tickets take one sheet. -/
theorem sheet_uncounted :
    Path (Step (paperCalls counting)) filledUp sideBySide ∧
      ¬ Counted (finish filledUp sideBySide) := by
  refine ⟨twoTickets_path _, fun h => ?_⟩
  have hbalance := h.balance
  revert hbalance
  decide

end Schedules

end ParkIt.Printing
