import ParkIt.Bridge.Exits

/-! Which reads of a card are submitted to the API. -/
namespace ParkIt.Bridge

open Effects

/-- A read of a card: when it was read, when its processing starts, and what is answered then. -/
structure Visit where
  card : String
  readAt : Int
  startedAt : Int
  answers : BridgeAnswers

/-- The attributes of the poller, and what is written down of the handling of the card. -/
abbrev Memory := LastCard × BridgeJournal

def Visit.exec (v : Visit) (o : BridgeOp) (m : Memory) : Except IterError o.Ans × Memory :=
  match o with
  | .time => (.ok v.startedAt, (m.1, m.2 ++ [⟨.time, v.startedAt⟩]))
  | .lastCard => (.ok m.1, (m.1, m.2 ++ [⟨.lastCard, m.1⟩]))
  | .setLastCard c => (.ok (), (c, m.2 ++ [⟨.setLastCard c, ()⟩]))
  | o => (.ok (v.answers m.2 o), (m.1, v.answers.record m.2 o))

section Reads
variable (cfg : Poller) (slots : Nat)

/-- The poller after a read, and what is written down of it. -/
def Visit.handled (last : LastCard) (v : Visit) : Memory :=
  ((cfg.handleCard slots v.card).run v.exec (last, [])).2

/-- The reads in their order, with those that are submitted. -/
def submissions : LastCard → List Visit → List (Visit × Bool)
  | _, [] => []
  | last, v :: vs =>
    let m := v.handled cfg slots last
    (v, results m.2 ≠ []) :: submissions m.1 vs

/-- No read of the card has been submitted in the cooldown before the read. -/
def due (past : List (Visit × Bool)) (v : Visit) : Bool :=
  !past.any fun x => x.2 && x.1.card == v.card && v.readAt - x.1.readAt < cfg.dedupeCooldown

/-- A read is submitted if and only if none of its card has been in the cooldown before. -/
def Deduped (xs : List (Visit × Bool)) : Prop :=
  ∀ pre v b post, xs = pre ++ (v, b) :: post → b = due cfg pre v

/-- The last read that is submitted. -/
def lastSubmitted (past : List (Visit × Bool)) : Option Visit :=
  (past.filter Prod.snd).getLast?.map Prod.fst

/-- The read has the card of the last submitted one, and its processing starts within the cooldown
after that of the other. -/
def Close (past : List (Visit × Bool)) (v : Visit) : Prop :=
  ∃ u, lastSubmitted past = some u ∧ u.card = v.card ∧
    v.startedAt - u.startedAt < cfg.dedupeCooldown

/-- After `past`, with the reads in it that ought to have been submitted: a read that ought to be
submitted is not close to the last one of these, and a read that ought not to be is. -/
def Timed : List (Visit × Bool) → List Visit → Prop
  | _, [] => True
  | past, v :: vs =>
    ((due cfg past v = true → ¬ Close cfg past v) ∧ (due cfg past v = false → Close cfg past v)) ∧
      Timed (past ++ [(v, due cfg past v)]) vs

end Reads

/-- Neither the clock nor the last card is looked at, nor is the API. -/
def BridgeOp.Unheeding : BridgeOp → Prop
  | .used | .slot _ | .send _ _ | .discard _ | .openGate => True
  | _ => False

section Handling
variable {cfg : Poller} {slots : Nat} {v : Visit} {last : LastCard} {payload : Payload}

theorem sendFrom_only {used left p : Nat} {stale : List Ws} :
    Only BridgeOp.Unheeding (fun _ => True) (sendFrom payload used left p stale) := by
  induction left generalizing p stale with
  | zero =>
    refine (only_perform trivial).bind fun n => ?_
    split <;> trivial
  | succ left ih =>
    refine (only_perform trivial).bind fun n => ?_
    split
    · trivial
    · refine (only_perform trivial).bind fun c => ?_
      cases c with
      | none => exact ih
      | some ws =>
        refine (only_perform trivial).bind fun sent => ?_
        split <;> exact ih

theorem discardAll_only (stale : List Ws) :
    Only BridgeOp.Unheeding (fun _ => True) (discardAll stale) := by
  induction stale with
  | nil => trivial
  | cons ws rest ih => exact (only_perform trivial).bind fun _ => ih

theorem broadcast_only :
    Only BridgeOp.Unheeding (fun _ => True) (broadcast payload slots) := by
  refine (only_perform trivial).bind fun n => ?_
  split
  · trivial
  · exact sendFrom_only.bind discardAll_only

/-- What neither the last card nor the results depend on. -/
def SameCard (m m' : Memory) : Prop := m'.1 = m.1 ∧ results m'.2 = results m.2

theorem exec_unheeding (o : BridgeOp) (m : Memory) (ho : o.Unheeding) :
    SameCard m (v.exec o m).2 := by
  refine ⟨?_, ?_⟩
  · cases o <;> first | rfl | exact ho.elim
  · cases o <;> first | exact ho.elim | exact (results_append).trans (List.append_nil _)

theorem unheeding_ensures {α : Type} {p : Work α} (h : Only BridgeOp.Unheeding (fun _ => True) p)
    (m : Memory) : Prog.Ensures v.exec p m (fun _ m' => SameCard m m') fun _ m' => SameCard m m' :=
  h.ensures (fun _ => ⟨rfl, rfl⟩) (fun _ _ _ h h' => ⟨h'.1.trans h.1, h'.2.trans h.2⟩)
    (fun o m ho => exec_unheeding o m ho) m

variable (slots) in
/-- A read is submitted, and remembered, unless it repeats the last card. -/
theorem handled_repeated (h : cfg.repeated last v.card v.startedAt = true) :
    (v.handled cfg slots last).1 = last ∧ results (v.handled cfg slots last).2 = [] := by
  have hrun : (cfg.handleCard slots v.card).run v.exec (last, []) =
      (.ok (), (last, [⟨.time, v.startedAt⟩, ⟨.lastCard, last⟩])) := by
    change (ite (cfg.repeated last v.card v.startedAt = true) (pure ()) _ : Work Unit).run v.exec
      (last, [⟨.time, v.startedAt⟩, ⟨.lastCard, last⟩]) = _
    rw [if_pos h]
    rfl
  rw [Visit.handled, hrun]
  exact ⟨rfl, rfl⟩

variable (slots) in
theorem handled_new (h : cfg.repeated last v.card v.startedAt = false) :
    (v.handled cfg slots last).1 = ⟨some v.card, v.startedAt⟩ ∧
      results (v.handled cfg slots last).2 ≠ [] := by
  have hnot : ¬ cfg.repeated last v.card v.startedAt = true := by
    rw [h]
    exact Bool.false_ne_true
  have hrun : Prog.Ensures v.exec (cfg.handleCard slots v.card) (last, [])
      (fun _ m => m.1 = ⟨some v.card, v.startedAt⟩ ∧ results m.2 ≠ [])
      fun _ m => m.1 = ⟨some v.card, v.startedAt⟩ ∧ results m.2 ≠ [] := by
    change Prog.Ensures v.exec (ite (cfg.repeated last v.card v.startedAt = true) (pure ()) _)
      (last, [⟨.time, v.startedAt⟩, ⟨.lastCard, last⟩]) _ _
    rw [if_neg hnot, Prog.ensures_bind]
    change Prog.Ensures v.exec (Prog.perform _ >>= _) (⟨some v.card, v.startedAt⟩, _) _ _
    rw [Prog.ensures_bind]
    change Prog.Ensures v.exec (broadcast _ slots >>= _) (⟨some v.card, v.startedAt⟩, _) _ _
    refine (unheeding_ensures (broadcast_only.bind fun _ => ?_) _).mono
      (fun _ _ h => ⟨h.1, ?_⟩) fun _ _ h => ⟨h.1, ?_⟩
    · split
      · exact (only_perform trivial).bind fun _ => only_pure
      · trivial
    · rw [h.2]
      exact List.cons_ne_nil _ _
    · rw [h.2]
      exact List.cons_ne_nil _ _
  unfold Prog.Ensures at hrun
  unfold Visit.handled
  rcases hresult : (cfg.handleCard slots v.card).run v.exec (last, []) with ⟨e | u, m⟩ <;>
    rw [hresult] at hrun <;> exact hrun

end Handling

section Runs
variable {cfg : Poller} {slots : Nat} {v : Visit} {vs : List Visit} {last : LastCard}
  {past : List (Visit × Bool)}

/-- The poller remembers the last read that was submitted. -/
def Remembers (last : LastCard) (past : List (Visit × Bool)) : Prop :=
  last = (lastSubmitted past).elim {} fun u => ⟨some u.card, u.startedAt⟩

theorem remembers_append {b : Bool} (h : Remembers last past) :
    Remembers (if b then ⟨some v.card, v.startedAt⟩ else last) (past ++ [(v, b)]) := by
  cases b with
  | true => simp [Remembers, lastSubmitted]
  | false => simpa [Remembers, lastSubmitted] using h

theorem repeated_iff (h : Remembers last past) :
    cfg.repeated last v.card v.startedAt = true ↔ Close cfg past v := by
  rw [Close, h]
  cases lastSubmitted past with
  | none => simp [Poller.repeated]
  | some u => simp [Poller.repeated]

variable (cfg slots v last) in
/-- A read is submitted and remembered where it is none of the last card. -/
theorem handled_eq : (v.handled cfg slots last).1 =
      (if !cfg.repeated last v.card v.startedAt then ⟨some v.card, v.startedAt⟩ else last) ∧
    decide (results (v.handled cfg slots last).2 ≠ []) =
      !cfg.repeated last v.card v.startedAt := by
  cases hrep : cfg.repeated last v.card v.startedAt with
  | true =>
    obtain ⟨hlast, hresults⟩ := handled_repeated slots hrep
    exact ⟨hlast, by rw [hresults]; rfl⟩
  | false =>
    obtain ⟨hlast, hresults⟩ := handled_new slots hrep
    exact ⟨hlast, decide_eq_true hresults⟩

/-- The reads are due as they ought to be where the first one is, and the others after it. -/
theorem due_cons {b : Bool} {reads : List (Visit × Bool)} :
    (∀ pre u c post, (v, b) :: reads = pre ++ (u, c) :: post → c = due cfg (past ++ pre) u) ↔
      b = due cfg past v ∧ ∀ pre u c post, reads = pre ++ (u, c) :: post →
        c = due cfg (past ++ [(v, b)] ++ pre) u := by
  constructor
  · intro hall
    refine ⟨by simpa using hall [] v b _ rfl, fun pre u c post heq => ?_⟩
    simpa using hall ((v, b) :: pre) u c post (by rw [heq]; rfl)
  · rintro ⟨hone, hrest⟩ pre u c post heq
    cases pre with
    | nil =>
      cases heq
      simpa using hone
    | cons x pre =>
      obtain ⟨rfl, htail⟩ := List.cons.inj heq
      simpa using hrest pre u c post htail

/-- The reads of a run are submitted as they ought to be where its times are right. -/
theorem submissions_due_iff (h : Remembers last past) :
    (∀ pre v b post, submissions cfg slots last vs = pre ++ (v, b) :: post →
      b = due cfg (past ++ pre) v) ↔ Timed cfg past vs := by
  induction vs generalizing last past with
  | nil =>
    refine ⟨fun _ => trivial, fun _ pre v b post heq => ?_⟩
    cases pre <;> cases heq
  | cons v vs ih =>
    have hhandled := handled_eq cfg slots v last
    have hclose : cfg.repeated last v.card v.startedAt = true ↔ Close cfg past v := repeated_iff h
    generalize cfg.repeated last v.card v.startedAt = b at hhandled hclose
    have hnext : Remembers (v.handled cfg slots last).1 (past ++ [(v, !b)]) := by
      rw [hhandled.1]
      exact remembers_append h
    have hcons : submissions cfg slots last (v :: vs) =
        (v, !b) :: submissions cfg slots (v.handled cfg slots last).1 vs := by
      rw [submissions, hhandled.2]
    have hhere : (!b) = due cfg past v ↔ (due cfg past v = true → ¬ Close cfg past v) ∧
        (due cfg past v = false → Close cfg past v) := by
      rw [← hclose]
      cases b <;> cases due cfg past v <;> simp
    rw [hcons, due_cons, ih hnext, Timed]
    constructor
    · rintro ⟨hone, hrest⟩
      exact ⟨hhere.mp hone, hone ▸ hrest⟩
    · rintro ⟨hone, hrest⟩
      have hone := hhere.mpr hone
      exact ⟨hone, hone ▸ hrest⟩

/-- A read is submitted if and only if none of its card has been in the cooldown before, in exactly
the runs whose times are right. -/
theorem deduped_iff (vs : List Visit) :
    Deduped cfg (submissions cfg slots {} vs) ↔ Timed cfg [] vs := by
  have hstart : Remembers {} [] := rfl
  exact submissions_due_iff hstart

/-- A read that is processed at once. -/
def promptVisit (card : String) (readAt : Int) : Visit where
  card
  readAt
  startedAt := readAt
  answers := steadyBooth

/-- Two cards that are held to the reader in turn, within three seconds. -/
def alternating : List Visit :=
  [promptVisit "0123456789" 0, promptVisit "9876543210" 1000, promptVisit "0123456789" 2000]

theorem alternating_resubmitted :
    (submissions exitPoller 8 {} alternating).map Prod.snd = [true, true, true] ∧
      ¬ Deduped exitPoller (submissions exitPoller 8 {} alternating) := by
  refine ⟨by decide, fun h => ?_⟩
  have hthird := h [(promptVisit "0123456789" 0, true), (promptVisit "9876543210" 1000, true)]
    (promptVisit "0123456789" 2000) true [] rfl
  exact absurd hthird (by decide)

end Runs
end ParkIt.Bridge
