import ParkIt.Workers.Service

/-! What every call does to the sessions of a booth, and what that leaves of their table. -/
namespace ParkIt.Workers

open Effects Sessions

section Follows
variable {lib : Libraries} {g : Note}

/-- The operations that say nothing about the sessions. -/
def Quiet : BoothOp → Prop
  | .now | .getGate _ | .getUser _ | .getAssignment _ | .activeShifts | .insertAlert _
  | .refresh _ => True
  | _ => False

theorem quiet_rule {o : BoothOp} (h : Quiet o) :
    boothRules.allow g o ∧ ∀ a, boothRules.next g o a = g := by
  cases o with
  | openSessions _ | getSession _ | update _ _ | insert _ | commit => exact h.elim
  | _ => exact ⟨trivial, fun a => by cases g <;> rfl⟩

theorem only_getWorkerAndVerifyPin (workerId : Id) (pin : String) :
    Only Quiet (fun _ => True) (getWorkerAndVerifyPin lib workerId pin) := by
  refine ⟨trivial, fun worker => ?_⟩
  cases worker with
  | none => exact trivial
  | some worker =>
    change Only _ _ (if ¬ worker.isActive then _ else _)
    split
    · exact trivial
    · split
      · exact trivial
      · split <;> exact trivial

theorem only_getCurrentShift : Only Quiet (fun _ => True) getCurrentShift :=
  ⟨trivial, fun _ => ⟨trivial, fun _ => trivial⟩⟩

theorem only_determineShift (gateId : Id) (shiftAssignmentId : Option Id) :
    Only Quiet (fun _ => True) (determineShift gateId shiftAssignmentId) := by
  cases shiftAssignmentId with
  | some id =>
    refine ⟨trivial, fun assignment => ?_⟩
    cases assignment with
    | none => exact trivial
    | some assignment =>
      change Only _ _ (if assignment.gateId ≠ gateId then _ else _)
      split <;> exact trivial
  | none =>
    refine only_getCurrentShift.bind fun shift => ?_
    cases shift <;> exact trivial

/-- Statements that concern no session may stand anywhere. -/
theorem follows_quiet {α β : Type} {p : Work α} {f : α → Work β}
    (h : Only Quiet (fun _ => True) p)
    (hf : ∀ a, Follows boothRules g (f a) (fun _ _ => True) fun _ _ => True) :
    Follows boothRules g (p >>= f) (fun _ _ => True) fun _ _ => True := by
  refine (h.follows fun o ho => quiet_rule ho).bind (fun _ _ _ => trivial) ?_
  rintro _ a rfl
  exact hf a

theorem follows_ask {β : Type} {o : BoothOp} {f : o.Ans → Work β} {post : Note → β → Prop}
    (h : boothRules.allow g o) (hf : ∀ a, boothRules.expect g o a →
      Follows boothRules (boothRules.next g o a) (f a) post fun _ _ => True) :
    Follows boothRules g (ask o >>= f) post fun _ _ => True := ⟨h, hf⟩

/-- The end of every call that writes. -/
theorem follows_commit {id : Id} :
    Follows boothRules g (do ask .commit; ask (.refresh id)) (fun _ _ => True) fun _ _ => True :=
  follows_ask trivial fun _ _ => ⟨trivial, fun _ _ => trivial⟩

theorem follows_insert {row : WorkerSession} (h : boothRules.allow g (.insert row)) :
    Follows boothRules g (do let id ← ask (.insert row); ask .commit; ask (.refresh id))
      (fun _ _ => True) fun _ _ => True :=
  follows_ask h fun _ _ => follows_commit

theorem follows_getActiveSession {gateId : Id} (hg : g = .begun) :
    Follows boothRules g (getActiveSession gateId)
      (fun g' existing => (∀ r ∈ existing, r.status ∈ [.active, .pendingHandover]) ∧
        (existing = none → g' = .vacant gateId)) fun _ _ => True := by
  subst hg
  unfold getActiveSession
  refine follows_ask rfl fun rows hrows => ?_
  change List WorkerSession at rows
  rcases rows with _ | ⟨r, _ | ⟨_, _⟩⟩
  · exact ⟨fun r hr => absurd hr (Option.not_mem_none r), fun _ => rfl⟩
  · refine ⟨fun q hq => ?_, fun h => absurd h (Option.some_ne_none r)⟩
    cases hq
    exact hrows r List.mem_cons_self
  · exact trivial

theorem follows_checkIn (a : CheckIn) :
    Follows boothRules .begun (checkIn lib a) (fun _ _ => True) fun _ _ => True := by
  refine follows_ask trivial fun gate _ => ?_
  cases gate with
  | none => exact trivial
  | some gate =>
    refine follows_quiet (only_getWorkerAndVerifyPin _ _) fun _ => ?_
    refine (follows_getActiveSession rfl).bind (fun _ _ _ => trivial) ?_
    rintro g existing ⟨hopen, hvacant⟩
    cases existing with
    | some r =>
      have hr := hopen r rfl
      simp only [List.mem_cons, List.not_mem_nil, or_false] at hr
      rcases hr with hr | hr <;> simp only [Option.any_some, hr, decide_true, if_true, reduceCtorEq,
        decide_false, Bool.false_eq_true, if_false] <;> exact trivial
    | none =>
      obtain rfl := hvacant rfl
      refine follows_quiet (only_determineShift _ _) fun shiftId => ?_
      refine follows_ask trivial fun now _ => follows_ask trivial fun today _ => ?_
      split
      · exact trivial
      · exact follows_insert ⟨rfl, Or.inl ⟨rfl, rfl⟩⟩

theorem follows_confirmOutgoing (a : ConfirmOutgoing) :
    Follows boothRules .begun (confirmOutgoing lib a) (fun _ _ => True) fun _ _ => True := by
  refine follows_ask rfl fun session _ => ?_
  cases session with
  | none => exact trivial
  | some session =>
    dsimp only
    split
    · exact trivial
    · rename_i hactive
      refine follows_quiet (only_getWorkerAndVerifyPin _ _) fun _ => ?_
      refine follows_ask trivial fun now _ => follows_ask ⟨session, rfl, rfl, ?_⟩ fun _ _ => ?_
      · exact Or.inl ⟨not_not.mp hactive, rfl⟩
      · exact follows_commit

theorem follows_confirmIncoming (a : ConfirmIncoming) :
    Follows boothRules .begun (confirmIncoming lib a) (fun _ _ => True) fun _ _ => True := by
  refine follows_ask rfl fun pending _ => ?_
  cases pending with
  | none => exact trivial
  | some pending =>
    dsimp only
    split
    · exact trivial
    · rename_i hnot
      have hpending := not_not.mp hnot
      refine follows_quiet (only_getWorkerAndVerifyPin _ _) fun _ => ?_
      refine follows_ask trivial fun now _ => follows_quiet only_getCurrentShift fun activeShift => ?_
      refine follows_ask trivial fun today _ => follows_ask ⟨pending, rfl, rfl, ?_⟩ fun _ _ => ?_
      · exact Or.inr ⟨by rw [hpending]; decide, rfl⟩
      · exact follows_insert ⟨rfl, Or.inr ⟨pending, _, rfl, hpending, rfl, rfl, rfl⟩⟩

theorem follows_forceLeave (a : ForceLeave) :
    Follows boothRules .begun (forceLeave lib a) (fun _ _ => True) fun _ _ => True := by
  refine follows_ask rfl fun session _ => ?_
  cases session with
  | none => exact trivial
  | some session =>
    dsimp only
    split
    · exact trivial
    · rename_i hnot
      have hopen : session.status ≠ .completed := fun h => hnot (by rw [h]; decide)
      refine follows_quiet (only_getWorkerAndVerifyPin _ _) fun _ => ?_
      refine follows_ask trivial fun gate _ => follows_ask trivial fun now _ => ?_
      refine follows_ask ⟨session, rfl, rfl, Or.inr ⟨hopen, rfl⟩⟩ fun _ _ => ?_
      exact follows_ask trivial fun _ _ => follows_commit

/-- Every call keeps to the rules. -/
theorem follows_code (c : Call) :
    Follows boothRules .begun (c.code lib) (fun _ _ => True) fun _ _ => True := by
  cases c with
  | checkIn a => exact follows_checkIn a
  | confirmOutgoing a => exact follows_confirmOutgoing a
  | confirmIncoming a => exact follows_confirmIncoming a
  | forceLeave a => exact follows_forceLeave a

end Follows

def WorkerSession.IsOpen (r : WorkerSession) : Prop := r.status ≠ .completed

/-- The table as a single handover after the other leaves it. -/
structure Kept (rows : List WorkerSession) (nextSession : Id) : Prop where
  ids : (rows.map (·.id)).Nodup
  fresh : ∀ q ∈ rows, q.id < nextSession
  single : ∀ q ∈ rows, ∀ r ∈ rows, q.IsOpen → r.IsOpen → q.gateId = r.gateId → q = r
  chain : ∀ q ∈ rows, ∀ p, q.previousSessionId = some p →
    ∃ r ∈ rows, r.id = p ∧ r.status = .completed
  successor : ∀ q ∈ rows, ∀ r ∈ rows, ∀ p, q.previousSessionId = some p →
    r.previousSessionId = some p → q = r

section Tables
variable {rows : List WorkerSession} {nextSession id : Id} {c : Change} {q r row : WorkerSession}

theorem Kept.eq_of_id (h : Kept rows nextSession) (hq : q ∈ rows) (hr : r ∈ rows)
    (hid : q.id = r.id) : q = r := List.inj_on_of_nodup_map h.ids hq hr hid

def updateRow (id : Id) (c : Change) (r : WorkerSession) : WorkerSession :=
  if r.id = id then c.apply r else r

@[simp] theorem updateRow_id : (updateRow id c r).id = r.id := by
  unfold updateRow
  split <;> rfl

@[simp] theorem updateRow_gateId : (updateRow id c r).gateId = r.gateId := by
  unfold updateRow
  split <;> rfl

@[simp] theorem updateRow_previousSessionId :
    (updateRow id c r).previousSessionId = r.previousSessionId := by
  unfold updateRow
  split <;> rfl

theorem updateRow_status_self (h : r.id = id) : (updateRow id c r).status = c.status := by
  rw [updateRow, if_pos h]
  rfl

theorem updateRow_of_ne (h : r.id ≠ id) : updateRow id c r = r := if_neg h

/-- A change that follows the status of a row opens no row. -/
theorem isOpen_of_updateRow (hfollows : r.id = id → c.Follows r) (h : (updateRow id c r).IsOpen) :
    r.IsOpen := by
  by_cases hid : r.id = id
  · intro hcompleted
    rcases hfollows hid with ⟨hactive, -⟩ | ⟨hne, -⟩
    · exact nomatch hactive.symm.trans hcompleted
    · exact hne hcompleted
  · rwa [updateRow_of_ne hid] at h

theorem Kept.update (h : Kept rows nextSession) (hfollows : ∀ r ∈ rows, r.id = id → c.Follows r) :
    Kept (rows.map (updateRow id c)) nextSession where
  ids := by
    have hids : (rows.map (updateRow id c)).map (·.id) = rows.map (·.id) := by
      rw [List.map_map]
      exact List.map_congr_left fun r _ => updateRow_id
    exact hids ▸ h.ids
  fresh q' hq' := by
    obtain ⟨q, hq, rfl⟩ := List.mem_map.mp hq'
    rw [updateRow_id]
    exact h.fresh q hq
  single q' hq' r' hr' hqopen hropen hgate := by
    obtain ⟨q, hq, rfl⟩ := List.mem_map.mp hq'
    obtain ⟨r, hr, rfl⟩ := List.mem_map.mp hr'
    rw [updateRow_gateId, updateRow_gateId] at hgate
    rw [h.single q hq r hr (isOpen_of_updateRow (hfollows q hq) hqopen)
      (isOpen_of_updateRow (hfollows r hr) hropen) hgate]
  chain q' hq' p hp := by
    obtain ⟨q, hq, rfl⟩ := List.mem_map.mp hq'
    rw [updateRow_previousSessionId] at hp
    obtain ⟨r, hr, hid, hcompleted⟩ := h.chain q hq p hp
    -- a completed row is not the one that is updated
    have hne : r.id ≠ id := by
      intro he
      rcases hfollows r hr he with ⟨hactive, -⟩ | ⟨hne, -⟩
      · exact nomatch hactive.symm.trans hcompleted
      · exact hne hcompleted
    exact ⟨r, List.mem_map.mpr ⟨r, hr, updateRow_of_ne hne⟩, hid, hcompleted⟩
  successor q' hq' r' hr' p hqp hrp := by
    obtain ⟨q, hq, rfl⟩ := List.mem_map.mp hq'
    obtain ⟨r, hr, rfl⟩ := List.mem_map.mp hr'
    rw [updateRow_previousSessionId] at hqp hrp
    rw [h.successor q hq r hr p hqp hrp]

theorem Kept.insert (h : Kept rows nextSession) (hid : row.id < nextSession)
    (hnew : ∀ q ∈ rows, q.id ≠ row.id)
    (hvacant : ∀ q ∈ rows, q.IsOpen → q.gateId ≠ row.gateId)
    (hprevious : ∀ p, row.previousSessionId = some p →
      (∃ r ∈ rows, r.id = p ∧ r.status = .completed) ∧
        ∀ q ∈ rows, q.previousSessionId ≠ some p) :
    Kept (rows ++ [row]) nextSession where
  ids := by
    rw [List.map_append]
    refine List.Nodup.append h.ids (List.nodup_singleton _) ?_
    intro i hi hrow
    obtain ⟨q, hq, rfl⟩ := List.mem_map.mp hi
    exact hnew q hq (List.mem_singleton.mp hrow)
  fresh q hq := by
    rcases List.mem_append.mp hq with hq | hq
    · exact h.fresh q hq
    · rw [List.mem_singleton.mp hq]
      exact hid
  single q hq r hr hqopen hropen hgate := by
    rcases List.mem_append.mp hq with hq | hq <;> rcases List.mem_append.mp hr with hr | hr
    · exact h.single q hq r hr hqopen hropen hgate
    · cases List.mem_singleton.mp hr
      exact absurd hgate (hvacant q hq hqopen)
    · cases List.mem_singleton.mp hq
      exact absurd hgate.symm (hvacant r hr hropen)
    · rw [List.mem_singleton.mp hq, List.mem_singleton.mp hr]
  chain q hq p hp := by
    have hold : ∃ r ∈ rows, r.id = p ∧ r.status = .completed := by
      rcases List.mem_append.mp hq with hq | hq
      · exact h.chain q hq p hp
      · rw [List.mem_singleton.mp hq] at hp
        exact (hprevious p hp).1
    obtain ⟨r, hr, hr'⟩ := hold
    exact ⟨r, List.mem_append_left _ hr, hr'⟩
  successor q hq r hr p hqp hrp := by
    rcases List.mem_append.mp hq with hq | hq <;> rcases List.mem_append.mp hr with hr | hr
    · exact h.successor q hq r hr p hqp hrp
    · cases List.mem_singleton.mp hr
      exact absurd hqp ((hprevious p hrp).2 q hq)
    · cases List.mem_singleton.mp hq
      exact absurd hrp ((hprevious p hqp).2 r hr)
    · rw [List.mem_singleton.mp hq, List.mem_singleton.mp hr]

/-- The handover of one booth: its pending session ends, and the next one begins. -/
theorem Kept.replace (h : Kept rows nextSession) (hr : r ∈ rows) (hpending : r.status = .pendingHandover)
    (hc : c.status = .completed) (hid : row.id < nextSession) (hnew : ∀ q ∈ rows, q.id ≠ row.id)
    (hgate : row.gateId = r.gateId) (hprevious : row.previousSessionId = some r.id) :
    Kept (rows.map (updateRow r.id c) ++ [row]) nextSession := by
  have hopen : r.IsOpen := by
    rw [WorkerSession.IsOpen, hpending]
    decide
  have hfollows : ∀ q ∈ rows, q.id = r.id → c.Follows q := by
    intro q hq he
    rw [h.eq_of_id hq hr he]
    exact Or.inr ⟨hopen, hc⟩
  refine (h.update hfollows).insert hid ?_ ?_ ?_
  · intro q' hq'
    obtain ⟨q, hq, rfl⟩ := List.mem_map.mp hq'
    rw [updateRow_id]
    exact hnew q hq
  · intro q' hq' hqopen hqgate
    obtain ⟨q, hq, rfl⟩ := List.mem_map.mp hq'
    rw [updateRow_gateId, hgate] at hqgate
    obtain rfl := h.single q hq r hr (isOpen_of_updateRow (hfollows q hq) hqopen) hopen hqgate
    exact hqopen ((updateRow_status_self rfl).trans hc)
  · intro p hp
    obtain rfl : r.id = p := Option.some.inj (hprevious.symm.trans hp)
    refine ⟨⟨updateRow r.id c r, List.mem_map_of_mem hr, updateRow_id,
      (updateRow_status_self rfl).trans hc⟩, fun q' hq' hqp => ?_⟩
    -- a session with a successor is completed, and `r` is not
    obtain ⟨q, hq, rfl⟩ := List.mem_map.mp hq'
    rw [updateRow_previousSessionId] at hqp
    obtain ⟨r', hr', he, hcompleted⟩ := h.chain q hq r.id hqp
    rw [h.eq_of_id hr' hr he] at hcompleted
    exact hopen hcompleted

theorem length_le_one_of_eq {α : Type} {l : List α} (hn : l.Nodup)
    (h : ∀ a ∈ l, ∀ b ∈ l, a = b) : l.length ≤ 1 := by
  match l with
  | [] => exact Nat.zero_le _
  | [_] => exact le_refl _
  | a :: b :: l =>
    have hab : a = b := h a List.mem_cons_self b (List.mem_cons_of_mem _ List.mem_cons_self)
    exact absurd hn (by simp [hab])

theorem Kept.nodup (h : Kept rows nextSession) : rows.Nodup := h.ids.of_map

theorem Kept.openAt_length (h : Kept rows nextSession) (gateId : Id) :
    (BoothDb.openAt rows gateId).length ≤ 1 := by
  refine length_le_one_of_eq (h.nodup.filter _) fun q hq r hr => ?_
  simp only [BoothDb.openAt, List.mem_filter, decide_eq_true_eq, List.mem_cons, List.not_mem_nil,
    or_false] at hq hr
  obtain ⟨hq, hqgate, hqopen⟩ := hq
  obtain ⟨hr, hrgate, hropen⟩ := hr
  refine h.single q hq r hr ?_ ?_ (hqgate.trans hrgate.symm)
  · rcases hqopen with he | he <;> rw [WorkerSession.IsOpen, he] <;> decide
  · rcases hropen with he | he <;> rw [WorkerSession.IsOpen, he] <;> decide

theorem Kept.successors_length (h : Kept rows nextSession) (id : Id) :
    (BoothDb.successors rows id).length ≤ 1 := by
  refine length_le_one_of_eq (h.nodup.filter _) fun q hq r hr => ?_
  simp only [BoothDb.successors, List.mem_filter, decide_eq_true_eq] at hq hr
  exact h.successor q hq.1 r hr.1 id hq.2 hr.2

end Tables

namespace Note

/-- The session that the call has loaded. -/
def subject : Note → Option WorkerSession
  | .loaded r | .changed r _ | .replaced r _ _ => some r
  | _ => none

/-- The session that the call has inserted and not committed yet. -/
def inserted : Note → Option WorkerSession
  | .replaced _ _ row | .entered row => some row
  | _ => none

/-- The uncommitted writes of a call are those that it has noted. -/
def Fits (g : Note) (own : Uncommitted) : Prop :=
  match g with
  | .changed r c => c.Follows r ∧ own.writes = [.update r.id c]
  | .replaced r c row => r.status = .pendingHandover ∧ c.status = .completed ∧
      row.gateId = r.gateId ∧ row.previousSessionId = some r.id ∧
      own.writes = [.update r.id c, .insert row]
  | .entered row => row.previousSessionId = none ∧ own.writes = [.insert row]
  | _ => own.writes = []

/-- The table after a commit at this point. -/
def effect (g : Note) (rows : List WorkerSession) : List WorkerSession :=
  match g with
  | .changed r c => rows.map (updateRow r.id c)
  | .replaced r c row => rows.map (updateRow r.id c) ++ [row]
  | .entered row => rows ++ [row]
  | _ => rows

/-- What the call has read is still so. -/
def Current (g : Note) (rows : List WorkerSession) : Prop :=
  match g with
  | .changed r _ | .replaced r _ _ => ∀ q ∈ rows, q.id = r.id → q.status = r.status
  | .entered row => ∀ q ∈ rows, q.gateId = row.gateId → q.status = .completed
  | _ => True

end Note

section Notes
variable {g : Note} {own own' : Uncommitted} {d d' : BoothDb} {rows : List WorkerSession}
  {nextSession : Id} {q r row : WorkerSession}

theorem seen_of_fits (h : g.Fits own) : d.seen own = g.effect d.sessions := by
  cases g with
  | changed r c => rw [BoothDb.seen, h.2]; rfl
  | replaced r c row => rw [BoothDb.seen, h.2.2.2.2]; rfl
  | entered row => rw [BoothDb.seen, h.2]; rfl
  | begun | vacant _ | loaded _ | committed =>
    rw [BoothDb.seen, show own.writes = [] from h]
    rfl

theorem mem_effect (h : q ∈ g.effect rows) :
    (∃ q₀ ∈ rows, q₀.id = q.id) ∨ g.inserted = some q := by
  have hupdate : ∀ {r c}, q ∈ rows.map (updateRow r c) → ∃ q₀ ∈ rows, q₀.id = q.id := by
    intro r c hmem
    obtain ⟨q₀, hq₀, rfl⟩ := List.mem_map.mp hmem
    exact ⟨q₀, hq₀, updateRow_id.symm⟩
  cases g with
  | changed r c => exact Or.inl (hupdate h)
  | replaced r c row =>
    rcases List.mem_append.mp h with h | h
    · exact Or.inl (hupdate h)
    · exact Or.inr (congrArg some (List.mem_singleton.mp h).symm)
  | entered row =>
    rcases List.mem_append.mp h with h | h
    · exact Or.inl ⟨q, h, rfl⟩
    · exact Or.inr (congrArg some (List.mem_singleton.mp h).symm)
  | begun | vacant _ | loaded _ | committed => exact Or.inl ⟨q, h, rfl⟩

/-- No row goes, and none moves to another gate. -/
theorem effect_keeps (h : q ∈ rows) : ∃ q' ∈ g.effect rows, q'.id = q.id ∧ q'.gateId = q.gateId := by
  cases g with
  | changed r c =>
    exact ⟨_, List.mem_map_of_mem h, updateRow_id, updateRow_gateId⟩
  | replaced r c row =>
    exact ⟨_, List.mem_append_left _ (List.mem_map_of_mem h), updateRow_id, updateRow_gateId⟩
  | entered row => exact ⟨q, List.mem_append_left _ h, rfl, rfl⟩
  | begun | vacant _ | loaded _ | committed => exact ⟨q, h, rfl, rfl⟩

theorem kept_effect (h : Kept rows nextSession) (hfits : g.Fits own) (hcurrent : g.Current rows)
    (hsubject : ∀ r, g.subject = some r → ∃ q ∈ rows, q.id = r.id ∧ q.gateId = r.gateId)
    (hinserted : ∀ row, g.inserted = some row →
      row.id < nextSession ∧ ∀ q ∈ rows, q.id ≠ row.id) :
    Kept (g.effect rows) nextSession := by
  cases g with
  | changed r c =>
    refine h.update fun q hq he => ?_
    have hstatus : q.status = r.status := hcurrent q hq he
    simpa [Change.Follows, hstatus] using hfits.1
  | replaced r c row =>
    obtain ⟨hpending, hc, hgate, hprevious, -⟩ := hfits
    obtain ⟨q, hq, hid, hqgate⟩ := hsubject r rfl
    obtain ⟨hlt, hnew⟩ := hinserted row rfl
    rw [Note.effect, ← hid]
    exact h.replace hq ((hcurrent q hq hid).trans hpending) hc hlt hnew (hgate.trans hqgate.symm)
      (by rw [hid]; exact hprevious)
  | entered row =>
    obtain ⟨hlt, hnew⟩ := hinserted row rfl
    refine h.insert hlt hnew (fun q hq hopen hgate => hopen (hcurrent q hq hgate)) fun p hp => ?_
    exact nomatch hfits.1.symm.trans hp
  | begun | vacant _ | loaded _ | committed => exact h

theorem next_openSessions (id : Id) (rows : List WorkerSession) :
    Note.begun.next (.openSessions id) rows = .vacant id ∨
      Note.begun.next (.openSessions id) rows = .begun := by
  cases rows with
  | nil => exact Or.inl rfl
  | cons _ _ => exact Or.inr rfl

theorem next_getSession {id : Id} (r : Option WorkerSession) :
    Note.begun.next (.getSession id) r = (r.map Note.loaded).getD .begun := by
  cases r <;> rfl

theorem fits_next {o : BoothOp} {a : o.Ans} (hallow : boothRules.allow g o)
    (hact : BoothDb.perform o d own = (some a, d', own')) (h : g.Fits own) :
    (g.next o a).Fits own' := by
  cases o with
  | commit =>
    cases hact
    cases g <;> rfl
  | update id c =>
    obtain ⟨r, rfl, rfl, hfollows⟩ := hallow
    cases hact
    refine ⟨hfollows, ?_⟩
    rw [show own.writes = [] from h]
    rfl
  | insert new =>
    obtain ⟨-, ⟨rfl, hnone⟩ | ⟨r, c, rfl, hpending, hc, hgate, hprevious⟩⟩ := hallow
    · cases hact
      refine ⟨hnone, ?_⟩
      rw [show own.writes = [] from h]
      rfl
    · cases hact
      refine ⟨hpending, hc, hgate, hprevious, ?_⟩
      rw [h.2]
      rfl
  | openSessions gateId =>
    cases (show g = .begun from hallow)
    cases hact
    rcases next_openSessions gateId (BoothDb.openAt (d.seen own) gateId) with he | he <;>
      rw [he] <;> exact h
  | getSession id =>
    cases (show g = .begun from hallow)
    cases hact
    rw [next_getSession]
    cases (d.seen own).find? (·.id = id) <;> exact h
  | now | getGate _ | getUser _ | getAssignment _ | activeShifts | insertAlert _ =>
    cases hact
    cases g <;> exact h
  | refresh id =>
    obtain ⟨-, hown⟩ := Prod.mk.inj (Prod.mk.inj hact).2
    subst hown
    cases g <;> exact h

/-- A row that a call has loaded is one that it had loaded before, or the answer of its SELECT. -/
theorem subject_next {o : BoothOp} {a : o.Ans} (hallow : boothRules.allow g o)
    (hact : BoothDb.perform o d own = (some a, d', own')) (hfits : g.Fits own)
    (h : (g.next o a).subject = some r) : g.subject = some r ∨ r ∈ d.sessions := by
  cases o with
  | getSession id =>
    cases (show g = .begun from hallow)
    cases hact
    rw [next_getSession] at h
    rcases hfound : (d.seen own).find? (·.id = id) with _ | q <;> rw [hfound] at h
    · exact nomatch h
    · cases h
      rw [seen_of_fits hfits] at hfound
      exact Or.inr (List.mem_of_find?_eq_some hfound)
  | openSessions gateId =>
    cases (show g = .begun from hallow)
    rcases next_openSessions gateId a with he | he <;> rw [he] at h <;> exact nomatch h
  | update id c =>
    obtain ⟨q, rfl, -, -⟩ := hallow
    exact Or.inl h
  | insert new =>
    obtain ⟨-, ⟨rfl, -⟩ | ⟨q, c, rfl, -⟩⟩ := hallow
    · exact nomatch h
    · exact Or.inl h
  | commit =>
    cases g <;> exact nomatch h
  | now | getGate _ | getUser _ | getAssignment _ | activeShifts | insertAlert _ | refresh _ =>
    cases g <;> exact Or.inl h

/-- A new row has been inserted before, or gets the next number now. -/
theorem inserted_next {o : BoothOp} {a : o.Ans} (hallow : boothRules.allow g o)
    (hact : BoothDb.perform o d own = (some a, d', own')) (h : (g.next o a).inserted = some row) :
    g.inserted = some row ∧ d'.sessions = d.sessions ∧ d'.nextSession = d.nextSession ∨
      row.id = d.nextSession ∧ d'.sessions = d.sessions ∧ d'.nextSession = d.nextSession + 1 := by
  cases o with
  | getSession id =>
    cases (show g = .begun from hallow)
    rw [next_getSession] at h
    cases a <;> exact nomatch h
  | openSessions gateId =>
    cases (show g = .begun from hallow)
    rcases next_openSessions gateId a with he | he <;> rw [he] at h <;> exact nomatch h
  | update id c =>
    obtain ⟨q, rfl, -, -⟩ := hallow
    exact nomatch h
  | insert new =>
    cases hact
    obtain ⟨-, ⟨rfl, -⟩ | ⟨q, c, rfl, -⟩⟩ := hallow <;> cases h <;> exact Or.inr ⟨rfl, rfl, rfl⟩
  | commit =>
    cases g <;> exact nomatch h
  | now | getGate _ | getUser _ | getAssignment _ | activeShifts | insertAlert _ =>
    cases hact
    cases g <;> exact Or.inl ⟨h, rfl, rfl⟩
  | refresh id =>
    obtain ⟨hd, -⟩ := Prod.mk.inj (Prod.mk.inj hact).2
    subst hd
    cases g <;> exact Or.inl ⟨h, rfl, rfl⟩

end Notes

end ParkIt.Workers
