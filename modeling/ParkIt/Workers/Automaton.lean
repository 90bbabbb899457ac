import ParkIt.Workers.Booths

/-! The handover of a booth as an automaton, and the calls of the service one after the other. -/
namespace ParkIt.Workers

open Effects

/-- A booth, and the session that covers it. -/
inductive Booth where
  | uncovered
  | active (session : Id)
  | pending (session : Id)
deriving DecidableEq, Repr

inductive HandoverEvent where
  | checkIn
  | outgoing (session : Id)
  | incoming (session : Id)
  | forceLeave (session : Id)
deriving DecidableEq, Repr

/-- Where an event takes a booth, if it is enabled; `new` is the session that begins with it. -/
def Booth.next (new : Id) : Booth → HandoverEvent → Option Booth
  | .uncovered, .checkIn => some (.active new)
  | .active s, .outgoing s' => if s' = s then some (.pending s) else none
  | .pending s, .incoming s' => if s' = s then some (.active new) else none
  | .active s, .forceLeave s' => if s' = s then some .uncovered else none
  | .pending s, .forceLeave s' => if s' = s then some .uncovered else none
  | _, _ => none

namespace WorkerSession

def booth (r : WorkerSession) : Booth :=
  match r.status with
  | .active => .active r.id
  | .pendingHandover => .pending r.id
  | .completed => .uncovered

/-- The class has no such column. -/
def originalWorkerId (_ : WorkerSession) : Option Id := none

end WorkerSession

def boothAt (rows : List WorkerSession) (gateId : Id) : Booth :=
  ((BoothDb.openAt rows gateId).head?.map WorkerSession.booth).getD .uncovered

namespace Call

def event : Call → HandoverEvent
  | .checkIn _ => .checkIn
  | .confirmOutgoing a => .outgoing a.sessionId
  | .confirmIncoming a => .incoming a.pendingSessionId
  | .forceLeave a => .forceLeave a.sessionId

/-- The session that is named. -/
def session : Call → Option Id
  | .checkIn _ => none
  | .confirmOutgoing a => some a.sessionId
  | .confirmIncoming a => some a.pendingSessionId
  | .forceLeave a => some a.sessionId

end Call

/-- A statement of a call that nobody disturbs; only the refresh of a row that is gone raises. -/
def execBooth (o : BoothOp) (s : BoothDb × Uncommitted) :
    Except BoothExc o.Ans × (BoothDb × Uncommitted) :=
  match BoothDb.perform o s.1 s.2 with
  | (some a, d, own) => (.ok a, (d, own))
  | (none, d, own) => (.error .valueError, (d, own))

section Calls
variable (lib : Libraries) (d : BoothDb)

/-- What a call answers, and what it leaves of the database once its transaction is over. -/
def serve (c : Call) : Except BoothExc WorkerSession × BoothDb :=
  let r := (c.code lib).run execBooth (d, {})
  (r.1, r.2.1)

/-- An active worker, and the PIN of that worker. -/
def PinRight (workerId : Id) (pin : String) : Prop :=
  ∃ w hash, d.users.find? (·.id = workerId) = some w ∧ w.isActive = true ∧
    w.workerPin.filter (· ≠ "") = some hash ∧ lib.checkpw pin hash = some true

/-- The assignment that is named is one of the gate, or there is a shift. -/
def ShiftResolved (gateId : Id) : Option Id → Prop
  | some id => ∃ a, d.assignments.find? (·.id = id) = some a ∧ a.gateId = gateId
  | none => d.shifts.filter (·.isActive) ≠ []

/-- A call about a gate that exists, by an active worker with the right PIN, with a shift. -/
def Valid : Call → Id → Prop
  | .checkIn a, g => g = a.gateId ∧ (∃ gate, d.gates.find? (·.id = g) = some gate) ∧
      PinRight lib d a.workerId a.pin ∧ ShiftResolved d g a.shiftAssignmentId
  | .confirmOutgoing a, g => ∃ s, d.sessions.find? (·.id = a.sessionId) = some s ∧
      s.gateId = g ∧ PinRight lib d s.workerId a.pin
  | .confirmIncoming a, g => ∃ s, d.sessions.find? (·.id = a.pendingSessionId) = some s ∧
      s.gateId = g ∧ PinRight lib d a.workerId a.pin
  | .forceLeave a, g => ∃ s, d.sessions.find? (·.id = a.sessionId) = some s ∧
      s.gateId = g ∧ PinRight lib d s.workerId a.pin

/-- The row of a session that begins, with the substitute data of its call. -/
structure Begins (g workerId : Id) (previous : Option Id) (isSubstitute : Bool)
    (original : Option Id) (r : WorkerSession) : Prop where
  id : r.id = d.nextSession
  gate : r.gateId = g
  worker : r.workerId = workerId
  status : r.status = .active
  previous : r.previousSessionId = previous
  substitute : r.isSubstitute = isSubstitute
  original : r.originalWorkerId = if isSubstitute then original else none

/-- The row that a call answers with. -/
def Answers (g : Id) : Call → WorkerSession → Prop
  | .checkIn a, r => Begins d g a.workerId none a.isSubstitute a.originalWorkerId r
  | .confirmOutgoing a, r => r.id = a.sessionId ∧ r.status = .pendingHandover ∧
      r.endType = some a.endType ∧ r.endReason = a.endReason
  | .confirmIncoming a, r =>
      Begins d g a.workerId (some a.pendingSessionId) a.isSubstitute a.originalWorkerId r
  | .forceLeave a, r => r.id = a.sessionId ∧ r.status = .completed ∧
      r.endType = some "FORCE_LEAVE" ∧ r.endReason = some a.reason

/-- The call does what the automaton of its booth does. -/
structure Refines (c : Call) (g : Id) : Prop where
  enabled : ∀ b, (boothAt d.sessions g).next d.nextSession c.event = some b →
    ∃ r ∈ (serve lib d c).2.sessions, (serve lib d c).1 = .ok r ∧ Answers d g c r ∧
      boothAt (serve lib d c).2.sessions g = b ∧
      (∀ g', g' ≠ g → boothAt (serve lib d c).2.sessions g' = boothAt d.sessions g') ∧
      ∀ q ∈ d.sessions, c.session ≠ some q.id → q ∈ (serve lib d c).2.sessions
  refused : (boothAt d.sessions g).next d.nextSession c.event = none →
    (∃ e, (serve lib d c).1 = .error e) ∧ (serve lib d c).2 = d

/-- The booth is covered; or the call names a session, and if it is to begin another one by way of
a handover, it names no worker who is substituted. -/
def Works : Call → Prop
  | .checkIn a => boothAt d.sessions a.gateId ≠ .uncovered
  | .confirmIncoming a => a.isSubstitute = true → a.originalWorkerId ≠ none →
      ∀ r ∈ d.sessions, r.id = a.pendingSessionId → r.status ≠ .pendingHandover
  | _ => True

end Calls

/-- What calls, one after the other, make of a table in which the booths are in order; the other
tables are changed by others. -/
inductive Reached (lib : Libraries) : BoothDb → Prop
  | start {d} : Kept d.sessions d.nextSession → Reached lib d
  | call {d} (c : Call) : Reached lib d → Reached lib (serve lib d c).2
  | others {d d'} : Reached lib d → d'.sessions = d.sessions → d'.nextSession = d.nextSession →
      Reached lib d'

section Booths
variable {rows : List WorkerSession} {nextSession n g : Id} {r s q : WorkerSession} {c : Change}

theorem mem_openAt : r ∈ BoothDb.openAt rows g ↔ r ∈ rows ∧ r.gateId = g ∧ r.IsOpen := by
  have hopen : r.status ∈ [SessionStatus.active, .pendingHandover] ↔ r.IsOpen := by
    unfold WorkerSession.IsOpen
    cases r.status <;> decide
  simp only [BoothDb.openAt, List.mem_filter, decide_eq_true_eq, hopen]

theorem Kept.openAt_eq (h : Kept rows nextSession) (hr : r ∈ rows) (hopen : r.IsOpen) :
    BoothDb.openAt rows r.gateId = [r] := by
  have hmem : r ∈ BoothDb.openAt rows r.gateId := mem_openAt.mpr ⟨hr, rfl, hopen⟩
  have hlength := h.openAt_length r.gateId
  match hlist : BoothDb.openAt rows r.gateId with
  | [] => rw [hlist] at hmem; cases hmem
  | [q] =>
    rw [hlist] at hmem
    rw [List.mem_singleton.mp hmem]
  | _ :: _ :: _ =>
    rw [hlist] at hlength
    simp at hlength

theorem Kept.boothAt_eq (h : Kept rows nextSession) (hr : r ∈ rows) (hopen : r.IsOpen) :
    boothAt rows r.gateId = r.booth := by
  rw [boothAt, h.openAt_eq hr hopen]
  rfl

theorem boothAt_uncovered (h : ∀ r ∈ rows, r.gateId = g → ¬ r.IsOpen) :
    boothAt rows g = .uncovered := by
  have hnil : BoothDb.openAt rows g = [] := by
    refine List.eq_nil_iff_forall_not_mem.mpr fun r hr => ?_
    obtain ⟨hmem, hgate, hopen⟩ := mem_openAt.mp hr
    exact h r hmem hgate hopen
  rw [boothAt, hnil]
  rfl

/-- A booth is uncovered, or one open session covers it. -/
theorem Kept.boothAt_cases (h : Kept rows nextSession) (g : Id) :
    (BoothDb.openAt rows g = [] ∧ boothAt rows g = .uncovered) ∨
      ∃ r ∈ rows, r.gateId = g ∧ r.IsOpen ∧ BoothDb.openAt rows g = [r] ∧
        boothAt rows g = r.booth := by
  cases hlist : BoothDb.openAt rows g with
  | nil => exact .inl ⟨rfl, by rw [boothAt, hlist]; rfl⟩
  | cons r rest =>
    obtain ⟨hr, rfl, hopen⟩ :=
      mem_openAt.mp (hlist ▸ List.mem_cons_self : r ∈ BoothDb.openAt rows g)
    refine .inr ⟨r, hr, rfl, hopen, ?_, h.boothAt_eq hr hopen⟩
    rw [← hlist]
    exact h.openAt_eq hr hopen

/-- Whether what names a session is enabled is up to the status of that session. -/
theorem Kept.next_named (h : Kept rows nextSession) (hs : s ∈ rows) :
    (boothAt rows s.gateId).next n (.outgoing s.id) =
      (if s.status = .active then some (.pending s.id) else none) ∧
    (boothAt rows s.gateId).next n (.incoming s.id) =
      (if s.status = .pendingHandover then some (.active n) else none) ∧
    (boothAt rows s.gateId).next n (.forceLeave s.id) =
      (if s.status = .completed then none else some .uncovered) := by
  by_cases hopen : s.IsOpen
  · rw [h.boothAt_eq hs hopen, WorkerSession.booth]
    unfold WorkerSession.IsOpen at hopen
    cases hstatus : s.status with
    | active => simp [Booth.next]
    | pendingHandover => simp [Booth.next]
    | completed => exact absurd hstatus hopen
  · have hover : s.status = .completed := not_not.mp hopen
    rcases h.boothAt_cases s.gateId with ⟨-, huncovered⟩ | ⟨r, hr, -, hropen, -, hbooth⟩
    · simp [huncovered, hover, Booth.next]
    · -- the session that covers the booth is another one
      have hne : s.id ≠ r.id := fun he => hopen (h.eq_of_id hs hr he ▸ hropen)
      rw [hbooth, WorkerSession.booth, hover]
      unfold WorkerSession.IsOpen at hropen
      cases hstatus : r.status with
      | active => simp [Booth.next, hne]
      | pendingHandover => simp [Booth.next, hne]
      | completed => exact absurd hstatus hropen

/-- The other booths do not notice a change of a session. -/
theorem Kept.boothAt_update (h : Kept rows nextSession) (hs : s ∈ rows) (hg : g ≠ s.gateId) :
    boothAt (rows.map (updateRow s.id c)) g = boothAt rows g := by
  have hsame : ∀ q ∈ rows, q.gateId = g → updateRow s.id c q = q := by
    intro q hq hgate
    refine updateRow_of_ne fun he => hg ?_
    rw [← hgate, h.eq_of_id hq hs he]
  have hopen : BoothDb.openAt (rows.map (updateRow s.id c)) g = BoothDb.openAt rows g := by
    unfold BoothDb.openAt
    rw [List.filter_map]
    have hfilter : rows.filter ((fun r : WorkerSession => decide (r.gateId = g ∧
        r.status ∈ [SessionStatus.active, .pendingHandover])) ∘ updateRow s.id c) =
        rows.filter fun r =>
          r.gateId = g ∧ r.status ∈ [SessionStatus.active, .pendingHandover] := by
      refine List.filter_congr fun q hq => ?_
      by_cases hgate : q.gateId = g
      · rw [Function.comp_apply, hsame q hq hgate]
      · simp [hgate]
    rw [hfilter]
    refine (List.map_congr_left fun q hq => ?_).trans (List.map_id _)
    obtain ⟨hq, hp⟩ := List.mem_filter.mp hq
    exact hsame q hq (of_decide_eq_true hp).1
  rw [boothAt, hopen, boothAt]

theorem boothAt_append (hg : g ≠ r.gateId) : boothAt (rows ++ [r]) g = boothAt rows g := by
  have hopen : BoothDb.openAt (rows ++ [r]) g = BoothDb.openAt rows g := by
    simp [BoothDb.openAt, List.filter_append, hg.symm]
  rw [boothAt, hopen, boothAt]

theorem Kept.find_id (h : Kept rows nextSession) (hr : r ∈ rows) :
    rows.find? (·.id = r.id) = some r := by
  cases hfind : rows.find? (·.id = r.id) with
  | none => exact absurd (decide_eq_true rfl) (List.find?_eq_none.mp hfind r hr)
  | some q =>
    have hid : q.id = r.id := by simpa using List.find?_some hfind
    rw [h.eq_of_id (List.mem_of_find?_eq_some hfind) hr hid]

/-- The row that is changed, under its id. -/
theorem find_update (h : Kept rows nextSession) (hs : s ∈ rows) (hc : c.Follows s) :
    (rows.map (updateRow s.id c)).find? (·.id = s.id) = some (c.apply s) := by
  have hkept : Kept (rows.map (updateRow s.id c)) nextSession := by
    refine h.update fun r hr he => ?_
    rw [h.eq_of_id hr hs he]
    exact hc
  have hrow : c.apply s ∈ rows.map (updateRow s.id c) := by
    refine List.mem_map.mpr ⟨s, hs, ?_⟩
    rw [updateRow, if_pos rfl]
  exact hkept.find_id hrow

theorem changed_join {α : Type} [DecidableEq α] {old : Option α} {new : α} :
    ((changed old (some new)).join).or old = some new := by
  unfold changed
  split
  · rename_i h
    exact h.symm
  · rfl

theorem changed_getD {α : Type} [DecidableEq α] {old new : α} :
    (changed old new).getD old = new := by
  unfold changed
  split
  · rename_i h
    exact h.symm
  · rfl

end Booths

section Runs
variable {lib : Libraries} {d d' : BoothDb} {own own' : Uncommitted} {α : Type}

theorem run_ask {o : BoothOp} {a : o.Ans} {f : o.Ans → Work α}
    (h : BoothDb.perform o d own = (some a, d', own')) :
    (ask o >>= f).run execBooth (d, own) = (f a).run execBooth (d', own') := by
  refine Prog.run_bind_ok execBooth f ?_
  rw [ask, Prog.run_perform, execBooth, h]

variable (own) in
theorem run_pin {workerId : Id} {pin : String} (h : PinRight lib d workerId pin) :
    ∃ w, ∀ f : Worker → Work α,
      (getWorkerAndVerifyPin lib workerId pin >>= f).run execBooth (d, own) =
        (f w).run execBooth (d, own) := by
  obtain ⟨w, hash, huser, hactive, hhash, hpin⟩ := h
  refine ⟨w, fun f => Prog.run_bind_ok execBooth f ?_⟩
  have hget : BoothDb.perform (.getUser workerId) d own = (some (some w), d, own) := by
    rw [← huser]
    rfl
  rw [getWorkerAndVerifyPin, run_ask hget]
  simp only [hactive, not_true_eq_false, if_false, hhash, hpin]
  rfl

variable (lib d own) in
/-- The PIN is right, or the call ends with an exception. -/
theorem pin_cases (workerId : Id) (pin : String) : PinRight lib d workerId pin ∨
    ∃ e, (getWorkerAndVerifyPin lib workerId pin).run execBooth (d, own) =
      (.error e, (d, own)) := by
  have hget : ∀ {u}, d.users.find? (·.id = workerId) = u →
      BoothDb.perform (.getUser workerId) d own = (some u, d, own) := by
    rintro u rfl
    rfl
  cases hu : d.users.find? (·.id = workerId) with
  | none =>
    refine .inr ⟨.http 404 "Worker not found", ?_⟩
    rw [getWorkerAndVerifyPin, run_ask (hget hu)]
    rfl
  | some w =>
    by_cases hactive : w.isActive = true
    · cases hhash : w.workerPin.filter (· ≠ "") with
      | none =>
        refine .inr ⟨.http 400 "Worker has no PIN set — contact admin", ?_⟩
        rw [getWorkerAndVerifyPin, run_ask (hget hu)]
        simp only [hactive, not_true_eq_false, if_false, hhash]
        rfl
      | some hash =>
        cases hpin : lib.checkpw pin hash with
        | none =>
          refine .inr ⟨.valueError, ?_⟩
          rw [getWorkerAndVerifyPin, run_ask (hget hu)]
          simp only [hactive, not_true_eq_false, if_false, hhash, hpin]
          rfl
        | some right =>
          cases right with
          | true => exact .inl ⟨w, hash, hu, hactive, hhash, hpin⟩
          | false =>
            refine .inr ⟨.http 401 "Invalid PIN", ?_⟩
            rw [getWorkerAndVerifyPin, run_ask (hget hu)]
            simp only [hactive, not_true_eq_false, if_false, hhash, hpin]
            rfl
    · refine .inr ⟨.http 404 "Worker not found", ?_⟩
      rw [getWorkerAndVerifyPin, run_ask (hget hu)]
      simp only [hactive, Bool.false_eq_true, not_false_eq_true, if_true]
      rfl

variable (d own) in
theorem run_currentShift : ∃ shift, ∀ f : Option Shift → Work α,
    (getCurrentShift >>= f).run execBooth (d, own) = (f shift).run execBooth (d, own) :=
  ⟨_, fun f => Prog.run_bind_ok execBooth f rfl⟩

theorem run_getSession {id : Id} {s : WorkerSession} {f : Option WorkerSession → Work α}
    (h : d.sessions.find? (·.id = id) = some s) :
    (ask (.getSession id) >>= f).run execBooth (d, {}) = (f (some s)).run execBooth (d, {}) := by
  refine run_ask ?_
  rw [← h]
  rfl

/-- The end of a call whose row is in the table. -/
theorem run_commit {id : Id} {r : WorkerSession} (h : (d.seen own).find? (·.id = id) = some r) :
    (do ask .commit; ask (.refresh id)).run execBooth (d, own) =
      (.ok r, (d.committed own, {})) := by
  have hcommit : BoothDb.perform .commit d own = (some (), d.committed own, {}) := rfl
  rw [run_ask hcommit, ask, Prog.run_perform, execBooth]
  have hrefresh : BoothDb.perform (.refresh id) (d.committed own) {} =
      (some r, d.committed own, {}) := by
    rw [← h]
    rfl
  rw [hrefresh]

/-- The call is refused, and nothing has changed. -/
def Refused (lib : Libraries) (d : BoothDb) (c : Call) : Prop :=
  ∃ e, serve lib d c = (.error e, d)

theorem refused_run {c : Call} {e : BoothExc}
    (h : (c.code lib).run execBooth (d, {}) = (.error e, (d, {}))) : Refused lib d c := by
  refine ⟨e, ?_⟩
  rw [serve, h]

theorem run_noSession {id : Id} {f : Option WorkerSession → Work α}
    (h : d.sessions.find? (·.id = id) = none) :
    (ask (.getSession id) >>= f).run execBooth (d, {}) = (f none).run execBooth (d, {}) := by
  refine run_ask ?_
  rw [← h]
  rfl

/-- The checks that the calls about a session have in common: the session, its status, the PIN. -/
theorem verified_cases {c : Call} {id : Id} (P : WorkerSession → Prop)
    (workerId : WorkerSession → Id) (pin : String)
    (hmissing : d.sessions.find? (·.id = id) = none → Refused lib d c)
    (hstatus : ∀ s, d.sessions.find? (·.id = id) = some s → ¬ P s → Refused lib d c)
    (hpin : ∀ s, d.sessions.find? (·.id = id) = some s → P s → ∀ e,
      (getWorkerAndVerifyPin lib (workerId s) pin).run execBooth (d, {}) = (.error e, (d, {})) →
      Refused lib d c) :
    Refused lib d c ∨ ∃ s, d.sessions.find? (·.id = id) = some s ∧ P s ∧
      PinRight lib d (workerId s) pin := by
  cases hs : d.sessions.find? (·.id = id) with
  | none => exact .inl (hmissing hs)
  | some s =>
    by_cases hP : P s
    · rcases pin_cases lib d {} (workerId s) pin with hright | ⟨e, hwrong⟩
      · exact .inr ⟨s, rfl, hP, hright⟩
      · exact .inl (hpin s hs hP e hwrong)
    · exact .inl (hstatus s hs hP)

section Outgoing
variable {a : ConfirmOutgoing} {s : WorkerSession}

theorem refused_outgoing (hs : d.sessions.find? (·.id = a.sessionId) = some s)
    (hstatus : s.status ≠ .active) : Refused lib d (.confirmOutgoing a) := by
  refine refused_run (e := .http 409 s!"Session is {s.status.value}, must be ACTIVE") ?_
  rw [Call.code, confirmOutgoing, run_getSession hs]
  simp only [ne_eq, hstatus, not_false_eq_true, if_true]
  rfl

variable (lib d a) in
theorem outgoing_cases : Refused lib d (.confirmOutgoing a) ∨ ∃ s,
    d.sessions.find? (·.id = a.sessionId) = some s ∧ s.status = .active ∧
      PinRight lib d s.workerId a.pin := by
  refine verified_cases (·.status = .active) (fun s => s.workerId) a.pin (fun hs => ?_)
    (fun s hs hstatus => refused_outgoing hs hstatus) fun s hs hstatus e hpin => ?_
  · refine refused_run (e := .http 404 "Session not found") ?_
    rw [Call.code, confirmOutgoing, run_noSession hs]
    rfl
  · refine refused_run (e := e) ?_
    rw [Call.code, confirmOutgoing, run_getSession hs]
    simp only [ne_eq, hstatus, not_true_eq_false, if_false]
    exact Prog.run_bind_error execBooth _ hpin

theorem serve_outgoing (hs : d.sessions.find? (·.id = a.sessionId) = some s)
    (hstatus : s.status = .active) (hpin : PinRight lib d s.workerId a.pin)
    (hk : Kept d.sessions d.nextSession) :
    ∃ c : Change, c.status = .pendingHandover ∧ (c.apply s).endType = some a.endType ∧
      (c.apply s).endReason = a.endReason ∧ serve lib d (.confirmOutgoing a) =
        (.ok (c.apply s), d.committed { writes := [.update s.id c] }) := by
  obtain ⟨w, hw⟩ := run_pin (α := WorkerSession) {} hpin
  have hmem := List.mem_of_find?_eq_some hs
  refine ⟨{ status := .pendingHandover, outgoingConfirmedAt := some d.now,
            endType := (changed s.endType (some a.endType)).join,
            endReason := changed s.endReason a.endReason }, rfl, changed_join, changed_getD, ?_⟩
  unfold serve
  rw [Call.code, confirmOutgoing, run_getSession hs]
  simp only [ne_eq, hstatus, not_true_eq_false, if_false]
  rw [hw, run_ask rfl, run_ask rfl, run_commit]
  · rfl
  · exact find_update hk hmem (.inl ⟨hstatus, rfl⟩)

end Outgoing
section Leave
variable {a : ForceLeave} {s : WorkerSession}

theorem refused_leave (hs : d.sessions.find? (·.id = a.sessionId) = some s)
    (hstatus : s.status = .completed) : Refused lib d (.forceLeave a) := by
  refine refused_run (e := .http 409 s!"Session is {s.status.value}, cannot force-leave") ?_
  rw [Call.code, forceLeave, run_getSession hs]
  simp only [hstatus, ne_eq, reduceCtorEq, not_false_eq_true, and_self, if_true]
  rfl

theorem not_over (hstatus : s.status ≠ .completed) :
    ¬ (s.status ≠ .active ∧ s.status ≠ .pendingHandover) := by
  rintro ⟨hactive, hpending⟩
  cases hs : s.status with
  | active => exact hactive hs
  | pendingHandover => exact hpending hs
  | completed => exact hstatus hs

variable (lib d a) in
theorem leave_cases : Refused lib d (.forceLeave a) ∨ ∃ s,
    d.sessions.find? (·.id = a.sessionId) = some s ∧ s.status ≠ .completed ∧
      PinRight lib d s.workerId a.pin := by
  refine verified_cases (·.status ≠ .completed) (fun s => s.workerId) a.pin (fun hs => ?_)
    (fun s hs hstatus => refused_leave hs (not_not.mp hstatus)) fun s hs hstatus e hpin => ?_
  · refine refused_run (e := .http 404 "Session not found") ?_
    rw [Call.code, forceLeave, run_noSession hs]
    rfl
  · refine refused_run (e := e) ?_
    rw [Call.code, forceLeave, run_getSession hs]
    simp only [not_over hstatus, if_false]
    exact Prog.run_bind_error execBooth _ hpin

theorem serve_leave (hs : d.sessions.find? (·.id = a.sessionId) = some s)
    (hstatus : s.status ≠ .completed) (hpin : PinRight lib d s.workerId a.pin)
    (hk : Kept d.sessions d.nextSession) :
    ∃ (c : Change) (alerts : List OperatorAlert), c.status = .completed ∧
      (c.apply s).endType = some "FORCE_LEAVE" ∧ (c.apply s).endReason = some a.reason ∧
      serve lib d (.forceLeave a) =
        (.ok (c.apply s), d.committed { writes := [.update s.id c], alerts }) := by
  obtain ⟨w, hw⟩ := run_pin (α := WorkerSession) {} hpin
  have hmem := List.mem_of_find?_eq_some hs
  refine ⟨{ status := .completed, endedAt := some d.now,
            endType := (changed s.endType (some "FORCE_LEAVE")).join,
            endReason := changed s.endReason (some a.reason) },
    [workerUncovered s (((d.gates.find? (·.id = s.gateId)).map (·.direction.toLower)).getD "out")
      a.reason], rfl, changed_join, changed_getD, ?_⟩
  unfold serve
  rw [Call.code, forceLeave, run_getSession hs]
  simp only [not_over hstatus, if_false]
  rw [hw, run_ask rfl, run_ask rfl, run_ask rfl, run_ask rfl, run_commit]
  · rfl
  · exact find_update hk hmem (.inr ⟨hstatus, rfl⟩)

end Leave

section Incoming
variable {a : ConfirmIncoming} {s : WorkerSession}

theorem refused_incoming (hs : d.sessions.find? (·.id = a.pendingSessionId) = some s)
    (hstatus : s.status ≠ .pendingHandover) : Refused lib d (.confirmIncoming a) := by
  refine refused_run (e := .http 409 s!"Session is {s.status.value}, must be PENDING_HANDOVER") ?_
  rw [Call.code, confirmIncoming, run_getSession hs]
  simp only [ne_eq, hstatus, not_false_eq_true, if_true]
  rfl

variable (lib d a) in
theorem incoming_cases : Refused lib d (.confirmIncoming a) ∨ ∃ s,
    d.sessions.find? (·.id = a.pendingSessionId) = some s ∧ s.status = .pendingHandover ∧
      PinRight lib d a.workerId a.pin := by
  refine verified_cases (·.status = .pendingHandover) (fun _ => a.workerId) a.pin (fun hs => ?_)
    (fun s hs hstatus => refused_incoming hs hstatus) fun s hs hstatus e hpin => ?_
  · refine refused_run (e := .http 404 "Session not found") ?_
    rw [Call.code, confirmIncoming, run_noSession hs]
    rfl
  · refine refused_run (e := e) ?_
    rw [Call.code, confirmIncoming, run_getSession hs]
    simp only [ne_eq, hstatus, not_true_eq_false, if_false]
    exact Prog.run_bind_error execBooth _ hpin

/-- The row that is inserted takes the next id. -/
theorem Kept.begin {rows : List WorkerSession} {nextSession : Id} {c : Change} {row : WorkerSession}
    (h : Kept rows nextSession) (hs : s ∈ rows) (hstatus : s.status = .pendingHandover)
    (hc : c.status = .completed) (hid : row.id = nextSession) (hgate : row.gateId = s.gateId)
    (hprevious : row.previousSessionId = some s.id) :
    Kept (rows.map (updateRow s.id c) ++ [row]) (nextSession + 1) := by
  have hfresh : Kept rows (nextSession + 1) :=
    ⟨h.ids, fun q hq => lt_trans (h.fresh q hq) (Int.lt_succ _), h.single, h.chain, h.successor⟩
  refine hfresh.replace hs hstatus hc ?_ (fun q hq he => ?_) hgate hprevious
  · rw [hid]
    exact Int.lt_succ _
  · have hlt := h.fresh q hq
    rw [he, hid] at hlt
    exact lt_irrefl _ hlt

theorem Kept.find_begin {rows : List WorkerSession} {nextSession : Id} {c : Change}
    {row : WorkerSession} (h : Kept rows nextSession) (hs : s ∈ rows)
    (hstatus : s.status = .pendingHandover) (hc : c.status = .completed)
    (hid : row.id = nextSession) (hgate : row.gateId = s.gateId)
    (hprevious : row.previousSessionId = some s.id) :
    (rows.map (updateRow s.id c) ++ [row]).find? (·.id = nextSession) = some row := by
  rw [← hid]
  exact (h.begin hs hstatus hc hid hgate hprevious).find_id
    (List.mem_append_right _ List.mem_cons_self)

theorem serve_incoming (hs : d.sessions.find? (·.id = a.pendingSessionId) = some s)
    (hstatus : s.status = .pendingHandover) (hpin : PinRight lib d a.workerId a.pin)
    (hk : Kept d.sessions d.nextSession) :
    ∃ (c : Change) (row : WorkerSession), c.status = .completed ∧ row.id = d.nextSession ∧
      row.gateId = s.gateId ∧ row.workerId = a.workerId ∧ row.status = .active ∧
      row.previousSessionId = some s.id ∧ row.isSubstitute = a.isSubstitute ∧
      serve lib d (.confirmIncoming a) =
        (.ok row, BoothDb.committed { d with nextSession := d.nextSession + 1 }
          { writes := [.update s.id c, .insert row] }) := by
  obtain ⟨w, hw⟩ := run_pin (α := WorkerSession) {} hpin
  have hmem := List.mem_of_find?_eq_some hs
  obtain ⟨shift, hshift⟩ := run_currentShift d {} (α := WorkerSession)
  refine ⟨{ status := .completed, endedAt := some d.now },
    { id := d.nextSession
      shiftId := (shift.map (·.id)).getD s.shiftId
      workerId := a.workerId
      gateId := s.gateId
      date := d.now.date
      startedAt := d.now
      isSubstitute := a.isSubstitute
      previousSessionId := some s.id }, rfl, rfl, rfl, rfl, rfl, rfl, rfl, ?_⟩
  unfold serve
  rw [Call.code, confirmIncoming, run_getSession hs]
  simp only [ne_eq, hstatus, not_true_eq_false, if_false]
  rw [hw, run_ask rfl, hshift, run_ask rfl, run_ask rfl, run_ask rfl, run_commit]
  · rfl
  · exact hk.find_begin hmem hstatus rfl rfl rfl rfl

end Incoming

section Entering
variable {a : CheckIn}

variable (d own) in
/-- A shift is found without a change of the database, or there is an exception. -/
theorem run_determineShift {gateId : Id} {id : Option Id} {f : Id → Work α} :
    (∃ shiftId, (determineShift gateId id >>= f).run execBooth (d, own) =
      (f shiftId).run execBooth (d, own)) ∨
    ∃ e, (determineShift gateId id >>= f).run execBooth (d, own) = (.error e, (d, own)) := by
  cases id with
  | some id =>
    cases ha : d.assignments.find? (·.id = id) with
    | none =>
      have hget : BoothDb.perform (.getAssignment id) d own = (some none, d, own) := by
        rw [← ha]
        rfl
      refine .inr ⟨.http 400 "Invalid shift assignment", Prog.run_bind_error execBooth f ?_⟩
      rw [determineShift, run_ask hget]
      rfl
    | some assignment =>
      have hget : BoothDb.perform (.getAssignment id) d own = (some (some assignment), d, own) := by
        rw [← ha]
        rfl
      by_cases hgate : assignment.gateId = gateId
      · refine .inl ⟨assignment.shiftId, Prog.run_bind_ok execBooth f ?_⟩
        rw [determineShift, run_ask hget]
        simp only [hgate, ne_eq, not_true_eq_false, if_false]
        rfl
      · refine .inr ⟨.http 400 "Invalid shift assignment", Prog.run_bind_error execBooth f ?_⟩
        rw [determineShift, run_ask hget]
        simp only [hgate, ne_eq, not_false_eq_true, if_true]
        rfl
  | none =>
    obtain ⟨shift, hshift⟩ := run_currentShift d own (α := Id)
    cases shift with
    | none =>
      refine .inr ⟨.http 400 "No active shift for current time", Prog.run_bind_error execBooth f ?_⟩
      rw [determineShift, hshift]
      rfl
    | some shift =>
      refine .inl ⟨shift.id, Prog.run_bind_ok execBooth f ?_⟩
      rw [determineShift, hshift]
      rfl

theorem run_activeSession {gateId : Id} {r : Option WorkerSession}
    {f : Option WorkerSession → Work α} (h : BoothDb.openAt d.sessions gateId = r.toList) :
    (getActiveSession gateId >>= f).run execBooth (d, {}) = (f r).run execBooth (d, {}) := by
  refine Prog.run_bind_ok execBooth f ?_
  have hopen : BoothDb.perform (.openSessions gateId) d {} = (some r.toList, d, {}) := by
    rw [← h]
    rfl
  rw [getActiveSession, run_ask hopen]
  cases r <;> rfl

/-- Whatever the booth, nobody is checked in. -/
theorem refused_checkIn (hlib : lib.acceptsOriginalWorkerId = false)
    (hk : Kept d.sessions d.nextSession) : Refused lib d (.checkIn a) := by
  suffices h : ∃ e, ((Call.checkIn a).code lib).run execBooth (d, {}) = (.error e, (d, {})) from
    refused_run h.choose_spec
  have hget : ∀ {g}, d.gates.find? (·.id = a.gateId) = g →
      BoothDb.perform (.getGate a.gateId) d {} = (some g, d, {}) := by
    rintro g rfl
    rfl
  cases hgate : d.gates.find? (·.id = a.gateId) with
  | none =>
    refine ⟨.http 404 "Gate not found", ?_⟩
    rw [Call.code, checkIn, run_ask (hget hgate)]
    rfl
  | some gate =>
    rw [Call.code, checkIn, run_ask (hget hgate)]
    dsimp only
    rcases pin_cases lib d {} a.workerId a.pin with hpin | ⟨e, hpin⟩
    · obtain ⟨w, hw⟩ := run_pin (α := WorkerSession) {} hpin
      rw [hw]
      rcases hk.boothAt_cases a.gateId with ⟨hnil, -⟩ | ⟨r, -, -, hropen, hone, -⟩
      · rw [run_activeSession (r := none) hnil]
        simp only [Option.any_none, Bool.false_eq_true, if_false]
        rcases run_determineShift d {} with ⟨shiftId, hshift⟩ | ⟨e, hshift⟩
        · refine ⟨.typeError, ?_⟩
          rw [hshift, run_ask rfl, run_ask rfl]
          simp only [hlib, Bool.false_eq_true, not_false_eq_true, if_true]
          rfl
        · exact ⟨e, hshift⟩
      · rw [run_activeSession (r := some r) hone]
        unfold WorkerSession.IsOpen at hropen
        cases hstatus : r.status with
        | active =>
          simp only [Option.any_some, hstatus, decide_true, if_true]
          exact ⟨_, rfl⟩
        | pendingHandover =>
          simp only [Option.any_some, hstatus, reduceCtorEq, decide_false, decide_true, if_true,
            Bool.false_eq_true, if_false]
          exact ⟨_, rfl⟩
        | completed => exact absurd hstatus hropen
    · exact ⟨e, Prog.run_bind_error execBooth _ hpin⟩

end Entering

theorem Refused.kept {c : Call} (h : Refused lib d c) (hk : Kept d.sessions d.nextSession) :
    Kept (serve lib d c).2.sessions (serve lib d c).2.nextSession := by
  obtain ⟨e, h⟩ := h
  rw [h]
  exact hk

/-- No call disturbs the order of the booths. -/
theorem kept_serve (hlib : lib.acceptsOriginalWorkerId = false)
    (hk : Kept d.sessions d.nextSession) (c : Call) :
    Kept (serve lib d c).2.sessions (serve lib d c).2.nextSession := by
  cases c with
  | checkIn a => exact (refused_checkIn hlib hk).kept hk
  | confirmOutgoing a =>
    rcases outgoing_cases lib d a with hrefused | ⟨s, hs, hstatus, hpin⟩
    · exact hrefused.kept hk
    · obtain ⟨c, hc, -, -, hserve⟩ := serve_outgoing hs hstatus hpin hk
      rw [hserve]
      refine hk.update fun r hr he => ?_
      rw [hk.eq_of_id hr (List.mem_of_find?_eq_some hs) he]
      exact .inl ⟨hstatus, hc⟩
  | confirmIncoming a =>
    rcases incoming_cases lib d a with hrefused | ⟨s, hs, hstatus, hpin⟩
    · exact hrefused.kept hk
    · obtain ⟨c, row, hc, hid, hgate, -, -, hprevious, -, hserve⟩ :=
        serve_incoming hs hstatus hpin hk
      rw [hserve]
      exact hk.begin (List.mem_of_find?_eq_some hs) hstatus hc hid hgate hprevious
  | forceLeave a =>
    rcases leave_cases lib d a with hrefused | ⟨s, hs, hstatus, hpin⟩
    · exact hrefused.kept hk
    · obtain ⟨c, alerts, hc, -, -, hserve⟩ := serve_leave hs hstatus hpin hk
      rw [hserve]
      refine hk.update fun r hr he => ?_
      rw [hk.eq_of_id hr (List.mem_of_find?_eq_some hs) he]
      exact .inr ⟨hstatus, hc⟩

theorem Reached.kept (hlib : lib.acceptsOriginalWorkerId = false) (h : Reached lib d) :
    Kept d.sessions d.nextSession := by
  induction h with
  | start hk => exact hk
  | call c _ ih => exact kept_serve hlib ih c
  | others _ hrows hnext ih => exact hrows ▸ hnext ▸ ih

end Runs

section Refinement
variable {lib : Libraries} {d d' : BoothDb} {c : Call} {g : Id} {b : Booth} {r s : WorkerSession}

theorem refines_refused (h : Refused lib d c)
    (hnext : (boothAt d.sessions g).next d.nextSession c.event = none) : Refines lib d c g := by
  obtain ⟨e, h⟩ := h
  refine ⟨fun b hb => ?_, fun _ => ⟨⟨e, by rw [h]⟩, by rw [h]⟩⟩
  cases hnext.symm.trans hb

theorem not_refines_refused (h : Refused lib d c)
    (hnext : (boothAt d.sessions g).next d.nextSession c.event = some b) : ¬ Refines lib d c g := by
  obtain ⟨e, h⟩ := h
  intro hrefines
  obtain ⟨r, -, hok, -⟩ := hrefines.enabled b hnext
  rw [h] at hok
  cases hok

theorem refines_served (hnext : (boothAt d.sessions g).next d.nextSession c.event = some b)
    (hserve : serve lib d c = (.ok r, d')) :
    Refines lib d c g ↔ r ∈ d'.sessions ∧ Answers d g c r ∧ boothAt d'.sessions g = b ∧
      (∀ g', g' ≠ g → boothAt d'.sessions g' = boothAt d.sessions g') ∧
      ∀ q ∈ d.sessions, c.session ≠ some q.id → q ∈ d'.sessions := by
  constructor
  · intro h
    obtain ⟨r', hr', hok, hrest⟩ := h.enabled b hnext
    rw [hserve] at hok hr' hrest
    obtain rfl := Except.ok.inj hok
    exact ⟨hr', hrest⟩
  · rintro ⟨hr, hrest⟩
    refine ⟨fun b' hb' => ⟨r, ?_⟩, fun hnone => ?_⟩
    · obtain rfl := Option.some.inj (hnext.symm.trans hb')
      rw [hserve]
      exact ⟨hr, rfl, hrest⟩
    · cases hnext.symm.trans hnone

/-- What a change of one session leaves of the booths and of the other rows. -/
theorem updated_rest {rows : List WorkerSession} {n : Id} {c : Change} (hk : Kept rows n)
    (hs : s ∈ rows) :
    (∀ g', g' ≠ s.gateId → boothAt (rows.map (updateRow s.id c)) g' = boothAt rows g') ∧
      ∀ q ∈ rows, s.id ≠ q.id → q ∈ rows.map (updateRow s.id c) :=
  ⟨fun _ hg => hk.boothAt_update hs hg,
    fun q hq hne => List.mem_map.mpr ⟨q, hq, updateRow_of_ne hne.symm⟩⟩

theorem refines_checkIn {a : CheckIn} (hlib : lib.acceptsOriginalWorkerId = false)
    (hk : Kept d.sessions d.nextSession) :
    Refines lib d (.checkIn a) a.gateId ↔ Works d (.checkIn a) := by
  have hrefused := refused_checkIn (a := a) hlib hk
  change _ ↔ boothAt d.sessions a.gateId ≠ .uncovered
  cases hbooth : boothAt d.sessions a.gateId with
  | uncovered =>
    have hnext : (boothAt d.sessions a.gateId).next d.nextSession .checkIn =
        some (.active d.nextSession) := by rw [hbooth]; rfl
    simpa using not_refines_refused hrefused hnext
  | active s =>
    refine ⟨fun _ => Booth.noConfusion, fun _ => refines_refused hrefused ?_⟩
    rw [hbooth]
    rfl
  | pending s =>
    refine ⟨fun _ => Booth.noConfusion, fun _ => refines_refused hrefused ?_⟩
    rw [hbooth]
    rfl

/-- The row that is changed, in the table. -/
theorem mem_updated {rows : List WorkerSession} {c : Change} (hs : s ∈ rows) :
    c.apply s ∈ rows.map (updateRow s.id c) := by
  refine List.mem_map.mpr ⟨s, hs, ?_⟩
  rw [updateRow, if_pos rfl]

theorem refines_outgoing {a : ConfirmOutgoing} (hk : Kept d.sessions d.nextSession)
    (hs : d.sessions.find? (·.id = a.sessionId) = some s)
    (hpin : PinRight lib d s.workerId a.pin) : Refines lib d (.confirmOutgoing a) s.gateId := by
  have hmem := List.mem_of_find?_eq_some hs
  have hid : s.id = a.sessionId := by simpa using List.find?_some hs
  have hnext := (hk.next_named (n := d.nextSession) hmem).1
  rw [hid] at hnext
  by_cases hstatus : s.status = .active
  · rw [if_pos hstatus] at hnext
    obtain ⟨c, hc, htype, hreason, hserve⟩ := serve_outgoing hs hstatus hpin hk
    have hfollows : ∀ q ∈ d.sessions, q.id = s.id → c.Follows q := fun q hq he =>
      .inl ⟨hk.eq_of_id hq hmem he ▸ hstatus, hc⟩
    have hrow : c.apply s ∈ d.sessions.map (updateRow s.id c) := mem_updated hmem
    have hstatus' : (c.apply s).status = .pendingHandover := hc
    obtain ⟨hothers, hrest⟩ := updated_rest (c := c) hk hmem
    refine (refines_served hnext hserve).mpr ⟨hrow, ⟨hid, hc, htype, hreason⟩, ?_, hothers, ?_⟩
    · have hopen : (c.apply s).IsOpen := by
        rw [WorkerSession.IsOpen, hstatus']
        decide
      refine ((hk.update hfollows).boothAt_eq hrow hopen).trans ?_
      rw [WorkerSession.booth, hstatus', ← hid]
      rfl
    · exact fun q hq hne => hrest q hq fun he => hne (congrArg some (hid.symm.trans he))
  · rw [if_neg hstatus] at hnext
    exact refines_refused (refused_outgoing hs hstatus) hnext

theorem refines_leave {a : ForceLeave} (hk : Kept d.sessions d.nextSession)
    (hs : d.sessions.find? (·.id = a.sessionId) = some s)
    (hpin : PinRight lib d s.workerId a.pin) : Refines lib d (.forceLeave a) s.gateId := by
  have hmem := List.mem_of_find?_eq_some hs
  have hid : s.id = a.sessionId := by simpa using List.find?_some hs
  have hnext := (hk.next_named (n := d.nextSession) hmem).2.2
  rw [hid] at hnext
  by_cases hstatus : s.status = .completed
  · rw [if_pos hstatus] at hnext
    exact refines_refused (refused_leave hs hstatus) hnext
  · rw [if_neg hstatus] at hnext
    obtain ⟨c, alerts, hc, htype, hreason, hserve⟩ := serve_leave hs hstatus hpin hk
    obtain ⟨hothers, hrest⟩ := updated_rest (c := c) hk hmem
    refine (refines_served hnext hserve).mpr
      ⟨mem_updated hmem, ⟨hid, hc, htype, hreason⟩, ?_, hothers, ?_⟩
    · refine boothAt_uncovered fun q' hq' hgate hopen => ?_
      obtain ⟨q, hq, rfl⟩ := List.mem_map.mp hq'
      have hqopen :=
        isOpen_of_updateRow (fun he => .inr ⟨hk.eq_of_id hq hmem he ▸ hstatus, hc⟩) hopen
      -- it is the session that has been ended
      have hqs := hk.single q hq s hmem hqopen hstatus (updateRow_gateId.symm.trans hgate)
      exact hopen ((updateRow_status_self (congrArg _ hqs)).trans hc)
    · exact fun q hq hne => hrest q hq fun he => hne (congrArg some (hid.symm.trans he))

/-- A handover begins the session that it ought to, but forgets who is substituted. -/
theorem no_original_iff {isSubstitute : Bool} {original : Option Id} :
    none = (if isSubstitute then original else none) ↔ (isSubstitute = true → original = none) := by
  cases isSubstitute with
  | true => simp [eq_comm]
  | false => simp

theorem refines_incoming {a : ConfirmIncoming} (hk : Kept d.sessions d.nextSession)
    (hs : d.sessions.find? (·.id = a.pendingSessionId) = some s)
    (hpin : PinRight lib d a.workerId a.pin) :
    Refines lib d (.confirmIncoming a) s.gateId ↔
      (a.isSubstitute = true → a.originalWorkerId ≠ none → s.status ≠ .pendingHandover) := by
  have hmem := List.mem_of_find?_eq_some hs
  have hid : s.id = a.pendingSessionId := by simpa using List.find?_some hs
  have hnext := (hk.next_named (n := d.nextSession) hmem).2.1
  rw [hid] at hnext
  by_cases hstatus : s.status = .pendingHandover
  · rw [if_pos hstatus] at hnext
    obtain ⟨c, row, hc, hrow, hgate, hworker, hactive, hprevious, hsub, hserve⟩ :=
      serve_incoming hs hstatus hpin hk
    obtain ⟨hothers, hrest⟩ := updated_rest (c := c) hk hmem
    rw [refines_served hnext hserve]
    have hkept := hk.begin hmem hstatus hc hrow hgate hprevious
    have hin : row ∈ d.sessions.map (updateRow s.id c) ++ [row] :=
      List.mem_append_right _ List.mem_cons_self
    constructor
    · rintro ⟨-, hbegins, -⟩ hsubstitute horiginal
      -- the row has nowhere to say who is substituted
      exact absurd (no_original_iff.mp hbegins.original hsubstitute) horiginal
    · intro hforgets
      have horiginal := no_original_iff.mpr fun hsubstitute =>
        not_not.mp fun hne => hforgets hsubstitute hne hstatus
      refine ⟨hin, ⟨hrow, hgate, hworker, hactive, ?_, hsub, horiginal⟩, ?_, ?_, ?_⟩
      · rw [hprevious, hid]
      · have hopen : row.IsOpen := by
          rw [WorkerSession.IsOpen, hactive]
          decide
        have hbooth := hkept.boothAt_eq hin hopen
        rw [WorkerSession.booth, hactive, hrow, hgate] at hbooth
        exact hbooth
      · intro g' hg'
        have hne : g' ≠ row.gateId := hgate ▸ hg'
        exact (boothAt_append hne).trans (hothers g' hg')
      · intro q hq hne
        refine List.mem_append_left _ (hrest q hq fun he => hne ?_)
        exact congrArg some (hid.symm.trans he)
  · rw [if_neg hstatus] at hnext
    exact ⟨fun _ _ _ => hstatus, fun _ => refines_refused (refused_incoming hs hstatus) hnext⟩

/-- What a call does to a booth is what the automaton does, where the call works. -/
theorem refines_iff (hlib : lib.acceptsOriginalWorkerId = false) (hd : Reached lib d)
    (hvalid : Valid lib d c g) : Refines lib d c g ↔ Works d c := by
  have hk := hd.kept hlib
  cases c with
  | checkIn a =>
    obtain ⟨rfl, -⟩ := hvalid
    exact refines_checkIn hlib hk
  | confirmOutgoing a =>
    obtain ⟨s, hs, rfl, hpin⟩ := hvalid
    exact iff_of_true (refines_outgoing hk hs hpin) trivial
  | confirmIncoming a =>
    obtain ⟨s, hs, rfl, hpin⟩ := hvalid
    have hmem := List.mem_of_find?_eq_some hs
    have hid : s.id = a.pendingSessionId := by simpa using List.find?_some hs
    refine (refines_incoming hk hs hpin).trans ?_
    constructor
    · intro hstatus hsubstitute horiginal r hr he
      obtain rfl := hk.eq_of_id hr hmem (he.trans hid.symm)
      exact hstatus hsubstitute horiginal
    · intro hworks hsubstitute horiginal
      exact hworks hsubstitute horiginal s hmem hid
  | forceLeave a =>
    obtain ⟨s, hs, rfl, hpin⟩ := hvalid
    exact iff_of_true (refines_leave hk hs hpin) trivial

end Refinement

section Calls

/-- Nobody is at the booths. -/
def nobody : BoothDb := { leaving with sessions := [], nextSession := 1 }

theorem nobody_reached : Reached installed nobody := by
  refine .start ⟨List.nodup_nil, ?_, ?_, ?_, ?_⟩ <;> intro q hq <;> cases hq

theorem pinRight_eight {d : BoothDb} (hd : d.users = leaving.users) :
    PinRight installed d 8 "1234" := by
  refine ⟨{ id := 8, workerPin := some pinHash }, pinHash, ?_, rfl, by decide, by decide⟩
  rw [hd]
  decide

/-- Worker 8 takes over from worker 7, in the place of nobody and of worker 9. -/
theorem refines_iff_leaving :
    let plain : ConfirmIncoming := { pendingSessionId := 1, workerId := 8, pin := "1234" }
    let substitute := { plain with isSubstitute := true, originalWorkerId := some 9 }
    Refines installed leaving (.confirmIncoming plain) 1 ∧
      ¬ Refines installed leaving (.confirmIncoming substitute) 1 := by
  intro plain substitute
  have hreached : Reached installed leaving := .start leaving_kept
  have hpin : PinRight installed leaving 8 "1234" := pinRight_eight rfl
  have hplain : Valid installed leaving (.confirmIncoming plain) 1 := ⟨_, rfl, rfl, hpin⟩
  have hsubstitute : Valid installed leaving (.confirmIncoming substitute) 1 := ⟨_, rfl, rfl, hpin⟩
  constructor
  · refine (refines_iff rfl hreached hplain).mpr fun hstands => ?_
    exact absurd hstands Bool.false_ne_true
  · intro hrefines
    have hworks := (refines_iff rfl hreached hsubstitute).mp hrefines
    exact hworks rfl (Option.some_ne_none _) _ List.mem_cons_self rfl rfl

/-- A booth that nobody covers stays so: the constructor of the row rejects the call. -/
theorem checkIn_raises :
    let enters : CheckIn := { gateId := 1, workerId := 8, pin := "1234" }
    Reached installed nobody ∧ Valid installed nobody (.checkIn enters) 1 ∧
      ¬ Refines installed nobody (.checkIn enters) 1 := by
  intro enters
  have hshift : nobody.shifts.filter (·.isActive) ≠ [] := by decide
  refine ⟨nobody_reached, ⟨rfl, ⟨_, rfl⟩, pinRight_eight rfl, hshift⟩, ?_⟩
  exact not_refines_refused (b := .active 1) ⟨.typeError, by decide +kernel⟩ rfl

end Calls
end ParkIt.Workers
