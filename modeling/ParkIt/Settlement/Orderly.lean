import ParkIt.Settlement.Jobs

/-! What a step of a settlement job can do, and what keeps the records in order. -/
namespace ParkIt.Settlement

open Sessions Transition

section Acts
variable {o : JobOp} {c : Conn} {s s' : State} {ws ws' : List Write} {a : o.Ans}

/-- The sequence moves on, whether the record is accepted or not. -/
theorem exec_insert (c : Conn) (r : EmoneySettlement) :
    ∃ db, (exec (.insertSettlement r) c).2 =
      { c with
        state := { c.state with
          world.db := db, nextSettlement := c.state.nextSettlement + 1 } } := by
  simp only [exec]
  by_cases hrow : EmoneySettlement.accepted { r with id := c.state.nextSettlement } = true
  · rw [if_pos hrow]
    exact ⟨_, rfl⟩
  · rw [if_neg hrow]
    exact ⟨c.state.world.db, rfl⟩

theorem exec_saved (ho : o ≠ .commit) : (exec o c).2.saved = c.saved := by
  have hsteady := steady_exec o c
  cases o with
  | commit => exact absurd rfl ho
  | link _ _ => rfl
  | insertSettlement r =>
    obtain ⟨db, hdb⟩ := exec_insert c r
    rw [hdb]
  | _ => exact (hsteady trivial).saved

theorem exec_next (ho : ∀ r, o ≠ .insertSettlement r) :
    (exec o c).2.state.nextSettlement = c.state.nextSettlement := by
  have hsteady := steady_exec o c
  cases o with
  | insertSettlement r => exact absurd rfl (ho r)
  | commit | link _ _ => rfl
  | _ => exact (hsteady trivial).next

theorem exec_files (ho : ∀ path content, o ≠ .writeFile path content) :
    (exec o c).2.state.files = c.state.files := by
  cases o with
  | writeFile path content => exact absurd rfl (ho path content)
  | insertSettlement r =>
    obtain ⟨db, hdb⟩ := exec_insert c r
    rw [hdb]
  | setLock _ =>
    simp only [exec]
    split
    · rfl
    · split <;> rfl
  | makedirs | incrBatch _ | expireBatch _ | enqueueUpload _ =>
    simp only [exec]
    split <;> rfl
  | now | unsettledReaders | reader _ | unsettled _ | link _ _ | commit => rfl

theorem exec_batches (hincr : ∀ key, o ≠ .incrBatch key) (hexpire : ∀ key, o ≠ .expireBatch key) :
    (exec o c).2.state.batches = c.state.batches := by
  cases o with
  | incrBatch key => exact absurd rfl (hincr key)
  | expireBatch key => exact absurd rfl (hexpire key)
  | insertSettlement r =>
    obtain ⟨db, hdb⟩ := exec_insert c r
    rw [hdb]
  | setLock _ | writeFile _ _ =>
    simp only [exec]
    split
    · rfl
    · split <;> rfl
  | makedirs | enqueueUpload _ =>
    simp only [exec]
    split <;> rfl
  | now | unsettledReaders | reader _ | unsettled _ | link _ _ | commit => rfl

/-- Behind every act is an execution, of which the answer may be lost. -/
theorem Acts.exec (h : Acts o s ws a s' ws') : s' = (exec o (s.conn ws)).2.committed := by
  cases h with
  | done h | lockLost h | numberLost h => rw [h]

theorem Acts.own (h : Acts o s ws a s' ws') : ws' = staged o a ws := by
  cases h <;> rfl

theorem Acts.db (h : Acts o s ws a s' ws') (ho : o ≠ .commit) : s'.world.db = s.world.db := by
  rw [h.exec]
  exact exec_saved ho

theorem Acts.next (h : Acts o s ws a s' ws') (ho : ∀ r, o ≠ .insertSettlement r) :
    s'.nextSettlement = s.nextSettlement := by
  rw [h.exec]
  exact exec_next ho

theorem Acts.files (h : Acts o s ws a s' ws') (ho : ∀ path content, o ≠ .writeFile path content) :
    s'.files = s.files := by
  rw [h.exec]
  exact exec_files ho

theorem Acts.batches (h : Acts o s ws a s' ws') (hincr : ∀ key, o ≠ .incrBatch key)
    (hexpire : ∀ key, o ≠ .expireBatch key) : s'.batches = s.batches := by
  rw [h.exec]
  exact exec_batches hincr hexpire

theorem Acts.commit {a : Unit} (h : Acts .commit s ws a s' ws') :
    s' = { s with world.db := ws.foldl Write.apply s.world.db } := by
  rw [h.exec]
  rfl

/-- The record gets the next id of the sequence. -/
theorem Acts.insert {r : EmoneySettlement} {i : Id}
    (h : Acts (.insertSettlement r) s ws i s' ws') :
    i = s.nextSettlement ∧ s'.nextSettlement = s.nextSettlement + 1 := by
  cases h with
  | done h =>
    simp only [Settlement.exec] at h
    by_cases hrow : EmoneySettlement.accepted
      { r with id := (s.conn ws).state.nextSettlement } = true
    · rw [if_pos hrow] at h
      cases h
      exact ⟨rfl, rfl⟩
    · rw [if_neg hrow] at h
      cases h

/-- The rows are fetched as they are committed, unless the session has written itself. -/
theorem Acts.unsettled {r : Id} {rows : List EmoneyTransaction}
    (h : Acts (.unsettled r) s [] rows s' ws') : rows = (s.conn []).queue r := by
  cases h with
  | done h =>
    cases h
    rfl

theorem Fails.db (h : Fails o s ws s') : s'.world.db = s.world.db := by
  cases h with
  | cut _ => rfl
  | @raised o s ws e c h =>
    have hcommit : o ≠ .commit := by
      rintro rfl
      cases h
    have hsaved := exec_saved (c := s.conn ws) hcommit
    rw [h] at hsaved
    exact hsaved

theorem Fails.next (h : Fails o s ws s') : s.nextSettlement ≤ s'.nextSettlement := by
  cases h with
  | cut _ => exact le_rfl
  | @raised o s ws e c h =>
    by_cases ho : ∃ r, o = .insertSettlement r
    · obtain ⟨r, rfl⟩ := ho
      obtain ⟨db, hdb⟩ := exec_insert (s.conn ws) r
      rw [h] at hdb
      exact (Int.lt_succ _).le.trans (congrArg (·.state.nextSettlement) hdb).ge
    · have hnext := exec_next (c := s.conn ws) fun r hr => ho ⟨r, hr⟩
      rw [h] at hnext
      exact hnext.ge

theorem Fails.files (h : Fails o s ws s') (ho : ∀ path content, o ≠ .writeFile path content) :
    s'.files = s.files := by
  cases h with
  | @cut path content _ _ _ _ => exact absurd rfl (ho path content)
  | @raised o s ws e c h =>
    have hfiles := exec_files (c := s.conn ws) ho
    rw [h] at hfiles
    exact hfiles

theorem Fails.batches (h : Fails o s ws s') : s'.batches = s.batches := by
  cases h with
  | cut _ => rfl
  | @raised o s ws e c h =>
    have hbatches : (Settlement.exec o (s.conn ws)).2.state.batches = s.batches := by
      refine exec_batches (fun key ho => ?_) fun key ho => ?_ <;> subst ho
      · simp only [Settlement.exec] at h
        split at h <;> cases h
      · cases h
    rw [h] at hbatches
    exact hbatches

/-- A failure leaves the disk alone, or it spoils the file that was to be written. -/
theorem Fails.spoils {path content : String} (h : Fails (.writeFile path content) s ws s') :
    ∀ other, other ≠ path → s'.files other = s.files other := by
  intro other hne
  cases h with
  | cut _ => exact if_neg hne
  | raised h =>
    simp only [Settlement.exec] at h
    split at h
    · cases h
      rfl
    · split at h <;> cases h
      exact if_neg hne

theorem Acts.writes {path content : String} {a : Unit}
    (h : Acts (.writeFile path content) s ws a s' ws') :
    s'.files = setKey s.files path (some content) := by
  cases h with
  | done h =>
    simp only [Settlement.exec] at h
    split at h
    · cases h
    · split at h <;> cases h
      rfl

end Acts

section InOrder
variable {ι : Type} [DecidableEq ι] {sha256 : String → String} {s t : JobSys ι}
  {l : Label ι JobOp}

/-- What a job has noted agrees with what it has written. -/
structure InOrder (sha256 : String → String) (ws : List Write) (g : Note) : Prop where
  pending : ws = g.pending sha256
  readers : ∀ e ∈ g.rows, e.emoneyReaderId = some g.readerId
  rows : g.written = true → g.rows ≠ []
  written : g.record ≠ none → g.written = true
  record : g.linked = true → g.record ≠ none

theorem InOrder.blank : InOrder sha256 [] {} :=
  ⟨rfl, fun _ he => absurd he List.not_mem_nil, nofun, fun h => absurd rfl h, nofun⟩

theorem pending_none {g : Note} (h : g.record = none) : g.pending sha256 = [] := by
  unfold Note.pending
  rw [h]

theorem pending_congr {g g' : Note} (h : g.record = none) (h' : g'.record = none) :
    g.pending sha256 = g'.pending sha256 := (pending_none h).trans (pending_none h').symm

theorem mem_unsettled {r : Id} {s' : State} {ws' : List Write} {s : State}
    {rows : List EmoneyTransaction} (h : Acts (.unsettled r) s [] rows s' ws')
    {e : EmoneyTransaction} (he : e ∈ rows) :
    e ∈ s.world.db.emoney ∧ e.Unsettled ∧ e.emoneyReaderId = some r := by
  rw [h.unsettled] at he
  obtain ⟨i, -, hi⟩ := List.mem_filterMap.mp ((List.perm_insertionSort _ _).mem_iff.mp he)
  obtain ⟨hmem, hp⟩ := List.mem_filter.mp (List.mem_of_find?_eq_some hi)
  exact ⟨hmem, of_decide_eq_true hp⟩

theorem inOrder_act {o : JobOp} {s s' : State} {ws ws' : List Write} {g : Note} {a : o.Ans}
    (hallow : (protocol sha256).allow g o) (hact : Acts o s ws a s' ws')
    (h : InOrder sha256 ws g) : InOrder sha256 ws' ((protocol sha256).next g o a) := by
  obtain ⟨hpending, hreaders, hrows, hwritten, hrecord⟩ := h
  rw [hact.own, hpending]
  cases o <;> dsimp only [staged, protocol]
  case now =>
    obtain ⟨hnil, -, hw, hr, hl⟩ := hallow
    refine ⟨pending_congr hr hr, hreaders, hrows, hwritten, hrecord⟩
  case reader i =>
    obtain ⟨hnil, -, hw, hr, hl⟩ := hallow
    refine ⟨pending_congr hr hr, fun e he => ?_, hrows, hwritten,
      hrecord⟩
    change e ∈ g.rows at he
    rw [hnil] at he
    cases he
  case unsettled r =>
    obtain ⟨⟨-, -, hw, hr, hl⟩, rfl⟩ := hallow
    rw [hpending, pending_none hr] at hact
    refine ⟨pending_congr hr hr, fun e he => ?_, fun h => ?_, hwritten,
      hrecord⟩
    · exact (mem_unsettled hact he).2.2
    · exact absurd (hw.symm.trans h) nofun
  case incrBatch key =>
    obtain ⟨⟨-, -, hw, hr, hl⟩, -⟩ := hallow
    refine ⟨pending_congr hr hr, hreaders, hrows, hwritten, hrecord⟩
  case writeFile path content =>
    obtain ⟨⟨-, hne, hw, hr⟩, -, -⟩ := hallow
    exact ⟨pending_congr hr hr, hreaders, fun _ => hne, fun _ => rfl,
      hrecord⟩
  case insertSettlement r =>
    obtain ⟨⟨hw, hr, hl⟩, rfl⟩ := hallow
    refine ⟨?_, hreaders, hrows, fun _ => hw, fun _ => Option.some_ne_none a⟩
    rw [pending_none hr]
    simp only [Note.pending, hl, Bool.false_eq_true, if_false]
    rfl
  case link ids i =>
    obtain ⟨⟨hr, hl⟩, rfl⟩ := hallow
    refine ⟨?_, hreaders, hrows, hwritten, fun _ => ?_⟩
    · simp only [Note.pending, hr, hl, Bool.false_eq_true, if_false, if_true]
      rfl
    · change g.record ≠ none
      rw [hr]
      exact Option.some_ne_none i
  case commit =>
    exact ⟨rfl, fun e he => hreaders e (List.mem_of_mem_drop he), nofun, fun h => absurd rfl h,
      nofun⟩
  case setLock _ | makedirs | unsettledReaders | expireBatch _ | enqueueUpload _ =>
    exact ⟨rfl, hreaders, hrows, hwritten, hrecord⟩

theorem inProtocol_jobs (h : Step (jobs sha256) s l t) (hs : InProtocol (jobs sha256) s) :
    InProtocol (jobs sha256) t := by
  refine inProtocol_step h ?_ (fun _ _ _ _ _ _ _ _ => trivial) hs
  rintro p _ _ ⟨⟨ctx, rfl⟩, rfl, rfl⟩
  exact generate_follows sha256 ctx

theorem inOrder_step (h : Step (jobs sha256) s l t) (hkeep : InProtocol (jobs sha256) s)
    (hs : Each (InOrder sha256) s) : Each (InOrder sha256) t := by
  refine each_step h hkeep ?_ (fun o sh own note a sh' own' => inOrder_act) hs
  rintro _ _ _ ⟨-, rfl, rfl⟩
  exact InOrder.blank

end InOrder

/-- A job does an operation, and is answered. -/
structure Went {ι : Type} (sha256 : String → String) (s t : JobSys ι) (j : ι)
    (x : Session JobOp JobOp.Ans JobExc Outcome (List Write) Note) (o : JobOp) (a : o.Ans)
    (ws : List Write) : Prop where
  session : s.session j = some x
  allow : (protocol sha256).allow x.note o
  act : Acts o s.shared x.own a t.shared ws
  log : t.log = s.log ++ entries x.note o (some a)
  after : ∀ k y, t.session k = some y →
    k = j ∧ y.note = (protocol sha256).next x.note o a ∨ k ≠ j ∧ s.session k = some y

/-- A job does an operation that raises. -/
structure Failed {ι : Type} (sha256 : String → String) (s t : JobSys ι) (j : ι)
    (x : Session JobOp JobOp.Ans JobExc Outcome (List Write) Note) (o : JobOp) : Prop where
  session : s.session j = some x
  allow : (protocol sha256).allow x.note o
  fails : Fails o s.shared x.own t.shared
  log : t.log = s.log ++ entries x.note o none
  after : ∀ k y, t.session k = some y → k ≠ j ∧ s.session k = some y

/-- What a step can do, in terms of the notes of the jobs. -/
inductive Move {ι : Type} (sha256 : String → String) (s : JobSys ι) :
    Label ι JobOp → JobSys ι → Prop
  | went {t j x o a ws} : Went sha256 s t j x o a ws → Move sha256 s (.go j o) t
  | failed {t j x o} : Failed sha256 s t j x o → Move sha256 s (.go j o) t
  | idle {l t} : t.shared = s.shared → t.log = s.log →
      (∀ k y, t.session k = some y → s.session k = some y ∨ y.note = {}) → Move sha256 s l t
  | outside {l t} : Outside s.shared t.shared → t.log = s.log → t.session = s.session →
      Move sha256 s l t

theorem move_of_step {ι : Type} [DecidableEq ι] {sha256 : String → String} {s t : JobSys ι}
    {l : Label ι JobOp} (h : Step (jobs sha256) s l t) (hkeep : InProtocol (jobs sha256) s) :
    Move sha256 s l t := by
  cases h with
  | @start j p ws g _ hstarts =>
    refine .idle rfl rfl fun k y hy => ?_
    rcases session_set hy with ⟨-, hy⟩ | ⟨-, hy⟩
    · rw [← Option.some.inj hy]
      exact Or.inr hstarts.2.2
    · exact Or.inl hy
  | go hj hact =>
    refine .went ⟨hj, (hkeep _ _ hj).1, hact, rfl, fun k y hy => ?_⟩
    rcases session_set hy with ⟨hk, hy⟩ | hy
    · rw [← Option.some.inj hy]
      exact Or.inl ⟨hk, rfl⟩
    · exact Or.inr hy
  | fail hj hfails =>
    exact .failed ⟨hj, (hkeep _ _ hj).1, hfails, rfl, fun k y hy => session_set_none hy⟩
  | during _ hf => exact hf.elim
  | stop _ => exact .idle rfl rfl fun k y hy => Or.inl (session_set_none hy).2
  | outside ho => exact .outside ho rfl rfl

def written (log : List Entry) : List Draft :=
  log.filterMap fun
    | .written d => some d
    | .filed _ _ => none

def filed (log : List Entry) : List (Draft × Id) :=
  log.filterMap fun
    | .written _ => none
    | .filed d i => some (d, i)

/-- The files with a committed record. -/
def batches (sha256 : String → String) (log : List Entry) : List Batch :=
  (filed log).map fun x => x.1.batch sha256 x.2

/-- Primary keys, the sequence and the foreign key. -/
structure Stored (s : State) : Prop where
  ids : (s.world.db.emoney.map (·.id)).Nodup
  keys : (s.world.db.settlements.map (·.id)).Nodup
  sequence : ∀ r ∈ s.world.db.settlements, r.id < s.nextSettlement
  refers : ∀ e ∈ s.world.db.emoney, ∀ i ∈ e.settlementBatchId,
    i ∈ s.world.db.settlements.map (·.id)

/-- The records are those of the start and of the files, and no two jobs hold one id. -/
structure Orderly {ι : Type} (sha256 : String → String) (s₀ : State) (s : JobSys ι) : Prop where
  each : Each (InOrder sha256) s
  stored : Stored s.shared
  below : ∀ j x, s.session j = some x → ∀ i ∈ x.note.record, i < s.shared.nextSettlement
  new : ∀ j x, s.session j = some x → ∀ i ∈ x.note.record,
    i ∉ s.shared.world.db.settlements.map (·.id)
  apart : ∀ j k x y, s.session j = some x → s.session k = some y → j ≠ k →
    ∀ i ∈ x.note.record, i ∉ y.note.record
  settlements : s.shared.world.db.settlements.map EmoneySettlement.sealed =
    (s₀.world.db.settlements ++ (batches sha256 s.log).map (·.record)).map EmoneySettlement.sealed

section Orderly
variable {ι : Type} {sha256 : String → String} {s₀ : State} {s t : JobSys ι}
  {l : Label ι JobOp} {g : Note} {ws ws' : List Write} {log : List Entry}

theorem sealed_ids {rs rs' : List EmoneySettlement}
    (h : rs'.map EmoneySettlement.sealed = rs.map EmoneySettlement.sealed) :
    rs'.map (·.id) = rs.map (·.id) := by
  have hids := congrArg (List.map EmoneySettlement.id) h
  rw [List.map_map, List.map_map] at hids
  exact hids

theorem batches_append (log log' : List Entry) :
    batches sha256 (log ++ log') = batches sha256 log ++ batches sha256 log' := by
  rw [batches, filed, List.filterMap_append, List.map_append]
  rfl

theorem batches_entries {o : JobOp} {a : Option o.Ans} (ho : o ≠ .commit) :
    batches sha256 (log ++ entries g o a) = batches sha256 log := by
  have hnone : batches sha256 (entries g o a) = [] := by
    cases o with
    | commit => exact absurd rfl ho
    | _ => rfl
  rw [batches_append, hnone, List.append_nil]

theorem batches_failed {o : JobOp} :
    batches sha256 (log ++ entries g o none) = batches sha256 log := by
  have hnone : batches sha256 (entries g o none) = [] := by
    cases o <;> rfl
  rw [batches_append, hnone, List.append_nil]

theorem batches_commit {i : Id} {a : Unit} (h : g.record = some i) :
    batches sha256 (log ++ entries g .commit (some a)) =
      batches sha256 log ++ [g.draft.batch sha256 i] := by
  have hentry : entries g .commit (some a) = [.filed g.draft i] := by
    simp only [entries, h]
  rw [batches_append, hentry]
  rfl

theorem next_record {o : JobOp} {a : o.Ans} (hcommit : o ≠ .commit)
    (hinsert : ∀ r, o ≠ .insertSettlement r) :
    ((protocol sha256).next g o a).record = g.record := by
  cases o with
  | commit => exact absurd rfl hcommit
  | insertSettlement r => exact absurd rfl (hinsert r)
  | _ => rfl

/-- A commit adds the record of the next file and links the rows of the file to it. -/
theorem commit_settles {s s' : State} {a : Unit} (hallow : (protocol sha256).allow g .commit)
    (h : InOrder sha256 ws g) (hact : Acts .commit s ws a s' ws') :
    ∃ i, g.record = some i ∧
      s' = { s with world.db := s.world.db.settle (g.draft.batch sha256 i) } := by
  have hlinked : g.linked = true := hallow
  obtain ⟨i, hi⟩ := Option.ne_none_iff_exists'.mp (h.record hlinked)
  refine ⟨i, hi, ?_⟩
  have hws : ws = [.insert (g.draft.record sha256 i), .link g.draft.ids i] := by
    rw [h.pending, Note.pending, hi, hlinked]
    rfl
  rw [hact.commit, hws]
  rfl

theorem Stored.same {s s' : State} (h : Stored s) (hdb : s'.world.db = s.world.db)
    (hnext : s.nextSettlement ≤ s'.nextSettlement) : Stored s' :=
  ⟨hdb ▸ h.ids, hdb ▸ h.keys, fun r hr => lt_of_lt_of_le (h.sequence r (hdb ▸ hr)) hnext,
    hdb ▸ h.refers⟩

theorem Stored.settle {s : State} {b : Batch} (h : Stored s)
    (hnext : b.record.id < s.nextSettlement)
    (hnew : b.record.id ∉ s.world.db.settlements.map (·.id)) :
    Stored { s with world.db := s.world.db.settle b } := by
  have hrows : (s.world.db.settle b).emoney = s.world.db.emoney.map b.link := rfl
  have hrecords : (s.world.db.settle b).settlements = s.world.db.settlements ++ [b.record] := rfl
  refine ⟨?_, ?_, ?_, ?_⟩
  · rw [hrows, List.map_map]
    refine (List.map_congr_left fun e _ => ?_) ▸ h.ids
    exact link_id.symm
  · rw [hrecords, List.map_append]
    refine List.nodup_append.mpr ⟨h.keys, List.nodup_singleton _, fun i hi j hj heq => hnew ?_⟩
    rw [heq, List.mem_singleton.mp hj] at hi
    exact hi
  · intro r hr
    rcases List.mem_append.mp hr with hr | hr
    · exact h.sequence r hr
    · rw [List.mem_singleton.mp hr]
      exact hnext
  · intro e he i hi
    rw [hrows] at he
    rw [hrecords, List.map_append]
    obtain ⟨e₀, he₀, rfl⟩ := List.mem_map.mp he
    by_cases hid : b.ids.contains e₀.id = true
    · rw [Batch.link, if_pos hid] at hi
      rw [← Option.some.inj hi]
      exact List.mem_append_right _ List.mem_cons_self
    · rw [Batch.link, if_neg hid] at hi
      exact List.mem_append_left _ (h.refers e₀ he₀ i hi)

theorem Stored.outside {s s' : State} (h : Stored s) (ho : Outside s s') : Stored s' := by
  have hids : s'.world.db.settlements.map (·.id) = s.world.db.settlements.map (·.id) :=
    sealed_ids ho.settlements
  refine ⟨ho.ids, hids ▸ h.keys, fun r hr => ?_, fun e he i hi => ?_⟩
  · have hr' : r.id ∈ s.world.db.settlements.map (·.id) := hids ▸ List.mem_map_of_mem hr
    obtain ⟨r₀, hr₀, heq⟩ := List.mem_map.mp hr'
    rw [← heq]
    exact lt_of_lt_of_le (h.sequence r₀ hr₀) ho.next
  · obtain ⟨new, hnew⟩ := ho.rows
    have hlink : (e.id, some i) ∈ s'.world.db.links :=
      List.mem_map.mpr ⟨e, he, by rw [Option.mem_def.mp hi]⟩
    rw [hnew, List.mem_append] at hlink
    rw [hids]
    rcases hlink with hlink | hlink
    · obtain ⟨e₀, he₀, heq⟩ := List.mem_map.mp hlink
      exact h.refers e₀ he₀ i (congrArg Prod.snd heq)
    · obtain ⟨_, _, heq⟩ := List.mem_map.mp hlink
      cases heq

/-- No job gets the id of a record from elsewhere. -/
def Inherits (s t : JobSys ι) : Prop :=
  ∀ k y, t.session k = some y → ∀ i ∈ y.note.record,
    ∃ x, s.session k = some x ∧ i ∈ x.note.record

theorem orderly_inherits (hs : Orderly sha256 s₀ s) (hinherit : Inherits s t)
    (heach : Each (InOrder sha256) t) (hstored : Stored t.shared)
    (hnext : s.shared.nextSettlement ≤ t.shared.nextSettlement)
    (hids : t.shared.world.db.settlements.map (·.id) =
      s.shared.world.db.settlements.map (·.id))
    (hsettlements : t.shared.world.db.settlements.map EmoneySettlement.sealed =
      (s₀.world.db.settlements ++ (batches sha256 t.log).map (·.record)).map
        EmoneySettlement.sealed) : Orderly sha256 s₀ t := by
  refine ⟨heach, hstored, fun k y hy i hi => ?_, fun k y hy i hi => ?_,
    fun j k x y hx hy hne i hi hi' => ?_, hsettlements⟩
  · obtain ⟨x, hx, hi⟩ := hinherit k y hy i hi
    exact lt_of_lt_of_le (hs.below k x hx i hi) hnext
  · obtain ⟨x, hx, hi⟩ := hinherit k y hy i hi
    rw [hids]
    exact hs.new k x hx i hi
  · obtain ⟨x', hx', hi⟩ := hinherit j x hx i hi
    obtain ⟨y', hy', hi'⟩ := hinherit k y hy i hi'
    exact hs.apart j k x' y' hx' hy' hne i hi hi'

/-- The next id of the sequence is nobody else's. -/
theorem orderly_insert {j : ι} {x : Session JobOp JobOp.Ans JobExc Outcome (List Write) Note}
    {r : EmoneySettlement} {a : Id} (hs : Orderly sha256 s₀ s)
    (hw : Went sha256 s t j x (.insertSettlement r) a ws) (heach : Each (InOrder sha256) t) :
    Orderly sha256 s₀ t := by
  have ho : JobOp.insertSettlement r ≠ .commit := nofun
  have hdb := hw.act.db ho
  obtain ⟨ha, hnext⟩ := hw.act.insert
  have hle : s.shared.nextSettlement ≤ t.shared.nextSettlement :=
    hnext ▸ (Int.lt_succ _).le
  have hcases : ∀ k y, t.session k = some y → ∀ i ∈ y.note.record,
      k = j ∧ i = s.shared.nextSettlement ∨ k ≠ j ∧ s.session k = some y := by
    intro k y hy i hi
    rcases hw.after k y hy with ⟨hk, hy⟩ | hy
    · rw [hy] at hi
      exact Or.inl ⟨hk, (Option.some.inj hi).symm.trans ha⟩
    · exact Or.inr hy
  refine ⟨heach, hs.stored.same hdb hle, fun k y hy i hi => ?_, fun k y hy i hi => ?_,
    fun k k' y y' hy hy' hne i hi hi' => ?_, ?_⟩
  · rcases hcases k y hy i hi with ⟨-, rfl⟩ | ⟨-, hy⟩
    · exact hnext ▸ Int.lt_succ _
    · exact lt_of_lt_of_le (hs.below k y hy i hi) hle
  · rw [hdb]
    rcases hcases k y hy i hi with ⟨-, rfl⟩ | ⟨-, hy⟩
    · intro hmem
      obtain ⟨r, hr, heq⟩ := List.mem_map.mp hmem
      exact absurd (hs.stored.sequence r hr) (not_lt.mpr heq.ge)
    · exact hs.new k y hy i hi
  · rcases hcases k y hy i hi with ⟨hk, hi₀⟩ | ⟨hk, hy⟩ <;>
      rcases hcases k' y' hy' i hi' with ⟨hk', hi₁⟩ | ⟨hk', hy'⟩
    · exact hne (hk.trans hk'.symm)
    · exact absurd (hs.below k' y' hy' i hi') (not_lt.mpr hi₀.ge)
    · exact absurd (hs.below k y hy i hi) (not_lt.mpr hi₁.ge)
    · exact hs.apart k k' y y' hy hy' hne i hi hi'
  · rw [hw.log, batches_entries ho, hdb]
    exact hs.settlements

theorem orderly_commit {j : ι} {x : Session JobOp JobOp.Ans JobExc Outcome (List Write) Note}
    {a : Unit} (hs : Orderly sha256 s₀ s) (hw : Went sha256 s t j x .commit a ws)
    (heach : Each (InOrder sha256) t) : Orderly sha256 s₀ t := by
  obtain ⟨i, hi, hshared⟩ := commit_settles hw.allow (hs.each j x hw.session) hw.act
  have hothers : ∀ k y, t.session k = some y → ∀ i ∈ y.note.record,
      k ≠ j ∧ s.session k = some y := by
    intro k y hy i' hi'
    rcases hw.after k y hy with ⟨-, hy⟩ | hy
    · rw [hy] at hi'
      cases hi'
    · exact hy
  have hrecords : t.shared.world.db.settlements =
      s.shared.world.db.settlements ++ [x.note.draft.record sha256 i] := by
    rw [hshared]
    rfl
  refine ⟨heach, ?_, fun k y hy i' hi' => ?_, fun k y hy i' hi' hmem => ?_,
    fun k k' y y' hy hy' hne i' hi' => ?_, ?_⟩
  · rw [hshared]
    exact hs.stored.settle (hs.below j x hw.session i hi) (hs.new j x hw.session i hi)
  · rw [hshared]
    exact hs.below k y (hothers k y hy i' hi').2 i' hi'
  · obtain ⟨hk, hy⟩ := hothers k y hy i' hi'
    rw [hrecords, List.map_append] at hmem
    rcases List.mem_append.mp hmem with hmem | hmem
    · exact hs.new k y hy i' hi' hmem
    · rw [List.mem_singleton.mp hmem] at hi'
      exact hs.apart j k x y hw.session hy hk.symm i hi hi'
  · obtain ⟨hk, hy⟩ := hothers k y hy i' hi'
    exact fun hi'' => hs.apart k k' y y' hy (hothers k' y' hy' i' hi'').2 hne i' hi' hi''
  · rw [hw.log, batches_commit hi, hrecords, List.map_append, hs.settlements]
    simp only [List.map_append, List.append_assoc]
    rfl

theorem orderly_step [DecidableEq ι] (h : Step (jobs sha256) s l t)
    (hkeep : InProtocol (jobs sha256) s) (hs : Orderly sha256 s₀ s) : Orderly sha256 s₀ t := by
  have heach := inOrder_step h hkeep hs.each
  cases move_of_step h hkeep with
  | idle hshared hlog hafter =>
    refine orderly_inherits hs (fun k y hy i hi => ?_) heach (hshared ▸ hs.stored) ?_ ?_ ?_
    · rcases hafter k y hy with hy | hy
      · exact ⟨y, hy, hi⟩
      · rw [hy] at hi
        cases hi
    · rw [hshared]
    · rw [hshared]
    · rw [hshared, hlog]
      exact hs.settlements
  | outside ho hlog hsession =>
    refine orderly_inherits hs (fun k y hy i hi => ⟨y, hsession ▸ hy, hi⟩) heach
      (hs.stored.outside ho) ho.next (sealed_ids ho.settlements) ?_
    rw [hlog]
    exact ho.settlements.trans hs.settlements
  | @failed t j x o hf =>
    have hdb := hf.fails.db
    have hnext := hf.fails.next
    refine orderly_inherits hs (fun k y hy i hi => ⟨y, (hf.after k y hy).2, hi⟩) heach
      (hs.stored.same hdb hnext) hnext (congrArg (fun db => db.settlements.map (·.id)) hdb) ?_
    rw [hf.log, batches_failed, hdb]
    exact hs.settlements
  | @went t j x o a ws hw =>
    by_cases hcommit : o = .commit
    · subst hcommit
      exact orderly_commit hs hw heach
    · have hdb := hw.act.db hcommit
      by_cases hinsert : ∃ r, o = .insertSettlement r
      · obtain ⟨r, rfl⟩ := hinsert
        exact orderly_insert hs hw heach
      · have hnext := hw.act.next fun r hr => hinsert ⟨r, hr⟩
        refine orderly_inherits hs (fun k y hy i hi => ?_) heach (hs.stored.same hdb hnext.ge)
          hnext.ge (congrArg (fun db => db.settlements.map (·.id)) hdb) ?_
        · rcases hw.after k y hy with ⟨rfl, hy⟩ | ⟨-, hy⟩
          · rw [hy, next_record hcommit fun r hr => hinsert ⟨r, hr⟩] at hi
            exact ⟨x, hw.session, hi⟩
          · exact ⟨y, hy, hi⟩
        · rw [hw.log, batches_entries hcommit, hdb]
          exact hs.settlements

theorem quiet_orderly (h : s.Quiet) (hstored : Stored s.shared) :
    Orderly sha256 s.shared s := by
  have hnone : ∀ {j x}, s.session j ≠ some x := fun hj => by simp [h.1] at hj
  have hlog : batches sha256 s.log = [] := by rw [h.2]; rfl
  refine ⟨h.each, hstored, fun _ _ hj => absurd hj hnone, fun _ _ hj => absurd hj hnone,
    fun _ _ _ _ hj => absurd hj hnone, ?_⟩
  rw [hlog, List.map_nil, List.append_nil]

end Orderly

section Night

/-- The desk of the night, before any job. -/
def night (ι : Type) : JobSys ι where
  shared := nightDesk

theorem night_stored : Stored nightDesk := ⟨by decide, by decide, by decide, by decide⟩

def aloneTurns : List (JobTurn Unit) :=
  JobTurn.job id () ⟨true⟩ :: List.replicate 16 (.go ())

def aloneRun : List (Label Unit JobOp × JobSys Unit) :=
  takeTurns (jobs id) perform (night Unit) aloneTurns

theorem alone_night_path : Path (Step (jobs id)) (night Unit) aloneRun := by
  refine perform_path (fun j p ws g h => ?_) fun f h => ?_
  · simp [aloneTurns, JobTurn.job] at h
    obtain ⟨rfl, rfl, rfl⟩ := h
    exact ⟨⟨_, rfl⟩, rfl, rfl⟩
  · simp [aloneTurns, JobTurn.job] at h

end Night
end ParkIt.Settlement
