import ParkIt.Snapshots.Worker

/-! Which file the snapshot of a camera refers to, and which jobs leave a snapshot behind. -/
namespace ParkIt.Snapshots

open Effects Sessions Transition

section Following
variable {place : String → String} {g : JobNote} {a : SnapshotArgs} {filename filepath : String}
  {fileSize : Nat}

theorem settled_unsaved (h : g.saved = none) : g.Settled := fun hsaved => absurd h hsaved

theorem settled_refused (h : g.refused = true) : g.Settled := fun _ => .inr (.inl h)

/-- An exception either keeps the job from recording its snapshot, or comes after that. -/
theorem settled_error (s : Statement) (e : DbFailure) : (g.answered s (.error e)).Settled := by
  intro _
  cases s <;> cases e <;> simp [JobNote.answered]

theorem follows_execute {s : Statement} {post : JobNote → s.Val → Prop}
    (hallow : g.allow (.db s)) (hpost : ∀ v, post (g.answered s (.ok v)) v) :
    Follows jobRules g (execute s) post fun g' _ => g'.Settled := by
  refine ⟨hallow, fun answer _ => ?_⟩
  cases answer with
  | ok v => exact hpost v
  | error e => exact settled_error s e

theorem follows_enqueueJobs (jobs : List Job) :
    Follows jobRules g (enqueueJobs jobs) (fun g' _ => g' = g) fun g' _ => g' = g := by
  induction jobs with
  | nil => rfl
  | cons job jobs ih =>
    refine ⟨trivial, fun done _ => ?_⟩
    cases done with
    | true => exact ih
    | false => rfl

theorem follows_enqueueSnapshotsForGate (gateCode : String) (transactionId : Id)
    (snapshotType : String) :
    Follows jobRules {} (enqueueSnapshotsForGate gateCode transactionId snapshotType)
      (fun g' _ => g'.Settled) fun g' _ => g'.Settled := by
  refine follows_handle.mpr (follows_bind.mpr (follows_execute trivial fun gate => ?_))
  cases gate with
  | none => exact settled_unsaved rfl
  | some gate =>
    refine (follows_enqueueJobs _).mono ?_ ?_
    · rintro _ _ rfl
      exact settled_unsaved rfl
    · rintro _ _ rfl
      exact settled_unsaved rfl

theorem follows_imageData (h : g.saved = none) :
    Follows jobRules g (imageData a) (fun g' image => g' = { g with image }) fun _ _ => False := by
  refine ⟨h, fun mock _ => ?_⟩
  cases mock with
  | true => rfl
  | false =>
    refine follows_ite (fun _ => ?_) fun _ => ?_
    · exact ⟨h, fun _ _ => rfl⟩
    · exact ⟨h, fun _ _ => rfl⟩

theorem follows_linkOf :
    Follows jobRules g (linkOf a) (fun g' _ => g' = g) fun g' _ => g'.Settled := by
  unfold linkOf
  split
  · rfl
  · exact follows_bind.mpr (follows_execute trivial fun _ => rfl)

theorem follows_saveSnapshotRecord (hargs : g.args = some a) (hsaved : g.saved = some filepath) :
    Follows jobRules g (saveSnapshotRecord a filename filepath fileSize)
      (fun g' _ => g'.Settled) fun g' _ => g'.Settled := by
  refine follows_handle.mpr (follows_bind.mpr (follows_execute trivial fun gate => ?_))
  cases gate with
  | none => exact settled_refused rfl
  | some gate =>
    refine follows_bind.mpr (follows_execute trivial fun id => ?_)
    refine follows_linkOf.bind (fun _ _ h => h) ?_
    rintro _ link rfl
    refine follows_bind.mpr (follows_execute ⟨a, hargs, rfl, rfl, hsaved⟩ fun _ => ?_)
    exact fun _ => .inl rfl

theorem follows_takeSnapshot {id : Id} (h : g = { args := some a })
    (hid : a.transactionId = some id) :
    Follows jobRules g (takeSnapshot place a) (fun g' _ => g'.Settled) fun g' _ => g'.Settled := by
  subst h
  refine (follows_imageData rfl).bind (fun _ _ h => h.elim) ?_
  rintro _ image rfl
  cases image with
  | none => exact settled_unsaved rfl
  | some image =>
    refine ⟨trivial, fun timestamp _ => ⟨⟨⟨a, id, rfl, hid⟩, rfl, rfl, rfl, rfl, rfl⟩, ?_⟩⟩
    rintro (text | u) -
    · exact settled_unsaved rfl
    · refine (follows_saveSnapshotRecord rfl rfl).bind (fun _ _ h => h) fun g' id h => ?_
      dsimp only
      split
      · exact h
      · exact ⟨trivial, fun _ _ => h⟩

theorem follows_work : Follows jobRules {} (SnapshotCall.work.code place)
    (fun g' _ => g'.Settled) fun g' _ => g'.Settled := by
  refine follows_bind.mpr (follows_perform.mpr ⟨rfl, fun job _ => ?_⟩)
  change Follows jobRules { args := snapshotArgs job } _ _ _
  cases job with
  | printReceipt gateId data jobId => exact settled_unsaved rfl
  | takeSnapshot gateId camera transactionId snapshotType jobId =>
    exact follows_bind.mpr (follows_takeSnapshot rfl rfl)

/-- A job comes back once it has recorded its snapshot, or has been kept from that. -/
theorem follows_code (c : SnapshotCall) :
    Follows jobRules {} (c.code place) (fun g' _ => g'.Settled) fun _ _ => True := by
  have hcode : Follows jobRules {} (c.code place) (fun g' _ => g'.Settled)
      fun g' _ => g'.Settled := by
    cases c with
    | enqueue gateCode transactionId snapshotType => exact follows_enqueueSnapshotsForGate _ _ _
    | work => exact follows_work
  exact hcode.mono (fun _ _ h => h) fun _ _ _ => trivial

end Following

abbrev SnapshotSys (ι : Type) :=
  Sys ι SnapshotOp SnapshotOp.Ans SnapshotExc Unit World Unit JobNote Entry

abbrev SnapshotSession := Session SnapshotOp SnapshotOp.Ans SnapshotExc Unit Unit JobNote

/-- The row is on record, with the image of its job in its file. -/
def Entry.Proves (w : World) (r : Id × Snapshot) : Entry → Prop
  | .recorded (some a) (some image) id snapshot =>
    (id, snapshot) = r ∧ snapshot.parkingTransactionId = a.transactionId ∧
      snapshot.cameraName = a.cameraLabel ∧ w.files snapshot.filePath = some image
  | _ => False

/-- The row is one that the job has recorded for its transaction. -/
def JobNote.Recorded (g : JobNote) (log : List Entry) (r : Id × Snapshot) : Prop :=
  .recorded g.args g.image r.1 r.2 ∈ log ∧ g.saved = some r.2.filePath ∧
    ∃ a ∈ g.args, ∃ id ∈ a.transactionId, r.2.parkingTransactionId = some id

/-- Every row refers to a file with the image that its job has captured, no row's file is written to
again, and a job that has saved its image does not end without a row. -/
def Kept {ι : Type} (s : SnapshotSys ι) (l : Label ι SnapshotOp) (t : SnapshotSys ι) : Prop :=
  (∀ r ∈ t.shared.rows, ∃ e ∈ t.log, e.Proves t.shared r) ∧
    match l with
    | .go _ (.writeBytes path _) => ∀ r ∈ s.shared.rows, r.2.filePath ≠ path
    | .stop j => ∀ x ∈ s.session j, x.note.saved ≠ none →
        ∃ r ∈ s.shared.rows, x.note.Recorded s.log r
    | _ => True

/-- The statement finds the gate, or the transaction, that it needs. -/
def Statement.Finds (w : World) : Statement → Prop
  | .selectGate code => ∃ gate ∈ w.gates, gate.code = code
  | .insert snapshot => w.Refers snapshot
  | _ => True

def returned : Work Unit → Bool
  | .pure _ => true
  | _ => false

/-- No image is written to a file that one has been saved to, the statements of a job that has saved
its image find what they need and do not raise, and such a job is not stopped before it returns. -/
def Orderly {ι : Type} (s : SnapshotSys ι) (l : Label ι SnapshotOp) (t : SnapshotSys ι) : Prop :=
  match l with
  | .go _ (.writeBytes path _) => .saved path ∉ s.log
  | .go j (.db statement) => ∀ y ∈ t.session j, y.note.saved ≠ none →
      statement.Finds s.shared ∧ y.note.failed = false
  | .stop j => ∀ x ∈ s.session j, x.note.saved ≠ none → returned x.rest = true
  | _ => True

instance (w : World) (statement : Statement) : Decidable (statement.Finds w) := by
  unfold Statement.Finds
  split <;> infer_instance

instance {ι : Type} (s : SnapshotSys ι) (l : Label ι SnapshotOp) (t : SnapshotSys ι) :
    Decidable (Orderly s l t) := by
  unfold Orderly
  split <;> infer_instance

instance (w : World) (r : Id × Snapshot) (e : Entry) : Decidable (e.Proves w r) := by
  unfold Entry.Proves
  split <;> infer_instance

instance (g : JobNote) (log : List Entry) (r : Id × Snapshot) : Decidable (g.Recorded log r) := by
  unfold JobNote.Recorded
  infer_instance

instance {ι : Type} (s : SnapshotSys ι) (l : Label ι SnapshotOp) (t : SnapshotSys ι) :
    Decidable (Kept s l t) := by
  unfold Kept
  refine @instDecidableAnd _ _ ?_ ?_
  · infer_instance
  · split <;> infer_instance

section Runs
variable {ι : Type} {place : String → String} {s t : SnapshotSys ι} {l : Label ι SnapshotOp} {j : ι}
  {x y : SnapshotSession} {path : String}

/-- What is saved and recorded stays as it is. -/
structure Spares (s t : SnapshotSys ι) : Prop where
  log : s.log ⊆ t.log
  rows : s.shared.rows ⊆ t.shared.rows
  files : ∀ path, .saved path ∈ s.log → t.shared.files path = s.shared.files path

/-- The job has saved its image to the file. -/
structure Saved (s : SnapshotSys ι) (g : JobNote) (path : String) : Prop where
  logged : .saved path ∈ s.log
  stored : ∃ image, g.image = some image ∧ s.shared.files path = some image
  linked : ∃ a id, g.args = some a ∧ a.transactionId = some id
  refused : g.refused = false
  failed : g.failed = false
  recorded : g.recorded = true → ∃ r ∈ s.shared.rows, g.Recorded s.log r

variable (place) in
structure Sound (s : SnapshotSys ι) : Prop where
  promises : Promises (snapshotJobsMachine place) (fun g _ => g.Settled) s
  jobs : ∀ j x, s.session j = some x → ∀ path, x.note.saved = some path → Saved s x.note path
  rows : ∀ r ∈ s.shared.rows,
    .saved r.2.filePath ∈ s.log ∧ ∃ e ∈ s.log, e.Proves s.shared r

theorem Saved.spared {g : JobNote} (h : Saved s g path) (hst : Spares s t) : Saved t g path := by
  obtain ⟨image, himage, hfile⟩ := h.stored
  refine ⟨hst.log h.logged, ⟨image, himage, ?_⟩, h.linked, h.refused, h.failed, fun hg => ?_⟩
  · rw [hst.files path h.logged]
    exact hfile
  · obtain ⟨r, hr, hlog, hrest⟩ := h.recorded hg
    exact ⟨r, hst.rows hr, hst.log hlog, hrest⟩

theorem proves_iff {w : World} {e : Entry} {r : Id × Snapshot} :
    e.Proves w r ↔ ∃ a image, e = .recorded (some a) (some image) r.1 r.2 ∧
      r.2.parkingTransactionId = a.transactionId ∧ r.2.cameraName = a.cameraLabel ∧
      w.files r.2.filePath = some image := by
  constructor
  · intro h
    unfold Entry.Proves at h
    split at h
    · obtain ⟨rfl, hrest⟩ := h
      exact ⟨_, _, rfl, hrest⟩
    · exact h.elim
  · rintro ⟨a, image, rfl, hrest⟩
    exact ⟨rfl, hrest⟩

theorem proves_spared {e : Entry} {r : Id × Snapshot} (h : e.Proves s.shared r)
    (hst : Spares s t) (hsaved : .saved r.2.filePath ∈ s.log) : e.Proves t.shared r := by
  obtain ⟨a, image, he, htx, hcamera, hfile⟩ := proves_iff.mp h
  exact proves_iff.mpr ⟨a, image, he, htx, hcamera, (hst.files _ hsaved).trans hfile⟩

section Statements
variable {w w' : World} {statement : Statement} {a : Except DbFailure statement.Val} {g : JobNote}

/-- What a statement can raise, and what it leaves behind then. -/
theorem answers_error {e : DbFailure} (h : w.Answers statement (.error e) w') :
    (∃ text, e = .other text ∧ w' = w) ∨
    (∃ snapshot, statement = .insert snapshot ∧ e = .foreignKey ∧ ¬ w.Refers snapshot ∧
      w' = w.numbered) ∨
    ∃ id snapshot link, statement = .commit id snapshot link ∧ e = .lost ∧
      w' = w.committed id snapshot link := by
  cases e with
  | other text => exact .inl ⟨text, rfl, by cases statement <;> exact h⟩
  | foreignKey =>
    cases statement with
    | insert snapshot => exact .inr (.inl ⟨snapshot, rfl, rfl, h.1, h.2⟩)
    | _ => exact h.elim
  | lost =>
    cases statement with
    | commit id snapshot link => exact .inr (.inr ⟨id, snapshot, link, rfl, rfl, h⟩)
    | _ => exact h.elim

/-- A statement changes no row and no file, or it commits a snapshot. -/
theorem answers_same (h : w.Answers statement a w') :
    (w'.rows = w.rows ∧ w'.files = w.files) ∨
    ∃ id snapshot link, statement = .commit id snapshot link ∧ w' = w.committed id snapshot link ∧
      entries g (.db statement) (some a) = [.recorded g.args g.image id snapshot] := by
  have hsame : w' = w → w'.rows = w.rows ∧ w'.files = w.files := by
    rintro rfl
    exact ⟨rfl, rfl⟩
  have hnumbered : w' = w.numbered → w'.rows = w.rows ∧ w'.files = w.files := by
    rintro rfl
    exact ⟨rfl, rfl⟩
  cases a with
  | error e =>
    rcases answers_error h with ⟨text, -, hw⟩ | ⟨snapshot, -, -, -, hw⟩ |
      ⟨id, snapshot, link, rfl, rfl, hw⟩
    · exact .inl (hsame hw)
    · exact .inl (hnumbered hw)
    · exact .inr ⟨id, snapshot, link, rfl, hw, rfl⟩
  | ok v =>
    cases statement with
    | selectGate code => exact .inl (hsame h.2)
    | insert snapshot => exact .inl (hnumbered h.2.2)
    | getTransaction id => exact .inl (hsame h.2)
    | commit id snapshot link => exact .inr ⟨id, snapshot, link, rfl, h, rfl⟩

/-- A job that finds what it asks for goes on where no statement raises. -/
theorem answered_found (h : w.Answers statement a w') (hfinds : statement.Finds w)
    (hok : (g.answered statement a).failed = false)
    (hcommit : ∀ id snapshot link, statement ≠ .commit id snapshot link) :
    g.answered statement a = g := by
  cases a with
  | error e =>
    rcases answers_error h with ⟨text, rfl, -⟩ | ⟨snapshot, rfl, rfl, hrefers, -⟩ |
      ⟨id, snapshot, link, rfl, -, -⟩
    · cases statement <;> cases hok
    · exact absurd hfinds hrefers
    · exact absurd rfl (hcommit id snapshot link)
  | ok v =>
    cases statement with
    | selectGate code =>
      cases v with
      | none =>
        obtain ⟨gate, hgate, hcode⟩ := hfinds
        exact absurd (decide_eq_true hcode) (List.find?_eq_none.mp h.1.symm gate hgate)
      | some gate => rfl
    | insert snapshot | getTransaction id => rfl
    | commit id snapshot link => exact absurd rfl (hcommit id snapshot link)

/-- A commit that does not raise takes effect. -/
theorem commit_takes {id : Id} {snapshot : Snapshot} {link : Option (Id × TxLink)}
    {a : Except DbFailure Unit} (h : w.Answers (.commit id snapshot link) a w')
    (hok : (g.answered (.commit id snapshot link) a).failed = false) :
    w' = w.committed id snapshot link ∧
      g.answered (.commit id snapshot link) a = { g with recorded := true } ∧
      entries g (.db (.commit id snapshot link)) (some a) =
        [.recorded g.args g.image id snapshot] := by
  cases a with
  | ok u => exact ⟨h, rfl, rfl⟩
  | error e =>
    cases e with
    | lost => exact ⟨h, rfl, rfl⟩
    | other text => cases hok
    | foreignKey => exact h.elim

end Statements

section Operations
variable {w w' : World} {o : SnapshotOp} {a : o.Ans}

/-- Only statements and writes change the rows and the files. -/
theorem acts_other (h : w.Acts o a w') (hdb : ∀ statement, o ≠ .db statement)
    (hwrite : ∀ path data, o ≠ .writeBytes path data) :
    w'.rows = w.rows ∧ w'.files = w.files := by
  cases o with
  | db statement => exact absurd rfl (hdb statement)
  | writeBytes path data => exact absurd rfl (hwrite path data)
  | enqueue job =>
    rcases h with rfl | ⟨gateId, camera, id, kind, jobId, -, rfl⟩
    · exact ⟨rfl, rfl⟩
    · unfold World.enqueued
      split <;> exact ⟨rfl, rfl⟩
  | nextJob => rcases h.2 with rfl | rfl <;> exact ⟨rfl, rfl⟩
  | mockHardware | captureRtsp _ | downloadHttp _ _ _ _ | timestamp | broadcastExit _ _ =>
    obtain rfl : w' = w := h
    exact ⟨rfl, rfl⟩

/-- A write leaves something in its file, whether it raises or not. -/
theorem acts_write {path : String} {data : Image} {a : Except String Unit}
    (h : w.Acts (.writeBytes path data) a w') : ∃ left, w' = w.written path left := by
  cases a with
  | ok u => exact ⟨some data, h⟩
  | error text => exact h

/-- Only a statement changes the rows. -/
theorem acts_rows (h : w.Acts o a w') (hne : ∀ statement, o ≠ .db statement) :
    w'.rows = w.rows := by
  by_cases hwrite : ∃ path data, o = .writeBytes path data
  · obtain ⟨path, data, rfl⟩ := hwrite
    obtain ⟨left, rfl⟩ := acts_write h
    rfl
  · exact (acts_other h hne fun path data ho => hwrite ⟨path, data, ho⟩).1

/-- Only a write to the file changes it. -/
theorem acts_files {path : String} (h : w.Acts o a w') (hne : ∀ data, o ≠ .writeBytes path data) :
    w'.files path = w.files path := by
  by_cases hdb : ∃ statement, o = .db statement
  · obtain ⟨statement, rfl⟩ := hdb
    rcases answers_same (g := {}) h with ⟨-, hfiles⟩ | ⟨id, snapshot, link, -, rfl, -⟩
    · rw [hfiles]
    · rfl
  by_cases hwrite : ∃ p data, o = .writeBytes p data
  · obtain ⟨p, data, rfl⟩ := hwrite
    obtain ⟨left, rfl⟩ := acts_write h
    refine Function.update_of_ne ?_ ..
    rintro rfl
    exact hne data rfl
  · rw [(acts_other h (fun statement ho => hdb ⟨statement, ho⟩)
      fun p data ho => hwrite ⟨p, data, ho⟩).2]

/-- No row is lost. -/
theorem acts_keep (h : w.Acts o a w') : w.rows ⊆ w'.rows := by
  by_cases hdb : ∃ statement, o = .db statement
  · obtain ⟨statement, rfl⟩ := hdb
    rcases answers_same (g := {}) h with ⟨hrows, -⟩ | ⟨id, snapshot, link, -, rfl, -⟩
    · rw [hrows]
      exact List.Subset.refl _
    · exact List.subset_append_left _ _
  · rw [acts_rows h fun statement ho => hdb ⟨statement, ho⟩]
    exact List.Subset.refl _

end Operations

section Steps
variable [DecidableEq ι]

theorem spares_step (h : Step (snapshotJobsMachine place) s l t) (ho : Orderly s l t) :
    Spares s t := by
  have hlog := log_mono h
  cases h with
  | start _ _ | stop _ => exact ⟨hlog, List.Subset.refl _, fun _ _ => rfl⟩
  | go hj hact =>
    refine ⟨hlog, acts_keep hact, fun path hpath => acts_files hact ?_⟩
    rintro data rfl
    exact ho hpath
  | fail _ hfails =>
    obtain ⟨-, -, rfl⟩ := hfails
    exact ⟨hlog, List.Subset.refl _, fun _ _ => rfl⟩
  | during hj hduring =>
    obtain ⟨p, data, left, rfl, rfl⟩ := hduring
    refine ⟨hlog, List.Subset.refl _, fun path hpath => Function.update_of_ne ?_ ..⟩
    rintro rfl
    exact ho hpath
  | outside hout =>
    obtain ⟨gates, transactions, nextId, jobIds, rfl, -⟩ := hout
    exact ⟨hlog, List.Subset.refl _, fun _ _ => rfl⟩

/-- A job that has saved its image keeps it, whatever statement it executes. -/
theorem answered_saved {statement : Statement} {a : Except DbFailure statement.Val}
    (g : JobNote) : (g.answered statement a).saved = g.saved := by
  unfold JobNote.answered
  split <;> rfl

omit [DecidableEq ι] in
theorem saved_db {statement : Statement} {a : Except DbFailure statement.Val}
    (hs : Sound place s) (ht : Took (snapshotJobsMachine place) s t j (.db statement) a x y)
    (ho : Orderly s (.go j (.db statement)) t) (hst : Spares s t)
    (hpath : y.note.saved = some path) : Saved t y.note path := by
  have hnote : y.note = x.note.answered statement a := ht.note
  have hx : Saved s x.note path := hs.jobs j x ht.before path (by
    rw [← hpath, hnote, answered_saved])
  obtain ⟨hfinds, hok⟩ := ho y ht.after (by rw [hpath]; exact Option.some_ne_none path)
  rw [hnote] at hok
  by_cases hcommit : ∃ id snapshot link, statement = .commit id snapshot link
  · obtain ⟨id, snapshot, link, rfl⟩ := hcommit
    obtain ⟨hw, hanswered, hentries⟩ := commit_takes ht.act hok
    obtain ⟨a', hargs, htx, -, hfile⟩ : x.note.Owns snapshot := ht.allow hs.promises
    obtain ⟨_, id', hargs', hid⟩ := hx.linked
    obtain rfl := Option.some.inj (hargs.symm.trans hargs')
    have ht' : Saved t x.note path := hx.spared hst
    rw [hnote, hanswered]
    refine ⟨ht'.logged, ht'.stored, ht'.linked, ht'.refused, ht'.failed, fun _ => ?_⟩
    refine ⟨(id, snapshot), ?_, ?_, hfile, a', hargs, id', hid, htx.trans hid⟩
    · rw [hw]
      exact List.mem_append_right _ List.mem_cons_self
    · have hlast : .recorded x.note.args x.note.image id snapshot ∈
          entries x.note (.db (.commit id snapshot link)) (some a) := by
        rw [hentries]
        exact List.mem_cons_self
      rw [ht.log]
      exact List.mem_append_right _ hlast
  · have hsame : x.note.answered statement a = x.note := by
      refine answered_found ht.act hfinds hok fun id snapshot link h => ?_
      exact hcommit ⟨id, snapshot, link, h⟩
    rw [hnote, hsame]
    exact hx.spared hst

omit [DecidableEq ι] in
theorem saved_took {o : SnapshotOp} {a : o.Ans} (hs : Sound place s)
    (ht : Took (snapshotJobsMachine place) s t j o a x y) (ho : Orderly s (.go j o) t)
    (hst : Spares s t) (hpath : y.note.saved = some path) : Saved t y.note path := by
  have hallow : x.note.allow o := ht.allow hs.promises
  have hnote : y.note = x.note.next o a := ht.note
  have hsame : x.note.next o a = x.note → Saved t y.note path := by
    intro hsame
    rw [hnote, hsame] at hpath ⊢
    exact (hs.jobs j x ht.before path hpath).spared hst
  cases o with
  | db statement => exact saved_db hs ht ho hst hpath
  | enqueue _ | timestamp | broadcastExit _ _ => exact hsame rfl
  | nextJob =>
    have hnone : y.note.saved = none := by
      rw [hnote, (hallow : x.note = {})]
      rfl
    cases hnone.symm.trans hpath
  | mockHardware =>
    have hnone : y.note.saved = none := by
      rw [hnote]
      cases a <;> exact hallow
    cases hnone.symm.trans hpath
  | captureRtsp _ | downloadHttp _ _ _ _ =>
    have hnone : y.note.saved = none := by
      rw [hnote]
      exact hallow
    cases hnone.symm.trans hpath
  | writeBytes p data =>
    obtain ⟨hargs, himage, hunsaved, hrecorded, hrefused, hfailed⟩ := hallow
    cases a with
    | error text =>
      rw [hnote] at hpath
      cases hunsaved.symm.trans hpath
    | ok u =>
      obtain rfl : p = path := by
        rw [hnote] at hpath
        exact Option.some.inj hpath
      have hw : t.shared = s.shared.written p (some data) := ht.act
      rw [hnote]
      refine ⟨?_, ⟨data, himage, ?_⟩, hargs, hrefused, hfailed, fun h => ?_⟩
      · exact ht.log ▸ List.mem_append_right _ List.mem_cons_self
      · rw [hw]
        exact Function.update_self ..
      · cases hrecorded.symm.trans h

omit [DecidableEq ι] in
/-- A new row has the image of its job in its file. -/
theorem proves_new {w w' : World} {id : Id} {snapshot : Snapshot} {link : Option (Id × TxLink)}
    {g : JobNote} {log : List Entry} (howns : g.Owns snapshot)
    (hsaved : ∀ path, g.saved = some path → ∃ image, g.image = some image ∧
      w.files path = some image) (hw : w' = w.committed id snapshot link)
    (hlog : .recorded g.args g.image id snapshot ∈ log) :
    ∃ e ∈ log, e.Proves w' (id, snapshot) := by
  obtain ⟨a, hargs, htx, hcamera, hpath⟩ := howns
  obtain ⟨image, himage, hfile⟩ := hsaved _ hpath
  rw [hargs, himage] at hlog
  exact ⟨_, hlog, proves_iff.mpr ⟨a, image, rfl, htx, hcamera, hw ▸ hfile⟩⟩

/-- Where a row comes from. -/
theorem rows_back {r : Id × Snapshot} (h : Step (snapshotJobsMachine place) s l t)
    (hr : r ∈ t.shared.rows) : r ∈ s.shared.rows ∨
      ∃ j x y link a, Took (snapshotJobsMachine place) s t j (.db (.commit r.1 r.2 link)) a x y ∧
        t.shared = s.shared.committed r.1 r.2 link ∧
        .recorded x.note.args x.note.image r.1 r.2 ∈ t.log := by
  cases h with
  | start _ _ | stop _ => exact .inl hr
  | fail _ hfails =>
    obtain ⟨-, -, rfl⟩ := hfails
    exact .inl hr
  | during _ hduring =>
    obtain ⟨p, data, left, -, rfl⟩ := hduring
    exact .inl hr
  | outside hout =>
    obtain ⟨gates, transactions, nextId, jobIds, rfl, -⟩ := hout
    exact .inl hr
  | @go j o k own note a sh own' hj hact =>
    by_cases hdb : ∃ statement, o = .db statement
    · obtain ⟨statement, rfl⟩ := hdb
      rcases answers_same (g := note) hact with ⟨hrows, -⟩ |
        ⟨id, snapshot, link, rfl, hw, hentries⟩
      · exact .inl (hrows ▸ hr)
      · have hrow : r ∈ s.shared.rows ++ [(id, snapshot)] := by
          rw [hw] at hr
          exact hr
        rcases List.mem_append.mp hrow with hr | hr
        · exact .inl hr
        · obtain rfl := List.mem_singleton.mp hr
          refine .inr ⟨j, _, _, link, a, ⟨hj, ⟨_, rfl, rfl⟩, hact, session_set_self,
            fun _ hne => Function.update_of_ne hne .., rfl, rfl⟩, hw, ?_⟩
          have hlast : .recorded note.args note.image id snapshot ∈
              entries note (.db (.commit id snapshot link)) (some a) := by
            rw [hentries]
            exact List.mem_cons_self
          exact List.mem_append_right _ hlast
    · have hrows := acts_rows hact fun statement ho => hdb ⟨statement, ho⟩
      exact .inl (hrows ▸ hr)

theorem sound_step (h : Step (snapshotJobsMachine place) s l t) (ho : Orderly s l t)
    (hs : Sound place s) : Sound place t := by
  have hst := spares_step h ho
  refine ⟨?_, ?_, ?_⟩
  · refine promises_step h ?_ (fun _ _ _ _ _ _ _ _ => trivial) hs.promises
    rintro p own note ⟨⟨c, rfl⟩, rfl⟩
    exact follows_code c
  · intro k y hy path hpath
    rcases session_back h hy with hy | ⟨-, -, -, hnote⟩ | ⟨o, a, x, rfl, ht⟩
    · exact (hs.jobs k y hy path hpath).spared hst
    · rw [hnote] at hpath
      cases hpath
    · exact saved_took hs ht ho hst hpath
  · intro r hr
    rcases rows_back h hr with hr | ⟨j, x, y, link, a, ht, hw, hlog⟩
    · obtain ⟨hlogged, e, he, hproves⟩ := hs.rows r hr
      exact ⟨hst.log hlogged, e, hst.log he, proves_spared hproves hst hlogged⟩
    · have howns : x.note.Owns r.2 := ht.allow hs.promises
      have hjob := hs.jobs j x ht.before
      obtain ⟨-, -, -, -, hpath⟩ := id howns
      exact ⟨hst.log (hjob _ hpath).logged,
        proves_new howns (fun path hpath => (hjob path hpath).stored) hw hlog⟩

omit [DecidableEq ι] in
/-- A job that returns after it has saved its image has recorded it. -/
theorem recorded_returned (hs : Sound place s) (hx : s.session j = some x)
    (hsaved : x.note.saved ≠ none) (hreturned : returned x.rest = true) :
    ∃ r ∈ s.shared.rows, x.note.Recorded s.log r := by
  obtain ⟨path, hpath⟩ := Option.ne_none_iff_exists'.mp hsaved
  have hjob : Saved s x.note path := hs.jobs j x hx path hpath
  have hfollows := hs.promises j x hx
  cases hrest : x.rest with
  | pure u =>
    rw [hrest] at hfollows
    have hsettled : x.note.Settled := hfollows
    rcases hsettled hsaved with hrecorded | hrefused | hfailed
    · exact hjob.recorded hrecorded
    · cases hjob.refused.symm.trans hrefused
    · cases hjob.failed.symm.trans hfailed
  | throw e => simp [hrest, returned] at hreturned
  | call o k => simp [hrest, returned] at hreturned

theorem kept_step (h : Step (snapshotJobsMachine place) s l t) (ho : Orderly s l t)
    (hs : Sound place s) : Kept s l t := by
  refine ⟨fun r hr => ((sound_step h ho hs).rows r hr).2, ?_⟩
  cases l with
  | start j | outside => trivial
  | stop j => exact fun x hx hsaved => recorded_returned hs hx hsaved (ho x hx hsaved)
  | go j o =>
    cases o with
    | writeBytes path data =>
      rintro r hr rfl
      exact ho (hs.rows r hr).1
    | _ => trivial

/-- In a run that keeps to the order, every snapshot shows what its camera has captured, and no
image that has been saved is lost. -/
theorem snapshots_kept {xs : List (Label ι SnapshotOp × SnapshotSys ι)}
    (h : Path (Step (snapshotJobsMachine place)) s xs) (hquiet : s.Quiet)
    (hrows : s.shared.rows = []) (ho : Path Orderly s xs) : Path Kept s xs := by
  have hstart : Sound place s := by
    refine ⟨hquiet.promises, fun j x hx => ?_, fun r hr => ?_⟩
    · rw [hquiet.1 j] at hx
      cases hx
    · rw [hrows] at hr
      cases hr
  exact (h.and ho).each (fun _ _ _ h hs => sound_step h.1 h.2 hs)
    (fun _ _ _ h hs => kept_step h.1 h.2 hs) hstart

end Steps

section Schedules

/-- A worker of which no statement, download or write fails. -/
def steadyPerform (o : SnapshotOp) (w : World) (_ : Unit) : Option o.Ans × World × Unit :=
  match o with
  | .db (.selectGate code) => (some (.ok (w.gates.find? (·.code = code))), w, ())
  | .db (.insert snapshot) =>
    (some (if w.Refers snapshot then .ok w.nextId else .error .foreignKey), w.numbered, ())
  | .db (.getTransaction id) => (some (.ok (w.transactions.find? (·.id = id))), w, ())
  | .db (.commit id snapshot link) => (some (.ok ()), w.committed id snapshot link, ())
  | .enqueue (.takeSnapshot gateId camera id kind jobId) =>
    (some true, w.enqueued (.takeSnapshot gateId camera id kind jobId) jobId, ())
  | .enqueue _ => (some false, w, ())
  | .nextJob =>
    match w.queue with
    | [] => (none, w, ())
    | job :: _ => (some job, w.taken job, ())
  | .mockHardware => (some false, w, ())
  | .captureRtsp _ => (some none, w, ())
  | .downloadHttp url _ _ _ => (some (some [UInt8.ofNat url.length]), w, ())
  | .timestamp => (some "20260101_120000", w, ())
  | .writeBytes path data => (some (.ok ()), w.written path (some data), ())
  | .broadcastExit _ _ => (some (), w, ())

theorem steadyPerform_act (o : SnapshotOp) (w : World) (u : Unit) (a : o.Ans) (w' : World)
    (u' : Unit) (h : steadyPerform o w u = (some a, w', u')) :
    (snapshotJobsMachine place).act o w u a w' u' := by
  change w.Acts o a w'
  cases o with
  | db statement =>
    cases statement with
    | selectGate code | getTransaction id =>
      cases h
      exact ⟨rfl, rfl⟩
    | commit id snapshot link =>
      cases h
      rfl
    | insert snapshot =>
      by_cases hrefers : w.Refers snapshot
      · simp only [steadyPerform, if_pos hrefers] at h
        cases h
        exact ⟨hrefers, rfl, rfl⟩
      · simp only [steadyPerform, if_neg hrefers] at h
        cases h
        exact ⟨hrefers, rfl⟩
  | enqueue job =>
    cases job with
    | printReceipt gateId data jobId =>
      cases h
      exact .inl rfl
    | takeSnapshot gateId camera id kind jobId =>
      cases h
      exact .inr ⟨gateId, camera, id, kind, jobId, rfl, rfl⟩
  | nextJob =>
    unfold steadyPerform at h
    dsimp only at h
    split at h
    · cases h
    · rename_i hqueue
      cases h
      exact ⟨hqueue ▸ List.mem_cons_self, .inr rfl⟩
  | writeBytes path data =>
    cases h
    rfl
  | mockHardware | captureRtsp _ | downloadHttp _ _ _ _ | timestamp | broadcastExit _ _ =>
    cases h
    rfl

theorem steadyPerform_fails (o : SnapshotOp) (w : World) (u : Unit) (w' : World) (u' : Unit)
    (h : steadyPerform o w u = (none, w', u')) : (snapshotJobsMachine place).fails o w u w' := by
  change o = .nextJob ∧ w.queue = [] ∧ w' = w
  cases o with
  | db statement => cases statement <;> cases h
  | enqueue job => cases job <;> cases h
  | nextJob =>
    unfold steadyPerform at h
    dsimp only at h
    split at h
    · rename_i hqueue
      cases h
      exact ⟨rfl, hqueue, rfl⟩
    · cases h
  | _ => cases h

/-- A gate with two cameras, at which a transaction is about to be paid. -/
def exitGate (front rear : Option String) : SnapshotSys Nat where
  shared := {
    gates := [{
      id := 7
      code := "OUT1"
      direction := "OUT"
      hardwareConfig := {
        cameras := [
          { url := some "http://front/", label := front },
          { url := some "http://rear/", label := rear }] } }]
    transactions := [{ id := 4 }] }

def inSnapshotDir (filename : String) : String := "/var/lib/parking/snapshots/" ++ filename

/-- The worker takes both images in one second, side by side, and records them. -/
def exitSnapshots (front rear : Option String) : List (Label Nat SnapshotOp × SnapshotSys Nat) :=
  takeTurns (snapshotJobsMachine inSnapshotDir) steadyPerform (exitGate front rear)
    (.start 0 ((SnapshotCall.enqueue "OUT1" 4 "exit").code inSnapshotDir) () {} ::
      .start 1 (SnapshotCall.work.code inSnapshotDir) () {} ::
      .start 2 (SnapshotCall.work.code inSnapshotDir) () {} ::
      ([0, 0, 0, 0] ++ (List.replicate 11 [1, 2]).flatten).map .go)

theorem exitSnapshots_path (front rear : Option String) :
    Path (Step (snapshotJobsMachine inSnapshotDir)) (exitGate front rear)
      (exitSnapshots front rear) := by
  refine takeTurns_path steadyPerform_act steadyPerform_fails (fun j p own note hmem => ?_)
    fun f hmem => ?_
  · simp only [List.mem_cons, Turn.start.injEq, List.mem_map, reduceCtorEq, and_false, exists_false,
      or_false] at hmem
    rcases hmem with ⟨-, rfl, -, rfl⟩ | ⟨-, rfl, -, rfl⟩ | ⟨-, rfl, -, rfl⟩ <;>
      exact ⟨⟨_, rfl⟩, rfl⟩
  · simp at hmem

theorem exitGate_quiet (front rear : Option String) : (exitGate front rear).Quiet :=
  ⟨fun _ => rfl, rfl⟩

theorem snapshots_kept_labelled : Path Kept (exitGate (some "front") (some "rear"))
    (exitSnapshots (some "front") (some "rear")) :=
  snapshots_kept (exitSnapshots_path _ _) (exitGate_quiet _ _) rfl (by decide)

/-- Neither camera has a label, and both images are written to one file. -/
theorem unlabelled_overwritten :
    Path (Step (snapshotJobsMachine inSnapshotDir)) (exitGate none none)
        (exitSnapshots none none) ∧
      ¬ Path Kept (exitGate none none) (exitSnapshots none none) := by
  refine ⟨exitSnapshots_path none none, ?_⟩
  decide

end Schedules

end Runs
end ParkIt.Snapshots
