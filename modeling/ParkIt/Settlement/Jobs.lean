import ParkIt.Settlement.Partition
import ParkIt.Lib.Sessions

/-! Settlement jobs side by side: READ COMMITTED sessions that share Redis and the disk. -/
namespace ParkIt

/-- What the upload and the bank's answer do not touch. -/
def EmoneySettlement.sealed (r : EmoneySettlement) : EmoneySettlement :=
  { r with status := "", uploadedAt := none, responseReceivedAt := none, responseExtension := none }

/-- The ids of the e-money rows, each with the record that it is linked to. -/
def Db.links (db : Db) : List (Id × Option Id) :=
  db.emoney.map fun e => (e.id, e.settlementBatchId)

namespace Settlement

open Effects Sessions Transition Chunks

/-- A write that its session has not committed. -/
inductive Write where
  | insert (r : EmoneySettlement)
  | link (ids : List Id) (settlement : Id)
deriving DecidableEq

def Write.apply (db : Db) : Write → Db
  | .insert r => { db with settlements := db.settlements ++ [r] }
  | .link ids settlement => db.link ids settlement

/-- Every statement sees what is committed by then, under the session's own writes. -/
def State.conn (s : State) (ws : List Write) : Conn where
  state := { s with world.db := ws.foldl Write.apply s.world.db }
  saved := s.world.db

def Conn.committed (c : Conn) : State := { c.state with world.db := c.saved }

def staged : (o : JobOp) → o.Ans → List Write → List Write
  | .insertSettlement r, i, ws => ws ++ [.insert { r with id := i }]
  | .link ids settlement, _, ws => ws ++ [.link ids settlement]
  | .commit, _, _ => []
  | _, _, ws => ws

/-- An operation does what it does alone; the answer of Redis may also get lost. -/
inductive Acts : (o : JobOp) → State → List Write → o.Ans → State → List Write → Prop
  | done {o s ws a c} : exec o (s.conn ws) = (.ok a, c) → Acts o s ws a c.committed (staged o a ws)
  | lockLost {key s ws a c} : exec (.setLock key) (s.conn ws) = (.ok a, c) →
      Acts (.setLock key) s ws none c.committed ws
  | numberLost {key s ws a c} : exec (.incrBatch key) (s.conn ws) = (.ok a, c) →
      Acts (.incrBatch key) s ws none c.committed ws

/-- A file whose writing fails may be there in part. -/
inductive Fails : JobOp → State → List Write → State → Prop
  | raised {o s ws e c} : exec o (s.conn ws) = (.error e, c) → Fails o s ws c.committed
  | cut {path content : String} {part : String} {s ws} : part.toList <+: content.toList →
      Fails (.writeFile path content) s ws { s with files := setKey s.files path (some part) }

/-- What the rest of the system does: rows come in unlinked and keep their links, records get
their status, and the clock, the locks, the readers and the availability of Redis change. -/
structure Outside (s s' : State) : Prop where
  rows : ∃ new : List Id, s'.world.db.links = s.world.db.links ++ new.map fun i => (i, none)
  ids : (s'.world.db.emoney.map (·.id)).Nodup
  settlements : s'.world.db.settlements.map EmoneySettlement.sealed =
    s.world.db.settlements.map EmoneySettlement.sealed
  next : s.nextSettlement ≤ s'.nextSettlement
  files : s'.files = s.files
  batches : s'.batches = s.batches

/-- The text of a file with these rows. -/
def fileText (rows : List EmoneyTransaction) : String :=
  padded 3 rows.length ++ padded 10 (rows.map EmoneyTransaction.amountDeducted).sum.toNat ++ "\n" ++
    String.join (rows.map fun e => upper (e.settlementPayloadHex.getD "") ++ "\n")

/-- A file as its job has settled on it, with the batch number that Redis issued for it. -/
structure Draft where
  readerId : Id
  now : DateTime
  mid : String
  tid : String
  issued : Option Nat
  rows : List EmoneyTransaction
deriving DecidableEq

def batchKey (readerId : Id) (date : String) : String := s!"settlement:batch:{readerId}:{date}"

namespace Draft
variable (d : Draft)

def number : Nat := d.issued.getD 1

def filename : String := generateFilename d.now.localTime d.mid d.tid d.number

def path : String := settlementDir ++ "/" ++ d.filename

def content : String := fileText d.rows

def key : String := batchKey d.readerId (isoDate d.now.localTime)

def ids : List Id := d.rows.map (·.id)

def record (sha256 : String → String) (i : Id) : EmoneySettlement :=
  { recordOf sha256 d.now d.mid d.tid d.number d.rows d.content with id := i }

def batch (sha256 : String → String) (i : Id) : Batch := ⟨d.readerId, d.rows, d.record sha256 i⟩

end Draft

/-- What a job has come to: the rows that it has fetched and not filed, and the next file. -/
structure Note where
  now : DateTime := ⟨0, 0⟩
  dated : Bool := false
  readerId : Id := 0
  mid : String := ""
  tid : String := ""
  rows : List EmoneyTransaction := []
  issued : Option Nat := none
  written : Bool := false
  record : Option Id := none
  linked : Bool := false

namespace Note
variable (g : Note)

def draft : Draft := ⟨g.readerId, g.now, g.mid, g.tid, g.issued, g.rows.take maxTrxPerFile⟩

/-- No file has been begun. -/
def Clear : Prop := g.issued = none ∧ g.written = false ∧ g.record = none ∧ g.linked = false

/-- Everything that was fetched has been filed. -/
def Done : Prop := g.rows = [] ∧ g.Clear

def filed : Note :=
  { g with
    rows := g.rows.drop maxTrxPerFile, issued := none, written := false, record := none
    linked := false }

/-- What the job has written and not committed. -/
def pending (sha256 : String → String) : List Write :=
  match g.record with
  | none => []
  | some i =>
    .insert (g.draft.record sha256 i) :: if g.linked then [.link g.draft.ids i] else []

end Note

/-- A job finishes one file after the other, the first rows first. -/
def protocol (sha256 : String → String) : Protocol JobOp JobOp.Ans Note where
  allow g o :=
    match o with
    | .now | .reader _ => g.Done
    | .unsettled r => g.Done ∧ r = g.readerId
    | .incrBatch key => (g.dated = true ∧ g.Clear) ∧ key = g.draft.key
    | .writeFile path content =>
      (g.dated = true ∧ g.rows ≠ [] ∧ g.written = false ∧ g.record = none) ∧
        path = g.draft.path ∧ content = g.draft.content
    | .insertSettlement r => (g.written = true ∧ g.record = none ∧ g.linked = false) ∧
        r = g.draft.record sha256 0
    | .link ids i => (g.record = some i ∧ g.linked = false) ∧ ids = g.draft.ids
    | .commit => g.linked = true
    | _ => True
  expect _ _ _ := True
  next g o a :=
    match o, a with
    | .now, a => { g with now := a, dated := true }
    | .reader i, a =>
      { g with readerId := i, mid := (a.bind (·.mid)).getD "", tid := (a.bind (·.tid)).getD "" }
    | .unsettled _, a => { g with rows := a }
    | .incrBatch _, a => { g with issued := a }
    | .writeFile _ _, _ => { g with written := true }
    | .insertSettlement _, a => { g with record := some a }
    | .link _ _, _ => { g with linked := true }
    | .commit, _ => g.filed
    | _, _ => g

/-- Files that a job has begun to write, and files that it has committed a record of. -/
inductive Entry where
  | written (d : Draft)
  | filed (d : Draft) (i : Id)

def entries (g : Note) : (o : JobOp) → Option o.Ans → List Entry
  | .writeFile _ _, _ => [.written g.draft]
  | .commit, some _ =>
    match g.record with
    | some i => [.filed g.draft i]
    | none => []
  | _, _ => []

/-- Cron runs and manual runs. -/
def jobs (sha256 : String → String) :
    Machine JobOp JobOp.Ans JobExc Outcome State (List Write) Note Entry where
  starts p ws g := (∃ ctx, p = generateSettlementFile sha256 ctx) ∧ ws = [] ∧ g = {}
  act := Acts
  fails := Fails
  during _ _ _ _ := False
  outside := Outside
  protocol := protocol sha256
  record := entries

abbrev JobSys (ι : Type) :=
  Sys ι JobOp JobOp.Ans JobExc Outcome State (List Write) Note Entry

section Follows
variable {sha256 : String → String} {ctx : Ctx} {now : DateTime} {g : Note} {r : Id}
  {mid tid : String}

/-- Between two readers. -/
def Note.Between (now : DateTime) (g : Note) : Prop := (g.now = now ∧ g.dated = true) ∧ g.Done

/-- Between two files of a reader. -/
structure Note.At (now : DateTime) (r : Id) (mid tid : String) (g : Note) : Prop where
  now : g.now = now
  dated : g.dated = true
  reader : g.readerId = r
  mid : g.mid = mid
  tid : g.tid = tid
  clear : g.Clear

theorem nextBatchNumber_follows (h : g.At now r mid tid) :
    Follows (protocol sha256) g (nextBatchNumber ctx r (isoDate now.localTime))
      (fun g' n => ∃ issued : Option Nat, g' = { g with issued } ∧ n = issued.getD 1)
      fun _ _ => False := by
  have hnone : { g with issued := none } = g := by
    rw [← h.clear.1]
  unfold nextBatchNumber
  split
  · rw [follows_bind, ask, follows_perform]
    refine ⟨⟨⟨h.dated, h.clear⟩, ?_⟩, fun a _ => ?_⟩
    · rw [← h.now, ← h.reader]
      rfl
    · cases a with
      | none => exact ⟨none, rfl, rfl⟩
      | some n =>
        dsimp only
        split
        · rw [follows_bind, ask, follows_perform]
          exact ⟨trivial, fun _ _ => ⟨some n, rfl, rfl⟩⟩
        · exact ⟨some n, rfl, rfl⟩
  · exact ⟨none, hnone.symm, rfl⟩

theorem enqueueUpload_follows (i : Id) :
    Follows (protocol sha256) g (enqueueUpload ctx i) (fun g' _ => g' = g) fun _ _ => False := by
  unfold enqueueUpload
  split
  · exact ⟨trivial, fun _ _ => rfl⟩
  · rfl

/-- One file: the number, the text, the record, the links, and the commit, in this order. -/
theorem settleChunk_follows (h : g.At now r mid tid) (hrows : g.rows ≠ []) :
    Follows (protocol sha256) g
      (settleChunk sha256 ctx now r mid tid (g.rows.take maxTrxPerFile))
      (fun g' _ => g' = g.filed) fun _ _ => True := by
  rw [settleChunk_eq]
  refine (nextBatchNumber_follows h).bind (fun _ _ hf => hf.elim) ?_
  rintro _ _ ⟨issued, rfl, rfl⟩
  rw [follows_bind]
  rcases hbuild : buildSettlementContent
    ((g.rows.take maxTrxPerFile).map (·.settlementPayloadHex.getD ""))
    ((g.rows.take maxTrxPerFile).map (·.amountDeducted)).sum with _ | content <;> rw [hbuild]
  · trivial
  have hcontent : content = fileText (g.rows.take maxTrxPerFile) := by
    rw [buildSettlementContent_ok hbuild, List.length_map, List.map_map]
    rfl
  obtain ⟨hnow, hdated, hreader, hmid, htid, -, hwritten, hrecord, hlinked⟩ := h
  subst hnow hreader hmid htid hcontent
  refine ⟨⟨⟨hdated, hrows, hwritten, hrecord⟩, rfl, rfl⟩, fun _ _ => ?_⟩
  refine ⟨⟨⟨rfl, hrecord, hlinked⟩, rfl⟩, fun i _ => ?_⟩
  refine ⟨⟨⟨rfl, hlinked⟩, rfl⟩, fun _ _ => ?_⟩
  exact ⟨rfl, fun _ _ => (enqueueUpload_follows i).mono (fun _ _ h => h) fun _ _ h => h.elim⟩

theorem settleChunks_follows {chunks : List (List EmoneyTransaction)} (h : g.At now r mid tid)
    (hchunks : chunks = chunksBy maxTrxPerFile g.rows) (done : Nat × Nat) :
    Follows (protocol sha256) g (settleChunks sha256 ctx now r mid tid chunks done)
      (fun g' _ => g'.Between now) fun _ _ => True := by
  induction chunks generalizing g done with
  | nil =>
    refine ⟨⟨h.now, h.dated⟩, ?_, h.clear⟩
    have hflat := flatten_chunksBy (n := maxTrxPerFile) (by decide) g.rows
    rw [← hflat, ← hchunks]
    rfl
  | cons chunk chunks ih =>
    have hrows : g.rows ≠ [] := by
      intro hnil
      rw [hnil] at hchunks
      cases hchunks
    rw [chunksBy_eq_cons (by decide) hrows] at hchunks
    obtain ⟨rfl, hrest⟩ := List.cons.inj hchunks
    refine (settleChunk_follows h hrows).bind (fun _ _ _ => trivial) ?_
    rintro _ _ rfl
    have hfiled : g.filed.At now r mid tid :=
      ⟨h.now, h.dated, h.reader, h.mid, h.tid, rfl, rfl, rfl, rfl⟩
    exact ih hfiled hrest _

theorem truthy_eq {x : Option String} {y : String} (h : truthy x = some y) : x = some y :=
  (Option.filter_eq_some_iff.mp h).1

theorem settleReader_follows (h : g.Between now) (done : Nat × Nat) :
    Follows (protocol sha256) g (settleReader sha256 ctx now r done)
      (fun g' _ => g'.Between now) fun _ _ => True := by
  obtain ⟨hnow, hdone⟩ := h
  unfold settleReader
  refine ⟨hdone, fun reader _ => ?_⟩
  cases reader with
  | none => exact ⟨hnow, hdone⟩
  | some reader =>
    dsimp only [Pure.pure, Prog.bind]
    split
    · rename_i mid tid hmid htid
      refine ⟨⟨hdone, rfl⟩, fun rows _ => ?_⟩
      have hat : Note.At now r mid tid
          { g with readerId := r, mid := reader.mid.getD "", tid := reader.tid.getD "", rows } :=
        ⟨hnow.1, hnow.2, rfl, by rw [truthy_eq hmid]; rfl, by rw [truthy_eq htid]; rfl, hdone.2⟩
      exact settleChunks_follows hat rfl done
    · exact ⟨hnow, hdone⟩

theorem settleReaders_follows {rs : List Id} (h : g.Between now) (done : Nat × Nat) :
    Follows (protocol sha256) g (settleReaders sha256 ctx now rs done) (fun _ _ => True)
      fun _ _ => True := by
  induction rs generalizing g done with
  | nil => trivial
  | cons r rs ih =>
    exact (settleReader_follows h done).bind (fun _ _ _ => trivial) fun g' _ h' => ih h' _

theorem lease_follows (h : g.Done) :
    Follows (protocol sha256) g (lease ctx) (fun g' _ => g'.Done) fun _ _ => True := by
  unfold lease
  split
  · exact ⟨h, fun _ _ => ⟨trivial, fun _ _ => h⟩⟩
  · exact h

/-- Whatever a job is answered, it keeps to the protocol. -/
theorem generate_follows (sha256 : String → String) (ctx : Ctx) :
    Follows (protocol sha256) {} (generateSettlementFile sha256 ctx) (fun _ _ => True)
      fun _ _ => True := by
  have hblank : ({} : Note).Done := ⟨rfl, rfl, rfl, rfl, rfl⟩
  unfold generateSettlementFile
  refine (lease_follows hblank).bind (fun _ _ _ => trivial) fun g acquired hdone => ?_
  cases acquired with
  | false => trivial
  | true =>
    refine ⟨trivial, fun _ _ => ⟨trivial, fun rs _ => ?_⟩⟩
    cases rs with
    | nil => trivial
    | cons r rs =>
      refine ⟨hdone, fun now _ => ?_⟩
      have hbetween : Note.Between now { g with now, dated := true } := ⟨⟨rfl, rfl⟩, hdone⟩
      exact (settleReaders_follows hbetween (0, 0)).bind (fun _ _ _ => trivial)
        fun _ ⟨_, _⟩ _ => trivial

end Follows

section Alone
variable {ι : Type} [DecidableEq ι] {sha256 : String → String} {j : ι}

/-- An execution leaves what the next statement of the session starts from. -/
theorem exec_conn {o : JobOp} {s : State} {ws : List Write} {a : o.Ans} {c : Conn}
    (h : exec o (s.conn ws) = (.ok a, c)) : c = c.committed.conn (staged o a ws) := by
  cases o with
  | setLock _ | writeFile _ _ =>
    simp only [exec] at h
    split at h
    · cases h <;> rfl
    · split at h <;> cases h <;> rfl
  | makedirs | incrBatch _ | enqueueUpload _ | expireBatch _ =>
    simp only [exec] at h
    split at h <;> cases h <;> rfl
  | insertSettlement r =>
    simp only [exec] at h
    by_cases hrow : EmoneySettlement.accepted
      { r with id := (s.conn ws).state.nextSettlement } = true
    · rw [if_pos hrow] at h
      cases h
      simp only [staged, State.conn, Conn.committed, List.foldl_append, List.foldl_cons,
        List.foldl_nil, Write.apply]
    · rw [if_neg hrow] at h
      cases h
  | link _ _ =>
    cases h
    simp only [staged, State.conn, Conn.committed, List.foldl_append, List.foldl_cons,
      List.foldl_nil, Write.apply]
  | now | unsettledReaders | reader _ | unsettled _ | commit =>
    cases h
    rfl

/-- A job that is alone can run as `exec` says, to the same end. -/
theorem alone_path (p : Job Outcome) (s : JobSys ι) (ws : List Write) (g : Note)
    (hj : s.session j = some ⟨p, ws, g⟩) :
    ∃ xs, Path (Step (jobs sha256)) s xs ∧
      (finish s xs).shared = (p.run exec (s.shared.conn ws)).2.committed := by
  induction p generalizing s ws g with
  | pure a => exact ⟨[], trivial, rfl⟩
  | throw e => exact ⟨[], trivial, rfl⟩
  | call o k ih =>
    rw [Prog.run_call]
    rcases h : exec o (s.shared.conn ws) with ⟨e | a, c⟩
    · exact ⟨[(_, _)], ⟨Step.fail hj (Fails.raised h), trivial⟩, rfl⟩
    · obtain ⟨t, hstep, hshared, ht⟩ : ∃ t, Step (jobs sha256) s (.go j o) t ∧
          t.shared = c.committed ∧ t.session j =
            some ⟨k a, staged o a ws, (protocol sha256).next g o a⟩ :=
        ⟨_, Step.go hj (Acts.done h), rfl, session_set_self⟩
      obtain ⟨xs, hxs, hfinish⟩ := ih a t _ _ ht
      refine ⟨(_, t) :: xs, ⟨hstep, hxs⟩, ?_⟩
      rw [finish_cons, hfinish, hshared, ← exec_conn h]

/-- So the system can do what `generate` does. -/
theorem generate_path (s : JobSys ι) (ctx : Ctx) (hj : s.session j = none) :
    ∃ xs, Path (Step (jobs sha256)) s xs ∧
      (finish s xs).shared = (generate sha256 ctx s.shared).2 := by
  obtain ⟨t, hstep, hshared, ht⟩ : ∃ t, Step (jobs sha256) s (.start j) t ∧
      t.shared = s.shared ∧ t.session j = some ⟨generateSettlementFile sha256 ctx, [], {}⟩ :=
    ⟨_, Step.start hj ⟨⟨ctx, rfl⟩, rfl, rfl⟩, rfl, session_set_self⟩
  obtain ⟨xs, hxs, hfinish⟩ := alone_path _ t _ _ ht
  refine ⟨(_, t) :: xs, ⟨hstep, hxs⟩, ?_⟩
  rw [finish_cons, hfinish, hshared]
  rfl

end Alone

/-- What `exec` does to the shared state and to the uncommitted writes of a session. -/
def perform (o : JobOp) (s : State) (ws : List Write) : Option o.Ans × State × List Write :=
  match exec o (s.conn ws) with
  | (.ok a, c) => (some a, c.committed, staged o a ws)
  | (.error _, c) => (none, c.committed, ws)

abbrev JobTurn (ι : Type) := Turn ι JobOp JobOp.Ans JobExc Outcome State (List Write) Note

def JobTurn.job {ι : Type} (sha256 : String → String) (j : ι) (ctx : Ctx) : JobTurn ι :=
  .start j (generateSettlementFile sha256 ctx) [] {}

theorem perform_path {ι : Type} [DecidableEq ι] {sha256 : String → String} {s : JobSys ι}
    {turns : List (JobTurn ι)}
    (hstart : ∀ j p ws g, .start j p ws g ∈ turns → (jobs sha256).starts p ws g)
    (houtside : ∀ f, .outside f ∈ turns → ∀ s, Outside s (f s)) :
    Path (Step (jobs sha256)) s (takeTurns (jobs sha256) perform s turns) := by
  refine takeTurns_path (fun o s ws a s' ws' h => ?_) (fun o s ws s' ws' h => ?_) hstart houtside
  · unfold perform at h
    rcases hx : exec o (s.conn ws) with ⟨e | a', c⟩ <;> rw [hx] at h <;> cases h
    exact Acts.done hx
  · unfold perform at h
    rcases hx : exec o (s.conn ws) with ⟨e | a', c⟩ <;> rw [hx] at h <;> cases h
    exact Fails.raised hx

end Settlement
end ParkIt
