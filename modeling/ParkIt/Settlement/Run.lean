import ParkIt.Settlement.Worker
import Mathlib.Data.List.Dedup

/-! Runs of the settlement job against the database, Redis and the disk. -/
namespace ParkIt

/-- The rows that a settlement run takes up. -/
def EmoneyTransaction.Unsettled (e : EmoneyTransaction) : Prop :=
  e.settlementBatchId = none ∧ e.status = .success ∧ e.cardTypeCode ≠ some Settlement.qrCardTypeCode

instance (e : EmoneyTransaction) : Decidable e.Unsettled :=
  inferInstanceAs (Decidable (_ ∧ _ ∧ _))

def EmoneyTransaction.Eligible (e : EmoneyTransaction) : Prop :=
  e.Unsettled ∧ e.emoneyReaderId ≠ none

instance (e : EmoneyTransaction) : Decidable e.Eligible := inferInstanceAs (Decidable (_ ∧ _))

/-- Column types of `emoney_settlements`. -/
def EmoneySettlement.accepted (s : EmoneySettlement) : Bool :=
  varcharOk 255 s.filename && varcharOk 500 s.filePath && int4Ok s.batchNumber &&
  int4Ok s.totalTransactions && int4Ok s.totalAmount && varcharOk 20 s.status &&
  varcharOk 64 s.fileContentHash

def Db.link (db : Db) (ids : List Id) (settlement : Id) : Db :=
  { db with
    emoney := db.emoney.map fun e =>
      if ids.contains e.id then { e with settlementBatchId := some settlement } else e }

namespace Settlement
open Effects

theorem perm_id (ids : List Id) : (id ids).Perm ids := List.Perm.refl _

/-- Locks and batch counters are stored with the instant at which they expire. -/
structure State where
  world : World
  nextSettlement : Id := 1
  locks : String → Option (Unit × Int) := fun _ => none
  batches : String → Option (Nat × Option Int) := fun _ => none
  files : String → Option String := fun _ => none
  uploads : List Id := []
  /-- Paths that cannot be opened for writing. -/
  unwritable : List String := []
  /-- The order in which the database returns what a query leaves unordered. -/
  order : List Id → List Id := id
  order_perm : ∀ ids, (order ids).Perm ids := by exact ParkIt.Settlement.perm_id

namespace State
variable (s : State)

/-- A counter that has not expired. -/
def batch (key : String) : Nat :=
  match s.batches key with
  | some (n, some deadline) => if s.world.now < deadline then n else 0
  | some (n, none) => n
  | none => 0

/-- A slash in the name would need a directory that is not there. -/
def openable (path : String) : Bool :=
  !s.unwritable.contains path && !(path.toList.drop (settlementDir.length + 1)).contains '/'

/-- The rows in the order in which the database happens to return them. -/
def scan (rows : List EmoneyTransaction) : List EmoneyTransaction :=
  (s.order (rows.map (·.id))).filterMap fun i => rows.find? fun e => e.id = i

end State

/-- The job's session: `state.world.db` is its own view, `saved` is what it has committed. -/
structure Conn where
  state : State
  saved : Db

def sortByCreation (rows : List EmoneyTransaction) : List EmoneyTransaction :=
  rows.insertionSort fun a b => a.createdAt ≤ b.createdAt

/-- A file is opened, and thereby emptied, before its text is encoded. -/
def exec (o : JobOp) (c : Conn) : Except JobExc o.Ans × Conn :=
  let s := c.state
  let w := s.world
  match o with
  | .now => (.ok ⟨w.now, jakartaOffset⟩, { c with state.world := w.readClock })
  | .setLock key =>
    if w.redisDown then (.ok none, c)
    else if (w.live (s.locks key)).isSome then (.ok (some false), c)
    else (.ok (some true), { c with state.locks := setKey s.locks key (some ((), w.expiry 3600)) })
  | .makedirs => if s.unwritable.contains settlementDir then (.error .os, c) else (.ok (), c)
  | .unsettledReaders =>
    let rows := w.db.emoney.filter fun e => decide e.Eligible
    (.ok (s.order (rows.filterMap (·.emoneyReaderId)).dedup), c)
  | .reader i => (.ok (w.db.readers.find? fun r => r.id = i), c)
  | .unsettled readerId =>
    let rows := w.db.emoney.filter fun e => decide (e.Unsettled ∧ e.emoneyReaderId = some readerId)
    (.ok (sortByCreation (s.scan rows)), c)
  | .incrBatch key =>
    if w.redisDown then (.ok none, c)
    else
      let n := s.batch key + 1
      let deadline := if n = 1 then none else (s.batches key).bind Prod.snd
      (.ok (some n), { c with state.batches := setKey s.batches key (some (n, deadline)) })
  | .expireBatch key =>
    let counter := (s.batches key).map fun b => (b.1, some (w.expiry 172800))
    (.ok (), if w.redisDown then c else { c with state.batches := setKey s.batches key counter })
  | .writeFile path content =>
    if !s.openable path then (.error .os, c)
    else if isAscii content then
      (.ok (), { c with state.files := setKey s.files path (some content) })
    else (.error .unicode, { c with state.files := setKey s.files path (some "") })
  | .insertSettlement r =>
    let row := { r with id := s.nextSettlement }
    let s := { s with nextSettlement := s.nextSettlement + 1 }
    if row.accepted then
      (.ok row.id, { c with
        state := { s with world.db := { w.db with settlements := w.db.settlements ++ [row] } } })
    else (.error .db, { c with state := s })
  | .link ids settlement => (.ok (), { c with state.world.db := w.db.link ids settlement })
  | .commit => (.ok (), { c with saved := w.db })
  | .enqueueUpload i =>
    (.ok (), if w.redisDown then c else { c with state.uploads := s.uploads ++ [i] })

/-- One run of the job; what it has not committed when it ends is rolled back. -/
def generate (sha256 : String → String) (ctx : Ctx) (s : State) :
    Except JobExc Outcome × State :=
  let (r, c) := (generateSettlementFile sha256 ctx).run exec { state := s, saved := s.world.db }
  (r, { c.state with world.db := c.saved })

section Backlog
variable {s : State} {c : Conn}

theorem ensures_ask {o : JobOp} {ok : o.Ans → Conn → Prop} {err : JobExc → Conn → Prop} :
    Prog.Ensures exec (ask o) c ok err ↔
      match exec o c with
      | (.ok a, c') => ok a c'
      | (.error e, c') => err e c' := by
  rw [Prog.Ensures, ask, Prog.run_perform]
  rcases exec o c with ⟨e | a, c'⟩ <;> rfl

/-- What a run leaves alone when it takes up no row. -/
structure Idle (c c' : Conn) : Prop where
  db : c'.state.world.db = c.state.world.db
  saved : c'.saved = c.saved
  files : c'.state.files = c.state.files

theorem Idle.refl (c : Conn) : Idle c c := ⟨rfl, rfl, rfl⟩

theorem lease_idle (ctx : Ctx) :
    Prog.Ensures exec (lease ctx) c (fun _ c' => Idle c c') fun _ _ => False := by
  unfold lease
  split
  · rw [Prog.ensures_bind, ensures_ask]
    dsimp only [exec]
    rw [Prog.ensures_bind, ensures_ask]
    dsimp only [exec]
    split_ifs <;> exact ⟨rfl, rfl, rfl⟩
  · exact Idle.refl c

theorem eligible_readers (h : ∀ e ∈ c.state.world.db.emoney, ¬ e.Eligible) :
    exec .unsettledReaders c = (.ok [], c) := by
  have hrows : c.state.world.db.emoney.filter (fun e => decide e.Eligible) = [] :=
    List.filter_eq_nil_iff.mpr fun e he => by simpa using h e he
  have horder := (c.state.order_perm []).eq_nil
  simp only [exec, hrows, List.filterMap_nil, List.dedup_nil, horder]

/-- A run that finds no eligible row writes no file and changes no row. -/
theorem generate_idle (sha256 : String → String) (ctx : Ctx)
    (h : ∀ e ∈ s.world.db.emoney, ¬ e.Eligible) :
    (generate sha256 ctx s).2.world.db = s.world.db ∧ (generate sha256 ctx s).2.files = s.files := by
  have hrun : Prog.Ensures exec (generateSettlementFile sha256 ctx)
      { state := s, saved := s.world.db }
      (fun _ c' => Idle { state := s, saved := s.world.db } c')
      (fun _ c' => Idle { state := s, saved := s.world.db } c') := by
    refine (lease_idle ctx).bind (fun _ _ hf => hf.elim) fun acquired c₁ h₁ => ?_
    cases acquired with
    | false => exact h₁
    | true =>
      simp only [Bool.not_true, Bool.false_eq_true, if_false]
      rw [Prog.ensures_bind, ensures_ask]
      dsimp only [exec]
      split_ifs
      · exact h₁
      · show Prog.Ensures exec _ c₁ _ _
        rw [Prog.ensures_bind, ensures_ask, eligible_readers (by rwa [h₁.db])]
        exact h₁
  unfold generate
  unfold Prog.Ensures at hrun
  rcases hr : (generateSettlementFile sha256 ctx).run exec { state := s, saved := s.world.db } with
    ⟨e | a, c'⟩ <;> rw [hr] at hrun <;> exact ⟨hrun.saved, hrun.files⟩

end Backlog

example :
    let e : EmoneyTransaction :=
      { id := 1, emoneyReaderId := some 4, cardNumber := "6013500100", amountDeducted := 6000,
        status := .success, settlementPayloadHex := some "02ab" }
    let w : World :=
      { db := { emoney := [e], readers := [{ id := 4, mid := some "1234", tid := some "56" }] }
        nextTx := 1, nextEmoney := 2, now := 0 }
    let (r, s) := generate id ⟨false⟩ { world := w }
    r = .ok (.success 1 1) ∧ s.world.db.emoney.map (·.settlementBatchId) = [some 1] ∧
    s.files ("/var/lib/parking/settlements/19700101070000000000000000123400000056" ++ "01001.txt") =
      some "0010000006000\n02AB\n" := by decide

end Settlement
end ParkIt
