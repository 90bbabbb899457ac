import ParkIt.Snapshots.Jobs

/-! The nightly job that deletes old stays, and the foreign keys that hold it back. -/
namespace ParkIt.Retention

open Effects

/-- A row of a log or an alert, of which only the reference matters here. -/
structure LogRow where
  id : Id
  parkingTransactionId : Option Id := none
deriving DecidableEq, Repr

/-- `parking_transactions`, and the tables with a column `parking_transaction_id`. -/
structure Tables where
  transactions : List ParkingTransaction := []
  emoneyTransactions : List EmoneyTransaction := []
  manualOpenLogs : List LogRow := []
  operatorAlerts : List LogRow := []
  abandonedVehicleLogs : List LogRow := []
  snapshots : List Snapshots.Snapshot := []
deriving DecidableEq, Repr

/-- The columns that are foreign keys; that of the snapshots is none. -/
def Tables.foreignKeys (d : Tables) : List Id :=
  d.emoneyTransactions.filterMap (·.parkingTransactionId) ++
    d.manualOpenLogs.filterMap (·.parkingTransactionId) ++
    d.operatorAlerts.filterMap (·.parkingTransactionId) ++
    d.abandonedVehicleLogs.filterMap (·.parkingTransactionId)

/-- The tables with what the database keeps of them. -/
structure Database extends Tables where
  keys : (transactions.map (·.id)).Nodup
  references : ∀ i ∈ toTables.foreignKeys, i ∈ transactions.map (·.id)

namespace Database
variable (d : Database)

/-- `DELETE FROM parking_transactions WHERE …`, with the number of the rows; without an answer a
foreign key has been violated. -/
def deleteWhere (p : ParkingTransaction → Bool) : Option (Nat × Database) :=
  if h : ∀ t ∈ d.transactions, p t = true → t.id ∉ d.foreignKeys then
    some ((d.transactions.filter p).length,
      { d with
        transactions := d.transactions.filter (!p ·)
        keys := d.keys.sublist (List.filter_sublist.map _)
        references := by
          intro i hi
          obtain ⟨t, ht, rfl⟩ := List.mem_map.mp (d.references i hi)
          refine List.mem_map_of_mem (List.mem_filter.mpr ⟨ht, ?_⟩)
          cases hp : p t with
          | false => rfl
          | true => exact absurd hi (h t ht hp) })
  else none

end Database

/-- What the job asks of the clock and of its database session. -/
inductive SessionOp where
  | now
  | delete (cutoff : DateTime)
  | commit
  /-- The end of the session. -/
  | close

inductive DbError where
  | foreignKeyViolation
deriving DecidableEq, Repr

abbrev SessionOp.Ans : SessionOp → Type
  | .now => DateTime
  | .delete _ => Except DbError Nat
  | .commit => Unit
  | .close => Unit

inductive JobResult where
  | success (deleted : Nat)
  | error (e : DbError)
deriving DecidableEq, Repr

abbrev JobProg (α : Type) := Prog SessionOp SessionOp.Ans Empty α

def ask (o : SessionOp) : JobProg o.Ans := Prog.perform o

/-- 90 days. -/
def sessionRetention : Int := 90 * DateTime.microsPerDay

def cleanupOldSessions : JobProg JobResult := do
  let now ← ask .now
  let cutoff : DateTime := { now with instant := now.instant - sessionRetention }
  match ← ask (.delete cutoff) with
  | .ok deletedCount =>
    ask .commit
    ask .close
    pure (.success deletedCount)
  | .error e =>
    ask .close
    pure (.error e)

/-- The WHERE clause. -/
def expired (cutoff : DateTime) (t : ParkingTransaction) : Bool :=
  t.status = .completed && t.exitTime.any fun exit => decide (exit.instant < cutoff.instant)

/-- The database, and what an open session has made of it. -/
structure Session where
  now : DateTime
  committed : Database
  seen : Database

def exec (o : SessionOp) (s : Session) : Except Empty o.Ans × Session :=
  match o with
  | .now => (.ok s.now, s)
  | .delete cutoff =>
    match s.seen.deleteWhere (expired cutoff) with
    | some (n, d) => (.ok (.ok n), { s with seen := d })
    | none => (.ok (.error .foreignKeyViolation), s)
  | .commit => (.ok (), { s with committed := s.seen })
  | .close => (.ok (), { s with seen := s.committed })

/-- The database after a run of the job. -/
def cleaned (now : DateTime) (d : Database) : Database :=
  (cleanupOldSessions.run exec { now, committed := d, seen := d }).2.committed

/-- COMPLETED, and left longer ago than the retention. -/
def Old (now : DateTime) (t : ParkingTransaction) : Prop :=
  t.status = .completed ∧ ∃ exit, t.exitTime = some exit ∧
    exit.instant < now.instant - sessionRetention

/-- Some row of another table names the stay. -/
def Refers (d : Database) (i : Id) : Prop :=
  i ∈ d.foreignKeys ∨ ∃ s ∈ d.snapshots, s.parkingTransactionId = some i

/-- What nobody refers to goes when it is old, and all else stays. -/
structure Progress (now : DateTime) (d d' : Database) : Prop where
  deleted : ∀ t ∈ d.transactions, Old now t → ¬ Refers d t.id → t ∉ d'.transactions
  kept : ∀ t ∈ d.transactions, ¬ Old now t → t ∈ d'.transactions
  referred : ∀ t ∈ d.transactions, Refers d t.id → t ∈ d'.transactions
  others : { d'.toTables with transactions := d.transactions } = d.toTables

section Runs
variable {now : DateTime} {d : Database} {t : ParkingTransaction} {p : ParkingTransaction → Bool}

def cutoffOf (now : DateTime) : DateTime := { now with instant := now.instant - sessionRetention }

theorem expired_iff : expired (cutoffOf now) t = true ↔ Old now t := by
  simp only [expired, Bool.and_eq_true, decide_eq_true_eq, Option.any_eq_true]
  rfl

/-- A DELETE is all or nothing. -/
theorem cleaned_eq : cleaned now d =
    ((d.deleteWhere (expired (cutoffOf now))).map Prod.snd).getD d := by
  have hnow : (ask .now).run exec ⟨now, d, d⟩ = (.ok now, ⟨now, d, d⟩) := rfl
  rw [cleaned, cleanupOldSessions, Prog.run_bind_ok exec _ hnow]
  cases hdelete : d.deleteWhere (expired (cutoffOf now)) with
  | none =>
    have hask : (ask (.delete (cutoffOf now))).run exec ⟨now, d, d⟩ =
        (.ok (.error .foreignKeyViolation), ⟨now, d, d⟩) := by
      rw [ask, Prog.run_perform, exec, hdelete]
    rw [cutoffOf] at hask
    rw [Prog.run_bind_ok exec _ hask]
    rfl
  | some out =>
    obtain ⟨n, d'⟩ := out
    have hask : (ask (.delete (cutoffOf now))).run exec ⟨now, d, d⟩ =
        (.ok (.ok n), ⟨now, d, d'⟩) := by
      rw [ask, Prog.run_perform, exec, hdelete]
    rw [cutoffOf] at hask
    rw [Prog.run_bind_ok exec _ hask]
    rfl

/-- One old stay that a foreign key refers to saves them all. -/
theorem cleaned_of_key (ht : t ∈ d.transactions) (hold : Old now t) (hkey : t.id ∈ d.foreignKeys) :
    cleaned now d = d := by
  have hviolated : d.deleteWhere (expired (cutoffOf now)) = none := by
    rw [Database.deleteWhere, dif_neg]
    exact fun h => h t ht (expired_iff.mpr hold) hkey
  rw [cleaned_eq, hviolated]
  rfl

theorem cleaned_of_free (h : ∀ t ∈ d.transactions, Old now t → t.id ∉ d.foreignKeys) :
    (cleaned now d).toTables =
      { d.toTables with transactions := d.transactions.filter (!expired (cutoffOf now) ·) } := by
  have hfree : ∀ t ∈ d.transactions, expired (cutoffOf now) t = true → t.id ∉ d.foreignKeys :=
    fun t ht hexpired => h t ht (expired_iff.mp hexpired)
  rw [cleaned_eq, Database.deleteWhere, dif_pos hfree]
  rfl

theorem mem_cleaned (h : ∀ t ∈ d.transactions, Old now t → t.id ∉ d.foreignKeys) :
    t ∈ (cleaned now d).transactions ↔ t ∈ d.transactions ∧ ¬ Old now t := by
  rw [cleaned_of_free h, List.mem_filter, Bool.not_eq_true', ← Bool.not_eq_true, expired_iff]

/-- The job makes progress exactly if no old stay is referred to; or if one is by a foreign key,
and all of them are referred to. -/
theorem progress_iff : Progress now d (cleaned now d) ↔
    (∀ t ∈ d.transactions, Old now t → ¬ Refers d t.id) ∨
      (∃ t ∈ d.transactions, Old now t ∧ t.id ∈ d.foreignKeys) ∧
        ∀ t ∈ d.transactions, Old now t → Refers d t.id := by
  by_cases hkey : ∃ t ∈ d.transactions, Old now t ∧ t.id ∈ d.foreignKeys
  · obtain ⟨s, hs, hold, hs'⟩ := hkey
    have hsame := cleaned_of_key hs hold hs'
    rw [hsame]
    constructor
    · intro h
      refine .inr ⟨⟨s, hs, hold, hs'⟩, fun t ht hold' => ?_⟩
      by_contra hfree
      exact h.deleted t ht hold' hfree ht
    · rintro (hnone | ⟨-, hall⟩)
      · exact absurd (.inl hs') (hnone s hs hold)
      · exact ⟨fun t ht hold' hfree => absurd (hall t ht hold') hfree, fun t ht _ => ht,
          fun t ht _ => ht, rfl⟩
  · have hfree : ∀ t ∈ d.transactions, Old now t → t.id ∉ d.foreignKeys :=
      fun t ht hold hk => hkey ⟨t, ht, hold, hk⟩
    constructor
    · intro h
      refine .inl fun t ht hold hrefers => ?_
      exact ((mem_cleaned hfree).mp (h.referred t ht hrefers)).2 hold
    · rintro (hnone | ⟨hsome, -⟩)
      · refine ⟨fun t _ hold _ hmem => ((mem_cleaned hfree).mp hmem).2 hold,
          fun t ht hyoung => (mem_cleaned hfree).mpr ⟨ht, hyoung⟩,
          fun t ht hrefers => (mem_cleaned hfree).mpr ⟨ht, fun hold => hnone t ht hold hrefers⟩, ?_⟩
        rw [cleaned_of_free hfree]
      · exact absurd hsome hkey

end Runs

section Stays

def leftAt (id : Id) (method : PaymentMethod) : ParkingTransaction where
  id
  entryTime := .utc 0
  exitTime := some (.utc DateTime.microsPerHour)
  paymentMethod := some method
  fee := some 5000
  paidAmount := some 5000
  status := .completed

/-- One stay has been paid by card, the other one in cash. -/
def cardAndCash : Database where
  transactions := [leftAt 1 .emoney, leftAt 2 .cash]
  emoneyTransactions :=
    [{ id := 1, parkingTransactionId := some 1, cardNumber := "6013", amountDeducted := 5000,
       status := .success }]
  keys := by decide
  references := by decide

/-- The stay that has been paid by card keeps the other one, every night. -/
theorem cash_stays : cleaned (.utc (100 * DateTime.microsPerDay)) cardAndCash = cardAndCash ∧
    ¬ Progress (.utc (100 * DateTime.microsPerDay)) cardAndCash
      (cleaned (.utc (100 * DateTime.microsPerDay)) cardAndCash) := by
  have hold : ∀ i m, Old (.utc (100 * DateTime.microsPerDay)) (leftAt i m) := fun i m =>
    ⟨rfl, _, rfl, by decide⟩
  have hsame : cleaned (.utc (100 * DateTime.microsPerDay)) cardAndCash = cardAndCash :=
    cleaned_of_key List.mem_cons_self (hold 1 .emoney) (by decide)
  refine ⟨hsame, fun h => ?_⟩
  have hcash : leftAt 2 .cash ∈ cardAndCash.transactions := by decide
  have hfree : ¬ Refers cardAndCash 2 := by
    rintro (hkey | ⟨s, hs, -⟩)
    · revert hkey
      decide
    · cases hs
  have hgone := h.deleted _ hcash (hold 2 .cash) hfree
  rw [hsame] at hgone
  exact hgone hcash

end Stays
end ParkIt.Retention
