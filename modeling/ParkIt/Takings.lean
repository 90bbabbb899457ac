import ParkIt.Settlement.Balance
import ParkIt.Reports

/-! The e-money report, and how it goes with the settlement records. -/
namespace ParkIt.Reports

open Groups Transition Settlement

/-- The counts by status that the report has come to. -/
structure StatusCounts where
  success : ℕ := 0
  failed : ℕ := 0
  lostContact : ℕ := 0
deriving DecidableEq, Repr

/-- One row of `GROUP BY status`; only the failures are added up. -/
def StatusCounts.add (c : StatusCounts) (status : DeductStatus) (count : ℕ) : StatusCounts :=
  if status.value = "SUCCESS" then { c with success := count }
  else if status.value = "FAILED" ∨ status.value = "CORRECTION_FAILED" then
    { c with failed := c.failed + count }
  else if status.value = "LOST_CONTACT" then { c with lostContact := count }
  else c

structure EmoneyReport where
  totalEmoneyTransactions : ℕ
  totalDeducted : Int
  successCount : ℕ
  failedCount : ℕ
  lostContactCount : ℕ
  unsettledCount : ℕ
  settledCount : ℕ
deriving DecidableEq, Repr

/-- `created_at >= date_from AND created_at < date_to`. -/
def created (z : Zones) (dateFrom dateTo : Int) (e : EmoneyTransaction) : Bool :=
  decide (z.process.midnight dateFrom ≤ e.createdAt ∧ e.createdAt < z.process.midnight dateTo)

def statusCounts (rows : List EmoneyTransaction) : StatusCounts :=
  (groups (·.status) rows).foldl (fun c g => c.add g.1 g.2.length) {}

def getEmoneyReport (z : Zones) (emoney : List EmoneyTransaction) (dateFrom dateTo : Int) :
    EmoneyReport :=
  let rows := emoney.filter (created z dateFrom dateTo)
  let counts := statusCounts rows
  { totalEmoneyTransactions := rows.length
    totalDeducted := sumOrZero (rows.map fun e => some e.amountDeducted)
    successCount := counts.success
    failedCount := counts.failed
    lostContactCount := counts.lostContact
    unsettledCount := (rows.filter fun e =>
      e.settlementBatchId.isNone && decide (e.status = .success)).length
    settledCount := (rows.filter fun e => e.settlementBatchId.isSome).length }

section Counts
variable {rows : List EmoneyTransaction} {status : DeductStatus}

/-- How many of the rows have the status. -/
def having (rows : List EmoneyTransaction) (status : DeductStatus) : ℕ :=
  (rows.filter fun e => decide (e.status = status)).length

theorem having_eq_zero (h : status ∉ rows.map (·.status)) : having rows status = 0 := by
  refine List.length_eq_zero_iff.mpr (List.filter_eq_nil_iff.mpr fun e he hstatus => h ?_)
  exact of_decide_eq_true hstatus ▸ List.mem_map_of_mem he

/-- The counts after the groups of some statuses, each met once. -/
theorem fold_counts {ks : List DeductStatus} (hks : ks.Nodup) (c : StatusCounts) :
    ks.foldl (fun c k => c.add k (having rows k)) c =
      { success := if .success ∈ ks then having rows .success else c.success
        failed := c.failed + (if .failed ∈ ks then having rows .failed else 0) +
          (if .correctionFailed ∈ ks then having rows .correctionFailed else 0)
        lostContact := if .lostContact ∈ ks then having rows .lostContact else c.lostContact } := by
  induction ks generalizing c with
  | nil => simp
  | cons k ks ih =>
    obtain ⟨hk, hks⟩ := List.nodup_cons.mp hks
    rw [List.foldl_cons, ih hks]
    cases k <;>
      simp [StatusCounts.add, DeductStatus.value, hk, Nat.add_assoc, Nat.add_left_comm, Nat.add_comm]

/-- A status that occurs in no row has no group, and is counted as 0. -/
theorem statusCounts_eq (rows : List EmoneyTransaction) :
    statusCounts rows =
      { success := having rows .success
        failed := having rows .failed + having rows .correctionFailed
        lostContact := having rows .lostContact } := by
  have hif : ∀ status, (if status ∈ (rows.map (·.status)).dedup then having rows status else 0) =
      having rows status := by
    intro status
    split
    · rfl
    · rename_i hmem
      exact (having_eq_zero fun h => hmem (List.mem_dedup.mpr h)).symm
  unfold statusCounts groups
  rw [List.foldl_map]
  refine (fold_counts (List.nodup_dedup _) {}).trans ?_
  simp only [hif, Nat.zero_add]

/-- The three counts of the report are of different rows. -/
theorem having_le (rows : List EmoneyTransaction) :
    having rows .success + (having rows .failed + having rows .correctionFailed) +
      having rows .lostContact ≤ rows.length := by
  unfold having
  induction rows with
  | nil => exact le_rfl
  | cons e rows ih =>
    rcases hstatus : e.status <;> simp [hstatus] <;> omega

theorem amounts_split (rows : List EmoneyTransaction) :
    (rows.map (·.amountDeducted)).sum =
      ((rows.filter (·.settlementBatchId.isSome)).map (·.amountDeducted)).sum +
        ((rows.filter (·.settlementBatchId.isNone)).map (·.amountDeducted)).sum := by
  induction rows with
  | nil => rfl
  | cons e rows ih =>
    rcases hb : e.settlementBatchId with _ | i <;> simp [hb, ih] <;> ring

end Counts

section Balance
variable {db : Db} {z : Zones} {dateFrom dateTo : Int}

/-- Each linked row is under one record. -/
theorem sum_records {M : Type*} [AddCommMonoid M] (h : db.Balanced) (f : EmoneyTransaction → M) :
    (db.settlements.map fun r => ((db.rowsOf r.id).map f).sum).sum =
      ((db.emoney.filter (·.settlementBatchId.isSome)).map f).sum := by
  have hkeys : (db.settlements.map fun r => some r.id).Nodup := by
    have hmap := h.records.map (Option.some_injective Id)
    rwa [List.map_map] at hmap
  have hin : ∀ e ∈ db.emoney.filter (·.settlementBatchId.isSome),
      e.settlementBatchId ∈ db.settlements.map fun r => some r.id := by
    intro e he
    obtain ⟨hmem, hsome⟩ := List.mem_filter.mp he
    obtain ⟨i, hi⟩ := Option.isSome_iff_exists.mp hsome
    obtain ⟨-, r, hr, hid⟩ := h.linked e hmem i hi
    exact List.mem_map.mpr ⟨r, hr, by rw [hi, hid]⟩
  rw [← sum_by_keys hkeys hin f, List.map_map]
  refine congrArg List.sum (List.map_congr_left fun r _ => ?_)
  have hrows : db.rowsOf r.id = (db.emoney.filter (·.settlementBatchId.isSome)).filter
      fun e => decide (e.settlementBatchId = some r.id) := by
    rw [Db.rowsOf, List.filter_filter]
    refine List.filter_congr fun e _ => ?_
    by_cases he : e.settlementBatchId = some r.id <;> simp [he]
  rw [hrows]
  rfl

theorem total_transactions (h : db.Balanced) :
    (db.settlements.map (·.totalTransactions)).sum =
      (db.emoney.filter (·.settlementBatchId.isSome)).length := by
  have hone : ∀ l : List EmoneyTransaction, (l.map fun _ => (1 : ℕ)).sum = l.length := fun l => by
    rw [List.map_const', List.sum_replicate]
    exact Nat.mul_one _
  rw [← hone, ← sum_records h]
  refine congrArg List.sum (List.map_congr_left fun r hr => ?_)
  rw [hone]
  exact h.counts r hr

theorem total_amounts (h : db.Balanced) :
    (db.settlements.map (·.totalAmount)).sum =
      ((db.emoney.filter (·.settlementBatchId.isSome)).map (·.amountDeducted)).sum := by
  rw [← sum_records h]
  exact congrArg List.sum (List.map_congr_left fun r hr => h.amounts r hr)

/-- Every successful deduct of a range is either settled or not, and no other row is settled. -/
theorem settled_unsettled (h : db.Balanced) :
    (getEmoneyReport z db.emoney dateFrom dateTo).settledCount +
        (getEmoneyReport z db.emoney dateFrom dateTo).unsettledCount =
      (getEmoneyReport z db.emoney dateFrom dateTo).successCount := by
  have hsplit : ∀ rows : List EmoneyTransaction, (∀ e ∈ rows, e ∈ db.emoney) →
      (rows.filter fun e => e.settlementBatchId.isSome).length +
        (rows.filter fun e => e.settlementBatchId.isNone && decide (e.status = .success)).length =
        having rows .success := by
    intro rows hrows
    unfold having
    induction rows with
    | nil => rfl
    | cons e rows ih =>
      have hrest := ih fun e' he' => hrows e' (List.mem_cons_of_mem _ he')
      have hlinked : ∀ i, e.settlementBatchId = some i → e.status = .success :=
        fun i hi => (h.linked e (hrows e List.mem_cons_self) i hi).1
      simp only [List.filter_cons]
      rcases hb : e.settlementBatchId with _ | i
      · by_cases hstatus : e.status = .success <;> simp [hstatus] <;> omega
      · simp [hlinked i hb]
        omega
  have hcounts : (getEmoneyReport z db.emoney dateFrom dateTo).successCount =
      having (db.emoney.filter (created z dateFrom dateTo)) .success :=
    congrArg StatusCounts.success (statusCounts_eq _)
  rw [hcounts]
  exact hsplit _ fun e he => List.mem_of_mem_filter he

end Balance

section Runs
variable {sha256 : String → String} {s : Upload.Site} {xs : List (BookEvent × Upload.Site)}
  {z : Zones} {dateFrom dateTo : Int}

/-- What the report shows in every reachable state: the successful deducts are the settled and the
unsettled ones, and a report on all rows shows what the settlement records come to. -/
theorem emoney_report_balances (hs : Booked s) (h : Path (BookStep sha256) s xs) :
    let db := (finish s xs).desk.world.db
    let r := getEmoneyReport z db.emoney dateFrom dateTo
    r.settledCount + r.unsettledCount = r.successCount ∧
      r.successCount + r.failedCount + r.lostContactCount ≤ r.totalEmoneyTransactions ∧
      ((∀ e ∈ db.emoney, created z dateFrom dateTo e = true) →
        r.settledCount = (db.settlements.map (·.totalTransactions)).sum ∧
        r.totalDeducted = (db.settlements.map (·.totalAmount)).sum +
          ((db.emoney.filter (·.settlementBatchId.isNone)).map (·.amountDeducted)).sum) := by
  intro db r
  have hbalanced : db.Balanced := (booked_run h hs).balanced
  refine ⟨settled_unsettled hbalanced, ?_, fun hall => ?_⟩
  · have hcounted := having_le (db.emoney.filter (created z dateFrom dateTo))
    have hcounts := statusCounts_eq (db.emoney.filter (created z dateFrom dateTo))
    change (statusCounts _).success + (statusCounts _).failed + (statusCounts _).lostContact ≤ _
    rw [hcounts]
    exact hcounted
  · have hrows : db.emoney.filter (created z dateFrom dateTo) = db.emoney :=
      List.filter_eq_self.mpr hall
    rw [total_transactions hbalanced, total_amounts hbalanced, ← amounts_split]
    refine ⟨?_, ?_⟩
    · change ((db.emoney.filter (created z dateFrom dateTo)).filter _).length = _
      rw [hrows]
    · change sumOrZero ((db.emoney.filter (created z dateFrom dateTo)).map _) = _
      rw [hrows, sumOrZero_eq, List.map_map]
      rfl

end Runs

section Evening

theorem emoney_report_balances_evening :
    let db := (finish evening eveningRun).desk.world.db
    let r := getEmoneyReport jakarta db.emoney 0 1
    r.settledCount + r.unsettledCount = r.successCount ∧
      r.successCount + r.failedCount + r.lostContactCount ≤ r.totalEmoneyTransactions ∧
      ((∀ e ∈ db.emoney, created jakarta 0 1 e = true) →
        r.settledCount = (db.settlements.map (·.totalTransactions)).sum ∧
        r.totalDeducted = (db.settlements.map (·.totalAmount)).sum +
          ((db.emoney.filter (·.settlementBatchId.isNone)).map (·.amountDeducted)).sum) :=
  emoney_report_balances evening_booked evening_path

/-- Two of the four deducts have been settled; a QR payment never is. -/
example : getEmoneyReport jakarta (finish evening eveningRun).desk.world.db.emoney 0 1 =
    { totalEmoneyTransactions := 4, totalDeducted := 18000, successCount := 4, failedCount := 0
      lostContactCount := 0, unsettledCount := 2, settledCount := 2 } := by decide

end Evening
end ParkIt.Reports
