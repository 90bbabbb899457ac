import ParkIt.Lib.Groups
import ParkIt.Tables
import Mathlib.Data.List.Sort
import Mathlib.Tactic.Linarith
import Mathlib.Tactic.Ring

/-! The summary, the shift report and the transaction list of a range of dates. -/
namespace ParkIt.Reports
open Groups

/-- A time zone: the date at an instant, and the instant at which a date begins. -/
structure Zone where
  date : Int → Int
  midnight : Int → Int
  le_iff : ∀ d t, midnight d ≤ t ↔ d ≤ date t

/-- The zone at a UTC offset. -/
def Zone.fixed (offset : Int) : Zone where
  date t := (t + offset) / DateTime.microsPerDay
  midnight d := d * DateTime.microsPerDay - offset
  le_iff d t := by
    rw [Int.le_ediv_iff_mul_le (by decide)]
    omega

/-- The zone of the API process, in which the driver reads a bare date; that of the database
session, in which `date()` is taken; and `app_timezone`. -/
structure Zones where
  process : Zone
  session : Zone
  app : Zone

structure ShiftRow where
  id : Id
  name : String
deriving DecidableEq, Repr

structure UserRow where
  id : Id
  fullName : String
deriving DecidableEq, Repr

/-- The tables that the reports read; ids are primary keys. -/
structure Books where
  parking : List ParkingTransaction := []
  shifts : List ShiftRow := []
  users : List UserRow := []

section Aggregates

/-- SQL's `sum`: NULLs are left out, and without a value there is no sum. -/
def sqlSum (xs : List (Option Int)) : Option Int :=
  match xs.filterMap id with
  | [] => none
  | ys => some ys.sum

/-- `sum(...) or 0`. -/
def sumOrZero (xs : List (Option Int)) : Int := (sqlSum xs).getD 0

/-- `sum(case((payment_method == method, fee), else_=0)) or 0`. -/
def methodRevenue (method : PaymentMethod) (rows : List ParkingTransaction) : Int :=
  sumOrZero (rows.map fun t => if t.paymentMethod = some method then t.fee else some 0)

/-- `sum(case((status == status, 1), else_=0)) or 0`. -/
def statusCount (status : TxStatus) (rows : List ParkingTransaction) : Int :=
  sumOrZero (rows.map fun t => some (if t.status = status then 1 else 0))

/-- The aggregated columns that the summary and an item of the shift report share. -/
structure Totals where
  totalTransactions : ℕ
  totalRevenue : Int
  cashRevenue : Int
  emoneyRevenue : Int
  rfidRevenue : Int
  activeTransactions : Int
  completedTransactions : Int
deriving DecidableEq, Repr

def totals (rows : List ParkingTransaction) : Totals where
  totalTransactions := rows.length
  totalRevenue := sumOrZero (rows.map (·.fee))
  cashRevenue := methodRevenue .cash rows
  emoneyRevenue := methodRevenue .emoney rows
  rfidRevenue := methodRevenue .rfidMember rows
  activeTransactions := statusCount .active rows
  completedTransactions := statusCount .completed rows

end Aggregates

section Code
variable (z : Zones) (b : Books) (dateFrom dateTo : Int)

/-- `entry_time >= date_from AND entry_time < date_to`. -/
def inSummary (t : ParkingTransaction) : Bool :=
  decide (z.process.midnight dateFrom ≤ t.entryTime.instant ∧
    t.entryTime.instant < z.process.midnight dateTo)

def getSummaryReport : Totals := totals (b.parking.filter (inSummary z dateFrom dateTo))

structure ShiftReportItem where
  shiftId : Id
  shiftName : String
  date : Int
  operatorId : Option Id
  operatorName : Option String
  totals : Totals
deriving DecidableEq, Repr

structure ShiftReport where
  items : List ShiftReportItem
  totalRevenue : Int
  totalTransactions : ℕ
deriving DecidableEq, Repr

/-- A row of the join of shifts and transactions, with its operator's name if there is one. -/
structure JoinedRow where
  shift : ShiftRow
  operatorName : Option String
  tx : ParkingTransaction

/-- The shift of a transaction; the inner join leaves out what has none. -/
def shiftOf (t : ParkingTransaction) : Option ShiftRow :=
  t.shiftId.bind fun i => b.shifts.find? fun s => s.id = i

def operatorOf (t : ParkingTransaction) : Option UserRow :=
  t.operatorId.bind fun i => b.users.find? fun u => u.id = i

/-- `date(entry_time) >= date_from AND date(entry_time) <= date_to`. -/
def inShiftDates (t : ParkingTransaction) : Bool :=
  decide (dateFrom ≤ z.session.date t.entryTime.instant ∧
    z.session.date t.entryTime.instant ≤ dateTo)

def joinedRows (shiftId : Option Id) : List JoinedRow :=
  (b.parking.filter (inShiftDates z dateFrom dateTo)).filterMap fun t =>
    ((shiftOf b t).filter fun s => shiftId.all (· = s.id)).map fun s =>
      ⟨s, (operatorOf b t).map (·.fullName), t⟩

/-- The columns of the `GROUP BY`. -/
def groupKey (r : JoinedRow) : Id × String × Int × Option Id × Option String :=
  (r.shift.id, r.shift.name, z.session.date r.tx.entryTime.instant, r.tx.operatorId,
    r.operatorName)

def shiftItem (g : (Id × String × Int × Option Id × Option String) × List JoinedRow) :
    ShiftReportItem :=
  let (shiftId, shiftName, date, operatorId, operatorName) := g.1
  { shiftId, shiftName, date, operatorId, operatorName, totals := totals (g.2.map (·.tx)) }

/-- A `shift_id` of 0 does not filter. -/
def getShiftReport (shiftId : Option Id := none) : ShiftReport :=
  let rows := joinedRows z b dateFrom dateTo (shiftId.filter (· ≠ 0))
  let items := (groups (groupKey z) rows).map shiftItem
  { items
    totalRevenue := (items.map (·.totals.totalRevenue)).sum
    totalTransactions := (items.map (·.totals.totalTransactions)).sum }

/-- The bounds of the list are the beginnings of local days; the whole last day is in it. -/
def inList (dateFrom dateTo : Option Int) (t : ParkingTransaction) : Bool :=
  dateFrom.all (fun d => decide (z.app.midnight d ≤ t.entryTime.instant)) &&
    dateTo.all fun d => decide (t.entryTime.instant < z.app.midnight (d + 1))

structure TransactionList where
  items : List ParkingTransaction
  total : ℕ
  skip : ℕ
  limit : ℕ

/-- `others` are the filters by text, status and method. -/
def listTransactions (others : ParkingTransaction → Bool) (dateFrom dateTo : Option Int)
    (skip limit : ℕ) : TransactionList :=
  let rows := (b.parking.insertionSort fun t u => u.entryTime.instant ≤ t.entryTime.instant).filter
    fun t => others t && inList z dateFrom dateTo t
  { items := (rows.drop skip).take limit, total := rows.length, skip, limit }

end Code

section Sums
variable {rows rows' : List ParkingTransaction}

/-- The fee of a row, 0 when it has none. -/
def feeOf (t : ParkingTransaction) : Int := t.fee.getD 0

/-- The fee of a row as far as one of the three methods accounts for it. -/
def booked (t : ParkingTransaction) : Int :=
  if t.paymentMethod = some .cash ∨ t.paymentMethod = some .emoney ∨
    t.paymentMethod = some .rfidMember then feeOf t else 0

def Totals.byMethods (x : Totals) : Int := x.cashRevenue + x.emoneyRevenue + x.rfidRevenue

theorem sumOrZero_eq (xs : List (Option Int)) : sumOrZero xs = (xs.map (·.getD 0)).sum := by
  have hsum : (xs.filterMap id).sum = (xs.map (·.getD 0)).sum := by
    induction xs with
    | nil => rfl
    | cons x xs ih =>
      cases x with
      | none => exact ih.trans (zero_add _).symm
      | some v => exact congrArg (v + ·) ih
  unfold sumOrZero sqlSum
  split
  · rename_i hnone
    rw [← hsum, hnone]
    rfl
  · exact hsum

theorem totals_revenue (rows : List ParkingTransaction) :
    (totals rows).totalRevenue = (rows.map feeOf).sum := by
  rw [totals, sumOrZero_eq, List.map_map]
  rfl

theorem totals_byMethods (rows : List ParkingTransaction) :
    (totals rows).byMethods = (rows.map booked).sum := by
  simp only [Totals.byMethods, totals, methodRevenue, sumOrZero_eq, List.map_map]
  rw [← List.sum_map_add, ← List.sum_map_add]
  refine congrArg List.sum (List.map_congr_left fun t _ => ?_)
  rcases hm : t.paymentMethod with _ | (_ | _ | _ | _) <;> simp [booked, feeOf, hm]

/-- The sums of a column over the groups, whatever the column counts. -/
theorem sum_items {z : Zones} {l : List JoinedRow} {f : Totals → Int}
    {g : ParkingTransaction → Int} (h : ∀ rows, f (totals rows) = (rows.map g).sum) :
    (((groups (groupKey z) l).map shiftItem).map fun i => f i.totals).sum =
      ((l.map (·.tx)).map g).sum := by
  have hitem : ∀ x : (Id × String × Int × Option Id × Option String) × List JoinedRow,
      f (shiftItem x).totals = (x.2.map fun r => g r.tx).sum := by
    intro x
    rw [shiftItem, h, List.map_map]
    rfl
  rw [List.map_map, List.map_map]
  exact (congrArg List.sum (List.map_congr_left fun x _ => hitem x)).trans
    (sum_groups (groupKey z) l fun r => g r.tx)

theorem length_items {z : Zones} {l : List JoinedRow} :
    (((groups (groupKey z) l).map shiftItem).map fun i => i.totals.totalTransactions).sum =
      (l.map (·.tx)).length := by
  have hitem : ∀ x : (Id × String × Int × Option Id × Option String) × List JoinedRow,
      (shiftItem x).totals.totalTransactions = x.2.length := fun x => List.length_map _
  rw [List.map_map, List.length_map]
  exact (congrArg List.sum (List.map_congr_left fun x _ => hitem x)).trans
    (length_groups (groupKey z) l)

end Sums

section Agreement
variable {z : Zones} {b : Books} {dateFrom dateTo : Int}

/-- The transactions that each of the three answers is about. -/
def summaryRows (z : Zones) (b : Books) (dateFrom dateTo : Int) : List ParkingTransaction :=
  b.parking.filter (inSummary z dateFrom dateTo)

def shiftRows (z : Zones) (b : Books) (dateFrom dateTo : Int) : List ParkingTransaction :=
  (joinedRows z b dateFrom dateTo none).map (·.tx)

def listed (z : Zones) (b : Books) (dateFrom dateTo : Int) : TransactionList :=
  listTransactions z b (fun _ => true) (some dateFrom) (some dateTo) 0 b.parking.length

def completedFees (rows : List ParkingTransaction) : Int :=
  ((rows.filter fun t => t.status = .completed).map feeOf).sum

/-- The three answers describe one set of transactions, and the methods account for what the
completed ones have brought in. -/
structure Agree (z : Zones) (b : Books) (dateFrom dateTo : Int) : Prop where
  inShifts : shiftRows z b dateFrom dateTo = summaryRows z b dateFrom dateTo
  inList : (listed z b dateFrom dateTo).items.Perm (summaryRows z b dateFrom dateTo)
  counts : (getShiftReport z b dateFrom dateTo).totalTransactions =
      (getSummaryReport z b dateFrom dateTo).totalTransactions ∧
    (listed z b dateFrom dateTo).total = (getSummaryReport z b dateFrom dateTo).totalTransactions
  revenue : (getShiftReport z b dateFrom dateTo).totalRevenue =
      (getSummaryReport z b dateFrom dateTo).totalRevenue ∧
    ((listed z b dateFrom dateTo).items.map feeOf).sum =
      (getSummaryReport z b dateFrom dateTo).totalRevenue
  methods : (getSummaryReport z b dateFrom dateTo).byMethods =
      completedFees (summaryRows z b dateFrom dateTo) ∧
    ((getShiftReport z b dateFrom dateTo).items.map (·.totals.byMethods)).sum =
      completedFees (shiftRows z b dateFrom dateTo)

/-- A transaction of the local dates has a shift, its date of the database session is one of the
dates too, and its date of the API process is one of them but the last; no other transaction is
taken for one of the dates. -/
def Aligned (z : Zones) (b : Books) (dateFrom dateTo : Int) : Prop :=
  ∀ t ∈ b.parking,
    let processDate := z.process.date t.entryTime.instant
    let sessionDate := z.session.date t.entryTime.instant
    let localDate := z.app.date t.entryTime.instant
    if dateFrom ≤ localDate ∧ localDate ≤ dateTo then
      (shiftOf b t).isSome ∧ (dateFrom ≤ sessionDate ∧ sessionDate ≤ dateTo) ∧
        (dateFrom ≤ processDate ∧ processDate < dateTo)
    else
      ¬ (dateFrom ≤ processDate ∧ processDate < dateTo) ∧
        ((shiftOf b t).isSome → ¬ (dateFrom ≤ sessionDate ∧ sessionDate ≤ dateTo))

/-- What the three methods account for on transactions that are not completed is what they leave
out on completed ones. -/
def Balanced (z : Zones) (b : Books) (dateFrom dateTo : Int) : Prop :=
  (((summaryRows z b dateFrom dateTo).filter fun t => t.status ≠ .completed).map booked).sum =
    (((summaryRows z b dateFrom dateTo).filter fun t => t.status = .completed).map
      fun t => feeOf t - booked t).sum

theorem inSummary_iff {t : ParkingTransaction} : inSummary z dateFrom dateTo t = true ↔
    dateFrom ≤ z.process.date t.entryTime.instant ∧
      z.process.date t.entryTime.instant < dateTo := by
  rw [inSummary, decide_eq_true_eq, z.process.le_iff, ← not_le, z.process.le_iff, not_le]

theorem inList_iff {t : ParkingTransaction} :
    inList z (some dateFrom) (some dateTo) t = true ↔
      dateFrom ≤ z.app.date t.entryTime.instant ∧ z.app.date t.entryTime.instant ≤ dateTo := by
  simp only [inList, Option.all_some, Bool.and_eq_true, decide_eq_true_eq]
  rw [z.app.le_iff, ← not_le, z.app.le_iff]
  omega

/-- The join keeps the rows that have a shift. -/
theorem shiftRows_eq : shiftRows z b dateFrom dateTo =
    b.parking.filter fun t => inShiftDates z dateFrom dateTo t && (shiftOf b t).isSome := by
  unfold shiftRows joinedRows
  induction b.parking with
  | nil => rfl
  | cons t ts ih =>
    rcases hdates : inShiftDates z dateFrom dateTo t with _ | _
    · simpa [hdates] using ih
    · rcases hshift : shiftOf b t with _ | s
      · simpa [hdates, hshift] using ih
      · simpa [hdates, hshift] using ih

theorem listed_total : (listed z b dateFrom dateTo).total =
    (b.parking.filter (inList z (some dateFrom) (some dateTo))).length := by
  have hperm := (List.perm_insertionSort
    (fun t u : ParkingTransaction => u.entryTime.instant ≤ t.entryTime.instant) b.parking).filter
      (inList z (some dateFrom) (some dateTo))
  simpa [listed, listTransactions] using hperm.length_eq

theorem listed_perm : (listed z b dateFrom dateTo).items.Perm
    (b.parking.filter (inList z (some dateFrom) (some dateTo))) := by
  have hperm := (List.perm_insertionSort
    (fun t u : ParkingTransaction => u.entryTime.instant ≤ t.entryTime.instant) b.parking).filter
      (inList z (some dateFrom) (some dateTo))
  have hlen : (b.parking.filter (inList z (some dateFrom) (some dateTo))).length ≤
      b.parking.length := List.length_filter_le _ _
  simp only [listed, listTransactions, List.drop_zero, Bool.true_and]
  rw [List.take_of_length_le (hperm.length_eq.trans_le hlen)]
  exact hperm

theorem shiftReport_transactions : (getShiftReport z b dateFrom dateTo).totalTransactions =
    (shiftRows z b dateFrom dateTo).length := length_items

theorem shiftReport_revenue : (getShiftReport z b dateFrom dateTo).totalRevenue =
    ((shiftRows z b dateFrom dateTo).map feeOf).sum := sum_items totals_revenue

theorem shiftReport_methods :
    ((getShiftReport z b dateFrom dateTo).items.map (·.totals.byMethods)).sum =
      ((shiftRows z b dateFrom dateTo).map booked).sum := sum_items totals_byMethods

theorem sum_split (rows : List ParkingTransaction) (f : ParkingTransaction → Int) :
    (rows.map f).sum = ((rows.filter fun t => t.status = .completed).map f).sum +
      ((rows.filter fun t => t.status ≠ .completed).map f).sum := by
  induction rows with
  | nil => rfl
  | cons t ts ih =>
    by_cases h : t.status = .completed
    · simp [h, ih, add_assoc]
    · simp only [List.map_cons, List.sum_cons, ih]
      simp [h]
      ring

/-- What it takes for the methods to account for the completed transactions. -/
theorem balanced_iff : Balanced z b dateFrom dateTo ↔
    ((summaryRows z b dateFrom dateTo).map booked).sum =
      completedFees (summaryRows z b dateFrom dateTo) := by
  unfold Balanced completedFees
  have hsub : ∀ l : List ParkingTransaction,
      (l.map fun t => feeOf t - booked t).sum = (l.map feeOf).sum - (l.map booked).sum := by
    intro l
    induction l with
    | nil => rfl
    | cons t l ih => simp only [List.map_cons, List.sum_cons, ih]; ring
  rw [sum_split (summaryRows z b dateFrom dateTo) booked, hsub, add_comm, ← eq_sub_iff_add_eq]

/-- Nothing but the dates of the rows and their shifts decides whether the rows are the same. -/
theorem aligned_iff : Aligned z b dateFrom dateTo ↔
    ∀ t ∈ b.parking,
      (inShiftDates z dateFrom dateTo t && (shiftOf b t).isSome) = inSummary z dateFrom dateTo t ∧
        inList z (some dateFrom) (some dateTo) t = inSummary z dateFrom dateTo t := by
  refine forall₂_congr fun t _ => ?_
  have hshift : (inShiftDates z dateFrom dateTo t && (shiftOf b t).isSome) = true ↔
      (dateFrom ≤ z.session.date t.entryTime.instant ∧
        z.session.date t.entryTime.instant ≤ dateTo) ∧ (shiftOf b t).isSome := by
    rw [Bool.and_eq_true, inShiftDates, decide_eq_true_eq]
  rw [Bool.eq_iff_iff (a := inShiftDates z dateFrom dateTo t && (shiftOf b t).isSome),
    Bool.eq_iff_iff (a := inList z (some dateFrom) (some dateTo) t), hshift, inSummary_iff,
    inList_iff]
  dsimp only
  by_cases hlocal : dateFrom ≤ z.app.date t.entryTime.instant ∧
      z.app.date t.entryTime.instant ≤ dateTo
  · rw [if_pos hlocal]
    grind
  · rw [if_neg hlocal]
    grind

theorem rows_eq_of_aligned (h : Aligned z b dateFrom dateTo) :
    shiftRows z b dateFrom dateTo = summaryRows z b dateFrom dateTo ∧
      b.parking.filter (inList z (some dateFrom) (some dateTo)) =
        summaryRows z b dateFrom dateTo := by
  rw [aligned_iff] at h
  rw [shiftRows_eq]
  exact ⟨List.filter_congr fun t ht => (h t ht).1, List.filter_congr fun t ht => (h t ht).2⟩

/-- Where the answers are about the same rows, each row is in all of them or in none. -/
theorem aligned_of_rows (hshift : shiftRows z b dateFrom dateTo = summaryRows z b dateFrom dateTo)
    (hlist : (listed z b dateFrom dateTo).items.Perm (summaryRows z b dateFrom dateTo)) :
    Aligned z b dateFrom dateTo := by
  rw [aligned_iff]
  intro t ht
  have hmem : ∀ p : ParkingTransaction → Bool, t ∈ b.parking.filter p ↔ p t = true :=
    fun p => by simp [ht]
  constructor
  · rw [shiftRows_eq] at hshift
    have hiff := hmem fun t => inShiftDates z dateFrom dateTo t && (shiftOf b t).isSome
    rw [hshift] at hiff
    exact Bool.eq_iff_iff.mpr (hiff.symm.trans (hmem (inSummary z dateFrom dateTo)))
  · rw [Bool.eq_iff_iff, ← hmem, ← hmem]
    exact (listed_perm.symm.trans hlist).mem_iff

/-- The reports agree exactly when the rows are dated alike and all have shifts, and the methods
account for the completed ones. -/
theorem reports_agree :
    Agree z b dateFrom dateTo ↔
      Aligned z b dateFrom dateTo ∧ Balanced z b dateFrom dateTo := by
  constructor
  · intro h
    refine ⟨aligned_of_rows h.inShifts h.inList, balanced_iff.mpr ?_⟩
    exact (totals_byMethods _).symm.trans h.methods.1
  · rintro ⟨haligned, hbalanced⟩
    obtain ⟨hshift, hlist⟩ := rows_eq_of_aligned haligned
    have hperm : (listed z b dateFrom dateTo).items.Perm (summaryRows z b dateFrom dateTo) :=
      hlist ▸ listed_perm
    have hrevenue : (getSummaryReport z b dateFrom dateTo).totalRevenue =
        ((summaryRows z b dateFrom dateTo).map feeOf).sum := totals_revenue _
    have hmethods := balanced_iff.mp hbalanced
    exact
      { inShifts := hshift
        inList := hperm
        counts := ⟨shiftReport_transactions.trans (congrArg List.length hshift),
          listed_total.trans (congrArg List.length hlist)⟩
        revenue := ⟨by rw [shiftReport_revenue, hshift, hrevenue],
          by rw [hrevenue, (hperm.map feeOf).sum_eq]⟩
        methods := ⟨(totals_byMethods _).trans hmethods,
          by rw [shiftReport_methods, hshift, hmethods]⟩ }

end Agreement

section LastDay

/-- Every zone of the site is the local one. -/
def jakarta : Zones :=
  let wib := Zone.fixed (7 * DateTime.microsPerHour)
  ⟨wib, wib, wib⟩

/-- A car that has come at ten in the morning and has paid 6,000 in cash. -/
def morning : Books where
  parking := [{ id := 1, entryTime := .utc (3 * DateTime.microsPerHour), status := .completed,
                paymentMethod := some .cash, fee := some 6000, shiftId := some 1 }]
  shifts := [⟨1, "Pagi"⟩]

/-- The summary of a day on which one car has paid is empty. -/
theorem last_day_left_out : ¬ Agree jakarta morning 0 0 ∧
    (getSummaryReport jakarta morning 0 0).totalRevenue = 0 ∧
    (getShiftReport jakarta morning 0 0).totalRevenue = 6000 ∧
    (listed jakarta morning 0 0).total = 1 := by
  have hsummary : (getSummaryReport jakarta morning 0 0).totalRevenue = 0 := by decide
  have hshift : (getShiftReport jakarta morning 0 0).totalRevenue = 6000 := by decide
  refine ⟨fun h => ?_, hsummary, hshift, by decide⟩
  have hrevenue := h.revenue.1
  rw [hsummary, hshift] at hrevenue
  cases hrevenue

end LastDay

end ParkIt.Reports
