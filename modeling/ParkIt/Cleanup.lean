import ParkIt.Completion
import Mathlib.Data.List.Sort
import Mathlib.Data.Fintype.Basic

/-! The cleanup job that resets PENDING payments, among the calls that complete stays. -/
namespace ParkIt.Cleanup

open Effects RowLock Transition

/-- What the job asks of the clock and of its database session. -/
inductive CleanupOp where
  | now
  | selectStuck (cutoff : DateTime)
  | reset (i : Id) (fee : Bool)
  | commit

abbrev CleanupOp.Ans : CleanupOp → Type
  | .now => DateTime
  | .selectStuck _ => List ParkingTransaction
  | .reset _ _ => Unit
  | .commit => Unit

abbrev JobProg (α : Type) := Prog CleanupOp CleanupOp.Ans Exc α

def ask (o : CleanupOp) : JobProg o.Ans := Prog.perform o

def pendingPaymentTimeout : Int := 5 * DateTime.microsPerMinute

/-- The UPDATEs of a flush; the column `fee` is named only where the object had a fee. -/
def flushResets : List ParkingTransaction → JobProg Unit
  | [] => pure ()
  | tx :: txs => do
    ask (.reset tx.id tx.fee.isSome)
    flushResets txs

/-- The answer is the number of rows; a statement that fails ends the session as well. -/
def timeoutPendingPayments : JobProg Nat := do
  let now ← ask .now
  let cutoff : DateTime := { now with instant := now.instant - pendingPaymentTimeout }
  let stuckTxs ← ask (.selectStuck cutoff)
  if stuckTxs.length > 0 then do
    -- the flush of the commit goes through the objects by primary key
    flushResets (stuckTxs.insertionSort fun a b => a.id ≤ b.id)
    ask .commit
    pure stuckTxs.length
  else pure stuckTxs.length

/-- The WHERE clause; when a row was last updated is known to the database only. -/
def isStuck (cutoff : DateTime) (updatedAt : Id → DateTime) (t : ParkingTransaction) : Bool :=
  t.status = .active && t.paymentMethod = some .pending &&
    decide ((updatedAt t.id).instant < cutoff.instant)

def resetRow (fee : Bool) (t : ParkingTransaction) : ParkingTransaction :=
  { t with paymentMethod := none, fee := if fee then none else t.fee }

def resetSchema : Schema Id ParkingTransaction Bool where
  key := ParkingTransaction.id
  ap := resetRow
  key_ap _ _ := rfl

/-- A run of the job: what is left to do, the rows it has loaded, and its uncommitted updates. -/
inductive Job where
  | idle
  | running (p : JobProg Nat) (found : List Id) (w : List (Id × Bool))
  | ended (resetCount : Option Nat)

/-- The rows that a run has loaded and has not updated yet. -/
def Job.awaits : Job → List Id
  | .running _ found w => found.filter fun i => i ∉ w.map Prod.fst
  | _ => []

/-- Calls and runs of the job lock rows of the same table. -/
structure State (ι κ σ : Type) where
  pay : PaySys (ι ⊕ κ) σ
  job : κ → Job

inductive CleanLabel (ι κ : Type) where
  | pay (l : PayLabel (ι ⊕ κ))
  | stmt (k : κ)
  | commit (k : κ)

section Steps
variable {ι κ σ : Type} [DecidableEq ι] [DecidableEq κ]

def State.set (s : State ι κ σ) (k : κ) (x : Job) : State ι κ σ :=
  { s with job := Function.update s.job k x }

/-- The end of a transaction of run `k` gives its locks back. -/
def State.release (s : State ι κ σ) (k : κ) : State ι κ σ :=
  { s with pay := s.pay.release (.inr k) }

inductive CleanStep (ext : σ → (e : Effect) → e.Ans → σ → Prop) :
    State ι κ σ → CleanLabel ι κ → State ι κ σ → Prop
  | pay {s l u} : PayStep ext s.pay l u → (∀ k, l ≠ .begin (.inr k)) →
      CleanStep ext s (.pay l) { s with pay := u }
  | start {s k} : s.job k = .idle →
      CleanStep ext s (.stmt k) (s.set k (.running timeoutPendingPayments [] []))
  | now {s k f found w now} : s.job k = .running (.call .now f) found w →
      CleanStep ext s (.stmt k) (s.set k (.running (f now) found w))
  | select {s k cutoff f found w updatedAt rows} :
      s.job k = .running (.call (.selectStuck cutoff) f) found w →
      rows.Perm ((s.pay.table.map (resetSchema.overlay w)).filter (isStuck cutoff updatedAt)) →
      CleanStep ext s (.stmt k) (s.set k (.running (f rows) (rows.map (·.id)) w))
  | reset {s k i fee f found w t} : s.job k = .running (.call (.reset i fee) f) found w →
      s.pay.Free i (.inr k) → txSchema.lookup s.pay.table i = some t →
      CleanStep ext s (.stmt k) ({ s with pay := s.pay.take i (.inr k) }.set k
        (.running (f ()) found (w ++ [(i, fee)])))
  | commit {s k f found w} : s.job k = .running (.call .commit f) found w →
      CleanStep ext s (.commit k) ({ s with pay :=
        { s.pay with table := s.pay.table.map (resetSchema.overlay w) } }.release k |>.set k
          (.running (f ()) [] []))
  | done {s k n found w} : s.job k = .running (.pure n) found w →
      CleanStep ext s (.stmt k) (s.release k |>.set k (.ended (some n)))
  | abort {s k p found w} : s.job k = .running p found w →
      CleanStep ext s (.stmt k) (s.release k |>.set k (.ended none))

/-- No call completes a stay that a run of the job has loaded and is still about to update. -/
def Timely (s : State ι κ σ) : CleanLabel ι κ → Prop
  | .pay (.commit _ _ w) => ∀ k, ∀ i ∈ (s.job k).awaits, ¬ Completes w i
  | _ => True

end Steps

/-- The job updates only rows that it has loaded, and none after its commit. -/
def resetGuard : Protocol CleanupOp CleanupOp.Ans (List Id) where
  allow found o := match o with
    | .reset i _ => i ∈ found
    | _ => True
  expect _ _ _ := True
  next found o := match o with
    | .selectStuck _ => fun rows => rows.map (·.id)
    | .commit => fun _ => []
    | .now | .reset _ _ => fun _ => found

abbrev Guarded {α : Type} (found : List Id) (p : JobProg α) : Prop :=
  Follows resetGuard found p (fun _ _ => True) fun _ _ => True

theorem follows_flushResets {found : List Id} {txs : List ParkingTransaction}
    (h : ∀ tx ∈ txs, tx.id ∈ found) :
    Follows resetGuard found (flushResets txs) (fun g _ => g = found) fun _ _ => True := by
  induction txs with
  | nil => rfl
  | cons tx txs ih =>
    refine ⟨h tx List.mem_cons_self, fun _ _ => ?_⟩
    exact ih fun tx' hmem => h tx' (List.mem_cons_of_mem _ hmem)

theorem guarded_timeout : Guarded [] timeoutPendingPayments := by
  refine ⟨trivial, fun now _ => ⟨trivial, fun stuckTxs _ => ?_⟩⟩
  change Guarded (stuckTxs.map (·.id)) (if stuckTxs.length > 0 then _ else _)
  split
  · refine (follows_flushResets fun tx hmem => ?_).bind (fun _ _ h => h) fun _ _ _ => ?_
    · exact List.mem_map_of_mem ((List.mem_insertionSort _).mp hmem)
    · exact ⟨trivial, fun _ _ => trivial⟩
  · trivial

section Tables
variable {ι σ : Type} {s u : PaySys ι σ} {w : List (Id × Bool)} {i : Id} {t : ParkingTransaction}

def ActiveIn (s : PaySys ι σ) (i : Id) : Prop :=
  ∃ t, txSchema.lookup s.table i = some t ∧ t.status = .active

@[simp] theorem status_overlay : (resetSchema.overlay w t).status = t.status := by
  have hall : ∀ us t, (resetSchema.applyAll us t).status = t.status := by
    intro us
    induction us with
    | nil => exact fun _ => rfl
    | cons fee us ih => exact fun t => ih (resetRow fee t)
  exact hall _ t

theorem lookup_reset : txSchema.lookup (s.table.map (resetSchema.overlay w)) i =
    (txSchema.lookup s.table i).map (resetSchema.overlay w) := lookup_map (S := resetSchema)

/-- The commit of the job leaves a row alone that it has not updated. -/
theorem lookup_reset_of_not_mem (h : i ∉ w.map Prod.fst) :
    txSchema.lookup (s.table.map (resetSchema.overlay w)) i = txSchema.lookup s.table i := by
  have hnone : writesTo w i = [] := by
    rw [writesTo, List.filterMap_eq_nil_iff]
    intro x hx
    rw [if_neg]
    rintro rfl
    exact h (List.mem_map_of_mem hx)
  rw [lookup_reset]
  rcases hl : txSchema.lookup s.table i with _ | t
  · rfl
  · have hkey : resetSchema.key t = i := lookup_key hl
    rw [Option.map_some, overlay_of_key hkey, hnone, applyAll_nil]

theorem activeIn_reset (hu : u.table = s.table.map (resetSchema.overlay w)) (h : ActiveIn s i) :
    ActiveIn u i := by
  obtain ⟨t, ht, ha⟩ := h
  exact ⟨resetSchema.overlay w t, by rw [hu, lookup_reset, ht]; rfl, by simpa using ha⟩

end Tables

section Runs
variable {ι κ σ : Type} [DecidableEq ι] [DecidableEq κ]
  {ext : σ → (e : Effect) → e.Ans → σ → Prop} {s t : State ι κ σ} {l : CleanLabel ι κ}
  {u v : PaySys (ι ⊕ κ) σ} {l' : PayLabel (ι ⊕ κ)} {k : κ} {i : Id}

/-- What a run of the job can rely on: its rows are ACTIVE, and locked once it has updated them. -/
structure JobOk (u : PaySys (ι ⊕ κ) σ) (k : κ) (p : JobProg Nat) (found : List Id)
    (w : List (Id × Bool)) : Prop where
  guarded : Guarded found p
  found : ∀ i ∈ found, ActiveIn u i
  written : ∀ i ∈ w.map Prod.fst, u.holder i = some (.inr k) ∧ ActiveIn u i

structure Sound (s : State ι κ σ) : Prop where
  rows : Inv txSchema Live Tells Fits s.pay
  apart : ∀ k, s.pay.session (.inr k) = .idle
  jobs : ∀ k p found w, s.job k = .running p found w → JobOk s.pay k p found w

omit [DecidableEq ι] [DecidableEq κ] in
theorem JobOk.frame {p : JobProg Nat} {found : List Id} {w : List (Id × Bool)}
    (h : JobOk u k p found w)
    (hactive : ∀ i, i ∈ found ∨ i ∈ w.map Prod.fst → ActiveIn u i → ActiveIn v i)
    (hholder : ∀ i, u.holder i = some (.inr k) → v.holder i = some (.inr k)) :
    JobOk v k p found w where
  guarded := h.guarded
  found i hi := hactive i (Or.inl hi) (h.found i hi)
  written i hi := ⟨hholder i (h.written i hi).1, hactive i (Or.inr hi) (h.written i hi).2⟩

omit [DecidableEq ι] in
/-- A step of run `k` keeps what the calls and the other runs rely on. -/
theorem Sound.set (hs : Sound s) {x : Job} (hsession : u.session = s.pay.session)
    (hids : (u.table.map txSchema.key).Nodup)
    (hrows : ∀ j i, s.pay.holder i = some (.inl j) →
      u.holder i = some (.inl j) ∧ txSchema.lookup u.table i = txSchema.lookup s.pay.table i)
    (hactive : ∀ i, ActiveIn s.pay i → ActiveIn u i)
    (hholder : ∀ k' i, k' ≠ k → s.pay.holder i = some (.inr k') → u.holder i = some (.inr k'))
    (hjob : ∀ p found w, x = .running p found w → JobOk u k p found w) :
    Sound ({ s with pay := u }.set k x) where
  rows := by
    refine ⟨hids, fun j => ?_⟩
    have hok := hs.rows.2 j
    change SessionOk _ _ _ _ u j (u.session j)
    rw [hsession]
    cases j with
    | inl j => exact hok.frame (hrows j)
    | inr k' =>
      rw [hs.apart k']
      trivial
  apart k' := by
    change u.session _ = _
    rw [hsession]
    exact hs.apart k'
  jobs k' p found w hk' := by
    by_cases he : k' = k
    · subst he
      exact hjob p found w (by simpa [State.set] using hk')
    · have hold : s.job k' = .running p found w := by simpa [State.set, he] using hk'
      exact (hs.jobs k' p found w hold).frame (fun i _ => hactive i) fun i => hholder k' i he

/-- A session that has not begun is left alone by the statements of the calls. -/
theorem pay_apart (h : PayStep ext u l' v) (hbegin : ∀ k, l' ≠ .begin (.inr k))
    (hu : u.session (.inr k) = .idle) : v.session (.inr k) = .idle := by
  have hset : ∀ {j : ι ⊕ κ} {u' : PaySys (ι ⊕ κ) σ} {x}, u'.session = u.session →
      u.session j ≠ .idle → (u'.set j x).session (.inr k) = .idle := by
    intro j u' x hu' hj
    have hne : Sum.inr k ≠ j := by
      rintro rfl
      exact hj hu
    simp [Sys.set, hne, hu', hu]
  cases h with
  | @begin j p _ _ =>
    have hne : Sum.inr k ≠ j := by
      rintro rfl
      exact hbegin k rfl
    simp [Sys.set, hne, hu]
  | select hj _ | selected hj | effect hj _ | acquire hj _ _ | update hj _ _ | commit hj =>
    refine hset rfl ?_
    rw [hj]
    intro hidle
    cases hidle
  | abort hj _ => exact hset rfl hj

theorem pay_holder (h : PayStep ext u l' v) (hu : u.session (.inr k) = .idle)
    (hi : u.holder i = some (.inr k)) : v.holder i = some (.inr k) := by
  have hne : ∀ {j : ι ⊕ κ}, u.session j ≠ .idle → Sum.inr k ≠ j := by
    rintro j hj rfl
    exact hj hu
  cases h with
  | begin _ _ | select _ _ | selected _ | effect _ _ => exact hi
  | acquire hj hf _ | update hj hf _ => exact free_of_other hf (hne (by rw [hj]; nofun)) hi
  | commit hj => exact release_other (hne (by rw [hj]; nofun)) hi
  | abort hj _ => exact release_other (hne hj) hi

/-- A call leaves a row ACTIVE that it does not complete. -/
theorem pay_active (h : PayStep ext u l' v) (hi : Inv txSchema Live Tells Fits u)
    (hactive : ActiveIn u i) (hl : ∀ j a w, l' = .commit j a w → ¬ Completes w i) :
    ActiveIn v i := by
  obtain ⟨t, ht, ha⟩ := hactive
  obtain ⟨t', ht', hun, -⟩ | ⟨j, w, now, x, t', rfl, hx, -, -⟩ := pay_step h hi ht ha
  · exact ⟨t', ht', hun.1⟩
  · exact absurd ⟨now, x, hx⟩ (hl j _ w rfl)

theorem inv_pay (h : PayStep ext u l' v) (hi : Inv txSchema Live Tells Fits u) :
    Inv txSchema Live Tells Fits v := by
  refine inv_step (fun j p hp => ?_) h hi
  obtain ⟨c, rfl⟩ := hp
  exact disciplined_call c

/-- Whoever commits a completion has locked the row. -/
theorem completes_holder {j : ι ⊕ κ} {a : Except String Id} {w : List (Id × TxUpdate)}
    (h : PayStep ext u (.commit j a w) v) (hi : Inv txSchema Live Tells Fits u)
    (hw : Completes w i) : u.holder i = some j := by
  cases h with
  | commit hj =>
    have hok := hi.2 j
    rw [hj] at hok
    obtain ⟨_, -, -, hcovered⟩ := hok
    exact (hcovered i fun hnone => not_completes_of_writesTo hnone hw).1

theorem sound_pay (h : PayStep ext s.pay l' u) (hbegin : ∀ k, l' ≠ .begin (.inr k))
    (htimely : Timely s (.pay l')) (hs : Sound s) : Sound { s with pay := u } where
  rows := inv_pay h hs.rows
  apart k := pay_apart h hbegin (hs.apart k)
  jobs k p found w hk := by
    have hok := hs.jobs k p found w hk
    refine hok.frame (fun i hi hactive => pay_active h hs.rows hactive ?_)
      fun i hi => pay_holder h (hs.apart k) hi
    rintro j a w' rfl hw'
    -- a row that the run has updated is locked by the run, any other one is awaited
    by_cases hwritten : i ∈ w.map Prod.fst
    · have hj : some j = some (.inr k) :=
        (completes_holder h hs.rows hw').symm.trans (hok.written i hwritten).1
      cases hj
      cases h with
      | commit hj => exact nomatch (hs.apart k).symm.trans hj
    · have hawaits : i ∈ (s.job k).awaits := by
        rw [hk]
        exact List.mem_filter.mpr ⟨hi.resolve_right hwritten, by simpa using hwritten⟩
      exact htimely k i hawaits hw'

omit [DecidableEq ι] [DecidableEq κ] in
/-- The rows that a run finds are ACTIVE when it finds them. -/
theorem active_found {cutoff : DateTime} {updatedAt : Id → DateTime} {w : List (Id × Bool)}
    {rows : List ParkingTransaction} (hi : Inv txSchema Live Tells Fits u)
    (hrows : rows.Perm ((u.table.map (resetSchema.overlay w)).filter (isStuck cutoff updatedAt))) :
    ∀ i ∈ rows.map (·.id), ActiveIn u i := by
  intro i hmem
  obtain ⟨r, hr, rfl⟩ := List.mem_map.mp hmem
  obtain ⟨hr, hstuck⟩ := List.mem_filter.mp (hrows.mem_iff.mp hr)
  obtain ⟨t, ht, rfl⟩ := List.mem_map.mp hr
  have hkey : (resetSchema.overlay w t).id = t.id := key_overlay (S := resetSchema)
  simp only [isStuck, Bool.and_eq_true, decide_eq_true_eq, status_overlay] at hstuck
  exact ⟨t, by rw [hkey]; exact lookup_of_mem hi.1 ht, hstuck.1.1⟩

theorem sound_step (h : CleanStep ext s l t) (htimely : Timely s l) (hs : Sound s) : Sound t := by
  have hkeep : ∀ j i, s.pay.holder i = some (.inl j) → s.pay.holder i = some (.inl j) ∧
      txSchema.lookup s.pay.table i = txSchema.lookup s.pay.table i := fun _ _ h => ⟨h, rfl⟩
  have hrelease : ∀ {u : PaySys (ι ⊕ κ) σ} {k k' : κ} {i : Id}, k' ≠ k →
      u.holder i = some (.inr k') → (u.release (.inr k)).holder i = some (.inr k') :=
    fun hne hi => release_other (fun he => hne (Sum.inr_injective he)) hi
  cases h with
  | pay h hbegin => exact sound_pay h hbegin htimely hs
  | @start k _ =>
    refine hs.set rfl hs.rows.1 hkeep (fun _ h => h) (fun _ _ _ h => h) ?_
    rintro p found w ⟨⟩
    exact ⟨guarded_timeout, nofun, nofun⟩
  | @now k f found w now hk =>
    have hok := hs.jobs k _ _ _ hk
    refine hs.set rfl hs.rows.1 hkeep (fun _ h => h) (fun _ _ _ h => h) ?_
    rintro p found w ⟨⟩
    exact ⟨hok.guarded.2 now trivial, hok.found, hok.written⟩
  | @select k cutoff f found w updatedAt rows hk hrows =>
    have hok := hs.jobs k _ _ _ hk
    refine hs.set rfl hs.rows.1 hkeep (fun _ h => h) (fun _ _ _ h => h) ?_
    rintro p found w ⟨⟩
    exact ⟨hok.guarded.2 rows trivial, active_found hs.rows hrows, hok.written⟩
  | @reset k i fee f found w _ hk hfree _ =>
    have hok := hs.jobs k _ _ _ hk
    have hother : ∀ {x : ι ⊕ κ} {i' : Id}, x ≠ .inr k → s.pay.holder i' = some x →
        (s.pay.take i (.inr k)).holder i' = some x := fun hne hi => free_of_other hfree hne hi
    refine hs.set (u := s.pay.take i (.inr k)) rfl hs.rows.1
      (fun _ _ hi => ⟨hother nofun hi, rfl⟩) (fun _ h => h)
      (fun _ _ hne hi => hother (fun he => hne (Sum.inr_injective he)) hi) ?_
    rintro p found w ⟨⟩
    refine ⟨hok.guarded.2 () trivial, hok.found, fun i' hi' => ?_⟩
    rw [List.map_append, List.mem_append] at hi'
    rcases hi' with hi' | hi'
    · exact ⟨take_own (hok.written i' hi').1, (hok.written i' hi').2⟩
    · obtain rfl : i' = i := List.mem_singleton.mp hi'
      exact ⟨Function.update_self .., hok.found i' hok.guarded.1⟩
  | @commit k f found w hk =>
    have hok := hs.jobs k _ _ _ hk
    refine hs.set (u := Sys.release { s.pay with table := _ } (.inr k)) rfl ?_ (fun j i hi => ?_)
      (fun _ h => activeIn_reset rfl h) (fun _ _ hne hi => hrelease hne hi) ?_
    · have hkeys : (s.pay.table.map (resetSchema.overlay w)).map txSchema.key =
          s.pay.table.map txSchema.key := by
        rw [List.map_map]
        exact List.map_congr_left fun t _ => key_overlay (S := resetSchema)
      exact hkeys ▸ hs.rows.1
    · -- a row that a call has locked is not among the updated ones
      have hnot : i ∉ w.map Prod.fst := by
        intro hmem
        exact nomatch hi.symm.trans (hok.written i hmem).1
      exact ⟨release_other nofun hi, lookup_reset_of_not_mem hnot⟩
    · rintro p found w ⟨⟩
      exact ⟨hok.guarded.2 () trivial, nofun, nofun⟩
  | @done k _ _ _ _ | @abort k _ _ _ _ =>
    refine hs.set (u := s.pay.release (.inr k)) rfl hs.rows.1
      (fun _ _ hi => ⟨release_other nofun hi, rfl⟩) (fun _ h => h)
      (fun _ _ hne hi => hrelease hne hi) ?_
    rintro p found w ⟨⟩

/-- A run of the job changes only rows that are ACTIVE at its commit. -/
theorem reset_active (h : CleanStep ext s (.commit k) t) (hs : Sound s)
    (hne : txSchema.lookup t.pay.table i ≠ txSchema.lookup s.pay.table i) : ActiveIn s.pay i := by
  cases h with
  | @commit k f found w hk =>
    refine ((hs.jobs k _ _ _ hk).written i ?_).2
    by_contra hnot
    exact hne (lookup_reset_of_not_mem hnot)

omit [DecidableEq ι] [DecidableEq κ] in
theorem completed_not_activeIn {r : ParkingTransaction}
    (hr : txSchema.lookup u.table i = some r) (hc : r.status = .completed) : ¬ ActiveIn u i := by
  rintro ⟨q, hq, ha⟩
  rw [hr] at hq
  cases hq
  rw [hc] at ha
  cases ha

/-- A completed row stays as it is. -/
theorem completed_step {r : ParkingTransaction} (h : CleanStep ext s l t) (hs : Sound s)
    (hr : txSchema.lookup s.pay.table i = some r) (hc : r.status = .completed) :
    txSchema.lookup t.pay.table i = some r := by
  have hcommit : ∀ k, l = .commit k → txSchema.lookup t.pay.table i = some r := by
    rintro k rfl
    by_contra hne
    rw [← hr] at hne
    exact completed_not_activeIn hr hc (reset_active h hs hne)
  cases h with
  | pay h _ =>
    refine (settled_step h hs.rows hr ?_).1
    intro hlive
    rw [Live, hc] at hlive
    cases hlive
  | commit _ => exact hcommit _ rfl
  | start _ | now _ | select _ _ | reset _ _ _ | done _ | abort _ => exact hr

/-- An exit is the last of the updates that find the row ACTIVE. -/
theorem applyAll_exit {r : ParkingTransaction} {us : List TxUpdate} {now : DateTime}
    {c : ExitColumns} (h : LiveChain txSchema Live r us) (hmem : .exit now c ∈ us) :
    ∃ r', txSchema.applyAll us r = (TxUpdate.exit now c).apply r' := by
  induction us generalizing r with
  | nil => cases hmem
  | cons v us ih =>
    rcases List.mem_cons.mp hmem with rfl | hmem
    · cases us with
      | nil => exact ⟨r, rfl⟩
      | cons _ _ => exact nomatch h.2.1
    · exact ih h.2 hmem

theorem commit_values {j : ι ⊕ κ} {a : Except String Id} {w : List (Id × TxUpdate)}
    {now : DateTime} {c : ExitColumns} (h : PayStep ext u (.commit j a w) v)
    (hi : Inv txSchema Live Tells Fits u) (hmem : (i, .exit now c) ∈ w) :
    ∃ r, txSchema.lookup v.table i = some ((TxUpdate.exit now c).apply r) := by
  rcases step_change h hi i with ⟨hnone, -⟩ | ⟨_, _, _, r, hl, -, -, hchain, hv⟩
  · exact absurd ⟨now, c, hmem⟩ (not_completes_of_writesTo (hnone j a w rfl))
  · cases hl
    obtain ⟨r', hr'⟩ := applyAll_exit hchain (mem_writesTo.mpr hmem)
    exact ⟨r', hv.trans (congrArg some hr')⟩

variable {xs : List (CleanLabel ι κ × State ι κ σ)}

omit [DecidableEq ι] [DecidableEq κ] in
theorem sound_start (hready : Ready s.pay) (hidle : ∀ k, s.job k = .idle) : Sound s where
  rows := inv_initial hready.ids hready.idle
  apart k := hready.idle (.inr k)
  jobs k _ _ _ hk := nomatch (hidle k).symm.trans hk

/-- As long as no call completes a stay under a run of the job, completed stays are final and the
job touches only ACTIVE ones. -/
theorem completed_final (hready : Ready s.pay) (hidle : ∀ k, s.job k = .idle)
    (h : Path (CleanStep ext) s xs) (htimely : Path (fun s l _ => Timely s l) s xs) :
    (∀ pre j a w v post i now c, xs = pre ++ (.pay (.commit j a w), v) :: post →
      (i, .exit now c) ∈ w → ∃ r, txSchema.lookup (finish s xs).pay.table i = some r ∧
        r.status = .completed ∧ r.paymentMethod = some c.paymentMethod ∧ r.fee = some c.fee ∧
        r.paidAmount = c.paidAmount) ∧
    (∀ pre post i r, xs = pre ++ post → txSchema.lookup (finish s pre).pay.table i = some r →
      r.status = .completed → txSchema.lookup (finish s xs).pay.table i = some r) ∧
    ∀ pre k v post i, xs = pre ++ (.commit k, v) :: post →
      txSchema.lookup v.pay.table i ≠ txSchema.lookup (finish s pre).pay.table i →
      ActiveIn (finish s pre).pay i := by
  have hboth := h.and htimely
  have hsound : ∀ {s : State ι κ σ} {xs}, Path (fun s l t => CleanStep ext s l t ∧ Timely s l) s xs →
      Sound s → Sound (finish s xs) :=
    fun hpath hs => hpath.invariant (fun _ _ _ hstep hs => sound_step hstep.1 hstep.2 hs) hs
  have hs := sound_start hready hidle
  have hfinal : ∀ pre post i r, xs = pre ++ post →
      txSchema.lookup (finish s pre).pay.table i = some r → r.status = .completed →
      txSchema.lookup (finish s xs).pay.table i = some r := by
    rintro pre post i r rfl hr hc
    obtain ⟨hpre, hpost⟩ := path_append.mp hboth
    rw [finish_append]
    refine (hpost.invariant (P := fun t => Sound t ∧ txSchema.lookup t.pay.table i = some r)
      (fun _ _ _ hstep ht => ⟨sound_step hstep.1 hstep.2 ht.1, ?_⟩) ⟨hsound hpre hs, hr⟩).2
    exact completed_step hstep.1 ht.1 ht.2 hc
  refine ⟨?_, hfinal, ?_⟩
  · rintro pre j a w v post i now c heq hmem
    obtain ⟨hi, hstep, -⟩ :=
      hboth.at_step (fun _ _ _ hstep hs => sound_step hstep.1 hstep.2 hs) hs heq
    have hrow : ∃ r, txSchema.lookup v.pay.table i = some ((TxUpdate.exit now c).apply r) := by
      cases hstep with
      | pay hstep _ => exact commit_values hstep hi.rows hmem
    obtain ⟨r, hr⟩ := hrow
    refine ⟨(TxUpdate.exit now c).apply r,
      hfinal (pre ++ [(.pay (.commit j a w), v)]) post i _ ?_ ?_ rfl, rfl, rfl, rfl, rfl⟩
    · rw [heq, List.append_assoc]
      rfl
    · rw [finish_append]
      exact hr
  · rintro pre k v post i heq hne
    obtain ⟨hi, hstep, -⟩ :=
      hboth.at_step (fun _ _ _ hstep hs => sound_step hstep.1 hstep.2 hs) hs heq
    exact reset_active hstep hi hne

end Runs

/-- A statement of a call, or the next one of a run of the job. -/
inductive CleanTurn (ι κ : Type) where
  | pay (x : Turn (ι ⊕ κ) Id ParkingTransaction TxUpdate Effect.Ans Exc (Except String Id))
  | go (k : κ)

section Schedule
variable {ι κ σ : Type} [DecidableEq ι] [DecidableEq κ]
  (answer : σ → (e : Effect) → Option (e.Ans × σ)) (clock : DateTime) (updatedAt : Id → DateTime)

/-- The next statement of a run of the job, when it is not blocked. -/
def advanceJob (s : State ι κ σ) (k : κ) : Option (CleanLabel ι κ × State ι κ σ) :=
  match s.job k with
  | .idle => some (.stmt k, s.set k (.running timeoutPendingPayments [] []))
  | .ended _ => none
  | .running (.pure n) _ _ => some (.stmt k, s.release k |>.set k (.ended (some n)))
  | .running (.throw _) _ _ => some (.stmt k, s.release k |>.set k (.ended none))
  | .running (.call .now f) found w => some (.stmt k, s.set k (.running (f clock) found w))
  | .running (.call (.selectStuck cutoff) f) _ w =>
    let rows := (s.pay.table.map (resetSchema.overlay w)).filter (isStuck cutoff updatedAt)
    some (.stmt k, s.set k (.running (f rows) (rows.map (·.id)) w))
  | .running (.call (.reset i fee) f) found w =>
    if s.pay.holder i = none ∨ s.pay.holder i = some (.inr k) then
      match txSchema.lookup s.pay.table i with
      | some _ => some (.stmt k, { s with pay := s.pay.take i (.inr k) }.set k
          (.running (f ()) found (w ++ [(i, fee)])))
      | none => none
    else none
  | .running (.call .commit f) _ w =>
    some (.commit k, { s with pay :=
      { s.pay with table := s.pay.table.map (resetSchema.overlay w) } }.release k |>.set k
        (.running (f ()) [] []))

def cleanTurn (s : State ι κ σ) : CleanTurn ι κ → Option (CleanLabel ι κ × State ι κ σ)
  | .pay x => (takeTurn txSchema answer s.pay x).map fun y => (.pay y.1, { s with pay := y.2 })
  | .go k => advanceJob clock updatedAt s k

def cleanTurns : State ι κ σ → List (CleanTurn ι κ) → List (CleanLabel ι κ × State ι κ σ)
  | _, [] => []
  | s, x :: xs =>
    match cleanTurn answer clock updatedAt s x with
    | some (l, t) => (l, t) :: cleanTurns t xs
    | none => cleanTurns s xs

variable {answer clock updatedAt} {ext : σ → (e : Effect) → e.Ans → σ → Prop}
  {s t : State ι κ σ} {l : CleanLabel ι κ}

omit [DecidableEq ι] [DecidableEq κ] in
theorem takeTurn_begin [DecidableEq (ι ⊕ κ)] {u v : PaySys (ι ⊕ κ) σ} {j : ι ⊕ κ}
    {x : Turn (ι ⊕ κ) Id ParkingTransaction TxUpdate Effect.Ans Exc (Except String Id)}
    (h : takeTurn txSchema answer u x = some (.begin j, v)) : ∃ p, x = .begin j p := by
  cases x with
  | begin j p =>
    simp only [takeTurn] at h
    split at h <;> cases h
    exact ⟨p, rfl⟩
  | go j =>
    simp only [takeTurn, advance] at h
    split at h <;> (try split at h) <;> (try split at h) <;> cases h
  | abort j =>
    simp only [takeTurn] at h
    split at h <;> cases h

theorem advanceJob_step {k : κ} (h : advanceJob clock updatedAt s k = some (l, t)) :
    CleanStep ext s l t := by
  unfold advanceJob at h
  split at h
  · cases h
    exact .start ‹_›
  · cases h
  · cases h
    exact .done ‹_›
  · cases h
    exact .abort ‹_›
  · cases h
    exact .now ‹_›
  · cases h
    exact .select ‹_› (List.Perm.refl _)
  · split at h
    · split at h <;> cases h
      exact .reset ‹_› ‹_› ‹_›
    · cases h
  · cases h
    exact .commit ‹_›

theorem cleanTurns_path (hext : ∀ sh e a sh', answer sh e = some (a, sh') → ext sh e a sh')
    {xs : List (CleanTurn ι κ)}
    (hstart : ∀ x p, .pay (.begin x p) ∈ xs → x.isLeft ∧ ∃ c : PaymentCall, p = c.handler) :
    Path (CleanStep ext) s (cleanTurns answer clock updatedAt s xs) := by
  induction xs generalizing s with
  | nil => trivial
  | cons x xs ih =>
    have hrest : ∀ x p, .pay (.begin x p) ∈ xs → x.isLeft ∧ ∃ c : PaymentCall, p = c.handler :=
      fun x p hmem => hstart x p (List.mem_cons_of_mem _ hmem)
    unfold cleanTurns
    split
    · rename_i l t h
      refine ⟨?_, ih hrest⟩
      cases x with
      | go k => exact advanceJob_step h
      | pay x =>
        obtain ⟨⟨l, u⟩, hx, he⟩ := Option.map_eq_some_iff.mp h
        cases he
        have hpath : Path (PayStep ext) s.pay (takeTurns txSchema answer s.pay [x]) := by
          refine takeTurns_path hext fun j p hmem => ?_
          rw [List.mem_singleton] at hmem
          exact (hstart j p (hmem ▸ List.mem_cons_self)).2
        simp only [takeTurns, hx] at hpath
        refine .pay hpath.1 ?_
        rintro k rfl
        obtain ⟨p, rfl⟩ := takeTurn_begin hx
        exact nomatch (hstart _ p List.mem_cons_self).1
    · exact ih hrest

end Schedule

section Overtaken

def isExit : TxUpdate → Bool
  | .exit _ _ => true
  | _ => false

instance (w : List (Id × TxUpdate)) (i : Id) : Decidable (Completes w i) :=
  decidable_of_iff (∃ x ∈ w, x.1 = i ∧ isExit x.2 = true) <| by
    constructor
    · rintro ⟨⟨_, u⟩, hmem, rfl, hu⟩
      cases u with
      | exit now c => exact ⟨now, c, hmem⟩
      | vehicleTypeId _ | cardNumber _ => exact nomatch hu
    · rintro ⟨now, c, hmem⟩
      exact ⟨_, hmem, rfl, rfl⟩

instance {ι κ σ : Type} [DecidableEq ι] [DecidableEq κ] [Fintype κ] (s : State ι κ σ)
    (l : CleanLabel ι κ) : Decidable (Timely s l) := by
  unfold Timely
  split <;> infer_instance

/-- A car that entered as PENDING, two hours ago. -/
def pendingCar : World :=
  let arrival : Call := .entry
    { barcode := some "T1001", vehicleTypeId := some 1, gateInId := some 1,
      paymentMethod := .pending }
  { arrival.after booth with now := 2 * DateTime.microsPerHour }

def atRest : State Unit Unit World where
  pay := { table := pendingCar.db.parking, holder := fun _ => none, session := fun _ => .idle,
           shared := pendingCar }
  job _ := .idle

def paysCash : List (CleanTurn Unit Unit) :=
  .pay (.begin (.inl ()) (PaymentCall.cash
    { gateId := "OUT1", gateOutId := 2, barcode := some "T1001", paidAmount := 10000 }).handler) ::
  List.replicate 24 (.pay (.go (.inl ())))

def cleanRun (before after : Nat) : List (CleanLabel Unit Unit × State Unit Unit World) :=
  cleanTurns worldAnswer (.utc (2 * DateTime.microsPerHour)) (fun _ => .utc 0) atRest
    (List.replicate before (.go ()) ++ paysCash ++ List.replicate after (.go ()))

theorem cleanRun_path (before after : Nat) :
    Path (CleanStep WorldExt) atRest (cleanRun before after) := by
  have hgo : ∀ (n : Nat) x p, (.pay (.begin x p) : CleanTurn Unit Unit) ∉
      List.replicate n (.go ()) := fun n x p hmem => nomatch List.eq_of_mem_replicate hmem
  refine cleanTurns_path (fun _ _ _ _ h => h) fun x p hmem => ?_
  simp only [paysCash, List.mem_append, hgo, or_false, false_or] at hmem
  rcases List.mem_cons.mp hmem with h | h
  · cases h
    exact ⟨rfl, _, rfl⟩
  · exact nomatch List.eq_of_mem_replicate h

/-- The job selects, the driver pays, and then the job updates. -/
def overtaken : List (CleanLabel Unit Unit × State Unit Unit World) := cleanRun 3 3

def paymentColumns (s : State Unit Unit World) :
    List (TxStatus × Option PaymentMethod × Option Int × Option Int) :=
  s.pay.table.map fun t => (t.status, t.paymentMethod, t.fee, t.paidAmount)

theorem atRest_ready : Ready atRest.pay := ⟨by decide, fun _ => rfl⟩

/-- The completed row loses its payment method. -/
theorem completed_payment_reset :
    Path (CleanStep WorldExt) atRest overtaken ∧
    overtaken = overtaken.take 16 ++ overtaken.drop 16 ∧
    paymentColumns (finish atRest (overtaken.take 16)) =
      [(.completed, some .cash, some 6000, some 10000)] ∧
    paymentColumns (finish atRest overtaken) = [(.completed, none, some 6000, some 10000)] :=
  ⟨cleanRun_path 3 3, (List.take_append_drop ..).symm, rfl, rfl⟩

/-- Here the job is over before the driver pays, and runs again afterwards. -/
theorem completed_final_in_turn :
    ∃ r, r.status = .completed ∧ r.paymentMethod = some .cash ∧
      txSchema.lookup (finish atRest ((cleanRun 6 3).take 19)).pay.table 1 = some r ∧
      txSchema.lookup (finish atRest (cleanRun 6 3)).pay.table 1 = some r := by
  have hpaid : (txSchema.lookup (finish atRest ((cleanRun 6 3).take 19)).pay.table 1).map
      (fun r => (r.status, r.paymentMethod)) = some (.completed, some .cash) := by decide
  obtain ⟨r, hr, hcolumns⟩ := Option.map_eq_some_iff.mp hpaid
  obtain ⟨hstatus, hmethod⟩ := Prod.mk.inj hcolumns
  have hfinal := (completed_final atRest_ready (fun _ => rfl) (cleanRun_path 6 3) (by decide)).2.1
  exact ⟨r, hstatus, hmethod, hr, hfinal _ _ 1 r (List.take_append_drop ..).symm hr hstatus⟩

end Overtaken
end ParkIt.Cleanup
