import ParkIt.Services.Spec
import ParkIt.Services.Inventory
import ParkIt.Lib.RowLock.Discipline

/-! Which rows the services lock and update, statement by statement. -/
namespace ParkIt

open Effects Api RowLock

def Live (t : ParkingTransaction) : Prop := t.status = .active

/-- The operations that touch neither a parking row nor the idempotency cache, and arm no gate. -/
def Plain : ApiOp → Prop
  | .ext (.setPending _ _) => False
  | .ext (.getIdempotency _) => False
  | .ext (.setIdempotency _ _) => False
  | .ext _ => True
  | _ => False

/-- Only plain operations, and no exception of its own. -/
abbrev Silent {α : Type} (p : Api α) : Prop := Only Plain (fun _ => False) p

section Plain

theorem plain_of_ambient {α : Type} {raises : Exc → Prop} {p : Api α}
    (h : Only Ambient raises p) : Only Plain raises p := by
  refine h.mono (fun o ho => ?_) fun _ h => h
  cases o with
  | ext e => cases e <;> first | exact ho.elim | trivial
  | lock _ | update _ _ => exact ho.elim

theorem plain_snapshots (g : String) (i : Id) (kind : String) :
    Silent (enqueueSnapshotsForGate g i kind) := plain_of_ambient (ambient_snapshots g i kind)

theorem plain_printReceipt (g : String) (d : ReceiptData) : Silent (enqueuePrintReceipt g d) :=
  plain_of_ambient (ambient_printReceipt g d)

theorem plain_currentShift : Silent getCurrentShift := plain_of_ambient ambient_currentShift

theorem plain_fee (t : ParkingTransaction) (o : Option Id) :
    Only Plain (fun _ => True) (calculateTransactionFee t none o) :=
  plain_of_ambient (ambient_fee t o)

end Plain

/-- The row whose completion a list of updates contains. -/
def Completes (w : List (Id × TxUpdate)) (i : Id) : Prop := ∃ now x, (i, .exit now x) ∈ w

/-- An answered call: success names the one row it completes, a `ValueError` completes none. -/
def Fits (w : List (Id × TxUpdate)) : Except String Id → Prop
  | .ok i => ∀ i', Completes w i' ↔ i' = i
  | .error _ => ∀ i, ¬ Completes w i

/-- The answer reports the one row that the updates complete. -/
def Reports (w : List (Id × TxUpdate)) (r : PaymentResponse) : Prop :=
  r.success = true ∧ ∃ i, r.transactionId = some i ∧ ∀ i', Completes w i' ↔ i' = i

/-- Only a completion is remembered under an idempotency key. -/
def Tells (w : List (Id × TxUpdate)) : Effect → Prop
  | .setIdempotency _ r => Reports w r
  | _ => True

section Updates
variable {w : List (Id × TxUpdate)} {i : Id} {now : DateTime} {x : ExitColumns}

theorem not_completes_nil : ∀ i, ¬ Completes [] i := by
  rintro i ⟨_, _, h⟩
  cases h

theorem not_completes_snoc (h : ∀ i, ¬ Completes w i) {u : TxUpdate}
    (hu : ∀ now x, u ≠ .exit now x) : ∀ i', ¬ Completes (w ++ [(i, u)]) i' := by
  rintro i' ⟨now, x, hmem⟩
  rcases List.mem_append.mp hmem with hm | hm
  · exact h i' ⟨now, x, hm⟩
  · cases List.mem_singleton.mp hm
    exact hu now x rfl

theorem completes_snoc (h : ∀ i, ¬ Completes w i) :
    ∀ i', Completes (w ++ [(i, .exit now x)]) i' ↔ i' = i := by
  intro i'
  constructor
  · rintro ⟨now', x', hmem⟩
    rcases List.mem_append.mp hmem with hm | hm
    · exact (h i' ⟨now', x', hm⟩).elim
    · cases List.mem_singleton.mp hm
      rfl
  · rintro rfl
    exact ⟨now, x, List.mem_append_right _ (List.mem_singleton_self _)⟩

end Updates

abbrev Locks := Held Id ParkingTransaction TxUpdate

abbrev rowGuard : Protocol ApiOp ApiOp.Ans Locks := lockGuard txSchema Live Tells

/-- The session has locked the ACTIVE row `t` and completed nothing. -/
def Holds (g : Locks) (t : ParkingTransaction) : Prop :=
  g.known t.id = some t ∧ t.status = .active ∧ ∀ i, ¬ Completes g.writes i

section Follows
variable {g : Locks} {t : ParkingTransaction}

theorem plain_follows {α : Type} {raises : Exc → Prop} {p : Api α} (h : Only Plain raises p) :
    Follows rowGuard g p (fun g' _ => g' = g) (fun g' e => g' = g ∧ raises e) := by
  refine h.follows fun o ho => ?_
  cases o with
  | ext e =>
    refine ⟨?_, fun _ => rfl⟩
    cases e with
    | setIdempotency _ _ => exact ho.elim
    | _ => trivial
  | lock _ | update _ _ => exact ho.elim

/-- The rule for a silent step. -/
theorem Silent.bind {α β : Type} {p : Api α} {f : α → Api β} {post : Locks → β → Prop}
    {err : Locks → Exc → Prop} (h : Silent p)
    (hf : ∀ a, Follows rowGuard g (f a) post err) : Follows rowGuard g (p >>= f) post err :=
  (plain_follows h).bind (fun _ _ h => h.2.elim) fun _ a h => h ▸ hf a

theorem next_update {i : Id} {u : TxUpdate} {a : Unit} :
    rowGuard.next g (.update i u) a =
      { known := fun j => if j = i then (g.known j).map u.apply else g.known j
        writes := g.writes ++ [(i, u)] } := rfl

theorem next_lock {f : ParkingTransaction → Bool} {rows : List ParkingTransaction} :
    rowGuard.next g (.lock f) rows =
      { g with known := fun i => (txSchema.lookup rows i).or (g.known i) } := rfl

@[simp] theorem next_ext {e : Effect} {a : e.Ans} : rowGuard.next g (.ext e) a = g := rfl

theorem holds_lock {f : ParkingTransaction → Bool} {rows : List ParkingTransaction}
    (hn : (rows.map (·.id)).Nodup) (ht : t ∈ rows) (ha : t.status = .active)
    (hg : ∀ i, ¬ Completes g.writes i) : Holds (rowGuard.next g (.lock f) rows) t := by
  have hl : txSchema.lookup rows t.id = some t := lookup_of_mem hn ht
  exact ⟨by simp [next_lock, hl], ha, hg⟩

theorem holds_update {u : TxUpdate} (h : Holds g t) (hu : ∀ now x, u ≠ .exit now x)
    (hactive : (u.apply t).status = .active) :
    Holds (rowGuard.next g (.update t.id u) ()) (u.apply t) := by
  refine ⟨?_, hactive, not_completes_snoc h.2.2 hu⟩
  simp [next_update, h.1]

theorem follows_findActive (hg : ∀ i, ¬ Completes g.writes i) (b cn p : Option String) :
    Follows rowGuard g (findActiveTransaction b cn p true)
      (fun g' r => match r with
        | none => ∀ i, ¬ Completes g'.writes i
        | some t => Holds g' t) (fun _ _ => False) := by
  unfold findActiveTransaction
  rcases hf : activeFilter b cn p with _ | f
  · exact hg
  · simp only [if_pos]
    rw [follows_bind]
    refine ⟨trivial, ?_⟩
    rintro rows ⟨hrows, hn⟩
    change match mostRecent rows with
      | none => ∀ i, ¬ Completes g.writes i
      | some t => Holds (rowGuard.next g (.lock f) rows) t
    rcases ht : mostRecent rows with _ | t
    · exact hg
    · have hmem := mostRecent_mem ht
      exact holds_lock hn hmem (activeFilter_active hf (hrows t hmem)) hg

theorem follows_override (h : Holds g t) (v : Option Id) :
    Follows rowGuard g (overrideVehicleType t v) Holds (fun _ _ => False) := by
  cases v with
  | none => exact h
  | some v => exact ⟨⟨t, h.1, h.2.1⟩, fun _ _ => holds_update h (by rintro _ _ ⟨⟩) h.2.1⟩

theorem follows_persistCard (h : Holds g t) (card : String) :
    Follows rowGuard g (persistCardNumber t card) Holds (fun _ _ => False) := by
  unfold persistCardNumber
  split
  · exact h
  · exact ⟨⟨t, h.1, h.2.1⟩, fun _ _ => holds_update h (by rintro _ _ ⟨⟩) h.2.1⟩

theorem follows_exit (h : Holds g t) (x : ExitColumns) :
    Follows rowGuard g (completeExitTransaction t x)
      (fun g' t' => ∀ i, Completes g'.writes i ↔ i = t'.id) (fun _ _ => False) :=
  ⟨trivial, fun _ _ => ⟨⟨t, h.1, h.2.1⟩, fun _ _ => completes_snoc h.2.2⟩⟩

theorem follows_cash (hg : ∀ i, ¬ Completes g.writes i) (a : CashPayment) :
    Follows rowGuard g (processCashPayment a)
      (fun g' r => ∀ i, Completes g'.writes i ↔ i = r.transaction.id)
      (fun g' _ => ∀ i, ¬ Completes g'.writes i) := by
  refine (follows_findActive hg _ _ _).bind (fun _ _ h => h.elim) fun g₁ r h₁ => ?_
  cases r with
  | none => exact h₁
  | some t =>
    refine (follows_override h₁ _).bind (fun _ _ h => h.elim) fun g₂ t₂ h₂ => ?_
    refine (plain_snapshots _ _ _).bind fun _ => ?_
    refine (plain_follows (plain_fee _ _)).bind ?_ ?_
    · rintro _ _ ⟨rfl, -⟩
      exact h₂.2.2
    rintro _ fee rfl
    split
    · exact h₂.2.2
    refine plain_currentShift.bind fun shift => ?_
    refine (follows_exit h₂ _).bind (fun _ _ h => h.elim) fun g₃ t₃ h₃ => ?_
    exact (plain_printReceipt _ _).bind fun _ => h₃

theorem follows_rfid (hg : ∀ i, ¬ Completes g.writes i) (a : RfidPayment) :
    Follows rowGuard g (processRfidPayment a)
      (fun g' r => ∀ i, Completes g'.writes i ↔ i = r.transaction.id)
      (fun g' _ => ∀ i, ¬ Completes g'.writes i) := by
  refine ⟨trivial, fun m _ => ?_⟩
  cases m with
  | none => exact hg
  | some m =>
    refine (follows_findActive hg _ _ _).bind (fun _ _ h => h.elim) fun g₁ r h₁ => ?_
    cases r with
    | none => exact h₁
    | some t =>
      refine (plain_snapshots _ _ _).bind fun _ => plain_currentShift.bind fun shift => ?_
      exact (follows_exit h₁ _).bind (fun _ _ h => h.elim) fun g₂ t₂ h₂ => h₂

theorem follows_outcome (h : Holds g t) (a : EmoneyResult) (p : Pending) (i : Id) :
    Follows rowGuard g (determineOutcome a p t i)
      (fun g' r => if r.success then ∀ i, Completes g'.writes i ↔ i = r.transaction.id
        else ∀ i, ¬ Completes g'.writes i) (fun _ _ => False) := by
  unfold determineOutcome
  by_cases hs : a.status.isSuccess = true
  · rw [if_pos hs]
    refine plain_currentShift.bind fun shift => ?_
    refine (follows_exit h _).bind (fun _ _ h => h.elim) fun g₁ t₁ h₁ => ?_
    refine ⟨trivial, fun _ _ => ?_⟩
    refine (plain_snapshots _ _ _).bind fun _ => (plain_printReceipt _ _).bind fun _ => ?_
    simpa [EmoneyResult.outcome, hs] using h₁
  · rw [if_neg hs]
    have hend : ∀ t', Follows rowGuard g (pure (a.outcome t' i) : Api EmoneyOutcome)
        (fun g' r => if r.success then ∀ i, Completes g'.writes i ↔ i = r.transaction.id
          else ∀ i, ¬ Completes g'.writes i) (fun _ _ => False) := by
      intro t'
      simpa [EmoneyResult.outcome, hs] using h.2.2
    split
    · exact hend t
    · split
      · exact ⟨trivial, fun _ _ => hend t⟩
      · exact hend t

theorem follows_result (hg : ∀ i, ¬ Completes g.writes i) (a : EmoneyResult) :
    Follows rowGuard g (processEmoneyResult a)
      (fun g' r => if r.success then ∀ i, Completes g'.writes i ↔ i = r.transaction.id
        else ∀ i, ¬ Completes g'.writes i) (fun g' _ => ∀ i, ¬ Completes g'.writes i) := by
  refine ⟨trivial, fun p _ => ?_⟩
  cases p with
  | none => exact hg
  | some p =>
    refine ⟨trivial, fun _ _ => ⟨trivial, ?_⟩⟩
    rintro rows ⟨hrows, hn⟩
    change Follows rowGuard _ (match rows.head?.filter (·.status = .active) with
      | none => _
      | some tx => _) _ _
    split
    · exact ⟨trivial, fun _ _ => hg⟩
    · rename_i t ht
      obtain ⟨hhead, hactive⟩ := Option.filter_eq_some_iff.mp ht
      refine (follows_persistCard (holds_lock hn (List.mem_of_mem_head? hhead)
        (of_decide_eq_true hactive) hg) _).bind (fun _ _ h => h.elim) fun g₁ t₁ h₁ => ?_
      refine ⟨trivial, fun e _ => ?_⟩
      exact (follows_outcome h₁ a p _).mono (fun _ _ h => h) fun _ _ h => h.elim

end Follows
end ParkIt
