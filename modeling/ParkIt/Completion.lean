import ParkIt.Services.Locking
import ParkIt.Lib.RowLock.Schedule
import ParkIt.Recording

/-! Concurrent payments complete each stay at most once. -/
namespace ParkIt

open Effects Api RowLock Transition

inductive PaymentCall where
  | cash (a : CashPayment)
  | rfid (a : RfidPayment)
  | result (a : EmoneyResult)
deriving DecidableEq, Repr

/-- The answer is the id of the row that was completed; a `ValueError` is answered as well, so
that what the call has flushed is committed. -/
def PaymentCall.handler : PaymentCall → Api (Except String Id)
  | .cash a =>
    exceptValueError (do
      let r ← processCashPayment a
      pure (.ok r.transaction.id)) fun msg => pure (.error msg)
  | .rfid a =>
    exceptValueError (do
      let r ← processRfidPayment a
      pure (.ok r.transaction.id)) fun msg => pure (.error msg)
  | .result a =>
    exceptValueError (do
      let r ← processEmoneyResult a
      pure (if r.success then .ok r.transaction.id else .error r.status.value))
      fun msg => pure (.error msg)

theorem disciplined_call (k : PaymentCall) : Disciplined txSchema Live Tells Fits k.handler := by
  have hvalue : ∀ {g : Locks} {p : Api (Except String Id)},
      Follows rowGuard g p (fun g a => Fits g.writes a)
        (fun g _ => ∀ i, ¬ Completes g.writes i) →
      Follows rowGuard g (Api.exceptValueError p fun msg => pure (.error msg))
        (fun g a => Fits g.writes a) fun _ _ => True := by
    intro g p hp
    refine follows_handle.mpr (hp.mono (fun _ _ h => h) fun g e hg => ?_)
    cases e with
    | value msg => exact hg
    | db _ | redis | http _ => trivial
  cases k with
  | cash a =>
    refine hvalue ((follows_cash not_completes_nil a).bind (fun _ _ h => h) ?_)
    exact fun g r hr => hr
  | rfid a =>
    refine hvalue ((follows_rfid not_completes_nil a).bind (fun _ _ h => h) ?_)
    exact fun g r hr => hr
  | result a =>
    refine hvalue ((follows_result not_completes_nil a).bind (fun _ _ h => h) fun g r hr => ?_)
    rw [follows_pure]
    split at hr
    · rw [if_pos ‹_›]
      exact hr
    · rw [if_neg ‹_›]
      exact hr

/-- Sessions that run payments, in any number and on any rows. -/
def Pays {ι : Type} (_ : ι) (p : Api (Except String Id)) : Prop := ∃ k : PaymentCall, p = k.handler

/-- The row is still ACTIVE and differs at most in the card and the vehicle type. -/
def Unpaid (t t' : ParkingTransaction) : Prop :=
  t'.status = .active ∧
    t' = { t with cardNumber := t'.cardNumber, vehicleTypeId := t'.vehicleTypeId }

section Row
variable {t t' t'' : ParkingTransaction} {us : List TxUpdate}

theorem Unpaid.refl (h : t.status = .active) : Unpaid t t := ⟨h, rfl⟩

theorem Unpaid.trans (h : Unpaid t t') (h' : Unpaid t' t'') : Unpaid t t'' := by
  obtain ⟨-, ht⟩ := h
  obtain ⟨ha, ht'⟩ := h'
  refine ⟨ha, ?_⟩
  rw [ht', ht]

theorem unpaid_apply {u : TxUpdate} (hu : ∀ now x, u ≠ .exit now x) (ht : t.status = .active) :
    Unpaid t (u.apply t) := by
  cases u with
  | exit now x => exact (hu now x rfl).elim
  | vehicleTypeId v | cardNumber c => exact ⟨ht, rfl⟩

/-- Updates that find the row ACTIVE leave it ACTIVE, or end with its one completion. -/
theorem liveChain_cases (h : LiveChain txSchema Live t us) (ht : t.status = .active) :
    (Unpaid t (txSchema.applyAll us t) ∧ ∀ now x, .exit now x ∉ us) ∨
    ∃ now x t', Unpaid t t' ∧ .exit now x ∈ us ∧
      txSchema.applyAll us t = (TxUpdate.exit now x).apply t' := by
  induction us generalizing t with
  | nil => exact Or.inl ⟨Unpaid.refl ht, by simp⟩
  | cons u us ih =>
    by_cases hu : ∀ now x, u ≠ .exit now x
    · have hstep := unpaid_apply hu ht
      obtain ⟨hrest, hno⟩ | ⟨now, x, t', ht', hmem, heq⟩ := ih h.2 hstep.1
      · refine Or.inl ⟨hstep.trans hrest, fun now x hmem => ?_⟩
        rcases List.mem_cons.mp hmem with he | hmem
        · exact hu now x he.symm
        · exact hno now x hmem
      · exact Or.inr ⟨now, x, t', hstep.trans ht', List.mem_cons_of_mem _ hmem, heq⟩
    · obtain ⟨now, x, rfl⟩ : ∃ now x, u = .exit now x := by simpa using hu
      refine Or.inr ⟨now, x, t, Unpaid.refl ht, List.mem_cons_self, ?_⟩
      -- nothing follows an exit: the row would have to be ACTIVE again
      cases us with
      | nil => rfl
      | cons u us => exact nomatch h.2.1

theorem mem_writesTo {w : List (Id × TxUpdate)} {i : Id} {u : TxUpdate} :
    u ∈ writesTo w i ↔ (i, u) ∈ w := by
  simp only [writesTo, List.mem_filterMap]
  constructor
  · rintro ⟨⟨i', u'⟩, hmem, h⟩
    split at h
    · rename_i he
      cases h
      exact he ▸ hmem
    · cases h
  · exact fun h => ⟨(i, u), h, by simp⟩

end Row

section Runs
variable {ι σ : Type} [DecidableEq ι] {ext : σ → (e : Effect) → e.Ans → σ → Prop}

abbrev PaySys (ι σ : Type) :=
  Sys ι Id ParkingTransaction TxUpdate Effect.Ans Exc (Except String Id) σ

abbrev PayLabel (ι : Type) := Label ι Id TxUpdate (Except String Id)

abbrev PayStep (ext : σ → (e : Effect) → e.Ans → σ → Prop) :
    PaySys ι σ → PayLabel ι → PaySys ι σ → Prop := Step txSchema Pays ext

/-- No commit of the run completes the row. -/
def NoWinner (ls : List (PayLabel ι)) (i : Id) : Prop :=
  ∀ j a w, .commit j a w ∈ ls → ¬ Completes w i

variable {s s' : PaySys ι σ} {l : PayLabel ι} {xs : List (PayLabel ι × PaySys ι σ)} {i : Id}
  {t : ParkingTransaction}

omit [DecidableEq ι] in
theorem noWinner_cons {ls : List (PayLabel ι)} (hl : ∀ j a w, l = .commit j a w → ¬ Completes w i)
    (h : NoWinner ls i) : NoWinner (l :: ls) i := by
  intro j a w hmem
  rcases List.mem_cons.mp hmem with he | hmem
  · exact hl j a w he.symm
  · exact h j a w hmem

omit [DecidableEq ι] in
theorem not_completes_of_writesTo {w : List (Id × TxUpdate)} (h : writesTo w i = []) :
    ¬ Completes w i := by
  rintro ⟨now, x, hmem⟩
  rw [← mem_writesTo, h] at hmem
  cases hmem

/-- One step either leaves an ACTIVE row unpaid, or is the commit that completes it. -/
theorem pay_step (hs : PayStep ext s l s') (hi : Inv txSchema Live Tells Fits s)
    (ht : txSchema.lookup s.table i = some t) (ha : t.status = .active) :
    (∃ t', txSchema.lookup s'.table i = some t' ∧ Unpaid t t' ∧
      ∀ j a w, l = .commit j a w → ¬ Completes w i) ∨
    ∃ j w now x t', l = .commit j (.ok i) w ∧ (i, .exit now x) ∈ w ∧ Unpaid t t' ∧
      txSchema.lookup s'.table i = some ((TxUpdate.exit now x).apply t') := by
  rcases step_change hs hi i with ⟨hl, he⟩ | ⟨j, a, w, q, rfl, hq, hw, hchain, he⟩
  · exact Or.inl ⟨t, he.trans ht, Unpaid.refl ha, fun j a w h => not_completes_of_writesTo (hl j a w h)⟩
  obtain rfl : q = t := by simpa [hq] using ht
  obtain ⟨hun, hno⟩ | ⟨now, x, t', hun, hmem, heq⟩ := liveChain_cases hchain ha
  · refine Or.inl ⟨_, he, hun, ?_⟩
    rintro _ _ _ ⟨⟩ ⟨now, x, hmem⟩
    exact hno now x (mem_writesTo.mpr hmem)
  · have hx := mem_writesTo.mp hmem
    have hfits := commit_post hs hi
    cases a with
    | error msg => exact (hfits i ⟨now, x, hx⟩).elim
    | ok i' =>
      obtain rfl := (hfits i).mp ⟨now, x, hx⟩
      exact Or.inr ⟨j, w, now, x, t', rfl, hx, hun, by rw [he, heq]⟩

theorem completed_not_live {now : DateTime} {x : ExitColumns} :
    ¬ Live ((TxUpdate.exit now x).apply t) := nofun

theorem active_path (h : Path (PayStep ext) s xs) (hi : Inv txSchema Live Tells Fits s)
    (ht : txSchema.lookup s.table i = some t) (ha : t.status = .active) :
    (∃ t', txSchema.lookup (finish s xs).table i = some t' ∧ Unpaid t t' ∧
      NoWinner (xs.map Prod.fst) i) ∨
    ∃ pre j w s' post now x t', xs = pre ++ (.commit j (.ok i) w, s') :: post ∧
      (i, .exit now x) ∈ w ∧ Unpaid t t' ∧ NoWinner (pre.map Prod.fst) i ∧
      (∀ j' a' w', .commit j' a' w' ∈ post.map Prod.fst → writesTo w' i = []) ∧
      txSchema.lookup (finish s xs).table i = some ((TxUpdate.exit now x).apply t') := by
  have hstart : ∀ (j : ι) p, Pays j p → Disciplined txSchema Live Tells Fits p := by
    rintro j p ⟨k, rfl⟩
    exact disciplined_call k
  induction xs generalizing s t with
  | nil => exact Or.inl ⟨t, ht, Unpaid.refl ha, by rintro _ _ _ ⟨⟩⟩
  | cons x xs ih =>
    obtain ⟨l, s'⟩ := x
    obtain ⟨hs, hrest⟩ := h
    have hi' := inv_step hstart hs hi
    obtain ⟨t', ht', hun, hl⟩ | ⟨j, w, now, x, t', rfl, hx, hun, ht'⟩ := pay_step hs hi ht ha
    · obtain ⟨t'', ht'', hun', hno⟩ | ⟨pre, j, w, s'', post, now, x, t'', rfl, hx, hun', hno, hpost,
        hend⟩ := ih hrest hi' ht' hun.1
      · exact Or.inl ⟨t'', ht'', hun.trans hun', noWinner_cons hl hno⟩
      · exact Or.inr ⟨(l, s') :: pre, j, w, s'', post, now, x, t'', rfl, hx, hun.trans hun',
          noWinner_cons hl hno, hpost, hend⟩
    · obtain ⟨hend, hpost⟩ := settled_path hstart hrest hi' ht' completed_not_live
      exact Or.inr ⟨[], j, w, s', xs, now, x, t', rfl, hx, hun, by rintro _ _ _ ⟨⟩, hpost, hend⟩

/-- Before the sessions begin: distinct rows, and nothing is locked by a running call. -/
structure Ready (s : PaySys ι σ) : Prop where
  ids : (s.table.map (·.id)).Nodup
  idle : ∀ j, s.session j = .idle

/-- In every interleaving a stay is completed at most once, by a call that says so; the others
leave its completion columns alone, and after the completion the whole row. -/
theorem completed_at_most_once (hs : Ready s) (h : Path (PayStep ext) s xs)
    (ht : txSchema.lookup s.table i = some t) :
    (t.status = .completed → txSchema.lookup (finish s xs).table i = some t ∧
      NoWinner (xs.map Prod.fst) i) ∧
    (t.status = .active →
      (∃ t', txSchema.lookup (finish s xs).table i = some t' ∧ Unpaid t t' ∧
        NoWinner (xs.map Prod.fst) i) ∨
      ∃ pre j w s' post now x t', xs = pre ++ (.commit j (.ok i) w, s') :: post ∧
        (i, .exit now x) ∈ w ∧ Unpaid t t' ∧ NoWinner (pre.map Prod.fst) i ∧
        (∀ j' a' w', .commit j' a' w' ∈ post.map Prod.fst → writesTo w' i = []) ∧
        txSchema.lookup (finish s xs).table i = some ((TxUpdate.exit now x).apply t')) ∧
    ∀ j a w, .commit j a w ∈ xs.map Prod.fst → Fits w a := by
  have hi : Inv txSchema Live Tells Fits s := inv_initial hs.ids hs.idle
  have hstart : ∀ (j : ι) p, Pays j p → Disciplined txSchema Live Tells Fits p := by
    rintro j p ⟨k, rfl⟩
    exact disciplined_call k
  refine ⟨fun hc => ?_, fun ha => active_path h hi ht ha, ?_⟩
  · have hlive : ¬ Live t := by
      intro hl
      rw [Live, hc] at hl
      cases hl
    obtain ⟨hend, hall⟩ := settled_path hstart h hi ht hlive
    exact ⟨hend, fun j a w hmem => not_completes_of_writesTo (hall j a w hmem)⟩
  · intro j a w hmem
    obtain ⟨⟨l, s'⟩, hx, rfl⟩ := List.mem_map.mp hmem
    obtain ⟨pre, post, rfl⟩ := List.append_of_mem hx
    obtain ⟨hi', hstep⟩ := h.at_step (fun _ _ _ hs hi => inv_step hstart hs hi) hi rfl
    exact commit_post hstep hi'

end Runs

section Duel

/-- The shared world of concurrent sessions, with the effects of a single one. -/
def worldAnswer (w : World) (e : Effect) : Option (e.Ans × World) :=
  match execEffect e { world := w } with
  | (.ok a, c) => some (a, c.world)
  | (.error _, _) => none

def WorldExt (w : World) (e : Effect) (a : e.Ans) (w' : World) : Prop :=
  worldAnswer w e = some (a, w')

def sessionsOver (α : Type) (w : World) :
    Sys Bool Id ParkingTransaction TxUpdate Effect.Ans Exc α World where
  table := w.db.parking
  holder _ := none
  session _ := .idle
  shared := w

def committed {ι K U α : Type} : Label ι K U α → Option (ι × α)
  | .commit j a _ => some (j, a)
  | _ => none

/-- A tap that loses contact and a cash payment race for the armed row. -/
def duel : List (Turn Bool Id ParkingTransaction TxUpdate Effect.Ans Exc (Except String Id)) :=
  [.begin true (PaymentCall.result
      { gateId := "OUT1", gateOutId := 2, cardNumber := "6013500100", status := .lostContact,
        deductAmount := 0, balanceBefore := 9000, balanceAfter := 9000, transactionCounter := 4,
        rawResponseHex := "" }).handler,
   .begin false (PaymentCall.cash
      { gateId := "OUT1", gateOutId := 2, barcode := some "T1001", paidAmount := 10000 }).handler]
  ++ List.replicate 12 (.go true) ++ List.replicate 24 (.go false)

def duelRun : List (PayLabel Bool × PaySys Bool World) :=
  takeTurns txSchema worldAnswer (sessionsOver _ armedBooth) duel

theorem duel_path : Path (PayStep WorldExt) (sessionsOver _ armedBooth) duelRun := by
  refine takeTurns_path (fun _ _ _ _ h => h) fun j p h => ?_
  have hgo : ∀ n (b : Bool), Turn.begin j p ∉ List.replicate n (.go b) := by
    intro n b hmem
    cases List.eq_of_mem_replicate hmem
  simp only [duel, List.mem_append, hgo, or_false] at h
  rcases List.mem_cons.mp h with h | h
  · cases h
    exact ⟨_, rfl⟩
  · cases List.mem_singleton.mp h
    exact ⟨_, rfl⟩

theorem duel_ready : Ready (sessionsOver (Except String Id) armedBooth) := ⟨by decide, fun _ => rfl⟩

/-- The loser of the race has written its card number on the winner's row. -/
theorem loser_leaves_card :
    Path (PayStep WorldExt) (sessionsOver _ armedBooth) duelRun ∧
    (duelRun.map Prod.fst).filterMap committed = [(true, .error "LOST_CONTACT"), (false, .ok 1)] ∧
    armedBooth.db.parking.map (·.cardNumber) = [none] ∧
    (finish (sessionsOver _ armedBooth) duelRun).table.map
      (fun t => (t.status, t.paymentMethod, t.cardNumber)) =
      [(.completed, some .cash, some "6013500100")] :=
  ⟨duel_path, rfl, rfl, rfl⟩

theorem completed_at_most_once_duel :
    let t := armedBooth.db.parking.head (by decide)
    (∃ t', txSchema.lookup (finish (sessionsOver _ armedBooth) duelRun).table 1 = some t' ∧
      Unpaid t t' ∧ NoWinner (duelRun.map Prod.fst) 1) ∨
    ∃ pre j w s' post now x t', duelRun = pre ++ (.commit j (.ok 1) w, s') :: post ∧
      (1, .exit now x) ∈ w ∧ Unpaid t t' ∧ NoWinner (pre.map Prod.fst) 1 ∧
      (∀ j' a' w', .commit j' a' w' ∈ post.map Prod.fst → writesTo w' 1 = []) ∧
      txSchema.lookup (finish (sessionsOver _ armedBooth) duelRun).table 1 =
        some ((TxUpdate.exit now x).apply t') :=
  (completed_at_most_once duel_ready duel_path rfl).2.1 rfl

end Duel
end ParkIt
