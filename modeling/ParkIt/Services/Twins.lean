import ParkIt.Services.Beside
import ParkIt.Services.Spec

/-! Each service, run beside itself, answers alike and does the same to what it can reach. -/
namespace ParkIt

open Effects Api

/-- An error and what it leaves. -/
abbrev Failed (V : View) (m k : Id) (e f : Exc) (d d' : Conn) : Prop := f = e ∧ Beside V m k d d'

section Steps
variable {V : View} {m k : Id} {c c' : Conn} {α : Type}

theorem ambient_now : Only Ambient (fun _ => False) (ext .now) := only_perform trivial

theorem twin_ambient {raises : Exc → Prop} {p : Api α} (hp : Only Ambient raises p)
    (h : Beside V m k c c') :
    Prog.Twin execOp p p c c' (fun a b d d' => b = a ∧ Beside V m k d d') (Failed V m k) := by
  have htwin := hp.twin (R := Beside V m k) (fun o s t ho hst => hst.ambient ho) h
  exact htwin.mono (fun _ _ _ _ h => ⟨h.1.symm, h.2⟩) fun _ _ _ _ h => ⟨h.1.symm, h.2⟩

/-- The pending entry of the own gate, as long as it lives. -/
theorem Beside.live (h : Beside V m k c c') :
    c'.world.live (c'.world.pending V.gate) = c.world.live (c.world.pending V.gate) := by
  unfold World.live
  rw [h.pending, h.now]

theorem Beside.up (h : Beside V m k c c') (hr : ¬ c.world.redisDown = true) :
    ¬ c'.world.redisDown = true := fun hd => hr (h.redisDown.symm.trans hd)

theorem Beside.setPending (h : Beside V m k c c') (p : Option Pending) :
    Beside V m k { c with world := c.world.setPending V.gate p }
      { c' with world := c'.world.setPending V.gate p } := by
  refine { h with pending := ?_ }
  simp only [World.setPending, setKey, World.expiry, h.now, if_pos]

theorem twin_setPending (h : Beside V m k c c') (p : Pending) :
    Prog.Twin execOp (ext (.setPending V.gate p)) (ext (.setPending V.gate p)) c c'
      (fun _ _ d d' => Beside V m k d d') (Failed V m k) := by
  refine Prog.twin_perform.mpr ?_
  by_cases hr : c.world.redisDown = true
  · simp only [execOp, execEffect, if_pos hr, if_pos (h.redisDown.trans hr)]
    exact ⟨rfl, h⟩
  · simp only [execOp, execEffect, if_neg hr, if_neg (h.up hr)]
    exact h.setPending (some p)

theorem twin_clearPending (h : Beside V m k c c') :
    Prog.Twin execOp (ext (.clearPending V.gate)) (ext (.clearPending V.gate)) c c'
      (fun _ _ d d' => Beside V m k d d') (Failed V m k) := by
  refine Prog.twin_perform.mpr ?_
  by_cases hr : c.world.redisDown = true
  · simp only [execOp, execEffect, if_pos hr, if_pos (h.redisDown.trans hr)]
    exact ⟨rfl, h⟩
  · simp only [execOp, execEffect, if_neg hr, if_neg (h.up hr)]
    exact h.setPending none

theorem twin_getPending (h : Beside V m k c c') :
    Prog.Twin execOp (ext (.getPending V.gate)) (ext (.getPending V.gate)) c c'
      (fun a b d d' => b = a ∧ a = c.world.live (c.world.pending V.gate) ∧ d = c ∧ d' = c')
      (Failed V m k) := by
  refine Prog.twin_perform.mpr ?_
  by_cases hr : c.world.redisDown = true
  · simp only [execOp, execEffect, if_pos hr, if_pos (h.redisDown.trans hr)]
    exact ⟨rfl, h⟩
  · simp only [execOp, execEffect, if_neg hr, if_neg (h.up hr)]
    exact ⟨h.live, trivial, trivial, trivial⟩

/-- A locking select that overlooks the alien rows, with or without a timeout. -/
theorem twin_lock (h : Beside V V.fresh k c c') {f : ParkingTransaction → Bool}
    (hf : ∀ t, V.alien t → f t = false) :
    Prog.Twin execOp (lock f) (lock f) c c'
      (fun a b d d' => b = a ∧ a = c.world.db.parking.filter f ∧ d = c ∧ d' = c')
      (Failed V V.fresh k) := by
  have hsame : (c'.lockTimeout && (c'.world.db.parking.filter f).any fun t =>
      c'.world.contended.contains t.id) = (c.lockTimeout &&
        (c.world.db.parking.filter f).any fun t => c.world.contended.contains t.id) := by
    rw [h.lockTimeout, h.contended, h.filter hf]
  refine Prog.twin_perform.mpr ?_
  by_cases hl : (c.lockTimeout && (c.world.db.parking.filter f).any fun t =>
      c.world.contended.contains t.id) = true
  · simp only [execOp, if_pos hl, if_pos (hsame.trans hl)]
    exact ⟨rfl, h⟩
  · have hl' := fun hl' => hl (hsame.symm.trans hl')
    simp only [execOp, if_neg hl, if_neg hl']
    exact ⟨h.filter hf, trivial, trivial, trivial⟩

/-- The search criteria do not select an alien row. -/
def Overlooks (V : View) (b cn p : Option String) : Prop :=
  ∀ f, activeFilter b cn p = some f → ∀ t, V.alien t → f t = false

theorem twin_findActive (h : Beside V V.fresh k c c') {b cn p : Option String}
    (hf : Overlooks V b cn p) :
    Prog.Twin execOp (findActiveTransaction b cn p true) (findActiveTransaction b cn p true) c c'
      (fun r s d d' => s = r ∧ r = c.world.db.findActive b cn p ∧ d = c ∧ d' = c')
      (Failed V V.fresh k) := by
  unfold findActiveTransaction Db.findActive
  rcases hact : activeFilter b cn p with _ | f
  · exact ⟨rfl, rfl, rfl, rfl⟩
  · refine (twin_lock h (hf f hact)).bind ?_
    rintro _ rows _ _ ⟨rfl, rfl, rfl, rfl⟩
    exact ⟨rfl, rfl, rfl, rfl⟩

/-- The row that the service is about, ACTIVE when the runs started. -/
def Mine (V : View) (i : Id) : Prop :=
  V.target = some i ∧ ∀ s ∈ V.left.parking, s.id = i → s.status = .active

section Own
variable (hb : V.Blind)
include hb

theorem twin_override (h : Beside V V.fresh k c c') {t : ParkingTransaction} (ht : Mine V t.id)
    (v : Option Id) :
    Prog.Twin execOp (overrideVehicleType t v) (overrideVehicleType t v) c c'
      (fun a b d d' => b = a ∧ a.id = t.id ∧ Beside V V.fresh k d d') (Failed V V.fresh k) := by
  cases v with
  | none => exact ⟨rfl, rfl, h⟩
  | some v =>
    refine (twin_update hb h ht.1 ht.2 ?_ ?_ ?_ ?_ le_rfl).bind fun _ _ d d' hd => ?_
    · exact fun r => ⟨rfl, rfl, rfl, Or.inl rfl⟩
    · exact fun r => ⟨rfl, rfl, rfl, Or.inl rfl⟩
    · intro r hold
      exact (relink_old (t := (TxUpdate.vehicleTypeId v).apply r) hold).symm
    · exact fun r hold => hold
    · exact ⟨rfl, rfl, hd⟩

theorem twin_persistCard (h : Beside V V.fresh k c c') {t : ParkingTransaction}
    (ht : Mine V t.id) {card : String} (hcard : card ≠ "" → V.card = some card) :
    Prog.Twin execOp (persistCardNumber t card) (persistCardNumber t card) c c'
      (fun a b d d' => b = a ∧ a.id = t.id ∧ Beside V V.fresh k d d') (Failed V V.fresh k) := by
  unfold persistCardNumber
  by_cases hempty : card = ""
  · rw [if_pos hempty]
    exact ⟨rfl, rfl, h⟩
  · rw [if_neg hempty]
    have hkin : ∀ r, Kin V.card r ((TxUpdate.cardNumber card).apply r) := by
      intro r
      refine ⟨rfl, rfl, rfl, Or.inr ⟨?_, (hcard hempty).symm⟩⟩
      rw [hcard hempty]
      exact Option.some_ne_none card
    refine (twin_update hb h ht.1 ht.2 hkin hkin ?_ ?_ le_rfl).bind fun _ _ d d' hd => ?_
    · intro r hold
      exact (relink_old (t := (TxUpdate.cardNumber card).apply r) hold).symm
    · exact fun r hold => hold
    · exact ⟨rfl, rfl, hd⟩

/-- The completion, whose link to the e-money row is renumbered on the right. -/
theorem twin_exit (h : Beside V V.fresh k c c') {t : ParkingTransaction} (ht : Mine V t.id)
    {x x' : ExitColumns}
    (hx : x' = { x with emoneyTransactionId := x.emoneyTransactionId.map V.renumber })
    (hlink : ∀ j, x.emoneyTransactionId = some j → j < m) (hm : V.fresh ≤ m) :
    Prog.Twin execOp (completeExitTransaction t x) (completeExitTransaction t x') c c'
      (fun a b d d' => ∃ now, a = (TxUpdate.exit now x).apply t ∧
        b = (TxUpdate.exit now x').apply t ∧ Beside V m k d d') (Failed V m k) := by
  have hnow : Prog.Twin execOp (ext .now) (ext .now) c c'
      (fun a b d d' => b = a ∧ Beside V V.fresh k d d') (Failed V m k) := by
    refine (twin_ambient ambient_now h).mono
      (fun _ _ _ _ h => h) fun _ _ _ _ h => ⟨h.1, h.2.mono hm⟩
  refine hnow.bind ?_
  rintro _ now d d' ⟨rfl, hd⟩
  refine (twin_update hb hd ht.1 ht.2 ?_ ?_ ?_ ?_ hm).bind fun _ _ e e' he => ?_
  · exact fun r => ⟨rfl, rfl, rfl, Or.inl rfl⟩
  · exact fun r => ⟨rfl, rfl, rfl, Or.inl rfl⟩
  · rintro r -
    rw [hx]
    rfl
  · exact fun r _ => hlink
  · exact ⟨now, rfl, rfl, he⟩

end Own
end Steps

section Services
variable {V : View} {k : Id} {c c' : Conn} (hb : V.Blind) (h : Beside V V.fresh k c c')
include hb h

theorem twin_cash (a : CashPayment) (hf : Overlooks V a.barcode a.cardNumber a.plateNumber)
    (ht : ∀ t, c.world.db.findActive a.barcode a.cardNumber a.plateNumber = some t →
      Mine V t.id) :
    Prog.Twin execOp (processCashPayment a) (processCashPayment a) c c'
      (fun r s d d' => s = r ∧ Beside V V.fresh k d d') (Failed V V.fresh k) := by
  refine (twin_findActive h hf).bind ?_
  rintro _ r _ _ ⟨rfl, hr, rfl, rfl⟩
  cases r with
  | none => exact ⟨rfl, h⟩
  | some t =>
    have hmine := ht t hr.symm
    refine (twin_override hb h hmine a.vehicleTypeId).bind ?_
    rintro _ t₁ d d' ⟨rfl, hid, hd⟩
    refine (twin_ambient (ambient_snapshots _ _ _) hd).bind ?_
    rintro - - d₂ d₂' ⟨-, hd₂⟩
    refine (twin_ambient (ambient_fee _ _) hd₂).bind ?_
    rintro _ fee d₃ d₃' ⟨rfl, hd₃⟩
    by_cases hpaid : (a.paidAmount : Int) < fee
    · rw [if_pos hpaid]
      exact ⟨rfl, hd₃⟩
    · rw [if_neg hpaid]
      refine (twin_ambient ambient_currentShift hd₃).bind ?_
      rintro _ shift d₄ d₄' ⟨rfl, hd₄⟩
      refine (twin_exit hb hd₄ (hid.symm ▸ hmine) rfl ?_ le_rfl).bind ?_
      · rintro j ⟨⟩
      rintro _ _ d₅ d₅' ⟨now, rfl, rfl, hd₅⟩
      refine (twin_ambient (ambient_printReceipt _ _) hd₅).bind ?_
      rintro - - d₆ d₆' ⟨-, hd₆⟩
      exact ⟨rfl, hd₆⟩

theorem twin_rfid (a : RfidPayment) (hf : Overlooks V none (some a.cardNumber) none)
    (ht : ∀ t, c.world.db.findActive none (some a.cardNumber) none = some t → Mine V t.id) :
    Prog.Twin execOp (processRfidPayment a) (processRfidPayment a) c c'
      (fun r s d d' => s = r ∧ Beside V V.fresh k d d') (Failed V V.fresh k) := by
  have hmember : Prog.Twin execOp (ext (.selectMember (activeMember a.cardNumber)))
      (ext (.selectMember (activeMember a.cardNumber))) c c'
      (fun r s d d' => s = r ∧ d = c ∧ d' = c') (Failed V V.fresh k) := by
    refine Prog.twin_perform.mpr ?_
    simp only [execOp, execEffect, h.table Db.members fun _ => rfl]
    exact ⟨trivial, trivial, trivial⟩
  refine hmember.bind ?_
  rintro _ member _ _ ⟨rfl, rfl, rfl⟩
  cases member with
  | none => exact ⟨rfl, h⟩
  | some member =>
    refine (twin_findActive h hf).bind ?_
    rintro _ r _ _ ⟨rfl, hr, rfl, rfl⟩
    cases r with
    | none => exact ⟨rfl, h⟩
    | some t =>
      refine (twin_ambient (ambient_snapshots _ _ _) h).bind ?_
      rintro - - d₂ d₂' ⟨-, hd₂⟩
      refine (twin_ambient ambient_currentShift hd₂).bind ?_
      rintro _ shift d₃ d₃' ⟨rfl, hd₃⟩
      refine (twin_exit hb hd₃ (ht t hr.symm) rfl ?_ le_rfl).bind ?_
      · rintro j ⟨⟩
      rintro _ _ d₄ d₄' ⟨now, rfl, rfl, hd₄⟩
      exact ⟨rfl, hd₄⟩

theorem twin_deduct (a : EmoneyDeduct) (hg : a.gateId = V.gate)
    (hf : Overlooks V (some a.barcode) none none)
    (ht : ∀ t, c.world.db.findActive (some a.barcode) none none = some t → Mine V t.id) :
    Prog.Twin execOp (processEmoneyDeduct a) (processEmoneyDeduct a) c c'
      (fun r s d d' => s = r ∧ Beside V V.fresh k d d') (Failed V V.fresh k) := by
  refine (twin_findActive h hf).bind ?_
  rintro _ r _ _ ⟨rfl, hr, rfl, rfl⟩
  cases r with
  | none => exact ⟨rfl, h⟩
  | some t =>
    refine (twin_override hb h (ht t hr.symm) a.vehicleTypeId).bind ?_
    rintro _ t₁ d d' ⟨rfl, hid, hd⟩
    refine (twin_ambient (ambient_fee _ _) hd).bind ?_
    rintro _ fee d₂ d₂' ⟨rfl, hd₂⟩
    rw [hg]
    refine (twin_setPending hd₂ _).bind ?_
    intro _ _ d₃ d₃' hd₃
    exact ⟨rfl, hd₃⟩

omit h in
/-- With the id of the e-money row on the left, and its renumbered id on the right. -/
theorem twin_outcome (h : Beside V V.fresh k c c') (a : EmoneyResult) (hg : a.gateId = V.gate)
    (pending : Pending) {t : ParkingTransaction} (ht : Mine V t.id) {i : Id} (hi : i < k)
    (hk : V.fresh ≤ k) :
    Prog.Twin execOp (determineOutcome a pending t i)
      (determineOutcome a pending t (V.renumber i)) c c'
      (fun r s d d' => (∃ t₁ t₂, r = a.outcome t₁ i ∧ s = a.outcome t₂ (V.renumber i) ∧
        t₂.id = t₁.id) ∧ Beside V k k d d') (Failed V k k) := by
  have hend : ∀ t₁ t₂ : ParkingTransaction, t₂.id = t₁.id → ∀ d d', Beside V k k d d' →
      Prog.Twin execOp (pure (a.outcome t₁ i) : Api EmoneyOutcome)
        (pure (a.outcome t₂ (V.renumber i))) d d'
        (fun r s d d' => (∃ t₁ t₂, r = a.outcome t₁ i ∧ s = a.outcome t₂ (V.renumber i) ∧
          t₂.id = t₁.id) ∧ Beside V k k d d') (Failed V k k) :=
    fun t₁ t₂ hid d d' hd => ⟨⟨t₁, t₂, rfl, rfl, hid⟩, hd⟩
  unfold determineOutcome
  by_cases hs : a.status.isSuccess = true
  · rw [if_pos hs, if_pos hs]
    have hshift : Prog.Twin execOp getCurrentShift getCurrentShift c c'
        (fun a b d d' => b = a ∧ Beside V V.fresh k d d') (Failed V k k) :=
      (twin_ambient ambient_currentShift h).mono (fun _ _ _ _ h => h)
        fun _ _ _ _ h => ⟨h.1, h.2.mono hk⟩
    refine hshift.bind ?_
    rintro _ shift d d' ⟨rfl, hd⟩
    refine (twin_exit hb hd ht rfl ?_ hk).bind ?_
    · rintro j ⟨⟩
      exact hi
    rintro _ _ d₂ d₂' ⟨now, rfl, rfl, hd₂⟩
    rw [hg]
    refine (twin_clearPending hd₂).bind ?_
    intro _ _ d₃ d₃' hd₃
    refine (twin_ambient (ambient_snapshots _ _ _) hd₃).bind ?_
    rintro - - d₄ d₄' ⟨-, hd₄⟩
    refine (twin_ambient (ambient_printReceipt _ _) hd₄).bind ?_
    rintro - - d₅ d₅' ⟨-, hd₅⟩
    exact ⟨⟨_, _, rfl, rfl, rfl⟩, hd₅⟩
  · rw [if_neg hs, if_neg hs]
    by_cases hl : a.status = .lostContact
    · rw [if_pos hl, if_pos hl]
      exact hend t t rfl c c' (h.mono hk)
    · rw [if_neg hl, if_neg hl, if_pos (terminal_of_not hs hl), if_pos (terminal_of_not hs hl), hg]
      refine (twin_clearPending (h.mono hk)).bind ?_
      intro _ _ d d' hd
      exact hend t t rfl d d' hd

/-- The outcomes differ at most in the ids of the e-money rows. -/
def SameOutcome (r s : EmoneyOutcome) : Prop :=
  s.transaction.id = r.transaction.id ∧ s.success = r.success ∧ s.status = r.status ∧
    s.isIntermediate = r.isIntermediate

/-- The links of both sides are as fresh as the sequence. -/
def Settled (V : View) (d d' : Conn) : Prop := ∃ m, V.fresh ≤ m ∧ Beside V m m d d'

omit hb h in
theorem Beside.settled (h : Beside V V.fresh k c c') : Settled V c c' :=
  ⟨V.fresh, le_rfl, h.reach h.fresh⟩

theorem twin_result (a : EmoneyResult) (hg : a.gateId = V.gate)
    (hcard : a.cardNumber ≠ "" → V.card = some a.cardNumber)
    (hf : ∀ p, c.world.live (c.world.pending V.gate) = some p →
      ∀ t, V.alien t → t.id ≠ p.transactionId)
    (ht : ∀ p, c.world.live (c.world.pending V.gate) = some p →
      ∀ t, c.world.db.byId p.transactionId = some t → t.status = .active → Mine V t.id) :
    Prog.Twin execOp (processEmoneyResult a) (processEmoneyResult a) c c'
      (fun r s d d' => SameOutcome r s ∧ Settled V d d')
      fun e f d d' => f = e ∧ Settled V d d' := by
  have hearly : ∀ {k} (e f : Exc) d d', Failed V V.fresh k e f d d' → f = e ∧ Settled V d d' :=
    fun e f d d' h => ⟨h.1, h.2.settled⟩
  unfold processEmoneyResult
  rw [hg]
  refine ((twin_getPending h).mono (fun _ _ _ _ h => h) hearly).bind ?_
  rintro _ pending c c' ⟨rfl, hp, rfl, rfl⟩
  cases pending with
  | none => exact ⟨rfl, h.settled⟩
  | some p =>
    have htimeout : Prog.Twin execOp (ext .setLockTimeout) (ext .setLockTimeout) c c'
        (fun _ _ d d' => d.world = c.world ∧ Beside V V.fresh k d d')
        (fun e f d d' => f = e ∧ Settled V d d') :=
      Prog.twin_perform.mpr ⟨rfl, { h with lockTimeout := rfl }⟩
    refine htimeout.bind ?_
    rintro - - d d' ⟨hw, hd⟩
    rw [← hw] at hp ht hf
    have hforeign : ∀ t, V.alien t → decide (t.id = p.transactionId) = false :=
      fun t halien => decide_eq_false (hf p hp.symm t halien)
    refine ((twin_lock hd hforeign).mono (fun _ _ _ _ h => h) hearly).bind ?_
    rintro _ rows d d' ⟨rfl, hrows, rfl, rfl⟩
    generalize hrow : rows.head?.filter (fun t => decide (t.status = .active)) = row
    rcases row with _ | t
    · refine ((twin_clearPending hd).mono (fun _ _ _ _ h => h) hearly).bind ?_
      intro _ _ d₂ d₂' hd₂
      exact ⟨rfl, hd₂.settled⟩
    · obtain ⟨hhead, hactive⟩ := Option.filter_eq_some_iff.mp hrow
      have hid : d.world.db.byId p.transactionId = some t := by
        rw [Db.byId, ← hrows]
        exact hhead
      have hmine := ht p hp.symm t hid (of_decide_eq_true hactive)
      refine ((twin_persistCard hb hd hmine hcard).mono (fun _ _ _ _ h => h) hearly).bind ?_
      rintro _ t₁ d₂ d₂' ⟨rfl, htid, hd₂⟩
      refine ((twin_insertEmoney hd₂ _).mono (fun _ _ _ _ h => h) hearly).bind ?_
      rintro e _ d₃ d₃' ⟨rfl, hlow, hhigh, hd₃⟩
      have hout := twin_outcome hb (hd₃.reach (Int.add_one_le_of_lt hhigh)) a hg p
        (htid.symm ▸ hmine) (Int.lt_succ e.id) (hlow.trans (Int.lt_succ e.id).le)
      refine hout.mono ?_ ?_
      · rintro r s d₄ d₄' ⟨⟨t₁, t₂, rfl, rfl, hsame⟩, hd₄⟩
        exact ⟨⟨hsame, rfl, rfl, rfl⟩, _, hlow.trans (Int.lt_succ e.id).le, hd₄⟩
      · rintro x y d₄ d₄' ⟨hxy, hd₄⟩
        exact ⟨hxy, _, hlow.trans (Int.lt_succ e.id).le, hd₄⟩

end Services
end ParkIt
