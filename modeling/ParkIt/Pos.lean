import ParkIt.Calls

/-! The POS page at an exit gate: the tariff on its screen and the fee it has charged. -/
namespace ParkIt

open Effects Api Transition

/-- A gate of the page's list, with the part of `hardware_config` that concerns the lane. -/
structure PosGate where
  id : Id
  code : String
  laneType : Option String := none
  defaultVehicleTypeId : Option Id := none
deriving DecidableEq, Repr

def PosGate.isMixedLane (g : PosGate) : Bool :=
  match truthy g.laneType with
  | none => true
  | some l => decide (l = "MIXED")

/-- `default_vehicle_type_id || null` in a single-type lane. -/
def PosGate.laneVehicleTypeId (g : PosGate) : Option Id :=
  if g.isMixedLane then none else g.defaultVehicleTypeId.filter (· ≠ 0)

/-- What the page keeps of the transaction that a lookup has found. -/
structure Shown where
  id : Id
  barcode : Option String
  plateNumber : Option String
  vehicleTypeId : Option Id
  tariff : Int
deriving DecidableEq, Repr

/-- What a fee was computed for, and when. -/
structure Quote where
  transaction : Id
  vehicleTypeId : Option Id
  instant : Int
deriving DecidableEq, Repr

structure FeeAnswer where
  quote : Quote
  fee : Int
deriving DecidableEq, Repr

structure Pos where
  world : World
  selectedGate : Option PosGate := none
  activeVehicleTypeId : Option Id := none
  currentTransaction : Option Shown := none
  displayTariff : Int := 0
  /-- The calculate-fee requests on their way, with the transaction and the type they name. -/
  requests : List (Id × Option Id) := []
  answers : List FeeAnswer := []
  /-- What `displayTariff` was last computed for; the page does not keep it. -/
  quoted : Option Quote := none

/-- A lookup by the operator's input or by a card seen at the lane; answers of the server to
calculate-fee requests and their arrival come in any order. -/
inductive PosEvent where
  | selectGate (g : Option PosGate)
  | barcodeLookup (input : String)
  | cardLookup (cardNumber : String)
  | vehicleTypeChange (v : Option Id)
  | serve (i : Nat)
  | arrive (i : Nat)
  | clear
  | wait (d : Nat)
  | confirmCash (amount : Nat) (operatorId : Option Id)
  | startEmoney (operatorId : Option Id)
deriving DecidableEq, Repr

namespace Pos
variable (s : Pos)

/-- `{ ...res.transaction, tariff: res.fee }`. -/
def found (t : ParkingTransaction) (fee : Int) : Shown where
  id := t.id
  barcode := t.barcode
  plateNumber := t.plateNumber
  vehicleTypeId := t.vehicleTypeId
  tariff := fee

/-- A lookup that finds nothing leaves the screen as it is. -/
def lookup (r : LookupRequest) : Pos :=
  match withDb (lookupTransaction r) s.world with
  | (.ok (some (t, fee)), w) =>
    { s with
      world := w
      currentTransaction := some (found t fee)
      displayTariff := orInt fee 0
      quoted := some ⟨t.id, r.vehicleTypeId.or t.vehicleTypeId, s.world.now⟩ }
  | (_, w) => { s with world := w }

/-- The type that a fee is computed for: the one that is asked for, or the row's own. -/
def effectiveType (w : World) (i : Id) (v : Option Id) : Option Id :=
  v.or ((w.db.byId i).bind (·.vehicleTypeId))

def serve (i : Nat) : Pos :=
  match s.requests[i]? with
  | none => s
  | some (tx, v) =>
    let s' := { s with requests := s.requests.eraseIdx i }
    match withDb (calculateFee tx v) s.world with
    | (.ok fee, w) =>
      { s' with
        world := w
        answers := s.answers ++ [⟨⟨tx, effectiveType s.world tx v, s.world.now⟩, fee⟩] }
    | (.error _, w) => { s' with world := w }

def arrive (i : Nat) : Pos :=
  match s.answers[i]? with
  | none => s
  | some a =>
    { s with answers := s.answers.eraseIdx i, displayTariff := a.fee, quoted := some a.quote }

def vehicleTypeChange (v : Option Id) : Pos :=
  { s with
    activeVehicleTypeId := v
    requests := match s.currentTransaction with
      | none => s.requests
      | some c => s.requests ++ [(c.id, v)] }

/-- The watcher of the current transaction runs only when there was one. -/
def clear : Pos :=
  match s.currentTransaction with
  | none => s
  | some _ => { s with currentTransaction := none, displayTariff := 0, quoted := none }

def gateCode (g : PosGate) : String := if g.code = "" then s!"gate-out-{g.id}" else g.code

def cashRequest (g : PosGate) (amount : Nat) : CashPaymentRequest where
  gateId := gateCode g
  gateOutId := g.id
  barcode := s.currentTransaction.bind (·.barcode)
  plateNumber := s.currentTransaction.bind (·.plateNumber)
  paidAmount := amount
  vehicleTypeId := s.activeVehicleTypeId

/-- The type comes from the lookup; the API refuses a barcode of another length. -/
def deductRequest (g : PosGate) (c : Shown) : Option EmoneyDeductRequest :=
  (truthy c.barcode).bind fun barcode =>
    if h : 4 ≤ barcode.length ∧ barcode.length ≤ 64 then
      some { gateId := gateCode g, gateOutId := g.id, barcode, vehicleTypeId := c.vehicleTypeId,
             barcode_length := h }
    else none

/-- The cash dialog does not confirm less than the tariff shown. -/
def confirmCash (amount : Nat) (operatorId : Option Id) : Pos :=
  match s.selectedGate with
  | none => s
  | some g =>
    if (amount : Int) < s.displayTariff then s
    else
      { s with world :=
          (withDb (cashPayment none operatorId (s.cashRequest g amount)) s.world).2 }

def startEmoney (operatorId : Option Id) : Pos :=
  match s.selectedGate, s.currentTransaction with
  | some g, some c =>
    match deductRequest g c with
    | none => s
    | some r => { s with world := (withDb (emoneyDeduct operatorId r) s.world).2 }
  | _, _ => s

def next : PosEvent → Pos
  | .selectGate g =>
    { s with selectedGate := g, activeVehicleTypeId := g.bind (·.laneVehicleTypeId) }
  | .barcodeLookup input =>
    if input = "" then s else s.lookup { barcode := some input, plateNumber := some input }
  | .cardLookup cardNumber =>
    if cardNumber = "" then s else s.lookup { cardNumber := some cardNumber }
  | .vehicleTypeChange v => s.vehicleTypeChange v
  | .serve i => s.serve i
  | .arrive i => s.arrive i
  | .clear => s.clear
  | .wait d => { s with world.now := s.world.now + d }
  | .confirmCash amount operatorId => s.confirmCash amount operatorId
  | .startEmoney operatorId => s.startEmoney operatorId

end Pos
def ParkingTransaction.ofType (t : ParkingTransaction) (v : Option Id) : ParkingTransaction :=
  { t with vehicleTypeId := v }

section Pricing
variable {vts : List VehicleType} {e : DateTime} {t : ParkingTransaction} {db db' db'' : Db}
  {v : Option Id} {i : Id} {w : World}

theorem quote_override : quote vts e t v = quote vts e (t.ofType (v.or t.vehicleTypeId)) := by
  cases v <;> rfl

theorem quote_retype : quote vts e (t.retype v) = quote vts e (t.ofType (v.or t.vehicleTypeId)) := by
  cases v <;> rfl

/-- ACTIVE rows may have got another vehicle type, and others may have been completed. -/
structure Retyped (db db' : Db) : Prop where
  types : db'.vehicleTypes = db.vehicleTypes
  ids : db'.parking.map (·.id) = db.parking.map (·.id)
  rows : ∀ t' ∈ db'.parking, t'.status = .active → ∃ t ∈ db.parking, ∃ v, t' = t.ofType v

theorem Retyped.refl (db : Db) : Retyped db db := ⟨rfl, rfl, fun t ht _ => ⟨t, ht, _, rfl⟩⟩

theorem Retyped.trans (h : Retyped db db') (h' : Retyped db' db'') : Retyped db db'' where
  types := h'.types.trans h.types
  ids := h'.ids.trans h.ids
  rows t'' ht'' ha := by
    obtain ⟨t', ht', v', rfl⟩ := h'.rows t'' ht'' ha
    obtain ⟨t, ht, v, rfl⟩ := h.rows t' ht' ha
    exact ⟨t, ht, v', rfl⟩

theorem retyped_setTx {u : TxUpdate}
    (h : ∀ t, (u.apply t).status = .active → ∃ v, u.apply t = t.ofType v) :
    Retyped db (db.setTx i u) where
  types := rfl
  ids := Db.setTx_ids
  rows t' ht' ha := by
    obtain ⟨t, ht, rfl⟩ := Db.mem_setTx.mp ht'
    split at ha
    · rename_i hid
      obtain ⟨v, hv⟩ := h t ha
      exact ⟨t, ht, v, by rw [if_pos hid, hv]⟩
    · rename_i hid
      exact ⟨t, ht, t.vehicleTypeId, by rw [if_neg hid]; rfl⟩

theorem retyped_retype : Retyped db (db.retype i v) := by
  cases v with
  | none => exact Retyped.refl db
  | some v => exact retyped_setTx fun t _ => ⟨some v, rfl⟩

theorem retyped_exit {now : DateTime} {x : ExitColumns} : Retyped db (db.setTx i (.exit now x)) :=
  retyped_setTx fun _ h => nomatch h

/-- The fee is the price of the ACTIVE row that the quote names. -/
def Prices (db : Db) (q : Quote) (fee : Int) : Prop :=
  ∀ t ∈ db.parking, t.id = q.transaction → t.status = .active →
    quote db.vehicleTypes (.utc q.instant) (t.ofType q.vehicleTypeId) = .ok fee

theorem Prices.retyped {q : Quote} {fee : Int} (h : Prices db q fee) (hr : Retyped db db') :
    Prices db' q fee := by
  intro t' ht' hid ha
  obtain ⟨t, ht, v, rfl⟩ := hr.rows t' ht' ha
  rw [hr.types]
  exact h t ht hid ha

theorem effectiveType_of_mem (hn : (w.db.parking.map (·.id)).Nodup) (ht : t ∈ w.db.parking) :
    Pos.effectiveType w t.id v = v.or t.vehicleTypeId := by
  rw [Pos.effectiveType, Db.byId_of_mem hn ht, Option.bind_some]

theorem prices_of_quote (hn : (db.parking.map (·.id)).Nodup) (ht : t ∈ db.parking) {n fee : Int}
    (h : quote db.vehicleTypes (.utc n) t v = .ok fee) :
    Prices db ⟨t.id, v.or t.vehicleTypeId, n⟩ fee := by
  intro s hs hid _
  obtain rfl := Db.eq_of_id hn hs ht hid
  rwa [quote_override] at h

end Pricing

section Requests
variable {w : World}

/-- The row that a payment finds is charged its price of the moment. -/
def Charges (w : World) (t : ParkingTransaction) (v : Option Id) (resp : PaymentResponse) : Prop :=
  ∀ fee, quote w.db.vehicleTypes (.utc w.now) (t.ofType (v.or t.vehicleTypeId)) = .ok fee →
    resp.success = true ∧ resp.fee = some fee

/-- A cash payment completes the row that it finds, or says why not. -/
theorem cashPayment_outcome (operatorId : Option Id) (r : CashPaymentRequest) :
    Prog.Ensures execOp (cashPayment none operatorId r) { world := w }
      (fun resp c' =>
        (∃ t fee now x, w.db.findActive r.barcode none r.plateNumber = some t ∧
          quote w.db.vehicleTypes (.utc w.now) (t.retype r.vehicleTypeId) = .ok fee ∧
          resp.success = true ∧ resp.transactionId = some t.id ∧ resp.fee = some fee ∧
          c'.world.db = (w.db.retype t.id r.vehicleTypeId).setTx t.id (.exit now x)) ∨
        resp.success = false ∧
          (w.db.findActive r.barcode none r.plateNumber = none ∧ c'.world.db = w.db ∨
            ∃ t fee, w.db.findActive r.barcode none r.plateNumber = some t ∧
              quote w.db.vehicleTypes (.utc w.now) (t.retype r.vehicleTypeId) = .ok fee ∧
              (r.paidAmount : Int) < fee ∧ c'.world.db = w.db.retype t.id r.vehicleTypeId))
      (fun _ _ => True) := by
  unfold cashPayment idempotent
  rw [Prog.ensures_bind]
  refine checkIdempotency_spec none ?_
  refine ensures_respond ?_
  rw [Prog.ensures_bind, Prog.ensures_bind]
  refine (processCashPayment_spec _ rfl).mono ?_ ?_
  · rintro result c' ⟨t, now, shiftId, ht, hfee, -, htx, -, -, hdb⟩
    rw [Prog.ensures_pure]
    refine (storeIdempotency_spec none _).bind (fun _ _ h => h.elim) ?_
    rintro - c'' hc''
    refine .inl ⟨t, result.fee, now, _, ht, hfee, rfl, ?_, rfl, hc''.trans hdb⟩
    rw [cashResponse, htx, TxUpdate.apply_id, retype_id]
  · rintro (msg | _ | _ | _) c' h
    · exact .inr ⟨rfl, h.2⟩
    all_goals trivial

theorem cashPayment_charges (operatorId : Option Id) (r : CashPaymentRequest) :
    Prog.Ensures execOp (cashPayment none operatorId r) { world := w }
      (fun resp c' => Retyped w.db c'.world.db ∧ ∀ t,
        w.db.findActive r.barcode none r.plateNumber = some t →
        (∀ fee, quote w.db.vehicleTypes (.utc w.now)
          (t.ofType (r.vehicleTypeId.or t.vehicleTypeId)) = .ok fee → fee ≤ r.paidAmount) →
        Charges w t r.vehicleTypeId resp) (fun _ _ => True) := by
  refine (cashPayment_outcome operatorId r).mono ?_ fun _ _ h => h
  rintro resp c' (⟨t, fee, now, x, ht, hfee, hsuccess, -, hcharged, hdb⟩ |
    ⟨-, ⟨hnone, hdb⟩ | ⟨t, fee, ht, hfee, hlow, hdb⟩⟩)
  · refine ⟨hdb ▸ retyped_retype.trans retyped_exit, ?_⟩
    rintro s hs - price hq
    cases ht.symm.trans hs
    rw [← quote_retype] at hq
    cases hfee.symm.trans hq
    exact ⟨hsuccess, hcharged⟩
  · refine ⟨hdb ▸ Retyped.refl _, ?_⟩
    rintro s hs
    cases hnone.symm.trans hs
  · refine ⟨hdb ▸ retyped_retype, ?_⟩
    rintro s hs hpaid
    cases ht.symm.trans hs
    rw [quote_retype] at hfee
    exact absurd (hpaid fee hfee) (not_le.mpr hlow)

theorem emoneyDeduct_charges (operatorId : Option Id) (r : EmoneyDeductRequest) :
    Prog.Ensures execOp (emoneyDeduct operatorId r) { world := w }
      (fun resp c' => Retyped w.db c'.world.db ∧ ∀ t,
        w.db.findActive (some r.barcode) none none = some t → Charges w t r.vehicleTypeId resp)
      (fun _ _ => True) := by
  refine ensures_respond ((processEmoneyDeduct_spec _ rfl).bind ?_ ?_)
  · rintro (msg | _ | _ | _) c' h
    · refine ⟨h.1 ▸ Retyped.refl _, ?_⟩
      rintro t ht
      cases h.2.symm.trans ht
    all_goals trivial
  · rintro result c' ⟨t, deadline, ht, -, hfee, hdb, -⟩
    refine ⟨hdb ▸ retyped_retype, ?_⟩
    rintro s hs fee hq
    cases ht.symm.trans hs
    rw [← quote_retype] at hq
    cases hfee.symm.trans hq
    exact ⟨rfl, rfl⟩

end Requests

/-- What `displayTariff` and the answers on their way say is what was asked. -/
structure PosInv (s : Pos) : Prop where
  ids : (s.world.db.parking.map (·.id)).Nodup
  shown : ∀ q, s.quoted = some q → Prices s.world.db q s.displayTariff
  answers : ∀ a ∈ s.answers, Prices s.world.db a.quote a.fee

section Invariant
variable {s : Pos} {w : World}

theorem PosInv.retyped (h : PosInv s) (hr : Retyped s.world.db w.db) :
    PosInv { s with world := w } where
  ids := by rw [hr.ids]; exact h.ids
  shown q hq := (h.shown q hq).retyped hr
  answers a ha := (h.answers a ha).retyped hr

/-- A request that only retypes and completes rows. -/
theorem PosInv.request {α : Type} {p : Api α} (h : PosInv s)
    (hp : Prog.Ensures execOp p { world := s.world }
      (fun _ c' => Retyped s.world.db c'.world.db) fun _ _ => True) :
    PosInv { s with world := (withDb p s.world).2 } := by
  refine h.retyped ?_
  rcases hw : withDb p s.world with ⟨e | a, w'⟩
  · exact (withDb_error hw) ▸ Retyped.refl _
  · obtain ⟨c', hc, rfl⟩ := withDb_of_ensures hp hw
    exact hc

theorem PosInv.lookup (h : PosInv s) (r : LookupRequest) : PosInv (s.lookup r) := by
  unfold Pos.lookup
  have hspec := lookupTransaction_spec (c := { world := s.world }) r
  rcases hw : withDb (lookupTransaction r) s.world with ⟨e | _ | ⟨t, fee⟩, w'⟩
  · exact h.retyped ((withDb_error hw) ▸ Retyped.refl _)
  · obtain ⟨c', ⟨hdb, -⟩, rfl⟩ := withDb_of_ensures hspec hw
    exact h.retyped (hdb ▸ Retyped.refl _)
  · obtain ⟨c', ⟨hdb, hfound, hquote⟩, rfl⟩ := withDb_of_ensures hspec hw
    have ht := (Db.findActive_mem hfound.symm).1
    have hfee := hquote t fee rfl
    have hi := h.retyped (w := c'.world) (hdb ▸ Retyped.refl _)
    refine ⟨hi.ids, ?_, hi.answers⟩
    rintro _ ⟨⟩
    have hzero : orInt fee 0 = fee := by
      unfold orInt
      split <;> simp_all
    dsimp only
    rw [hzero, hdb]
    exact prices_of_quote h.ids ht hfee

theorem PosInv.serve (h : PosInv s) (i : Nat) : PosInv (s.serve i) := by
  unfold Pos.serve
  split
  · exact h
  · rename_i tx v _
    have hspec := calculateFee_spec (c := { world := s.world }) tx v
    rcases hw : withDb (calculateFee tx v) s.world with ⟨e | fee, w'⟩
    · have hi := h.retyped (w := w') ((withDb_error hw) ▸ Retyped.refl _)
      exact ⟨hi.ids, hi.shown, hi.answers⟩
    · obtain ⟨c', ⟨hdb, t, hid, hfee⟩, rfl⟩ := withDb_of_ensures hspec hw
      obtain ⟨ht, rfl⟩ := Db.byId_mem hid
      have hi := h.retyped (w := c'.world) (hdb ▸ Retyped.refl _)
      refine ⟨hi.ids, hi.shown, fun a ha => ?_⟩
      rcases List.mem_append.mp ha with ha | ha
      · exact hi.answers a ha
      · rw [List.mem_singleton.mp ha, hdb]
        dsimp only
        rw [effectiveType_of_mem h.ids ht]
        exact prices_of_quote h.ids ht hfee

theorem PosInv.arrive (h : PosInv s) (i : Nat) : PosInv (s.arrive i) := by
  unfold Pos.arrive
  split
  · exact h
  · rename_i a ha
    refine ⟨h.ids, ?_, fun b hb => h.answers b (List.mem_of_mem_eraseIdx hb)⟩
    rintro _ ⟨⟩
    exact h.answers a (List.mem_of_getElem? ha)

theorem PosInv.clear (h : PosInv s) : PosInv s.clear := by
  unfold Pos.clear
  split
  · exact h
  · exact ⟨h.ids, by rintro _ ⟨⟩, h.answers⟩

theorem PosInv.confirmCash (h : PosInv s) (amount : Nat) (operatorId : Option Id) :
    PosInv (s.confirmCash amount operatorId) := by
  unfold Pos.confirmCash
  split
  · exact h
  · split
    · exact h
    · exact h.request ((cashPayment_charges _ _).mono (fun _ _ hc => hc.1) fun _ _ _ => trivial)

theorem PosInv.startEmoney (h : PosInv s) (operatorId : Option Id) :
    PosInv (s.startEmoney operatorId) := by
  unfold Pos.startEmoney
  split
  · split
    · exact h
    · exact h.request ((emoneyDeduct_charges _ _).mono (fun _ _ hc => hc.1) fun _ _ _ => trivial)
  · exact h

theorem PosInv.next (h : PosInv s) (e : PosEvent) : PosInv (s.next e) := by
  cases e with
  | selectGate g => exact ⟨h.ids, h.shown, h.answers⟩
  | barcodeLookup input =>
    dsimp only [Pos.next]
    split
    · exact h
    · exact h.lookup _
  | cardLookup cardNumber =>
    dsimp only [Pos.next]
    split
    · exact h
    · exact h.lookup _
  | vehicleTypeChange v => exact ⟨h.ids, h.shown, h.answers⟩
  | serve i => exact h.serve i
  | arrive i => exact h.arrive i
  | clear => exact h.clear
  | wait d => exact ⟨h.ids, h.shown, h.answers⟩
  | confirmCash amount operatorId => exact h.confirmCash amount operatorId
  | startEmoney operatorId => exact h.startEmoney operatorId

end Invariant

namespace Pos
variable (s : Pos)

/-- The fee on the screen was computed at this instant. -/
def AtQuote : Prop := ∃ q, s.quoted = some q ∧ q.instant = s.world.now

/-- It was computed for this transaction and for the type that a payment with `v` charges. -/
def Priced (c : Shown) (v : Option Id) : Prop :=
  ∃ q, s.quoted = some q ∧ q.transaction = c.id ∧
    q.vehicleTypeId = effectiveType s.world c.id v

/-- A payment that finds the row on the screen is accepted, for the fee on the screen. -/
def ChargesShown : PosEvent → Prop
  | .confirmCash amount operatorId => ∀ g c t resp w',
      s.selectedGate = some g → s.currentTransaction = some c → s.displayTariff ≤ amount →
      s.world.db.findActive c.barcode none c.plateNumber = some t → t.id = c.id →
      withDb (cashPayment none operatorId (s.cashRequest g amount)) s.world = (.ok resp, w') →
      resp.success = true ∧ resp.fee = some s.displayTariff
  | .startEmoney operatorId => ∀ g c r t resp w',
      s.selectedGate = some g → s.currentTransaction = some c → deductRequest g c = some r →
      s.world.db.findActive (some r.barcode) none none = some t → t.id = c.id →
      withDb (emoneyDeduct operatorId r) s.world = (.ok resp, w') →
      resp.success = true ∧ resp.fee = some s.displayTariff
  | _ => True

/-- Cash charges the type selected on the page, e-money the type that the lookup returned. -/
def Agrees : PosEvent → Prop
  | .confirmCash _ _ => ∀ c, s.currentTransaction = some c → s.Priced c s.activeVehicleTypeId
  | .startEmoney _ => ∀ c, s.currentTransaction = some c → s.Priced c c.vehicleTypeId
  | _ => True

end Pos

/-- The page has just been loaded. -/
structure Opened (s : Pos) : Prop where
  ids : (s.world.db.parking.map (·.id)).Nodup
  quoted : s.quoted = none
  answers : s.answers = []

section Runs
variable {s : Pos} {xs : List (PosEvent × Pos)}

theorem posInv_reachable (hs : Opened s) (h : Path (fun s e t => t = s.next e) s xs) :
    PosInv (finish s xs) := by
  refine h.invariant ?_ ⟨hs.ids, by simp [hs.quoted], by simp [hs.answers]⟩
  rintro t e _ rfl ht
  exact ht.next e

/-- The screen shows the price that the payment computes. -/
theorem PosInv.quoted_price (h : PosInv s) {c : Shown} {v : Option Id} {t : ParkingTransaction}
    (hat : s.AtQuote) (hp : s.Priced c v) (ht : t ∈ s.world.db.parking) (ha : t.status = .active)
    (hid : t.id = c.id) :
    quote s.world.db.vehicleTypes (.utc s.world.now) (t.ofType (v.or t.vehicleTypeId)) =
      .ok s.displayTariff := by
  obtain ⟨q, hq, hnow⟩ := hat
  obtain ⟨q', hq', htx, htype⟩ := hp
  cases hq.symm.trans hq'
  rw [← hid, effectiveType_of_mem h.ids ht] at htype
  have hprice := h.shown q hq t ht (hid.trans htx.symm) ha
  rwa [htype, hnow] at hprice

theorem PosInv.chargesShown (h : PosInv s) {e : PosEvent} (he : s.Agrees e) (hat : s.AtQuote) :
    s.ChargesShown e := by
  cases e with
  | confirmCash amount operatorId =>
    intro g c t resp w' _ hc hamount ht hid hrun
    obtain ⟨hmem, ha⟩ := Db.findActive_mem ht
    have hprice := h.quoted_price hat (he c hc) hmem ha hid
    have hbarcode : (s.cashRequest g amount).barcode = c.barcode := by simp [Pos.cashRequest, hc]
    have hplate : (s.cashRequest g amount).plateNumber = c.plateNumber := by
      simp [Pos.cashRequest, hc]
    obtain ⟨c', ⟨-, hcharge⟩, -⟩ := withDb_of_ensures (cashPayment_charges operatorId _) hrun
    rw [hbarcode, hplate] at hcharge
    refine hcharge t ht (fun fee hfee => ?_) _ hprice
    cases hprice.symm.trans hfee
    exact hamount
  | startEmoney operatorId =>
    intro g c r t resp w' _ hc hr ht hid hrun
    obtain ⟨hmem, ha⟩ := Db.findActive_mem ht
    have hprice := h.quoted_price hat (he c hc) hmem ha hid
    obtain ⟨c', ⟨-, hcharge⟩, -⟩ := withDb_of_ensures (emoneyDeduct_charges operatorId _) hrun
    have htype : r.vehicleTypeId = c.vehicleTypeId := by
      obtain ⟨b, -, hb⟩ := Option.bind_eq_some_iff.mp hr
      split at hb <;> cases hb
      rfl
    rw [htype] at hcharge
    exact hcharge t ht _ hprice
  | _ => trivial

/-- Payments for the type that the screen was priced with charge what the screen shows. -/
theorem shown_fee_charged (hs : Opened s)
    (h : Path (fun s e t => t = s.next e ∧ s.Agrees e) s xs) :
    ∀ pre e t post, xs = pre ++ (e, t) :: post → (finish s pre).AtQuote →
      (finish s pre).ChargesShown e := by
  rintro pre e t post rfl hat
  obtain ⟨hpre, ⟨-, he⟩, -⟩ := path_append.mp h
  exact (posInv_reachable hs (hpre.mono fun _ _ _ hstep => hstep.1)).chargesShown he hat

end Runs

section Page

def mixedLane : PosGate := { id := 2, code := "OUT1", laneType := some "MIXED" }

def busLane : PosGate :=
  { id := 2, code := "OUT1", laneType := some "SINGLE", defaultVehicleTypeId := some 2 }

def pageAfter (es : List PosEvent) : Pos :=
  finish { world := waitingCar } (trace Pos.next { world := waitingCar } es)

/-- The type chosen for a bus is still selected when the car's ticket is scanned. -/
def afterBus : Pos :=
  pageAfter [.selectGate (some mixedLane), .vehicleTypeChange (some 2), .barcodeLookup "T1001"]

def inBusLane : Pos := pageAfter [.selectGate (some busLane), .barcodeLookup "T1001"]

def correctedToBus : Pos :=
  pageAfter [.selectGate (some mixedLane), .barcodeLookup "T1001", .vehicleTypeChange (some 2),
    .serve 0, .arrive 0]

theorem afterBus_charges : ¬ afterBus.ChargesShown (.confirmCash 20000 (some 1)) := fun h =>
  absurd (h mixedLane _ _ _ _ rfl rfl (by decide) rfl rfl rfl).2 (by decide)

theorem inBusLane_charges : ¬ inBusLane.ChargesShown (.confirmCash 20000 (some 1)) := fun h =>
  absurd (h busLane _ _ _ _ rfl rfl (by decide) rfl rfl rfl).2 (by decide)

theorem correctedToBus_charges : ¬ correctedToBus.ChargesShown (.startEmoney (some 1)) := fun h =>
  absurd (h mixedLane _ _ _ _ _ rfl rfl rfl rfl rfl rfl).2 (by decide)

/-- The car is charged as a bus, or shown as a bus and charged as a car. -/
theorem shown_fee_not_charged :
    (afterBus.AtQuote ∧ afterBus.displayTariff = 6000 ∧
      ¬ afterBus.ChargesShown (.confirmCash 20000 (some 1))) ∧
    (inBusLane.AtQuote ∧ inBusLane.displayTariff = 6000 ∧
      ¬ inBusLane.ChargesShown (.confirmCash 20000 (some 1))) ∧
    (correctedToBus.AtQuote ∧ correctedToBus.displayTariff = 20000 ∧
      ¬ correctedToBus.ChargesShown (.startEmoney (some 1))) :=
  ⟨⟨⟨_, rfl, rfl⟩, rfl, afterBus_charges⟩, ⟨⟨_, rfl, rfl⟩, rfl, inBusLane_charges⟩,
    ⟨_, rfl, rfl⟩, rfl, correctedToBus_charges⟩

/-- The operator corrects the type and waits for the new tariff before taking cash. -/
theorem shown_fee_charged_corrected : correctedToBus.displayTariff = 20000 ∧
    correctedToBus.ChargesShown (.confirmCash 20000 (some 1)) := by
  have hpath : Path (fun s e t => t = s.next e ∧ s.Agrees e) { world := waitingCar }
      (trace Pos.next { world := waitingCar } [.selectGate (some mixedLane),
        .barcodeLookup "T1001", .vehicleTypeChange (some 2), .serve 0, .arrive 0,
        .confirmCash 20000 (some 1)]) := by
    refine ⟨⟨rfl, trivial⟩, ⟨rfl, trivial⟩, ⟨rfl, trivial⟩, ⟨rfl, trivial⟩, ⟨rfl, trivial⟩,
      ⟨rfl, ?_⟩, trivial⟩
    rintro c ⟨⟩
    exact ⟨_, rfl, rfl, rfl⟩
  exact ⟨rfl, shown_fee_charged ⟨by decide, rfl, rfl⟩ hpath [_, _, _, _, _] _ _ [] rfl
    ⟨_, rfl, rfl⟩⟩

end Page

end ParkIt
