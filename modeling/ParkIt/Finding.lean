import ParkIt.Pos
import ParkIt.Services.Accepting

/-! What the operator's input finds, and which stay a cash payment then completes. -/
namespace ParkIt

open Effects Api

namespace Pos
variable (s : Pos)

/-- The input stands for a ticket or a plate. -/
def lookupRequest (v : String) : LookupRequest := { barcode := some v, plateNumber := some v }

/-- What `lookupTransaction` of the store returns. -/
def reportsFound (v : String) : Bool :=
  match (withDb (lookupTransaction (lookupRequest v)) s.world).1 with
  | .ok (some _) => true
  | _ => false

/-- The stay on the screen has not left. -/
def StillActive (db : Db) (c : Shown) : Prop :=
  ∃ t ∈ db.parking, t.status = .active ∧ t.id = c.id ∧ t.barcode = c.barcode

/-- A cash payment with enough money succeeds, and one that succeeds completes the stay `c` and
touches no other. -/
def CompletesShown (c : Shown) : Prop :=
  ∀ g amount operatorId resp w',
    withDb (cashPayment none operatorId (s.cashRequest g amount)) s.world = (.ok resp, w') →
    ((∀ t ∈ s.world.db.parking, t.id = c.id → ∀ fee,
        quote s.world.db.vehicleTypes (.utc s.world.now)
          (t.ofType (s.activeVehicleTypeId.or t.vehicleTypeId)) = .ok fee → fee ≤ amount) →
      resp.success = true) ∧
    (resp.success = true → resp.transactionId = some c.id ∧
      (∃ t ∈ w'.db.parking, t.id = c.id ∧ t.status = .completed) ∧
      ∀ t ∈ s.world.db.parking, t.id ≠ c.id → t ∈ w'.db.parking)

/-- The input finds every stay that it may stand for, and the payment is for what has been
found, also if other stays have come and gone before it. -/
structure FindsVehicle (v : String) : Prop where
  found : s.reportsFound v = true ↔ ∃ t ∈ s.world.db.parking, t.status = .active ∧
    (t.barcode = some v ∨ t.plateNumber = some v)
  completes : s.reportsFound v = true → ∃ c,
    (s.next (.barcodeLookup v)).currentTransaction = some c ∧ StillActive s.world.db c ∧
    ∀ p : Pos, p.currentTransaction = some c → p.world.db.Constrained →
      StillActive p.world.db c → p.CompletesShown c

end Pos

section Searches
variable {db : Db} {w : World} {v : String} {cn p : Option String} {t : ParkingTransaction}

theorem findActive_barcode_mem (hv : v ≠ "") (h : db.findActive (some v) cn p = some t) :
    t ∈ db.parking ∧ t.status = .active ∧ t.barcode = some v := by
  rw [Db.findActive_of_barcode hv] at h
  obtain ⟨ht, hcols⟩ := List.mem_filter.mp (mostRecent_mem h)
  exact ⟨ht, of_decide_eq_true hcols⟩

theorem findActive_barcode_none (hv : v ≠ "") (h : db.findActive (some v) cn p = none)
    (ht : t ∈ db.parking) (ha : t.status = .active) : t.barcode ≠ some v := by
  intro hb
  rw [Db.findActive_of_barcode hv] at h
  have hmem : t ∈ db.parking.filter fun t => decide (t.status = .active ∧ t.barcode = some v) :=
    List.mem_filter.mpr ⟨ht, decide_eq_true ⟨ha, hb⟩⟩
  rw [mostRecent_eq_none h] at hmem
  cases hmem

/-- A lookup answers in any case, with the stay that has the barcode. -/
theorem lookup_answers (w : World) (v : String) : ∃ o w',
    withDb (lookupTransaction (Pos.lookupRequest v)) w = (.ok o, w') ∧
      o.map Prod.fst = w.db.findActive (some v) none (some v) := by
  obtain ⟨o, c', hexec, -, ho, -⟩ := exec_total (lookupTransaction_spec (Pos.lookupRequest v))
  refine ⟨o, c'.world, ?_, ho⟩
  rw [withDb, hexec]

theorem retype_rows (db : Db) (i : Id) (v : Option Id) (ht : t ∈ db.parking) :
    ∃ s ∈ (db.retype i v).parking, s.id = t.id ∧ (t.id ≠ i → s = t) := by
  cases v with
  | none => exact ⟨t, ht, rfl, fun _ => rfl⟩
  | some v =>
    refine ⟨_, Db.mem_setTx.mpr ⟨t, ht, rfl⟩, ?_, fun hne => if_neg hne⟩
    split_ifs <;> simp

/-- What a payment writes: one row is completed, the others stay. -/
theorem exit_rows (ht : t ∈ db.parking) (v : Option Id) (now : DateTime) (x : ExitColumns) :
    (∃ r ∈ ((db.retype t.id v).setTx t.id (.exit now x)).parking,
      r.id = t.id ∧ r.status = .completed) ∧
    ∀ r ∈ db.parking, r.id ≠ t.id →
      r ∈ ((db.retype t.id v).setTx t.id (.exit now x)).parking := by
  constructor
  · obtain ⟨r, hr, hid, -⟩ := retype_rows db t.id v ht
    exact ⟨_, Db.mem_setTx.mpr ⟨r, hr, if_pos hid⟩, by simp [hid], rfl⟩
  · intro r hr hne
    obtain ⟨r', hr', hid, hsame⟩ := retype_rows db t.id v hr
    obtain rfl := hsame hne
    exact Db.mem_setTx.mpr ⟨r', hr', if_neg hne⟩

end Searches

namespace Pos
variable {s : Pos} {c : Shown} {v : String} {t : ParkingTransaction}

/-- By `uq_active_barcode` the search by its barcode finds the stay on the screen again. -/
theorem completesShown (hc : s.currentTransaction = some c) (hb : c.barcode = some v) (hv : v ≠ "")
    (hdb : s.world.db.Constrained) (hactive : StillActive s.world.db c) : s.CompletesShown c := by
  obtain ⟨t, ht, ha, hid, hbarcode⟩ := hactive
  have hfind : s.world.db.findActive c.barcode none c.plateNumber = some t := by
    rw [hb]
    exact hdb.findActive ht ha (hbarcode.trans hb) hv none c.plateNumber
  intro g amount operatorId resp w' hrun
  have hbarcode : (s.cashRequest g amount).barcode = c.barcode := by simp [cashRequest, hc]
  have hplate : (s.cashRequest g amount).plateNumber = c.plateNumber := by simp [cashRequest, hc]
  constructor
  · intro hprice
    obtain ⟨c', ⟨-, hcharge⟩, -⟩ := withDb_of_ensures (cashPayment_charges operatorId _) hrun
    rw [hbarcode, hplate] at hcharge
    obtain ⟨fee, hfee⟩ := quote_ok s.world.db.vehicleTypes (.utc s.world.now)
      (t.ofType (s.activeVehicleTypeId.or t.vehicleTypeId)) none
    exact (hcharge t hfind (hprice t ht hid) fee hfee).1
  · intro hsuccess
    obtain ⟨c', hdone, rfl⟩ := withDb_of_ensures (cashPayment_outcome operatorId _) hrun
    rcases hdone with ⟨t', fee, now, x, hfind', -, -, htx, -, hrows⟩ | ⟨hfailed, -⟩
    · rw [hbarcode, hplate, hfind] at hfind'
      obtain rfl := Option.some.inj hfind'
      rw [hrows, ← hid]
      exact ⟨htx, exit_rows ht _ now x⟩
    · exact Bool.noConfusion (hfailed.symm.trans hsuccess)

theorem reportsFound_iff : s.reportsFound v = true ↔
    ∃ t, s.world.db.findActive (some v) none (some v) = some t := by
  obtain ⟨o, w', hrun, ho⟩ := lookup_answers s.world v
  rw [reportsFound, hrun, ← ho]
  cases o <;> simp

theorem shown_of_findActive (hv : v ≠ "")
    (h : s.world.db.findActive (some v) none (some v) = some t) :
    ∃ fee, (s.next (.barcodeLookup v)).currentTransaction = some (found t fee) := by
  obtain ⟨o, w', hrun, ho⟩ := lookup_answers s.world v
  rw [h] at ho
  obtain ⟨⟨t', fee⟩, rfl, rfl⟩ := Option.map_eq_some_iff.mp ho
  refine ⟨fee, ?_⟩
  rw [lookupRequest] at hrun
  rw [next, if_neg hv, lookup, hrun]

/-- The operator's input finds the vehicle, exactly if a parked vehicle has it as its ticket or
none has it as its plate. -/
theorem findsVehicle_iff (hv : v ≠ "") : s.FindsVehicle v ↔
    (∃ t ∈ s.world.db.parking, t.status = .active ∧ t.barcode = some v) ∨
      ∀ t ∈ s.world.db.parking, t.status = .active → t.plateNumber ≠ some v := by
  constructor
  · intro h
    by_cases hplate : ∃ t ∈ s.world.db.parking, t.status = .active ∧ t.plateNumber = some v
    · obtain ⟨t, ht, ha, hp⟩ := hplate
      obtain ⟨t', ht'⟩ := reportsFound_iff.mp (h.found.mpr ⟨t, ht, ha, .inr hp⟩)
      exact .inl ⟨t', findActive_barcode_mem hv ht'⟩
    · exact .inr fun t ht ha hp => hplate ⟨t, ht, ha, hp⟩
  · intro h
    refine ⟨⟨fun hfound => ?_, ?_⟩, fun hfound => ?_⟩
    · obtain ⟨t, ht⟩ := reportsFound_iff.mp hfound
      obtain ⟨hmem, ha, hb⟩ := findActive_barcode_mem hv ht
      exact ⟨t, hmem, ha, .inl hb⟩
    · rintro ⟨t, ht, ha, hcols⟩
      -- a parked vehicle has the input as its ticket
      have hticket : ∃ t ∈ s.world.db.parking, t.status = .active ∧ t.barcode = some v := by
        rcases hcols with hb | hp
        · exact ⟨t, ht, ha, hb⟩
        · exact h.resolve_right fun hnone => hnone t ht ha hp
      obtain ⟨t', ht', ha', hb'⟩ := hticket
      rw [reportsFound_iff]
      cases hfind : s.world.db.findActive (some v) none (some v) with
      | none => exact absurd hb' (findActive_barcode_none hv hfind ht' ha')
      | some t => exact ⟨t, rfl⟩
    · obtain ⟨t, ht⟩ := reportsFound_iff.mp hfound
      obtain ⟨hmem, ha, hb⟩ := findActive_barcode_mem hv ht
      obtain ⟨fee, hshown⟩ := shown_of_findActive hv ht
      refine ⟨found t fee, hshown, ⟨t, hmem, ha, rfl, rfl⟩, fun p hp hdb hactive => ?_⟩
      exact completesShown hp hb hv hdb hactive

/-- A car with a ticket, whose plate has been noted. -/
def platedCar : Pos where
  world := { booth with db.parking :=
    [{ id := 1, barcode := some "T1001", plateNumber := some "B1234XY", entryTime := ⟨0, 0⟩ }] }

theorem findsVehicle_ticket : platedCar.FindsVehicle "T1001" :=
  (findsVehicle_iff (by decide)).mpr (.inl ⟨_, List.mem_cons_self, rfl, rfl⟩)

/-- The plate of a parked car is not found. -/
theorem plate_not_found : platedCar.reportsFound "B1234XY" = false ∧
    (∃ t ∈ platedCar.world.db.parking, t.status = .active ∧ t.plateNumber = some "B1234XY") ∧
    ¬ platedCar.FindsVehicle "B1234XY" := by
  have hfound : platedCar.reportsFound "B1234XY" = false := by decide
  have hcar : ∃ t ∈ platedCar.world.db.parking, t.status = .active ∧
      t.plateNumber = some "B1234XY" := ⟨_, List.mem_cons_self, rfl, rfl⟩
  refine ⟨hfound, hcar, fun h => ?_⟩
  obtain ⟨t, ht, ha, hp⟩ := hcar
  cases hfound.symm.trans (h.found.mpr ⟨t, ht, ha, .inr hp⟩)

end Pos

end ParkIt
