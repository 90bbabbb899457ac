import ParkIt.Services.Spec
import ParkIt.Lib.Path

/-! Runs of the service calls, each in its own database transaction. -/
namespace ParkIt

open Effects Api

inductive Call where
  | entry (r : EntryRequest)
  | cash (a : CashPayment)
  | rfid (a : RfidPayment)
  | deduct (a : EmoneyDeduct)
  | result (a : EmoneyResult)
deriving DecidableEq, Repr

def Call.handler : Call → Api Unit
  | .entry r => do
    let _ ← createEntryTransaction r
  | .cash a => do
    let _ ← processCashPayment a
  | .rfid a => do
    let _ ← processRfidPayment a
  | .deduct a => do
    let _ ← processEmoneyDeduct a
  | .result a => do
    let _ ← processEmoneyResult a

/-- The world after the call; a `ValueError` is answered, so `get_db` commits what was flushed. -/
def Call.after (k : Call) (w : World) : World :=
  match k.handler.exec w with
  | (.ok _, w') => w'
  | (.error (.value _), w') => w'
  | (.error _, w') => w.rollback w'

/-- A call commits or rolls back; in between, anything but the database may change. -/
inductive CallStep : World → Option Call → World → Prop
  | commit {w} (k : Call) : CallStep w (some k) (k.after w)
  | rollback {w} (k : Call) : CallStep w (some k) (w.rollback (k.handler.exec w).2)
  | outside {w w' : World} : w'.db = w.db → w.nextTx ≤ w'.nextTx → w.nextEmoney ≤ w'.nextEmoney →
      CallStep w none w'

def commitAll (w : World) (ks : List Call) : List (Option Call × World) :=
  (Transition.trace (fun w k => Call.after k w) w ks).map fun x => (some x.1, x.2)

theorem commitAll_path (w : World) (ks : List Call) :
    Transition.Path CallStep w (commitAll w ks) := by
  induction ks generalizing w with
  | nil => trivial
  | cons k ks ih => exact ⟨.commit k, ih (k.after w)⟩

/-- Sequences never go back, whatever a handler does and however it ends. -/
theorem exec_sequences {α : Type} (p : Api α) (w : World) :
    w.nextTx ≤ (p.exec w).2.nextTx ∧ w.nextEmoney ≤ (p.exec w).2.nextEmoney := by
  refine Prog.run_rel execOp { world := w } (R := fun c c' =>
    c.world.nextTx ≤ c'.world.nextTx ∧ c.world.nextEmoney ≤ c'.world.nextEmoney)
    (fun _ => ⟨le_rfl, le_rfl⟩) (fun _ _ _ h h' => ⟨h.1.trans h'.1, h.2.trans h'.2⟩) ?_ p
  intro o c
  cases o with
  | lock f => simp only [execOp]; split <;> exact ⟨le_rfl, le_rfl⟩
  | update i u =>
    simp only [execOp]
    split
    · exact ⟨le_rfl, le_rfl⟩
    · split <;> exact ⟨le_rfl, le_rfl⟩
  | ext e =>
    cases e <;> simp only [execOp, execEffect] <;> (try split) <;>
      simp [World.readClock, World.setPending, World.setIdempotency]

/-- A property that every committed outcome has holds after the call. -/
theorem Call.after_of_ensures {k : Call} {w : World} {P : World → Prop}
    (h : Prog.Ensures execOp k.handler { world := w } (fun _ c' => P c'.world)
      (onValue fun _ c' => P c'.world))
    (hback : P (w.rollback (k.handler.exec w).2)) : P (k.after w) := by
  unfold Call.after
  unfold Prog.Ensures at h
  unfold Api.exec at hback ⊢
  rcases hr : k.handler.run execOp { world := w } with ⟨(msg | _ | _ | _) | _, c'⟩ <;>
    rw [hr] at h hback
  · exact h
  · exact hback
  · exact hback
  · exact hback
  · exact h

/-- A booth with an entry and an exit gate, two vehicle types and one member. -/
def booth : World where
  db :=
    { vehicleTypes :=
        [{ id := 1, code := "MOBIL", hourlyRate := 3000, maxDailyCap := 30000 },
         { id := 2, code := "BUS", hourlyRate := 10000 }]
      members := [{ id := 7, cardNumber := "M-77" }]
      gates := [{ id := 1, code := "IN1" }, { id := 2, code := "OUT1" }]
      users := [1] }
  nextTx := 1
  nextEmoney := 1
  now := 0

/-- A car has entered the booth's area, two hours ago. -/
def waitingCar : World :=
  let arrival : Call :=
    .entry { barcode := some "T1001", vehicleTypeId := some 1, gateInId := some 1 }
  { arrival.after booth with now := 2 * DateTime.microsPerHour }

end ParkIt
