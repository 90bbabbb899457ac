import ParkIt.Ledger
import ParkIt.GateIn.Lane

/-! The rule of membership: who is let in with a card, and who is let out free of charge. -/
namespace ParkIt
open Effects GateIn

/-- The members table: a card number is a `varchar(32)`, and unique. -/
structure Members where
  rows : List (String × MemberRow)
  unique : (rows.map Prod.fst).Nodup
  columns : ∀ r ∈ rows, varcharOk 32 r.1 = true

namespace Members
variable (m : Members)

def byCard (cardNumber : String) : Option MemberRow := m.rows.lookup cardNumber

/-- The columns that the payments read. -/
def forPayments : List Member :=
  m.rows.map fun r => { id := r.2.id, cardNumber := r.1, isActive := r.2.isActive }

end Members

/-- The last day of the membership is before the day. -/
def Lapsed (member : MemberRow) (today : Int) : Prop := ∃ v ∈ member.validUntil, v < today

section Entry
variable {m : Members} {today : Int} {gate : GateRow} {cardNumber : String} {n : Nat}

/-- A day on which the database and Redis answer and no stay of the card is open. -/
def fairDay (m : Members) (today : Int) (gate : GateRow) : LaneOp → Oracle
  | .gateByCode => { gate := some (some gate) }
  | .memberByCard cardNumber => { member := some (m.byCard cardNumber) }
  | .today => { time := today }
  | .unclosed _ => { unclosed := some false }
  | .createEntry e => { entry := some e.barcode }
  | _ => {}

/-- What comes of the handler: the stays that it makes, and the commands that open a gate. -/
structure EntryOutcome where
  stays : List NewEntry := []
  opened : Nat := 0

def EntryOutcome.note (s : EntryOutcome) : LaneOp → EntryOutcome
  | .createEntry e => { s with stays := s.stays ++ [e] }
  | .publishCommand (.openGate _ _) _ => { s with opened := s.opened + 1 }
  | _ => s

def answer (m : Members) (today : Int) (gate : GateRow) (o : LaneOp) (s : EntryOutcome) :
    Except LaneExc o.Ans × EntryOutcome :=
  (.ok (perform "" o (fairDay m today gate o) {}).1, s.note o)

/-- The entry handler takes the card: it makes a stay for it and opens the gate. -/
def LetIn (m : Members) (today : Int) (gate : GateRow) (cardNumber : String) (n : Nat) : Prop :=
  let s := ((handleRfidCardRead cardNumber n).run (answer m today gate) {}).2
  (∃ e ∈ s.stays, e.cardNumber = some cardNumber) ∧ 0 < s.opened

variable {s : EntryOutcome} {member : MemberRow}

theorem run_ask {o : LaneOp} (a : o.Ans) (h : (perform "" o (fairDay m today gate o) {}).1 = a) :
    (ask o).run (answer m today gate) s = (.ok a, s.note o) := h ▸ rfl

theorem run_expired [Decidable (Lapsed member today)] :
    (expired member).run (answer m today gate) s = (.ok (decide (Lapsed member today)), s) := by
  unfold expired
  rcases hv : member.validUntil with _ | v
  · rw [decide_eq_false fun ⟨v, h, _⟩ => by simp [hv] at h]
    rfl
  · have hlapsed : Lapsed member today ↔ v < today := by simp [Lapsed, hv]
    rw [decide_eq_decide.mpr hlapsed]
    rfl

/-- A warning neither makes a stay nor opens the gate. -/
theorem run_warnExpiry : (warnExpiry member n).run (answer m today gate) s = (.ok (), s) := by
  unfold warnExpiry
  rcases member.validUntil with _ | v
  · rfl
  · dsimp only
    rw [Prog.run_bind_ok _ _ (run_ask (o := .today) today rfl)]
    split_ifs <;> rfl

theorem run_attempt {p : GateIn.Work Unit} {r : Except LaneExc Unit} {s' : EntryOutcome}
    (h : p.run (answer m today gate) s = (r, s')) :
    ((attempt p (pure ())).run (answer m today gate) s).2 = s' := by
  rw [attempt, Prog.run_handle _ _ _ fun o s e s' h => by simp [answer] at h, h]
  rcases r with e | a <;> rfl

/-- The stay that is made for the card of a member. -/
def memberEntry (gate : GateRow) (cardNumber : String) (member : MemberRow) : NewEntry :=
  { cardNumber := some cardNumber, gateInId := gate.id, paymentMethod := .rfidMember
    memberId := some member.id, vehicleTypeId := member.vehicleTypeId
    plateNumber := member.plateNumber }

theorem run_turned_away (hrow : ∀ member, m.byCard cardNumber = some member →
      member.isActive = true → Lapsed member today) :
    (handleRfidEntry gate cardNumber n).run (answer m today gate) s = (.ok (), s) := by
  classical
  rw [handleRfidEntry, Prog.run_bind_ok _ _ (run_ask (o := .memberByCard cardNumber) _ rfl)]
  rcases hm : m.byCard cardNumber with _ | member
  · simp only [perform, fairDay, hm]
    rfl
  · simp only [perform, fairDay, hm, orDatabaseError, Prog.pure_bind']
    rcases hactive : member.isActive with _ | _
    · rfl
    · rw [if_neg (by decide), Prog.run_bind_ok _ _ run_expired,
        decide_eq_true (hrow member hm hactive)]
      rfl

theorem run_let_in (hrow : m.byCard cardNumber = some member) (hactive : member.isActive = true)
    (hvalid : ¬ Lapsed member today) :
    (handleRfidEntry gate cardNumber n).run (answer m today gate) s =
      (.ok (), { stays := s.stays ++ [memberEntry gate cardNumber member]
                 opened := s.opened + 1 }) := by
  classical
  rw [handleRfidEntry, Prog.run_bind_ok _ _ (run_ask (o := .memberByCard cardNumber) _ rfl)]
  simp only [perform, fairDay, hrow, orDatabaseError, Prog.pure_bind', hactive]
  rw [if_neg (by decide), Prog.run_bind_ok _ _ run_expired, decide_eq_false hvalid,
    if_neg (by decide), Prog.run_bind_ok _ _ (run_ask (o := .unclosed cardNumber) _ rfl)]
  simp only [perform, fairDay, Prog.pure_bind']
  rw [if_neg (by decide), Prog.run_bind_ok _ _ run_warnExpiry]
  rfl

theorem run_cardRead {s' : EntryOutcome} (hgate : gate.directionOut = false)
    (h : (handleRfidEntry gate cardNumber n).run (answer m today gate) s = (.ok (), s')) :
    ((handleRfidCardRead cardNumber n).run (answer m today gate) s).2 = s' := by
  refine run_attempt (r := .ok ()) ?_
  rw [Prog.run_bind_ok _ _ (run_ask (o := .gateByCode) _ rfl)]
  simp only [perform, fairDay, orDatabaseError, Prog.pure_bind', hgate]
  exact h

/-- Only the row of the member and the date decide. -/
theorem letIn_iff (hgate : gate.directionOut = false) :
    LetIn m today gate cardNumber n ↔
      ∃ member, m.byCard cardNumber = some member ∧ member.isActive = true ∧
        ¬ Lapsed member today := by
  unfold LetIn
  constructor
  · intro hin
    by_contra hnone
    push Not at hnone
    rw [run_cardRead hgate (run_turned_away hnone)] at hin
    exact absurd hin.2 (by decide)
  · rintro ⟨member, hrow, hactive, hvalid⟩
    rw [run_cardRead hgate (run_let_in hrow hactive hvalid)]
    exact ⟨⟨_, List.mem_append_right _ (List.mem_singleton_self _), rfl⟩, Nat.succ_pos _⟩

end Entry

section Exit
variable {m : Members} {today : Int} {gate : GateRow} {cardNumber : String} {n : Nat}
  {member : MemberRow} {w : World} {a : RfidPayment}

def memberOf (cardNumber : String) (member : MemberRow) : Member :=
  { id := member.id, cardNumber, isActive := member.isActive }

theorem find_other {rows : List (String × MemberRow)} (h : cardNumber ∉ rows.map Prod.fst) :
    (rows.map fun r => memberOf r.1 r.2).find? (activeMember cardNumber) = none := by
  simp only [List.find?_eq_none, List.mem_map]
  rintro _ ⟨r, hr, rfl⟩ hactive
  have hcard : r.1 = cardNumber := of_decide_eq_true (Bool.and_eq_true_iff.mp hactive).1
  exact h (List.mem_map.mpr ⟨r, hr, hcard⟩)

/-- The exit looks for an active row of the card, and a card has one row. -/
theorem find_rows {rows : List (String × MemberRow)} (hn : (rows.map Prod.fst).Nodup) :
    (rows.map fun r => memberOf r.1 r.2).find? (activeMember cardNumber) =
      ((rows.lookup cardNumber).filter (·.isActive)).map (memberOf cardNumber) := by
  induction rows with
  | nil => rfl
  | cons r rows ih =>
    obtain ⟨card, row⟩ := r
    rw [List.map_cons, List.nodup_cons] at hn
    rw [List.map_cons, List.find?_cons, List.lookup_cons]
    by_cases hc : cardNumber = card
    · subst hc
      have hself : activeMember cardNumber (memberOf cardNumber row) = row.isActive := by
        simp [activeMember, memberOf]
      rw [hself, beq_self_eq_true]
      rcases ha : row.isActive with _ | _
      · simp only [Option.filter_some, ha]
        exact find_other hn.1
      · simp [ha]
    · have hother : activeMember cardNumber (memberOf card row) = false := by
        simp [activeMember, memberOf, Ne.symm hc]
      rw [hother, ih hn.2, beq_false_of_ne hc]

theorem Members.find_forPayments (m : Members) (cardNumber : String) :
    m.forPayments.find? (activeMember cardNumber) =
      ((m.byCard cardNumber).filter (·.isActive)).map (memberOf cardNumber) := find_rows m.unique

theorem Members.mem_of_byCard (h : m.byCard cardNumber = some member) :
    (cardNumber, member) ∈ m.rows := by
  obtain ⟨l, l', he, -⟩ := List.lookup_eq_some_iff.mp h
  simp [he]

def stayOf (cardNumber : String) : ParkingTransaction :=
  { id := 1, cardNumber := some cardNumber, entryTime := .utc 0 }

/-- A stay of the card that is still open, at a site with one gate. -/
def openStay (m : Members) (cardNumber : String) : World where
  db :=
    { parking := [stayOf cardNumber], members := m.forPayments
      gates := [{ id := 1, code := "OUT1" }] }
  nextTx := 2
  nextEmoney := 1
  now := 0

def atGate (cardNumber : String) : RfidPayment := { gateId := "", gateOutId := 1, cardNumber }

/-- The row of the stay when the member has left. -/
def leftStay (cardNumber : String) (member : MemberRow) : ParkingTransaction :=
  (TxUpdate.exit (.utc 0) ((atGate cardNumber).exit member.id none)).apply (stayOf cardNumber)

theorem accepts_leftStay (hrow : m.byCard cardNumber = some member) :
    (openStay m cardNumber).db.acceptsTx (leftStay cardNumber member) = true := by
  have hmem := Members.mem_of_byCard hrow
  have hcolumn : varcharOk 32 cardNumber = true := m.columns _ hmem
  have hid : ∃ x ∈ m.forPayments, x.id = member.id :=
    ⟨_, List.mem_map.mpr ⟨_, hmem, rfl⟩, rfl⟩
  simp [Db.acceptsTx, leftStay, stayOf, openStay, TxUpdate.apply, RfidPayment.exit, atGate, hcolumn,
    refOk, hid, conflicts, int4Ok]

theorem run_findOpen (hcard : cardNumber ≠ "") :
    (findActiveTransaction none (some cardNumber) none true).run execOp
        { world := openStay m cardNumber } =
      (.ok (some (stayOf cardNumber)), { world := openStay m cardNumber }) := by
  have htruthy : truthy (some cardNumber) = some cardNumber := by
    simp [truthy, Option.filter_some, hcard]
  have hfilter : activeFilter none (some cardNumber) none =
      some fun t => decide (t.status = .active ∧ t.cardNumber = some cardNumber) := by
    simp only [activeFilter, show truthy none = none from rfl, htruthy]
  have hrows : (Api.lock fun t => decide (t.status = .active ∧ t.cardNumber = some cardNumber)).run
      execOp { world := openStay m cardNumber } =
        (.ok [stayOf cardNumber], { world := openStay m cardNumber }) := by
    simp [Api.lock, execOp, openStay, stayOf]
  rw [findActiveTransaction, hfilter]
  dsimp only
  rw [if_pos rfl, Prog.run_bind_ok _ _ hrows]
  rfl

theorem run_update {c : Conn} {i : Id} {u : TxUpdate} {t : ParkingTransaction}
    (ht : c.world.db.findTx i = some t) (ha : c.world.db.acceptsTx (u.apply t) = true) :
    ∃ c', (Api.update i u).run execOp c = (.ok (), c') := by
  refine ⟨{ c with world := { c.world with db := c.world.db.setTx i u } }, ?_⟩
  rw [Api.update, Prog.run_perform]
  simp only [execOp, ht]
  rw [if_pos (Or.inr ha)]

theorem run_leave (hrow : m.byCard cardNumber = some member) :
    ∃ c, (completeExitTransaction (stayOf cardNumber)
        ((atGate cardNumber).exit member.id none)).run execOp { world := openStay m cardNumber } =
      (.ok (leftStay cardNumber member), c) := by
  have hnow : (Api.ext .now).run execOp { world := openStay m cardNumber } =
      (.ok (.utc 0), { world := openStay m cardNumber }) := rfl
  have hfound : (openStay m cardNumber).db.findTx (stayOf cardNumber).id =
    some (stayOf cardNumber) := rfl
  obtain ⟨c, hupdate⟩ := run_update (c := { world := openStay m cardNumber }) hfound
    (accepts_leftStay hrow)
  refine ⟨c, ?_⟩
  rw [completeExitTransaction, Prog.run_bind_ok _ _ hnow, Prog.run_bind_ok _ _ hupdate]
  rfl

theorem exit_granted (hcard : cardNumber ≠ "") (hrow : m.byCard cardNumber = some member)
    (hactive : member.isActive = true) :
    ∃ w', (processRfidPayment (atGate cardNumber)).exec (openStay m cardNumber) =
      (.ok ⟨leftStay cardNumber member, memberOf cardNumber member⟩, w') := by
  have hselect : (Api.ext (.selectMember (activeMember cardNumber))).run execOp
      { world := openStay m cardNumber } =
        (.ok (some (memberOf cardNumber member)), { world := openStay m cardNumber }) := by
    have hfind := m.find_forPayments cardNumber
    simp only [hrow, Option.filter_some, hactive, if_true, Option.map_some] at hfind
    rw [← hfind]
    rfl
  obtain ⟨c, hexit⟩ := run_leave hrow
  refine ⟨c.world, ?_⟩
  rw [Api.exec, processRfidPayment]
  dsimp only [atGate]
  rw [Prog.run_bind_ok _ _ hselect]
  dsimp only
  have hsnapshots : (enqueueSnapshotsForGate "" (stayOf cardNumber).id "exit").run execOp
      { world := openStay m cardNumber } = (.ok (), { world := openStay m cardNumber }) := rfl
  have hshift : getCurrentShift.run execOp { world := openStay m cardNumber } =
      (.ok none, { world := openStay m cardNumber }) := rfl
  rw [Prog.run_bind_ok _ _ (run_findOpen hcard), Prog.run_bind_ok _ _ hsnapshots,
    Prog.run_bind_ok _ _ hshift]
  simp only [Option.map_none]
  have hexit' : (completeExitTransaction (stayOf cardNumber)
      (RfidPayment.exit ⟨"", 1, cardNumber, none⟩ (memberOf cardNumber member).id none)).run execOp
        { world := openStay m cardNumber } = (.ok (leftStay cardNumber member), c) := hexit
  rw [Prog.run_bind_ok _ _ hexit']
  rfl

/-- The stay has been completed as a member's, at no charge. -/
def FreeExit (t : ParkingTransaction) : Prop :=
  t.status = .completed ∧ t.paymentMethod = some .rfidMember ∧ t.fee = some 0

/-- Whoever leaves free of charge with the card would be let in with it on the same day, and has
not paid with a membership that has run out. -/
def GatesAgree (m : Members) (today : Int) (cardNumber : String) : Prop :=
  ∀ (w w' : World) (a : RfidPayment) (r : RfidResult), w.db.members = m.forPayments →
    a.cardNumber = cardNumber → (processRfidPayment a).exec w = (.ok r, w') →
    (∀ (gate : GateRow) (n : Nat), gate.directionOut = false →
      LetIn m today gate cardNumber n) ∧
    ∀ member, m.byCard cardNumber = some member → Lapsed member today →
      ¬ FreeExit r.transaction

theorem exec_granted {w' : World} {r : RfidResult}
    (h : (processRfidPayment a).exec w = (.ok r, w')) :
    w.db.members.find? (activeMember a.cardNumber) = some r.member ∧ a.cardNumber ≠ "" := by
  have hspec := processRfidPayment_spec (c := { world := w }) a rfl
  unfold Prog.Ensures at hspec
  rw [Api.exec] at h
  rcases hrun : (processRfidPayment a).run execOp { world := w } with ⟨e | r', c'⟩
  · rw [hrun] at h
    cases h
  · rw [hrun] at h hspec
    obtain ⟨t, now, shiftId, hm, ht, -⟩ := hspec
    cases h
    refine ⟨hm, fun hempty => ?_⟩
    rw [hempty] at ht
    cases ht

/-- The exit asks for an active member, the entry for one whose membership has not run out. -/
theorem gatesAgree_iff (m : Members) (today : Int) (cardNumber : String) :
    GatesAgree m today cardNumber ↔
      (cardNumber ≠ "" → ∀ member, m.byCard cardNumber = some member →
        member.isActive = true → ¬ Lapsed member today) := by
  constructor
  · intro hagree hcard member hrow hactive
    obtain ⟨w', hrun⟩ := exit_granted hcard hrow hactive
    obtain ⟨hin, -⟩ := hagree _ _ _ _ rfl rfl hrun
    obtain ⟨member', hrow', -, hvalid⟩ :=
      (letIn_iff rfl).mp (hin ⟨1, "IN1", false⟩ 0 rfl)
    cases hrow.symm.trans hrow'
    exact hvalid
  · intro hvalid w w' a r hmembers hcard hrun
    obtain ⟨hfound, hne⟩ := exec_granted hrun
    subst hcard
    rw [hmembers, m.find_forPayments] at hfound
    obtain ⟨member, hrow, -⟩ := Option.map_eq_some_iff.mp hfound
    obtain ⟨hrow, hactive⟩ := Option.filter_eq_some_iff.mp hrow
    have hnot := hvalid hne member hrow hactive
    refine ⟨fun gate n hgate => (letIn_iff hgate).mpr ⟨member, hrow, hactive, hnot⟩,
      fun member' hrow' hlapsed => ?_⟩
    cases hrow.symm.trans hrow'
    exact absurd hlapsed hnot

/-- A membership that ran out on day 99. -/
def lapsedMembers : Members where
  rows := [("CARD1", ⟨7, true, some 99, none, none⟩)]
  unique := by decide
  columns := by decide

theorem free_exit_with_lapsed_card :
    (∃ r w', (processRfidPayment (atGate "CARD1")).exec (openStay lapsedMembers "CARD1") =
        (.ok r, w') ∧ FreeExit r.transaction ∧ r.transaction.memberId = some 7) ∧
      ¬ LetIn lapsedMembers 100 ⟨1, "IN1", false⟩ "CARD1" 0 := by
  obtain ⟨w', hrun⟩ := exit_granted (m := lapsedMembers) (by decide : "CARD1" ≠ "") rfl rfl
  refine ⟨⟨_, w', hrun, ⟨rfl, rfl, rfl⟩, rfl⟩, ?_⟩
  rw [letIn_iff rfl]
  rintro ⟨member, hrow, -, hvalid⟩
  cases hrow
  exact hvalid ⟨99, rfl, by decide⟩

end Exit

end ParkIt
