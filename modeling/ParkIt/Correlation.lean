import ParkIt.Services.Caching
import ParkIt.Recording

/-! E-money at one exit gate: arms, deduct requests, taps, and results that arrive in any order. -/
namespace ParkIt

open Effects Api Transition

/-- What a gate was armed for. -/
structure Arm where
  transactionId : Id
  fee : Int
deriving DecidableEq, Repr

/-- A result is reported by the bridge or by the POS. -/
inductive ResultRoute where
  | bridge
  | pos (operatorId : Option Id)

def ResultRoute.handler : ResultRoute → EmoneyResultRequest → Api PaymentResponse
  | .bridge, r => emoneyBoothResult r
  | .pos operatorId, r => emoneyResult operatorId r

/-- Requests and results are kept with the index of their arm, which the messages do not carry. -/
structure ExitGate where
  world : World
  arms : List Arm := []
  /-- Deduct requests at the bridge, with the amount. -/
  requests : List (Nat × Int) := []
  /-- Results on their way to the API; a delivered one may be delivered again. -/
  results : List (Nat × EmoneyResultRequest) := []

inductive GateEvent where
  | arm (operatorId : Option Id) (r : EmoneyDeductRequest)
  | request (k : Nat)
  | tap (n : Nat) (r : EmoneyResultRequest)
  | abandon (n : Nat)
  | deliver (route : ResultRoute) (n : Nat)
  | forget (n : Nat)
  | wait (micros : Nat)

/-- What the POS learns from the answer of `/emoney/deduct`. -/
def armOf : Except Exc PaymentResponse → List Arm
  | .ok r => if r.success then [{ transactionId := r.transactionId.getD 0, fee := r.fee.getD 0 }]
    else []
  | .error _ => []

namespace ExitGate

def can (g : String) (s : ExitGate) : GateEvent → Prop
  | .arm _ r => r.gateId = g
  | .request k => k < s.arms.length
  | .tap n r => n < s.requests.length ∧ r.gateId = g
  | .abandon n => n < s.requests.length
  | .deliver _ n => n < s.results.length
  | .forget n => n < s.results.length
  | .wait _ => True

def next (s : ExitGate) : GateEvent → ExitGate
  | .arm operatorId r =>
    let (ans, w) := withDb (emoneyDeduct operatorId r) s.world
    { s with world := w, arms := s.arms ++ armOf ans }
  | .request k =>
    { s with requests := s.requests ++ (s.arms[k]?.map fun a => (k, a.fee)).toList }
  | .tap n r =>
    { s with
      requests := s.requests.eraseIdx n
      results := s.results ++ (s.requests[n]?.map fun q => (q.1, r)).toList }
  | .abandon n => { s with requests := s.requests.eraseIdx n }
  | .deliver route n =>
    match s.results[n]? with
    | none => s
    | some m => { s with world := (withDb (route.handler m.2) s.world).2 }
  | .forget n => { s with results := s.results.eraseIdx n }
  | .wait micros => { s with world := { s.world with now := s.world.now + micros } }

end ExitGate

def GateStep (g : String) (s : ExitGate) (e : GateEvent) (s' : ExitGate) : Prop :=
  s.can g e ∧ s' = s.next e

def EmoneyResultRequest.Succeeds (r : EmoneyResultRequest) : Prop :=
  ∃ d, DeductStatus.parse r.status = some d ∧ d.isSuccess = true

/-- A gate is armed again only when nothing of the earlier arms is left, deducts are requested for
the last arm, and a successful tap takes the requested amount. -/
def Orderly (s : ExitGate) : GateEvent → Prop
  | .arm _ _ => s.requests = [] ∧ s.results = []
  | .request k => k + 1 = s.arms.length
  | .tap n r => ∀ q, s.requests[n]? = some q → r.Succeeds → (r.deductAmount : Int) = q.2
  | _ => True

section Pending
variable {c c' : Conn} {g : String}

/-- The pending state of every gate is kept or cleared. -/
def Kept (c c' : Conn) : Prop :=
  ∀ g, c'.world.pending g = c.world.pending g ∨ c'.world.pending g = none

theorem Kept.refl (c : Conn) : Kept c c := fun _ => Or.inl rfl

theorem Kept.trans {a b c : Conn} (h : Kept a b) (h' : Kept b c) : Kept a c := by
  intro g
  rcases h' g with h' | h'
  · rw [h']
    exact h g
  · exact Or.inr h'

theorem kept_execOp (o : ApiOp) (c : Conn) (ho : Disarmed o) : Kept c (execOp o c).2 := by
  cases o with
  | lock f =>
    simp only [execOp]
    split <;> exact Kept.refl c
  | update i u =>
    simp only [execOp]
    split
    · exact Kept.refl c
    · split <;> exact fun _ => Or.inl rfl
  | ext e =>
    cases e with
    | setPending _ _ | getIdempotency _ | setIdempotency _ _ => exact ho.elim
    | clearPending g' =>
      intro g
      simp only [execOp, execEffect]
      split
      · exact Or.inl rfl
      · by_cases hg : g = g'
        · exact Or.inr (by simp [World.setPending, setKey, hg])
        · exact Or.inl (by simp [World.setPending, setKey, hg])
    | insertTx _ | insertEmoney _ | enqueue _ =>
      intro g
      simp only [execOp, execEffect]
      split <;> exact Or.inl rfl
    | _ => exact fun _ => Or.inl rfl

theorem passive_kept {α : Type} {p : Api α} (h : Passive p) (c : Conn) :
    Prog.Ensures execOp p c (fun _ c' => Kept c c') fun _ c' => Kept c c' :=
  h.ensures Kept.refl (fun _ _ _ => Kept.trans) kept_execOp c

/-- Until its last operation an arm does not touch the pending state. -/
theorem processEmoneyDeduct_kept (a : EmoneyDeduct) (c : Conn) :
    Prog.Ensures execOp (processEmoneyDeduct a) c (fun _ _ => True) fun _ c' => Kept c c' := by
  refine (passive_kept (only_findActive covers_disarmed _ _ _) c).bind (fun _ _ h => h) fun t c₁ h₁ => ?_
  cases t with
  | none => exact h₁
  | some t =>
    refine (passive_kept (only_override covers_disarmed _ _) c₁).bind (fun _ _ h => h₁.trans h) ?_
    intro t c₂ h₂
    refine (passive_kept (covers_disarmed.only (ambient_fee _ _)) c₂).bind
      (fun _ _ h => h₁.trans (h₂.trans h)) fun fee c₃ h₃ => ?_
    rw [Prog.ensures_bind, ensures_ext]
    dsimp only [execEffect]
    split
    · trivial
    · rename_i h
      split at h <;> cases h
      exact h₁.trans (h₂.trans h₃)

end Pending

section Routes
variable {w : World}

/-- An arm either sets the pending state to what it answers, or answers no arm. -/
theorem emoneyDeduct_arms (operatorId : Option Id) (r : EmoneyDeductRequest) :
    let (ans, w') := withDb (emoneyDeduct operatorId r) w
    (∃ a gateOutId deadline, armOf ans = [a] ∧ w'.pending = setKey w.pending r.gateId
      (some ({ transactionId := a.transactionId, gateOutId, fee := a.fee }, deadline))) ∨
    (armOf ans = [] ∧ ∀ g, w'.pending g = w.pending g ∨ w'.pending g = none) := by
  have hrun : Prog.Ensures execOp (emoneyDeduct operatorId r) { world := w }
      (fun resp c' => (∃ a gateOutId deadline, armOf (.ok resp) = [a] ∧
        c'.world.pending = setKey w.pending r.gateId
          (some ({ transactionId := a.transactionId, gateOutId, fee := a.fee }, deadline))) ∨
        (armOf (.ok resp) = [] ∧ Kept { world := w } c'))
      (fun _ c' => Kept { world := w } c') := by
    have hspec := (processEmoneyDeduct_spec (c := { world := w }) (r.deduct operatorId) rfl).and
      (processEmoneyDeduct_kept (r.deduct operatorId) _)
    refine ensures_respond (hspec.bind ?_ ?_)
    · rintro (msg | _ | _ | _) c' ⟨-, hk⟩
      · exact Or.inr ⟨rfl, hk⟩
      all_goals exact hk
    · rintro a c' ⟨⟨t, deadline, -, htx, -, -, hp, -⟩, -⟩
      refine Or.inl ⟨_, r.gateOutId, deadline, rfl, hp.trans ?_⟩
      simp only [armedResponse, htx, retype_id, Option.getD_some]
      rfl
  unfold withDb Api.exec
  unfold Prog.Ensures at hrun
  rcases hr : (emoneyDeduct operatorId r).run execOp { world := w } with ⟨e | resp, c'⟩ <;>
    rw [hr] at hrun
  · exact Or.inr ⟨rfl, hrun⟩
  · exact hrun

theorem passive_route (route : ResultRoute) (r : EmoneyResultRequest) :
    Passive (route.handler r) := by
  cases route with
  | bridge => exact passive_boothResult r
  | pos operatorId => exact passive_emoneyResult operatorId r

theorem result_kept (route : ResultRoute) (r : EmoneyResultRequest) (g : String) :
    (withDb (route.handler r) w).2.pending g = w.pending g ∨
      (withDb (route.handler r) w).2.pending g = none := by
  have hrun := passive_kept (passive_route route r) { world := w }
  unfold withDb Api.exec
  unfold Prog.Ensures at hrun
  rcases hr : (route.handler r).run execOp { world := w } with ⟨e | resp, c'⟩ <;>
    rw [hr] at hrun <;> exact hrun g

/-- The completion of a pending deduct by a result. -/
def EmoneyResultRequest.Completes (r : EmoneyResultRequest) (w : World) (resp : PaymentResponse)
    (w' : World) : Prop :=
  ∃ p, w.live (w.pending r.gateId) = some p ∧ r.Succeeds ∧
    resp.transactionId = some p.transactionId ∧
    ∃ t ∈ w'.db.parking, t.id = p.transactionId ∧ t.status = .completed ∧
      t.fee = some (r.deductAmount : Int)

theorem exists_setCard {db : Db} {t : ParkingTransaction} (ht : t ∈ db.parking) (card : String) :
    ∃ t' ∈ (db.setCard t.id card).parking, t'.id = t.id := by
  unfold Db.setCard
  split
  · exact ⟨t, ht, rfl⟩
  · exact ⟨_, Db.mem_setTx_self ht, TxUpdate.apply_id _ _⟩

theorem emoneyResult_completes (c : Conn) (operatorId : Option Id) (r : EmoneyResultRequest) :
    Prog.Ensures execOp (emoneyResult operatorId r) c
      (fun resp c' => resp.success = true → r.Completes c.world resp c'.world)
      (fun _ _ => True) := by
  unfold emoneyResult
  rcases hd : DeductStatus.parse r.status with _ | d
  · rintro ⟨⟩
  refine ensures_respond ((processEmoneyResult_spec _).bind ?_ ?_)
  · rintro (msg | _ | _ | _) c' -
    · rintro ⟨⟩
    all_goals trivial
  rintro o c' ⟨p, t, hp, hid, -, htx, hsucc, hdb, -⟩ (hs : o.success = true)
  obtain ⟨hmem, hidt⟩ := Db.byId_mem hid
  have hstatus : d.isSuccess = true := hsucc.symm.trans hs
  refine ⟨p, hp, ⟨d, hd, hstatus⟩, congrArg some (htx.trans hidt), ?_⟩
  have hif : (r.result d operatorId).status.isSuccess = true := hstatus
  dsimp only [EmoneyResult.Stored] at hdb
  rw [if_pos hif] at hdb
  obtain ⟨now, shiftId, hdb⟩ := hdb
  obtain ⟨t', hmem', hid'⟩ := exists_setCard hmem r.cardNumber
  rw [hdb]
  exact ⟨_, Db.mem_setTx.mpr ⟨t', hmem', if_pos hid'⟩,
    (TxUpdate.apply_id _ _).trans (hid'.trans hidt), rfl, rfl⟩

theorem enforceBoothRateLimit_same (c : Conn) (g : String) :
    Prog.Ensures execOp (enforceBoothRateLimit g) c (fun _ c' => c' = c) (fun _ _ => True) := by
  unfold enforceBoothRateLimit
  split
  · exact rfl
  · rw [Prog.ensures_bind, ensures_ext]
    dsimp only [execEffect]
    split
    · exact rfl
    · trivial

theorem route_completes (c : Conn) (route : ResultRoute) (r : EmoneyResultRequest) :
    Prog.Ensures execOp (route.handler r) c
      (fun resp c' => resp.success = true → r.Completes c.world resp c'.world)
      (fun _ _ => True) := by
  cases route with
  | pos operatorId => exact emoneyResult_completes c operatorId r
  | bridge =>
    refine (enforceBoothRateLimit_same c r.gateId).bind (fun _ _ h => h) ?_
    rintro _ _ rfl
    exact emoneyResult_completes _ none r

end Routes

section Runs
variable {g : String} {s s' : ExitGate} {e : GateEvent} {k n : Nat} {a : Arm}
  {xs : List (GateEvent × ExitGate)}

def ExitGate.Latest (s : ExitGate) (k : Nat) (a : Arm) : Prop :=
  k + 1 = s.arms.length ∧ s.arms[k]? = some a

/-- Whatever is pending, requested or reported at the gate belongs to its last arm. -/
structure Correlated (g : String) (s : ExitGate) : Prop where
  pending : ∀ p deadline, s.world.pending g = some (p, deadline) →
    ∃ k, s.Latest k { transactionId := p.transactionId, fee := p.fee }
  requests : ∀ q ∈ s.requests, ∃ a, s.Latest q.1 a ∧ q.2 = a.fee
  results : ∀ m ∈ s.results, m.2.gateId = g ∧
    ∃ a, s.Latest m.1 a ∧ (m.2.Succeeds → (m.2.deductAmount : Int) = a.fee)

/-- Clearing the pending state and messages that have gone change nothing. -/
theorem Correlated.less (h : Correlated g s) (harms : s'.arms = s.arms)
    (hp : s'.world.pending g = s.world.pending g ∨ s'.world.pending g = none)
    (hq : ∀ q ∈ s'.requests, q ∈ s.requests) (hm : ∀ m ∈ s'.results, m ∈ s.results) :
    Correlated g s' := by
  have hlast : ∀ k a, s'.Latest k a ↔ s.Latest k a := by simp [ExitGate.Latest, harms]
  refine ⟨fun p d hpd => ?_, fun q hmem => ?_, fun m hmem => ?_⟩
  · simp only [hlast]
    rcases hp with hp | hp
    · exact h.pending p d (hp.symm.trans hpd)
    · exact absurd (hp.symm.trans hpd) (by nofun)
  · simp only [hlast]
    exact h.requests q (hq q hmem)
  · simp only [hlast]
    exact h.results m (hm m hmem)

theorem correlated_arm {operatorId : Option Id} {r : EmoneyDeductRequest} (h : Correlated g s)
    (hg : r.gateId = g) (hq : s.requests = []) (hm : s.results = []) :
    Correlated g (s.next (.arm operatorId r)) := by
  have harm := emoneyDeduct_arms (w := s.world) operatorId r
  rcases hr : withDb (emoneyDeduct operatorId r) s.world with ⟨ans, w'⟩
  rw [hr] at harm
  have hnext : s.next (.arm operatorId r) =
      { s with world := w', arms := s.arms ++ armOf ans } := by
    simp only [ExitGate.next, hr]
  rw [hnext]
  obtain ⟨a, gateOutId, deadline, hans, hp⟩ | ⟨hans, hp⟩ := harm
  · refine ⟨fun p d hpd => ?_, by simp [hq], by simp [hm]⟩
    have hset : w'.pending g = some
        ({ transactionId := a.transactionId, gateOutId, fee := a.fee }, deadline) := by
      rw [hp, hg]
      exact if_pos rfl
    cases hset.symm.trans hpd
    exact ⟨s.arms.length, by simp [hans], by simp [hans]⟩
  · exact h.less (by simp [hans]) (hp g) (fun _ h => h) fun _ h => h

theorem correlated_step (hs : GateStep g s e s') (ho : Orderly s e) (h : Correlated g s) :
    Correlated g s' := by
  obtain ⟨hcan, rfl⟩ := hs
  cases e with
  | arm operatorId r => exact correlated_arm h hcan ho.1 ho.2
  | request k =>
    have hk : k < s.arms.length := hcan
    refine ⟨h.pending, fun q hmem => ?_, h.results⟩
    rcases List.mem_append.mp hmem with hmem | hmem
    · exact h.requests q hmem
    · obtain rfl : q = (k, s.arms[k].fee) := by simpa [hk] using hmem
      exact ⟨s.arms[k], ⟨ho, List.getElem?_eq_getElem hk⟩, rfl⟩
  | tap n r =>
    obtain ⟨hn, hg⟩ := hcan
    refine ⟨h.pending, fun q hmem => h.requests q (List.mem_of_mem_eraseIdx hmem), ?_⟩
    intro m hmem
    rcases List.mem_append.mp hmem with hmem | hmem
    · exact h.results m hmem
    · obtain rfl : m = (s.requests[n].1, r) := by simpa [hn] using hmem
      obtain ⟨a, hlast, hfee⟩ := h.requests _ (List.getElem_mem hn)
      refine ⟨hg, a, hlast, fun hsucc => ?_⟩
      exact (ho _ (List.getElem?_eq_getElem hn) hsucc).trans hfee
  | abandon n =>
    exact h.less rfl (Or.inl rfl) (fun _ hmem => List.mem_of_mem_eraseIdx hmem) fun _ h => h
  | deliver route n =>
    have hn : n < s.results.length := hcan
    have hnext : s.next (.deliver route n) =
        { s with world := (withDb (route.handler s.results[n].2) s.world).2 } := by
      simp only [ExitGate.next, List.getElem?_eq_getElem hn]
    rw [hnext]
    exact h.less rfl (result_kept _ _ g) (fun _ h => h) fun _ h => h
  | forget n =>
    exact h.less rfl (Or.inl rfl) (fun _ h => h) fun _ hmem => List.mem_of_mem_eraseIdx hmem
  | wait micros => exact h.less rfl (Or.inl rfl) (fun _ h => h) fun _ h => h

/-- Before the first arm nothing is pending at the gate and no message is on its way. -/
structure Disengaged (g : String) (s : ExitGate) : Prop where
  pending : s.world.pending g = none
  requests : s.requests = []
  results : s.results = []

theorem correlated_initial (h : Disengaged g s) : Correlated g s := by
  refine ⟨fun p d hpd => ?_, by simp [h.requests], by simp [h.results]⟩
  rw [h.pending] at hpd
  cases hpd

/-- A delivery that completes a stay completes the one its deduct was requested for, at the fee
of that arm. -/
theorem completion_matches_arm (hs : Disengaged g s)
    (h : Path (fun s e s' => GateStep g s e s' ∧ Orderly s e) s xs) :
    ∀ pre route n s' post k r resp w', xs = pre ++ (.deliver route n, s') :: post →
      (finish s pre).results[n]? = some (k, r) →
      withDb (route.handler r) (finish s pre).world = (.ok resp, w') → resp.success = true →
      ∃ a, (finish s pre).arms[k]? = some a ∧ resp.transactionId = some a.transactionId ∧
        ∃ t ∈ s'.world.db.parking, t.id = a.transactionId ∧ t.status = .completed ∧
          t.fee = some a.fee := by
  intro pre route n s' post k r resp w' hx hm hans hsucc
  obtain ⟨hinv, hstep, -⟩ := h.at_step (P := Correlated g)
    (fun _ _ _ hs hi => correlated_step hs.1 hs.2 hi) (correlated_initial hs) hx
  obtain ⟨-, rfl⟩ := hstep
  obtain ⟨c', hcomp, rfl⟩ := withDb_of_ensures (route_completes _ route r) hans
  obtain ⟨p, hp, hr, htx, t, ht, hid, hstatus, hfee⟩ := hcomp hsucc
  obtain ⟨hg, a, hlast, hamount⟩ := hinv.results _ (List.mem_of_getElem? hm)
  rw [hg] at hp
  obtain ⟨⟨p', deadline⟩, hentry, hlive⟩ := Option.bind_eq_some_iff.mp hp
  have hpp : p' = p := by
    dsimp only at hlive
    split at hlive <;> cases hlive
    rfl
  obtain ⟨k', hlast'⟩ := hinv.pending p' deadline hentry
  -- both are the last arm
  have hk : k' = k := by
    have h₁ := hlast.1
    have h₂ := hlast'.1
    dsimp only at h₁
    omega
  rw [hk, hpp] at hlast'
  obtain rfl := Option.some.inj (hlast.2.symm.trans hlast'.2)
  refine ⟨_, hlast.2, htx, t, ?_, hid, hstatus, ?_⟩
  · simpa only [ExitGate.next, hm, hans] using ht
  · rw [hfee, hamount hr]

end Runs

section Late

instance (g : String) (s : ExitGate) (e : GateEvent) : Decidable (s.can g e) :=
  match e with
  | .arm _ r => inferInstanceAs (Decidable (r.gateId = g))
  | .request k => inferInstanceAs (Decidable (k < s.arms.length))
  | .tap n r => inferInstanceAs (Decidable (n < s.requests.length ∧ r.gateId = g))
  | .abandon n => inferInstanceAs (Decidable (n < s.requests.length))
  | .deliver _ n => inferInstanceAs (Decidable (n < s.results.length))
  | .forget n => inferInstanceAs (Decidable (n < s.results.length))
  | .wait _ => .isTrue trivial

/-- A second car drives in while the first one waits at the exit. -/
def twoCars : ExitGate where
  world :=
    let arrival : Call :=
      .entry { barcode := some "T1002", vehicleTypeId := some 2, gateInId := some 1 }
    { arrival.after waitingCar with now := 3 * DateTime.microsPerHour }

def armTicket (barcode : String) (h : 4 ≤ barcode.length ∧ barcode.length ≤ 64) : GateEvent :=
  .arm none { gateId := "OUT1", gateOutId := 2, barcode, barcode_length := h }

/-- The result of the first car's deduct arrives after the gate was armed for the second car. -/
def lateResult : List GateEvent :=
  [armTicket "T1001" (by decide), .request 0, .tap 0 { tap with deductAmount := 9000 },
   .wait 60000000, armTicket "T1002" (by decide), .deliver .bridge 0]

/-- The card is debited by one rupiah only. -/
def shortTap : List GateEvent :=
  [armTicket "T1001" (by decide), .request 0, .tap 0 { tap with deductAmount := 1 },
   .deliver .bridge 0]

def gateRun (es : List GateEvent) : List (GateEvent × ExitGate) := trace ExitGate.next twoCars es

theorem gateRun_path {es : List GateEvent}
    (h : Path (fun s e _ => s.can "OUT1" e) twoCars (gateRun es)) :
    Path (GateStep "OUT1") twoCars (gateRun es) :=
  h.and (trace_path ExitGate.next twoCars es)

theorem disengaged_twoCars : Disengaged "OUT1" twoCars := ⟨rfl, rfl, rfl⟩

/-- The late result pays for the second car, with the first car's fee; and a deduct of one rupiah
pays for the first car. -/
theorem late_result_pays_other :
    Disengaged "OUT1" twoCars ∧
    (Path (GateStep "OUT1") twoCars (gateRun lateResult) ∧
      (finish twoCars (gateRun lateResult)).arms = [⟨1, 9000⟩, ⟨2, 20000⟩] ∧
      (finish twoCars (gateRun lateResult)).world.db.parking.map (fun t => (t.id, t.status, t.fee)) =
        [(1, .active, none), (2, .completed, some 9000)]) ∧
    (Path (GateStep "OUT1") twoCars (gateRun shortTap) ∧
      (finish twoCars (gateRun shortTap)).arms = [⟨1, 9000⟩] ∧
      (finish twoCars (gateRun shortTap)).world.db.parking.map (fun t => (t.id, t.status, t.fee)) =
        [(1, .completed, some 1), (2, .active, none)]) :=
  ⟨disengaged_twoCars, ⟨gateRun_path (by decide), rfl, rfl⟩, ⟨gateRun_path (by decide), rfl, rfl⟩⟩

/-- One car after the other. -/
def inTurn : List GateEvent :=
  [armTicket "T1001" (by decide), .request 0, .tap 0 { tap with deductAmount := 9000 },
   .deliver .bridge 0, .forget 0, armTicket "T1002" (by decide)]

theorem completion_matches_arm_inTurn :
    ∃ a, (finish twoCars (gateRun inTurn)).arms[0]? = some a ∧
      ∃ t ∈ (finish twoCars (gateRun inTurn)).world.db.parking, t.id = a.transactionId ∧
        t.status = .completed ∧ t.fee = some a.fee := by
  have horderly : Path (fun s e _ => Orderly s e) twoCars (gateRun inTurn) := by
    refine ⟨⟨rfl, rfl⟩, rfl, ?_, trivial, trivial, ⟨rfl, rfl⟩, trivial⟩
    rintro q hq -
    cases hq
    rfl
  obtain ⟨a, ha, -, hrow⟩ := completion_matches_arm disengaged_twoCars
    ((gateRun_path (by decide)).and horderly) ((gateRun inTurn).take 3) .bridge 0 _
    ((gateRun inTurn).drop 4) 0 { tap with deductAmount := 9000 } _ _ rfl rfl rfl rfl
  exact ⟨a, ha, hrow⟩

end Late
end ParkIt
