import ParkIt.Routes

/-! The operations that each service issues, whatever it is answered. -/
namespace ParkIt

open Effects Api

/-- Reads of the clock and of the reference tables, and jobs for the queue. -/
def Ambient : ApiOp → Prop
  | .ext .now => True
  | .ext (.vehicleType _) => True
  | .ext .activeShifts => True
  | .ext (.gateByCode _) => True
  | .ext (.gate _) => True
  | .ext (.enqueue _) => True
  | _ => False

section Ambient

theorem ambient_enqueueAll (js : List Job) :
    Only Ambient (fun _ => False) (enqueueAll js) := by
  induction js with
  | nil => exact only_pure
  | cons j js ih => exact (only_perform trivial).bind fun _ => ih

theorem ambient_snapshots (g : String) (i : Id) (kind : String) :
    Only Ambient (fun _ => False) (enqueueSnapshotsForGate g i kind) := by
  refine (only_perform trivial).bind fun gate => ?_
  cases gate with
  | none => exact only_pure
  | some gate => exact ambient_enqueueAll _

theorem ambient_printReceipt (g : String) (d : ReceiptData) :
    Only Ambient (fun _ => False) (enqueuePrintReceipt g d) := by
  refine (only_perform trivial).bind fun gate => ?_
  cases gate with
  | none => exact only_pure
  | some gate =>
    dsimp only
    split
    · exact only_perform trivial
    · exact only_pure

theorem ambient_currentShift : Only Ambient (fun _ => False) getCurrentShift :=
  (only_perform trivial).bind fun _ => (only_perform trivial).bind fun _ => only_pure

theorem ambient_tariffConfig (v : Option Id) :
    Only Ambient (fun _ => False) (getVehicleTypeTariffConfig v) := by
  cases v with
  | none => exact only_pure
  | some v =>
    refine (only_perform trivial).bind fun vt => ?_
    cases vt <;> exact only_pure

theorem ambient_fee (t : ParkingTransaction) (o : Option Id) :
    Only Ambient (fun _ => True) (calculateTransactionFee t none o) := by
  refine (only_perform trivial).bind fun now =>
    ((ambient_tariffConfig _).mono (fun _ h => h) fun _ h => h.elim).bind fun cfg => ?_
  dsimp only
  split <;> trivial

end Ambient

/-- The operations of a service that neither reads nor changes what is pending. -/
structure Covers (ok : ApiOp → Prop) : Prop where
  ambient : ∀ o, Ambient o → ok o
  lock : ∀ f, ok (.lock f)
  update : ∀ i u, ok (.update i u)
  member : ∀ f, ok (.ext (.selectMember f))

/-- The operations to look at, one by one. -/
theorem covers_of {ok : ApiOp → Prop} (hnow : ok (.ext .now)) (hshifts : ok (.ext .activeShifts))
    (htype : ∀ i, ok (.ext (.vehicleType i))) (hcode : ∀ g, ok (.ext (.gateByCode g)))
    (hgate : ∀ i, ok (.ext (.gate i))) (hjob : ∀ j, ok (.ext (.enqueue j)))
    (hmember : ∀ f, ok (.ext (.selectMember f))) (hlock : ∀ f, ok (.lock f))
    (hupdate : ∀ i u, ok (.update i u)) : Covers ok := by
  refine ⟨fun o ho => ?_, hlock, hupdate, hmember⟩
  cases o with
  | lock _ | update _ _ => exact ho.elim
  | ext e =>
    cases e with
    | now => exact hnow
    | activeShifts => exact hshifts
    | vehicleType i => exact htype i
    | gateByCode g => exact hcode g
    | gate i => exact hgate i
    | enqueue j => exact hjob j
    | _ => exact ho.elim

section Services
variable {ok : ApiOp → Prop} (h : Covers ok)
include h

theorem Covers.only {α : Type} {raises : Exc → Prop} {p : Api α} (hp : Only Ambient raises p) :
    Only ok (fun _ => True) p := hp.mono h.ambient fun _ _ => trivial

theorem only_findActive (b cn p : Option String) :
    Only ok (fun _ => True) (findActiveTransaction b cn p true) := by
  unfold findActiveTransaction
  cases activeFilter b cn p with
  | none => exact only_pure
  | some f => exact (only_perform (h.lock f)).bind fun _ => only_pure

theorem only_override (t : ParkingTransaction) (v : Option Id) :
    Only ok (fun _ => True) (overrideVehicleType t v) := by
  cases v with
  | none => exact only_pure
  | some v => exact (only_perform (h.update _ _)).bind fun _ => only_pure

theorem only_persistCard (t : ParkingTransaction) (card : String) :
    Only ok (fun _ => True) (persistCardNumber t card) := by
  unfold persistCardNumber
  split
  · exact only_pure
  · exact (only_perform (h.update _ _)).bind fun _ => only_pure

theorem only_exit (t : ParkingTransaction) (x : ExitColumns) :
    Only ok (fun _ => True) (completeExitTransaction t x) :=
  (only_perform (h.ambient (.ext .now) trivial)).bind fun _ =>
    (only_perform (h.update _ _)).bind fun _ => only_pure

theorem only_cash (a : CashPayment) : Only ok (fun _ => True) (processCashPayment a) := by
  refine (only_findActive h _ _ _).bind fun t => ?_
  cases t with
  | none => trivial
  | some t =>
    refine (only_override h _ _).bind fun t => ?_
    refine (h.only (ambient_snapshots _ _ _)).bind fun _ => ?_
    refine (h.only (ambient_fee _ _)).bind fun fee => ?_
    split
    · trivial
    refine (h.only ambient_currentShift).bind fun shift => ?_
    refine (only_exit h _ _).bind fun t => ?_
    exact (h.only (ambient_printReceipt _ _)).bind fun _ => only_pure

theorem only_rfid (a : RfidPayment) : Only ok (fun _ => True) (processRfidPayment a) := by
  refine (only_perform (h.member _)).bind fun m => ?_
  cases m with
  | none => trivial
  | some m =>
    refine (only_findActive h _ _ _).bind fun t => ?_
    cases t with
    | none => trivial
    | some t =>
      refine (h.only (ambient_snapshots _ _ _)).bind fun _ => ?_
      refine (h.only ambient_currentShift).bind fun shift => ?_
      exact (only_exit h _ _).bind fun t => only_pure

theorem only_deduct (a : EmoneyDeduct) (hset : ∀ p, ok (.ext (.setPending a.gateId p))) :
    Only ok (fun _ => True) (processEmoneyDeduct a) := by
  refine (only_findActive h _ _ _).bind fun t => ?_
  cases t with
  | none => trivial
  | some t =>
    refine (only_override h _ _).bind fun t => ?_
    refine (h.only (ambient_fee _ _)).bind fun fee => ?_
    exact (only_perform (hset _)).bind fun _ => only_pure

theorem only_outcome (a : EmoneyResult) (p : Pending) (t : ParkingTransaction) (i : Id)
    (hclear : ok (.ext (.clearPending a.gateId))) :
    Only ok (fun _ => True) (determineOutcome a p t i) := by
  unfold determineOutcome
  split
  · refine (h.only ambient_currentShift).bind fun shift => ?_
    refine (only_exit h _ _).bind fun t => (only_perform hclear).bind fun _ => ?_
    refine (h.only (ambient_snapshots _ _ _)).bind fun _ => ?_
    exact (h.only (ambient_printReceipt _ _)).bind fun _ => only_pure
  · split
    · exact only_pure
    · split
      · exact (only_perform hclear).bind fun _ => only_pure
      · exact only_pure

theorem only_result (a : EmoneyResult) (hget : ok (.ext (.getPending a.gateId)))
    (hclear : ok (.ext (.clearPending a.gateId))) (htimeout : ok (.ext .setLockTimeout))
    (hinsert : ∀ e, ok (.ext (.insertEmoney e))) :
    Only ok (fun _ => True) (processEmoneyResult a) := by
  refine (only_perform hget).bind fun p => ?_
  cases p with
  | none => trivial
  | some p =>
    refine (only_perform htimeout).bind fun _ => (only_perform (h.lock _)).bind fun rows => ?_
    split
    · exact (only_perform hclear).bind fun _ => trivial
    · refine (only_persistCard h _ _).bind fun t => (only_perform (hinsert _)).bind fun e => ?_
      exact only_outcome h _ _ _ _ hclear

end Services

section Routes
variable {ok : ApiOp → Prop} {p : Api PaymentResponse}

theorem only_respond (h : Only ok (fun _ => True) p) : Only ok (fun _ => True) (respond p) := by
  unfold respond exceptValueError
  induction p with
  | pure a => trivial
  | throw e => cases e <;> trivial
  | call o k ih => exact ⟨h.1, fun a => ih a (h.2 a)⟩

theorem only_idempotent (key : Option String) (h : Only ok (fun _ => True) p)
    (hget : ∀ k, ok (.ext (.getIdempotency k))) (hset : ∀ k r, ok (.ext (.setIdempotency k r))) :
    Only ok (fun _ => True) (idempotent key p) := by
  have hwork : Only ok (fun _ => True) (respond do
      let resp ← p
      storeIdempotency key resp
      pure resp) := by
    refine only_respond (h.bind fun r => ?_)
    unfold storeIdempotency
    cases truthy key with
    | none => trivial
    | some k => exact (only_perform (hset _ _)).bind fun _ => only_pure
  unfold idempotent checkIdempotency
  cases truthy key with
  | none => exact hwork
  | some k =>
    refine (only_perform (hget k)).bind fun cached => ?_
    cases cached with
    | none => exact hwork
    | some r => exact only_pure

theorem only_boothLimit (gateId : String) (h : ok (.ext (.boothLimit gateId))) :
    Only ok (fun _ => True) (enforceBoothRateLimit gateId) := by
  unfold enforceBoothRateLimit
  split
  · exact only_pure
  · refine (only_perform h).bind fun allowed => ?_
    cases allowed <;> trivial

end Routes
end ParkIt
