import ParkIt.Services.Locking

/-! The idempotency cache as the payment routes use it, statement by statement. -/
namespace ParkIt

open Effects Api RowLock

/-- A request to a payment route; the operator comes from the token. -/
inductive Request where
  | cash (key : Option String) (operatorId : Option Id) (r : CashPaymentRequest)
  | rfid (key : Option String) (operatorId : Option Id) (r : RfidPaymentRequest)
  | deduct (operatorId : Option Id) (r : EmoneyDeductRequest)
  | result (operatorId : Option Id) (r : EmoneyResultRequest)
  | boothRfid (r : RfidPaymentRequest)
  | boothResult (r : EmoneyResultRequest)

def Request.handler : Request → Api PaymentResponse
  | .cash key operatorId r => cashPayment key operatorId r
  | .rfid key operatorId r => rfidPayment key operatorId r
  | .deduct operatorId r => emoneyDeduct operatorId r
  | .result operatorId r => emoneyResult operatorId r
  | .boothRfid r => rfidBooth r
  | .boothResult r => emoneyBoothResult r

/-- The idempotency key of the header, for the routes that read it. -/
def Request.key : Request → Option String
  | .cash key _ _ => truthy key
  | .rfid key _ _ => truthy key
  | _ => none

/-- An answer that completes a row reports it; any other answer completes none. -/
def Answered (w : List (Id × TxUpdate)) (r : PaymentResponse) : Prop :=
  (∀ i, ¬ Completes w i) ∨ Reports w r

section Rows
variable {g : Locks}

theorem follows_deduct (hg : ∀ i, ¬ Completes g.writes i) (a : EmoneyDeduct) :
    Follows rowGuard g (processEmoneyDeduct a) (fun g' _ => ∀ i, ¬ Completes g'.writes i)
      (fun g' _ => ∀ i, ¬ Completes g'.writes i) := by
  refine (follows_findActive hg _ _ _).bind (fun _ _ h => h.elim) fun g₁ r h₁ => ?_
  cases r with
  | none => exact h₁
  | some t =>
    refine (follows_override h₁ _).bind (fun _ _ h => h.elim) fun g₂ t₂ h₂ => ?_
    refine (plain_follows (plain_fee _ _)).bind ?_ ?_
    · rintro _ _ ⟨rfl, -⟩
      exact h₂.2.2
    rintro _ fee rfl
    exact ⟨trivial, fun _ _ => h₂.2.2⟩

theorem follows_respond {p : Api PaymentResponse}
    (h : Follows rowGuard g p (fun g' r => Answered g'.writes r)
      fun g' _ => ∀ i, ¬ Completes g'.writes i) :
    Follows rowGuard g (respond p) (fun g' r => Answered g'.writes r) fun _ _ => True := by
  refine follows_handle.mpr (h.mono (fun _ _ h => h) fun g' e hg' => ?_)
  cases e with
  | value msg => exact Or.inl hg'
  | db _ | redis | http _ => trivial

/-- The wrapper of the keyed routes stores what it reports, after the row is completed. -/
theorem follows_idempotent (key : Option String) {p : Api PaymentResponse}
    (h : Follows rowGuard ⟨fun _ => none, []⟩ p (fun g' r => Reports g'.writes r)
      fun g' _ => ∀ i, ¬ Completes g'.writes i) :
    Disciplined txSchema Live Tells Answered (idempotent key p) := by
  have hwork : Follows rowGuard ⟨fun _ => none, []⟩ (respond do
      let resp ← p
      storeIdempotency key resp
      pure resp) (fun g' r => Answered g'.writes r) fun _ _ => True := by
    refine follows_respond (h.bind (fun _ _ h => h) fun g' r hr => ?_)
    unfold storeIdempotency
    cases truthy key with
    | none => exact Or.inr hr
    | some k => exact ⟨hr, fun _ _ => Or.inr hr⟩
  unfold Disciplined idempotent checkIdempotency
  cases truthy key with
  | none => exact hwork
  | some k =>
    refine ⟨trivial, fun cached _ => ?_⟩
    cases cached with
    | none => exact hwork
    | some r => exact Or.inl not_completes_nil

theorem follows_boothLimit (gateId : String) :
    Follows rowGuard g (enforceBoothRateLimit gateId) (fun g' _ => g' = g) fun _ _ => True := by
  unfold enforceBoothRateLimit
  split
  · exact rfl
  · refine ⟨trivial, fun allowed _ => ?_⟩
    cases allowed with
    | false => trivial
    | true => exact rfl

theorem follows_rfidRoute (a : RfidPayment) :
    Follows rowGuard ⟨fun _ => none, []⟩ (do
      let result ← processRfidPayment a
      pure (rfidResponse result)) (fun g' r => Reports g'.writes r)
      fun g' _ => ∀ i, ¬ Completes g'.writes i :=
  (follows_rfid not_completes_nil a).bind (fun _ _ h => h) fun _ _ hr => ⟨rfl, _, rfl, hr⟩

theorem disciplined_result (operatorId : Option Id) (r : EmoneyResultRequest) :
    Disciplined txSchema Live Tells Answered (emoneyResult operatorId r) := by
  unfold Disciplined emoneyResult
  cases DeductStatus.parse r.status with
  | none => exact Or.inl not_completes_nil
  | some status =>
    refine follows_respond ((follows_result not_completes_nil _).bind (fun _ _ h => h) ?_)
    intro g' o ho
    by_cases hs : o.success = true
    · rw [if_pos hs] at ho
      exact Or.inr ⟨hs, _, rfl, ho⟩
    · rw [if_neg hs] at ho
      exact Or.inl ho

theorem disciplined_request (q : Request) :
    Disciplined txSchema Live Tells Answered q.handler := by
  cases q with
  | cash key operatorId r =>
    refine follows_idempotent key ?_
    exact (follows_cash not_completes_nil _).bind (fun _ _ h => h) fun _ _ hr => ⟨rfl, _, rfl, hr⟩
  | rfid key operatorId r => exact follows_idempotent key (follows_rfidRoute _)
  | deduct operatorId r =>
    refine follows_respond ?_
    exact (follows_deduct not_completes_nil _).bind (fun _ _ h => h) fun _ _ hr => Or.inl hr
  | result operatorId r => exact disciplined_result operatorId r
  | boothRfid r =>
    refine (follows_boothLimit r.gateId).bind (fun _ _ h => h) ?_
    rintro _ - rfl
    exact follows_respond ((follows_rfidRoute _).mono (fun _ _ h => Or.inr h) fun _ _ h => h)
  | boothResult r =>
    refine (follows_boothLimit r.gateId).bind (fun _ _ h => h) ?_
    rintro _ - rfl
    exact disciplined_result none r

end Rows

/-- Every operation but those on the idempotency cache. -/
def Uncached : ApiOp → Prop
  | .ext (.getIdempotency _) => False
  | .ext (.setIdempotency _ _) => False
  | _ => True

/-- Nor the one that arms a gate. -/
def Disarmed : ApiOp → Prop
  | .ext (.setPending _ _) => False
  | o => Uncached o

/-- The handler does not use the idempotency cache. -/
abbrev Oblivious {α : Type} (p : Api α) : Prop := Only Uncached (fun _ => True) p

/-- Nor does it arm a gate. -/
abbrev Passive {α : Type} (p : Api α) : Prop := Only Disarmed (fun _ => True) p

section Passive

theorem Passive.oblivious {α : Type} {p : Api α} (h : Passive p) : Oblivious p := by
  refine h.mono (fun o ho => ?_) fun _ h => h
  cases o with
  | ext e => cases e <;> first | exact ho.elim | exact ho
  | lock _ | update _ _ => trivial

theorem covers_disarmed : Covers Disarmed :=
  covers_of trivial trivial (fun _ => trivial) (fun _ => trivial) (fun _ => trivial)
    (fun _ => trivial) (fun _ => trivial) (fun _ => trivial) fun _ _ => trivial

theorem covers_uncached : Covers Uncached :=
  covers_of trivial trivial (fun _ => trivial) (fun _ => trivial) (fun _ => trivial)
    (fun _ => trivial) (fun _ => trivial) (fun _ => trivial) fun _ _ => trivial

theorem passive_result (a : EmoneyResult) : Passive (processEmoneyResult a) :=
  only_result covers_disarmed a trivial trivial trivial fun _ => trivial

theorem passive_emoneyResult (operatorId : Option Id) (r : EmoneyResultRequest) :
    Passive (emoneyResult operatorId r) := by
  unfold emoneyResult
  cases DeductStatus.parse r.status with
  | none => exact only_pure
  | some status => exact only_respond ((passive_result _).bind fun _ => only_pure)

theorem passive_boothResult (r : EmoneyResultRequest) : Passive (emoneyBoothResult r) :=
  (only_boothLimit _ trivial).bind fun _ => passive_emoneyResult none r

theorem oblivious_deduct (a : EmoneyDeduct) : Oblivious (processEmoneyDeduct a) :=
  only_deduct covers_uncached a fun _ => trivial

end Passive

/-- How far a request is with the cache entry of a key. -/
inductive Phase where
  | other
  | fresh
  | missed
  | answered (r : PaymentResponse)

namespace Phase

def Fits : Phase → PaymentResponse → Prop
  | other, _ => True
  | fresh, _ => False
  | missed, a => a.success = false
  | answered r, a => a = r

def MayRaise : Phase → Exc → Prop
  | other, _ => True
  | fresh, _ => False
  | missed, _ => True
  | answered _, _ => False

end Phase

/-- A keyed request asks the cache first; after a miss it may store one answer, its last act. -/
def cacheGuard (key : String) : Protocol ApiOp ApiOp.Ans Phase where
  allow g o := match g, o with
    | .fresh, .ext (.getIdempotency k) => k = key
    | .missed, .ext (.getIdempotency _) => False
    | .missed, .ext (.setIdempotency k _) => k = key
    | .missed, _ => True
    | .other, .ext (.setIdempotency k _) => k ≠ key
    | .other, _ => True
    | _, _ => False
  expect _ _ _ := True
  next g o := match g, o with
    | .fresh, .ext (.getIdempotency _) => fun a : Option PaymentResponse => match a with
      | none => .missed
      | some r => .answered r
    | .missed, .ext (.setIdempotency _ r) => fun _ => .answered r
    | g, _ => fun _ => g

/-- The phase in which a request begins. -/
def Request.phase (key : String) (q : Request) : Phase :=
  if q.key = some key then .fresh else .other

section Cache
variable {key : String} {k : Option String} {α : Type} {p : Api α}

/-- A handler that does not use the cache stays in its phase. -/
theorem oblivious_stays {g : Phase} (hg : g = .missed ∨ g = .other) (h : Oblivious p) :
    Follows (cacheGuard key) g p (fun g' _ => g' = g) fun g' _ => g' = g := by
  refine (h.follows fun o ho => ?_).mono (fun _ _ h => h) fun _ _ h => h.1
  obtain rfl | rfl := hg <;>
    cases o with
    | ext e => cases e <;> first | exact ho.elim | exact ⟨trivial, fun _ => rfl⟩
    | lock _ | update _ _ => exact ⟨trivial, fun _ => rfl⟩

theorem oblivious_fits {p : Api PaymentResponse} (h : Oblivious p) :
    Follows (cacheGuard key) .other p Phase.Fits Phase.MayRaise := by
  refine (oblivious_stays (.inr rfl) h).mono ?_ ?_ <;> rintro _ _ rfl <;> trivial

theorem cached_idempotent {p : Api PaymentResponse} (h : Oblivious p) (hk : truthy k = some key) :
    Follows (cacheGuard key) .fresh (idempotent k p) Phase.Fits Phase.MayRaise := by
  unfold idempotent checkIdempotency storeIdempotency
  simp only [hk]
  refine ⟨rfl, fun cached _ => ?_⟩
  cases cached with
  | some r => exact rfl
  | none =>
    refine follows_handle.mpr ((oblivious_stays (.inl rfl) h).bind ?_ ?_)
    · rintro _ e rfl
      cases e <;> trivial
    · rintro _ r rfl
      exact ⟨rfl, fun _ _ => rfl⟩

theorem uncached_idempotent {p : Api PaymentResponse} (h : Oblivious p)
    (hk : truthy k ≠ some key) :
    Follows (cacheGuard key) .other (idempotent k p) Phase.Fits Phase.MayRaise := by
  have hwork : Follows (cacheGuard key) .other (respond do
      let resp ← p
      storeIdempotency k resp
      pure resp) Phase.Fits Phase.MayRaise := by
    refine follows_handle.mpr ((oblivious_stays (.inr rfl) h).bind ?_ ?_)
    · rintro _ e rfl
      cases e <;> trivial
    · rintro _ r rfl
      unfold storeIdempotency
      cases ht : truthy k with
      | none => trivial
      | some k' => exact ⟨fun he => hk (he ▸ ht), fun _ _ => trivial⟩
  unfold idempotent checkIdempotency
  cases truthy k with
  | none => exact hwork
  | some k' =>
    refine ⟨trivial, fun cached _ => ?_⟩
    cases cached with
    | none => exact hwork
    | some r => trivial

theorem follows_idempotent_key {p : Api PaymentResponse} (h : Oblivious p) :
    Follows (cacheGuard key) (if truthy k = some key then .fresh else .other) (idempotent k p)
      Phase.Fits Phase.MayRaise := by
  by_cases hk : truthy k = some key
  · rw [if_pos hk]
    exact cached_idempotent h hk
  · rw [if_neg hk]
    exact uncached_idempotent h hk

theorem follows_request (q : Request) :
    Follows (cacheGuard key) (q.phase key) q.handler Phase.Fits Phase.MayRaise := by
  cases q with
  | cash k operatorId r =>
    exact follows_idempotent_key ((only_cash covers_uncached _).bind fun _ => only_pure)
  | rfid k operatorId r =>
    exact follows_idempotent_key ((only_rfid covers_uncached _).bind fun _ => only_pure)
  | deduct operatorId r =>
    exact oblivious_fits (only_respond ((oblivious_deduct _).bind fun _ => only_pure))
  | result operatorId r => exact oblivious_fits (passive_emoneyResult operatorId r).oblivious
  | boothRfid r =>
    refine oblivious_fits ((only_boothLimit _ trivial).bind fun _ => ?_)
    exact only_respond ((only_rfid covers_uncached _).bind fun _ => only_pure)
  | boothResult r => exact oblivious_fits (passive_boothResult r).oblivious

end Cache
end ParkIt
