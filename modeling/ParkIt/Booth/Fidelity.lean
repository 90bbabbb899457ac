import ParkIt.Booth.Server

/-! What the bridge makes of the answers that the document lays out, for the POS and for the API. -/
namespace ParkIt.Booth

open ByteString Passti

/-- A response code, a status and a body, short enough for the length field of a frame. -/
structure DeductAnswer where
  respCode : UInt8
  status : StatusCode
  body : Bytes
  fits : body.length + 4 < 65536

def DeductAnswer.frame (a : DeductAnswer) : Bytes := answerFrame a.respCode a.status a.body

def DeductAnswer.accepted (a : DeductAnswer) : Prop := a.respCode = 0x00 ∧ a.status = (0x00, 0x00, 0x00)

/-- The status codes that the document's table tells apart from a plain failure. -/
def specTable : List (StatusCode × DeductStatus) :=
  [((0x01, 0x10, 0x05), .lostContact), ((0x01, 0x10, 0x04), .insufficientBalance),
   ((0x01, 0x10, 0x06), .wrongCard), ((0x01, 0x10, 0x02), .timeout)]

/-- The outcome that the document assigns to an answer. -/
def DeductAnswer.assigned (a : DeductAnswer) : DeductStatus :=
  if a.status = (0x00, 0x00, 0x00) then if a.respCode = 0x00 then .success else .failed
  else (specTable.lookup a.status).getD .failed

def CardRecord (body : Bytes) : Prop :=
  ∃ code rest, body = code :: rest ∧ code ≠ 0x09 ∧ 40 ≤ body.length

def QrRecord (body : Bytes) : Prop := ∃ rest, body = 0x09 :: rest ∧ 84 ≤ body.length

/-- A success carries a record; the additional data of an error is at most a card, its number and
an amount. -/
def DeductAnswer.LaidOut (a : DeductAnswer) : Prop :=
  if a.status = (0x00, 0x00, 0x00) then CardRecord a.body ∨ QrRecord a.body
  else a.body.length ≤ 13

namespace Reply

/-- What the POS reads. -/
def status : Reply → DeductStatus
  | .failed _ _ => .failed
  | .result p => p.status

/-- What is posted, when an API is configured. -/
def posted : Reply → Option ResultPayload
  | .failed _ _ => none
  | .result p => some p

end Reply

/-- The POS and the API are told what the document says, a success only when there was one, and
the API is told of everything else. -/
structure Faithful (a : DeductAnswer) (r : Reply) : Prop where
  returned : r.status = a.assigned
  posted : ∀ p, r.posted = some p → p.status = a.assigned
  success : r.status = .success → a.accepted
  told : r.status ≠ .success → ∃ p, r.posted = some p

section Records
variable {body : Bytes}

theorem parse_card (h : CardRecord body) :
    ∃ d, parseDeductResponse body = .ok d ∧ d.cardNumber = hexUpper (slice 20 28 body) := by
  obtain ⟨code, rest, rfl, hcode, hlong⟩ := h
  unfold parseDeductResponse
  dsimp only
  rw [if_neg hcode, if_neg (Nat.not_lt.mpr hlong)]
  exact ⟨_, rfl, rfl⟩

theorem parse_qr (h : QrRecord body) :
    ∃ d, parseDeductResponse body = .ok d ∧ d.cardNumber = "" := by
  obtain ⟨rest, rfl, hlong⟩ := h
  unfold parseDeductResponse parseQrDeductResponse
  dsimp only
  rw [if_pos rfl, if_neg (Nat.not_lt.mpr hlong)]
  exact ⟨_, rfl, rfl⟩

/-- Every other body is rejected. -/
theorem parse_short (hc : ¬ CardRecord body) (hq : ¬ QrRecord body) :
    ∃ e, parseDeductResponse body = .error e := by
  cases body with
  | nil => exact ⟨_, rfl⟩
  | cons code rest =>
    unfold parseDeductResponse
    dsimp only
    by_cases hcode : code = 0x09
    · subst code
      unfold parseQrDeductResponse
      have hshort : (0x09 :: rest).length < 84 := by
        by_contra hlong
        exact hq ⟨rest, rfl, Nat.not_lt.mp hlong⟩
      rw [if_pos rfl, if_pos hshort]
      exact ⟨_, rfl⟩
    · have hshort : (code :: rest).length < 40 := by
        by_contra hlong
        exact hc ⟨code, rest, rfl, hcode, Nat.not_lt.mp hlong⟩
      rw [if_neg hcode, if_pos hshort]
      exact ⟨_, rfl⟩

theorem not_qr_of_card (h : CardRecord body) : ¬ QrRecord body := by
  rintro ⟨rest, heq, -⟩
  obtain ⟨code, rest', rfl, hcode, -⟩ := h
  exact hcode (List.cons.inj heq).1

theorem long_of_record (h : CardRecord body ∨ QrRecord body) : 40 ≤ body.length := by
  rcases h with ⟨_, _, _, _, hlong⟩ | ⟨_, _, hlong⟩
  · exact hlong
  · omega

end Records

section Replies
variable (a : DeductAnswer) (m : DeductMessage) (trailing : Bytes)

/-- The response that the frame of an answer is parsed to. -/
def DeductAnswer.response : Response :=
  responseOf (a.frame ++ trailing) a.respCode
    (a.respCode :: a.status.1 :: a.status.2.1 :: a.status.2.2 :: a.body)

/-- The reply depends on how the body parses. -/
theorem deductReply_frame :
    deductReply m (a.frame ++ trailing) =
      match parseDeductResponse a.body with
      | .error e => .ok (.failed e (hex (a.frame ++ trailing)))
      | .ok d => .ok (.result (resultPayload m (a.response trailing) d)) := by
  unfold deductReply DeductAnswer.frame
  rw [parseResponse_answer _ _ _ a.fits]
  rfl

theorem reply_rejected (hc : ¬ CardRecord a.body) (hq : ¬ QrRecord a.body) :
    ∃ e, deductReply m (a.frame ++ trailing) = .ok (.failed e (hex (a.frame ++ trailing))) := by
  obtain ⟨e, he⟩ := parse_short hc hq
  refine ⟨e, ?_⟩
  rw [deductReply_frame, he]

theorem reply_parsed (h : CardRecord a.body ∨ QrRecord a.body) :
    ∃ p, deductReply m (a.frame ++ trailing) = .ok (.result p) ∧
      p.status = deductStatus a.status ∧
      (CardRecord a.body → p.cardNumber = hexUpper (slice 20 28 a.body)) ∧
      (QrRecord a.body → p.cardNumber = "") := by
  rcases h with h | h
  · obtain ⟨d, hd, hcard⟩ := parse_card h
    refine ⟨resultPayload m (a.response trailing) d, ?_, rfl, fun _ => hcard, fun hq => ?_⟩
    · rw [deductReply_frame, hd]
    · exact (not_qr_of_card h hq).elim
  · obtain ⟨d, hd, hcard⟩ := parse_qr h
    refine ⟨resultPayload m (a.response trailing) d, ?_, rfl, fun hc => ?_, fun _ => hcard⟩
    · rw [deductReply_frame, hd]
    · exact (not_qr_of_card hc h).elim

end Replies

section Status
variable {a : DeductAnswer}

/-- The bridge's switch agrees with the document's table on every error. -/
theorem deductStatus_error (h : a.status ≠ (0x00, 0x00, 0x00)) :
    deductStatus a.status = a.assigned ∧ a.assigned ≠ .success := by
  have hassigned : a.assigned = (specTable.lookup a.status).getD .failed := if_neg h
  rw [hassigned]
  by_cases h5 : a.status = (0x01, 0x10, 0x05)
  · rw [h5]
    decide
  by_cases h4 : a.status = (0x01, 0x10, 0x04)
  · rw [h4]
    decide
  by_cases h6 : a.status = (0x01, 0x10, 0x06)
  · rw [h6]
    decide
  by_cases h2 : a.status = (0x01, 0x10, 0x02)
  · rw [h2]
    decide
  have hnone : specTable.lookup a.status = none := by
    simp only [specTable, List.lookup_cons, List.lookup_nil, beq_eq_false_iff_ne.mpr h5,
      beq_eq_false_iff_ne.mpr h4, beq_eq_false_iff_ne.mpr h6, beq_eq_false_iff_ne.mpr h2]
  have hswitch : deductStatus a.status = .failed := by
    unfold deductStatus
    rw [if_neg h, if_neg h5, if_neg h4, if_neg h6, if_neg h2]
  rw [hnone, hswitch]
  exact ⟨rfl, by decide⟩

/-- And on every success, but for a command that the reader refused. -/
theorem deductStatus_assigned :
    deductStatus a.status = a.assigned ↔ (a.status = (0x00, 0x00, 0x00) → a.respCode = 0x00) := by
  by_cases hs : a.status = (0x00, 0x00, 0x00)
  · have hswitch : deductStatus a.status = .success := if_pos hs
    have hassigned : a.assigned = if a.respCode = 0x00 then .success else .failed := if_pos hs
    rw [hswitch, hassigned]
    by_cases hr : a.respCode = 0x00
    · rw [if_pos hr]
      exact ⟨fun _ _ => hr, fun _ => rfl⟩
    · rw [if_neg hr]
      exact ⟨fun h => DeductStatus.noConfusion h, fun h => (hr (h hs)).elim⟩
  · exact ⟨fun _ h => (hs h).elim, fun _ => (deductStatus_error hs).1⟩

theorem assigned_success : a.assigned = .success ↔ a.accepted := by
  by_cases hs : a.status = (0x00, 0x00, 0x00)
  · have hassigned : a.assigned = if a.respCode = 0x00 then .success else .failed := if_pos hs
    rw [hassigned]
    by_cases hr : a.respCode = 0x00
    · rw [if_pos hr]
      exact ⟨fun _ => ⟨hr, hs⟩, fun _ => rfl⟩
    · rw [if_neg hr]
      exact ⟨fun h => DeductStatus.noConfusion h, fun h => (hr h.1).elim⟩
  · exact ⟨fun h => ((deductStatus_error hs).2 h).elim, fun h => (hs h.2).elim⟩

end Status

section Fidelity

/-- The POS and the API are told faithfully of an answer exactly when its body is a full record
and it is no success of a refused command. -/
theorem told_faithfully_iff (a : DeductAnswer) (m : DeductMessage) (trailing : Bytes) :
    ∃ r, deductReply m (a.frame ++ trailing) = .ok r ∧
      (Faithful a r ↔ (CardRecord a.body ∨ QrRecord a.body) ∧
        (a.status = (0x00, 0x00, 0x00) → a.respCode = 0x00)) := by
  by_cases h : CardRecord a.body ∨ QrRecord a.body
  · obtain ⟨p, hreply, hstatus, -⟩ := reply_parsed a m trailing h
    refine ⟨.result p, hreply, fun hf => ⟨h, ?_⟩, fun hc => ?_⟩
    · exact deductStatus_assigned.mp (hstatus.symm.trans hf.returned)
    · have hassigned : p.status = a.assigned := hstatus.trans (deductStatus_assigned.mpr hc.2)
      refine ⟨hassigned, ?_, fun hs => ?_, fun _ => ⟨p, rfl⟩⟩
      · intro q hq
        cases hq
        exact hassigned
      · exact assigned_success.mp (hassigned.symm.trans hs)
  · obtain ⟨e, hreply⟩ := reply_rejected a m trailing (fun hc => h (Or.inl hc))
      fun hq => h (Or.inr hq)
    refine ⟨_, hreply, fun hf => ?_, fun hc => (h hc.1).elim⟩
    obtain ⟨p, hp⟩ := hf.told fun hs => DeductStatus.noConfusion hs
    cases hp

/-- Of the answers that the document lays out, these are the successes of accepted commands. -/
theorem laidOut_faithful {a : DeductAnswer} (h : a.LaidOut) :
    (CardRecord a.body ∨ QrRecord a.body) ∧ (a.status = (0x00, 0x00, 0x00) → a.respCode = 0x00) ↔
      a.accepted := by
  by_cases hs : a.status = (0x00, 0x00, 0x00)
  · have hrecord : CardRecord a.body ∨ QrRecord a.body := by
      unfold DeductAnswer.LaidOut at h
      rw [if_pos hs] at h
      exact h
    exact ⟨fun hc => ⟨hc.2 hs, hs⟩, fun ha => ⟨hrecord, fun _ => ha.1⟩⟩
  · have hshort : a.body.length ≤ 13 := by
      unfold DeductAnswer.LaidOut at h
      rw [if_neg hs] at h
      exact h
    refine ⟨fun hc => ?_, fun ha => (hs ha.2).elim⟩
    have hlong := long_of_record hc.1
    omega

/-- The reader has lost contact with a card: the type and the number of the card. -/
def lostContactAnswer : DeductAnswer where
  respCode := 0x00
  status := (0x01, 0x10, 0x05)
  body := [0x02, 0x60, 0x13, 0x50, 0x01, 0x00, 0x00, 0x00, 0x01]
  fits := by decide

/-- The lost contact is a failure for the POS, and the API is told nothing. -/
theorem lost_contact_not_told :
    lostContactAnswer.LaidOut ∧ lostContactAnswer.assigned = .lostContact ∧
    ∃ r, deductReply { gateId := "OUT1" } lostContactAnswer.frame = .ok r ∧ r.status = .failed ∧
      r.posted = none ∧ ¬ Faithful lostContactAnswer r := by
  have hlaid : lostContactAnswer.LaidOut := by
    unfold DeductAnswer.LaidOut
    rw [if_neg (by decide)]
    decide
  refine ⟨hlaid, by decide, ?_⟩
  refine ⟨.failed "Body too short for prepaid card response" (hex lostContactAnswer.frame),
    rfl, rfl, rfl, fun hf => ?_⟩
  obtain ⟨p, hp⟩ := hf.told (by decide)
  cases hp

end Fidelity

section Schema

/-- The JSON body that is posted. -/
structure BoothResultBody where
  gateId : String
  gateOutId : Int
  cardNumber : String
  cardType : Option String := none
  cardTypeCode : Option Int := none
  status : String
  deductAmount : Int
  balanceBefore : Int
  balanceAfter : Int
  transactionCounter : Int
  rawResponseHex : String
deriving DecidableEq, Repr

def apiPayload (p : ResultPayload) : BoothResultBody where
  gateId := p.gateId
  gateOutId := p.gateOutId
  cardNumber := p.cardNumber
  status := p.status.value
  deductAmount := p.deductAmount
  balanceBefore := p.balanceBefore
  balanceAfter := p.balanceAfter
  transactionCounter := p.transactionCounter
  rawResponseHex := p.rawResponseHex

/-- The constraints that `EmoneyResultRequest` declares. -/
structure BoothResultBody.Valid (b : BoothResultBody) : Prop where
  cardNumber : 4 ≤ b.cardNumber.length ∧ b.cardNumber.length ≤ 32
  cardTypeCode : ∀ c, b.cardTypeCode = some c → 0 ≤ c ∧ c ≤ 255
  deductAmount : 0 ≤ b.deductAmount
  balanceBefore : 0 ≤ b.balanceBefore
  balanceAfter : 0 ≤ b.balanceAfter
  transactionCounter : 0 ≤ b.transactionCounter

/-- Amounts, balances and counters are in range, so that only the card number can be refused. -/
theorem valid_apiPayload {p : ResultPayload} :
    (apiPayload p).Valid ↔ 4 ≤ p.cardNumber.length ∧ p.cardNumber.length ≤ 32 := by
  refine ⟨fun h => h.cardNumber, fun h => ⟨h, ?_, ?_, ?_, ?_, ?_⟩⟩
  · intro c hc
    cases hc
  · exact Int.natCast_nonneg _
  · exact Int.natCast_nonneg _
  · exact Int.natCast_nonneg _
  · exact Int.natCast_nonneg _

/-- The request that the API serves is made of a valid body. -/
theorem boothResult_isSome {p : ResultPayload} : (boothResult p).isSome ↔ (apiPayload p).Valid := by
  rw [valid_apiPayload]
  unfold boothResult
  by_cases h : 4 ≤ p.cardNumber.length ∧ p.cardNumber.length ≤ 32
  · rw [dif_pos h]
    exact ⟨fun _ => h, fun _ => rfl⟩
  · rw [dif_neg h]
    exact ⟨fun hs => (Bool.false_ne_true hs).elim, fun hv => (h hv).elim⟩

/-- What is posted of an answer satisfies the API's schema unless the answer is the record of a QR
payment. -/
theorem posted_valid_iff (a : DeductAnswer) (m : DeductMessage) (trailing : Bytes) :
    ∃ r, deductReply m (a.frame ++ trailing) = .ok r ∧
      ((∀ p, r.posted = some p → (apiPayload p).Valid) ↔ ¬ QrRecord a.body) := by
  by_cases h : CardRecord a.body ∨ QrRecord a.body
  · obtain ⟨p, hreply, -, hcard, hqr⟩ := reply_parsed a m trailing h
    refine ⟨.result p, hreply, fun hv hq => ?_, fun hq => ?_⟩
    · have hlength := (hv p rfl).cardNumber.1
      have hempty : p.cardNumber = "" := hqr hq
      have hzero : (apiPayload p).cardNumber.length = 0 := congrArg String.length hempty
      omega
    · intro q hp
      cases hp
      have hc : CardRecord a.body := h.resolve_right hq
      have hnumber : p.cardNumber.length = 16 := by
        have hlong := long_of_record h
        rw [hcard hc, length_hexUpper, length_slice (by omega)]
      rw [valid_apiPayload, hnumber]
      decide
  · obtain ⟨e, hreply⟩ := reply_rejected a m trailing (fun hc => h (Or.inl hc))
      fun hq => h (Or.inr hq)
    refine ⟨_, hreply, fun _ hq => h (Or.inr hq), fun _ p hp => ?_⟩
    cases hp

/-- A QR payment of 5000 rupiah. -/
def qrAnswer : DeductAnswer where
  respCode := 0x00
  status := (0x00, 0x00, 0x00)
  body := 0x09 :: List.replicate 20 0x01 ++ [0x00, 0x00, 0x13, 0x88] ++ List.replicate 58 0x30 ++
    [0x00]
  fits := by decide

/-- The bridge opens the gate for it, and the API refuses what is posted. -/
theorem qr_payment_not_valid :
    ∃ r p, deductReply { gateId := "OUT1", gateOutId := 2 } qrAnswer.frame = .ok r ∧
      r.posted = some p ∧ p.status = .success ∧ p.deductAmount = 5000 ∧
      ¬ (apiPayload p).Valid ∧ boothResult p = none := by
  refine ⟨_, _, rfl, rfl, rfl, rfl, fun h => ?_, rfl⟩
  exact absurd h.cardNumber.1 (by decide)

end Schema
end ParkIt.Booth
