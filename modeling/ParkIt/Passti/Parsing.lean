import ParkIt.Passti.Commands

/-! The parsers of PASSTI answers: what they accept, and every byte they index. -/
namespace ParkIt.Passti

open ByteString

/-- `b[i]`. -/
def index (b : Bytes) (i : Nat) : Except String UInt8 :=
  match b[i]? with
  | some x => .ok x
  | none => .error "index out of range"

def declaredLength (raw : Bytes) : Nat := ((raw.getD 1 0).toNat <<< 8) ||| (raw.getD 2 0).toNat

section Reads

/-- `parseResponse` with every index of the source as an index that may be out of range. -/
def readResponse (raw : Bytes) : Except String (Except ParseError Response) :=
  if raw.length < 6 then pure (.error { error := "Response too short", raw := hex raw })
  else do
    let first ← index raw 0
    if first ≠ stx then pure (.error { error := "Invalid STX", raw := hex raw })
    else do
      let lh ← index raw 1
      let ll ← index raw 2
      let dataLen := (lh.toNat <<< 8) ||| ll.toNat
      if raw.length < 3 + dataLen + 1 then
        pure (.error { error := "Incomplete response", raw := hex raw })
      else do
        let payload := slice 3 (3 + dataLen) raw
        let received ← index raw (3 + dataLen)
        let calculated := lrc (slice 1 (3 + dataLen) raw)
        if received ≠ calculated then
          pure (.error
            { error := "LRC mismatch", raw := hex raw, lrc := some (received, calculated) })
        else do
          let respCode ← index payload 0
          pure (.ok (responseOf raw respCode payload))

/-- The outer error is an exception, the inner one a record with an error. -/
def readQrDeductResponse (body : Bytes) : Except String (Except String DeductData) :=
  if body.length < 84 then pure (.error "Body too short for QR payment response")
  else do
    let qrPaymentType ← index body 20
    let rfuLen ← index body 83
    pure (.ok
      { cardTypeCode := 0x09
        cardType := "QR Payment"
        mid := hexUpper (slice 1 9 body)
        tid := hexUpper (slice 9 13 body)
        datetimeBcd := hex (slice 13 20 body)
        cardNumber := ""
        deducted := toNat (slice 21 25 body)
        remaining := 0
        transCounter := 0
        qr := some
          { qrPaymentType
            orderIdHex := hexUpper (slice 25 47 body)
            trxId := decodeAscii (slice 47 83 body)
            rfu := if 0 < rfuLen.toNat then hex (slice 84 (84 + rfuLen.toNat) body) else "" } })

def readDeductResponse (body : Bytes) : Except String (Except String DeductData) :=
  if body.length < 1 then pure (.error "Body too short")
  else do
    let cardTypeCode ← index body 0
    if cardTypeCode = 0x09 then readQrDeductResponse body
    else if body.length < 40 then pure (.error "Body too short for prepaid card response")
    else pure (.ok
      { cardTypeCode
        cardType := (cardTypes.lookup cardTypeCode).getD s!"Unknown({hexUpper [cardTypeCode]})"
        mid := hexUpper (slice 1 9 body)
        tid := hexUpper (slice 9 13 body)
        datetimeBcd := hex (slice 13 20 body)
        cardNumber := hexUpper (slice 20 28 body)
        deducted := toNat (slice 28 32 body)
        remaining := toNat (slice 32 36 body)
        transCounter := toNat (slice 36 40 body) })

structure BalanceData where
  cardTypeCode : UInt8
  cardType : String
  cardNumber : String
  balance : Nat
deriving DecidableEq, Repr

def parseCheckBalanceResponse (body : Bytes) : Except String (Except String BalanceData) :=
  if body.length < 13 then pure (.error "Body too short")
  else do
    let cardTypeCode ← index body 0
    pure (.ok
      { cardTypeCode
        cardType := (cardTypes.lookup cardTypeCode).getD s!"Unknown({hexUpper [cardTypeCode]})"
        cardNumber := hexUpper (slice 1 9 body)
        balance := toNat (slice 9 13 body) })

variable {raw body : Bytes}

theorem index_getD {i : Nat} (h : i < raw.length) : index raw i = .ok (raw.getD i 0) := by
  rw [index, List.getElem?_eq_getElem h, List.getD_eq_getElem _ _ h]

theorem readResponse_eq (raw : Bytes) : readResponse raw = parseResponse raw := by
  unfold readResponse parseResponse
  split
  · rfl
  case isFalse hlen =>
    rw [index_getD (by omega), index_getD (by omega), index_getD (by omega)]
    change (if raw.getD 0 0 ≠ stx then _ else _) = _
    split
    · rfl
    · change (if raw.length < 3 + declaredLength raw + 1 then _ else _) =
        if raw.length < 3 + declaredLength raw + 1 then _ else _
      split
      · rfl
      case isFalse hframe =>
        change (index raw (3 + declaredLength raw) >>= _) = _
        rw [index_getD (by omega)]
        change (if raw.getD (3 + declaredLength raw) 0 ≠ _ then _ else _) =
          if raw.getD (3 + declaredLength raw) 0 ≠ _ then _ else _
        split
        · rfl
        · change (index (slice 3 (3 + declaredLength raw) raw) 0 >>= _) = _
          unfold declaredLength
          split
          case h_1 hpayload =>
            rw [hpayload]
            rfl
          case h_2 respCode payload hpayload =>
            rw [hpayload]
            rfl

theorem readQrDeductResponse_eq (body : Bytes) :
    readQrDeductResponse body = .ok (parseQrDeductResponse body) := by
  unfold readQrDeductResponse parseQrDeductResponse
  split
  · rfl
  case isFalse hlen =>
    rw [index_getD (by omega), index_getD (by omega)]
    rfl

theorem readDeductResponse_eq (body : Bytes) :
    readDeductResponse body = .ok (parseDeductResponse body) := by
  rcases body with - | ⟨cardTypeCode, body⟩
  · rfl
  · rw [readDeductResponse, if_neg (by simp), index_getD (by simp)]
    change (if cardTypeCode = 0x09 then _ else _) = Except.ok (if cardTypeCode = 0x09 then _ else _)
    split
    · exact readQrDeductResponse_eq _
    · split <;> rfl

theorem parseCheckBalanceResponse_returns (body : Bytes) :
    ∃ r, parseCheckBalanceResponse body = .ok r := by
  unfold parseCheckBalanceResponse
  split
  · exact ⟨_, rfl⟩
  case isFalse hlen =>
    rw [index_getD (by omega)]
    exact ⟨_, rfl⟩

end Reads

section Accepted
variable {raw : Bytes} {r : Response} {lh ll : UInt8}

/-- The two length bytes of a declared length. -/
theorem length_bytes (lh ll : UInt8) :
    UInt8.ofNat (((lh.toNat <<< 8) ||| ll.toNat) / 256) = lh ∧
    UInt8.ofNat ((lh.toNat <<< 8) ||| ll.toNat) = ll := by
  have hhigh : lh.toNat < 256 := lh.toNat_lt
  have hlow : ll.toNat < 2 ^ 8 := ll.toNat_lt
  rw [← Nat.shiftLeft_add_eq_or_of_lt hlow, Nat.shiftLeft_eq]
  constructor
  · apply UInt8.toNat_inj.mp
    rw [UInt8.toNat_ofNat']
    omega
  · apply UInt8.toNat_inj.mp
    rw [UInt8.toNat_ofNat']
    omega

/-- A string with a start byte and as many bytes as it declares, taken apart. -/
theorem split_declared (h6 : 6 ≤ raw.length) (hstx : raw.getD 0 0 = stx)
    (hlen : 3 + declaredLength raw + 1 ≤ raw.length) :
    ∃ lh ll payload chk trailing, raw = stx :: lh :: ll :: (payload ++ chk :: trailing) ∧
      (lh.toNat <<< 8) ||| ll.toNat = payload.length := by
  rcases raw with - | ⟨first, - | ⟨lh, - | ⟨ll, rest⟩⟩⟩
  · simp at h6
  · simp at h6
  · simp at h6
  · obtain rfl : first = stx := hstx
    generalize hd : (lh.toNat <<< 8) ||| ll.toNat = n
    have hn : n + 1 ≤ rest.length := by
      simp only [declaredLength, List.getD_cons_succ, List.getD_cons_zero, List.length_cons,
        hd] at hlen
      omega
    obtain ⟨chk, trailing, htail⟩ : ∃ chk trailing, rest.drop n = chk :: trailing := by
      rcases hrest : rest.drop n with - | ⟨chk, trailing⟩
      · have hle := List.drop_eq_nil_iff.mp hrest
        omega
      · exact ⟨chk, trailing, rfl⟩
    refine ⟨lh, ll, rest.take n, chk, trailing, ?_, ?_⟩
    · rw [← htail, List.take_append_drop]
    · rw [hd, List.length_take]
      omega

/-- Every answer of the parser: refused, or a complete frame whose checksum decides. -/
theorem parseResponse_cases (raw : Bytes) :
    (∃ e, parseResponse raw = .ok (.error e)) ∨
    ∃ lh ll payload trailing,
      raw = stx :: lh :: ll :: (payload ++ lrc (lh :: ll :: payload) :: trailing) ∧
      (lh.toNat <<< 8) ||| ll.toNat = payload.length ∧ 6 ≤ raw.length ∧
      parseResponse raw = payload.head?.elim (.error "index out of range") fun respCode =>
        .ok (.ok (responseOf raw respCode payload)) := by
  by_cases h6 : raw.length < 6
  · exact Or.inl ⟨_, by rw [parseResponse, if_pos h6]⟩
  by_cases hstx : raw.getD 0 0 ≠ stx
  · exact Or.inl ⟨_, by rw [parseResponse, if_neg h6, if_pos hstx]⟩
  by_cases hlen : raw.length < 3 + declaredLength raw + 1
  · refine Or.inl ⟨{ error := "Incomplete response", raw := hex raw }, ?_⟩
    rw [parseResponse, if_neg h6, if_neg hstx]
    exact if_pos hlen
  obtain ⟨lh, ll, payload, chk, trailing, rfl, hn⟩ :=
    split_declared (by omega) (not_not.mp hstx) (not_lt.mp hlen)
  have hparse := parseResponse_declared hn (not_lt.mp h6)
  by_cases hchk : chk ≠ lrc (lh :: ll :: payload)
  · rw [if_pos hchk] at hparse
    exact Or.inl ⟨_, hparse⟩
  · rw [if_neg hchk] at hparse
    obtain rfl := not_not.mp hchk
    exact Or.inr ⟨lh, ll, payload, trailing, rfl, hn, not_lt.mp h6, hparse⟩

/-- What the parser accepts is a frame whose checksum is right. -/
theorem parseResponse_accepts (h : parseResponse raw = .ok (.ok r)) :
    ∃ lh ll respCode rest trailing,
      raw = stx :: lh :: ll :: (respCode :: rest ++ lrc (lh :: ll :: respCode :: rest) ::
        trailing) ∧
      (lh.toNat <<< 8) ||| ll.toNat = (respCode :: rest).length ∧
      r = responseOf raw respCode (respCode :: rest) := by
  obtain ⟨e, he⟩ | ⟨lh, ll, payload, trailing, hraw, hn, -, hparse⟩ := parseResponse_cases raw
  · rw [h] at he
    cases he
  · rw [h] at hparse
    rcases payload with - | ⟨respCode, rest⟩
    · cases hparse
    · exact ⟨lh, ll, respCode, rest, trailing, hraw, hn, Except.ok.inj (Except.ok.inj hparse)⟩

/-- An accepted string with room for the fixed fields starts with the frame of what was read. -/
theorem answerFrame_prefix (h : parseResponse raw = .ok (.ok r)) (h4 : 4 ≤ declaredLength raw) :
    answerFrame r.respCode r.status r.body <+: raw := by
  obtain ⟨lh, ll, respCode, rest, trailing, hraw, hn, hr⟩ := parseResponse_accepts h
  have hdeclared : declaredLength raw = (respCode :: rest).length := by
    rw [hraw, ← hn]
    rfl
  rw [hdeclared, List.length_cons] at h4
  obtain ⟨a, b, c, body, rfl⟩ : ∃ a b c body, rest = a :: b :: c :: body := by
    rcases rest with - | ⟨a, - | ⟨b, - | ⟨c, body⟩⟩⟩
    · simp at h4
    · simp at h4
    · simp at h4
    · exact ⟨a, b, c, body, rfl⟩
  obtain ⟨hhigh, hlow⟩ := length_bytes lh ll
  rw [hn] at hhigh hlow
  have hframe : answerFrame r.respCode r.status r.body =
      stx :: lh :: ll :: (respCode :: a :: b :: c :: body ++
        [lrc (lh :: ll :: respCode :: a :: b :: c :: body)]) := by
    refine answerFrame_eq ?_ hhigh hlow
    rw [hr]
    rfl
  refine ⟨trailing, ?_⟩
  rw [hframe, hraw]
  simp

end Accepted

section Prepaid
variable {cardType : UInt8} {mid tid dt card log : Bytes} {amount remaining counter : Nat}

/-- The body of a prepaid card's deduct response. -/
def prepaidBody (cardType : UInt8) (mid tid dt card : Bytes) (amount remaining counter : Nat)
    (log : Bytes) : Bytes :=
  [[cardType], mid, tid, dt, card, ofNat 4 amount, ofNat 4 remaining, ofNat 4 counter, log].flatten

theorem parseDeductResponse_prepaid (hcard : cardType ≠ 0x09) (hmid : mid.length = 8)
    (htid : tid.length = 4) (hdt : dt.length = 7) (hno : card.length = 8)
    (hamount : amount < 4294967296) (hremaining : remaining < 4294967296)
    (hcounter : counter < 4294967296) (log : Bytes) :
    parseDeductResponse (prepaidBody cardType mid tid dt card amount remaining counter log) =
      .ok
        { cardTypeCode := cardType
          cardType := (cardTypes.lookup cardType).getD s!"Unknown({hexUpper [cardType]})"
          mid := hexUpper mid
          tid := hexUpper tid
          datetimeBcd := hex dt
          cardNumber := hexUpper card
          deducted := amount
          remaining := remaining
          transCounter := counter } := by
  obtain ⟨body, hbody⟩ :
    ∃ body, body = prepaidBody cardType mid tid dt card amount remaining counter log := ⟨_, rfl⟩
  have hcons : ∃ rest, body = cardType :: rest := ⟨_, hbody⟩
  have hlen : ¬ body.length < 40 := by
    rw [hbody, prepaidBody]
    simp
    omega
  have h₁ : slice 1 9 body = mid := by
    rw [hbody]
    exact slice_flatten [[cardType]] _ rfl (by omega)
  have h₂ : slice 9 13 body = tid := by
    rw [hbody]
    exact slice_flatten [[cardType], mid] _ (by simp; omega) (by omega)
  have h₃ : slice 13 20 body = dt := by
    rw [hbody]
    exact slice_flatten [[cardType], mid, tid] _ (by simp; omega) (by omega)
  have h₄ : slice 20 28 body = card := by
    rw [hbody]
    exact slice_flatten [[cardType], mid, tid, dt] _ (by simp; omega) (by omega)
  have h₅ : slice 28 32 body = ofNat 4 amount := by
    rw [hbody]
    exact slice_flatten [[cardType], mid, tid, dt, card] _ (by simp; omega) (by simp)
  have h₆ : slice 32 36 body = ofNat 4 remaining := by
    rw [hbody]
    exact slice_flatten [[cardType], mid, tid, dt, card, ofNat 4 amount] _ (by simp; omega)
      (by simp)
  have h₇ : slice 36 40 body = ofNat 4 counter := by
    rw [hbody]
    exact slice_flatten [[cardType], mid, tid, dt, card, ofNat 4 amount, ofNat 4 remaining] _
      (by simp; omega) (by simp)
  rw [← hbody]
  obtain ⟨rest, rfl⟩ := hcons
  rw [parseDeductResponse, if_neg hcard, if_neg hlen, h₁, h₂, h₃, h₄, h₅, h₆, h₇,
    toNat_ofNat (by omega), toNat_ofNat (by omega), toNat_ofNat (by omega)]

end Prepaid

/-- Decoding undoes encoding: an answer comes back whatever follows it, an accepted string starts
with the frame of what was read from it, and a prepaid body gives back its fields. -/
theorem decode_encode :
    (∀ respCode status body trailing, body.length ≤ 65531 →
      ∃ r, parseResponse (answerFrame respCode status body ++ trailing) = .ok (.ok r) ∧
        r.respCode = respCode ∧ r.status = status ∧ r.body = body ∧
        (r.ok = true ↔ respCode = 0x00 ∧ status = (0x00, 0x00, 0x00))) ∧
    (∀ raw r, parseResponse raw = .ok (.ok r) → 4 ≤ declaredLength raw →
      answerFrame r.respCode r.status r.body <+: raw) ∧
    ∀ cardType mid tid dt card amount remaining counter log,
      cardType ≠ 0x09 → mid.length = 8 → tid.length = 4 → dt.length = 7 → card.length = 8 →
      amount < 4294967296 → remaining < 4294967296 → counter < 4294967296 →
      ∃ d, parseDeductResponse (prepaidBody cardType mid tid dt card amount remaining counter
          log) = .ok d ∧
        d.cardTypeCode = cardType ∧ d.mid = hexUpper mid ∧ d.tid = hexUpper tid ∧
        d.datetimeBcd = hex dt ∧ d.cardNumber = hexUpper card ∧
        d.deducted = amount ∧ d.remaining = remaining ∧ d.transCounter = counter := by
  refine ⟨?_, ?_, ?_⟩
  · intro respCode status body trailing hbody
    refine ⟨_, parseResponse_answer respCode status trailing (by omega), rfl, rfl, rfl, ?_⟩
    exact decide_eq_true_iff
  · intro raw r h h4
    exact answerFrame_prefix h h4
  · intro cardType mid tid dt card amount remaining counter log hc h₁ h₂ h₃ h₄ h₅ h₆ h₇
    exact ⟨_, parseDeductResponse_prepaid hc h₁ h₂ h₃ h₄ h₅ h₆ h₇ log, rfl, rfl, rfl, rfl, rfl, rfl,
      rfl, rfl⟩

section Safety
variable {raw body : Bytes} {r : Response}

/-- The record says what stands in the frame. -/
structure Consistent (raw : Bytes) (r : Response) : Prop where
  complete : 3 + declaredLength raw + 1 ≤ raw.length
  respCode : raw[3]? = some r.respCode
  status : if 4 ≤ declaredLength raw then [r.status.1, r.status.2.1, r.status.2.2] = slice 4 7 raw
    else r.status = (0xFF, 0xFF, 0xFF)
  body : r.body = slice 7 (3 + declaredLength raw) raw
  ok : r.ok = true ↔ r.respCode = 0x00 ∧ r.status = (0x00, 0x00, 0x00)

/-- A complete frame without a payload: its checksum is that of two zero length bytes. -/
def EmptyFrame (raw : Bytes) : Prop := 6 ≤ raw.length ∧ [0x02, 0x00, 0x00, 0x00] <+: raw

theorem consistent (h : parseResponse raw = .ok (.ok r)) : Consistent raw r := by
  obtain ⟨lh, ll, respCode, rest, trailing, hraw, hn, rfl⟩ := parseResponse_accepts h
  have hdeclared : declaredLength raw = rest.length + 1 := by
    rw [hraw]
    exact hn
  have hfields : (if 4 ≤ declaredLength raw then
        [(statusOf (respCode :: rest)).1, (statusOf (respCode :: rest)).2.1,
          (statusOf (respCode :: rest)).2.2] = slice 4 7 raw
      else statusOf (respCode :: rest) = (0xFF, 0xFF, 0xFF)) ∧
      rest.drop 3 = slice 7 (3 + declaredLength raw) raw := by
    rw [hdeclared, hraw]
    -- a payload of up to three bytes has no status; a longer one starts its body behind it
    rcases rest with - | ⟨a, - | ⟨b, - | ⟨c, body⟩⟩⟩
    · exact ⟨rfl, rfl⟩
    · exact ⟨rfl, rfl⟩
    · exact ⟨rfl, rfl⟩
    · have hcount : 3 + (body.length + 1 + 1 + 1 + 1) - 7 = body.length := by omega
      simp [slice, statusOf, hcount]
  constructor
  · rw [hdeclared, hraw]
    simp
    omega
  · rw [hraw]
    rfl
  · exact hfields.1
  · exact hfields.2
  · exact decide_eq_true_iff

theorem parseResponse_raises :
    (∃ msg, parseResponse raw = .error msg) ↔ EmptyFrame raw := by
  constructor
  · rintro ⟨msg, hmsg⟩
    obtain ⟨e, he⟩ | ⟨lh, ll, payload, trailing, hraw, hn, h6, hparse⟩ := parseResponse_cases raw
    · rw [he] at hmsg
      cases hmsg
    · rcases payload with - | ⟨respCode, rest⟩
      · obtain ⟨hhigh, hlow⟩ := length_bytes lh ll
        rw [hn] at hhigh hlow
        refine ⟨h6, ?_⟩
        rw [hraw, ← hhigh, ← hlow]
        exact ⟨trailing, rfl⟩
      · rw [hparse] at hmsg
        cases hmsg
  · rintro ⟨h6, trailing, rfl⟩
    have hparse : parseResponse (stx :: 0x00 :: 0x00 :: ([] ++ 0x00 :: trailing)) = _ :=
      parseResponse_declared rfl h6
    exact ⟨_, hparse⟩

/-- Every byte string is answered by an error record or a record of its frame, and every body by
the body parsers, except that a frame of length zero makes the response parser raise. -/
theorem parsers_return_iff (raw body : Bytes) :
    (((∃ e, readResponse raw = .ok (.error e)) ∨
        ∃ r, readResponse raw = .ok (.ok r) ∧ Consistent raw r) ∧
      (∃ d, readDeductResponse body = .ok d) ∧ ∃ d, parseCheckBalanceResponse body = .ok d) ↔
    ¬ EmptyFrame raw := by
  rw [readResponse_eq, ← parseResponse_raises]
  constructor
  · rintro ⟨⟨e, he⟩ | ⟨r, hr, -⟩, -⟩ ⟨msg, hmsg⟩
    · rw [he] at hmsg
      cases hmsg
    · rw [hr] at hmsg
      cases hmsg
  · intro hreturns
    refine ⟨?_, ⟨_, readDeductResponse_eq body⟩, parseCheckBalanceResponse_returns body⟩
    rcases hparse : parseResponse raw with msg | e | r
    · exact (hreturns ⟨msg, hparse⟩).elim
    · exact Or.inl ⟨e, rfl⟩
    · exact Or.inr ⟨r, rfl, consistent hparse⟩

/-- Six bytes that declare no payload. -/
theorem empty_frame_raises :
    readResponse [0x02, 0x00, 0x00, 0x00, 0x00, 0x00] = .error "index out of range" := by decide

end Safety
end ParkIt.Passti
