import ParkIt.Lib.Bytes

/-! The PASSTI frame: STX, a two-byte length, the payload and its XOR checksum. -/
namespace ParkIt.Passti

open ByteString

def stx : UInt8 := 0x02
def cmdCheckBalanceCode : UInt8 := 0x02
def cmdDeductCode : UInt8 := 0x03

abbrev StatusCode := UInt8 × UInt8 × UInt8

def statusMessages : List (StatusCode × String) :=
  [((0x00, 0x00, 0x00), "OK"),
   ((0x01, 0x10, 0x01), "General error"),
   ((0x01, 0x10, 0x02), "Timeout - no card detected"),
   ((0x01, 0x10, 0x03), "Init failed (wrong key)"),
   ((0x01, 0x10, 0x04), "Insufficient balance"),
   ((0x01, 0x10, 0x05), "Lost contact"),
   ((0x01, 0x10, 0x06), "Expected previous card"),
   ((0x01, 0x10, 0x07), "Deduct interval too short"),
   ((0x01, 0x10, 0x09), "BNI inactive card"),
   ((0x01, 0x10, 0x10), "Expected same deduct amount")]

def cardTypes : List (UInt8 × String) :=
  [(0x01, "Luminos"), (0x02, "Mandiri eMoney"), (0x03, "BRI Brizzi"), (0x04, "BNI TapCash"),
   (0x05, "BCA Flazz"), (0x06, "DKI JakCard"), (0x07, "NOBU Card"), (0x08, "Mega MegaCash"),
   (0x09, "QR Payment")]

def lrc (data : Bytes) : UInt8 := data.foldl (· ^^^ ·) 0

/-- Two digits a byte; an odd number of digits gets a leading zero. -/
def toBcd (digits : List Nat) : Bytes :=
  pairs (if digits.length % 2 = 1 then 0 :: digits else digits)
where
  pairs : List Nat → Bytes
    | a :: b :: ds => UInt8.ofNat (16 * a + b) :: pairs ds
    | _ => []

/-- A raised exception is its text. -/
def bcdTimeout (sec : Int) : Except String Bytes :=
  if 0 ≤ sec ∧ sec ≤ 9999 then .ok (toBcd (decimal 4 sec.toNat))
  else .error s!"Timeout must be 0..9999 seconds, got {sec}"

def buildFrame (cmd : UInt8) (data : Bytes := []) : Bytes :=
  let payload := [0xEF, 0x01, cmd] ++ data
  let lh := UInt8.ofNat (payload.length / 256)
  let ll := UInt8.ofNat payload.length
  [stx, lh, ll] ++ payload ++ [lrc ([lh, ll] ++ payload)]

structure ParseError where
  error : String
  raw : String
  /-- Received and calculated, when they differ. -/
  lrc : Option (UInt8 × UInt8) := none
deriving DecidableEq, Repr

structure Response where
  ok : Bool
  respCode : UInt8
  status : StatusCode
  statusMsg : String
  body : Bytes
  bodyHex : String
  raw : String
deriving DecidableEq, Repr

def statusOf (payload : Bytes) : StatusCode :=
  match payload with
  | _ :: a :: b :: c :: _ => (a, b, c)
  | _ => (0xFF, 0xFF, 0xFF)

/-- `STATUS_MESSAGES.get(status, ...)`. -/
def statusMsg (status : StatusCode) : String :=
  (statusMessages.lookup status).getD s!"Unknown {hex [status.1, status.2.1, status.2.2]}"

def responseOf (raw : Bytes) (respCode : UInt8) (payload : Bytes) : Response where
  ok := decide (respCode = 0x00 ∧ statusOf payload = (0x00, 0x00, 0x00))
  respCode := respCode
  status := statusOf payload
  statusMsg := statusMsg (statusOf payload)
  body := payload.drop 4
  bodyHex := hexUpper (payload.drop 4)
  raw := hex raw

/-- An error record, a response, or the `IndexError` of a payload without a response code. -/
def parseResponse (raw : Bytes) : Except String (Except ParseError Response) :=
  if raw.length < 6 then .ok (.error { error := "Response too short", raw := hex raw })
  else if raw.getD 0 0 ≠ stx then .ok (.error { error := "Invalid STX", raw := hex raw })
  else
    let dataLen := ((raw.getD 1 0).toNat <<< 8) ||| (raw.getD 2 0).toNat
    if raw.length < 3 + dataLen + 1 then
      .ok (.error { error := "Incomplete response", raw := hex raw })
    else
      let payload := slice 3 (3 + dataLen) raw
      let received := raw.getD (3 + dataLen) 0
      let calculated := lrc (slice 1 (3 + dataLen) raw)
      if received ≠ calculated then
        .ok (.error
          { error := "LRC mismatch", raw := hex raw, lrc := some (received, calculated) })
      else match payload with
        | [] => .error "index out of range"
        | respCode :: _ => .ok (.ok (responseOf raw respCode payload))

/-- What the reader sends for a response code, a status and a body. -/
def answerFrame (respCode : UInt8) (status : StatusCode) (body : Bytes) : Bytes :=
  let payload := [respCode, status.1, status.2.1, status.2.2] ++ body
  let len := [UInt8.ofNat (payload.length / 256), UInt8.ofNat payload.length]
  [stx] ++ (len ++ payload ++ [lrc (len ++ payload)])

section Parse
variable {lh ll chk respCode : UInt8} {payload body trailing : Bytes} {status : StatusCode}

/-- The parser on a string that starts with a frame of the declared length. -/
theorem parseResponse_declared (hn : (lh.toNat <<< 8) ||| ll.toNat = payload.length)
    (h6 : 6 ≤ (stx :: lh :: ll :: (payload ++ chk :: trailing)).length) :
    parseResponse (stx :: lh :: ll :: (payload ++ chk :: trailing)) =
      if chk ≠ lrc (lh :: ll :: payload) then
        .ok (.error
          { error := "LRC mismatch", raw := hex (stx :: lh :: ll :: (payload ++ chk :: trailing))
            lrc := some (chk, lrc (lh :: ll :: payload)) })
      else payload.head?.elim (.error "index out of range") fun respCode =>
        .ok (.ok (responseOf (stx :: lh :: ll :: (payload ++ chk :: trailing)) respCode
          payload)) := by
  have hpay : slice 3 (3 + payload.length) (stx :: lh :: ll :: (payload ++ chk :: trailing)) =
      payload := slice_append (p := [stx, lh, ll]) rfl rfl
  have hsum : slice 1 (3 + payload.length) (stx :: lh :: ll :: (payload ++ chk :: trailing)) =
      lh :: ll :: payload :=
    slice_append (p := [stx]) (q := lh :: ll :: payload) rfl (by simp; omega)
  have hchk : (stx :: lh :: ll :: (payload ++ chk :: trailing)).getD (3 + payload.length) 0 =
      chk := by
    rw [Nat.add_comm]
    simp
  unfold parseResponse
  rw [if_neg (by omega), if_neg (by simp)]
  simp only [List.getD_cons_succ, List.getD_cons_zero, hn]
  rw [if_neg (by simp; omega), hpay, hsum, hchk]
  split
  · rfl
  · cases payload <;> rfl

theorem parseResponse_frame (hn : (lh.toNat <<< 8) ||| ll.toNat = payload.length)
    (hp : payload = respCode :: body) (h2 : 2 ≤ payload.length) :
    parseResponse (stx :: lh :: ll :: (payload ++ chk :: trailing)) =
      if chk ≠ lrc (lh :: ll :: payload) then
        .ok (.error
          { error := "LRC mismatch", raw := hex (stx :: lh :: ll :: (payload ++ chk :: trailing))
            lrc := some (chk, lrc (lh :: ll :: payload)) })
      else .ok (.ok (responseOf (stx :: lh :: ll :: (payload ++ chk :: trailing)) respCode
        payload)) := by
  rw [parseResponse_declared hn (by simp; omega), hp]
  rfl

theorem answerFrame_eq
    (hp : payload = respCode :: status.1 :: status.2.1 :: status.2.2 :: body)
    (hhigh : UInt8.ofNat (payload.length / 256) = lh) (hlow : UInt8.ofNat payload.length = ll) :
    answerFrame respCode status body = stx :: lh :: ll :: (payload ++ [lrc (lh :: ll :: payload)]) := by
  rw [← hhigh, ← hlow, hp]
  rfl

/-- The parser reads an answer back, whatever follows it. -/
theorem parseResponse_answer (respCode : UInt8) (status : StatusCode) (trailing : Bytes)
    (h : body.length + 4 < 65536) :
    parseResponse (answerFrame respCode status body ++ trailing) =
      .ok (.ok (responseOf (answerFrame respCode status body ++ trailing) respCode
        (respCode :: status.1 :: status.2.1 :: status.2.2 :: body))) := by
  obtain ⟨payload, hp⟩ : ∃ payload, payload =
    respCode :: status.1 :: status.2.1 :: status.2.2 :: body := ⟨_, rfl⟩
  have hlen : payload.length = body.length + 4 := by simp [hp]
  have hframe : answerFrame respCode status body ++ trailing =
      stx :: UInt8.ofNat (payload.length / 256) :: UInt8.ofNat payload.length ::
        (payload ++ lrc (UInt8.ofNat (payload.length / 256) :: UInt8.ofNat payload.length ::
          payload) :: trailing) := by
    rw [answerFrame_eq hp rfl rfl]
    simp only [List.cons_append, List.nil_append, List.append_assoc]
  have hfield := length_field (n := payload.length) (by omega)
  rw [hframe, parseResponse_frame hfield hp (by omega), if_neg (by simp), hp]

end Parse
end ParkIt.Passti
