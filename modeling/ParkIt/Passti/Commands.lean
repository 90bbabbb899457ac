import ParkIt.Passti.Frame
import ParkIt.Clock

/-! PASSTI commands and the bodies of their responses. -/
namespace ParkIt.Passti

open ByteString

/-- `%d%m%Y` and `%H%M%S` in BCD. -/
def nowBcd (t : LocalTime) : Bytes :=
  toBcd (decimal 2 t.day ++ decimal 2 t.month ++ decimal 4 t.year) ++
  toBcd (decimal 2 t.hour ++ decimal 2 t.minute ++ decimal 2 t.second)

/-- The amount of a JSON message: an integer, or a value of another Python type. -/
inductive Amount where
  | int (n : Int)
  | other (typeName : String)
deriving DecidableEq, Repr

/-- `amount.to_bytes(4, "big")`. -/
def Amount.toBytes : Amount → Except String Bytes
  | .int n =>
    if n < 0 then .error "can't convert negative int to unsigned"
    else if 4294967296 ≤ n then .error "int too big to convert"
    else .ok (ofNat 4 n.toNat)
  | .other typeName => .error s!"'{typeName}' object has no attribute 'to_bytes'"

def cmdCheckBalance (now : LocalTime) (timeoutSec : Int) : Except String Bytes := do
  let timeout ← bcdTimeout timeoutSec
  pure (buildFrame cmdCheckBalanceCode (nowBcd now ++ timeout))

def cmdDeduct (now : LocalTime) (amount : Amount) (timeoutSec : Int) : Except String Bytes := do
  let amount ← amount.toBytes
  let timeout ← bcdTimeout timeoutSec
  pure (buildFrame cmdDeductCode (nowBcd now ++ amount ++ timeout))

structure QrData where
  qrPaymentType : UInt8
  orderIdHex : String
  trxId : String
  rfu : String
deriving DecidableEq, Repr

structure DeductData where
  cardTypeCode : UInt8
  cardType : String
  mid : String
  tid : String
  datetimeBcd : String
  cardNumber : String
  deducted : Nat
  remaining : Nat
  transCounter : Nat
  qr : Option QrData := none
deriving DecidableEq, Repr

/-- `decode("ascii", errors="replace")`. -/
def decodeAscii (b : Bytes) : String :=
  String.ofList (b.map fun x => if x.toNat < 128 then Char.ofNat x.toNat else '\uFFFD')

def parseQrDeductResponse (body : Bytes) : Except String DeductData :=
  if body.length < 84 then .error "Body too short for QR payment response"
  else
    let rfuLen := (body.getD 83 0).toNat
    .ok
      { cardTypeCode := 0x09
        cardType := "QR Payment"
        mid := hexUpper (slice 1 9 body)
        tid := hexUpper (slice 9 13 body)
        datetimeBcd := hex (slice 13 20 body)
        cardNumber := ""
        deducted := toNat (slice 21 25 body)
        remaining := 0
        transCounter := 0
        qr := some
          { qrPaymentType := body.getD 20 0
            orderIdHex := hexUpper (slice 25 47 body)
            trxId := decodeAscii (slice 47 83 body)
            rfu := if 0 < rfuLen then hex (slice 84 (84 + rfuLen) body) else "" } }

/-- Card type 9 is a QR payment with a layout of its own; all others are prepaid cards. -/
def parseDeductResponse (body : Bytes) : Except String DeductData :=
  match body with
  | [] => .error "Body too short"
  | cardTypeCode :: _ =>
    if cardTypeCode = 0x09 then parseQrDeductResponse body
    else if body.length < 40 then .error "Body too short for prepaid card response"
    else .ok
      { cardTypeCode
        cardType := (cardTypes.lookup cardTypeCode).getD s!"Unknown({hexUpper [cardTypeCode]})"
        mid := hexUpper (slice 1 9 body)
        tid := hexUpper (slice 9 13 body)
        datetimeBcd := hex (slice 13 20 body)
        cardNumber := hexUpper (slice 20 28 body)
        deducted := toNat (slice 28 32 body)
        remaining := toNat (slice 32 36 body)
        transCounter := toNat (slice 36 40 body) }

/-- The amount that a deduct frame asks for. -/
def carriedAmount (frame : Bytes) : Nat := toNat (slice 13 17 frame)

/-- The timeout that a deduct frame asks the reader to wait for a card. -/
def carriedTimeout (frame : Bytes) : Nat :=
  (slice 17 19 frame).foldl (fun n b => 100 * n + 10 * (b.toNat / 16) + b.toNat % 16) 0

section Encode
variable {now : LocalTime} {amount : Amount} {frame : Bytes}

@[simp] theorem length_toBcd (ds : List Nat) (h : ds.length % 2 = 0) :
    (toBcd ds).length = ds.length / 2 := by
  rw [toBcd, if_neg (by omega)]
  induction ds using toBcd.pairs.induct with
  | case1 a b ds ih =>
    have hd : ds.length % 2 = 0 := by
      simp only [List.length_cons] at h
      omega
    simp only [toBcd.pairs, List.length_cons, ih hd]
    omega
  | case2 ds hne =>
    cases ds with
    | nil => rfl
    | cons a ds =>
      cases ds with
      | nil => simp at h
      | cons b ds => exact (hne a b ds rfl).elim

theorem length_nowBcd (t : LocalTime) : (nowBcd t).length = 7 := by
  simp [nowBcd]

theorem Amount.length_toBytes {bytes : Bytes} (h : amount.toBytes = .ok bytes) :
    bytes.length = 4 := by
  unfold Amount.toBytes at h
  split at h
  · split at h
    · cases h
    · split at h <;> cases h
      exact length_ofNat 4 _
  · cases h

/-- The data of a command stands behind six bytes of envelope. -/
theorem slice_buildFrame {cmd : UInt8} {p q r : Bytes} {a b : Nat} (hp : p.length + 6 = a)
    (hq : a + q.length = b) : slice a b (buildFrame cmd (p ++ (q ++ r))) = q := by
  obtain ⟨lh, ll, chk, hframe⟩ : ∃ lh ll chk, buildFrame cmd (p ++ (q ++ r)) =
      [stx, lh, ll, 0xEF, 0x01, cmd] ++ ((p ++ (q ++ r)) ++ [chk]) := ⟨_, _, _, rfl⟩
  rw [hframe, List.append_assoc, List.append_assoc, ← List.append_assoc _ p]
  exact slice_append (by simp; omega) hq

/-- A deduct waits at the reader as long as its frame says. -/
theorem carriedTimeout_cmdDeduct (h : cmdDeduct now amount 30 = .ok frame) :
    carriedTimeout frame = 30 := by
  unfold cmdDeduct at h
  rcases ha : amount.toBytes with e | bytes <;> rw [ha] at h
  · cases h
  cases h
  have hlen : (nowBcd now ++ bytes).length + 6 = 17 := by
    simp [length_nowBcd, Amount.length_toBytes ha]
  have htimeout :
      slice 17 19 (buildFrame cmdDeductCode ((nowBcd now ++ bytes) ++ ([0x00, 0x30] ++ []))) =
      [0x00, 0x30] := slice_buildFrame hlen rfl
  rw [List.append_nil] at htimeout
  have hbcd : toBcd (decimal 4 (30 : Int).toNat) = [0x00, 0x30] := by decide
  rw [carriedTimeout, hbcd, htimeout]
  decide

end Encode
end ParkIt.Passti
