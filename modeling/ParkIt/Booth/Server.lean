import ParkIt.Booth.Serial
import ParkIt.Passti.Commands
import ParkIt.Routes

/-! The e-money messages of the bridge's WebSocket server. -/
namespace ParkIt.Booth

open Effects ByteString Passti

structure DeductMessage where
  amount : Amount := .int 0
  gateId : String := ""
  gateOutId : Int := 0
deriving DecidableEq, Repr

structure ResultPayload where
  status : DeductStatus
  cardNumber : String
  deductAmount : Nat
  balanceBefore : Nat
  balanceAfter : Nat
  transactionCounter : Nat
  rawResponseHex : String
  gateId : String
  gateOutId : Int
deriving DecidableEq, Repr

/-- The answer to the POS; only a parsed deduct result is reported to the API. -/
inductive Reply where
  | failed (error : String) (rawResponseHex : String)
  | result (p : ResultPayload)
deriving DecidableEq, Repr

def deductStatus (status : StatusCode) : DeductStatus :=
  if status = (0x00, 0x00, 0x00) then .success
  else if status = (0x01, 0x10, 0x05) then .lostContact
  else if status = (0x01, 0x10, 0x04) then .insufficientBalance
  else if status = (0x01, 0x10, 0x06) then .wrongCard
  else if status = (0x01, 0x10, 0x02) then .timeout
  else .failed

def resultPayload (m : DeductMessage) (parsed : Response) (d : DeductData) : ResultPayload where
  status := deductStatus parsed.status
  cardNumber := d.cardNumber
  deductAmount := d.deducted
  balanceBefore := d.remaining + d.deducted
  balanceAfter := d.remaining
  transactionCounter := d.transCounter
  rawResponseHex := parsed.raw
  gateId := m.gateId
  gateOutId := m.gateOutId

/-- What becomes of the bytes that the port returned. -/
def deductReply (m : DeductMessage) (raw : Bytes) : Except String Reply :=
  match parseResponse raw with
  | .error msg => .error msg
  | .ok (.error e) => .ok (.failed e.error e.raw)
  | .ok (.ok parsed) =>
    match parseDeductResponse parsed.body with
    | .error e => .ok (.failed e parsed.raw)
    | .ok d => .ok (.result (resultPayload m parsed d))

def orOther {α : Type} : Except String α → Serial α
  | .ok a => pure a
  | .error msg => Prog.raise (.other msg)

@[simp] theorem run_orOther {σ α : Type}
    (exec : (o : SerialOp) → σ → Except BridgeError o.Ans × σ) (w : σ) (r : Except String α) :
    (orOther r).run exec w = (r.mapError .other, w) := by
  cases r <;> rfl

def emoneyDeduct (now : LocalTime) (m : DeductMessage) : Serial Reply := do
  let frame ← orOther (cmdDeduct now m.amount 30)
  let raw ← send frame
  orOther (deductReply m raw)

/-- The balance check answers the raw bytes. -/
def emoneyCheckBalance (now : LocalTime) : Serial String := do
  let frame ← orOther (cmdCheckBalance now 10)
  let raw ← send frame
  pure (hex raw)

/-- The body that `_call_api_booth_result` posts, as the API's schema admits it. -/
def boothResult (p : ResultPayload) : Option EmoneyResultRequest :=
  if h : 4 ≤ p.cardNumber.length ∧ p.cardNumber.length ≤ 32 then
    some
      { gateId := p.gateId
        gateOutId := p.gateOutId
        cardNumber := p.cardNumber
        status := p.status.value
        deductAmount := p.deductAmount
        balanceBefore := p.balanceBefore
        balanceAfter := p.balanceAfter
        transactionCounter := p.transactionCounter
        rawResponseHex := p.rawResponseHex
        cardNumber_length := h
        cardTypeCode_byte := by rintro c ⟨⟩ }
  else none

end ParkIt.Booth
