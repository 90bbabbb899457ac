import ParkIt.Booth.Server
import ParkIt.Lib.Path
import Mathlib.Data.List.Sort

/-! Which answer of the reader a request of the bridge reads. -/
namespace ParkIt.Booth

open Effects ByteString Passti Transition

/-- The serial port in milliseconds, with the answers that it has not returned yet, in the order
of their arrival. -/
structure Port where
  now : Nat := 0
  arriving : List (Nat × Bytes) := []
deriving DecidableEq, Repr

/-- The `timeout=1` of the port. -/
def readTimeout : Nat := 1000

/-- An answer of the reader and how long it takes. -/
structure Answer where
  respCode : UInt8 := 0x00
  status : StatusCode := (0x00, 0x00, 0x00)
  body : Bytes
  delay : Nat
  body_length : body.length + 4 < 65536

def Answer.frame (a : Answer) : Bytes := answerFrame a.respCode a.status a.body

/-- The port while the reader has `reaction` ready for the next frame. -/
def Port.exec (reaction : Option Answer) (o : SerialOp) (p : Port) :
    Except BridgeError o.Ans × Port :=
  match o with
  | .isOpen => (.ok true, p)
  | .reconnect => (.ok (.ok ()), p)
  | .resetInputBuffer =>
    (.ok (.ok ()), { p with arriving := p.arriving.filter fun x => p.now < x.1 })
  | .write _ =>
    let arriving := match reaction with
      | none => p.arriving
      | some a => p.arriving.orderedInsert (·.1 < ·.1) (p.now + a.delay, a.frame)
    (.ok (.ok ()), { p with arriving })
  | .read size =>
    let deadline := p.now + readTimeout
    let bytes := (p.arriving.filter fun x => x.1 ≤ deadline).flatMap (·.2)
    let later := p.arriving.filter fun x => deadline < x.1
    (.ok (.ok (bytes.take size)),
      { now := deadline
        arriving := if bytes.length ≤ size then later else (deadline, bytes.drop size) :: later })

/-- A message of the POS, and what the reader does with its frame. -/
inductive PosRequest where
  | deduct (m : DeductMessage) (a : Answer)
  | checkBalance (a : Option Answer)

structure Exchange where
  /-- Between the end of the previous request and this one. -/
  gap : Nat
  time : LocalTime
  request : PosRequest

inductive Report where
  | deduct (r : Except BridgeError Reply)
  | balance (r : Except BridgeError String)
deriving DecidableEq, Repr

def Port.wait (p : Port) (gap : Nat) : Port := { p with now := p.now + gap }

def serve (p : Port) (x : Exchange) : Report × Port :=
  match x.request with
  | .deduct m a =>
    let (r, p') := (emoneyDeduct x.time m).run (Port.exec (some a)) (p.wait x.gap)
    (.deduct r, p')
  | .checkBalance a =>
    let (r, p') := (emoneyCheckBalance x.time).run (Port.exec a) (p.wait x.gap)
    (.balance r, p')

/-- The reader answers a deduct within the timeout that the frame carries. -/
def Exchange.Admissible (x : Exchange) : Prop :=
  ∀ m a frame, x.request = .deduct m a → cmdDeduct x.time m.amount 30 = .ok frame →
    a.delay ≤ 1000 * carriedTimeout frame

def ServeStep (p : Port) (x : Exchange) (p' : Port) : Prop := x.Admissible ∧ p' = (serve p x).2

/-- The answer to a deduct arrives while its own request reads, fits the read, and no earlier
answer arrives before it in this time. -/
def Timely (p : Port) (x : Exchange) : Prop :=
  ∀ m a, x.request = .deduct m a → a.delay ≤ readTimeout ∧ a.frame.length ≤ 1024 ∧
    ∀ y ∈ p.arriving, p.now + x.gap < y.1 → y.1 ≤ p.now + x.gap + readTimeout →
      p.now + x.gap + a.delay < y.1

/-- The reply without the bytes that came in. -/
def Reply.outcome : Reply → Reply
  | .failed error _ => .failed error ""
  | .result p => .result { p with rawResponseHex := "" }

section Own
variable {m : DeductMessage} {a : Answer} {p : Port} {x : Exchange}

/-- Bytes after an answer do not change what is reported for it. -/
theorem deductReply_trailing (trailing : Bytes) :
    (deductReply m (a.frame ++ trailing)).map Reply.outcome =
      (deductReply m a.frame).map Reply.outcome := by
  have halone := parseResponse_answer a.respCode a.status [] a.body_length
  rw [List.append_nil] at halone
  have hmore := parseResponse_answer a.respCode a.status trailing a.body_length
  unfold deductReply Answer.frame
  rw [halone, hmore]
  simp only [responseOf]
  rcases parseDeductResponse _ with e | d <;> rfl

/-- The first thing to arrive is read first. -/
theorem read_own {b : Bytes} {later : List (Nat × Bytes)} {t : Nat}
    (ht : t ≤ p.now + readTimeout) (hb : b.length ≤ 1024)
    (hp : p.arriving = (t, b) :: later) (reaction : Option Answer) :
    ∃ trailing p', Port.exec reaction (.read 1024) p = (.ok (.ok (b ++ trailing)), p') := by
  have hbytes : ((p.arriving.filter fun x => x.1 ≤ p.now + readTimeout).flatMap (·.2)).take 1024 =
      b ++ ((later.filter fun x => x.1 ≤ p.now + readTimeout).flatMap (·.2)).take
        (1024 - b.length) := by
    simp [hp, ht, List.take_append, List.take_of_length_le hb]
  have hread : Port.exec reaction (.read 1024) p = (.ok (.ok (((p.arriving.filter fun x =>
    x.1 ≤ p.now + readTimeout).flatMap (·.2)).take 1024)), _) := rfl
  rw [hbytes] at hread
  exact ⟨_, _, hread⟩

/-- A timely answer is the first to arrive after the frame was written. -/
theorem timely_first (h : Timely p x) (hx : x.request = .deduct m a) :
    let q := (p.wait x.gap)
    ∃ later, (q.arriving.filter fun y => q.now < y.1).orderedInsert (·.1 < ·.1)
      (q.now + a.delay, a.frame) = (q.now + a.delay, a.frame) :: later := by
  obtain ⟨hdelay, -, hothers⟩ := h m a hx
  rcases hl : (p.wait x.gap).arriving.filter fun y => (p.wait x.gap).now < y.1 with _ | ⟨y, l⟩
  · exact ⟨[], by simp [hl]⟩
  · have hy : y ∈ (p.wait x.gap).arriving.filter fun y => (p.wait x.gap).now < y.1 := by
      rw [hl]
      exact List.mem_cons_self
    obtain ⟨hmem, hlate⟩ := List.mem_filter.mp hy
    have hlate : p.now + x.gap < y.1 := of_decide_eq_true hlate
    have hfirst : p.now + x.gap + a.delay < y.1 := by
      by_cases hin : y.1 ≤ p.now + x.gap + readTimeout
      · exact hothers y hmem hlate hin
      · omega
    exact ⟨y :: l, by
      simp only [hl]
      exact List.orderedInsert_cons_of_le _ l hfirst⟩

theorem port_answers (reaction : Option Answer) (o : SerialOp) (p : Port) (e : BridgeError)
    (p' : Port) : Port.exec reaction o p ≠ (.error e, p') := by
  cases o <;> nofun

/-- The exchange reads what is first in line after the frame was written. -/
theorem send_reads (frame : Bytes) {b : Bytes} {later : List (Nat × Bytes)} {t : Nat}
    (hfirst : (p.arriving.filter fun y => p.now < y.1).orderedInsert (·.1 < ·.1)
      (p.now + a.delay, a.frame) = (t, b) :: later)
    (ht : t ≤ p.now + readTimeout) (hb : b.length ≤ 1024) :
    ∃ trailing p', (send frame).run (Port.exec (some a)) p = (.ok (b ++ trailing), p') := by
  obtain ⟨trailing, p', hread⟩ := read_own (p := { p with arriving := (t, b) :: later }) ht hb rfl
    (some a)
  refine ⟨trailing, p', ?_⟩
  have hexchange : (exchange frame).run (Port.exec (some a)) p = (.ok (b ++ trailing), p') := by
    unfold exchange resetInputBuffer write read
    simp only [Prog.run_bind, Prog.run_perform, Port.exec, run_orRaise, hfirst]
    simpa only [Port.exec, Prod.mk.injEq, Except.ok.injEq] using hread
  rw [send, openPort, isOpen, Prog.run_bind, Prog.run_bind, Prog.run_perform]
  simp only [Port.exec, if_pos, Prog.run_pure]
  rw [Prog.run_handle _ _ _ fun o p e p' h => (port_answers _ o p e p' h).elim, hexchange]

theorem deductReply_answer : ∃ r, deductReply m a.frame = .ok r := by
  have halone := parseResponse_answer a.respCode a.status [] a.body_length
  rw [List.append_nil] at halone
  unfold deductReply Answer.frame
  rw [halone]
  dsimp only
  split <;> exact ⟨_, rfl⟩

/-- What is reported is what the own answer says. -/
def Report.Tells (r : Report) (m : DeductMessage) (a : Answer) : Prop :=
  ∃ reply own, r = .deduct (.ok reply) ∧ deductReply m a.frame = .ok own ∧
    reply.outcome = own.outcome

theorem serve_tells {frame : Bytes} (h : Timely p x) (hx : x.request = .deduct m a)
    (hframe : cmdDeduct x.time m.amount 30 = .ok frame) : (serve p x).1.Tells m a := by
  obtain ⟨later, hfirst⟩ := timely_first h hx
  obtain ⟨hdelay, hlen, -⟩ := h m a hx
  obtain ⟨trailing, p', hsend⟩ := send_reads frame hfirst
    (Nat.add_le_add_left hdelay _) hlen
  obtain ⟨own, hown⟩ := deductReply_answer (m := m) (a := a)
  have htrail := deductReply_trailing (m := m) (a := a) trailing
  rcases hr : deductReply m (a.frame ++ trailing) with e | reply
  · rw [hr, hown] at htrail
    cases htrail
  · rw [hr, hown] at htrail
    refine ⟨reply, own, ?_, hown, Except.ok.inj htrail⟩
    have hrun : (emoneyDeduct x.time m).run (Port.exec (some a)) (p.wait x.gap) =
        (.ok reply, p') := by
      rw [emoneyDeduct, hframe, Prog.run_bind, run_orOther]
      change (send frame >>= fun raw => orOther (deductReply m raw)).run _ _ = _
      rw [Prog.run_bind, hsend]
      dsimp only
      rw [hr, run_orOther]
      rfl
    unfold serve
    rw [hx]
    dsimp only
    rw [hrun]

end Own

/-- When every answer is timely, each deduct reports the outcome of its own answer. -/
theorem answers_reported {p : Port} {xs : List (Exchange × Port)}
    (h : Path (fun p x p' => ServeStep p x p' ∧ Timely p x) p xs) :
    ∀ pre x p' post m a, xs = pre ++ (x, p') :: post → x.request = .deduct m a →
      (∃ frame, cmdDeduct x.time m.amount 30 = .ok frame) →
      (serve (finish p pre) x).1.Tells m a := by
  rintro pre x p' post m a hxs hx ⟨frame, hframe⟩
  obtain ⟨-, -, htimely⟩ := h.at_step (P := fun _ => True) (fun _ _ _ _ _ => trivial) trivial hxs
  exact serve_tells htimely hx hframe

theorem admissible_of_delay {x : Exchange}
    (h : ∀ m a, x.request = .deduct m a → a.delay ≤ 30000) : x.Admissible := by
  intro m a frame hx hframe
  rw [carriedTimeout_cmdDeduct hframe]
  exact h m a hx

section Window

/-- The body of a deduct from a prepaid card. -/
def cardBody (card : UInt8) (deducted remaining counter : Nat) : Bytes :=
  [0x02] ++ List.replicate 12 0x11 ++ List.replicate 7 0x26 ++ List.replicate 8 card ++
    ofNat 4 deducted ++ ofNat 4 remaining ++ ofNat 4 counter

theorem length_cardBody (card : UInt8) (deducted remaining counter : Nat) :
    (cardBody card deducted remaining counter).length = 40 := by simp [cardBody]

def deductOf (card : UInt8) (amount gap delay : Nat) : Exchange where
  gap := gap
  time := { year := 2026, month := 4, day := 12, hour := 9, minute := 30, second := 0 }
  request := .deduct { amount := .int amount, gateId := "OUT1", gateOutId := 2 }
    { body := cardBody card amount 20000 7, delay := delay
      body_length := by rw [length_cardBody]; decide }

def serveRun (p : Port) (xs : List Exchange) : List (Exchange × Port) :=
  trace (fun p x => (serve p x).2) p xs

/-- The first driver hesitates for a second and a half, the second one does not. -/
def hesitating : List Exchange := [deductOf 0xA1 5000 0 1500, deductOf 0xB2 7000 200 900]

theorem hesitating_path : Path ServeStep {} (serveRun {} hesitating) := by
  refine ⟨⟨admissible_of_delay ?_, rfl⟩, ⟨admissible_of_delay ?_, rfl⟩, trivial⟩ <;>
    rintro _ _ ⟨⟩ <;> decide

def Report.amount : Report → Option Nat
  | .deduct (.ok (.result p)) => some p.deductAmount
  | _ => none

/-- The first deduct is reported as failed, and then as the second driver's payment. -/
theorem answer_swapped :
    Path ServeStep {} (serveRun {} hesitating) ∧
    (serve {} (deductOf 0xA1 5000 0 1500)).1 = .deduct (.ok (.failed "Response too short" "")) ∧
    (serve (serve {} (deductOf 0xA1 5000 0 1500)).2 (deductOf 0xB2 7000 200 900)).1.amount =
      some 5000 :=
  ⟨hesitating_path, by decide, by decide⟩

theorem answers_reported_prompt :
    (serve (serve {} (deductOf 0xA1 5000 0 400)).2 (deductOf 0xB2 7000 200 900)).1.Tells
      { amount := .int 7000, gateId := "OUT1", gateOutId := 2 }
      { body := cardBody 0xB2 7000 20000 7, delay := 900
        body_length := by rw [length_cardBody]; decide } := by
  have hpath : Path (fun p x p' => ServeStep p x p' ∧ Timely p x) {}
      (serveRun {} [deductOf 0xA1 5000 0 400, deductOf 0xB2 7000 200 900]) := by
    refine ⟨⟨⟨admissible_of_delay ?_, rfl⟩, ?_⟩, ⟨⟨admissible_of_delay ?_, rfl⟩, ?_⟩, trivial⟩ <;>
      rintro _ _ ⟨⟩
    · decide
    · refine ⟨by decide, by decide, ?_⟩
      rintro y ⟨⟩
    · decide
    · refine ⟨by decide, by decide, ?_⟩
      decide
  exact answers_reported hpath [_] (deductOf 0xB2 7000 200 900) _ [] _ _ rfl rfl ⟨_, rfl⟩

end Window
end ParkIt.Booth
