import ParkIt.Booth.Server

/-! How often one message puts its frame on the wire. -/
namespace ParkIt.Booth

open Effects ByteString Passti

/-- The outcomes of the successive calls of each kind, as the environment has them ready. -/
structure Script where
  isOpen : Bool
  reconnect : Nat → Except BridgeError Unit
  reset : Nat → Except BridgeError Unit
  write : Nat → Except BridgeError Unit
  read : Nat → Except BridgeError Bytes

/-- How many calls of each kind were made, and the frames that were written completely. -/
structure Wire where
  reconnects : Nat := 0
  resets : Nat := 0
  writes : Nat := 0
  reads : Nat := 0
  written : List Bytes := []
deriving DecidableEq, Repr

/-- A write transmits the whole frame or raises. -/
def Script.exec (s : Script) (o : SerialOp) (w : Wire) : Except BridgeError o.Ans × Wire :=
  match o with
  | .isOpen => (.ok s.isOpen, w)
  | .reconnect => (.ok (s.reconnect w.reconnects), { w with reconnects := w.reconnects + 1 })
  | .resetInputBuffer => (.ok (s.reset w.resets), { w with resets := w.resets + 1 })
  | .write data =>
    let w' := { w with writes := w.writes + 1 }
    match s.write w.writes with
    | .ok () => (.ok (.ok ()), { w' with written := w.written ++ [data] })
    | .error e => (.ok (.error e), w')
  | .read _ => (.ok (s.read w.reads), { w with reads := w.reads + 1 })

variable {s : Script} {w : Wire} {data : Bytes}

/-- The frame went out, its answer could not be read, and the reopened port took it once more. -/
structure Resent (s : Script) : Prop where
  opened : s.isOpen = true ∨ s.reconnect 0 = .ok ()
  reset : s.reset 0 = .ok ()
  sent : s.write 0 = .ok ()
  unread : ∃ e, s.read 0 = .error e ∧ e.isSerial = true
  reopened : s.reconnect (if s.isOpen then 0 else 1) = .ok ()
  resetAgain : s.reset 1 = .ok ()
  sentAgain : s.write 1 = .ok ()

theorem exec_answers (o : SerialOp) (w : Wire) (e : BridgeError) (w' : Wire) :
    s.exec o w ≠ (.error e, w') := by
  cases o with
  | write data =>
    simp only [Script.exec]
    split <;> nofun
  | isOpen | reconnect | resetInputBuffer | read _ => nofun

theorem run_reconnect : reconnect.run s.exec w =
    (s.reconnect w.reconnects, { w with reconnects := w.reconnects + 1 }) := by
  rw [reconnect, Prog.run_bind, Prog.run_perform]
  exact run_orRaise _ _ _

theorem run_exchange : (exchange data).run s.exec w =
    match s.reset w.resets, s.write w.writes with
    | .error e, _ => (.error e, { w with resets := w.resets + 1 })
    | .ok (), .error e => (.error e, { w with resets := w.resets + 1, writes := w.writes + 1 })
    | .ok (), .ok () => (s.read w.reads,
      { w with resets := w.resets + 1, writes := w.writes + 1, reads := w.reads + 1
               written := w.written ++ [data] }) := by
  unfold exchange resetInputBuffer write read
  rcases hr : s.reset w.resets with e | ⟨⟩
  · simp [Prog.run_bind, Script.exec, hr]
  · rcases hw : s.write w.writes with e | ⟨⟩ <;> simp [Prog.run_bind, Script.exec, hr, hw]

theorem written_exchange : ((exchange data).run s.exec w).2.written =
    if s.reset w.resets = .ok () ∧ s.write w.writes = .ok () then w.written ++ [data]
    else w.written := by
  rw [run_exchange]
  rcases s.reset w.resets with e | ⟨⟩ <;> rcases s.write w.writes with e' | ⟨⟩ <;> simp

theorem written_retrying (data : Bytes) (e : BridgeError) :
    ((retrying data e).run s.exec w).2.written =
      if e.isSerial = true ∧ s.reconnect w.reconnects = .ok () ∧
        s.reset w.resets = .ok () ∧ s.write w.writes = .ok () then w.written ++ [data]
      else w.written := by
  cases e with
  | other msg => simp [retrying, BridgeError.isSerial]
  | serial msg =>
    rw [retrying, Prog.run_bind, run_reconnect]
    rcases hr : s.reconnect w.reconnects with e' | ⟨⟩
    · simp
    · dsimp only
      rw [written_exchange]
      simp [BridgeError.isSerial]

/-- The exchange over an open port, with its retry. -/
theorem written_attempts (n : Nat) :
    (((exchange data).handle (retrying data)).run s.exec
      { reconnects := n }).2.written.length ≤ 1 ↔
      ¬ (s.reset 0 = .ok () ∧ s.write 0 = .ok () ∧ (∃ e, s.read 0 = .error e ∧ e.isSerial = true) ∧
        s.reconnect n = .ok () ∧ s.reset 1 = .ok () ∧ s.write 1 = .ok ()) := by
  rw [Prog.run_handle _ _ _ fun o w e w' h => (exec_answers o w e w' h).elim, run_exchange]
  rcases h₀ : s.reset 0 with e | ⟨⟩
  · -- nothing was sent before the retry
    have hlen := written_retrying data (s := s) (w := { reconnects := n, resets := 1 }) e
    simp only [hlen]
    split <;> simp
  rcases h₁ : s.write 0 with e | ⟨⟩
  · have hlen := written_retrying data (s := s)
      (w := { reconnects := n, resets := 1, writes := 1 }) e
    simp only [hlen]
    split <;> simp
  rcases h₂ : s.read 0 with e | b
  · have hlen := written_retrying data (s := s)
      (w := { reconnects := n, resets := 1, writes := 1, reads := 1, written := [data] }) e
    simp only [List.nil_append, zero_add, hlen]
    split
    · simp_all
    · simp_all
  · simp

/-- The opening of a closed port writes nothing; it may use up the first reopening. -/
theorem run_openPort : openPort.run s.exec {} =
    if s.isOpen then (.ok (), {}) else (s.reconnect 0, { reconnects := 1 }) := by
  rw [openPort, Prog.run_bind, isOpen, Prog.run_perform]
  rcases h : s.isOpen
  · simp [Script.exec, h, run_reconnect]
  · simp [Script.exec, h]

theorem written_send : ((send data).run s.exec {}).2.written.length ≤ 1 ↔ ¬ Resent s := by
  rw [send, Prog.run_bind, run_openPort]
  rcases ho : s.isOpen
  · rcases hr : s.reconnect 0 with e | ⟨⟩
    · simp only [Bool.false_eq_true, ↓reduceIte]
      refine iff_of_true (by simp) fun h => ?_
      rcases h.opened with h | h
      · exact absurd (ho.symm.trans h) (by nofun)
      · exact absurd (hr.symm.trans h) (by nofun)
    · simp only [Bool.false_eq_true, ↓reduceIte]
      rw [written_attempts, not_iff_not]
      constructor
      · rintro ⟨h₁, h₂, h₃, h₄, h₅, h₆⟩
        exact ⟨Or.inr hr, h₁, h₂, h₃, by rw [ho]; exact h₄, h₅, h₆⟩
      · rintro ⟨-, h₁, h₂, h₃, h₄, h₅, h₆⟩
        rw [ho] at h₄
        exact ⟨h₁, h₂, h₃, h₄, h₅, h₆⟩
  · simp only [↓reduceIte]
    rw [written_attempts, not_iff_not]
    constructor
    · rintro ⟨h₁, h₂, h₃, h₄, h₅, h₆⟩
      exact ⟨Or.inl ho, h₁, h₂, h₃, by rw [ho]; exact h₄, h₅, h₆⟩
    · rintro ⟨-, h₁, h₂, h₃, h₄, h₅, h₆⟩
      rw [ho] at h₄
      exact ⟨h₁, h₂, h₃, h₄, h₅, h₆⟩

/-- The amount fits the four bytes of the frame. -/
def Encodable (amount : Amount) : Prop :=
  ∃ n : Int, amount = .int n ∧ 0 ≤ n ∧ n < 4294967296

theorem cmdDeduct_encodable (now : LocalTime) {amount : Amount} (h : Encodable amount) :
    ∃ frame, cmdDeduct now amount 30 = .ok frame := by
  obtain ⟨n, rfl, h0, hn⟩ := h
  have hbytes : Amount.toBytes (.int n) = .ok (ofNat 4 n.toNat) := by
    rw [Amount.toBytes, if_neg (by omega), if_neg (by omega)]
  exact ⟨_, by rw [cmdDeduct, hbytes]; rfl⟩

theorem cmdDeduct_not_encodable (now : LocalTime) {amount : Amount} (h : ¬ Encodable amount) :
    ∃ msg, cmdDeduct now amount 30 = .error msg := by
  cases amount with
  | other t => exact ⟨_, rfl⟩
  | int n =>
    have hbytes : ∃ msg, Amount.toBytes (.int n) = .error msg := by
      unfold Amount.toBytes
      dsimp only
      split
      · exact ⟨_, rfl⟩
      · split
        · exact ⟨_, rfl⟩
        · exact (h ⟨n, rfl, by omega, by omega⟩).elim
    obtain ⟨msg, hmsg⟩ := hbytes
    exact ⟨msg, by rw [cmdDeduct, hmsg]; rfl⟩

/-- The port is open and the deduct goes out, but the reader is unplugged before it answers. -/
def unplugged : Script where
  isOpen := true
  reconnect _ := .ok ()
  reset _ := .ok ()
  write _ := .ok ()
  read n := if n = 0 then .error (.serial "device disconnected") else .ok []

/-- One deduct message puts its frame on the wire at most once, except when the answer to a frame
that went out cannot be read and the reopened port takes the frame again. -/
theorem deduct_written_once_iff (now : LocalTime) (m : DeductMessage) (s : Script) :
    ((emoneyDeduct now m).run s.exec {}).2.written.length ≤ 1 ↔
      ¬ (Encodable m.amount ∧ Resent s) := by
  by_cases he : Encodable m.amount
  · obtain ⟨frame, hframe⟩ := cmdDeduct_encodable now he
    have hwritten : ((emoneyDeduct now m).run s.exec {}).2.written =
        ((send frame).run s.exec {}).2.written := by
      rw [emoneyDeduct, hframe, Prog.run_bind, run_orOther]
      change ((send frame >>= fun raw => orOther (deductReply m raw)).run s.exec {}).2.written = _
      rw [Prog.run_bind]
      rcases (send frame).run s.exec {} with ⟨e | raw, w⟩
      · rfl
      · dsimp only
        rw [run_orOther]
    rw [hwritten, written_send]
    simp [he]
  · obtain ⟨msg, hmsg⟩ := cmdDeduct_not_encodable now he
    rw [emoneyDeduct, hmsg]
    simp [he, orOther]

theorem deduct_written_twice :
    ((emoneyDeduct { year := 2026, month := 4, day := 12, hour := 9, minute := 30, second := 0 }
      { amount := .int 5000, gateId := "OUT1", gateOutId := 2 }).run unplugged.exec {}).2.writes = 2 ∧
    ((emoneyDeduct { year := 2026, month := 4, day := 12, hour := 9, minute := 30, second := 0 }
      { amount := .int 5000, gateId := "OUT1", gateOutId := 2 }).run
        unplugged.exec {}).2.written.map carriedAmount = [5000, 5000] := by decide

end ParkIt.Booth
