import ParkIt.Booth.Server
import ParkIt.Passti.Parsing

/-! A flipped byte in an answer of the reader. -/
namespace ParkIt.Passti

open ByteString

section Checksum
variable {x y : UInt8} {p q : Bytes}

theorem foldl_xor (x : UInt8) (p : Bytes) : p.foldl (· ^^^ ·) x = x ^^^ lrc p := by
  induction p generalizing x with
  | nil => simp [lrc]
  | cons y p ih =>
    have hrest : lrc (y :: p) = y ^^^ lrc p := by
      rw [lrc, List.foldl_cons, UInt8.zero_xor]
      exact ih y
    rw [List.foldl_cons, ih, hrest, UInt8.xor_assoc]

theorem lrc_cons (x : UInt8) (p : Bytes) : lrc (x :: p) = x ^^^ lrc p := by
  rw [lrc, List.foldl_cons, UInt8.zero_xor, foldl_xor]

theorem lrc_append (p q : Bytes) : lrc (p ++ q) = lrc p ^^^ lrc q := by
  rw [lrc, List.foldl_append, foldl_xor]
  rfl

theorem xor_left_cancel {z : UInt8} (h : z ^^^ x = z ^^^ y) : x = y := by
  calc
    x = z ^^^ (z ^^^ x) := by rw [← UInt8.xor_assoc, UInt8.xor_self, UInt8.zero_xor]
    _ = z ^^^ (z ^^^ y) := by rw [h]
    _ = y := by rw [← UInt8.xor_assoc, UInt8.xor_self, UInt8.zero_xor]

/-- The checksum tells one byte from another at the same place. -/
theorem lrc_replaced (h : lrc (p ++ x :: q) = lrc (p ++ y :: q)) : x = y := by
  rw [lrc_append, lrc_append, lrc_cons, lrc_cons] at h
  have hbyte := xor_left_cancel h
  rw [UInt8.xor_comm x, UInt8.xor_comm y] at hbyte
  exact xor_left_cancel hbyte

end Checksum

/-- A complete response frame with nothing behind it. -/
structure WholeFrame (raw : Bytes) (lh ll : UInt8) (payload : Bytes) : Prop where
  raw_eq : raw = stx :: lh :: ll :: (payload ++ [lrc (lh :: ll :: payload)])
  declared : (lh.toNat <<< 8) ||| ll.toNat = payload.length
  long : 2 ≤ payload.length

/-- What the reader sends is a whole frame. -/
theorem wholeFrame_answerFrame {body : Bytes} (respCode : UInt8) (status : StatusCode)
    (h : body.length ≤ 65531) : ∃ lh ll payload, WholeFrame (answerFrame respCode status body) lh ll
      payload := by
  obtain ⟨payload, hp⟩ : ∃ payload, payload =
    respCode :: status.1 :: status.2.1 :: status.2.2 :: body := ⟨_, rfl⟩
  have hlen : payload.length = body.length + 4 := by
    rw [hp]
    rfl
  refine ⟨_, _, payload, answerFrame_eq hp rfl rfl, length_field (by omega), by omega⟩

section Corruption
variable {raw payload : Bytes} {lh ll v : UInt8} {i : Nat}

theorem parse_whole (hn : (lh.toNat <<< 8) ||| ll.toNat = payload.length)
    (h2 : 2 ≤ payload.length) (chk : UInt8) :
    parseResponse (stx :: lh :: ll :: (payload ++ [chk])) =
      if chk ≠ lrc (lh :: ll :: payload) then
        .ok (.error
          { error := "LRC mismatch", raw := hex (stx :: lh :: ll :: (payload ++ [chk]))
            lrc := some (chk, lrc (lh :: ll :: payload)) })
      else payload.head?.elim (.error "index out of range") fun respCode =>
        .ok (.ok (responseOf (stx :: lh :: ll :: (payload ++ [chk])) respCode payload)) := by
  exact parseResponse_declared hn (by simp; omega)

theorem WholeFrame.accepted (h : WholeFrame raw lh ll payload) :
    ∃ r, parseResponse raw = .ok (.ok r) := by
  have hparse := parse_whole h.declared h.long (lrc (lh :: ll :: payload))
  rw [if_neg (by simp), ← h.raw_eq] at hparse
  rcases payload with - | ⟨respCode, rest⟩
  · have hlong := h.long
    simp at hlong
  · exact ⟨_, hparse⟩

theorem refused_first (hv : v ≠ stx) (raw : Bytes) :
    ∃ e, parseResponse (v :: raw) = .ok (.error e) := by
  rw [parseResponse]
  split
  · exact ⟨_, rfl⟩
  · have hfirst : (v :: raw).getD 0 0 ≠ stx := hv
    rw [if_pos hfirst]
    exact ⟨_, rfl⟩

theorem WholeFrame.refused_payload (h : WholeFrame raw lh ll payload) (hi : i < payload.length)
    (hv : v ≠ payload[i]) :
    ∃ e, parseResponse (stx :: lh :: ll :: (payload.set i v ++ [lrc (lh :: ll :: payload)])) =
      .ok (.error e) := by
  have hsum : lrc (lh :: ll :: payload) ≠ lrc (lh :: ll :: payload.set i v) := by
    intro hsame
    have hold : lh :: ll :: payload =
        (lh :: ll :: payload.take i) ++ payload[i] :: payload.drop (i + 1) := by
      rw [List.cons_append, List.cons_append, List.getElem_cons_drop hi, List.take_append_drop]
    have hnew : lh :: ll :: payload.set i v =
        (lh :: ll :: payload.take i) ++ v :: payload.drop (i + 1) := by
      rw [List.set_eq_take_append_cons_drop, if_pos hi]
      rfl
    rw [hold, hnew] at hsame
    exact hv (lrc_replaced hsame).symm
  have hlen : (payload.set i v).length = payload.length := List.length_set
  have hparse := parse_whole (h.declared.trans hlen.symm) (hlen.symm ▸ h.long)
    (lrc (lh :: ll :: payload))
  rw [if_pos hsum] at hparse
  exact ⟨_, hparse⟩

theorem WholeFrame.refused_checksum (h : WholeFrame raw lh ll payload)
    (hv : v ≠ lrc (lh :: ll :: payload)) :
    ∃ e, parseResponse (stx :: lh :: ll :: (payload ++ [v])) = .ok (.error e) := by
  have hparse := parse_whole h.declared h.long v
  rw [if_pos hv] at hparse
  exact ⟨_, hparse⟩

/-- A byte changed outside the length field. -/
theorem WholeFrame.refused (h : WholeFrame raw lh ll payload) (hi : i < raw.length) (h1 : i ≠ 1)
    (h2 : i ≠ 2) (hv : v ≠ raw[i]) : ∃ e, parseResponse (raw.set i v) = .ok (.error e) := by
  obtain rfl := h.raw_eq
  rcases i with - | - | - | i
  · exact refused_first hv _
  · exact (h1 rfl).elim
  · exact (h2 rfl).elim
  · simp only [List.length_cons, List.length_append, List.length_nil] at hi
    simp only [List.getElem_cons_succ] at hv
    simp only [List.set_cons_succ]
    by_cases hpay : i < payload.length
    · rw [List.getElem_append_left hpay] at hv
      rw [List.set_append_left _ _ hpay]
      exact h.refused_payload hpay hv
    · obtain rfl : i = payload.length := by omega
      simp only [List.getElem_concat_length] at hv
      rw [List.set_append_right _ _ (le_refl _), Nat.sub_self, List.set_cons_zero]
      exact h.refused_checksum hv

end Corruption
end ParkIt.Passti

namespace ParkIt.Booth

open ByteString Passti

variable {raw payload : Bytes} {lh ll v : UInt8} {i : Nat}

/-- A whole answer is accepted; with one byte changed outside its length field it is an error
record, and the bridge reports no result from it. -/
theorem corruption_detected (h : WholeFrame raw lh ll payload) :
    (∃ r, parseResponse raw = .ok (.ok r)) ∧
    ∀ (i : Nat) (hi : i < raw.length) (v : UInt8), i ≠ 1 → i ≠ 2 → v ≠ raw[i] →
      ∃ e, parseResponse (raw.set i v) = .ok (.error e) ∧
        ∀ m, deductReply m (raw.set i v) = .ok (.failed e.error e.raw) := by
  refine ⟨h.accepted, ?_⟩
  intro i hi v h1 h2 hv
  obtain ⟨e, he⟩ := h.refused hi h1 h2 hv
  refine ⟨e, he, ?_⟩
  intro m
  rw [deductReply, he]

/-- The shortest answer whose payload has a status: an accepted deduct refused for lack of money. -/
theorem corruption_detected_status :
    ∃ e, parseResponse ([0x02, 0x00, 0x04, 0x00, 0x01, 0x10, 0x04, 0x11].set 6 0x05) =
      .ok (.error e) := by
  have h : WholeFrame [0x02, 0x00, 0x04, 0x00, 0x01, 0x10, 0x04, 0x11] 0x00 0x04
    [0x00, 0x01, 0x10, 0x04] := by constructor <;> decide
  obtain ⟨e, he, -⟩ := (corruption_detected h).2 6 (by decide) 0x05 (by decide) (by decide)
    (by decide)
  exact ⟨e, he⟩

end ParkIt.Booth
