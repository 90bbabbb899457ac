import Mathlib.Data.List.Basic
import ParkIt.Booth.Retry

/-! What a reader makes of a deduct frame. -/
namespace ParkIt.Booth

open Effects ByteString Passti

section Decoder

/-- A byte of two decimal digits. -/
def digitPair (x : UInt8) : Option Nat :=
  if x.toNat / 16 < 10 ∧ x.toNat % 16 < 10 then some (10 * (x.toNat / 16) + x.toNat % 16) else none

def readBcd (b : Bytes) : Option Nat :=
  b.foldlM (fun n x => (digitPair x).map (100 * n + ·)) 0

structure DeductRequest where
  now : LocalTime
  amount : Nat
  timeout : Nat
deriving DecidableEq

/-- The deduct command of the reader's protocol: date, time, amount and waiting timeout, in a frame
whose length field counts the payload and whose bytes after STX cancel out. -/
def readDeduct (frame : Bytes) : Option DeductRequest :=
  let count := toNat (slice 1 3 frame)
  let payload := slice 3 (3 + count) frame
  if frame.head? = some 0x02 ∧ frame.length = 3 + count + 1 ∧ lrc (frame.drop 1) = 0 ∧
    payload.length = 16 ∧ payload.take 3 = [0xEF, 0x01, 0x03]
  then do
    let day ← readBcd (slice 3 4 payload)
    let month ← readBcd (slice 4 5 payload)
    let year ← readBcd (slice 5 7 payload)
    let hour ← readBcd (slice 7 8 payload)
    let minute ← readBcd (slice 8 9 payload)
    let second ← readBcd (slice 9 10 payload)
    let timeout ← readBcd (slice 14 16 payload)
    pure ⟨⟨year, month, day, hour, minute, second⟩, toNat (slice 10 14 payload), timeout⟩
  else none

end Decoder

/-- A clock reading whose year has four digits. -/
structure Proper (t : LocalTime) : Prop where
  year : 1000 ≤ t.year ∧ t.year ≤ 9999
  month : t.month ≤ 12
  day : t.day ≤ 31
  hour : t.hour < 24
  minute : t.minute < 60
  second : t.second < 60

/-- The numbers that a deduct frame has room for. -/
def FitsFrame (amount timeout : Int) : Prop :=
  (0 ≤ amount ∧ amount < 4294967296) ∧ 0 ≤ timeout ∧ timeout ≤ 9999

instance (amount timeout : Int) : Decidable (FitsFrame amount timeout) :=
  inferInstanceAs (Decidable (_ ∧ _))

section Digits
variable {n : Nat}

/-- Two digits in one byte. -/
def pairByte (n : Nat) : UInt8 := UInt8.ofNat (16 * (n / 10) + n % 10)

theorem digitPair_pairByte (h : n < 100) : digitPair (pairByte n) = some n := by
  have hbyte : (pairByte n).toNat = 16 * (n / 10) + n % 10 := by
    rw [pairByte, UInt8.toNat_ofNat']
    omega
  have hhigh : (16 * (n / 10) + n % 10) / 16 = n / 10 := by omega
  have hlow : (16 * (n / 10) + n % 10) % 16 = n % 10 := by omega
  rw [digitPair, hbyte, hhigh, hlow, if_pos (by omega)]
  congr 1
  omega

theorem toBcd_two (h : n < 100) : toBcd (decimal 2 n) = [pairByte n] := by
  have hhigh : n / 10 % 10 = n / 10 := by omega
  simp [toBcd, toBcd.pairs, decimal, pairByte, hhigh]

theorem toBcd_four (h : n < 10000) :
    toBcd (decimal 4 n) = [pairByte (n / 100), pairByte (n % 100)] := by
  have hhigh : 16 * (n / 10 / 10 / 10 % 10) + n / 10 / 10 % 10 =
      16 * (n / 100 / 10) + n / 100 % 10 := by omega
  have hlow : 16 * (n / 10 % 10) + n % 10 = 16 * (n % 100 / 10) + n % 100 % 10 := by omega
  rw [show decimal 4 n = [n / 10 / 10 / 10 % 10, n / 10 / 10 % 10, n / 10 % 10, n % 10] from rfl,
    toBcd, if_neg (by simp), toBcd.pairs, toBcd.pairs, toBcd.pairs, hhigh, hlow]
  · rfl
  · intro a b ds hds
    cases hds

theorem readBcd_two (h : n < 100) : readBcd [pairByte n] = some n := by
  simp [readBcd, digitPair_pairByte h]

theorem readBcd_four (h : n < 10000) :
    readBcd [pairByte (n / 100), pairByte (n % 100)] = some n := by
  have hhigh : n / 100 < 100 := by omega
  have hlow : n % 100 < 100 := by omega
  simp [readBcd, digitPair_pairByte hhigh, digitPair_pairByte hlow]
  omega

theorem pairs_append {ds es : List Nat} (hd : ds.length % 2 = 0) :
    toBcd.pairs (ds ++ es) = toBcd.pairs ds ++ toBcd.pairs es := by
  induction ds using toBcd.pairs.induct with
  | case1 a b ds ih =>
    have hrest : ds.length % 2 = 0 := by
      simp only [List.length_cons] at hd
      omega
    simp only [List.cons_append, toBcd.pairs, ih hrest]
  | case2 ds hne =>
    rcases ds with - | ⟨a, - | ⟨b, ds⟩⟩
    · rfl
    · simp at hd
    · exact (hne a b ds rfl).elim

theorem toBcd_append {ds es : List Nat} (hd : ds.length % 2 = 0) (he : es.length % 2 = 0) :
    toBcd (ds ++ es) = toBcd ds ++ toBcd es := by
  have hsum : (ds ++ es).length % 2 = 0 := by
    rw [List.length_append]
    omega
  rw [toBcd, toBcd, toBcd, if_neg (by omega), if_neg (by omega), if_neg (by omega),
    pairs_append hd]

end Digits

section Frame
variable {now : LocalTime} {amount timeout : Int}

theorem nowBcd_eq (h : Proper now) :
    nowBcd now = [pairByte now.day, pairByte now.month, pairByte (now.year / 100),
      pairByte (now.year % 100), pairByte now.hour, pairByte now.minute, pairByte now.second] := by
  have hd := h.day
  have hm := h.month
  have hy := h.year
  have hh := h.hour
  have hi := h.minute
  have hs := h.second
  rw [nowBcd, toBcd_append (by simp) (by simp), toBcd_append (by simp) (by simp),
    toBcd_append (by simp) (by simp), toBcd_append (by simp) (by simp), toBcd_two (by omega),
    toBcd_two (by omega), toBcd_four (by omega), toBcd_two (by omega), toBcd_two (by omega),
    toBcd_two (by omega)]
  rfl

theorem lrc_append_self (data : Bytes) : lrc (data ++ [lrc data]) = 0 := by
  simp [lrc]

/-- The decoder on a frame around sixteen bytes of payload. -/
theorem readDeduct_frame {t : LocalTime} {n : Nat} {d m c y h i s b₃ b₂ b₁ b₀ t₁ t₀ : UInt8}
    (hd : readBcd [d] = some t.day) (hm : readBcd [m] = some t.month)
    (hy : readBcd [c, y] = some t.year) (hh : readBcd [h] = some t.hour)
    (hi : readBcd [i] = some t.minute) (hs : readBcd [s] = some t.second)
    (ht : readBcd [t₁, t₀] = some n) :
    readDeduct (buildFrame 0x03 [d, m, c, y, h, i, s, b₃, b₂, b₁, b₀, t₁, t₀]) =
      some ⟨t, toNat [b₃, b₂, b₁, b₀], n⟩ := by
  have hlrc := lrc_append_self
    [0x00, 0x10, 0xEF, 0x01, 0x03, d, m, c, y, h, i, s, b₃, b₂, b₁, b₀, t₁, t₀]
  have hcount : toNat [0x00, 0x10] = 16 := rfl
  obtain ⟨chk, hchk⟩ : ∃ chk, chk =
    lrc [0x00, 0x10, 0xEF, 0x01, 0x03, d, m, c, y, h, i, s, b₃, b₂, b₁, b₀, t₁, t₀] := ⟨_, rfl⟩
  rw [← hchk] at hlrc
  have hframe : buildFrame 0x03 [d, m, c, y, h, i, s, b₃, b₂, b₁, b₀, t₁, t₀] =
      [0x02, 0x00, 0x10, 0xEF, 0x01, 0x03, d, m, c, y, h, i, s, b₃, b₂, b₁, b₀, t₁, t₀, chk] := by
    rw [hchk]
    simp [buildFrame, stx]
  rw [hframe, readDeduct]
  simp [slice, hcount, hd, hm, hy, hh, hi, hs, ht]
  exact hlrc

theorem readDeduct_cmdDeduct (hnow : Proper now) (h : FitsFrame amount timeout) :
    ∃ frame, cmdDeduct now (.int amount) timeout = .ok frame ∧
      readDeduct frame = some ⟨now, amount.toNat, timeout.toNat⟩ := by
  obtain ⟨⟨ha0, ha⟩, ht0, ht⟩ := h
  have hbytes : Amount.toBytes (.int amount) = .ok (ofNat 4 amount.toNat) := by
    rw [Amount.toBytes, if_neg (by omega), if_neg (by omega)]
  have htimeout : bcdTimeout timeout =
      .ok [pairByte (timeout.toNat / 100), pairByte (timeout.toNat % 100)] := by
    rw [bcdTimeout, if_pos ⟨ht0, ht⟩, toBcd_four (by omega)]
  have hnumber : toNat (ofNat 4 amount.toNat) = amount.toNat := toNat_ofNat (by omega)
  have hlen : (ofNat 4 amount.toNat).length = 4 := length_ofNat 4 _
  generalize ofNat 4 amount.toNat = bytes at hbytes hnumber hlen
  obtain ⟨b₃, b₂, b₁, b₀, rfl⟩ := List.length_eq_four.mp hlen
  refine ⟨_, by rw [cmdDeduct, hbytes, htimeout]; rfl, ?_⟩
  have hd := hnow.day
  have hm := hnow.month
  have hy := hnow.year
  have hh := hnow.hour
  have hi := hnow.minute
  have hs := hnow.second
  rw [nowBcd_eq hnow, ← hnumber]
  exact readDeduct_frame (readBcd_two (by omega)) (readBcd_two (by omega)) (readBcd_four (by omega))
    (readBcd_two (by omega)) (readBcd_two (by omega)) (readBcd_two (by omega))
    (readBcd_four (by omega))

theorem cmdDeduct_misfit (now : LocalTime) (h : ¬ FitsFrame amount timeout) :
    ∃ e, cmdDeduct now (.int amount) timeout = .error e := by
  rw [cmdDeduct]
  rcases ha : Amount.toBytes (.int amount) with e | bytes
  · exact ⟨e, rfl⟩
  · have hfits : 0 ≤ amount ∧ amount < 4294967296 := by
      simp only [Amount.toBytes] at ha
      split at ha
      · cases ha
      · split at ha
        · cases ha
        · omega
    have hlong : ¬ (0 ≤ timeout ∧ timeout ≤ 9999) := fun ht => h ⟨hfits, ht⟩
    rw [bcdTimeout, if_neg hlong]
    exact ⟨_, rfl⟩

/-- A command that cannot be built leaves the serial line alone. -/
theorem run_emoneyDeduct_misfit {m : DeductMessage} {e : String} (s : Script)
    (h : cmdDeduct now m.amount 30 = .error e) : ((emoneyDeduct now m).run s.exec {}).2 = {} := by
  rw [emoneyDeduct, h, Prog.run_bind, run_orOther]
  rfl

theorem cmdDeduct_injective {now' : LocalTime} {amount' timeout' : Int} {frame : Bytes}
    (hnow : Proper now) (hnow' : Proper now')
    (h : cmdDeduct now (.int amount) timeout = .ok frame)
    (h' : cmdDeduct now' (.int amount') timeout' = .ok frame) :
    now = now' ∧ amount = amount' ∧ timeout = timeout' := by
  have fits : ∀ {t a s}, cmdDeduct t (.int a) s = .ok frame → FitsFrame a s := by
    intro t a s hframe
    by_contra hmisfit
    obtain ⟨e, he⟩ := cmdDeduct_misfit t hmisfit
    rw [he] at hframe
    cases hframe
  have hfits := fits h
  have hfits' := fits h'
  obtain ⟨f, hf, hread⟩ := readDeduct_cmdDeduct hnow hfits
  obtain ⟨f', hf', hread'⟩ := readDeduct_cmdDeduct hnow' hfits'
  obtain rfl : frame = f := Except.ok.inj (h.symm.trans hf)
  obtain rfl : frame = f' := Except.ok.inj (h'.symm.trans hf')
  obtain ⟨hn, ha, ht⟩ := DeductRequest.mk.inj (Option.some.inj (hread.symm.trans hread'))
  obtain ⟨⟨ha0, -⟩, ht0, -⟩ := hfits
  obtain ⟨⟨ha0', -⟩, ht0', -⟩ := hfits'
  exact ⟨hn, by omega, by omega⟩

/-- A deduct command exists exactly for the numbers that fit, an independent reader finds in it
what was asked for, and it asks for nothing else; without a command nothing is sent. -/
theorem cmdDeduct_spec (hnow : Proper now) (amount timeout : Int) :
    (if FitsFrame amount timeout then
      ∃ frame, cmdDeduct now (.int amount) timeout = .ok frame ∧
        readDeduct frame = some ⟨now, amount.toNat, timeout.toNat⟩
    else
      (∃ e, cmdDeduct now (.int amount) timeout = .error e) ∧
      (timeout = 30 → ∀ (m : DeductMessage) (s : Script), m.amount = .int amount →
        ((emoneyDeduct now m).run s.exec {}).2 = {})) ∧
    ∀ now' amount' timeout' frame, Proper now' →
      cmdDeduct now (.int amount) timeout = .ok frame →
      cmdDeduct now' (.int amount') timeout' = .ok frame →
      now = now' ∧ amount = amount' ∧ timeout = timeout' := by
  constructor
  · split
    case isTrue hfits => exact readDeduct_cmdDeduct hnow hfits
    case isFalse hmisfit =>
      obtain ⟨e, he⟩ := cmdDeduct_misfit now hmisfit
      refine ⟨⟨e, he⟩, ?_⟩
      rintro rfl m s hm
      exact run_emoneyDeduct_misfit s (by rw [hm, he])
  · intro now' amount' timeout' frame hnow' h h'
    exact cmdDeduct_injective hnow hnow' h h'

/-- 4295032833 rupiah does not fit, 65537 does. -/
theorem cmdDeduct_spec_overflow :
    ∃ now : LocalTime, (∃ e, cmdDeduct now (.int 4295032833) 30 = .error e) ∧
      ∃ frame, cmdDeduct now (.int 65537) 30 = .ok frame ∧
        readDeduct frame = some ⟨now, 65537, 30⟩ := by
  have hnow : Proper ⟨2026, 4, 12, 9, 30, 59⟩ := by constructor <;> decide
  exact ⟨⟨2026, 4, 12, 9, 30, 59⟩, (cmdDeduct_spec hnow 4295032833 30).1.1,
    (cmdDeduct_spec hnow 65537 30).1⟩

end Frame
end ParkIt.Booth
