import ParkIt.Clock

/-! Names and contents of the settlement files. -/
namespace ParkIt.Settlement

/-- `s.zfill(width)`; a sign stays in front of the zeros. -/
def zfill (width : Nat) (s : String) : String :=
  let zeros := List.replicate (width - s.length) '0'
  match s.toList with
  | '+' :: cs => String.ofList ('+' :: (zeros ++ cs))
  | '-' :: cs => String.ofList ('-' :: (zeros ++ cs))
  | cs => String.ofList (zeros ++ cs)

/-- A number of at least `width` digits. -/
def padded (width n : Nat) : String := zfill width (toString n)

theorem toList_zfill_digits (width : Nat) {s : String} (h : ∀ c ∈ s.toList, c.isDigit) :
    (zfill width s).toList = List.replicate (width - s.length) '0' ++ s.toList := by
  unfold zfill
  dsimp only
  split
  · rename_i cs hcs
    have := h '+' (by rw [hcs]; exact List.mem_cons_self)
    exact absurd this (by decide)
  · rename_i cs hcs
    have := h '-' (by rw [hcs]; exact List.mem_cons_self)
    exact absurd this (by decide)
  · exact String.toList_ofList

theorem toList_padded (width n : Nat) :
    (padded width n).toList =
      List.replicate (width - (Nat.toDigits 10 n).length) '0' ++ Nat.toDigits 10 n := by
  have hdigits : (toString n).toList = Nat.toDigits 10 n := Nat.toList_repr
  unfold padded
  rw [toList_zfill_digits width fun c hc => ?_, hdigits, ← String.length_toList, hdigits]
  rw [hdigits] at hc
  exact Nat.isDigit_of_mem_toDigits (by decide) (by decide) hc

theorem ofDigitChars_padded (width n : Nat) :
    Nat.ofDigitChars 10 (padded width n).toList 0 = n := by
  rw [toList_padded, Nat.ofDigitChars_append, Nat.ofDigitChars_replicate_zero, Nat.mul_zero,
    Nat.ofDigitChars_ten_toDigits]

theorem padded_injective {width : Nat} : Function.Injective (padded width) := by
  intro a b h
  rw [← ofDigitChars_padded width a, ← ofDigitChars_padded width b, h]

theorem isDigit_padded {width n : Nat} {c : Char}
    (h : c ∈ (padded width n).toList) : c.isDigit = true := by
  rw [toList_padded, List.mem_append] at h
  rcases h with h | h
  · rw [List.eq_of_mem_replicate h]
    rfl
  · exact Nat.isDigit_of_mem_toDigits (by decide) (by decide) h

@[simp] theorem length_zfill (width : Nat) (s : String) :
    (zfill width s).length = max width s.length := by
  unfold zfill
  dsimp only
  rw [← String.length_toList (s := s)]
  split
  case h_1 cs hcs =>
    rw [hcs, String.length_ofList]
    simp only [List.length_cons, List.length_append, List.length_replicate]
    omega
  case h_2 cs hcs =>
    rw [hcs, String.length_ofList]
    simp only [List.length_cons, List.length_append, List.length_replicate]
    omega
  case h_3 =>
    rw [String.length_ofList, List.length_append, List.length_replicate]
    omega

theorem length_padded_eq_iff {width n : Nat} (hw : 0 < width) :
    (padded width n).length = width ↔ n < 10 ^ width := by
  have hdigits : (toString n).length = (Nat.toDigits 10 n).length := by
    rw [← String.length_toList]
    exact congrArg List.length Nat.toList_repr
  rw [padded, length_zfill, hdigits, ← Nat.length_toDigits_le_iff (by decide) hw]
  omega

theorem length_padded {width n : Nat} (hn : n < 10 ^ width) (hw : 0 < width) :
    (padded width n).length = width :=
  (length_padded_eq_iff hw).mpr hn

/-- `strftime("%Y%m%d")`. -/
def datePart (t : LocalTime) : String := padded 4 t.year ++ padded 2 t.month ++ padded 2 t.day

def generateFilename (settlementDatetime : LocalTime) (mid tid : String) (batchNumber : Nat) :
    String :=
  datePart settlementDatetime ++ padded 2 settlementDatetime.hour ++
  padded 2 settlementDatetime.minute ++ padded 2 settlementDatetime.second ++
  zfill 16 mid ++ zfill 8 tid ++ "01" ++ padded 3 batchNumber ++ ".txt"

/-- Upper case of one character, as far as it is ASCII text: `ı`, `ſ`, `ß` and the Latin ligatures
get there from outside; no other character from outside does, and it is left as it is. -/
def upperChar (c : Char) : List Char :=
  if c = 'ı' then ['I']
  else if c = 'ſ' then ['S']
  else if c = 'ß' then ['S', 'S']
  else if c = 'ﬀ' then ['F', 'F']
  else if c = 'ﬁ' then ['F', 'I']
  else if c = 'ﬂ' then ['F', 'L']
  else if c = 'ﬃ' then ['F', 'F', 'I']
  else if c = 'ﬄ' then ['F', 'F', 'L']
  else if c = 'ﬅ' ∨ c = 'ﬆ' then ['S', 'T']
  else [c.toUpper]

/-- The characters that are not their own upper case. -/
def lowerChars : List Char := "ıſßﬀﬁﬂﬃﬄﬅﬆabcdefghijklmnopqrstuvwxyz".toList

theorem upperChar_eq_self {c : Char} (h : c ∉ lowerChars) : upperChar c = [c] := by
  have hletter : ¬ (97 ≤ c.toNat ∧ c.toNat ≤ 122) := by
    intro hc
    have hall : ∀ n : Fin 26, Char.ofNat (97 + n.val) ∈ lowerChars := by decide
    have hmem := hall ⟨c.toNat - 97, by omega⟩
    rw [Nat.add_sub_cancel' hc.1, Char.ofNat_toNat] at hmem
    exact h hmem
  have hsame : c.toUpper = c := dif_neg hletter
  have hne : ∀ d ∈ lowerChars, c ≠ d := by
    rintro d hd rfl
    exact h hd
  unfold upperChar
  rw [if_neg (hne _ (by decide)), if_neg (hne _ (by decide)), if_neg (hne _ (by decide)),
    if_neg (hne _ (by decide)), if_neg (hne _ (by decide)), if_neg (hne _ (by decide)),
    if_neg (hne _ (by decide)), if_neg (hne _ (by decide)),
    if_neg (not_or.mpr ⟨hne _ (by decide), hne _ (by decide)⟩), hsame]

/-- `s.upper()`. -/
def upper (s : String) : String := String.ofList (s.toList.flatMap upperChar)

/-- What `open(path, "w", encoding="ascii")` can write. -/
def isAscii (s : String) : Bool := s.toList.all fun c => decide (c.toNat < 128)

def buildSettlementContent (payloads : List String) (totalAmount : Int) : Except String String :=
  if 999 < payloads.length then
    .error (s!"Multibank v1.3 §I: max 999 transactions per file, got {payloads.length}. " ++
      "Caller must split into multiple batches.")
  else if totalAmount < 0 ∨ 9999999999 < totalAmount then
    .error s!"Total amount {totalAmount} out of range for 10-digit field."
  else
    .ok (padded 3 payloads.length ++ padded 10 totalAmount.toNat ++ "\n" ++
      String.join (payloads.map fun p => upper p ++ "\n"))

example : generateFilename ⟨2026, 4, 27, 2, 0, 0⟩ "123456" "789" 1 =
    "20260427020000000000000012345600000789" ++ "01001.txt" := by decide

example : buildSettlementContent ["01ab", ""] 15000 = .ok "0020000015000\n01AB\n\n" := by decide

end ParkIt.Settlement
