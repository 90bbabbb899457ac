import ParkIt.Lib.Framing
import ParkIt.Settlement.Worker
import Mathlib.Algebra.Order.BigOperators.Group.List

/-! The bank's format of a settlement file, and when the files of the job are in it. -/
namespace ParkIt.Settlement

section Format

def isHexDigit (c : Char) : Bool := "0123456789ABCDEFabcdef".toList.contains c

/-- Date, MID, TID, version and batch number of fixed widths. -/
def Layout (name : String) : Prop :=
  ∃ date mid tid batch : List Char,
    name.toList = date ++ mid ++ tid ++ "01".toList ++ batch ++ ".txt".toList ∧
    date.length = 14 ∧ mid.length = 16 ∧ tid.length = 8 ∧ batch.length = 3 ∧
    ∀ c ∈ date ++ batch, c.isDigit

/-- A file as the format has it. -/
structure BankFile where
  count : Nat
  total : Nat
  payloads : List String
  count_ok : count < 10 ^ 3
  total_ok : total < 10 ^ 10
  counted : payloads.length = count
  hex : ∀ p ∈ payloads, p ≠ "" ∧ ∀ c ∈ p.toList, isHexDigit c

/-- A header of three and ten digits, and a line for each payload. -/
def BankFile.text (f : BankFile) : String :=
  padded 3 f.count ++ padded 10 f.total ++ "\n" ++ String.join (f.payloads.map (· ++ "\n"))

theorem lines_injective {ps qs : List String} (hp : ∀ p ∈ ps, '\n' ∉ p.toList)
    (hq : ∀ q ∈ qs, '\n' ∉ q.toList)
    (h : ps.flatMap (fun p => p.toList ++ ['\n']) = qs.flatMap (fun q => q.toList ++ ['\n'])) :
    ps = qs := by
  induction ps generalizing qs with
  | nil =>
    rcases qs with - | ⟨q, qs⟩
    · rfl
    · exact absurd (congrArg List.length h) (by simp)
  | cons p ps ih =>
    rcases qs with - | ⟨q, qs⟩
    · exact absurd (congrArg List.length h) (by simp)
    · simp only [List.flatMap_cons, List.append_assoc, List.singleton_append] at h
      obtain ⟨hhead, htail⟩ := Framing.split_unique (hp p List.mem_cons_self)
        (hq q List.mem_cons_self) h
      rw [String.toList_inj.mp hhead, ih (fun p h => hp p (List.mem_cons_of_mem _ h))
        (fun q h => hq q (List.mem_cons_of_mem _ h)) htail]

theorem BankFile.one_line (f : BankFile) : ∀ p ∈ f.payloads, '\n' ∉ p.toList := by
  intro p hp hc
  exact absurd ((f.hex p hp).2 '\n' hc) (by decide)

theorem BankFile.text_toList (f : BankFile) : f.text.toList = (padded 3 f.count).toList ++
    ((padded 10 f.total).toList ++ '\n' :: f.payloads.flatMap fun p => p.toList ++ ['\n']) := by
  rw [BankFile.text]
  simp only [String.toList_append, String.toList_join, List.flatMap_map, List.append_assoc]
  rfl

/-- A text is that of one file at most. -/
theorem BankFile.text_injective : Function.Injective BankFile.text := by
  intro f g h
  have hlists := congrArg String.toList h
  rw [f.text_toList, g.text_toList] at hlists
  have hwidth : ∀ {width n m : Nat}, n < 10 ^ width → m < 10 ^ width → 0 < width →
      (padded width n).toList.length = (padded width m).toList.length := by
    intro width n m hn hm hw
    rw [String.length_toList, String.length_toList, length_padded hn hw, length_padded hm hw]
  obtain ⟨hcount, hlists⟩ := List.append_inj hlists (hwidth f.count_ok g.count_ok (by decide))
  obtain ⟨htotal, hlists⟩ := List.append_inj hlists (hwidth f.total_ok g.total_ok (by decide))
  have hcounts : f.count = g.count := padded_injective (String.toList_inj.mp hcount)
  have htotals : f.total = g.total := padded_injective (String.toList_inj.mp htotal)
  have hpayloads : f.payloads = g.payloads :=
    lines_injective f.one_line g.one_line (List.cons.inj hlists).2
  rcases f with ⟨count, total, payloads, _, _, _, _⟩
  rcases g with ⟨count', total', payloads', _, _, _, _⟩
  obtain rfl : count = count' := hcounts
  obtain rfl : total = total' := htotals
  obtain rfl : payloads = payloads' := hpayloads
  rfl

end Format

section Names
variable {now : DateTime} {mid tid : String} {batchNumber : Nat}

/-- The fourteen digits of the date and the time. -/
theorem stamp_digits (hyear : now.localTime.year ≤ 9999) {stamp : String}
    (hstamp : stamp = datePart now.localTime ++ padded 2 now.localTime.hour ++
      padded 2 now.localTime.minute ++ padded 2 now.localTime.second) :
    stamp.length = 14 ∧ ∀ c ∈ stamp.toList, c.isDigit := by
  obtain ⟨hmonth, hday, hhour, hminute, hsecond⟩ := localTime_two_digits now
  subst hstamp
  constructor
  · simp only [datePart, String.length_append]
    rw [length_padded (by omega) (by decide), length_padded hmonth (by decide),
      length_padded hday (by decide), length_padded hhour (by decide),
      length_padded hminute (by decide), length_padded hsecond (by decide)]
  · intro c hc
    simp only [datePart, String.toList_append, List.mem_append] at hc
    rcases hc with ((((hc | hc) | hc) | hc) | hc) | hc <;> exact isDigit_padded hc

/-- The padding fills a field up, and it never cuts one off. -/
theorem layout_iff (hyear : now.localTime.year ≤ 9999) :
    Layout (generateFilename now.localTime mid tid batchNumber) ↔
      mid.length ≤ 16 ∧ tid.length ≤ 8 ∧ batchNumber ≤ 999 := by
  obtain ⟨stamp, hstamp⟩ : ∃ stamp, stamp = datePart now.localTime ++
    padded 2 now.localTime.hour ++ padded 2 now.localTime.minute ++
    padded 2 now.localTime.second := ⟨_, rfl⟩
  obtain ⟨hlength, hdigits⟩ := stamp_digits hyear hstamp
  have hbatch : (padded 3 batchNumber).length = 3 ↔ batchNumber ≤ 999 := by
    rw [length_padded_eq_iff (by decide)]
    omega
  have hwide : 3 ≤ (padded 3 batchNumber).length := by
    rw [padded, length_zfill]
    omega
  rw [generateFilename, ← hstamp]
  constructor
  · rintro ⟨date, m, d, b, hname, hdate, hm, hd, hb, -⟩
    have htotal := congrArg List.length hname
    simp only [String.length_toList, String.length_append, List.length_append, length_zfill,
      hlength, hdate, hm, hd, hb] at htotal
    have hversion : "01".length = 2 ∧ ".txt".length = 4 := by decide
    rw [hversion.1, hversion.2] at htotal
    rw [← hbatch]
    omega
  · rintro ⟨hmid, htid, hnumber⟩
    refine ⟨stamp.toList, (zfill 16 mid).toList, (zfill 8 tid).toList,
      (padded 3 batchNumber).toList, ?_, ?_, ?_, ?_, ?_, ?_⟩
    · simp only [String.toList_append]
    · rw [String.length_toList, hlength]
    · rw [String.length_toList, length_zfill]
      omega
    · rw [String.length_toList, length_zfill]
      omega
    · rw [String.length_toList, hbatch]
      exact hnumber
    · intro c hc
      rcases List.mem_append.mp hc with hc | hc
      · exact hdigits c hc
      · exact isDigit_padded hc

end Names

section Payloads
variable {p : String}

/-- A payload whose upper case is a line of the format; `ﬀ` has two capitals `F`. -/
def HexPayload (p : String) : Prop := p ≠ "" ∧ ∀ c ∈ p.toList, isHexDigit c ∨ c = 'ﬀ'

-- over the characters of the text, not over all characters
instance (p : String) : Decidable (HexPayload p) :=
  @instDecidableAnd _ _ inferInstance (List.decidableBAll _ p.toList)

theorem upperChar_hex (c : Char) :
    (∀ d ∈ upperChar c, isHexDigit d) ↔ isHexDigit c ∨ c = 'ﬀ' := by
  by_cases hlower : c ∈ lowerChars
  · have hall : lowerChars.all fun c =>
        (upperChar c).all isHexDigit == (isHexDigit c || c == 'ﬀ') := by decide
    have hc := eq_of_beq (List.all_eq_true.mp hall c hlower)
    rw [← List.all_eq_true, hc, Bool.or_eq_true, beq_iff_eq]
  · have hne : c ≠ 'ﬀ' := by
      rintro rfl
      exact hlower (by decide)
    rw [upperChar_eq_self hlower, List.forall_mem_singleton, or_iff_left hne]

theorem upperChar_ne_nil (c : Char) : upperChar c ≠ [] := by
  by_cases hlower : c ∈ lowerChars
  · have hall : lowerChars.all fun c => upperChar c != [] := by decide
    exact bne_iff_ne.mp (List.all_eq_true.mp hall c hlower)
  · rw [upperChar_eq_self hlower]
    exact List.cons_ne_nil _ _

theorem upper_hex : (upper p ≠ "" ∧ ∀ c ∈ (upper p).toList, isHexDigit c) ↔ HexPayload p := by
  have hempty : upper p = "" ↔ p = "" := by
    rw [← String.toList_inj, ← String.toList_inj, upper, String.toList_ofList]
    change p.toList.flatMap upperChar = [] ↔ p.toList = []
    rw [List.flatMap_eq_nil_iff]
    constructor
    · intro h
      exact List.eq_nil_iff_forall_not_mem.mpr fun c hc => upperChar_ne_nil c (h c hc)
    · intro h
      simp [h]
  have hall : (∀ c ∈ (upper p).toList, isHexDigit c) ↔
      ∀ c ∈ p.toList, isHexDigit c ∨ c = 'ﬀ' := by
    rw [upper, String.toList_ofList, List.forall_mem_flatMap]
    exact forall₂_congr fun c _ => upperChar_hex c
  rw [HexPayload, hall, ne_eq, ne_eq, hempty]

end Payloads

/-- A name and a content that are in the format, the content for these rows. -/
def Conforms (name : String) (content : Except String String) (chunk : List EmoneyTransaction) :
    Prop :=
  Layout name ∧ ∃ text, content = .ok text ∧ ∃ f : BankFile,
    f.text = text ∧ (∀ g : BankFile, g.text = text → g = f) ∧
    f.count = chunk.length ∧ (f.total : Int) = (chunk.map (·.amountDeducted)).sum ∧
    f.payloads = chunk.map fun e => upper (e.settlementPayloadHex.getD "")

section Chunks
variable {now : DateTime} {mid tid : String} {batchNumber : Nat} {chunk : List EmoneyTransaction}

theorem total_nonneg (h : ∀ e ∈ chunk, 0 ≤ e.amountDeducted) :
    0 ≤ (chunk.map (·.amountDeducted)).sum := by
  refine List.sum_nonneg fun a ha => ?_
  obtain ⟨e, he, rfl⟩ := List.mem_map.mp ha
  exact h e he

/-- The job's file for a chunk is in the bank's format exactly when MID, TID and batch number are no
wider than their fields, the total has ten digits, and every payload is hexadecimal. -/
theorem conforms_iff (hyear : now.localTime.year ≤ 9999) (hlen : chunk.length ≤ 999)
    (hamounts : ∀ e ∈ chunk, 0 ≤ e.amountDeducted) :
    Conforms (generateFilename now.localTime mid tid batchNumber)
      (buildSettlementContent (chunk.map (·.settlementPayloadHex.getD ""))
        (chunk.map (·.amountDeducted)).sum) chunk ↔
    (mid.length ≤ 16 ∧ tid.length ≤ 8 ∧ batchNumber ≤ 999) ∧
      (chunk.map (·.amountDeducted)).sum ≤ 9999999999 ∧
      ∀ e ∈ chunk, HexPayload (e.settlementPayloadHex.getD "") := by
  have htotal := total_nonneg hamounts
  obtain ⟨total, hsum⟩ : ∃ total, total = (chunk.map (·.amountDeducted)).sum := ⟨_, rfl⟩
  rw [Conforms, layout_iff hyear, ← hsum]
  rw [← hsum] at htotal
  refine and_congr_right fun _ => ?_
  have hcount : ¬ 999 < (chunk.map (·.settlementPayloadHex.getD "")).length := by
    rw [List.length_map]
    omega
  constructor
  · rintro ⟨text, htext, f, -, -, -, -, hpayloads⟩
    rw [buildSettlementContent, if_neg hcount] at htext
    have hfits : ¬ (total < 0 ∨ 9999999999 < total) := by
      intro h
      rw [if_pos h] at htext
      cases htext
    refine ⟨by omega, fun e he => upper_hex.mp (f.hex _ ?_)⟩
    rw [hpayloads]
    exact List.mem_map_of_mem he
  · rintro ⟨hfits, hhex⟩
    rw [buildSettlementContent, if_neg hcount, if_neg (by omega)]
    have hsmall : chunk.length < 10 ^ 3 := by omega
    have hdigits : total.toNat < 10 ^ 10 := by
      have hpow : 10 ^ 10 = 10000000000 := by norm_num
      omega
    have hlines : ∀ p ∈ chunk.map fun e => upper (e.settlementPayloadHex.getD ""),
        p ≠ "" ∧ ∀ c ∈ p.toList, isHexDigit c := by
      intro p hp
      obtain ⟨e, he, rfl⟩ := List.mem_map.mp hp
      exact upper_hex.mpr (hhex e he)
    obtain ⟨f, hcounts, htotals, hpayloads⟩ : ∃ f : BankFile, f.count = chunk.length ∧
        f.total = total.toNat ∧
        f.payloads = chunk.map fun e => upper (e.settlementPayloadHex.getD "") :=
      ⟨⟨_, _, _, hsmall, hdigits, List.length_map _, hlines⟩, rfl, rfl, rfl⟩
    have htext : f.text = padded 3 (chunk.map (·.settlementPayloadHex.getD "")).length ++
        padded 10 total.toNat ++ "\n" ++ String.join
          ((chunk.map (·.settlementPayloadHex.getD "")).map fun p => upper p ++ "\n") := by
      rw [BankFile.text, hcounts, htotals, hpayloads, List.length_map, List.map_map, List.map_map]
      rfl
    refine ⟨_, rfl, f, htext, fun g hg => BankFile.text_injective (hg.trans htext.symm), hcounts,
      ?_, hpayloads⟩
    rw [htotals, Int.toNat_of_nonneg htotal]

/-- A deduct as it is stored, with or without a payload. -/
def deducted (payload : Option String) : EmoneyTransaction where
  id := 1
  emoneyReaderId := some 4
  cardNumber := "6013500100"
  amountDeducted := 6000
  status := .success
  settlementPayloadHex := payload

theorem conforms_iff_padded :
    Conforms (generateFilename (DateTime.utc 0).localTime "2034567890ABCDE" "87654321" 7)
      (buildSettlementContent ([deducted (some "0102af")].map (·.settlementPayloadHex.getD ""))
        ([deducted (some "0102af")].map (·.amountDeducted)).sum) [deducted (some "0102af")] ↔
    ("2034567890ABCDE".length ≤ 16 ∧ "87654321".length ≤ 8 ∧ 7 ≤ 999) ∧
      ([deducted (some "0102af")].map (·.amountDeducted)).sum ≤ 9999999999 ∧
      ∀ e ∈ [deducted (some "0102af")], HexPayload (e.settlementPayloadHex.getD "") :=
  conforms_iff (by decide) (by decide) (by decide)

/-- A MID of seventeen characters makes the name too long, and a row without a payload makes an
empty line. -/
theorem wide_mid_missing_payload :
    ¬ Conforms
      (generateFilename (DateTime.utc 0).localTime "12345678901234567" "87654321" 7)
      (buildSettlementContent ([deducted (some "0102af")].map (·.settlementPayloadHex.getD ""))
        ([deducted (some "0102af")].map (·.amountDeducted)).sum) [deducted (some "0102af")] ∧
    ¬ Conforms
      (generateFilename (DateTime.utc 0).localTime "2034567890ABCDE" "87654321" 7)
      (buildSettlementContent ([deducted none].map (·.settlementPayloadHex.getD ""))
        ([deducted none].map (·.amountDeducted)).sum) [deducted none] := by
  constructor
  · rintro ⟨hlayout, -⟩
    exact absurd ((layout_iff (by decide)).mp hlayout).1 (by decide)
  · rintro ⟨-, text, -, f, -, -, -, -, hpayloads⟩
    have hmem : upper "" ∈ f.payloads := by
      rw [hpayloads]
      exact List.mem_cons_self
    exact (f.hex _ hmem).1 (by decide)

end Chunks
end ParkIt.Settlement
