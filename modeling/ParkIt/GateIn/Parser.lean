import ParkIt.GateIn.Controller
import ParkIt.Lib.Numerals

/-! The parser of the controller's answers with what it may raise, and the cards that it reads. -/
namespace ParkIt.GateIn.Parser

open ByteString Numerals

inductive ParseExc where
  | value
  | index
deriving DecidableEq, Repr

abbrev Parse := Except ParseExc

/-- The result, with the text that it was read from. -/
structure Parsed extends Stat where
  raw : List Char
deriving DecidableEq, Repr

def orRaise {α : Type} (e : ParseExc) : Option α → Parse α
  | some a => pure a
  | none => throw e

/-- `xs[i]`. -/
def item {α : Type} (xs : List α) (i : Nat) : Parse α := orRaise .index xs[i]?

/-- `text.split(sep, 1)`. -/
def splitOnce (text : List Char) (sep : Char) : List (List Char) :=
  match text.dropWhile (· ≠ sep) with
  | [] => [text]
  | _ :: rest => [text.takeWhile (· ≠ sep), rest]

/-- `int(digits, 16)`, for digits without a sign, a blank or an underscore. -/
def intBase16 (digits : List Char) : Parse Nat :=
  if digits ≠ [] ∧ digits.all isHex = true then pure (hexValue digits) else throw .value

/-- `re.search(r"STAT([01]{8})", text)`: the group. -/
def statMatch : List Char → Option (List Char)
  | [] => none
  | c :: cs =>
    let bits := (cs.drop 3).take 8
    if "STAT".toList.isPrefixOf (c :: cs) ∧ bits.length = 8 ∧ bits.all fun b => b = '0' ∨ b = '1'
    then some bits
    else statMatch cs

def extractWiegand (text : List Char) (channel : Char) : Parse (Option String) :=
  if channel ∉ text then pure none
  else
    tryCatch (do
      let parts := splitOnce text channel
      if parts.length < 2 then pure none
      else do
        let remainder ← item (splitOnce (← item parts 1) frameEndChar) 0
        if remainder = [] then pure none
        else do
          let hexChars := remainder.takeWhile isHex
          if hexChars = [] then pure none
          else do
            let card ← orRaise .value (pyStr (← intBase16 hexChars))
            pure (some card)) fun
      | .value | .index => pure none

def parseStat (response : Bytes) : Parse Parsed := do
  let text := decode response
  let stat : Stat ←
    match statMatch text with
    | none => pure {}
    | some bits => do
      let bit (i : Nat) : Parse Bool := do pure ((← item bits i) = '1')
      pure
        { in1 := ← bit 0, in2 := ← bit 1, in3 := ← bit 2, in4 := ← bit 3
          out1 := ← bit 4, out2 := ← bit 5, out3 := ← bit 6, out4 := ← bit 7 }
  let wiegandW ← extractWiegand text 'W'
  let wiegandX ← extractWiegand text 'X'
  pure
    { stat with
      in1 := pushed text "IN1ON" "IN1OFF" stat.in1
      in2 := pushed text "IN2ON" "IN2OFF" stat.in2
      in3 := pushed text "IN3ON" "IN3OFF" stat.in3
      in4 := pushed text "IN4ON" "IN4OFF" stat.in4
      wiegandW, wiegandX, raw := text }

section Total
variable {text digits : List Char} {channel sep : Char}

theorem splitOnce_of_mem (h : sep ∈ text) :
    splitOnce text sep = [text.takeWhile (· ≠ sep), (text.dropWhile (· ≠ sep)).tail] := by
  rw [splitOnce]
  split
  · rename_i hnil
    have hne := List.dropWhile_eq_nil_iff.mp hnil sep h
    simp at hne
  · rename_i hcons
    rw [hcons, List.tail_cons]

theorem item_splitOnce (text : List Char) (sep : Char) :
    item (splitOnce text sep) 0 = pure (text.takeWhile (· ≠ sep)) := by
  rw [splitOnce]
  split
  · rename_i hnil
    rw [List.takeWhile_eq_self_iff.mpr (List.dropWhile_eq_nil_iff.mp hnil)]
    rfl
  · rfl

theorem intBase16_takeWhile (h : text.takeWhile isHex ≠ []) :
    intBase16 (text.takeWhile isHex) = pure (hexValue (text.takeWhile isHex)) :=
  if_pos ⟨h, List.all_takeWhile⟩

theorem extractWiegand_absent (h : channel ∉ text) : GateIn.extractWiegand text channel = none := by
  have hnil : text.dropWhile (· ≠ channel) = [] := by
    refine List.dropWhile_eq_nil_iff.mpr fun c hc => decide_eq_true ?_
    rintro rfl
    exact h hc
  rw [GateIn.extractWiegand, hnil]

/-- The exceptions of the parser are caught, or they do not come up. -/
theorem extractWiegand_eq (text : List Char) (channel : Char) :
    extractWiegand text channel = pure (GateIn.extractWiegand text channel) := by
  rw [extractWiegand]
  split
  · rename_i habsent
    rw [extractWiegand_absent habsent]
  · rename_i hmem
    rw [not_not] at hmem
    rw [splitOnce_of_mem hmem, GateIn.extractWiegand]
    cases hsplit : text.dropWhile (· ≠ channel) with
    | nil =>
      have hne := List.dropWhile_eq_nil_iff.mp hsplit channel hmem
      simp at hne
    | cons c rest =>
      have hsecond : item [text.takeWhile (· ≠ channel), (c :: rest).tail] 1 = pure rest := rfl
      dsimp only
      rw [hsecond, if_neg (by simp), pure_bind, item_splitOnce, pure_bind]
      generalize rest.takeWhile (· ≠ frameEndChar) = remainder
      by_cases hhex : remainder.takeWhile isHex = []
      · rw [hhex, if_pos rfl, List.isEmpty_nil, if_pos rfl]
        split <;> rfl
      · have hremainder : remainder ≠ [] := by
          rintro rfl
          exact hhex rfl
        rw [if_neg hremainder, if_neg hhex, intBase16_takeWhile hhex, pure_bind,
          if_neg (by simpa using hhex), pyStr]
        dsimp only [Int.natAbs_natCast]
        split <;> rfl

theorem statBits_eq (text : List Char) :
    statBits text = (statMatch text).map fun bits => bits.map fun b => decide (b = '1') := by
  induction text with
  | nil => rfl
  | cons c cs ih =>
    unfold statBits statMatch
    dsimp only
    split
    · rfl
    · exact ih

theorem length_statMatch {bits : List Char} (h : bits ∈ statMatch text) : bits.length = 8 := by
  induction text with
  | nil => cases h
  | cons c cs ih =>
    unfold statMatch at h
    dsimp only at h
    split at h
    · rename_i hbits
      cases h
      exact hbits.2.1
    · exact ih h

theorem parseStat_eq (response : Bytes) :
    parseStat response = pure { GateIn.parseStat response with raw := decode response } := by
  unfold parseStat
  dsimp only
  rw [extractWiegand_eq, extractWiegand_eq]
  unfold GateIn.parseStat
  dsimp only
  rw [statBits_eq]
  cases hmatch : statMatch (decode response) with
  | none => rfl
  | some bits =>
    have hlength := length_statMatch (hmatch ▸ rfl : bits ∈ statMatch (decode response))
    obtain ⟨b₀, b₁, b₂, b₃, b₄, b₅, b₆, b₇, rfl⟩ : ∃ b₀ b₁ b₂ b₃ b₄ b₅ b₆ b₇,
        bits = [b₀, b₁, b₂, b₃, b₄, b₅, b₆, b₇] := by
      match bits, hlength with
      | [b₀, b₁, b₂, b₃, b₄, b₅, b₆, b₇], _ => exact ⟨_, _, _, _, _, _, _, _, rfl⟩
    rfl

end Total

section Cards

/-- A card number in hexadecimal digits of either case, with any leading zeros. -/
structure Card where
  number : Nat
  digits : Bytes
  spelled : ∃ zeros, (decode digits).map Char.toLower =
    List.replicate zeros '0' ++ Nat.toDigits 16 number
  short : (toString number).length ≤ maxStrDigits

def letterW : UInt8 := 0x57
def letterX : UInt8 := 0x58

/-- Neither a channel letter nor the end byte. -/
def Plain (b : Bytes) : Prop := letterW ∉ b ∧ letterX ∉ b ∧ frameEnd ∉ b

/-- What the controller sends of a card. -/
def field (channel : UInt8) : Option Card → Bytes
  | none => []
  | some card => channel :: card.digits

structure CardFrame where
  before : Bytes
  w : Option Card
  x : Option Card
  after : Bytes
  before_plain : Plain before
  after_plain : Plain after
  after_ends : ∀ c ∈ (decode after).head?, isHex c = false

def CardFrame.bytes (f : CardFrame) : Bytes :=
  frameStart :: f.before ++ field letterW f.w ++ field letterX f.x ++ f.after ++ [frameEnd]

def Card.decimal (card : Card) : String := toString card.number

section Digits
variable {card : Card}

/-- What a digit means to `hexValue`. -/
def digitValue (c : Char) : Nat :=
  if c.isDigit then c.toNat - '0'.toNat else c.toLower.toNat - 'a'.toNat + 10

theorem hexValue_eq (digits : List Char) : hexValue digits = value 16 digitValue digits := rfl

/-- A digit means the same in either case. -/
theorem digitValue_toLower {c : Char} (h : isHex c = true) :
    digitValue c.toLower = digitValue c := by
  have hall : ("0123456789abcdefABCDEF".toList.all fun c =>
      decide (digitValue c.toLower = digitValue c)) = true := by decide
  exact of_decide_eq_true (List.all_eq_true.mp hall c (List.contains_iff_mem.mp h))

theorem digitChar_hex :
    ∀ d < 16, isHex (Nat.digitChar d) = true ∧ digitValue (Nat.digitChar d) = d := by
  decide

theorem isHex_of_toLower (b : UInt8) (h : isHex (Char.ofNat b.toNat).toLower = true) :
    isHex (Char.ofNat b.toNat) = true := by
  have hall : ∀ n < 256, isHex (Char.ofNat n).toLower = true → isHex (Char.ofNat n) = true := by
    decide +kernel
  exact hall _ b.toNat_lt h

theorem Card.hex (card : Card) : ∀ c ∈ decode card.digits, isHex c = true := by
  intro c hc
  obtain ⟨zeros, hspelled⟩ := card.spelled
  obtain ⟨b, -, rfl⟩ := List.mem_map.mp hc
  refine isHex_of_toLower b ?_
  have hmem := List.mem_map_of_mem (f := Char.toLower) hc
  rw [hspelled, List.mem_append] at hmem
  rcases hmem with hzero | hdigit
  · rw [(List.mem_replicate.mp hzero).2]
    rfl
  · obtain ⟨d, hd, hchar⟩ := mem_toDigits (by decide) hdigit
    rw [hchar]
    exact (digitChar_hex d hd).1

theorem Card.digits_ne_nil (card : Card) : decode card.digits ≠ [] := by
  intro hnil
  obtain ⟨zeros, hspelled⟩ := card.spelled
  rw [hnil, List.map_nil] at hspelled
  exact Nat.toDigits_ne_nil (List.append_eq_nil_iff.mp hspelled.symm).2

theorem Card.value (card : Card) : hexValue (decode card.digits) = card.number := by
  obtain ⟨zeros, hspelled⟩ := card.spelled
  calc hexValue (decode card.digits)
    _ = Numerals.value 16 digitValue (decode card.digits) := hexValue_eq _
    _ = Numerals.value 16 digitValue ((decode card.digits).map Char.toLower) :=
      (value_map _ fun c hc => digitValue_toLower (card.hex c hc)).symm
    _ = Numerals.value 16 digitValue (Nat.toDigits 16 card.number) := by
      rw [hspelled, value_zeros (by decide)]
    _ = card.number := value_toDigits (by decide) fun d hd => (digitChar_hex d hd).2

end Digits

section Frames
variable {b b' : Bytes} {x : UInt8} {pre rest digits text : List Char} {channel : Char}

theorem decode_append : decode (b ++ b') = decode b ++ decode b' := List.map_append

theorem mem_decode : Char.ofNat x.toNat ∈ decode b ↔ x ∈ b := by
  have hback : ∀ n < 256, (Char.ofNat n).toNat = n := by decide +kernel
  constructor
  · intro hmem
    obtain ⟨y, hy, heq⟩ := List.mem_map.mp hmem
    have hbyte := congrArg Char.toNat heq
    rw [hback _ y.toNat_lt, hback _ x.toNat_lt] at hbyte
    exact UInt8.toNat_inj.mp hbyte ▸ hy
  · exact fun hmem => List.mem_map_of_mem hmem

/-- The run of digits behind the first channel letter is the card. -/
theorem extractWiegand_field (hpre : channel ∉ pre) (hdigits : ∀ c ∈ digits, isHex c = true)
    (hne : digits ≠ []) (hrest : ∀ c ∈ rest.head?, isHex c = false) :
    GateIn.extractWiegand (pre ++ channel :: (digits ++ rest)) channel =
      if (toString (hexValue digits)).length ≤ maxStrDigits then some (toString (hexValue digits))
      else none := by
  have hplain : ∀ c ∈ pre, decide (c ≠ channel) = true := by
    intro c hc
    refine decide_eq_true ?_
    rintro rfl
    exact hpre hc
  have hends : ∀ c ∈ digits, decide (c ≠ frameEndChar) = true := by
    intro c hc
    refine decide_eq_true ?_
    rintro rfl
    exact absurd (hdigits _ hc) (by decide)
  have hstop : (rest.takeWhile (· ≠ frameEndChar)).takeWhile isHex = [] := by
    cases rest with
    | nil => rfl
    | cons c rest =>
      rw [List.takeWhile_cons]
      split
      · rw [List.takeWhile_cons, if_neg (by rw [hrest c rfl]; decide)]
      · rfl
  rw [GateIn.extractWiegand, List.dropWhile_append_of_pos hplain,
    List.dropWhile_cons_of_neg (by simp)]
  dsimp only
  rw [List.takeWhile_append_of_pos hends, List.takeWhile_append_of_pos hdigits, hstop,
    List.append_nil, if_neg (by simpa using hne)]

/-- The digits of a card are not mistaken for anything else. -/
theorem Card.notMem (card : Card) (h : isHex (Char.ofNat x.toNat) = false) : x ∉ card.digits := by
  intro hmem
  rw [card.hex _ (mem_decode.mpr hmem)] at h
  cases h

theorem notMem_field {y : UInt8} {card : Option Card} (hne : x ≠ y)
    (h : isHex (Char.ofNat x.toNat) = false) : x ∉ field y card := by
  cases card with
  | none => exact List.not_mem_nil
  | some card => exact List.not_mem_cons_of_ne_of_not_mem hne (card.notMem h)

/-- A channel is read whatever stands around it, its letter and more digits apart. -/
theorem extractWiegand_decode (x : UInt8) {card : Option Card} (hpre : x ∉ b) (hrest : x ∉ b')
    (hends : ∀ c ∈ (decode b').head?, isHex c = false) :
    GateIn.extractWiegand (decode (b ++ field x card ++ b')) (Char.ofNat x.toNat) =
      card.map Card.decimal := by
  cases card with
  | none =>
    refine extractWiegand_absent fun hmem => ?_
    rw [mem_decode, field, List.append_nil, List.mem_append] at hmem
    exact hmem.elim hpre hrest
  | some card =>
    have hsplit : decode (b ++ field x (some card) ++ b') =
        decode b ++ Char.ofNat x.toNat :: (decode card.digits ++ decode b') := by
      rw [decode_append, decode_append, List.append_assoc]
      rfl
    rw [hsplit, extractWiegand_field (fun hmem => hpre (mem_decode.mp hmem)) card.hex
      card.digits_ne_nil hends, card.value, if_pos card.short]
    rfl

variable (f : CardFrame)

theorem CardFrame.tail_ends : ∀ c ∈ (decode (f.after ++ [frameEnd])).head?, isHex c = false := by
  have hends := f.after_ends
  cases hafter : f.after with
  | nil =>
    rintro c ⟨⟩
    rfl
  | cons x after =>
    rw [hafter] at hends
    exact hends

theorem CardFrame.read_w :
    GateIn.extractWiegand (decode f.bytes) 'W' = f.w.map Card.decimal := by
  have hbytes : f.bytes = (frameStart :: f.before) ++ field letterW f.w ++
      (field letterX f.x ++ (f.after ++ [frameEnd])) := by
    simp [bytes]
  rw [hbytes]
  refine extractWiegand_decode letterW ?_ ?_ ?_
  · exact List.not_mem_cons_of_ne_of_not_mem (by decide) f.before_plain.1
  · simp only [List.mem_append, not_or]
    exact ⟨notMem_field (by decide) (by decide), f.after_plain.1, by decide⟩
  · cases hx : f.x with
    | none => exact f.tail_ends
    | some card =>
      rintro c ⟨⟩
      rfl

theorem CardFrame.read_x :
    GateIn.extractWiegand (decode f.bytes) 'X' = f.x.map Card.decimal := by
  have hbytes : f.bytes = (frameStart :: f.before ++ field letterW f.w) ++ field letterX f.x ++
      (f.after ++ [frameEnd]) := by
    simp [bytes]
  rw [hbytes]
  refine extractWiegand_decode letterX ?_ ?_ f.tail_ends
  · simp only [List.mem_append, List.mem_cons, not_or]
    exact ⟨⟨by decide, f.before_plain.2.1⟩, notMem_field (by decide) (by decide)⟩
  · simp only [List.mem_append, not_or]
    exact ⟨f.after_plain.2.1, by decide⟩

end Frames
end Cards

/-- Every frame with cards is read as these cards, and every byte string is read. -/
theorem reads_cards :
    (∀ f : CardFrame, ∃ r, parseStat f.bytes = .ok r ∧ r.wiegandW = f.w.map Card.decimal ∧
      r.wiegandX = f.x.map Card.decimal) ∧
    ∀ response, ∃ r, parseStat response = .ok r :=
  ⟨fun f => ⟨_, parseStat_eq f.bytes, f.read_w, f.read_x⟩,
    fun response => ⟨_, parseStat_eq response⟩⟩

example : parseStat (frameOf "STAT10000001W00aBX1f") =
    .ok { in1 := true, out4 := true, wiegandW := "171", wiegandX := "31"
          raw := decode (frameOf "STAT10000001W00aBX1f") } := by
  decide +kernel

end ParkIt.GateIn.Parser
