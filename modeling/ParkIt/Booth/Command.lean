import ParkIt.Lib.Bytes

/-! The open and close commands of a relay, as they are configured and as they go to the wire. -/
namespace ParkIt.Booth

open ByteString

inductive CommandMode where
  | empty
  | hex
  | ascii
deriving DecidableEq, Repr

structure Decoded where
  bytes : Bytes
  mode : CommandMode
  warning : Option String
deriving DecidableEq, Repr

/-- `s.encode()`. -/
def encode (s : String) : Bytes := s.toUTF8.toList

/-- `replace("\\x", "")`, from left to right. -/
def dropMarkers : List Char → List Char
  | '\\' :: 'x' :: cs => dropMarkers cs
  | c :: cs => c :: dropMarkers cs
  | [] => []

def isHexChar (c : Char) : Bool := "0123456789abcdefABCDEF".toList.contains c

def hexValue (c : Char) : Option Nat :=
  let n := c.toNat
  if 48 ≤ n ∧ n ≤ 57 then some (n - 48)
  else if 97 ≤ n ∧ n ≤ 102 then some (n - 87)
  else if 65 ≤ n ∧ n ≤ 70 then some (n - 55)
  else none

/-- `bytes.fromhex(s)` of text without white space. -/
def fromhex : List Char → Option Bytes
  | hi :: lo :: cs => do
    let a ← hexValue hi
    let b ← hexValue lo
    let bytes ← fromhex cs
    pure (UInt8.ofNat (16 * a + b) :: bytes)
  | [] => some []
  | [_] => none

def oddWarning (length : Nat) : String :=
  "value looks like hex but length is odd (" ++ toString length ++ ") — is a digit missing?"

def mixedWarning : String :=
  "mixed hex/non-hex chars detected — verify this is the intended ASCII relay command, not a " ++
    "corrupted hex string."

/-- The value begins as the commands of ASCII relays do. -/
def asciiRelayLike (value : String) : Bool :=
  (match value.toList with
    | c :: _ => ['*', 'O', 'C'].contains c
    | [] => false) && value.toList.all fun c => c.toNat < 128

def commandWarning (value : String) (length hexChars : Nat) : Option String :=
  let nonHexChars := length - hexChars
  if nonHexChars = 0 ∧ 0 < length ∧ length % 2 = 1 then some (oddWarning length)
  else if 0 < hexChars ∧ 0 < nonHexChars ∧ asciiRelayLike value = false then some mixedWarning
  else none

/-- What `_decode_command` looks at. -/
def strippedValue (value : String) : List Char :=
  dropMarkers (value.toList.filter (· ≠ ' '))

def decodeCommand (value : String) : Decoded :=
  if value = "" then ⟨[], .empty, none⟩
  else
    let stripped := strippedValue value
    let hexChars := stripped.countP isHexChar
    let nonHexChars := stripped.length - hexChars
    let decoded :=
      if nonHexChars = 0 ∧ 0 < stripped.length ∧ stripped.length % 2 = 0 then fromhex stripped
      else none
    match decoded with
    | some bytes => ⟨bytes, .hex, none⟩
    | none => ⟨encode value, .ascii, commandWarning value stripped.length hexChars⟩

section Rendering

/-- The digit of `n`, in either case. -/
def Digit (n : Nat) (c : Char) : Prop := c = hexDigit n ∨ c = (hexDigit n).toUpper

/-- Two digits for each byte, which may have a marker before them. -/
inductive Renders : Bytes → List Char → Prop where
  | nil : Renders [] []
  | plain {x : UInt8} {bytes : Bytes} {hi lo : Char} {cs : List Char} :
      Digit (x.toNat / 16) hi → Digit (x.toNat % 16) lo → Renders bytes cs →
      Renders (x :: bytes) (hi :: lo :: cs)
  | marked {x : UInt8} {bytes : Bytes} {hi lo : Char} {cs : List Char} :
      Digit (x.toNat / 16) hi → Digit (x.toNat % 16) lo → Renders bytes cs →
      Renders (x :: bytes) ('\\' :: 'x' :: hi :: lo :: cs)

/-- The same text with spaces in it. -/
inductive Spaced : List Char → List Char → Prop where
  | nil : Spaced [] []
  | space {cs ds : List Char} : Spaced cs ds → Spaced cs (' ' :: ds)
  | char {cs ds : List Char} (c : Char) : Spaced cs ds → Spaced (c :: cs) (c :: ds)

/-- A run of hexadecimal digits of even length. -/
def HexRun (cs : List Char) : Prop := cs ≠ [] ∧ cs.length % 2 = 0 ∧ ∀ c ∈ cs, isHexChar c = true

end Rendering

section Decoding
variable {bytes : Bytes} {cs ds : List Char} {c : Char} {n : Nat} {value : String}

theorem hexValue_digit (hn : n < 16) (h : Digit n c) : hexValue c = some n := by
  have hlower : ∀ n < 16, hexValue (hexDigit n) = some n := by decide
  have hupper : ∀ n < 16, hexValue (hexDigit n).toUpper = some n := by decide
  rcases h with rfl | rfl
  · exact hlower n hn
  · exact hupper n hn

theorem isHexChar_iff : isHexChar c = true ↔ (hexValue c).isSome = true := by
  have heq : ∀ d : Char, c = d ↔ c.toNat = d.toNat := fun d => Char.toNat_inj.symm
  have hlist : isHexChar c = true ↔ 48 ≤ c.toNat ∧ c.toNat ≤ 57 ∨
      97 ≤ c.toNat ∧ c.toNat ≤ 102 ∨ 65 ≤ c.toNat ∧ c.toNat ≤ 70 := by
    rw [isHexChar, List.contains_iff_mem]
    change c ∈ ['0', '1', '2', '3', '4', '5', '6', '7', '8', '9', 'a', 'b', 'c', 'd', 'e', 'f',
      'A', 'B', 'C', 'D', 'E', 'F'] ↔ _
    simp only [List.mem_cons, List.not_mem_nil, or_false, heq, Char.reduceToNat]
    omega
  rw [hlist]
  unfold hexValue
  dsimp only
  split
  · simp; omega
  · split
    · simp; omega
    · split
      · simp; omega
      · simp; omega

theorem isHexChar_digit (hn : n < 16) (h : Digit n c) : isHexChar c = true := by
  rw [isHexChar_iff, hexValue_digit hn h]
  rfl

theorem dropMarkers_cons (h : c ≠ '\\') : dropMarkers (c :: cs) = c :: dropMarkers cs := by
  rw [dropMarkers]
  intro ds hc
  exact absurd hc h

theorem ne_of_isHexChar {d : Char} (h : isHexChar c = true) (hd : isHexChar d = false) : c ≠ d := by
  rintro rfl
  exact Bool.noConfusion (h.symm.trans hd)

/-- Without spaces and markers, the digits are left. -/
theorem Renders.dropped (h : Renders bytes cs) :
    fromhex (dropMarkers cs) = some bytes ∧ (dropMarkers cs).length = 2 * bytes.length ∧
      ∀ c ∈ dropMarkers cs, isHexChar c = true := by
  have hbyte : ∀ {x : UInt8} {bytes : Bytes} {hi lo : Char} {cs : List Char},
      Digit (x.toNat / 16) hi → Digit (x.toNat % 16) lo →
      (fromhex (dropMarkers cs) = some bytes ∧ (dropMarkers cs).length = 2 * bytes.length ∧
        ∀ c ∈ dropMarkers cs, isHexChar c = true) →
      fromhex (dropMarkers (hi :: lo :: cs)) = some (x :: bytes) ∧
        (dropMarkers (hi :: lo :: cs)).length = 2 * (x :: bytes).length ∧
        ∀ c ∈ dropMarkers (hi :: lo :: cs), isHexChar c = true := by
    rintro x bytes hi lo cs hhi hlo ⟨hrest, hlength, hall⟩
    have hx : x.toNat < 256 := x.toNat_lt
    have hhigh : x.toNat / 16 < 16 := by omega
    have hlow : x.toNat % 16 < 16 := by omega
    have hhichar := isHexChar_digit hhigh hhi
    have hlochar := isHexChar_digit hlow hlo
    rw [dropMarkers_cons (ne_of_isHexChar hhichar (by decide)),
      dropMarkers_cons (ne_of_isHexChar hlochar (by decide))]
    refine ⟨?_, ?_, ?_⟩
    · have hsplit : 16 * (x.toNat / 16) + x.toNat % 16 = x.toNat := by omega
      rw [fromhex, hexValue_digit hhigh hhi, hexValue_digit hlow hlo, hrest]
      simp only [Option.bind_eq_bind, Option.bind_some, Option.pure_def, hsplit,
        UInt8.ofNat_toNat]
    · simp only [List.length_cons, hlength]
      omega
    · intro c hc
      rcases List.mem_cons.mp hc with rfl | hc
      · exact hhichar
      · rcases List.mem_cons.mp hc with rfl | hc
        · exact hlochar
        · exact hall c hc
  induction h with
  | nil => exact ⟨rfl, rfl, fun c hc => absurd hc List.not_mem_nil⟩
  | plain hhi hlo _ ih => exact hbyte hhi hlo ih
  | @marked _ _ hi lo cs hhi hlo _ ih =>
    have hmarked : dropMarkers ('\\' :: 'x' :: hi :: lo :: cs) = dropMarkers (hi :: lo :: cs) := rfl
    rw [hmarked]
    exact hbyte hhi hlo ih

theorem Renders.no_space (h : Renders bytes cs) : ' ' ∉ cs := by
  have hne : ∀ {n : Nat} {c : Char}, n < 16 → Digit n c → ' ' ≠ c := fun hn hc =>
    (ne_of_isHexChar (isHexChar_digit hn hc) (by decide)).symm
  induction h with
  | nil => exact List.not_mem_nil
  | @plain x _ _ _ _ hhi hlo _ ih =>
    have hx : x.toNat < 256 := x.toNat_lt
    simp [hne (by omega) hhi, hne (by omega) hlo, ih]
  | @marked x _ _ _ _ hhi hlo _ ih =>
    have hx : x.toNat < 256 := x.toNat_lt
    simp [hne (by omega) hhi, hne (by omega) hlo, ih]

theorem Spaced.filter (h : Spaced cs ds) (hcs : ' ' ∉ cs) : ds.filter (· ≠ ' ') = cs := by
  induction h with
  | nil => rfl
  | space _ ih => simpa using ih hcs
  | char c _ ih =>
    rw [List.mem_cons, not_or] at hcs
    have hc : c ≠ ' ' := fun h => hcs.1 h.symm
    rw [List.filter_cons_of_pos (by simpa using hc), ih hcs.2]

theorem all_hex_iff : cs.length - cs.countP isHexChar = 0 ↔ ∀ c ∈ cs, isHexChar c = true := by
  have hle : cs.countP isHexChar ≤ cs.length := List.countP_le_length
  rw [← List.countP_eq_length]
  omega

theorem decodeCommand_hex (hne : value ≠ "") (hrun : HexRun (strippedValue value))
    (h : fromhex (strippedValue value) = some bytes) :
    decodeCommand value = ⟨bytes, .hex, none⟩ := by
  have hguard : (strippedValue value).length - (strippedValue value).countP isHexChar = 0 ∧
      0 < (strippedValue value).length ∧ (strippedValue value).length % 2 = 0 :=
    ⟨all_hex_iff.mpr hrun.2.2, List.length_pos_of_ne_nil hrun.1, hrun.2.1⟩
  rw [decodeCommand, if_neg hne]
  dsimp only
  rw [if_pos hguard, h]

theorem decodeCommand_ascii (hne : value ≠ "") (hrun : ¬ HexRun (strippedValue value)) :
    ∃ warning, decodeCommand value = ⟨encode value, .ascii, warning⟩ := by
  have hguard : ¬ ((strippedValue value).length - (strippedValue value).countP isHexChar = 0 ∧
      0 < (strippedValue value).length ∧ (strippedValue value).length % 2 = 0) := by
    rintro ⟨hall, hpos, heven⟩
    exact hrun ⟨List.ne_nil_of_length_pos hpos, heven, all_hex_iff.mp hall⟩
  rw [decodeCommand, if_neg hne]
  dsimp only
  rw [if_neg hguard]
  exact ⟨_, rfl⟩

/-- Bytes in hexadecimal are decoded to the bytes, and everything else stands for itself. -/
theorem decodeCommand_decodes (value : String) :
    (∀ bytes cs, bytes ≠ [] → Renders bytes cs → Spaced cs value.toList →
      decodeCommand value = ⟨bytes, .hex, none⟩) ∧
    (value = "" → decodeCommand value = ⟨[], .empty, none⟩) ∧
    (value ≠ "" → ¬ HexRun (strippedValue value) →
      ∃ warning, decodeCommand value = ⟨encode value, .ascii, warning⟩) := by
  refine ⟨?_, ?_, decodeCommand_ascii⟩
  · intro bytes cs hbytes hrenders hspaced
    obtain ⟨hdecoded, hlength, hall⟩ := hrenders.dropped
    have hstripped : strippedValue value = dropMarkers cs := by
      rw [strippedValue, hspaced.filter hrenders.no_space]
    have hpos : 0 < bytes.length := List.length_pos_of_ne_nil hbytes
    refine decodeCommand_hex ?_ ?_ (hstripped ▸ hdecoded)
    · rintro rfl
      have hnil : strippedValue "" = [] := rfl
      rw [hnil] at hstripped
      rw [← hstripped, List.length_nil] at hlength
      omega
    · rw [hstripped]
      exact ⟨List.ne_nil_of_length_pos (by omega), by omega, hall⟩
  · rintro rfl
    rfl

/-- Spaces, markers and letters of either case. -/
example : decodeCommand "\\xFf 0 1" = ⟨[0xff, 0x01], .hex, none⟩ := by decide

end Decoding
end ParkIt.Booth
