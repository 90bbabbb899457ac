import ParkIt.Lib.Numerals

/-! JSON: strings and their escapes, then values, how they are written and how they are read. -/
namespace Json

/-- Four digits of a code unit. -/
def hex4 (n : Nat) : List Char :=
  [Nat.digitChar (n / 4096 % 16), Nat.digitChar (n / 256 % 16), Nat.digitChar (n / 16 % 16),
    Nat.digitChar (n % 16)]

/-- The escape of a code point: one code unit, or a surrogate pair. -/
def unicodeEscape (n : Nat) : List Char :=
  if n < 0x10000 then '\\' :: 'u' :: hex4 n
  else
    let v := n - 0x10000
    '\\' :: 'u' :: hex4 (0xD800 + v / 1024) ++ '\\' :: 'u' :: hex4 (0xDC00 + v % 1024)

/-- The letters of the short escapes, with what they stand for. -/
def shortEscapes : List (Char × Char) :=
  [('"', '"'), ('\\', '\\'), ('n', '\n'), ('r', '\r'), ('t', '\t'), ('b', '\x08'), ('f', '\x0c')]

/-- `ascii` is `ensure_ascii`. -/
def escape (ascii : Bool) (c : Char) : List Char :=
  match shortEscapes.find? (·.2 = c) with
  | some (letter, _) => ['\\', letter]
  | none =>
    if c.toNat < 0x20 ∨ ascii = true ∧ 0x7F ≤ c.toNat then unicodeEscape c.toNat else [c]

def escapeAll (ascii : Bool) (cs : List Char) : List Char := cs.flatMap (escape ascii)

def hexValue (c : Char) : Option Nat :=
  if '0' ≤ c ∧ c ≤ '9' then some (c.toNat - 48)
  else if 'a' ≤ c ∧ c ≤ 'f' then some (c.toNat - 87)
  else if 'A' ≤ c ∧ c ≤ 'F' then some (c.toNat - 55)
  else none

def scanHex : List Char → Option (Nat × List Char)
  | a :: b :: c :: d :: rest => do
    let a ← hexValue a
    let b ← hexValue b
    let c ← hexValue c
    let d ← hexValue d
    some (a * 4096 + b * 256 + c * 16 + d, rest)
  | _ => none

/-- A surrogate without the other one is no character. -/
def scanUnicode (cs : List Char) : Option (Char × List Char) := do
  let (n, rest) ← scanHex cs
  if 0xD800 ≤ n ∧ n < 0xDC00 then
    match rest with
    | '\\' :: 'u' :: rest => do
      let (m, rest) ← scanHex rest
      if 0xDC00 ≤ m ∧ m < 0xE000 then
        some (Char.ofNat (0x10000 + (n - 0xD800) * 1024 + (m - 0xDC00)), rest)
      else none
    | _ => none
  else if 0xDC00 ≤ n ∧ n < 0xE000 then none
  else some (Char.ofNat n, rest)

/-- What stands after a backslash; `/` may be escaped as well. -/
def scanEscape : List Char → Option (Char × List Char)
  | [] => none
  | e :: rest =>
    if e = 'u' then scanUnicode rest
    else (('/', '/') :: shortEscapes).find? (·.1 = e) |>.map fun x => (x.2, rest)

/-- The next character of a string; control characters have to be escaped. -/
def scanChar : List Char → Option (Char × List Char)
  | [] => none
  | c :: rest =>
    if c = '\\' then scanEscape rest else if c.toNat < 0x20 then none else some (c, rest)

/-- The rest of a string, up to its quote. -/
def scanChars : Nat → List Char → Option (List Char × List Char)
  | 0, _ | _ + 1, [] => none
  | n + 1, c :: rest =>
    if c = '"' then some ([], rest)
    else do
      let (x, rest) ← scanChar (c :: rest)
      let (xs, rest) ← scanChars n rest
      some (x :: xs, rest)

section RoundTrip
variable {n : Nat} {rest : List Char} {ascii : Bool} {c : Char}

theorem hexValue_digitChar (h : n < 16) : hexValue (Nat.digitChar n) = some n := by
  have hall : ∀ n < 16, hexValue (Nat.digitChar n) = some n := by decide
  exact hall n h

theorem scanHex_hex4 (h : n < 65536) : scanHex (hex4 n ++ rest) = some (n, rest) := by
  simp only [hex4, scanHex, List.cons_append, List.nil_append]
  rw [hexValue_digitChar (Nat.mod_lt _ (by decide)), hexValue_digitChar (Nat.mod_lt _ (by decide)),
    hexValue_digitChar (Nat.mod_lt _ (by decide)), hexValue_digitChar (Nat.mod_lt _ (by decide))]
  simp only [Option.bind_eq_bind, Option.bind_some, Option.some.injEq, Prod.mk.injEq, and_true]
  omega

theorem scanUnicode_unit (hlow : ¬ (0xD800 ≤ n ∧ n < 0xDC00)) (hhigh : ¬ (0xDC00 ≤ n ∧ n < 0xE000))
    (h : n < 0x10000) : scanUnicode (hex4 n ++ rest) = some (Char.ofNat n, rest) := by
  rw [scanUnicode, scanHex_hex4 h]
  simp only [Option.bind_eq_bind, Option.bind_some]
  rw [if_neg hlow, if_neg hhigh]

theorem scanUnicode_pair {m : Nat} (hfirst : 0xD800 ≤ n ∧ n < 0xDC00)
    (hsecond : 0xDC00 ≤ m ∧ m < 0xE000) :
    scanUnicode (hex4 n ++ '\\' :: 'u' :: (hex4 m ++ rest)) =
      some (Char.ofNat (0x10000 + (n - 0xD800) * 1024 + (m - 0xDC00)), rest) := by
  have hn : n < 65536 := by omega
  have hm : m < 65536 := by omega
  rw [scanUnicode, scanHex_hex4 hn]
  simp only [Option.bind_eq_bind, Option.bind_some]
  rw [if_pos hfirst, scanHex_hex4 hm, Option.bind_some, if_pos hsecond]

theorem surrogates {n : Nat} (hlarge : 0x10000 ≤ n) (hbound : n < 0x110000) :
    ∃ a b, a = 0xD800 + (n - 0x10000) / 1024 ∧ b = 0xDC00 + (n - 0x10000) % 1024 ∧
      (0xD800 ≤ a ∧ a < 0xDC00) ∧ (0xDC00 ≤ b ∧ b < 0xE000) ∧
        0x10000 + (a - 0xD800) * 1024 + (b - 0xDC00) = n :=
  ⟨_, _, rfl, rfl, by omega, by omega, by omega⟩

theorem scanUnicode_escape (rest : List Char) (hvalid : n.isValidChar) : ∃ tail,
    unicodeEscape n ++ rest = '\\' :: 'u' :: tail ∧ scanUnicode tail = some (Char.ofNat n, rest) := by
  unfold Nat.isValidChar at hvalid
  unfold unicodeEscape
  split
  · rename_i hsmall
    exact ⟨_, rfl, scanUnicode_unit (by omega) (by omega) hsmall⟩
  · rename_i hlarge
    obtain ⟨a, b, ha, hb, hfirst, hsecond, hcode⟩ := surrogates (n := n) (by omega) (by omega)
    refine ⟨hex4 a ++ '\\' :: 'u' :: (hex4 b ++ rest), ?_, ?_⟩
    · rw [ha, hb]
      simp only [List.cons_append, List.append_assoc]
    · rw [scanUnicode_pair hfirst hsecond, hcode]

theorem escape_short {letter : Char} (h : (letter, c) ∈ shortEscapes) :
    escape ascii c = ['\\', letter] := by
  have hall : ∀ x ∈ shortEscapes, shortEscapes.find? (fun y => y.2 = x.2) = some x := by decide
  unfold escape
  rw [hall _ h]

theorem scanEscape_short {letter : Char} (h : (letter, c) ∈ shortEscapes) :
    scanEscape (letter :: rest) = some (c, rest) := by
  have hall : ∀ x ∈ shortEscapes, x.1 ≠ 'u' ∧
      (('/', '/') :: shortEscapes).find? (fun y => y.1 = x.1) = some x := by decide
  obtain ⟨hne, hfind⟩ := hall _ h
  simp only [scanEscape]
  rw [if_neg hne, hfind]
  rfl

/-- What is escaped is read back, whatever comes behind it. -/
theorem scanChar_escape : scanChar (escape ascii c ++ rest) = some (c, rest) := by
  cases hshort : shortEscapes.find? (fun x => x.2 = c) with
  | some x =>
    obtain ⟨letter, c'⟩ := x
    obtain rfl : c' = c := by simpa using List.find?_some hshort
    rw [escape_short (List.mem_of_find?_eq_some hshort)]
    exact scanEscape_short (List.mem_of_find?_eq_some hshort)
  | none =>
    have hplain : ∀ x ∈ shortEscapes, x.2 ≠ c := by
      intro x hx
      simpa using List.find?_eq_none.mp hshort x hx
    have hslash : c ≠ '\\' := fun h => hplain ('\\', '\\') (by decide) h.symm
    unfold escape
    rw [hshort]
    dsimp only
    split
    · have hvalid : c.toNat.isValidChar := c.valid
      obtain ⟨tail, htail, hscan⟩ := scanUnicode_escape rest hvalid
      rw [htail]
      exact hscan.trans (by rw [Char.ofNat_toNat])
    · rename_i hraw
      have hlow : ¬ c.toNat < 0x20 := fun h => hraw (Or.inl h)
      simp only [List.cons_append, List.nil_append, scanChar]
      rw [if_neg hslash, if_neg hlow]

theorem escape_cons (ascii : Bool) (c : Char) : ∃ x xs, escape ascii c = x :: xs ∧ x ≠ '"' := by
  cases hshort : shortEscapes.find? (fun x => x.2 = c) with
  | some x =>
    refine ⟨'\\', [x.1], ?_, by decide⟩
    unfold escape
    rw [hshort]
  | none =>
    have hquote : c ≠ '"' := by
      rintro rfl
      exact List.find?_eq_none.mp hshort ('"', '"') (by decide) (by decide)
    unfold escape unicodeEscape
    rw [hshort]
    dsimp only
    split
    · split
      · exact ⟨_, _, rfl, by decide⟩
      · exact ⟨_, _, rfl, by decide⟩
    · exact ⟨c, [], rfl, hquote⟩

theorem length_le_escapeAll (ascii : Bool) (cs : List Char) :
    cs.length ≤ (escapeAll ascii cs).length := by
  induction cs with
  | nil => exact Nat.le_refl 0
  | cons c cs ih =>
    obtain ⟨x, xs, hescape, -⟩ := escape_cons ascii c
    have hcons : escapeAll ascii (c :: cs) = escape ascii c ++ escapeAll ascii cs :=
      List.flatMap_cons
    rw [hcons, hescape]
    simp only [List.cons_append, List.length_cons, List.length_append]
    omega

/-- A string is read back up to its quote. -/
theorem scanChars_escapeAll {cs : List Char} (h : cs.length < n) :
    scanChars n (escapeAll ascii cs ++ '"' :: rest) = some (cs, rest) := by
  induction cs generalizing n with
  | nil =>
    obtain ⟨n, rfl⟩ := Nat.exists_eq_succ_of_ne_zero (Nat.ne_of_gt h)
    rfl
  | cons c cs ih =>
    obtain ⟨n, rfl⟩ := Nat.exists_eq_succ_of_ne_zero (Nat.ne_of_gt (Nat.zero_lt_of_lt h))
    obtain ⟨x, xs, hescape, hquote⟩ := escape_cons ascii c
    have hcons : escapeAll ascii (c :: cs) = escape ascii c ++ escapeAll ascii cs :=
      List.flatMap_cons
    have hchar : scanChar (x :: (xs ++ (escapeAll ascii cs ++ '"' :: rest))) =
        some (c, escapeAll ascii cs ++ '"' :: rest) := by
      rw [← List.cons_append, ← hescape]
      exact scanChar_escape
    rw [hcons, hescape, List.append_assoc, List.cons_append, scanChars, if_neg hquote, hchar]
    have hrest := ih (n := n) (by simp only [List.length_cons] at h; omega)
    simp only [Option.bind_eq_bind, Option.bind_some, hrest]

end RoundTrip

open Numerals

/-- Numbers are whole here. -/
inductive Value where
  | null
  | bool (b : Bool)
  | int (n : Int)
  | str (s : String)
  | arr (xs : List Value)
  | obj (o : List (String × Value))

def isSpace (c : Char) : Bool := c = ' ' || c = '\t' || c = '\n' || c = '\r'

/-- The blanks after a comma and after a colon, and what is escaped. -/
structure Style where
  itemSpace : List Char
  keySpace : List Char
  ascii : Bool
  itemBlank : ∀ c ∈ itemSpace, isSpace c = true
  keyBlank : ∀ c ∈ keySpace, isSpace c = true

/-- `json.dumps`. -/
def Style.dumps : Style where
  itemSpace := [' ']
  keySpace := [' ']
  ascii := true
  itemBlank := List.forall_mem_singleton.mpr rfl
  keyBlank := List.forall_mem_singleton.mpr rfl

/-- `model_dump_json`. -/
def Style.compact : Style where
  itemSpace := []
  keySpace := []
  ascii := false
  itemBlank := List.forall_mem_nil _
  keyBlank := List.forall_mem_nil _

section Write
variable (style : Style)

def writeString (s : String) : List Char := '"' :: escapeAll style.ascii s.toList ++ ['"']

def writeInt : Int → List Char
  | .ofNat n => Nat.toDigits 10 n
  | .negSucc n => '-' :: Nat.toDigits 10 (n + 1)

/-- What stands before an item. -/
def comma (first : Bool) : List Char := if first then [] else ',' :: style.itemSpace

mutual

def write : Value → List Char
  | .null => "null".toList
  | .bool true => "true".toList
  | .bool false => "false".toList
  | .int n => writeInt n
  | .str s => writeString style s
  | .arr xs => '[' :: writeItems true xs ++ [']']
  | .obj o => '{' :: writeMembers true o ++ ['}']

def writeItems : Bool → List Value → List Char
  | _, [] => []
  | first, x :: xs => comma style first ++ write x ++ writeItems false xs

def writeMember : String × Value → List Char
  | (k, v) => writeString style k ++ ':' :: style.keySpace ++ write v

def writeMembers : Bool → List (String × Value) → List Char
  | _, [] => []
  | first, p :: o => comma style first ++ writeMember p ++ writeMembers false o

end

end Write

section Read

def skip (cs : List Char) : List Char := cs.dropWhile isSpace

def digitValue (c : Char) : Nat := c.toNat - 48

/-- A leading zero ends a number. -/
def scanNat (cs : List Char) : Option (Nat × List Char) :=
  match cs.takeWhile Char.isDigit with
  | [] => none
  | '0' :: more => some (0, more ++ cs.dropWhile Char.isDigit)
  | ds => some (value 10 digitValue ds, cs.dropWhile Char.isDigit)

/-- The number goes on as a float. -/
def floats (rest : List Char) : Bool :=
  rest.head?.any fun c => c = '.' || c = 'e' || c = 'E'

def scanInt (cs : List Char) : Option (Value × List Char) :=
  let negative := cs.head? = some '-'
  match scanNat (if negative then cs.tail else cs) with
  | none => none
  | some (n, rest) =>
    if floats rest then none else some (.int (if negative then -(n : Int) else n), rest)

/-- `d[k] = v`. -/
def setKey (o : List (String × Value)) (k : String) (v : Value) : List (String × Value) :=
  if k ∈ o.map (·.1) then o.map fun p => if p.1 = k then (k, v) else p else o ++ [(k, v)]

def dict (pairs : List (String × Value)) : List (String × Value) :=
  pairs.foldl (fun o p => setKey o p.1 p.2) []

def scanString (n : Nat) : List Char → Option (String × List Char)
  | '"' :: cs => (scanChars n cs).map fun x => (String.ofList x.1, x.2)
  | _ => none

def scanColon (cs : List Char) : Option (List Char) :=
  match skip cs with
  | ':' :: rest => some (skip rest)
  | _ => none

/-- Items between commas, up to what closes them. -/
def scanSeq {α : Type} (item : List Char → Option (α × List Char)) (close : Char) :
    Nat → List Char → Option (List α × List Char)
  | 0, _ => none
  | n + 1, cs => do
    let (x, rest) ← item cs
    match skip rest with
    | ',' :: rest => do
      let (xs, rest) ← scanSeq item close n (skip rest)
      some (x :: xs, rest)
    | c :: rest => if c = close then some ([x], rest) else none
    | [] => none

def scanMember (n : Nat) (value : List Char → Option (Value × List Char)) (cs : List Char) :
    Option ((String × Value) × List Char) := do
  let (k, rest) ← scanString n cs
  let rest ← scanColon rest
  let (v, rest) ← value rest
  some ((k, v), rest)

def scanValue : Nat → List Char → Option (Value × List Char)
  | 0, _ => none
  | n + 1, cs =>
    match cs.head? with
    | some '"' => (scanString n cs).map fun x => (.str x.1, x.2)
    | some '[' =>
      if (skip cs.tail).head? = some ']' then some (.arr [], (skip cs.tail).tail)
      else (scanSeq (scanValue n) ']' n (skip cs.tail)).map fun x => (.arr x.1, x.2)
    | some '{' =>
      if (skip cs.tail).head? = some '}' then some (.obj [], (skip cs.tail).tail)
      else (scanSeq (scanMember n (scanValue n)) '}' n (skip cs.tail)).map
        fun x => (.obj (dict x.1), x.2)
    | some 'n' => if "null".toList <+: cs then some (.null, cs.drop 4) else none
    | some 't' => if "true".toList <+: cs then some (.bool true, cs.drop 4) else none
    | some 'f' => if "false".toList <+: cs then some (.bool false, cs.drop 5) else none
    | _ => scanInt cs

/-- `json.loads`. -/
def loads (text : String) : Option Value := do
  let cs := skip text.toList
  let (v, rest) ← scanValue (cs.length + 1) cs
  if skip rest = [] then some v else none

end Read

def dumps (style : Style) (v : Value) : String := String.ofList (write style v)

/-- No object has a key twice. -/
inductive Value.Plain : Value → Prop
  | null : Plain .null
  | bool (b : Bool) : Plain (.bool b)
  | int (n : Int) : Plain (.int n)
  | str (s : String) : Plain (.str s)
  | arr {xs : List Value} : (∀ x ∈ xs, Plain x) → Plain (.arr xs)
  | obj {o : List (String × Value)} : (o.map (·.1)).Nodup → (∀ p ∈ o, Plain p.2) → Plain (.obj o)

end Json
