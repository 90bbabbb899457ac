import ParkIt.Upload.Worker
import Mathlib.Data.List.Induction

/-! The bank's response files: a header, and each submitted payload with its status. -/
namespace ParkIt.Upload

open Settlement

def responseStatusCodes : List (String × String) :=
  [("00", "Accepted"), ("01", "Invalid Format"), ("02", "Duplicate Data"),
   ("03", "Transaction count mismatch"), ("04", "Transaction amount mismatch"),
   ("05", "Invalid Merchant Terminal"), ("07", "Data Corrupt"), ("08", "Invalid Device SN"),
   ("09", "Invalid Bank Log"), ("10", "Invalid Filename Format"), ("11", "Invalid Header Format")]

structure ResponseRow where
  settlementPayloadHex : String
  status : String
  statusDescription : String
deriving DecidableEq, Repr

structure Response where
  trxType : String := ""
  trxCount : Int := 0
  results : List ResponseRow := []
deriving DecidableEq, Repr

/-- The characters that `strip` takes away. -/
def isBlank (c : Char) : Bool :=
  let n := c.toNat
  decide (9 ≤ n ∧ n ≤ 13 ∨ 28 ≤ n ∧ n ≤ 32 ∨ n = 0x85 ∨ n = 0xa0 ∨ n = 0x1680 ∨
    0x2000 ≤ n ∧ n ≤ 0x200a ∨ n = 0x2028 ∨ n = 0x2029 ∨ n = 0x202f ∨ n = 0x205f ∨ n = 0x3000)

def strip (cs : List Char) : List Char :=
  ((cs.dropWhile isBlank).reverse.dropWhile isBlank).reverse

/-- Digits, with single underscores between them. -/
def intDigits : List Char → Option (List Char)
  | [] => none
  | [c] => if c.isDigit then some [c] else none
  | c :: '_' :: d :: cs => if c.isDigit then (intDigits (d :: cs)).map (c :: ·) else none
  | c :: cs => if c.isDigit then (intDigits cs).map (c :: ·) else none

/-- `int(s)` of ASCII text. -/
def pyInt (cs : List Char) : Option Int :=
  match strip cs with
  | '-' :: cs => (intDigits cs).map fun ds => -(Nat.ofDigitChars 10 ds 0 : Int)
  | '+' :: cs => (intDigits cs).map fun ds => (Nat.ofDigitChars 10 ds 0 : Int)
  | cs => (intDigits cs).map fun ds => (Nat.ofDigitChars 10 ds 0 : Int)

def responseRow (payload status : List Char) : ResponseRow where
  settlementPayloadHex := upper (String.ofList payload)
  status := String.ofList status
  statusDescription := (responseStatusCodes.lookup (String.ofList status)).getD "Unknown"

def parseLine (line : List Char) : Option ResponseRow :=
  if line.length < 2 then none
  else some (responseRow (line.take (line.length - 2)) (line.drop (line.length - 2)))

def parseOkResponse (content : String) : Response :=
  match (strip content.toList).splitOn '\n' with
  | [] => {}
  | header :: lines =>
    if header.length < 5 then {}
    else
      { trxType := String.ofList (header.take 2)
        trxCount := (pyInt ((header.drop 2).take 3)).getD 0
        results := lines.filterMap parseLine }

def parseNokResponse (content : String) : Response := parseOkResponse content

/-- The later of two rows with one payload overwrites the earlier. -/
def statusByPayload (results : List ResponseRow) : String → Option String :=
  results.foldl (fun d r => setKey d r.settlementPayloadHex (some r.status)) fun _ => none

/-- A line of a response: one line of text, and a status of two characters. -/
structure Line where
  payload : List Char
  status : Char × Char
  one_line : '\n' ∉ payload
  status_ok : isBlank status.1 = false ∧ isBlank status.2 = false

namespace Line
variable (l : Line)

def code : String := String.ofList [l.status.1, l.status.2]

def text : List Char := l.payload ++ [l.status.1, l.status.2]

def row : ResponseRow := responseRow l.payload [l.status.1, l.status.2]

end Line

/-- What the bank lists. -/
structure Listing where
  trxType : Char × Char
  trxCount : Nat
  lines : List Line
  type_ok : isBlank trxType.1 = false ∧ isBlank trxType.2 = false
  count_ok : trxCount < 1000

namespace Listing
variable (l : Listing)

def header : List Char := l.trxType.1 :: l.trxType.2 :: (padded 3 l.trxCount).toList

def body : List Char := l.header ++ l.lines.flatMap fun line => '\n' :: line.text

/-- The file may end with a line break. -/
def text (ends : Bool) : String := String.ofList (l.body ++ if ends then ['\n'] else [])

end Listing

section Strip
variable {cs tail : List Char}

theorem strip_append (hfirst : ∃ x xs, cs = x :: xs ∧ isBlank x = false)
    (hlast : ∃ xs x, cs = xs ++ [x] ∧ isBlank x = false) (htail : ∀ c ∈ tail, isBlank c = true) :
    strip (cs ++ tail) = cs := by
  obtain ⟨x, xs, hx, hblank⟩ := hfirst
  obtain ⟨ys, y, hy, hblank'⟩ := hlast
  have hleft : (cs ++ tail).dropWhile isBlank = cs ++ tail := by
    rw [hx, List.cons_append, List.dropWhile_cons_of_neg (by simp [hblank])]
  have hright : (tail.reverse ++ cs.reverse).dropWhile isBlank = cs.reverse := by
    rw [List.dropWhile_append_of_pos fun c hc => htail c (List.mem_reverse.mp hc), hy,
      List.reverse_append, List.reverse_singleton, List.singleton_append,
      List.dropWhile_cons_of_neg (by simp [hblank'])]
  rw [strip, hleft, List.reverse_append, hright, List.reverse_reverse]

end Strip

section Upper

theorem upperChar_upperChar (c : Char) : (upperChar c).flatMap upperChar = upperChar c := by
  by_cases hlower : c ∈ lowerChars
  · have hall : lowerChars.all fun c => (upperChar c).flatMap upperChar == upperChar c := by decide
    exact eq_of_beq (List.all_eq_true.mp hall c hlower)
  · have hself := upperChar_eq_self hlower
    rw [hself, List.flatMap_singleton, hself]

@[simp] theorem upper_upper (s : String) : upper (upper s) = upper s := by
  simp only [upper, String.toList_ofList, List.flatMap_assoc, upperChar_upperChar]

end Upper

section Lookup
variable {results : List ResponseRow} {key : String}

/-- The status of a payload that is listed is that of one of its rows. -/
theorem statusByPayload_listed (h : ∃ row ∈ results, row.settlementPayloadHex = key) :
    ∃ row ∈ results, row.settlementPayloadHex = key ∧
      statusByPayload results key = some row.status := by
  induction results using List.reverseRecOn with
  | nil =>
    obtain ⟨row, hrow, -⟩ := h
    cases hrow
  | append_singleton results last ih =>
    have hfold : statusByPayload (results ++ [last]) =
        setKey (statusByPayload results) last.settlementPayloadHex (some last.status) := by
      rw [statusByPayload, List.foldl_append]
      rfl
    by_cases hlast : last.settlementPayloadHex = key
    · exact ⟨last, by simp, hlast, by rw [hfold, setKey, if_pos hlast.symm]⟩
    · obtain ⟨row, hrow, hkey⟩ := h
      have hmem : row ∈ results := by
        rcases List.mem_append.mp hrow with hrow | hrow
        · exact hrow
        · exact absurd (List.mem_singleton.mp hrow ▸ hkey) hlast
      obtain ⟨found, hfound, hsame, hstatus⟩ := ih ⟨row, hmem, hkey⟩
      refine ⟨found, List.mem_append_left _ hfound, hsame, ?_⟩
      rw [hfold, setKey, if_neg (Ne.symm hlast), hstatus]

end Lookup

section Parse
variable (l : Listing)

theorem solid_of_all {cs : List Char} (h : cs.all (fun c => !isBlank c) = true) :
    ∀ c ∈ cs, isBlank c = false := fun c hc => Bool.not_eq_true' _ |>.mp (List.all_eq_true.mp h c hc)

theorem isBlank_digit {c : Char} (h : c.isDigit = true) : isBlank c = false := by
  have hrange : 48 ≤ c.toNat ∧ c.toNat ≤ 57 := by
    simp only [Char.isDigit, ge_iff_le, Bool.and_eq_true, decide_eq_true_eq] at h
    exact h
  unfold isBlank
  rw [decide_eq_false_iff_not]
  omega

theorem length_header : l.header.length = 5 := by
  have hpadded : (padded 3 l.trxCount).length = 3 := length_padded l.count_ok (by decide)
  rw [Listing.header, List.length_cons, List.length_cons, String.length_toList, hpadded]

theorem newline_header : '\n' ∉ l.header := by
  intro h
  have hblank : isBlank '\n' = true := by decide
  rcases List.mem_cons.mp h with h | h
  · exact absurd (h ▸ hblank) (by simp [l.type_ok.1])
  rcases List.mem_cons.mp h with h | h
  · exact absurd (h ▸ hblank) (by simp [l.type_ok.2])
  · exact absurd (isDigit_padded h) (by decide)

theorem newline_line (line : Line) : '\n' ∉ line.text := by
  intro h
  have hblank : isBlank '\n' = true := by decide
  rcases List.mem_append.mp h with h | h
  · exact line.one_line h
  · rcases List.mem_cons.mp h with h | h
    · exact absurd (h ▸ hblank) (by simp [line.status_ok.1])
    · exact absurd (List.mem_singleton.mp h ▸ hblank) (by simp [line.status_ok.2])

theorem body_first : ∃ x xs, l.body = x :: xs ∧ isBlank x = false :=
  ⟨_, _, rfl, l.type_ok.1⟩

theorem body_last : ∃ xs x, l.body = xs ++ [x] ∧ isBlank x = false := by
  rcases List.eq_nil_or_concat' l.lines with hnil | ⟨lines, line, hlines⟩
  · have hdigits : (padded 3 l.trxCount).toList ≠ [] := by
      intro h
      have hlength := length_header l
      rw [Listing.header, h] at hlength
      cases hlength
    refine ⟨l.trxType.1 :: l.trxType.2 :: (padded 3 l.trxCount).toList.dropLast,
      (padded 3 l.trxCount).toList.getLast hdigits, ?_,
      isBlank_digit (isDigit_padded (List.getLast_mem hdigits))⟩
    rw [Listing.body, hnil, List.flatMap_nil, List.append_nil, List.cons_append, List.cons_append,
      List.dropLast_append_getLast]
    rfl
  · refine ⟨l.header ++ lines.flatMap (fun line => '\n' :: line.text) ++
      '\n' :: (line.payload ++ [line.status.1]), line.status.2, ?_, line.status_ok.2⟩
    rw [Listing.body, hlines, List.flatMap_append, List.flatMap_singleton, Line.text]
    simp

/-- The lines of a response come back. -/
theorem lines_text (ends : Bool) :
    (strip (l.text ends).toList).splitOn '\n' = l.header :: l.lines.map Line.text := by
  have hends : ∀ c ∈ (if ends then ['\n'] else []), isBlank c = true := by
    cases ends
    · exact fun c hc => nomatch hc
    · exact fun c hc => List.mem_singleton.mp hc ▸ by decide
  have hbody : l.body = ['\n'].intercalate (l.header :: l.lines.map Line.text) := by
    unfold Listing.body
    generalize l.header = header
    induction l.lines generalizing header with
    | nil => simp
    | cons line lines ih =>
      rw [List.flatMap_cons, List.map_cons, List.intercalate_cons_cons, ← ih line.text]
      simp
  rw [Listing.text, String.toList_ofList, strip_append (body_first l) (body_last l) hends, hbody]
  refine List.splitOn_intercalate _ (fun line hline => ?_) (List.cons_ne_nil _ _)
  rcases List.mem_cons.mp hline with rfl | hline
  · exact newline_header l
  · obtain ⟨line, -, rfl⟩ := List.mem_map.mp hline
    exact newline_line line

theorem parseLine_text (line : Line) : parseLine line.text = some line.row := by
  have hlength : line.text.length - 2 = line.payload.length := by
    rw [Line.text, List.length_append]
    rfl
  unfold parseLine
  rw [if_neg (by rw [Line.text, List.length_append]; simp), hlength, Line.text,
    List.take_left, List.drop_left]
  rfl

/-- Parsing gives the type and the listed rows, in their order. -/
theorem parse_text (ends : Bool) :
    (parseOkResponse (l.text ends)).trxType = String.ofList [l.trxType.1, l.trxType.2] ∧
    (parseOkResponse (l.text ends)).results = l.lines.map Line.row := by
  unfold parseOkResponse
  rw [lines_text]
  dsimp only
  rw [if_neg (by rw [length_header]; decide)]
  refine ⟨rfl, ?_⟩
  rw [List.filterMap_map, Function.comp_def]
  simp only [parseLine_text, List.filterMap_eq_map']

end Parse

section Number

theorem strip_solid {cs : List Char} (hne : cs ≠ []) (h : ∀ c ∈ cs, isBlank c = false) :
    strip cs = cs := by
  have hfirst : ∃ x xs, cs = x :: xs ∧ isBlank x = false := by
    obtain ⟨x, xs, rfl⟩ := List.exists_cons_of_ne_nil hne
    exact ⟨x, xs, rfl, h x List.mem_cons_self⟩
  have hlast : ∃ xs x, cs = xs ++ [x] ∧ isBlank x = false :=
    ⟨cs.dropLast, cs.getLast hne, (List.dropLast_append_getLast hne).symm,
      h _ (List.getLast_mem hne)⟩
  have hstrip : strip (cs ++ []) = cs :=
    strip_append hfirst hlast fun c hc => absurd hc List.not_mem_nil
  rwa [List.append_nil] at hstrip

theorem strip_digits {cs : List Char} (hne : cs ≠ []) (h : ∀ c ∈ cs, c.isDigit) : strip cs = cs :=
  strip_solid hne fun c hc => isBlank_digit (h c hc)

theorem intDigits_digits {cs : List Char} (hne : cs ≠ []) (h : ∀ c ∈ cs, c.isDigit) :
    intDigits cs = some cs := by
  induction cs with
  | nil => exact absurd rfl hne
  | cons c cs ih =>
    have hc := h c List.mem_cons_self
    rcases cs with - | ⟨d, cs⟩
    · rw [intDigits, if_pos hc]
    · have hrest := ih (List.cons_ne_nil _ _) fun e he => h e (List.mem_cons_of_mem _ he)
      have hd : d ≠ '_' := by
        rintro rfl
        exact absurd (h '_' (List.mem_cons_of_mem _ List.mem_cons_self)) (by decide)
      rw [intDigits, if_pos hc, hrest]
      · rfl
      · simp
      · simp [hd]

theorem pyInt_digits {cs : List Char} (hne : cs ≠ []) (h : ∀ c ∈ cs, c.isDigit) :
    pyInt cs = some (Nat.ofDigitChars 10 cs 0 : Int) := by
  have hsign : ∀ c ∈ cs, c ≠ '-' ∧ c ≠ '+' := by
    intro c hc
    constructor
    · rintro rfl
      exact absurd (h _ hc) (by decide)
    · rintro rfl
      exact absurd (h _ hc) (by decide)
  unfold pyInt
  rw [strip_digits hne h]
  split
  · exact absurd rfl (hsign '-' List.mem_cons_self).1
  · exact absurd rfl (hsign '+' List.mem_cons_self).2
  · rw [intDigits_digits hne h, Option.map_some]

end Number

/-- A row of a settlement file with the bank's status for it. -/
structure RowAnswer where
  payload : String
  status : Char × Char
  uppercase : upper payload = payload
  solid : ∀ c ∈ payload.toList, isBlank c = false
  digits : status.1.isDigit ∧ status.2.isDigit

namespace RowAnswer
variable (a : RowAnswer)

def code : String := String.ofList [a.status.1, a.status.2]

def line : Line where
  payload := a.payload.toList
  status := a.status
  one_line h := absurd (a.solid '\n' h) (by decide)
  status_ok := ⟨isBlank_digit a.digits.1, isBlank_digit a.digits.2⟩

def row : ResponseRow where
  settlementPayloadHex := a.payload
  status := a.code
  statusDescription := (responseStatusCodes.lookup a.code).getD "Unknown"

end RowAnswer

/-- The response of a bank to a file of at most 999 rows. -/
def response (trxType : Char × Char) (answers : List RowAnswer)
    (htype : isBlank trxType.1 = false ∧ isBlank trxType.2 = false)
    (hcount : answers.length ≤ 999) : Listing where
  trxType := trxType
  trxCount := answers.length
  lines := answers.map RowAnswer.line
  type_ok := htype
  count_ok := Nat.lt_succ_of_le hcount

section Response
variable (l : Listing)

theorem trxCount_text (ends : Bool) : (parseOkResponse (l.text ends)).trxCount = l.trxCount := by
  have hdigits : ∀ c ∈ (padded 3 l.trxCount).toList, c.isDigit := fun c hc => isDigit_padded hc
  have hlength : (padded 3 l.trxCount).toList.length = 3 := by
    rw [String.length_toList]
    exact length_padded l.count_ok (by decide)
  have hcount : (l.header.drop 2).take 3 = (padded 3 l.trxCount).toList := by
    rw [Listing.header, List.drop_succ_cons, List.drop_succ_cons, List.drop_zero,
      List.take_of_length_le (le_of_eq hlength)]
  unfold parseOkResponse
  rw [lines_text]
  dsimp only
  rw [if_neg (by rw [length_header]; decide)]
  dsimp only
  rw [hcount, pyInt_digits (List.ne_nil_of_length_eq_add_one hlength) hdigits,
    ofDigitChars_padded]
  rfl

theorem row_line (a : RowAnswer) : a.line.row = a.row := by
  unfold Line.row responseRow RowAnswer.row RowAnswer.code
  dsimp only [RowAnswer.line]
  rw [String.ofList_toList, a.uppercase]

/-- Parsing a response gives its type, its count and its rows, in their order. -/
theorem parse_response (trxType : Char × Char) (answers : List RowAnswer)
    (htype : isBlank trxType.1 = false ∧ isBlank trxType.2 = false)
    (hcount : answers.length ≤ 999) (ends : Bool) :
    parseOkResponse ((response trxType answers htype hcount).text ends) =
      { trxType := String.ofList [trxType.1, trxType.2]
        trxCount := answers.length
        results := answers.map RowAnswer.row } := by
  obtain ⟨htypes, hresults⟩ := parse_text (response trxType answers htype hcount) ends
  have hnumber := trxCount_text (response trxType answers htype hcount) ends
  have hrows : ((response trxType answers htype hcount).lines).map Line.row =
      answers.map RowAnswer.row := by
    change (answers.map RowAnswer.line).map Line.row = _
    rw [List.map_map]
    exact List.map_congr_left fun a _ => row_line a
  rw [hrows] at hresults
  rcases hparse : parseOkResponse ((response trxType answers htype hcount).text ends) with
    ⟨t, n, rs⟩
  rw [hparse] at htypes hresults hnumber
  rw [Response.mk.injEq]
  exact ⟨htypes, hnumber, hresults⟩

/-- An empty payload and a missing line break at the end. -/
theorem parse_response_empty_payload :
    parseOkResponse ((response ('0', '1')
      [⟨"01AB", ('0', '0'), by decide, solid_of_all rfl, by decide⟩,
        ⟨"", ('0', '2'), by decide, solid_of_all rfl, by decide⟩] (by decide) (by decide)).text
          false) =
      { trxType := "01", trxCount := 2
        results := [⟨"01AB", "00", "Accepted"⟩, ⟨"", "02", "Duplicate Data"⟩] } :=
  parse_response ('0', '1') _ (by decide) (by decide) false

end Response
end ParkIt.Upload
