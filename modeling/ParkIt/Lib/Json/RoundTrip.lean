import ParkIt.Lib.Json.Values
import Mathlib.Tactic.Common

/-! What is written is read back. -/
namespace Json

open Numerals

variable {style : Style} {n : Nat} {cs rest : List Char} {c : Char}

section Blanks

theorem skip_cons (h : isSpace c = false) : skip (c :: cs) = c :: cs := by
  simp [skip, h]

theorem skip_blanks {blanks : List Char} (hblanks : ∀ c ∈ blanks, isSpace c = true)
    (h : isSpace c = false) : skip (blanks ++ c :: cs) = c :: cs := by
  unfold skip
  rw [List.dropWhile_append_of_pos hblanks]
  exact skip_cons h

end Blanks

section Numbers

/-- A number ends here. -/
def Stops (rest : List Char) : Prop := ∀ c ∈ rest.head?, c.isDigit = false ∧ floats [c] = false

theorem isDigit_of_mem_toDigits (h : c ∈ Nat.toDigits 10 n) : c.isDigit = true := by
  obtain ⟨d, hd, rfl⟩ := mem_toDigits (by decide) h
  rw [Nat.isDigit_digitChar]
  exact decide_eq_true hd

theorem toDigits_cons (h : n ≠ 0) : ∃ c cs, Nat.toDigits 10 n = c :: cs ∧ c ≠ '0' := by
  induction n using Nat.strongRecOn with
  | ind n ih =>
    by_cases hn : n < 10
    · refine ⟨Nat.digitChar n, [], Nat.toDigits_of_lt_base hn, fun hzero => h ?_⟩
      exact Nat.digitChar_eq_zero.mp hzero
    · obtain ⟨c, cs, hdigits, hc⟩ := ih (n / 10) (by omega) (by omega)
      refine ⟨c, cs ++ [Nat.digitChar (n % 10)], ?_, hc⟩
      rw [Nat.toDigits_of_base_le (by decide) (Nat.le_of_not_lt hn), hdigits, List.cons_append]

theorem digits_stop (h : Stops rest) :
    (Nat.toDigits 10 n ++ rest).takeWhile Char.isDigit = Nat.toDigits 10 n ∧
      (Nat.toDigits 10 n ++ rest).dropWhile Char.isDigit = rest := by
  have hall : ∀ c ∈ Nat.toDigits 10 n, c.isDigit = true := fun c hc => isDigit_of_mem_toDigits hc
  rw [List.takeWhile_append_of_pos hall, List.dropWhile_append_of_pos hall]
  cases rest with
  | nil => simp
  | cons c rest =>
    have hc := (h c rfl).1
    simp [hc]

theorem digitValue_digitChar : ∀ d < 10, digitValue (Nat.digitChar d) = d := by decide

theorem scanNat_toDigits (h : Stops rest) : scanNat (Nat.toDigits 10 n ++ rest) = some (n, rest) := by
  obtain ⟨htake, hdrop⟩ := digits_stop (n := n) h
  have hvalue : value 10 digitValue (Nat.toDigits 10 n) = n :=
    value_toDigits (by decide) digitValue_digitChar
  unfold scanNat
  rw [htake, hdrop]
  by_cases hn : n = 0
  · subst hn
    rfl
  · obtain ⟨c, cs, hdigits, hc⟩ := toDigits_cons hn
    rw [hdigits] at hvalue ⊢
    split
    · rename_i heq
      cases heq
    · rename_i heq
      exact absurd (List.cons.inj heq).1 hc
    · rw [hvalue]

theorem not_floats (h : Stops rest) : floats rest = false := by
  cases rest with
  | nil => rfl
  | cons c rest => exact (h c rfl).2

/-- The first character of a number. -/
theorem writeInt_cons (i : Int) : ∃ c cs, writeInt i = c :: cs ∧ (c = '-' ∨ c.isDigit = true) := by
  cases i with
  | ofNat n =>
    cases hdigits : Nat.toDigits 10 n with
    | nil => exact absurd hdigits (Nat.toDigits_ne_nil)
    | cons c cs =>
      refine ⟨c, cs, hdigits, Or.inr (isDigit_of_mem_toDigits (n := n) ?_)⟩
      rw [hdigits]
      exact List.mem_cons_self
  | negSucc n => exact ⟨'-', Nat.toDigits 10 (n + 1), rfl, Or.inl rfl⟩

theorem scanInt_writeInt (h : Stops rest) (i : Int) :
    scanInt (writeInt i ++ rest) = some (.int i, rest) := by
  cases i with
  | ofNat n =>
    have hhead : ¬ (Nat.toDigits 10 n ++ rest).head? = some '-' := by
      intro hminus
      obtain ⟨c, cs, hdigits, -⟩ := writeInt_cons (.ofNat n)
      have hc : c.isDigit = true := isDigit_of_mem_toDigits (n := n) (by
        rw [show Nat.toDigits 10 n = c :: cs from hdigits]
        exact List.mem_cons_self)
      rw [show Nat.toDigits 10 n = c :: cs from hdigits] at hminus
      simp only [List.cons_append, List.head?_cons, Option.some.injEq] at hminus
      subst hminus
      exact absurd hc (by decide)
    unfold scanInt writeInt
    simp only [if_neg hhead, scanNat_toDigits h, not_floats h]
    rfl
  | negSucc n =>
    unfold scanInt writeInt
    simp only [List.cons_append, List.head?_cons, if_true, List.tail_cons, scanNat_toDigits h,
      not_floats h]
    rfl

end Numbers

section Sequences
variable {α : Type} {item : List Char → Option (α × List Char)} {out : α → List Char} {close : Char}

/-- Items between commas. -/
def writeSeq (style : Style) (out : α → List Char) : Bool → List α → List Char
  | _, [] => []
  | first, x :: xs => comma style first ++ out x ++ writeSeq style out false xs

/-- An item is read back behind anything that ends it. -/
def Reads (item : List Char → Option (α × List Char)) (out : α → List Char) (x : α) : Prop :=
  ∀ rest, Stops rest → item (out x ++ rest) = some (x, rest)

theorem stops_cons (h : c = ',' ∨ c = ']' ∨ c = '}') : Stops (c :: rest) := by
  rintro c' ⟨⟩
  rcases h with rfl | rfl | rfl <;> decide

theorem scanSeq_writeSeq {x : α} {xs : List α} (hclose : close = ']' ∨ close = '}')
    (hall : ∀ y ∈ x :: xs, Reads item out y)
    (hblank : ∀ y ∈ x :: xs, ∃ c cs, out y = c :: cs ∧ isSpace c = false) (h : xs.length < n) :
    scanSeq item close n (writeSeq style out true (x :: xs) ++ close :: rest) =
      some (x :: xs, rest) := by
  have hspace : isSpace close = false := by rcases hclose with rfl | rfl <;> decide
  have hcomma : close ≠ ',' := by rcases hclose with rfl | rfl <;> decide
  induction xs generalizing x n with
  | nil =>
    obtain ⟨n, rfl⟩ := Nat.exists_eq_succ_of_ne_zero (Nat.ne_of_gt (Nat.zero_lt_of_lt h))
    have hx := hall x List.mem_cons_self (close :: rest) (stops_cons (Or.inr hclose))
    have hone : writeSeq style out true [x] = out x := by simp [writeSeq, comma]
    rw [hone, scanSeq, hx, Option.bind_eq_bind, Option.bind_some]
    dsimp only
    rw [skip_cons hspace]
    split
    · rename_i heq
      exact absurd (List.cons.inj heq).1 hcomma
    · rename_i heq
      obtain ⟨rfl, rfl⟩ := List.cons.inj heq
      exact if_pos rfl
    · rename_i heq
      cases heq
  | cons y ys ih =>
    obtain ⟨n, rfl⟩ := Nat.exists_eq_succ_of_ne_zero (Nat.ne_of_gt (Nat.zero_lt_of_lt h))
    obtain ⟨c, cs, hout, hc⟩ := hblank y (by simp)
    -- the next item, and what stands before it
    have hrest : writeSeq style out false (y :: ys) =
        ',' :: (style.itemSpace ++ writeSeq style out true (y :: ys)) := by
      simp [writeSeq, comma]
    have hskip : skip (style.itemSpace ++ (writeSeq style out true (y :: ys) ++ close :: rest)) =
        writeSeq style out true (y :: ys) ++ close :: rest := by
      simp only [writeSeq, comma, if_true, List.nil_append, hout, List.cons_append]
      exact skip_blanks style.itemBlank hc
    have htail := ih (fun z hz => hall z (List.mem_cons_of_mem x hz))
      (fun z hz => hblank z (List.mem_cons_of_mem x hz)) (Nat.lt_of_succ_lt_succ h)
    have hx := hall x List.mem_cons_self
      (',' :: (style.itemSpace ++ (writeSeq style out true (y :: ys) ++ close :: rest)))
      (stops_cons (Or.inl rfl))
    have hsplit : writeSeq style out true (x :: y :: ys) ++ close :: rest =
        out x ++ ',' :: (style.itemSpace ++ (writeSeq style out true (y :: ys) ++ close :: rest)) := by
      rw [writeSeq, hrest]
      simp [comma]
    rw [hsplit, scanSeq, hx, Option.bind_eq_bind, Option.bind_some]
    dsimp only
    rw [skip_cons (by decide)]
    rw [← hskip] at htail
    exact congrArg (fun o => o.bind fun z : List α × List Char => some (x :: z.1, z.2)) htail

theorem length_le_writeSeq (style : Style) {xs : List α}
    (hblank : ∀ y ∈ xs, ∃ c cs, out y = c :: cs) (first : Bool) : xs.length ≤ (writeSeq style out first xs).length ∧
      ∀ y ∈ xs, (out y).length ≤ (writeSeq style out first xs).length := by
  induction xs generalizing first with
  | nil => simp
  | cons x xs ih =>
    obtain ⟨hcount, hitems⟩ := ih (fun y hy => hblank y (List.mem_cons_of_mem x hy)) false
    obtain ⟨c, cs, hout⟩ := hblank x List.mem_cons_self
    have hlength : (writeSeq style out first (x :: xs)).length =
        (comma style first).length + (out x).length + (writeSeq style out false xs).length := by
      simp [writeSeq, Nat.add_assoc]
    rw [hlength]
    constructor
    · rw [hout]
      simp only [List.length_cons]
      omega
    · intro y hy
      rcases List.mem_cons.mp hy with rfl | hy
      · omega
      · have hle := hitems y hy
        omega

end Sequences

section Values

theorem length_writeString (style : Style) (s : String) :
    s.toList.length + 2 ≤ (writeString style s).length := by
  have hlength := length_le_escapeAll style.ascii s.toList
  simp only [writeString, List.length_cons, List.length_append, List.length_nil, List.cons_append]
  omega

theorem scanString_writeString (s : String) (rest : List Char)
    (h : (writeString style s).length ≤ n) :
    scanString n (writeString style s ++ rest) = some (s, rest) := by
  have hlength := length_writeString style s
  unfold writeString scanString
  simp only [List.cons_append, List.append_assoc, List.nil_append]
  rw [scanChars_escapeAll (by omega)]
  simp

theorem writeItems_eq (style : Style) (first : Bool) (xs : List Value) :
    writeItems style first xs = writeSeq style (write style) first xs := by
  induction xs generalizing first with
  | nil => simp [writeItems, writeSeq]
  | cons x xs ih => simp [writeItems, writeSeq, ih]

theorem writeMembers_eq (style : Style) (first : Bool) (o : List (String × Value)) :
    writeMembers style first o = writeSeq style (writeMember style) first o := by
  induction o generalizing first with
  | nil => simp [writeMembers, writeSeq]
  | cons p o ih => simp [writeMembers, writeSeq, ih]

/-- A value begins with a character that is no blank and closes nothing. -/
theorem write_cons (style : Style) (v : Value) :
    ∃ c cs, write style v = c :: cs ∧ isSpace c = false ∧ c ≠ ']' := by
  cases v with
  | null => exact ⟨'n', "ull".toList, by simp [write], by decide⟩
  | bool b => cases b with
    | true => exact ⟨'t', "rue".toList, by simp [write], by decide⟩
    | false => exact ⟨'f', "alse".toList, by simp [write], by decide⟩
  | int i =>
    obtain ⟨c, cs, hwrite, hc⟩ := writeInt_cons i
    refine ⟨c, cs, by simp [write, hwrite], ?_⟩
    rcases hc with rfl | hc
    · decide
    · constructor
      · by_contra hspace
        rw [Bool.not_eq_false] at hspace
        simp only [isSpace, Bool.or_eq_true, decide_eq_true_eq] at hspace
        rcases hspace with ((rfl | rfl) | rfl) | rfl <;> exact absurd hc (by decide)
      · rintro rfl
        exact absurd hc (by decide)
  | str s =>
    exact ⟨'"', escapeAll style.ascii s.toList ++ ['"'], by simp [write, writeString], by decide⟩
  | arr xs => exact ⟨'[', writeItems style true xs ++ [']'], by simp [write], by decide⟩
  | obj o => exact ⟨'{', writeMembers style true o ++ ['}'], by simp [write], by decide⟩

theorem writeMember_cons (style : Style) (p : String × Value) :
    ∃ cs, writeMember style p = '"' :: cs := by
  obtain ⟨k, v⟩ := p
  exact ⟨escapeAll style.ascii k.toList ++ '"' :: ':' :: style.keySpace ++ write style v,
    by simp [writeMember, writeString]⟩

/-- There is fuel for as many steps as a value has characters. -/
def ReadBack (style : Style) (v : Value) : Prop :=
  ∀ n, (write style v).length < n → Reads (scanValue n) (write style) v

theorem reads_member {k : String} {v : Value} (hv : ReadBack style v)
    (h : (writeMember style (k, v)).length < n) :
    Reads (scanMember n (scanValue n)) (writeMember style) (k, v) := by
  intro rest hrest
  obtain ⟨c, cs, hwrite, hspace, -⟩ := write_cons style v
  have hlength : (writeMember style (k, v)).length =
      (writeString style k).length + (style.keySpace.length + (write style v).length + 1) := by
    simp [writeMember]
  have hcolon : scanColon (':' :: (style.keySpace ++ (write style v ++ rest))) =
      some (write style v ++ rest) := by
    unfold scanColon
    rw [skip_cons (by decide), hwrite, List.cons_append]
    exact congrArg some (skip_blanks style.keyBlank hspace)
  have hsplit : writeMember style (k, v) ++ rest =
      writeString style k ++ ':' :: (style.keySpace ++ (write style v ++ rest)) := by
    simp [writeMember]
  unfold scanMember
  rw [hsplit, scanString_writeString k _ (by omega)]
  simp only [Option.bind_eq_bind, Option.bind_some, hcolon, hv n (by omega) rest hrest]

theorem setKey_new {o : List (String × Value)} {k : String} {v : Value} (h : k ∉ o.map (·.1)) :
    setKey o k v = o ++ [(k, v)] := if_neg h

theorem dict_of_nodup {o : List (String × Value)} (h : (o.map (·.1)).Nodup) : dict o = o := by
  have hfold : ∀ (o acc : List (String × Value)), ((acc ++ o).map (·.1)).Nodup →
      o.foldl (fun o p => setKey o p.1 p.2) acc = acc ++ o := by
    intro o
    induction o with
    | nil => intro acc _; simp
    | cons p o ih =>
      intro acc hnodup
      have hnew : p.1 ∉ acc.map (·.1) := by
        intro hmem
        rw [List.map_append, List.map_cons] at hnodup
        exact (List.nodup_append.mp hnodup).2.2 p.1 hmem p.1 List.mem_cons_self rfl
      rw [List.foldl_cons, setKey_new hnew, ih (acc ++ [(p.1, p.2)]) (by simpa using hnodup)]
      simp
  exact hfold o [] h

theorem scanValue_other (hquote : c ≠ '"') (hbracket : c ≠ '[') (hbrace : c ≠ '{') (hn : c ≠ 'n')
    (ht : c ≠ 't') (hf : c ≠ 'f') : scanValue (n + 1) (c :: cs) = scanInt (c :: cs) := by
  unfold scanValue
  split <;> simp_all

theorem readBack_arr {xs : List Value} (h : ∀ x ∈ xs, ReadBack style x) :
    ReadBack style (.arr xs) := by
  intro n hn rest hrest
  obtain ⟨n, rfl⟩ := Nat.exists_eq_succ_of_ne_zero (Nat.ne_of_gt (Nat.zero_lt_of_lt hn))
  cases xs with
  | nil => simp [write, writeItems, scanValue, skip, isSpace]
  | cons x xs =>
    obtain ⟨c, cs, hwrite, hspace, hclose⟩ := write_cons style x
    have hsplit : write style (.arr (x :: xs)) ++ rest =
        '[' :: (writeSeq style (write style) true (x :: xs) ++ ']' :: rest) := by
      simp [write, writeItems_eq]
    have hlength : (write style (.arr (x :: xs))).length =
        (writeSeq style (write style) true (x :: xs)).length + 2 := by
      simp [write, writeItems_eq]
    have hskip : skip (writeSeq style (write style) true (x :: xs) ++ ']' :: rest) =
        writeSeq style (write style) true (x :: xs) ++ ']' :: rest := by
      simp only [writeSeq, comma, if_true, List.nil_append, hwrite, List.cons_append]
      exact skip_cons hspace
    have hhead : ¬ (writeSeq style (write style) true (x :: xs) ++ ']' :: rest).head? = some ']' := by
      simp only [writeSeq, comma, if_true, List.nil_append, hwrite, List.cons_append,
        List.head?_cons, Option.some.injEq]
      exact hclose
    have hblank : ∀ y ∈ x :: xs, ∃ c cs, write style y = c :: cs ∧ isSpace c = false := by
      intro y _
      obtain ⟨c, cs, hwrite, hspace, -⟩ := write_cons style y
      exact ⟨c, cs, hwrite, hspace⟩
    have hstarts : ∀ y ∈ x :: xs, ∃ c cs, write style y = c :: cs := by
      intro y hy
      obtain ⟨c, cs, hwrite, -⟩ := hblank y hy
      exact ⟨c, cs, hwrite⟩
    obtain ⟨hcount, hitems⟩ := length_le_writeSeq style hstarts true
    rw [List.length_cons] at hcount
    rw [hsplit, scanValue]
    simp only [List.head?_cons, List.tail_cons, hskip, if_neg hhead]
    rw [scanSeq_writeSeq (Or.inl rfl) (fun y hy => h y hy n ?_) hblank (by omega)]
    · rfl
    · have hle := hitems y hy
      omega

theorem readBack_obj {o : List (String × Value)} (hkeys : (o.map (·.1)).Nodup)
    (h : ∀ p ∈ o, ReadBack style p.2) : ReadBack style (.obj o) := by
  intro n hn rest hrest
  obtain ⟨n, rfl⟩ := Nat.exists_eq_succ_of_ne_zero (Nat.ne_of_gt (Nat.zero_lt_of_lt hn))
  cases o with
  | nil => simp [write, writeMembers, scanValue, skip, isSpace]
  | cons p o =>
    obtain ⟨cs, hwrite⟩ := writeMember_cons style p
    have hsplit : write style (.obj (p :: o)) ++ rest =
        '{' :: (writeSeq style (writeMember style) true (p :: o) ++ '}' :: rest) := by
      simp [write, writeMembers_eq]
    have hlength : (write style (.obj (p :: o))).length =
        (writeSeq style (writeMember style) true (p :: o)).length + 2 := by
      simp [write, writeMembers_eq]
    have hskip : skip (writeSeq style (writeMember style) true (p :: o) ++ '}' :: rest) =
        writeSeq style (writeMember style) true (p :: o) ++ '}' :: rest := by
      simp only [writeSeq, comma, if_true, List.nil_append, hwrite, List.cons_append]
      exact skip_cons (by decide)
    have hhead : ¬ (writeSeq style (writeMember style) true (p :: o) ++ '}' :: rest).head? =
        some '}' := by
      simp only [writeSeq, comma, if_true, List.nil_append, hwrite, List.cons_append,
        List.head?_cons, Option.some.injEq]
      decide
    have hblank : ∀ q ∈ p :: o, ∃ c cs, writeMember style q = c :: cs ∧ isSpace c = false := by
      intro q _
      obtain ⟨cs, hwrite⟩ := writeMember_cons style q
      exact ⟨'"', cs, hwrite, by decide⟩
    have hstarts : ∀ q ∈ p :: o, ∃ c cs, writeMember style q = c :: cs :=
      fun q _ => ⟨'"', writeMember_cons style q⟩
    obtain ⟨hcount, hitems⟩ := length_le_writeSeq style hstarts true
    rw [List.length_cons] at hcount
    rw [hsplit, scanValue]
    simp only [List.head?_cons, List.tail_cons, hskip, if_neg hhead]
    rw [scanSeq_writeSeq (Or.inr rfl) (fun q hq => ?_) hblank (by omega)]
    · simp only [Option.map_some, dict_of_nodup hkeys]
    · have hle := hitems q hq
      exact reads_member (k := q.1) (v := q.2) (h q hq) (Nat.lt_of_le_of_lt hle (by omega))

/-- Every plain value is read back from what is written of it. -/
theorem readBack_of_plain {v : Value} (h : v.Plain) : ReadBack style v := by
  induction h with
  | null =>
    intro n hn rest _
    obtain ⟨n, rfl⟩ := Nat.exists_eq_succ_of_ne_zero (Nat.ne_of_gt (Nat.zero_lt_of_lt hn))
    simp [write, scanValue]
  | bool b =>
    intro n hn rest _
    obtain ⟨n, rfl⟩ := Nat.exists_eq_succ_of_ne_zero (Nat.ne_of_gt (Nat.zero_lt_of_lt hn))
    cases b <;> simp [write, scanValue]
  | int i =>
    intro n hn rest hrest
    obtain ⟨n, rfl⟩ := Nat.exists_eq_succ_of_ne_zero (Nat.ne_of_gt (Nat.zero_lt_of_lt hn))
    obtain ⟨c, cs, hwrite, hc⟩ := writeInt_cons i
    have hscan := scanInt_writeInt hrest i
    have hint : write style (.int i) = writeInt i := by simp [write]
    rw [hint]
    rw [hwrite, List.cons_append] at hscan ⊢
    have hother : ∀ d : Char, d ≠ '-' → d.isDigit = false → c ≠ d := by
      rintro d hminus hdigit rfl
      rcases hc with hc | hc
      · exact hminus hc
      · rw [hc] at hdigit
        cases hdigit
    rw [scanValue_other (hother _ (by decide) (by decide)) (hother _ (by decide) (by decide))
      (hother _ (by decide) (by decide)) (hother _ (by decide) (by decide))
      (hother _ (by decide) (by decide)) (hother _ (by decide) (by decide))]
    exact hscan
  | str s =>
    intro n hn rest _
    obtain ⟨n, rfl⟩ := Nat.exists_eq_succ_of_ne_zero (Nat.ne_of_gt (Nat.zero_lt_of_lt hn))
    have hstr : write style (.str s) = writeString style s := by simp [write]
    rw [hstr] at hn ⊢
    have hscan := scanString_writeString s rest (Nat.le_of_lt_succ hn)
    have hquote : (writeString style s ++ rest).head? = some '"' := by simp [writeString]
    unfold scanValue
    rw [hquote]
    simp only [hscan, Option.map_some]
  | arr _ ih => exact readBack_arr ih
  | obj hkeys _ ih => exact readBack_obj hkeys ih

/-- `json.loads` of what is dumped in any style is the value. -/
theorem loads_dumps {v : Value} (h : v.Plain) : loads (dumps style v) = some v := by
  obtain ⟨c, cs, hwrite, hspace, -⟩ := write_cons style v
  have hskip : skip (write style v) = write style v := by
    rw [hwrite]
    exact skip_cons hspace
  have hback : ReadBack style v := readBack_of_plain h
  have hread := hback ((write style v).length + 1) (Nat.lt_succ_self _) [] (by rintro c ⟨⟩)
  rw [List.append_nil] at hread
  unfold loads dumps
  rw [String.toList_ofList, hskip]
  dsimp only
  rw [hread]
  rfl

end Values
end Json
