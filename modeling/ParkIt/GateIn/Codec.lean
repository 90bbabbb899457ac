import ParkIt.GateIn.Daemon

/-! Commands of the API as the daemon reads them back. -/
namespace ParkIt.GateIn

open Effects Upload

section Numbers

theorem toList_toString_int (n : Int) : (toString n).toList =
    (if n < 0 then ['-'] else []) ++ (toString n.natAbs).toList := by
  cases n with
  | ofNat m =>
    rw [if_neg (by simp)]
    rfl
  | negSucc m =>
    rw [if_pos (Int.negSucc_lt_zero m)]
    have htext : toString (Int.negSucc m) = "-" ++ toString (m + 1) := rfl
    rw [htext, String.toList_append]
    rfl

theorem toList_toString_nat (n : Nat) : (toString n).toList = Nat.toDigits 10 n :=
  Nat.toList_repr

/-- `int(str(n)) == n`. -/
theorem pyInt_toString (n : Int) : pyInt (toString n).toList = some n := by
  have hne : Nat.toDigits 10 n.natAbs ≠ [] := Nat.toDigits_ne_nil
  have hdigits : ∀ c ∈ Nat.toDigits 10 n.natAbs, c.isDigit = true := fun c hc =>
    Nat.isDigit_of_mem_toDigits (by decide) (by decide) hc
  have hvalue : Nat.ofDigitChars 10 (Nat.toDigits 10 n.natAbs) 0 = n.natAbs :=
    Nat.ofDigitChars_ten_toDigits
  rw [toList_toString_int, toList_toString_nat]
  by_cases hneg : n < 0
  · have hsolid : ∀ c ∈ '-' :: Nat.toDigits 10 n.natAbs, isBlank c = false := by
      intro c hc
      rcases List.mem_cons.mp hc with rfl | hc
      · decide
      · exact isBlank_digit (hdigits c hc)
    have hparsed : (intDigits (Nat.toDigits 10 n.natAbs)).map
        (fun ds => -(Nat.ofDigitChars 10 ds 0 : Int)) = some n := by
      rw [intDigits_digits hne hdigits, Option.map_some, hvalue]
      exact congrArg some (by omega)
    rw [if_pos hneg, List.singleton_append, pyInt, strip_solid (List.cons_ne_nil _ _) hsolid]
    exact hparsed
  · rw [if_neg hneg, List.nil_append, pyInt_digits hne hdigits, hvalue]
    exact congrArg some (by omega)

end Numbers

/-- A run of digits. -/
structure Digits where
  text : List Char
  nonempty : text ≠ []
  digit : ∀ c ∈ text, c.isDigit = true

/-- What `repr` makes of a float that is not negative. -/
inductive FloatText where
  | inf
  | nan
  | decimal (whole frac : Digits)
  | scientific (whole : Digits) (frac : Option Digits) (negative : Bool) (exponent : Digits)

namespace FloatText

def body : FloatText → List Char
  | .inf => "inf".toList
  | .nan => "nan".toList
  | .decimal whole frac => whole.text ++ '.' :: frac.text
  | .scientific whole frac negative exponent =>
    whole.text ++ (frac.elim [] fun ds => '.' :: ds.text) ++
      'e' :: (if negative then '-' else '+') :: exponent.text

/-- `repr(x)`. -/
def repr (negative : Bool) (x : FloatText) : String :=
  String.ofList ((if negative then ['-'] else []) ++ x.body)

end FloatText

theorem afterDigits_append (ds : Digits) {rest : List Char}
    (h : ∀ c cs, rest = c :: cs → c.isDigit = false ∧ c ≠ '_') :
    afterDigits (ds.text ++ rest) = some rest := by
  have hin : ∀ c ∈ ds.text, (c.isDigit || c = '_') = true := fun c hc => by simp [ds.digit c hc]
  have hout : rest.takeWhile (fun c => c.isDigit || c = '_') = [] := by
    cases rest with
    | nil => rfl
    | cons c cs =>
      obtain ⟨hdigit, hscore⟩ := h c cs rfl
      simp [hdigit, hscore]
  have hrun : (ds.text ++ rest).takeWhile (fun c => c.isDigit || c = '_') = ds.text := by
    rw [List.takeWhile_append_of_pos hin, hout, List.append_nil]
  unfold afterDigits
  dsimp only
  rw [hrun, intDigits_digits ds.nonempty ds.digit, Option.map_some, List.drop_left]

theorem afterDigits_digits (ds : Digits) : afterDigits ds.text = some [] := by
  have h : afterDigits (ds.text ++ []) = some [] :=
    afterDigits_append ds fun c cs hcs => by cases hcs
  rwa [List.append_nil] at h

theorem exponentOk_exponent (negative : Bool) (ds : Digits) :
    exponentOk ('e' :: (if negative then '-' else '+') :: ds.text) = true := by
  cases negative <;> simp [exponentOk, afterDigits_digits]

/-- What `float` makes of the text behind the sign. -/
def floatBody (cs : List Char) : Bool :=
  ["inf", "infinity", "nan"].contains (String.ofList (cs.map Char.toLower)) ||
    match afterDigits cs with
    | some ('.' :: cs) => exponentOk ((afterDigits cs).getD cs)
    | some cs => exponentOk cs
    | none =>
      match cs with
      | '.' :: cs => (afterDigits cs).elim false exponentOk
      | _ => false

theorem floatBody_point {cs rest : List Char} (h : afterDigits cs = some ('.' :: rest))
    (hrest : exponentOk ((afterDigits rest).getD rest) = true) : floatBody cs = true := by
  unfold floatBody
  rw [h]
  exact Bool.or_eq_true_iff.mpr (Or.inr hrest)

theorem floatBody_exponent {cs rest : List Char} (h : afterDigits cs = some ('e' :: rest))
    (hrest : exponentOk ('e' :: rest) = true) : floatBody cs = true := by
  unfold floatBody
  rw [h]
  exact Bool.or_eq_true_iff.mpr (Or.inr hrest)

theorem floatBody_body (x : FloatText) : floatBody x.body = true := by
  have hpoint : ∀ (ds : Digits) (rest : List Char),
      afterDigits (ds.text ++ '.' :: rest) = some ('.' :: rest) := by
    intro ds rest
    refine afterDigits_append ds fun c cs hcs => ?_
    obtain ⟨rfl, -⟩ := List.cons.inj hcs
    decide
  have he : ∀ (ds : Digits) (rest : List Char),
      afterDigits (ds.text ++ 'e' :: rest) = some ('e' :: rest) := by
    intro ds rest
    refine afterDigits_append ds fun c cs hcs => ?_
    obtain ⟨rfl, -⟩ := List.cons.inj hcs
    decide
  cases x with
  | inf => decide
  | nan => decide
  | decimal whole frac =>
    refine floatBody_point (hpoint whole frac.text) ?_
    rw [afterDigits_digits]
    rfl
  | scientific whole frac negative exponent =>
    have hexp := exponentOk_exponent negative exponent
    cases frac with
    | none =>
      refine floatBody_exponent ?_ hexp
      rw [FloatText.body, Option.elim_none, List.append_nil, he]
    | some ds =>
      refine floatBody_point (?_ : _ = some ('.' :: (ds.text ++ 'e' ::
        (if negative then '-' else '+') :: exponent.text))) ?_
      · rw [FloatText.body, Option.elim_some, List.append_assoc, List.cons_append, hpoint]
      · rw [he]
        exact hexp

theorem isBlank_body (x : FloatText) : ∀ c ∈ x.body, isBlank c = false := by
  have hdigits : ∀ ds : Digits, ∀ c ∈ ds.text, isBlank c = false := fun ds c hc =>
    isBlank_digit (ds.digit c hc)
  intro c hc
  cases x with
  | inf => exact solid_of_all (by decide : "inf".toList.all fun c => !isBlank c) c hc
  | nan => exact solid_of_all (by decide : "nan".toList.all fun c => !isBlank c) c hc
  | decimal whole frac =>
    rcases List.mem_append.mp hc with hc | hc
    · exact hdigits whole c hc
    · rcases List.mem_cons.mp hc with rfl | hc
      · decide
      · exact hdigits frac c hc
  | scientific whole frac negative exponent =>
    rcases List.mem_append.mp hc with hc | hc
    · rcases List.mem_append.mp hc with hc | hc
      · exact hdigits whole c hc
      · cases frac with
        | none => cases hc
        | some ds =>
          rcases List.mem_cons.mp hc with rfl | hc
          · decide
          · exact hdigits ds c hc
    · rcases List.mem_cons.mp hc with rfl | hc
      · decide
      rcases List.mem_cons.mp hc with rfl | hc
      · cases negative <;> decide
      · exact hdigits exponent c hc

/-- There is no sign in front of the text. -/
theorem body_unsigned (x : FloatText) : ∃ c cs, x.body = c :: cs ∧ c ≠ '+' ∧ c ≠ '-' := by
  have hdigits : ∀ (ds : Digits) (rest : List Char),
      ∃ c cs, ds.text ++ rest = c :: cs ∧ c ≠ '+' ∧ c ≠ '-' := by
    intro ds rest
    obtain ⟨c, cs, hcs⟩ := List.exists_cons_of_ne_nil ds.nonempty
    have hc := ds.digit c (hcs ▸ List.mem_cons_self)
    refine ⟨c, cs ++ rest, by rw [hcs, List.cons_append], ?_, ?_⟩
    · rintro rfl
      exact absurd hc (by decide)
    · rintro rfl
      exact absurd hc (by decide)
  cases x with
  | inf => exact ⟨'i', ['n', 'f'], rfl, by decide, by decide⟩
  | nan => exact ⟨'n', ['a', 'n'], rfl, by decide, by decide⟩
  | decimal whole frac => exact hdigits _ _
  | scientific whole frac negative exponent =>
    rw [FloatText.body, List.append_assoc]
    exact hdigits _ _

/-- `float(repr(x))` comes back. -/
theorem isFloat_repr (negative : Bool) (x : FloatText) : isFloat (x.repr negative) = true := by
  have hfloat := floatBody_body x
  obtain ⟨c, cs, hcs, hplus, hminus⟩ := body_unsigned x
  have hne : x.body ≠ [] := hcs ▸ List.cons_ne_nil c cs
  unfold isFloat
  rw [FloatText.repr, String.toList_ofList]
  cases negative with
  | true =>
    have hsolid : ∀ c ∈ '-' :: x.body, isBlank c = false := by
      intro c hc
      rcases List.mem_cons.mp hc with rfl | hc
      · decide
      · exact isBlank_body x c hc
    have hstrip : strip ((if true then ['-'] else []) ++ x.body) = '-' :: x.body :=
      strip_solid (List.cons_ne_nil _ _) hsolid
    rw [hstrip]
    exact hfloat
  | false =>
    have hstrip : strip ((if false then ['-'] else []) ++ x.body) = x.body :=
      strip_solid hne (isBlank_body x)
    rw [hstrip, hcs]
    rw [hcs] at hfloat
    split
    · rename_i heq
      exact absurd (List.cons.inj heq).1 hplus
    · rename_i heq
      exact absurd (List.cons.inj heq).1 hminus
    · exact hfloat

/-- A field of a command in `model_dump(mode="json")`: a float by its `repr`, a nested dict by its
`json.dumps`. -/
inductive JsonValue where
  | null
  | dict (dumps : String)
  | str (s : String)
  | int (n : Int)
  | float (text : String)
deriving DecidableEq, Repr

namespace JsonValue

/-- `json.dumps(value)` of a dict, `str(value)` of the rest. -/
def text : JsonValue → Option String
  | .null => some "None"
  | .dict dumps => some dumps
  | .str s => some s
  | .int n => pyStr n
  | .float text => some text

end JsonValue

namespace RedisCommand

/-- The fields of the subtype, in their order. -/
def ownPayload : RedisCommand → List (String × JsonValue)
  | .openGate durationSeconds reason =>
    [("duration_seconds", (durationSeconds.map JsonValue.int).getD .null), ("reason", .str reason)]
  | .closeGate reason => [("reason", .str reason)]
  | .playAudio track => [("track", .int track)]
  | .displayText line1 line2 brightness mode =>
    [("line1", .str line1), ("line2", .str line2), ("brightness", .int brightness),
      ("mode", .str mode)]
  | .printTicketThenOpen barcode gateName =>
    [("barcode", .str barcode), ("gate_name", .str gateName)]
  | .resetGate reason => [("reason", .str reason)]
  | .rejectCard line1 line2 audioTrack displaySeconds =>
    [("line1", .str line1), ("line2", .str line2), ("audio_track", .int audioTrack),
      ("display_seconds", .float displaySeconds)]

/-- `command.model_dump(mode="json")`. -/
def payload (c : RedisCommand) (gateId timestamp : String) : List (String × JsonValue) :=
  ("command_type", .str c.commandType) :: ("gate_id", .str gateId) ::
    ("timestamp", .str timestamp) :: c.ownPayload

end RedisCommand

/-- The loop of `publish_command` over the payload; `str` may raise. -/
def publishFields : List (String × JsonValue) → Option Fields
  | [] => some []
  | (_, .null) :: payload => publishFields payload
  | (key, value) :: payload => do
    let text ← value.text
    let fields ← publishFields payload
    pure ((key, text) :: fields)

/-- What the daemon does for a command. -/
inductive Action where
  | openGate
  | closeGate
  | brakeGate
  | playAudio (track : Int)
  | displayText (line1 line2 : String)
  | printTicketThenOpen (barcode gateName : String)
  | rejectCard (line1 line2 : String) (audioTrack : Int) (displaySeconds : String)
  | resetGate (reason : String)
  | injectRss (frame : ByteString.Bytes)
  | ignore
deriving DecidableEq

def RedisCommand.action : RedisCommand → Action
  | .openGate _ _ => .openGate
  | .closeGate _ => .closeGate
  | .playAudio track => .playAudio track
  | .displayText line1 line2 _ _ => .displayText line1 line2
  | .printTicketThenOpen barcode gateName => .printTicketThenOpen barcode gateName
  | .resetGate reason => .resetGate reason
  | .rejectCard line1 line2 audioTrack displaySeconds =>
    .rejectCard line1 line2 audioTrack displaySeconds

section Handling
variable (cfg : Config)

/-- The dispatch and the conversions of `handle_command`. -/
def actionOf (command : Fields) : Option Action :=
  let commandType := get command "command_type" ""
  if commandType = "open_gate" then some .openGate
  else if commandType = "close_gate" then some .closeGate
  else if commandType = "brake_gate" then some .brakeGate
  else if commandType = "play_audio" then do
    let track ← pyInt (get command "track" "1").toList
    pure (.playAudio track)
  else if commandType = "display_text" then
    some (.displayText (get command "line1" "") (get command "line2" ""))
  else if commandType = "print_ticket_then_open" then
    some (.printTicketThenOpen (get command "barcode" "") (get command "gate_name" cfg.name))
  else if commandType = "reject_card" then do
    let audioTrack ← pyInt (get command "audio_track" "3").toList
    let displaySeconds ← pyFloat (get command "display_seconds" "3.0")
    pure (.rejectCard (get command "line1" "Kartu Tidak Valid") (get command "line2" "") audioTrack
      displaySeconds)
  else if commandType = "reset_gate" then some (.resetGate (get command "reason" "operator"))
  else if commandType = "inject_rss" then
    (injectedFrame (get command "signal" "")).map .injectRss
  else some .ignore

/-- What is run for an action; the reason of a reset only goes to the log. -/
def runAction : Action → Work Bool
  | .openGate => do
    let _ ← cmdOpenGate cfg
    pure true
  | .closeGate => do
    relayClose cfg
    pure true
  | .brakeGate => do
    relayBrake cfg
    pure true
  | .playAudio track => do
    cmdPlayAudio cfg track
    pure true
  | .displayText line1 line2 => do
    display cfg line1 line2
    pure true
  | .printTicketThenOpen barcode gateName => do
    let _ ← cmdPrintTicketThenOpen cfg barcode gateName
    pure true
  | .rejectCard line1 line2 audioTrack displaySeconds => do
    cmdRejectCard cfg line1 line2 audioTrack displaySeconds
    pure true
  | .resetGate _ => do
    cmdResetGate cfg
    pure true
  | .injectRss frame => do
    dispatchRssMessage cfg frame
    pure true
  | .ignore => pure true

/-- The handler converts first; an exception of the conversions or of the action is caught. -/
theorem handleCommand_eq (command : Fields) :
    handleCommand cfg command = attempt (do
      let a ← orValueError (actionOf cfg command)
      runAction cfg a) (pure false) := by
  unfold handleCommand actionOf
  refine congrArg (fun p => attempt p (pure false)) ?_
  dsimp only
  split_ifs
  · rfl
  · rfl
  · rfl
  · rcases pyInt (get command "track" "1").toList with - | track <;> rfl
  · rfl
  · rfl
  · rcases pyInt (get command "audio_track" "3").toList with - | audioTrack
    · rfl
    · rcases pyFloat (get command "display_seconds" "3.0") with - | displaySeconds <;> rfl
  · rfl
  · rcases injectedFrame (get command "signal" "") with - | frame <;> rfl
  · rfl

end Handling

namespace RedisCommand
variable {c : RedisCommand} {gateId timestamp : String}

/-- The integers that are written. -/
def numbers : RedisCommand → List Int
  | .openGate durationSeconds _ => durationSeconds.toList
  | .playAudio track => [track]
  | .displayText _ _ brightness _ => [brightness]
  | .rejectCard _ _ audioTrack _ => [audioTrack]
  | .closeGate _ | .printTicketThenOpen _ _ | .resetGate _ => []

/-- A command with the numbers of Python: `display_seconds` is a float, given by its `repr`. -/
def Typed : RedisCommand → Prop
  | .rejectCard _ _ _ displaySeconds => ∃ negative x, displaySeconds = FloatText.repr negative x
  | _ => True

/-- No integer has more digits than `str` writes. -/
def Writable (c : RedisCommand) : Prop :=
  ∀ n ∈ c.numbers, (toString n.natAbs).length ≤ maxStrDigits

theorem publishFields_str {key s : String} {payload : List (String × JsonValue)} {fields : Fields}
    (h : publishFields payload = some fields) :
    publishFields ((key, .str s) :: payload) = some ((key, s) :: fields) := by
  simp [publishFields, JsonValue.text, h]

theorem publishFields_float {key s : String} {payload : List (String × JsonValue)}
    {fields : Fields} (h : publishFields payload = some fields) :
    publishFields ((key, .float s) :: payload) = some ((key, s) :: fields) := by
  simp [publishFields, JsonValue.text, h]

theorem publishFields_int {key : String} {n : Int} {payload : List (String × JsonValue)}
    {fields : Fields} (hn : (toString n.natAbs).length ≤ maxStrDigits)
    (h : publishFields payload = some fields) :
    publishFields ((key, .int n) :: payload) = some ((key, toString n) :: fields) := by
  have htext : (JsonValue.int n).text = some (toString n) := if_pos hn
  simp [publishFields, htext, h]

/-- What is written for a command that can be written. -/
theorem publishFields_payload (h : c.Writable) :
    publishFields (c.payload gateId timestamp) = some (c.fields gateId timestamp) := by
  refine publishFields_str (publishFields_str (publishFields_str ?_))
  cases c with
  | openGate durationSeconds reason =>
    cases durationSeconds with
    | none => exact publishFields_str rfl
    | some n => exact publishFields_int (h n (by simp [numbers])) (publishFields_str rfl)
  | closeGate reason => exact publishFields_str rfl
  | playAudio track => exact publishFields_int (h track (by simp [numbers])) rfl
  | displayText line1 line2 brightness mode =>
    exact publishFields_str (publishFields_str
      (publishFields_int (h brightness (by simp [numbers])) (publishFields_str rfl)))
  | printTicketThenOpen barcode gateName => exact publishFields_str (publishFields_str rfl)
  | resetGate reason => exact publishFields_str rfl
  | rejectCard line1 line2 audioTrack displaySeconds =>
    exact publishFields_str (publishFields_str
      (publishFields_int (h audioTrack (by simp [numbers])) (publishFields_float rfl)))

/-- What the daemon reads back is what was meant. -/
theorem actionOf_fields (cfg : Config) (h : c.Typed) :
    actionOf cfg (c.fields gateId timestamp) = some c.action := by
  cases c with
  | openGate _ _ => rfl
  | closeGate _ => rfl
  | playAudio track =>
    have haction : actionOf cfg ((playAudio track).fields gateId timestamp) =
        (pyInt (toString track).toList).bind fun n => some (.playAudio n) := rfl
    rw [haction, pyInt_toString]
    rfl
  | displayText _ _ _ _ => rfl
  | printTicketThenOpen _ _ => rfl
  | resetGate _ => rfl
  | rejectCard line1 line2 audioTrack displaySeconds =>
    obtain ⟨negative, x, rfl⟩ := h
    have haction : actionOf cfg
        ((rejectCard line1 line2 audioTrack (x.repr negative)).fields gateId timestamp) =
          (pyInt (toString audioTrack).toList).bind fun n =>
            (pyFloat (x.repr negative)).bind fun s => some (.rejectCard line1 line2 n s) := rfl
    have hfloat : pyFloat (x.repr negative) = some (x.repr negative) :=
      if_pos (isFloat_repr negative x)
    rw [haction, pyInt_toString, hfloat]
    rfl

end RedisCommand

/-- A command that can be written is read back as the same action with the same arguments. -/
theorem published_handled (cfg : Config) {c : RedisCommand} (htyped : c.Typed)
    (hwritable : c.Writable) (gateId timestamp : String) :
    ∃ fields, publishFields (c.payload gateId timestamp) = some fields ∧
      actionOf cfg fields = some c.action ∧
      handleCommand cfg fields = attempt (runAction cfg c.action) (pure false) := by
  have haction : actionOf cfg (c.fields gateId timestamp) = some c.action :=
    c.actionOf_fields cfg htyped
  refine ⟨_, RedisCommand.publishFields_payload hwritable, haction, ?_⟩
  rw [handleCommand_eq, haction]
  rfl

theorem published_handled_reject : ∃ fields,
    publishFields ((RedisCommand.rejectCard "Kartu Tidak Valid" "" 3 "3.0").payload "IN1"
        "2025-01-01T00:00:00Z") = some fields ∧
      actionOf {} fields = some (.rejectCard "Kartu Tidak Valid" "" 3 "3.0") ∧
      handleCommand {} fields =
        attempt (runAction {} (.rejectCard "Kartu Tidak Valid" "" 3 "3.0")) (pure false) :=
  published_handled {} (c := .rejectCard "Kartu Tidak Valid" "" 3 "3.0")
    ⟨false, .decimal ⟨['3'], by decide, List.all_eq_true.mp rfl⟩
      ⟨['0'], by decide, List.all_eq_true.mp rfl⟩, by decide⟩
    (by decide : ∀ n ∈ [3], (toString (Int.natAbs n)).length ≤ maxStrDigits) "IN1"
    "2025-01-01T00:00:00Z"

theorem text_long {n : Int} {m : Nat} (hn : n.natAbs = m) (h : 10 ^ maxStrDigits ≤ m) :
    (JsonValue.int n).text = none := by
  subst hn
  refine if_neg fun hlength => ?_
  have hdigits : (toString n.natAbs).length = (Nat.toDigits 10 n.natAbs).length :=
    congrArg List.length (toList_toString_nat _)
  rw [hdigits, Nat.length_toDigits_le_iff (by decide) (by decide)] at hlength
  omega

/-- The first track number that `str` refuses. -/
def hugeTrack : Int := ((10 ^ maxStrDigits : Nat) : Int)

theorem hugeTrack_not_published :
    publishFields ((RedisCommand.playAudio hugeTrack).payload "IN1" "2025-01-01T00:00:00Z") =
      none := by
  have hstr : ∀ key s payload, publishFields payload = none →
      publishFields ((key, .str s) :: payload) = none := by
    intro key s payload h
    simp [publishFields, h]
  have hint : publishFields [("track", .int hugeTrack)] = none := by
    simp only [publishFields, text_long (Int.natAbs_natCast _) (Nat.le_refl _), hugeTrack]
    rfl
  exact hstr _ _ _ (hstr _ _ _ (hstr _ _ _ hint))

end ParkIt.GateIn
