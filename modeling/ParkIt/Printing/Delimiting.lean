import ParkIt.Printing.Escpos

/-! Which texts keep a controller command in its frame. -/
namespace ParkIt.Printing

open ByteString GateIn ControllerProtocol

/-- What the daemon and the print worker send to a printer behind a controller. -/
inductive Payload where
  | ticketThenOpen (gateName barcode : String) (t : LocalTime)
  | ticket (barcode gateName locationName additionalInfo timestamp : String)
  | receipt (data : Dict) (locationName : String)
deriving DecidableEq

namespace Payload

def build : Payload → Option Bytes
  | .ticketThenOpen gateName barcode t => escposData gateName barcode t
  | .ticket barcode gateName locationName additionalInfo timestamp =>
    buildEscposTicket barcode gateName locationName additionalInfo timestamp
  | .receipt data locationName => buildEscposReceipt data locationName

def barcode : Payload → Option String
  | .ticketThenOpen _ barcode _ => some barcode
  | .ticket barcode _ _ _ _ => some barcode
  | .receipt _ _ => none

/-- The texts that are not fixed. -/
def texts : Payload → List String
  | .ticketThenOpen gateName barcode _ => [gateName, barcode]
  | .ticket barcode gateName locationName additionalInfo timestamp =>
    [locationName, gateName, timestamp, barcode, additionalInfo]
  | .receipt data locationName =>
    [some locationName, (data.get "gate_name" (.str "")).shown, (data.get "date" (.str "")).shown,
      (data.get "time_in" (.str "")).shown, (data.get "time_out" (.str "")).shown,
      (data.get "duration" (.str "")).shown, (data.get "vehicle_type" (.str "")).shown,
      (data.get "payment_method" (.str "")).shown, (data.get "total_fee" (.int 0)).grouped,
      (data.get "additional_info" (.str "")).shown].filterMap id

/-- No text has the stop byte in its encoding, and the length of the barcode is not that byte. -/
structure Clear (p : ControllerProtocol) (q : Payload) : Prop where
  texts : ∀ s ∈ q.texts, p.hasStop s = false
  length : ∀ b, q.barcode = some b → b.length ≠ p.stop.toNat

end Payload

/-- The commands with data of their own. -/
inductive Sent where
  | ds (line1 line2 : String)
  | pr3 (q : Payload)
  | pr4 (q : Payload)
deriving DecidableEq

namespace Sent

def protocol : Sent → ControllerProtocol
  | .ds _ _ | .pr3 _ => .compass
  | .pr4 _ => .enet

/-- The bytes that go out. -/
def frame : Sent → Option Bytes
  | .ds line1 line2 => some (ControllerCommand.ds line1 line2).frame
  | .pr3 q => q.build.map fun data => (ControllerCommand.pr3 data).frame
  | .pr4 q => q.build.map cmdPr4

/-- The command with its data, as the receiver has to get it. -/
def command : Sent → Option Bytes
  | .ds line1 line2 => some (utf8 "DSD913003" ++ (utf8 line1 ++ utf8 "|" ++ utf8 line2))
  | .pr3 q => q.build.map (utf8 "PR3" ++ ·)
  | .pr4 q => q.build.map (utf8 "PR4" ++ ·)

def Clear : Sent → Prop
  | .ds line1 line2 => ControllerProtocol.hasStop .compass line1 = false ∧
      ControllerProtocol.hasStop .compass line2 = false
  | .pr3 q => q.Clear .compass
  | .pr4 q => q.Clear .enet

theorem frame_eq (c : Sent) : c.frame = c.command.map c.protocol.buildCommand := by
  cases c with
  | ds line1 line2 => rfl
  | pr3 q =>
    rw [frame, command, Option.map_map]
    rfl
  | pr4 q =>
    rw [frame, command, Option.map_map]
    rfl

end Sent

section Bytes
variable {p : ControllerProtocol}

theorem plain_padded (width n : Nat) : p.hasStop (Settlement.padded width n) = false := by
  refine hasStop_of_plain (List.all_eq_true.mpr fun c hc => ?_)
  obtain ⟨h0, h9⟩ := Char.isDigit_iff_toNat.mp (Settlement.isDigit_padded hc)
  have hsemi : c ≠ ';' := by
    rintro rfl
    exact absurd h9 (by decide)
  have hlt : c.toNat < 0x80 := Nat.lt_of_le_of_lt h9 (by decide)
  simp [plain, hlt, hsemi]

theorem plain_timestamp (t : LocalTime) : p.hasStop (timestamp t) = false := by
  simp (disch := decide) [timestamp, plain_padded, hasStop_of_plain]

theorem stop_eq_length {barcode : String} (h : barcode.length < 256) :
    p.stop = UInt8.ofNat barcode.length ↔ barcode.length = p.stop.toNat := by
  rw [Utf8.eq_ofNat h, eq_comm]

theorem stop_mem_barcodeLine {barcode : String} (h : barcode.length < 256) :
    p.stop ∈ (barcodeLine barcode).getD [] ↔
      barcode.length = p.stop.toNat ∨ p.hasStop barcode = true := by
  have hzero : p.stop ∉ [0x00] := stop_notMem (by decide)
  rw [barcodeLine, if_pos h, Option.getD_some, List.mem_cons, List.mem_append,
    stop_eq_length h, stop_mem_utf8]
  simp only [hzero, or_false]

theorem stop_mem_escposData {gateName barcode : String} {t : LocalTime} {data : Bytes}
    (h : escposData gateName barcode t = some data) :
    p.stop ∈ data ↔ (p.hasStop gateName = true ∨ p.hasStop barcode = true) ∨
      barcode.length = p.stop.toNat := by
  unfold escposData at h
  split at h
  · rename_i hlength
    obtain rfl := Option.some.inj h
    simp (disch := decide) only [List.mem_append, stop_notMem, stop_mem_utf8, List.mem_singleton,
      stop_eq_length hlength, hasStop_append, hasStop_of_plain, plain_timestamp, Bool.or_false,
      Bool.false_or, Bool.false_eq_true, false_or, or_false]
    rw [or_right_comm]
  · cases h

theorem length_of_barcodeLine {barcode : String} (h : (barcodeLine barcode).isSome = true) :
    barcode.length < 256 := by
  by_contra hlength
  rw [barcodeLine, if_neg hlength] at h
  cases h

theorem stop_mem_ticket {barcode gateName locationName additionalInfo timestamp : String}
    {data : Bytes}
    (h : buildEscposTicket barcode gateName locationName additionalInfo timestamp = some data) :
    p.stop ∈ data ↔ (p.hasStop locationName = true ∨ p.hasStop gateName = true ∨
        p.hasStop timestamp = true ∨ p.hasStop barcode = true ∨ p.hasStop additionalInfo = true) ∨
      barcode.length = p.stop.toNat := by
  have hlength : barcode.length < 256 := length_of_barcodeLine (isSome_of_joined h (by simp))
  rw [joined_eq h]
  simp (disch := decide) only [List.map_cons, List.map_nil, List.flatten_cons, List.flatten_nil,
    List.mem_append, List.not_mem_nil, Option.getD_some, stop_notMem, stop_mem_utf8,
    stop_mem_barcodeLine hlength, hasStop_append, hasStop_of_plain,
    Bool.or_false, Bool.false_or, Bool.false_eq_true, false_or, or_false]
  tauto

theorem stop_mem_shown (v : Option String) {label tail : String}
    (hlabel : label.toList.all plain = true) (htail : tail.toList.all plain = true) :
    p.stop ∈ (v.map fun s => utf8 (label ++ s ++ tail)).getD [] ↔
      ∃ s, v = some s ∧ p.hasStop s = true := by
  cases v with
  | none => simp
  | some s => simp [hasStop_of_plain hlabel, hasStop_of_plain htail]

theorem exists_mem_filterMap_id {vs : List (Option String)} {P : String → Prop} :
    (∃ s ∈ vs.filterMap id, P s) ↔ ∃ v ∈ vs, ∃ s, v = some s ∧ P s := by
  simp only [List.mem_filterMap, id_eq]
  constructor
  · rintro ⟨s, ⟨v, hv, rfl⟩, hs⟩
    exact ⟨some s, hv, s, rfl, hs⟩
  · rintro ⟨v, hv, s, rfl, hs⟩
    exact ⟨s, ⟨some s, hv, rfl⟩, hs⟩

theorem stop_mem_receipt {d : Dict} {locationName : String} {data : Bytes}
    (h : buildEscposReceipt d locationName = some data) :
    p.stop ∈ data ↔ ∃ s ∈ (Payload.receipt d locationName).texts, p.hasStop s = true := by
  rw [joined_eq h, Payload.texts, exists_mem_filterMap_id]
  simp (disch := decide) only [List.map_cons, List.map_nil, List.flatten_cons, List.flatten_nil,
    List.mem_append, List.not_mem_nil, Option.getD_some, stop_notMem, stop_mem_utf8,
    hasStop_append, hasStop_of_plain, dataLine, stop_mem_shown, Bool.or_false, Bool.false_eq_true,
    false_or, or_false]
  simp only [List.mem_cons, List.not_mem_nil, or_false, exists_eq_or_imp, exists_eq_left,
    Option.some.injEq, exists_eq_left']

/-- The stop byte comes into the data with a text or as the length of the barcode. -/
theorem stop_mem_build {q : Payload} {data : Bytes} (h : q.build = some data) :
    p.stop ∈ data ↔ (∃ s ∈ q.texts, p.hasStop s = true) ∨
      ∃ b, q.barcode = some b ∧ b.length = p.stop.toNat := by
  cases q with
  | ticketThenOpen gateName barcode t =>
    rw [stop_mem_escposData h]
    simp [Payload.texts, Payload.barcode]
  | ticket barcode gateName locationName additionalInfo timestamp =>
    rw [stop_mem_ticket h]
    simp [Payload.texts, Payload.barcode]
  | receipt d locationName =>
    rw [stop_mem_receipt h]
    simp [Payload.barcode]

theorem stop_notMem_build {q : Payload} {data : Bytes} (h : q.build = some data) :
    p.stop ∉ data ↔ q.Clear p := by
  rw [stop_mem_build h]
  push Not
  constructor
  · rintro ⟨htexts, hlength⟩
    exact ⟨fun s hs => Bool.eq_false_iff.mpr (htexts s hs), hlength⟩
  · rintro ⟨htexts, hlength⟩
    exact ⟨fun s hs => Bool.eq_false_iff.mp (htexts s hs), hlength⟩

end Bytes

theorem Sent.stop_notMem {c : Sent} {cmd : Bytes} (h : c.command = some cmd) :
    c.protocol.stop ∉ cmd ↔ c.Clear := by
  cases c with
  | ds line1 line2 =>
    obtain rfl := Option.some.inj h
    simp (disch := decide) [Sent.protocol, Sent.Clear, hasStop_of_plain]
  | pr3 q =>
    obtain ⟨data, hdata, rfl⟩ := Option.map_eq_some_iff.mp h
    have hstop := stop_notMem_build (p := .compass) hdata
    simpa (disch := decide) [Sent.protocol, Sent.Clear, hasStop_of_plain] using hstop
  | pr4 q =>
    obtain ⟨data, hdata, rfl⟩ := Option.map_eq_some_iff.mp h
    have hstop := stop_notMem_build (p := .enet) hdata
    simpa (disch := decide) [Sent.protocol, Sent.Clear, hasStop_of_plain] using hstop

/-- A command comes through in its frame if and only if its texts and its barcode stay clear of the
stop byte. -/
theorem delimited_iff_clear {c : Sent} {frame : Bytes} (h : c.frame = some frame) :
    (∃ cmd, c.command = some cmd ∧ c.protocol.Delimited cmd frame) ↔ c.Clear := by
  rw [c.frame_eq] at h
  obtain ⟨cmd, hcmd, rfl⟩ := Option.map_eq_some_iff.mp h
  rw [← Sent.stop_notMem hcmd, ← delimited_iff]
  constructor
  · rintro ⟨cmd', hcmd', hdelimited⟩
    obtain rfl := Option.some.inj (hcmd.symm.trans hcmd')
    exact hdelimited
  · intro hdelimited
    exact ⟨cmd, hcmd, hdelimited⟩

theorem delimited_iff_clear_welcome : ∃ cmd frame,
    (Sent.ds "Selamat Datang" "Tombol/Tempel Kartu").command = some cmd ∧
      (Sent.ds "Selamat Datang" "Tombol/Tempel Kartu").frame = some frame ∧
      ControllerProtocol.Delimited .compass cmd frame := by
  obtain ⟨cmd, hcmd, h⟩ :=
    (delimited_iff_clear (c := .ds "Selamat Datang" "Tombol/Tempel Kartu") rfl).mpr
      ⟨by decide, by decide⟩
  exact ⟨cmd, _, hcmd, rfl, h⟩

/-- The second byte of `é` ends the command. -/
theorem accent_ends_command : ∃ frame, (Sent.ds "Café" "").frame = some frame ∧
    ¬ ∃ cmd, (Sent.ds "Café" "").command = some cmd ∧
      ControllerProtocol.Delimited .compass cmd frame := by
  refine ⟨_, rfl, ?_⟩
  rintro ⟨cmd, hcmd, h⟩
  have hcount := h.once
  obtain rfl := Option.some.inj hcmd
  rw [ControllerCommand.frame, count_buildCommand, Nat.add_eq_right, List.count_eq_zero] at hcount
  obtain ⟨hclear, -⟩ := (Sent.stop_notMem hcmd).mp hcount
  exact absurd hclear (by decide)

end ParkIt.Printing
