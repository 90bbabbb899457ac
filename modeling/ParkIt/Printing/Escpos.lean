import ParkIt.GateIn.Wire

/-! The ESC/POS data of tickets and receipts. -/
namespace ParkIt.Printing

open ByteString GateIn

/-- `f"{n:,}"` of the digits, read from the right. -/
def commas : List Char → List Char
  | a :: b :: c :: d :: digits => a :: b :: c :: ',' :: commas (d :: digits)
  | digits => digits

def thousands (n : Int) : Option String :=
  (pyStr n.natAbs).map fun digits =>
    (if n < 0 then "-" else "") ++ String.ofList (commas digits.toList.reverse).reverse

/-- A value of the data of a receipt: what an f-string makes of it without a format and with the
format `,`, where it does not raise. -/
structure Value where
  shown : Option String
  grouped : Option String
deriving DecidableEq, Repr

namespace Value

def none : Value := ⟨some "None", Option.none⟩
def str (s : String) : Value := ⟨some s, Option.none⟩
def int (n : Int) : Value := ⟨pyStr n, thousands n⟩

end Value

abbrev Dict := List (String × Value)

/-- `transaction_data.get(key, default)`. -/
def Dict.get (d : Dict) (key : String) (default : Value) : Value := (d.lookup key).getD default

/-- `b"".join(lines)`, unless a line raises. -/
def joined : List (Option Bytes) → Option Bytes
  | [] => some []
  | l :: ls => do
    let a ← l
    let b ← joined ls
    pure (a ++ b)

/-- `bytes([len(barcode)]) + barcode.encode() + b"\x00"`. -/
def barcodeLine (barcode : String) : Option Bytes :=
  if barcode.length < 256 then
    some (UInt8.ofNat barcode.length :: (utf8 barcode ++ [0x00]))
  else none

def buildEscposTicket (barcode gateName locationName additionalInfo timestamp : String) :
    Option Bytes :=
  joined [
    some [0x1b, 0x61, 0x01],
    some (utf8 "TIKET PARKIR\n"),
    some [0x1b, 0x21, 0x10],
    some (utf8 (locationName ++ "\n\n")),
    some [0x1b, 0x21, 0x00],
    some [0x1b, 0x61, 0x00],
    some (utf8 ("GATE         : " ++ gateName ++ "\n")),
    some (utf8 ("TANGGAL      : " ++ timestamp ++ "\n")),
    some [0x1b, 0x61, 0x01],
    some [0x1d, 0x68, 0x64],
    some [0x1d, 0x48, 0x02],
    some [0x1d, 0x6b, 0x45],
    barcodeLine barcode,
    some (utf8 ("\n" ++ additionalInfo ++ "\n")),
    some [0x1d, 0x56, 0x41]]

/-- The line of a receipt that shows a value of its data. -/
def dataLine (d : Dict) (label key : String) : Option Bytes :=
  (d.get key (.str "")).shown.map fun s => utf8 (label ++ s ++ "\n")

def buildEscposReceipt (d : Dict) (locationName : String) : Option Bytes :=
  joined [
    some [0x1b, 0x61, 0x01],
    some (utf8 "STRUK PARKIR\n"),
    some [0x1b, 0x21, 0x10],
    some (utf8 (locationName ++ "\n\n")),
    some [0x1b, 0x21, 0x00],
    some [0x1b, 0x61, 0x00],
    dataLine d "GATE         : " "gate_name",
    dataLine d "TANGGAL      : " "date",
    dataLine d "JAM MASUK    : " "time_in",
    dataLine d "JAM KELUAR   : " "time_out",
    dataLine d "DURASI       : " "duration",
    dataLine d "JENIS        : " "vehicle_type",
    dataLine d "METODE       : " "payment_method",
    some [0x1b, 0x61, 0x01],
    (d.get "total_fee" (.int 0)).grouped.map fun s => utf8 ("TOTAL        : Rp " ++ s ++ "\n\n"),
    dataLine d "" "additional_info",
    some [0x1d, 0x56, 0x41]]

theorem joined_eq {ls : List (Option Bytes)} {bs : Bytes} (h : joined ls = some bs) :
    bs = (ls.map fun l => l.getD []).flatten := by
  induction ls generalizing bs with
  | nil => exact (Option.some.inj h).symm
  | cons l ls ih =>
    obtain ⟨a, rfl, h⟩ := Option.bind_eq_some_iff.mp h
    obtain ⟨b, hb, h⟩ := Option.bind_eq_some_iff.mp h
    obtain rfl := Option.some.inj h
    rw [ih hb]
    rfl

theorem isSome_of_joined {ls : List (Option Bytes)} {bs : Bytes} (h : joined ls = some bs)
    {l : Option Bytes} (hl : l ∈ ls) : l.isSome = true := by
  induction ls generalizing bs with
  | nil => cases hl
  | cons l' ls ih =>
    obtain ⟨a, rfl, h⟩ := Option.bind_eq_some_iff.mp h
    obtain ⟨b, hb, -⟩ := Option.bind_eq_some_iff.mp h
    rcases List.mem_cons.mp hl with rfl | hl
    · rfl
    · exact ih hb hl

example : (Value.int 1250000).grouped = some "1,250,000" := by decide

end ParkIt.Printing
