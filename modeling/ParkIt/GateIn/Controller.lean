import ParkIt.Lib.Bytes
import Mathlib.Data.List.DropRight
import Mathlib.Data.List.Infix

/-! What goes over the line to the gate controller, and what it answers. -/
namespace ParkIt.GateIn

open ByteString

/-- The commands that the daemon frames. -/
inductive ControllerCommand where
  | trig1
  | open1
  | close1
  | stop1
  | stat
  | mt (track : String)
  | ds (line1 line2 : String)
  | dsu
  | rss (interval100ms : Nat)
  | ack (signal : String)
  | pr3 (data : Bytes)
deriving DecidableEq, Repr

/-- `b.decode("latin-1")`. -/
def decode (b : Bytes) : List Char := b.map fun x => Char.ofNat x.toNat

/-- `sub in text`. -/
def has (text : List Char) (sub : String) : Bool := decide (sub.toList <:+: text)

def frameStart : UInt8 := 0xA6
def frameEnd : UInt8 := 0xA9

/-- `"\xa9"`. -/
def frameEndChar : Char := '©'

structure Stat where
  in1 : Bool := false
  in2 : Bool := false
  in3 : Bool := false
  in4 : Bool := false
  out1 : Bool := false
  out2 : Bool := false
  out3 : Bool := false
  out4 : Bool := false
  wiegandW : Option String := none
  wiegandX : Option String := none
deriving DecidableEq, Repr

/-- `re.search(r"STAT([01]{8})", text)`: the eight digits. -/
def statBits : List Char → Option (List Bool)
  | [] => none
  | c :: cs =>
    let bits := (cs.drop 3).take 8
    if "STAT".toList.isPrefixOf (c :: cs) ∧ bits.length = 8 ∧ bits.all fun b => b = '0' ∨ b = '1'
    then some (bits.map (· = '1'))
    else statBits cs

def isHex (c : Char) : Bool := "0123456789abcdefABCDEF".toList.contains c

/-- `int(digits, 16)`. -/
def hexValue (digits : List Char) : Nat :=
  digits.foldl (fun n c => 16 * n +
    if c.isDigit then c.toNat - '0'.toNat else c.toLower.toNat - 'a'.toNat + 10) 0

/-- `str(n)` raises from this many digits on. -/
def maxStrDigits : Nat := 4300

/-- `str(n)`. -/
def pyStr (n : Int) : Option String :=
  if (toString n.natAbs).length ≤ maxStrDigits then some (toString n) else none

def extractWiegand (text : List Char) (channel : Char) : Option String :=
  match text.dropWhile (· ≠ channel) with
  | [] => none
  | _ :: remainder =>
    let hexChars := (remainder.takeWhile (· ≠ frameEndChar)).takeWhile isHex
    if hexChars.isEmpty then none
    else
      let card := toString (hexValue hexChars)
      if card.length ≤ maxStrDigits then some card else none

/-- A push event overrides the bit of its input. -/
def pushed (text : List Char) (on off : String) (bit : Bool) : Bool :=
  if has text on then true else if has text off then false else bit

def parseStat (response : Bytes) : Stat :=
  let text := decode response
  let bit (i : Nat) := ((statBits text).getD []).getD i false
  { in1 := pushed text "IN1ON" "IN1OFF" (bit 0)
    in2 := pushed text "IN2ON" "IN2OFF" (bit 1)
    in3 := pushed text "IN3ON" "IN3OFF" (bit 2)
    in4 := pushed text "IN4ON" "IN4OFF" (bit 3)
    out1 := bit 4
    out2 := bit 5
    out3 := bit 6
    out4 := bit 7
    wiegandW := extractWiegand text 'W'
    wiegandX := extractWiegand text 'X' }

/-- `text.rstrip("\xa9").endswith("OK")`: the controller confirms a command. -/
def confirms (text : List Char) : Bool :=
  "OK".toList.isSuffixOf (text.rdropWhile (· = frameEndChar))

inductive Cut where
  | noStart
  | unfinished
  | frame (msg rest : Bytes)
deriving DecidableEq, Repr

/-- The first frame of the buffer, from its start byte to the next end byte. -/
def nextFrame (buffer : Bytes) : Cut :=
  match buffer.dropWhile (· ≠ frameStart) with
  | [] => .noStart
  | a :: tail =>
    if tail.contains frameEnd then
      .frame (a :: tail.takeWhile (· ≠ frameEnd) ++ [frameEnd])
        (tail.dropWhile (· ≠ frameEnd)).tail
    else .unfinished

def frameOf (signal : String) : Bytes :=
  frameStart :: signal.toList.map (fun c => UInt8.ofNat c.toNat) ++ [frameEnd]

/-- `b"\xa6" + signal.encode("latin-1") + b"\xa9"`; a character beyond Latin-1 raises. -/
def injectedFrame (signal : String) : Option Bytes :=
  if signal.toList.all (·.toNat < 256) then some (frameOf signal) else none

example : parseStat (frameOf "STAT10010000W00BC61") =
    { in1 := true, in4 := true, wiegandW := some "48225" } := by decide

end ParkIt.GateIn
