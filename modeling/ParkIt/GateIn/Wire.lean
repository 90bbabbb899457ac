import ParkIt.GateIn.Daemon
import ParkIt.Lib.Utf8

/-! The controller commands byte by byte, and what a receiver makes of them. -/
namespace ParkIt.GateIn

open ByteString

/-- The controllers differ in how they frame a command. -/
inductive ControllerProtocol where
  | compass
  | enet
deriving DecidableEq, Repr

namespace ControllerProtocol
variable {p : ControllerProtocol} {cmd : Bytes} {s : String}

def start : ControllerProtocol → UInt8
  | .compass => 0xA6
  | .enet => 0x3A

def stop : ControllerProtocol → UInt8
  | .compass => 0xA9
  | .enet => 0x3B

def buildCommand (p : ControllerProtocol) (cmd : Bytes) : Bytes := p.start :: (cmd ++ [p.stop])

/-- A receiver cuts a command off at the first stop byte. -/
def receive (p : ControllerProtocol) : Bytes → Option (Bytes × Bytes)
  | [] => none
  | b :: stream =>
    if b = p.start ∧ p.stop ∈ stream then
      some (stream.takeWhile (· ≠ p.stop), (stream.dropWhile (· ≠ p.stop)).tail)
    else none

/-- The stop byte stands in the frame once, at its end, and the receiver finds the command whatever
comes behind it. -/
structure Delimited (p : ControllerProtocol) (cmd frame : Bytes) : Prop where
  once : frame.count p.stop = 1
  last : frame.getLast? = some p.stop
  received : ∀ rest, p.receive (frame ++ rest) = some (cmd, rest)

theorem start_ne_stop (p : ControllerProtocol) : p.start ≠ p.stop := by
  cases p <;> decide

theorem count_buildCommand : (p.buildCommand cmd).count p.stop = cmd.count p.stop + 1 := by
  rw [buildCommand, List.count_cons_of_ne p.start_ne_stop, List.count_append,
    List.count_singleton_self]

theorem receive_buildCommand (h : p.stop ∉ cmd) (rest : Bytes) :
    p.receive (p.buildCommand cmd ++ rest) = some (cmd, rest) := by
  have hne : ∀ b ∈ cmd, decide (b ≠ p.stop) = true := by
    intro b hb
    exact decide_eq_true fun heq => h (heq ▸ hb)
  have hsplit : p.buildCommand cmd ++ rest = p.start :: (cmd ++ p.stop :: rest) := by
    simp [buildCommand]
  rw [hsplit, receive, if_pos ⟨rfl, by simp⟩, List.takeWhile_append_of_pos hne,
    List.dropWhile_append_of_pos hne]
  simp

/-- A frame is as good as what stands in it. -/
theorem delimited_iff : p.Delimited cmd (p.buildCommand cmd) ↔ p.stop ∉ cmd := by
  constructor
  · intro h
    have hcount := h.once
    rw [count_buildCommand] at hcount
    exact List.count_eq_zero.mp (by omega)
  · intro h
    refine ⟨?_, ?_, receive_buildCommand h⟩
    · rw [count_buildCommand, List.count_eq_zero.mpr h]
    · rw [buildCommand, ← List.cons_append, List.getLast?_concat]

/-- Does the stop byte stand in the encoding of the character? -/
def hitsStop (p : ControllerProtocol) (c : Char) : Bool :=
  match p with
  | .compass =>
    0x80 ≤ c.toNat && (c.toNat % 64 = 0x29 || (0x800 ≤ c.toNat && c.toNat / 64 % 64 = 0x29) ||
      (0x10000 ≤ c.toNat && c.toNat / 4096 % 64 = 0x29))
  | .enet => c = ';'

def hasStop (p : ControllerProtocol) (s : String) : Bool := s.toList.any p.hitsStop

@[simp] theorem hasStop_append (s t : String) :
    p.hasStop (s ++ t) = (p.hasStop s || p.hasStop t) := by
  rw [hasStop, String.toList_append, List.any_append]
  rfl

theorem stop_mem_encode {c : Char} : p.stop ∈ String.utf8EncodeChar c ↔ p.hitsStop c = true := by
  cases p with
  | compass =>
    rw [Utf8.mem_encode_continuation (by decide) (by decide)]
    have hstop : compass.stop.toNat - 0x80 = 0x29 := rfl
    simp [hitsStop, hstop, or_assoc]
  | enet =>
    rw [Utf8.mem_encode_ascii (by decide)]
    have hstop : enet.stop.toNat = ';'.toNat := rfl
    rw [hitsStop, decide_eq_true_iff, hstop, Char.toNat_inj]

@[simp] theorem stop_mem_utf8 : p.stop ∈ utf8 s ↔ p.hasStop s = true := by
  rw [utf8, Utf8.mem_bytes, hasStop, List.any_eq_true]
  simp only [stop_mem_encode]

/-- ASCII other than the semicolon does no harm. -/
def plain (c : Char) : Bool := c.toNat < 0x80 && c ≠ ';'

theorem hasStop_of_plain (h : s.toList.all plain = true) : p.hasStop s = false := by
  rw [hasStop, List.any_eq_false]
  intro c hc
  have hplain := List.all_eq_true.mp h c hc
  simp only [plain, ne_eq, decide_not, Bool.and_eq_true, decide_eq_true_eq, Bool.not_eq_true',
    decide_eq_false_iff_not] at hplain
  cases p with
  | compass => simp [hitsStop, Nat.not_le.mpr hplain.1]
  | enet => simp [hitsStop, hplain.2]

theorem stop_notMem (h : cmd.all (fun b => b.toNat < 0x80 && b ≠ 0x3B) = true) : p.stop ∉ cmd := by
  intro hmem
  have hb := List.all_eq_true.mp h _ hmem
  cases p <;> exact absurd hb (by decide)

end ControllerProtocol

namespace ControllerCommand

/-- A command without its frame. -/
def body : ControllerCommand → Bytes
  | .trig1 => utf8 "TRIG1"
  | .open1 => utf8 "OPEN1"
  | .close1 => utf8 "CLOSE1"
  | .stop1 => utf8 "STOP1"
  | .stat => utf8 "STAT"
  | .mt track => utf8 ("MT" ++ track)
  | .ds line1 line2 => utf8 "DSD913003" ++ (utf8 line1 ++ utf8 "|" ++ utf8 line2)
  | .dsu => utf8 "DSU"
  | .rss interval => utf8 ("RSS" ++ Settlement.padded 2 interval ++ "11101110001")
  | .ack signal => utf8 (signal ++ "OK")
  | .pr3 data => utf8 "PR3" ++ data

def frame (c : ControllerCommand) : Bytes := ControllerProtocol.buildCommand .compass c.body

end ControllerCommand

/-- Printer data through an ENET controller. -/
def cmdPr4 (data : Bytes) : Bytes := ControllerProtocol.buildCommand .enet (utf8 "PR4" ++ data)

end ParkIt.GateIn
