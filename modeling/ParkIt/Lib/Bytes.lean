import Mathlib.Data.List.Basic
import Mathlib.Data.Nat.Bitwise

/-! Byte strings: slices, hexadecimal text and big-endian numbers. -/
namespace ByteString

abbrev Bytes := List UInt8

/-- `raw[a:b]` for indices within the string. -/
def slice (a b : Nat) (raw : Bytes) : Bytes := (raw.drop a).take (b - a)

def hexDigits : List Char :=
  ['0', '1', '2', '3', '4', '5', '6', '7', '8', '9', 'a', 'b', 'c', 'd', 'e', 'f']

def hexDigit (n : Nat) : Char := hexDigits.getD n '0'

/-- `b.hex()`. -/
def hex (b : Bytes) : String :=
  String.ofList (b.flatMap fun x => [hexDigit (x.toNat / 16), hexDigit (x.toNat % 16)])

/-- `b.hex().upper()`. -/
def hexUpper (b : Bytes) : String := String.ofList ((hex b).toList.map Char.toUpper)

/-- `int.from_bytes(b, "big")`. -/
def toNat (b : Bytes) : Nat := b.foldl (fun n x => n * 256 + x.toNat) 0

/-- `n.to_bytes(k, "big")` for a number that fits. -/
def ofNat : Nat → Nat → Bytes
  | 0, _ => []
  | k + 1, n => ofNat k (n / 256) ++ [UInt8.ofNat n]

/-- A decimal number of fixed width, as digits. -/
def decimal : Nat → Nat → List Nat
  | 0, _ => []
  | k + 1, n => decimal k (n / 10) ++ [n % 10]

section Lemmas
variable {a b n : Nat} {p q raw : Bytes}

@[simp] theorem length_ofNat (k n : Nat) : (ofNat k n).length = k := by
  induction k generalizing n with
  | zero => rfl
  | succ k ih => simp [ofNat, ih]

@[simp] theorem length_decimal (k n : Nat) : (decimal k n).length = k := by
  induction k generalizing n with
  | zero => rfl
  | succ k ih => simp [decimal, ih]

@[simp] theorem length_hexUpper (b : Bytes) : (hexUpper b).length = 2 * b.length := by
  simp [hexUpper, hex, Nat.mul_comm]

theorem length_slice (h : b ≤ raw.length) : (slice a b raw).length = b - a := by
  simp [slice]
  omega

theorem slice_append (hp : p.length = a) (hq : a + q.length = b) :
    slice a b (p ++ (q ++ raw)) = q := by
  rw [slice, List.drop_left' hp, List.take_left' (by omega)]

/-- A field of a record that is laid out one field after the other. -/
theorem slice_flatten (ps qs : List Bytes) (hp : ps.flatten.length = a) (hq : a + q.length = b) :
    slice a b (ps ++ q :: qs).flatten = q := by
  rw [List.flatten_append, List.flatten_cons]
  exact slice_append hp hq

/-- A two-byte length field gives the length back. -/
theorem length_field (h : n < 65536) :
    ((UInt8.ofNat (n / 256)).toNat <<< 8) ||| (UInt8.ofNat n).toNat = n := by
  have hlow : n % 256 < 2 ^ 8 := Nat.mod_lt _ (by decide)
  have hhigh : n / 256 % 256 = n / 256 := Nat.mod_eq_of_lt (by omega)
  rw [UInt8.toNat_ofNat', UInt8.toNat_ofNat', hhigh, ← Nat.shiftLeft_add_eq_or_of_lt hlow,
    Nat.shiftLeft_eq]
  omega

theorem toNat_append_byte (x : UInt8) : toNat (p ++ [x]) = toNat p * 256 + x.toNat := by
  simp [toNat]

/-- A number that fits comes back from its bytes. -/
theorem toNat_ofNat {k : Nat} (h : n < 256 ^ k) : toNat (ofNat k n) = n := by
  induction k generalizing n with
  | zero =>
    rw [Nat.pow_zero] at h
    have hn : n = 0 := by omega
    rw [hn]
    rfl
  | succ k ih =>
    have hhigh : n / 256 < 256 ^ k := by
      rw [Nat.pow_succ] at h
      omega
    rw [ofNat, toNat_append_byte, ih hhigh, UInt8.toNat_ofNat']
    omega

end Lemmas
end ByteString
