import Mathlib.Data.List.Basic

/-! Which bytes stand in the UTF-8 encoding of a text. -/
namespace Utf8

variable {b : UInt8} {c : Char} {s : String}

theorem toList_loop (bs : ByteArray) (i : Nat) (acc : List UInt8) :
    ByteArray.toList.loop bs i acc = acc.reverse ++ bs.data.toList.drop i := by
  induction hn : bs.size - i generalizing i acc with
  | zero =>
    have hi : bs.data.toList.length ≤ i := by
      have : bs.data.toList.length = bs.size := rfl
      omega
    rw [ByteArray.toList.loop, if_neg (by omega), List.drop_eq_nil_of_le hi, List.append_nil]
  | succ n ih =>
    have hi : i < bs.data.toList.length := by
      have : bs.data.toList.length = bs.size := rfl
      omega
    have hget : bs.get! i = bs.data.toList[i] := by
      rw [ByteArray.get!, getElem!_pos bs.data i hi, Array.getElem_toList]
    rw [ByteArray.toList.loop, if_pos (by omega), ih _ _ (by omega), hget,
      List.drop_eq_getElem_cons hi]
    simp

theorem toList_eq (bs : ByteArray) : bs.toList = bs.data.toList := by
  rw [ByteArray.toList, toList_loop]
  simp

/-- A text is encoded character by character. -/
theorem bytes_eq (s : String) : s.toUTF8.toList = s.toList.flatMap String.utf8EncodeChar := by
  rw [toList_eq, String.toUTF8, ← String.utf8Encode_toList, List.utf8Encode,
    List.toList_data_toByteArray]

theorem mem_bytes : b ∈ s.toUTF8.toList ↔ ∃ c ∈ s.toList, b ∈ String.utf8EncodeChar c := by
  rw [bytes_eq, List.mem_flatMap]

theorem eq_ofNat {n : Nat} (hn : n < 256) : b = UInt8.ofNat n ↔ b.toNat = n := by
  rw [← UInt8.toNat_inj, UInt8.toNat_ofNat_of_lt' hn]

/-- A character has a lead byte and, from 128 on, continuation bytes of six bits each. -/
theorem mem_encode_iff : b ∈ String.utf8EncodeChar c ↔
    if c.toNat < 0x80 then b.toNat = c.toNat
    else if c.toNat < 0x800 then
      b.toNat = c.toNat / 64 % 32 + 0xC0 ∨ b.toNat = c.toNat % 64 + 0x80
    else if c.toNat < 0x10000 then
      b.toNat = c.toNat / 4096 % 16 + 0xE0 ∨ b.toNat = c.toNat / 64 % 64 + 0x80 ∨
        b.toNat = c.toNat % 64 + 0x80
    else
      b.toNat = c.toNat / 262144 % 8 + 0xF0 ∨ b.toNat = c.toNat / 4096 % 64 + 0x80 ∨
        b.toNat = c.toNat / 64 % 64 + 0x80 ∨ b.toNat = c.toNat % 64 + 0x80 := by
  have hc : c.toNat = c.val.toNat := rfl
  rw [String.utf8EncodeChar, hc]
  generalize c.val.toNat = n
  by_cases h1 : n < 0x80
  · rw [if_pos h1, if_pos (by omega), List.mem_singleton, eq_ofNat (by omega)]
  rw [if_neg h1, if_neg (by omega)]
  by_cases h2 : n < 0x800
  · rw [if_pos h2, if_pos (by omega), List.mem_cons, List.mem_singleton, eq_ofNat (by omega),
      eq_ofNat (by omega)]
  rw [if_neg h2, if_neg (by omega)]
  by_cases h3 : n < 0x10000
  · rw [if_pos h3, if_pos (by omega), List.mem_cons, List.mem_cons, List.mem_singleton,
      eq_ofNat (by omega), eq_ofNat (by omega), eq_ofNat (by omega)]
  · rw [if_neg h3, if_neg (by omega), List.mem_cons, List.mem_cons, List.mem_cons,
      List.mem_singleton, eq_ofNat (by omega), eq_ofNat (by omega), eq_ofNat (by omega),
      eq_ofNat (by omega)]

/-- A byte below 128 stands for itself only. -/
theorem mem_encode_ascii (hb : b.toNat < 0x80) :
    b ∈ String.utf8EncodeChar c ↔ c.toNat = b.toNat := by
  rw [mem_encode_iff]
  split_ifs <;> omega

/-- A byte that continues a character carries six bits of its code point. -/
theorem mem_encode_continuation (hb : 0x80 ≤ b.toNat) (hb' : b.toNat < 0xC0) :
    b ∈ String.utf8EncodeChar c ↔
      0x80 ≤ c.toNat ∧ (c.toNat % 64 = b.toNat - 0x80 ∨
        0x800 ≤ c.toNat ∧ c.toNat / 64 % 64 = b.toNat - 0x80 ∨
        0x10000 ≤ c.toNat ∧ c.toNat / 4096 % 64 = b.toNat - 0x80) := by
  rw [mem_encode_iff]
  split_ifs <;> omega

end Utf8
