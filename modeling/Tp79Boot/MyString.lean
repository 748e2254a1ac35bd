import Mathlib.Data.Nat.Bits
import Tp79Boot.CString

/-!
# Hexadecimal conversion

`str_to_hex` and `hex_to_str` of `my_string.c`.  Every field of an update line
travels as hexadecimal text, so the packet format rests on one reading back
what the other prints.
-/

namespace Tp79Boot

def toupper (character : UInt8) : UInt8 :=
  if 0x61 ≤ character ∧ character ≤ 0x7A then character - 0x20 else character

/-- The value taken from one character.  Nothing checks that it is a digit. -/
def hexNibble (character : UInt8) : UInt8 :=
  let upper := toupper character
  if upper > 0x39 then upper - 0x37 else upper - 0x30

def hexByte (highByte lowByte : UInt8) : UInt8 :=
  (hexNibble highByte <<< 4) ||| hexNibble lowByte

/-- The bytes `str_to_hex` writes for `length` characters. -/
def strToHex (string : List UInt8) (length : Nat) : List UInt8 :=
  (List.range ((length + 1) / 2)).map fun index =>
    hexByte (byteAt string (2 * index)) (byteAt string (2 * index + 1))

/-- One character of `hex_to_str`: `48 + value`, and 7 more past `9`. -/
def hexDigit (value : UInt8) : UInt8 :=
  let digit := 48 + value
  if digit > 57 then digit + 7 else digit

def hexDigits (byte : UInt8) : List UInt8 :=
  [hexDigit (byte / 16), hexDigit (byte % 16)]

/-- The characters for some bytes, high digit first. -/
def hexChars (bytes : List UInt8) : List UInt8 :=
  bytes.flatMap hexDigits

/-- What `hex_to_str` writes: the characters and a terminating zero. -/
def hexToStr (source : List UInt8) (length : Nat) : List UInt8 :=
  hexChars (bytesAt source 0 length) ++ [0]

/-- A 16-bit variable filled byte by byte on the little-endian core. -/
def halfwordOfBytes (bytes : List UInt8) : UInt16 :=
  UInt16.ofNat ((byteAt bytes 0).toNat + 256 * (byteAt bytes 1).toNat)

/-- `((x>>8)&0x00ff) | ((x<<8)&0xff00)`. -/
def swapBytes (halfword : UInt16) : UInt16 :=
  ((halfword >>> 8) &&& (0x00FF : UInt16)) |||
    ((halfword <<< 8) &&& (0xFF00 : UInt16))

@[simp] theorem strToHex_length (string : List UInt8) (length : Nat) :
    (strToHex string length).length = (length + 1) / 2 := by
  simp [strToHex]

@[simp] theorem hexChars_length (bytes : List UInt8) :
    (hexChars bytes).length = 2 * bytes.length := by
  induction bytes with
  | nil => rfl
  | cons byte bytes induction =>
      simp only [hexChars, List.flatMap_cons, List.length_append,
        List.length_cons] at induction ⊢
      simp only [hexDigits, List.length_cons, List.length_nil]
      omega

private theorem hexByte_table : ∀ value : Fin 256,
    hexByte (hexDigit (UInt8.ofNat value / 16))
      (hexDigit (UInt8.ofNat value % 16)) = UInt8.ofNat value := by
  decide +kernel

theorem hexByte_hexDigits (byte : UInt8) :
    hexByte (hexDigit (byte / 16)) (hexDigit (byte % 16)) = byte := by
  have entry := hexByte_table ⟨byte.toNat, byte.toNat_lt⟩
  simpa using entry

/-- What is printed are digits below sixteen. -/
theorem hexChars_digit {bytes : List UInt8} {character : UInt8}
    (member : character ∈ hexChars bytes) :
    ∃ digit : Fin 16, character = hexDigit (UInt8.ofNat digit) := by
  obtain ⟨byte, _, digit⟩ := List.mem_flatMap.mp member
  have range := byte.toNat_lt
  rw [hexDigits, List.mem_cons, List.mem_singleton] at digit
  rcases digit with high | low
  · have small : (byte / 16).toNat < 16 := by
      rw [UInt8.toNat_div]
      exact Nat.div_lt_of_lt_mul range
    refine ⟨⟨(byte / 16).toNat, small⟩, ?_⟩
    rw [high, UInt8.ofNat_toNat]
  · have small : (byte % 16).toNat < 16 := by
      rw [UInt8.toNat_mod]
      exact Nat.mod_lt _ (by decide)
    refine ⟨⟨(byte % 16).toNat, small⟩, ?_⟩
    rw [low, UInt8.ofNat_toNat]

theorem hexChars_printable {bytes : List UInt8} {character : UInt8}
    (member : character ∈ hexChars bytes) :
    character ≠ 0 ∧ character ≠ 10 ∧ character ≠ 13 := by
  obtain ⟨digit, rfl⟩ := hexChars_digit member
  clear member
  revert digit
  decide

private theorem byteAt_hexChars (bytes rest : List UInt8) {index : Nat}
    (inside : index < bytes.length) :
    byteAt (hexChars bytes ++ rest) (2 * index) =
        hexDigit (bytes[index] / 16) ∧
      byteAt (hexChars bytes ++ rest) (2 * index + 1) =
        hexDigit (bytes[index] % 16) := by
  induction bytes generalizing index with
  | nil => simp at inside
  | cons byte bytes induction =>
      have unfolded : hexChars (byte :: bytes) ++ rest =
          hexDigits byte ++ (hexChars bytes ++ rest) := by
        simp [hexChars]
      rw [unfolded]
      cases index with
      | zero => exact ⟨rfl, rfl⟩
      | succ index =>
          have smaller := @induction index (by simpa using inside)
          have shift (offset : Nat) :
              byteAt (hexDigits byte ++ (hexChars bytes ++ rest)) (2 + offset) =
                byteAt (hexChars bytes ++ rest) offset :=
            byteAt_append_right (hexDigits byte) _ offset
          have even : 2 * (index + 1) = 2 + 2 * index := by omega
          rw [even, Nat.add_assoc, shift, shift]
          simpa using smaller

theorem strToHex_hexChars (bytes rest : List UInt8) :
    strToHex (hexChars bytes ++ rest) (2 * bytes.length) = bytes := by
  apply List.ext_getElem
  · simp
    omega
  · intro index _ inside
    have digits := byteAt_hexChars bytes rest inside
    simp only [strToHex, List.getElem_map, List.getElem_range]
    rw [digits.1, digits.2, hexByte_hexDigits]

@[simp] theorem halfwordOfBytes_toNat (low high : UInt8) :
    (halfwordOfBytes [low, high]).toNat = low.toNat + 256 * high.toNat := by
  have lowBelow := low.toNat_lt
  have highBelow := high.toNat_lt
  simp only [halfwordOfBytes, byteAt, UInt16.toNat_ofNat']
  simp
  omega

private theorem nat_swap_bytes {value : Nat} (below : value < 65536) :
    (value >>> 8 &&& 255) ||| (value <<< 8 % 65536 &&& 65280) =
      value / 256 + 256 * (value % 256) := by
  have high : value >>> 8 &&& 255 = value / 256 := by
    rw [Nat.shiftRight_eq_div_pow, Nat.and_two_pow_sub_one_eq_mod _ 8]
    omega
  have low : value <<< 8 % 65536 &&& 65280 = (value % 256) <<< 8 := by
    have shifted : value <<< 8 % 65536 = (value % 256) <<< 8 := by
      simp only [Nat.shiftLeft_eq]
      omega
    have mask : (65280 : Nat) = 255 <<< 8 := rfl
    rw [shifted, mask, ← Nat.shiftLeft_and_distrib,
      Nat.and_two_pow_sub_one_eq_mod _ 8, Nat.mod_mod]
  have small : value / 256 < 2 ^ 8 := by omega
  rw [high, low, Nat.or_comm, ← Nat.shiftLeft_add_eq_or_of_lt small,
    Nat.shiftLeft_eq]
  omega

theorem swapBytes_toNat (halfword : UInt16) :
    (swapBytes halfword).toNat =
      halfword.toNat / 256 + 256 * (halfword.toNat % 256) := by
  have swapped := nat_swap_bytes halfword.toNat_lt
  simpa [swapBytes] using swapped

theorem swapBytes_halfwordOfBytes (high low : UInt8) :
    (swapBytes (halfwordOfBytes [high, low])).toNat =
      256 * high.toNat + low.toNat := by
  have highBelow := high.toNat_lt
  rw [swapBytes_toNat, halfwordOfBytes_toNat]
  omega

end Tp79Boot
